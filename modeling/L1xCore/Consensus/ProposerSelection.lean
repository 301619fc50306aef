import L1xCore.Consensus.NextCommittee
import L1xCore.RuntimeConfig.ConfigCache

/-!
# `Consensus.ProposerSelection` — a proposer for the next epoch

`select_and_store_validators_and_proposer` narrows the selected validators down by the white list or the black
list of proposers, and `select_block_proposers` takes one of them at an index modulo their number. The two
filters are the branches of one `if let .. else if let ..` without a last `else`: a configuration that has
neither list leaves **nobody** to choose from, and the remainder by zero panics. With one of the lists the
choice is among those whom it admits.
-/

namespace L1xCore.Node

open Fallible ChainTables

variable {validator : Validator}

/-- The lists of proposers admit the address: the white list if there is one, the black list otherwise. -/
def MayPropose (config : RuntimeConfig) (address : Address) : Prop :=
  match config.whitelistedBlockProposers, config.blacklistedBlockProposers with
  | some whitelisted, _ => address ∈ whitelisted
  | none, some blacklisted => address ∉ blacklisted
  | none, none => True

/-- There is a list of proposers. -/
def HasProposerList (config : RuntimeConfig) : Prop :=
  config.whitelistedBlockProposers.isSome ∨ config.blacklistedBlockProposers.isSome

instance (config : RuntimeConfig) : Decidable (HasProposerList config) := inferInstanceAs (Decidable (_ ∨ _))

variable {n : Node} {config : RuntimeConfig} {selected : List Validator} {s : NodeState} {epoch : Epoch}
  {header : BlockHeader}

theorem mem_eligibleBlockProposers (hlist : HasProposerList config) :
    validator ∈ eligibleBlockProposers config selected ↔
      validator ∈ selected ∧ MayPropose config validator.address := by
  unfold HasProposerList at hlist
  unfold eligibleBlockProposers MayPropose
  cases hwhite : config.whitelistedBlockProposers with
  | some whitelisted => simp
  | none =>
    cases hblack : config.blacklistedBlockProposers with
    | some blacklisted => simp
    | none =>
      rw [hwhite, hblack] at hlist
      simp at hlist

theorem eligibleBlockProposers_eq_nil (hlist : ¬ HasProposerList config) :
    eligibleBlockProposers config selected = [] := by
  unfold HasProposerList at hlist
  unfold eligibleBlockProposers
  cases hwhite : config.whitelistedBlockProposers with
  | some whitelisted =>
    rw [hwhite] at hlist
    simp at hlist
  | none =>
    cases hblack : config.blacklistedBlockProposers with
    | some blacklisted =>
      rw [hblack] at hlist
      simp at hlist
    | none => rfl

/-- The last steps of a selection: the validators are stored, and the row of the proposer is inserted. -/
def storeCommittee (selected : List Validator) (proposer : BlockProposer) : Op Unit := do
  onChain (update (·.batchStoreValidators selected))
  let s ← state
  record (.selected proposer (rivals s.chain proposer))
  onChain (storeBlockProposer proposer)

/-- **A proposer is found**: one of the selected validators, admitted by the lists, is stored together with
    them. -/
def FindsProposer (n : Node) (config : RuntimeConfig) (selected : List Validator) (epoch : Epoch)
    (header : BlockHeader) (s : NodeState) : Prop :=
  ∃ validator ∈ selected, MayPropose config validator.address ∧
    (n.selectAndStoreValidatorsAndProposer epoch header).run s =
      (storeCommittee selected ⟨header.clusterAddress, epoch, validator.address⟩).run s

section

variable (hconfig : s.world.caches.getConfig = .ok config)
  (hselected : n.selectValidatorsForEpoch s.world header epoch = .ok selected)
include hconfig hselected

theorem run_selectAndStore :
    (n.selectAndStoreValidatorsAndProposer epoch header).run s =
      (n.selectBlockProposers epoch header (eligibleBlockProposers config selected)).run
        (s.withChain (s.chain.batchStoreValidators selected)) := by
  unfold selectAndStoreValidatorsAndProposer
  rw [run_bind_of_ok (run_state s), run_bind_of_ok (by rw [run_lift, hconfig]),
    run_bind_of_ok (by rw [run_lift, hselected])]
  rfl

theorem not_findsProposer (hlist : ¬ HasProposerList config) :
    ¬ n.FindsProposer config selected epoch header s := by
  rintro ⟨validator, -, -, hrun⟩
  rw [run_selectAndStore hconfig hselected, eligibleBlockProposers_eq_nil hlist] at hrun
  -- the panic comes before the selection is noted
  have hlog := congrArg (fun r => r.2.log.length) hrun
  have hunchanged : s.log.length = (s.log ++ [_]).length := hlog
  simp at hunchanged

/-- **When a proposer is found.** For every node, state, configuration, header and epoch, and all selected
    validators of whom the lists admit at least one: exactly if there is a list. -/
theorem findsProposer_iff (hadmitted : ∃ validator ∈ selected, MayPropose config validator.address) :
    n.FindsProposer config selected epoch header s ↔ HasProposerList config := by
  constructor
  · intro hfound
    by_contra hlist
    exact not_findsProposer hconfig hselected hlist hfound
  · intro hlist
    obtain ⟨admitted, hmem, hmay⟩ := hadmitted
    have heligible := (mem_eligibleBlockProposers hlist).mpr ⟨hmem, hmay⟩
    have hindex : (n.calculateSeed header.blockHash epoch).toNat %
        (eligibleBlockProposers config selected).length < (eligibleBlockProposers config selected).length :=
      Nat.mod_lt _ (List.length_pos_of_mem heligible)
    obtain ⟨validator, hchosen⟩ : ∃ validator, (eligibleBlockProposers config selected)[
        (n.calculateSeed header.blockHash epoch).toNat %
          (eligibleBlockProposers config selected).length]? = some validator :=
      ⟨_, List.getElem?_eq_getElem hindex⟩
    obtain ⟨hvalidator, hadmits⟩ := (mem_eligibleBlockProposers hlist).mp (List.mem_of_getElem? hchosen)
    refine ⟨validator, hvalidator, hadmits, ?_⟩
    rw [run_selectAndStore hconfig hselected]
    unfold selectBlockProposers
    dsimp only
    rw [hchosen]
    dsimp only
    have hloop : storeBlockProposers [(header.clusterAddress, [(epoch, validator.address)])] =
        storeBlockProposer ⟨header.clusterAddress, epoch, validator.address⟩ := by
      funext t
      show (storeBlockProposers _).run t = _
      rw [storeBlockProposers, run_forEach_singleton, run_forEach_singleton]
      rfl
    rw [hloop]
    rfl

end

/-! ## A configuration without lists -/

/-- Two nodes of the organisation, and the given black list of proposers. -/
def twoNodes (blacklistedBlockProposers : Option (List Address)) : ConfigVersion1 where
  orgNodes := [2, 1]
  whitelistedNodes := none
  whitelistedBlockProposers := none
  blacklistedNodes := none
  blacklistedBlockProposers
  maxBlockHeight := none
  maxValidators := 2
  xscoreThreshold := 0
  minBalance := 10
  validatedBlockReward := 0

/-- A decoder for an answer that is this configuration. -/
def decodesTo (parsed : ConfigVersion1) : ConfigDecoder where
  fromUtf8Lossy := id
  json := .ok
  base64 := .ok
  toml := fun _ => .ok parsed
  borsh := fun _ => .error "Unexpected length of input"

/-- Block 198 is the head, and the cache has been filled with a configuration. -/
def refreshed (parsed : ConfigVersion1) : NodeState :=
  { beforeLastBlock with
    world.caches := (((decodesTo parsed).refreshConfig []).run beforeLastBlock.world.caches).2 }

/-- What the two nodes are as validators. -/
def twoOrgValidators : List Validator := [⟨1, 0, 2, 0, 1⟩, ⟨2, 0, 2, 0, 1⟩]

/-- With an empty black list, one of the two proposes. -/
theorem findsProposer_blacklist :
    ((decodesTo (twoNodes (some []))).refreshConfig []).run beforeLastBlock.world.caches =
      (.ok (), (refreshed (twoNodes (some []))).world.caches) ∧
    selectingNode.FindsProposer (.ofVersion1 (twoNodes (some []))) twoOrgValidators 2 Small.header
      (refreshed (twoNodes (some []))) := by
  refine ⟨rfl, (findsProposer_iff rfl (by decide +kernel) ⟨⟨1, 0, 2, 0, 1⟩, ?_, ?_⟩).mpr (.inr rfl)⟩
  · exact List.mem_cons_self
  · exact List.not_mem_nil

/-- The cache accepts a configuration without lists, and the rollover panics. -/
theorem no_proposer_without_lists :
    ((decodesTo (twoNodes none)).refreshConfig []).run beforeLastBlock.world.caches =
      (.ok (), (refreshed (twoNodes none)).world.caches) ∧
    selectingNode.selectValidatorsForEpoch (refreshed (twoNodes none)).world Small.header 2 =
      .ok twoOrgValidators ∧
    ((selectingNode.selectAndStoreValidatorsAndProposer 2 Small.header).run (refreshed (twoNodes none))).1 =
      .error "attempt to calculate the remainder with a divisor of zero" ∧
    ¬ selectingNode.FindsProposer (.ofVersion1 (twoNodes none)) twoOrgValidators 2 Small.header
      (refreshed (twoNodes none)) := by
  have hselected : selectingNode.selectValidatorsForEpoch (refreshed (twoNodes none)).world Small.header 2 =
      .ok twoOrgValidators := by
    decide +kernel
  have hconfig : (refreshed (twoNodes none)).world.caches.getConfig = .ok (.ofVersion1 (twoNodes none)) := rfl
  refine ⟨rfl, hselected, ?_, not_findsProposer hconfig hselected (by decide)⟩
  rfl

end L1xCore.Node
