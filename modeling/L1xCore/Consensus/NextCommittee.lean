import L1xCore.Consensus.VoteResults
import L1xCore.Validator.ValidatorManager

/-!
# `Consensus.NextCommittee` — the committee of the next epoch

A node executes a block in two ways: it finalises a pending block, or it is sent a block that others have
finalised. Validators and proposer of the next epoch are selected on the first way only. On the second one
the tables of validators and proposers stay as they are, so the two ways leave different committees unless
the one that is selected was stored before (`nextCommittee_iff`).
-/

namespace L1xCore

open Fallible List

variable {validators : List Validator} {header : BlockHeader} {choice : RowChoice} {payload : BlockPayload}
  {proposer : BlockProposer}

namespace ChainTables

/-- Validators and a proposer are stored for the epoch. -/
def HasCommittee (t : ChainTables) (epoch : Epoch) : Prop :=
  (t.loadAllValidators epoch).isSome ∧ ∃ proposer ∈ t.blockProposer, proposer.epoch = epoch

/-- The same validators and the same proposers are stored for the epoch. -/
def SameCommittee (epoch : Epoch) (t t' : ChainTables) : Prop :=
  (∀ address, t'.validator.lookup (address, epoch) = t.validator.lookup (address, epoch)) ∧
    ∀ proposer, proposer.epoch = epoch → (proposer ∈ t'.blockProposer ↔ proposer ∈ t.blockProposer)

/-- The committee is stored already: every validator has a row, and so has the proposer. -/
structure Holds (t : ChainTables) (validators : List Validator) (proposer : BlockProposer) : Prop where
  validators : ∀ v ∈ validators, (t.validator.lookup (v.address, v.epoch)).isSome
  proposer : proposer ∈ t.blockProposer

/-- The tables with a committee. -/
def install (t : ChainTables) (validators : List Validator) (proposer : BlockProposer) : ChainTables :=
  { t.batchStoreValidators validators with blockProposer := t.blockProposer ++ [proposer] }

/-- The tables of validators and proposers are the same. -/
structure SameCommittees (t t' : ChainTables) : Prop where
  validator : t'.validator = t.validator
  blockProposer : t'.blockProposer = t.blockProposer

instance : Std.Refl SameCommittees := ⟨fun _ => ⟨rfl, rfl⟩⟩

instance : IsTrans ChainTables SameCommittees :=
  ⟨fun _ _ _ h₁ h₂ => ⟨h₂.validator.trans h₁.validator, h₂.blockProposer.trans h₁.blockProposer⟩⟩

variable {t t' : ChainTables} {epoch : Epoch} {key : Address × Epoch}

theorem sameCommittee_comm : SameCommittee epoch t t' ↔ SameCommittee epoch t' t := by
  unfold SameCommittee
  simp only [eq_comm, iff_comm]

/-- Tables with the same rows of validators and proposers have the same committees. -/
theorem sameCommittee_congr {u u' : ChainTables} (h : SameCommittees t u) (h' : SameCommittees t' u') :
    SameCommittee epoch u u' ↔ SameCommittee epoch t t' := by
  unfold SameCommittee
  rw [h.validator, h.blockProposer, h'.validator, h'.blockProposer]

theorem SameCommittees.hasCommittee_iff (h : SameCommittees t t') :
    t'.HasCommittee epoch ↔ t.HasCommittee epoch := by
  unfold HasCommittee loadAllValidators
  rw [h.validator, h.blockProposer]

/-- Validators are stored for an epoch when there is a row with it. -/
theorem isSome_loadAllValidators :
    (t.loadAllValidators epoch).isSome ↔ ∃ address, (t.validator.lookup (address, epoch)).isSome := by
  have hrows : (t.loadAllValidators epoch).isSome ↔ ∃ row ∈ t.validator.entries, row.1.2 = epoch := by
    unfold loadAllValidators
    cases hfound : (t.validator.entries.filter (·.1.2 = epoch)).map
        (fun row => validatorOf row.1 row.2) with
    | nil =>
      rw [map_eq_nil_iff, filter_eq_nil_iff] at hfound
      refine iff_of_false (by simp) ?_
      rintro ⟨row, hrow, hepoch⟩
      exact hfound row hrow (decide_eq_true hepoch)
    | cons validator validators =>
      refine iff_of_true rfl ?_
      have hmem : validator ∈ (t.validator.entries.filter (·.1.2 = epoch)).map
          (fun row => validatorOf row.1 row.2) := by
        rw [hfound]
        exact mem_cons_self
      obtain ⟨row, hrow, _⟩ := mem_map.mp hmem
      obtain ⟨hrow, hepoch⟩ := mem_filter.mp hrow
      exact ⟨row, hrow, of_decide_eq_true hepoch⟩
  rw [hrows]
  constructor
  · rintro ⟨⟨⟨address, _⟩, row⟩, hrow, rfl⟩
    exact ⟨address, by rw [AList.mem_entries.mp hrow]; rfl⟩
  · rintro ⟨address, hrow⟩
    obtain ⟨row, hrow⟩ := Option.isSome_iff_exists.mp hrow
    exact ⟨⟨(address, epoch), row⟩, AList.mem_entries.mpr hrow, rfl⟩

theorem isSome_lookup_batchStoreValidators
    (h : (t.validator.lookup key).isSome ∨ ∃ v ∈ validators, (v.address, v.epoch) = key) :
    ((t.batchStoreValidators validators).validator.lookup key).isSome := by
  unfold batchStoreValidators
  generalize t.validator = table at h
  induction validators generalizing table with
  | nil => exact h.resolve_right fun ⟨_, hmem, _⟩ => absurd hmem not_mem_nil
  | cons v validators ih =>
    refine ih _ ?_
    rw [AList.lookup_upsert]
    rcases h with hrow | ⟨other, hother, hkey⟩
    · split
      · exact .inl rfl
      · exact .inl hrow
    · rcases mem_cons.mp hother with rfl | hmem
      · rw [if_pos hkey.symm]
        exact .inl rfl
      · exact .inr ⟨other, hmem, hkey⟩

theorem lookup_batchStoreValidators
    (h : (t.validator.lookup key).isSome ∨ ∀ v ∈ validators, (v.address, v.epoch) ≠ key) :
    (t.batchStoreValidators validators).validator.lookup key = t.validator.lookup key := by
  unfold batchStoreValidators
  generalize t.validator = table at h
  induction validators generalizing table with
  | nil => rfl
  | cons v validators ih =>
    -- what holds of the first validator holds of the table that the others are added to
    have hfirst : (table.upsert (v.address, v.epoch) id ⟨v.clusterAddress, v.stake, v.xscore⟩).lookup key =
        table.lookup key := by
      rw [AList.lookup_upsert]
      split
      · next hkey =>
          rcases h with hsome | hnone
          · obtain ⟨row, hrow⟩ := Option.isSome_iff_exists.mp hsome
            rw [← hkey, hrow]
            rfl
          · exact absurd hkey.symm (hnone v List.mem_cons_self)
      · rfl
    rw [List.foldl_cons, ih, hfirst]
    rw [hfirst]
    exact h.imp_right fun hnone v' hv' => hnone v' (List.mem_cons_of_mem v hv')

/-- **Installing a committee makes no difference** if it is stored already, and only then. -/
theorem sameCommittee_install_iff (hvalidators : ∀ v ∈ validators, v.epoch = epoch)
    (hproposer : proposer.epoch = epoch) :
    SameCommittee epoch t (t.install validators proposer) ↔ t.Holds validators proposer := by
  constructor
  · rintro ⟨hrows, hproposers⟩
    refine ⟨fun v hv => ?_, (hproposers proposer hproposer).mp (mem_append_right _ (mem_singleton_self _))⟩
    rw [hvalidators v hv, ← hrows v.address]
    exact isSome_lookup_batchStoreValidators (.inr ⟨v, hv, Prod.ext rfl (hvalidators v hv)⟩)
  · rintro ⟨hrows, hrow⟩
    constructor
    · intro address
      refine lookup_batchStoreValidators ?_
      by_cases hstored : ∃ v ∈ validators, (v.address, v.epoch) = (address, epoch)
      · obtain ⟨v, hv, hkey⟩ := hstored
        rw [← hkey]
        exact .inl (hrows v hv)
      · exact .inr fun v hv hkey => hstored ⟨v, hv, hkey⟩
    · intro other _
      refine ⟨fun hmem => ?_, mem_append_left _⟩
      rcases mem_append.mp hmem with hother | hother
      · exact hother
      · rw [mem_singleton.mp hother]
        exact hrow

theorem updateHead_sameCommittees : SameCommittees t (t.updateHead header) := by
  unfold updateHead
  split
  · exact ⟨rfl, rfl⟩
  · exact refl_of SameCommittees t

theorem storeBlock_sameCommittees (block : Block) : SameCommittees t (t.storeBlock block) :=
  ⟨updateHead_sameCommittees.validator, storeBlock_blockProposer block⟩

end ChainTables

open ChainTables

theorem World.executeBlock_sameCommittees (pf : Platform) (block : Block) (w : World) :
    SameCommittees w.db.chain ((executeBlock pf block).run w).2.db.chain := by
  rcases executeBlock_chain_cases with hsame | hmarked
  · rw [hsame]
    exact refl_of SameCommittees _
  · rw [hmarked]
    unfold setBlockExecuted
    split
    · exact ⟨rfl, rfl⟩
    · exact refl_of SameCommittees _

namespace Node

variable {n : Node} {block : Block} {s s' : NodeState} {voteResult : Option VoteResult}

/-! ## What leaves the committees alone -/

/-- Neither validators nor proposers are touched. -/
def KeepsCommittees (s s' : NodeState) : Prop := SameCommittees s.chain s'.chain

instance : Std.Refl KeepsCommittees := ⟨fun _ => refl_of SameCommittees _⟩

instance : IsTrans NodeState KeepsCommittees := ⟨fun _ _ _ h₁ h₂ => trans_of SameCommittees h₁ h₂⟩

theorem SameWorld.keepsCommittees (h : SameWorld s s') : KeepsCommittees s s' := by
  rw [KeepsCommittees, NodeState.chain, NodeState.chain, h]
  exact refl_of SameCommittees _

theorem storeVoteResult_keepsCommittees {voteResult : VoteResult} :
    Moves KeepsCommittees (onChain (storeVoteResult voteResult)) := by
  intro s
  unfold storeVoteResult
  split
  · exact ⟨rfl, rfl⟩
  · exact ⟨rfl, rfl⟩

theorem storeBlock_keepsCommittees : Moves KeepsCommittees (storeBlock block) :=
  fun _ => storeBlock_sameCommittees block

theorem executeBlock_keepsCommittees : Moves KeepsCommittees (n.executeBlock block) :=
  (Moves.update fun _ => ⟨rfl, rfl⟩).bind fun _ =>
    .bind (fun s => World.executeBlock_sameCommittees n.platform block s.world)
      fun _ => .update fun _ => ⟨rfl, rfl⟩

theorem storeReceivedVoteResult_keepsCommittees :
    Moves KeepsCommittees (n.storeReceivedVoteResult block voteResult) := by
  cases voteResult with
  | none => exact .pure ()
  | some voteResult =>
    refine .bind (fun s => ?_) fun _ => storeVoteResult_keepsCommittees
    obtain ⟨s', hrun, hworld⟩ := n.validateVoteResults_run block [voteResult] s
    rw [hrun]
    exact SameWorld.keepsCommittees hworld

/-! ## Rolling over -/

/-- The epoch of the next block, by its number. -/
def newEpoch (header : BlockHeader) : Epoch := calculateCurrentEpoch (header.blockNumber + 1)

/-- The proposer of an epoch among the eligible validators. -/
def chosenProposer (n : Node) (epoch : Epoch) (header : BlockHeader) (validators : List Validator) :
    Option BlockProposer :=
  validators[(n.calculateSeed header.blockHash epoch).toNat % validators.length]?.map fun validator =>
    ⟨header.clusterAddress, epoch, validator.address⟩

/-- What a rollover selects, from the head of the chain and the configuration. -/
def Selects (n : Node) (header : BlockHeader) (w : World) (selected : List Validator)
    (proposer : BlockProposer) : Prop :=
  ∃ last config, w.db.chain.blockHeadHeader header.clusterAddress = .ok last ∧
    w.caches.getConfig = .ok config ∧ n.selectValidatorsForEpoch w last (newEpoch header) = .ok selected ∧
    n.chosenProposer (newEpoch header) last (eligibleBlockProposers config selected) = some proposer

variable {NodeHealth : Type} {m : ValidatorManager NodeHealth} {selected : List Validator} {w : World}

theorem Selects.unique {selected' : List Validator} {proposer' : BlockProposer}
    (h : n.Selects header w selected proposer) (h' : n.Selects header w selected' proposer') :
    selected' = selected ∧ proposer' = proposer := by
  obtain ⟨last, config, hlast, hconfig, hselected, hproposer⟩ := h
  obtain ⟨last', config', hlast', hconfig', hselected', hproposer'⟩ := h'
  cases hlast.symm.trans hlast'
  cases hconfig.symm.trans hconfig'
  cases hselected.symm.trans hselected'
  exact ⟨rfl, Option.some.inj (hproposer'.symm.trans hproposer)⟩

/-- Everything that is selected is for the next epoch, and the proposer is one of the validators. -/
theorem Selects.epoch (hselect : n.selectValidatorsForEpoch = m.selectValidatorsForEpoch)
    (h : n.Selects header w selected proposer) :
    (∀ v ∈ selected, v.epoch = newEpoch header) ∧ proposer.epoch = newEpoch header ∧
      ∃ v ∈ selected, v.address = proposer.address := by
  obtain ⟨last, config, -, -, hselected, hproposer⟩ := h
  rw [hselect] at hselected
  obtain ⟨validator, hchosen, rfl⟩ := Option.map_eq_some_iff.mp hproposer
  have hvalidator := mem_of_getElem? hchosen
  refine ⟨ValidatorManager.selectValidatorsForEpoch_epoch hselected, rfl, validator, ?_, rfl⟩
  unfold eligibleBlockProposers at hvalidator
  split at hvalidator
  · exact mem_of_mem_filter hvalidator
  · exact mem_of_mem_filter hvalidator
  · cases hvalidator

theorem Selects.hasCommittee (hselect : n.selectValidatorsForEpoch = m.selectValidatorsForEpoch)
    (h : n.Selects header w selected proposer) (t : ChainTables) :
    (t.install selected proposer).HasCommittee (newEpoch header) := by
  obtain ⟨hvalidators, hproposer, v, hv, -⟩ := h.epoch hselect
  refine ⟨isSome_loadAllValidators.mpr ⟨v.address, ?_⟩,
    _, mem_append_right _ (mem_singleton_self _), hproposer⟩
  exact isSome_lookup_batchStoreValidators (.inr ⟨v, hv, Prod.ext rfl (hvalidators v hv)⟩)

/-- **A successful rollover installs what it selects.** -/
theorem rollover_ok (h : (n.rollover header).run s = (.ok (), s')) :
    (header.epoch < newEpoch header ∧ ∃ selected proposer, n.Selects header s.world selected proposer ∧
        s'.chain = s.chain.install selected proposer) ∨
      (newEpoch header ≤ header.epoch ∧ s' = s) := by
  unfold rollover at h
  dsimp only at h
  split at h
  · next hepoch =>
      refine .inl ⟨hepoch, ?_⟩
      rw [run_bind_of_ok (run_state s)] at h
      obtain ⟨last, _, hlast, hmapped⟩ := run_bind_ok h
      obtain ⟨hlast, rfl⟩ := run_lift_ok hlast
      have hstores := run_mapError_ok hmapped
      rw [selectAndStoreValidatorsAndProposer, run_bind_of_ok (run_state _)] at hstores
      obtain ⟨config, _, hconfig, hselects⟩ := run_bind_ok hstores
      obtain ⟨hconfig, rfl⟩ := run_lift_ok hconfig
      obtain ⟨selected, _, hselected, hbatch⟩ := run_bind_ok hselects
      obtain ⟨hselected, rfl⟩ := run_lift_ok hselected
      obtain ⟨_, _, hstore, hpropose⟩ := run_bind_ok hbatch
      cases hstore
      unfold selectBlockProposers at hpropose
      dsimp only at hpropose
      split at hpropose
      · cases hpropose
      next validator hchosen =>
      unfold onChain onWorld World.onChain at hpropose
      obtain ⟨w, hworld, rfl⟩ := run_zoom_ok hpropose
      obtain ⟨t, hstore, rfl⟩ := run_zoom_ok hworld
      rw [storeBlockProposers, run_forEach_singleton, run_forEach_singleton] at hstore
      cases hstore
      refine ⟨selected, _, ⟨last, config, hlast, hconfig, hselected, ?_⟩, rfl⟩
      rw [chosenProposer, newEpoch, hchosen]
      rfl
  · next hepoch =>
      cases h
      exact .inr ⟨BitVec.not_lt.mp hepoch, rfl⟩

/-! ## Two ways to execute a block -/

/-- The two ways by which a node comes to execute a block. -/
inductive ExecutionPath where
  | tryToFinalize
  | receiveBlock
  deriving DecidableEq

/-- The node executes the block on a path, without an error. -/
inductive Executes (n : Node) (block : Block) : ExecutionPath → NodeState → NodeState → Prop
  | finalized {choice : RowChoice} {entry : PendingBlock} {payload : BlockPayload} {s s' : NodeState}
      (hblock : entry.block = some payload) (hpayload : payload.block = block)
      (hrun : (n.tryToFinalizeBlock choice entry).run s = (.ok (), s')) :
      Executes n block .tryToFinalize s s'
  | received {payload : BlockPayload} {voteResult : Option VoteResult} {s s' : NodeState}
      (hnew : s.chain.isBlockExecuted block.blockHeader.blockNumber n.clusterAddress = false)
      (hpayload : payload.block = block)
      (hvalid : n.validate.validateBlock s.world payload n.clusterAddress payload.sender = .ok ())
      (hrun : (n.executeReceivedBlock block voteResult).run s = (.ok (), s')) :
      Executes n block .receiveBlock s s'

/-- **What a node does to the committees when it executes a block.** -/
theorem Executes.cases {path : ExecutionPath} (h : n.Executes block path s s') :
    (path = .tryToFinalize ∧ block.blockHeader.epoch < newEpoch block.blockHeader ∧
        ∃ selected proposer, n.Selects block.blockHeader s.world selected proposer ∧
          SameCommittees (s.chain.install selected proposer) s'.chain) ∨
      (¬ (path = .tryToFinalize ∧ block.blockHeader.epoch < newEpoch block.blockHeader) ∧
        KeepsCommittees s s') := by
  cases h with
  | finalized hblock hpayload hrun =>
    subst hpayload
    -- the last steps are reached with the world it started with
    obtain ⟨s₀, hworld, hreached⟩ := run_tryToFinalizeBlock hblock s
    rw [hreached] at hrun
    obtain ⟨passed, s₁, hdecided, hfinish⟩ := run_bind_ok hrun
    rw [(run_lift_ok hdecided).2] at hfinish
    have hchain : s₀.chain = s.chain := congrArg (·.db.chain) hworld
    obtain ⟨_, s₂, hrollover, hrest⟩ := run_bind_ok hfinish
    have hkeeps : KeepsCommittees s₂ s' := (storeVoteResult_keepsCommittees.bind fun _ =>
      storeBlock_keepsCommittees.bind fun _ => executeBlock_keepsCommittees).of_run hrest
    rcases rollover_ok hrollover with ⟨hepoch, selected, proposer, hselects, hinstalled⟩ | ⟨hepoch, rfl⟩
    · rw [KeepsCommittees, hinstalled, hchain] at hkeeps
      rw [hworld] at hselects
      exact .inl ⟨rfl, hepoch, selected, proposer, hselects, hkeeps⟩
    · rw [KeepsCommittees, hchain] at hkeeps
      exact .inr ⟨fun h => absurd h.2 (BitVec.not_lt.mpr hepoch), hkeeps⟩
  | @received _ voteResult _ _ _ _ _ hrun =>
    have hmoves : Moves KeepsCommittees (n.executeReceivedBlock block voteResult) :=
      storeBlock_keepsCommittees.bind fun _ =>
        storeReceivedVoteResult_keepsCommittees.bind fun _ =>
          executeBlock_keepsCommittees
    have hmoved := hmoves s
    rw [hrun] at hmoved
    exact .inr ⟨fun hpath => absurd hpath.1 (by decide), hmoved⟩

/-- **Only finalising selects the next committee.** After the execution of a block the committee of the next
    epoch is stored if it was before, or if the node finalised the block itself and its header carries an
    older epoch. From one state the two ways end with the same committee when neither selects one, or when
    the selection is what is stored already. -/
theorem nextCommittee_iff (hselect : n.selectValidatorsForEpoch = m.selectValidatorsForEpoch)
    (block : Block) (s : NodeState) :
    (∀ path s', n.Executes block path s s' →
      (s'.chain.HasCommittee (newEpoch block.blockHeader) ↔
        s.chain.HasCommittee (newEpoch block.blockHeader) ∨
          path = .tryToFinalize ∧ block.blockHeader.epoch < newEpoch block.blockHeader)) ∧
    (∀ s₁ s₂, n.Executes block .tryToFinalize s s₁ → n.Executes block .receiveBlock s s₂ →
      (SameCommittee (newEpoch block.blockHeader) s₁.chain s₂.chain ↔
        newEpoch block.blockHeader ≤ block.blockHeader.epoch ∨
          ∃ selected proposer, n.Selects block.blockHeader s.world selected proposer ∧
            s.chain.Holds selected proposer)) := by
  constructor
  · intro path s' hexecutes
    rcases hexecutes.cases with ⟨hpath, hepoch, selected, proposer, hselects, hsame⟩ | ⟨hpath, hkeeps⟩
    · exact iff_of_true (hsame.hasCommittee_iff.mpr (hselects.hasCommittee hselect s.chain))
        (.inr ⟨hpath, hepoch⟩)
    · rw [or_iff_left hpath]
      exact hkeeps.hasCommittee_iff
  · intro s₁ s₂ hfinalized hreceived
    have hsame : KeepsCommittees s s₂ := by
      rcases hreceived.cases with ⟨hpath, _⟩ | ⟨_, hkeeps⟩
      · cases hpath
      · exact hkeeps
    rcases hfinalized.cases with ⟨_, hepoch, selected, proposer, hselects, hinstalled⟩ | ⟨hpath, hkeeps⟩
    · -- finalising has installed a committee, and the other way leaves the tables as they were
      obtain ⟨hvalidators, hproposer, -⟩ := hselects.epoch hselect
      rw [sameCommittee_congr hinstalled hsame, sameCommittee_comm,
        sameCommittee_install_iff hvalidators hproposer, or_iff_right (BitVec.not_le.mpr hepoch)]
      refine ⟨fun hholds => ⟨selected, proposer, hselects, hholds⟩, ?_⟩
      rintro ⟨selected', proposer', hselects', hholds⟩
      obtain ⟨rfl, rfl⟩ := hselects.unique hselects'
      exact hholds
    · refine iff_of_true ⟨fun address => ?_, fun proposer _ => ?_⟩
        (.inl (BitVec.not_lt.mp fun hepoch => hpath ⟨rfl, hepoch⟩))
      · rw [hsame.validator, hkeeps.validator]
      · rw [hsame.blockProposer, hkeeps.blockProposer]

/-! ## The last block of epoch 1 -/

/-- A selection among the nodes of the organisation: no other node has a record. -/
def smallManager : ValidatorManager Unit where
  crypto := Small.crypto
  loadNodeInfo := fun _ _ => .error "Diesel query failed: Record not found"
  loadNodeHealth := fun _ _ _ => .ok none
  calculateXscore := fun _ _ _ _ => .ok 0
  partialShuffle := fun _ validators amount => validators.take amount
  partialShuffle_subperm := fun _ => ValidatorManager.take_subperm
  length_partialShuffle := fun _ _ _ => length_take

def selectingNode : Node :=
  { Small.node 1 (fun _ => []) with
    selectValidatorsForEpoch := smallManager.selectValidatorsForEpoch }

/-- Block 198 is the head, and node 1 is a validator of epoch 1 and belongs to the organisation. -/
def beforeLastBlock : NodeState :=
  let w := Small.atHead 198 [(1, 1)] [⟨0, 1, 9⟩]
  start { w with caches.config := some ⟨[1], 10, none, 0, none, some [], none, none, 2, 0⟩ }

def lastBlock : BlockPayload := Small.proposal 9 199 1 0

/-- The last block is pending, together with a vote result for it. -/
def pendingLastBlock : PendingBlock := ⟨[], [voteResultFor lastBlock], some lastBlock⟩

theorem lastBlock_finalized :
    selectingNode.Executes lastBlock.block .tryToFinalize beforeLastBlock
      ((selectingNode.tryToFinalizeBlock .first pendingLastBlock).run beforeLastBlock).2 := by
  have hblock : pendingLastBlock.block = some lastBlock := rfl
  exact .finalized hblock rfl (run_eq_of_fst (by decide +kernel))

theorem nextCommittee_lastBlock :
    ∃ s', selectingNode.Executes lastBlock.block .tryToFinalize beforeLastBlock s' ∧
      newEpoch lastBlock.block.blockHeader = 2 ∧ s'.chain.HasCommittee 2 := by
  have hselect : selectingNode.selectValidatorsForEpoch = smallManager.selectValidatorsForEpoch := rfl
  have hiff := (nextCommittee_iff hselect lastBlock.block beforeLastBlock).1 _ _ lastBlock_finalized
  exact ⟨_, lastBlock_finalized, (by decide), hiff.mpr (.inr ⟨rfl, by decide⟩)⟩

/-- A node that receives the last block of epoch 1 executes it, and has no committee for epoch 2. -/
theorem nextCommittee_missing :
    ∃ s', selectingNode.Executes lastBlock.block .receiveBlock beforeLastBlock s' ∧
      calculateCurrentEpoch lastBlock.block.blockHeader.blockNumber = 1 ∧
      newEpoch lastBlock.block.blockHeader = 2 ∧ ¬ s'.chain.HasCommittee 2 := by
  have hok : ((selectingNode.executeReceivedBlock lastBlock.block none).run beforeLastBlock).1 = .ok () := by
    decide +kernel
  refine ⟨_, .received (by decide +kernel) rfl (by decide +kernel) (run_eq_of_fst hok), by decide, by decide, ?_⟩
  rintro ⟨hvalidators, _⟩
  revert hvalidators
  decide +kernel

end Node

end L1xCore
