import L1xCore.Consensus.Handlers

/-!
# `Consensus.ProposerAuthority` — who may propose is selected

Rows of the proposer table have three sources: the row of genesis, the selection at the end of an epoch, and
announcements of other nodes. An announcement has to be signed, by whomever; what keeps it out is the length
of its key. It is converted to **32** bytes, and no public key has that length, so every announcement is
refused (`validateBlockProposer_refuses`). The rows of later epochs are therefore all selected.

That a later epoch has **one** proposer is another matter. The table accepts a second row for an epoch, and a
query may then return either. The node rolls over into an epoch whenever a finalised block carries an older
epoch in its header, which nothing compares with its number, and the seed is the head of the chain at that
time. `authority_of_freshRollovers` says what follows if no rollover finds a proposer of its epoch.
-/

namespace L1xCore

open Fallible ChainTables NodeEvent List

variable {proposer : BlockProposer} {t : ChainTables}

/-- The proposer was selected by the node. -/
def Selected (log : List NodeEvent) (proposer : BlockProposer) : Prop :=
  ∃ present, selected proposer present ∈ log

/-- A selection for an epoch after `first` found no proposer of its cluster and epoch in the table. -/
def NodeEvent.isFresh (first : Epoch) : NodeEvent → Bool
  | .selected proposer present => proposer.epoch ≤ first || present.isEmpty
  | _ => true

/-- Every rollover went into an epoch without a proposer. -/
def FreshRollovers (first : Epoch) (log : List NodeEvent) : Prop :=
  log.all (isFresh first) = true

instance (first : Epoch) (log : List NodeEvent) : Decidable (FreshRollovers first log) :=
  inferInstanceAs (Decidable (_ = true))

/-- Proposers come from selection, in a state of a node whose table started with one row. -/
structure AuthorityFromSelection (initial : BlockProposer) (s : NodeState) : Prop where
  /-- Whichever row a query for a later epoch picks, it is the one that was selected for the epoch. -/
  loaded : ∀ choice cluster epoch proposer, initial.epoch < epoch →
    s.chain.loadBlockProposer choice cluster epoch = .ok proposer →
      Selected s.log proposer ∧
        ∀ other, Selected s.log other → other.clusterAddress = cluster → other.epoch = epoch →
          other = proposer
  /-- A row that a key of the table would refuse is the first one or was selected. -/
  blocked : ∀ proposer ∈ s.chain.blockProposer, proposer = initial ∨ Selected s.log proposer

namespace Node

variable {n : Node} {condition : NodeState → NodeInput → Prop} {s s' : NodeState}
  {initial : BlockProposer}

/-! ## Announcements -/

/-- The curve library takes no key of 32 bytes: they have 33 or 65. -/
def RefusesShortKeys (crypto : Crypto) : Prop :=
  ∀ bytes : Bytes, bytes.length = 32 → crypto.publicKeyFromSlice bytes = none

/-- **Every announcement is refused**, whoever signed it and whatever it names. -/
theorem validateBlockProposer_refuses (hkeys : RefusesShortKeys n.platform.rt.crypto)
    (payload : BlockProposerPayload) : n.validate.validateBlockProposer payload ≠ .ok () := by
  intro haccepted
  change n.platform.rt.verifyBlockProposerPayload payload = .ok () at haccepted
  unfold Runtime.verifyBlockProposerPayload Runtime.verify at haccepted
  split at haccepted
  · cases haccepted
  split at haccepted
  · cases haccepted
  next hlength =>
  rw [hkeys payload.verifyingKey (not_not.mp hlength)] at haccepted
  split at haccepted <;> cases haccepted

/-! ## The table of proposers -/

theorem mem_insertProposer {row : BlockProposer} :
    row ∈ (insertProposer t proposer).blockProposer ↔ row ∈ t.blockProposer ∨ row = proposer :=
  mem_append.trans (or_congr_right mem_singleton)

/-- **The table changes by selection alone.** -/
theorem Effect.proposers_cases (hkeys : RefusesShortKeys n.platform.rt.crypto) (h : n.Effect condition s s') :
    (s'.chain.blockProposer = s.chain.blockProposer ∧
        ∀ proposer present, selected proposer present ∈ s'.log → selected proposer present ∈ s.log) ∨
      ∃ proposer, s'.chain = insertProposer s.chain proposer ∧
        s'.log = s.log ++ [.selected proposer (rivals s.chain proposer)] := by
  -- what the other effects log is not a selection
  have hother : ∀ {log : List NodeEvent} {event : NodeEvent},
      (∀ proposer present, selected proposer present ≠ event) →
        ∀ proposer present, selected proposer present ∈ log ++ [event] → selected proposer present ∈ log := by
    intro log event hne proposer present hmem
    by_contra hnew
    exact hne proposer present (new_of_concat hmem hnew)
  cases h with
  | select proposer => exact .inr ⟨proposer, rfl, rfl⟩
  | announce hvalid => exact absurd hvalid (validateBlockProposer_refuses hkeys _)
  | vote | accept | pass | finish | propose =>
    exact .inl ⟨rfl, hother fun _ _ h => by cases h⟩
  | storeApproved | storeReceived =>
    exact .inl ⟨storeBlock_blockProposer _, hother fun _ _ h => by cases h⟩
  | @execute block hstored =>
    refine .inl ⟨?_, hother fun _ _ h => by cases h⟩
    rcases World.executeBlock_chain_cases with hsame | hmarked
    · exact congrArg blockProposer hsame
    · exact (congrArg blockProposer hmarked).trans
        (setBlockExecuted_blockProposer _ _)
  | storeVoteResult voteResult =>
    exact .inl ⟨storeVoteResult_blockProposer voteResult s.chain, fun _ _ h => h⟩
  | storeValidators | keepVote | keepVoteResult | keepBlock | remove | dropConflicting =>
    exact .inl ⟨rfl, fun _ _ h => h⟩

/-- The invariant: the rows are the first one and the selected ones, and of the latter there is one for each
    cluster and epoch. -/
structure RowsSelected (initial : BlockProposer) (s : NodeState) : Prop where
  rows : ∀ row ∈ s.chain.blockProposer, row = initial ∨ Selected s.log row
  stored : ∀ proposer, Selected s.log proposer → proposer ∈ s.chain.blockProposer
  unique : ∀ proposer other, Selected s.log proposer → Selected s.log other →
    initial.epoch < proposer.epoch → other.clusterAddress = proposer.clusterAddress →
      other.epoch = proposer.epoch → other = proposer

theorem RowsSelected.of_same (hs : RowsSelected initial s)
    (hrows : s'.chain.blockProposer = s.chain.blockProposer)
    (hselected : ∀ proposer, Selected s'.log proposer ↔ Selected s.log proposer) :
    RowsSelected initial s' := by
  refine ⟨fun row hrow => ?_, fun proposer h => ?_, fun proposer other h h' => ?_⟩
  · rw [hrows] at hrow
    rw [hselected]
    exact hs.rows row hrow
  · rw [hrows]
    exact hs.stored proposer ((hselected proposer).mp h)
  · exact hs.unique proposer other ((hselected proposer).mp h) ((hselected other).mp h')

theorem RowsSelected.select (hs : RowsSelected initial s)
    (hchain : s'.chain = insertProposer s.chain proposer)
    (hlog : s'.log = s.log ++ [.selected proposer (rivals s.chain proposer)])
    (hfresh : initial.epoch < proposer.epoch → rivals s.chain proposer = []) : RowsSelected initial s' := by
  have hselected : ∀ other, Selected s'.log other ↔ Selected s.log other ∨ other = proposer := by
    intro other
    simp only [Selected, hlog, mem_append, mem_singleton, selected.injEq]
    constructor
    · rintro ⟨present, hold | ⟨rfl, -⟩⟩
      · exact .inl ⟨present, hold⟩
      · exact .inr rfl
    · rintro (⟨present, hold⟩ | rfl)
      · exact ⟨present, .inl hold⟩
      · exact ⟨_, .inr ⟨rfl, rfl⟩⟩
  -- an earlier selection for the epoch would be a row the rollover has found
  have hnone : ∀ other, Selected s.log other → initial.epoch < proposer.epoch →
      other.clusterAddress = proposer.clusterAddress → other.epoch = proposer.epoch → False := by
    intro other hother hlater hcluster hepoch
    have hrival : other ∈ rivals s.chain proposer :=
      mem_filter.mpr ⟨hs.stored other hother, decide_eq_true ⟨hcluster, hepoch⟩⟩
    rw [hfresh hlater] at hrival
    cases hrival
  refine ⟨fun row hrow => ?_, fun other h => ?_, fun p q hp hq hlater hcluster hepoch => ?_⟩
  · rw [hchain] at hrow
    rw [hselected]
    rcases mem_insertProposer.mp hrow with hold | rfl
    · exact (hs.rows row hold).imp id .inl
    · exact .inr (.inr rfl)
  · rw [hchain]
    exact mem_insertProposer.mpr (((hselected other).mp h).imp_left (hs.stored other))
  · rcases (hselected p).mp hp with hp | rfl <;> rcases (hselected q).mp hq with hq | rfl
    · exact hs.unique p q hp hq hlater hcluster hepoch
    · rw [← hepoch] at hlater
      exact (hnone p hp hlater hcluster.symm hepoch.symm).elim
    · exact (hnone q hq hlater hcluster hepoch).elim
    · rfl

/-- Every effect keeps the rows selected, as long as the rollovers are fresh. -/
theorem Effect.rowsSelected (hkeys : RefusesShortKeys n.platform.rt.crypto)
    (h : n.Effect condition s s') (hs : FreshRollovers initial.epoch s.log → RowsSelected initial s)
    (hfresh : FreshRollovers initial.epoch s'.log) : RowsSelected initial s' := by
  have hsofar : FreshRollovers initial.epoch s.log :=
    all_eq_true.mpr fun event hevent =>
      all_eq_true.mp hfresh event (h.log_prefix.subset hevent)
  rcases h.proposers_cases hkeys with ⟨hrows, hselected⟩ | ⟨proposer, hchain, hlog⟩
  · refine (hs hsofar).of_same hrows fun proposer => ⟨?_, ?_⟩
    · rintro ⟨present, hmem⟩
      exact ⟨present, hselected proposer present hmem⟩
    · rintro ⟨present, hmem⟩
      exact ⟨present, h.log_prefix.subset hmem⟩
  · refine (hs hsofar).select hchain hlog fun hlater => ?_
    have hlast : selected proposer (rivals s.chain proposer) ∈ s'.log := by
      rw [hlog]
      exact mem_append_right _ (mem_singleton_self _)
    rcases Bool.or_eq_true_iff.mp (all_eq_true.mp hfresh _ hlast) with hearlier | hempty
    · exact absurd (of_decide_eq_true hearlier) (BitVec.not_le.mpr hlater)
    · exact isEmpty_iff.mp hempty

/-! ## The queries -/

theorem RowsSelected.authority (hs : RowsSelected initial s) : AuthorityFromSelection initial s := by
  constructor
  · intro choice cluster epoch proposer hlater hload
    unfold loadBlockProposer at hload
    split at hload
    swap
    · cases hload
    next found hpick =>
    cases hload
    obtain ⟨hrow, hmatch⟩ := mem_filter.mp (choice.mem_of_pick hpick)
    obtain ⟨rfl, rfl⟩ := of_decide_eq_true hmatch
    rcases hs.rows proposer hrow with rfl | hselected
    · exact absurd hlater (BitVec.lt_irrefl _)
    · exact ⟨hselected, fun other hother => hs.unique proposer other hselected hother hlater⟩
  · exact hs.rows

/-- **Proposer authority comes only from selection**, in every run that starts with one row in the table and
    whose rollovers all go into an epoch without a proposer. -/
theorem authority_of_freshRollovers (n : Node) (w : World) (initial : BlockProposer)
    (calls : List (RowChoice × NodeInput)) (hkeys : RefusesShortKeys n.platform.rt.crypto)
    (htable : w.db.chain.blockProposer = [initial])
    (hfresh : FreshRollovers initial.epoch (n.runCalls (start w) calls).log) :
    AuthorityFromSelection initial (n.runCalls (start w) calls) := by
  have hstart : RowsSelected initial (start w) := by
    refine ⟨fun row hrow => ?_, fun _ h => ?_, fun _ _ h => ?_⟩
    · left
      change row ∈ w.db.chain.blockProposer at hrow
      rw [htable] at hrow
      exact mem_singleton.mp hrow
    · obtain ⟨_, hmem⟩ := h
      cases hmem
    · obtain ⟨_, hmem⟩ := h
      cases hmem
  have hmeet : n.AllMeet (fun _ _ => True) (start w) calls := n.allMeet_true (start w) calls
  have hend := runCalls_preserves
    (I := fun s => FreshRollovers initial.epoch s.log → RowsSelected initial s)
    (fun heffect hs => heffect.rowsSelected hkeys hs) calls hmeet fun _ => hstart
  exact (hend hfresh).authority

/-! ## Two runs at the end of an epoch

Block 98 is the head, 9 is the proposer of epoch 0 and the node itself is its only validator. For epoch 1
there are two candidates. -/

def validatorsOfEpoch (epoch : Epoch) : List Validator := [⟨1, 0, epoch, 0, 1⟩, ⟨2, 0, epoch, 0, 1⟩]

def beforeRollover : World := Small.atHead 98 [(1, 0)] [⟨0, 0, 9⟩]

/-- The vote result for a block with the vote of the node. -/
def voteResultFor (payload : BlockPayload) : VoteResult :=
  let header := payload.block.blockHeader
  let data : VoteResultSignPayload :=
    ⟨header.blockNumber, header.blockHash, 0, true, [(Small.node 1 validatorsOfEpoch).voteFor header]⟩
  { data, validatorAddress := 9,
    signature := Small.sign (Small.key 9) (Small.messages.voteResultSignPayload data),
    verifyingKey := Small.key 9 }

/-- A proposed block and its vote result. -/
def finalizing (payload : BlockPayload) : List (RowChoice × NodeInput) :=
  [(.first, .receiveValidateBlock payload), (.first, .receiveVoteResult (voteResultFor payload))]

def lastOfEpoch : BlockPayload := Small.proposal 9 99 0 0

/-- Block 100 with the epoch of the blocks before it in its header. -/
def lateBlock : BlockPayload := Small.proposal 9 100 0 lastOfEpoch.block.blockHeader.blockHash

/-- The last block of the epoch selects the proposer of the next one. -/
theorem lastBlock_selects :
    let s := (Small.node 1 validatorsOfEpoch).runCalls (start beforeRollover) (finalizing lastOfEpoch)
    s.chain.blockProposer = [⟨0, 0, 9⟩, ⟨0, 1, 1⟩] ∧ AuthorityFromSelection ⟨0, 0, 9⟩ s := by
  refine ⟨by decide +kernel, authority_of_freshRollovers _ _ _ _ ?_ rfl (by decide +kernel)⟩
  intro bytes hlength
  show (if bytes.length = 33 then some bytes else none) = none
  rw [hlength]
  rfl

/-- A block with the old epoch makes the node roll over again, and the head of the chain selects another
    proposer: there are two for epoch 1. -/
theorem secondRollover_selects_rival :
    let s := (Small.node 1 validatorsOfEpoch).runCalls (start beforeRollover)
      (finalizing lastOfEpoch ++ finalizing lateBlock)
    s.chain.blockProposer = [⟨0, 0, 9⟩, ⟨0, 1, 1⟩, ⟨0, 1, 2⟩] ∧ ¬ AuthorityFromSelection ⟨0, 0, 9⟩ s := by
  intro s
  have hload : s.chain.loadBlockProposer .first 0 1 = .ok ⟨0, 1, 1⟩ := by decide +kernel
  have hrival : selected ⟨0, 1, 2⟩ [⟨0, 1, 1⟩] ∈ s.log := by decide +kernel
  refine ⟨by decide +kernel, fun h => ?_⟩
  have hsame := (h.loaded .first 0 1 _ (by decide) hload).2 ⟨0, 1, 2⟩ ⟨_, hrival⟩ rfl rfl
  cases hsame

end Node

end L1xCore
