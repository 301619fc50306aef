import L1xCore.Consensus.Resume

/-!
# `Consensus.Retry` — finalising again after a statement has failed

A call of `try_to_finalize` fails with one of its statements, and the pending block is tried again. What the
failed call has written decides whether the second one gets through, and whether it ends where the first one
should have:

* once the head has moved, the block is compared with itself, and has to pay its own voters in place of those
  for the block before it;
* at the end of an epoch the second attempt selects a committee again. From the same head it is the same one,
  and the proposer is stored twice; from the moved head it may be another one, and then there are two;
* votes that name the next epoch are not checked until its validators are stored;
* a node whose record could not be read is missing among the validators, and a transaction that could not be
  written is missing in the block, without an error.

`recovers_iff` says for every statement when the outcome is the one of a call without a fault.
-/

namespace L1xCore.Finalizer

open Fallible VoteResultManager ChainTables Node BlockTables

variable {d₁ : Disk} {e : Error} {stored selected : List Validator} {proposer : BlockProposer} {F : Type}
  {f : Finalizer F} {fault : Fault} {entry : PendingBlock} {payload : BlockPayload} {block : Block}
  {validators : List Validator} {voteResult : VoteResult} {d d' done done' : Disk}

/-! ## The checks of a call -/

/-- The vote results of the entry are valid. -/
def VotesStand (f : Finalizer F) (entry : PendingBlock) (block : Block) (t : ChainTables) : Prop :=
  ∀ voteResult ∈ entry.voteResults, f.node.validate.validateVoteResult t voteResult block = .ok ()

theorem VotesStand.congr {t t' : ChainTables} (h : f.VotesStand entry block t)
    (hvalidator : t'.validator = t.validator) : f.VotesStand entry block t' := by
  intro voteResult hmem
  rw [Validate.validateVoteResult_congr hvalidator]
  exact h voteResult hmem

/-- The checks pass, and this is the vote result that was passed. -/
structure Passes (f : Finalizer F) (entry : PendingBlock) (payload : BlockPayload) (d : Disk)
    (validators : List Validator) (voteResult : VoteResult) : Prop where
  proposal : ∃ votes, f.node.checkProposal f.rows d.world payload = .ok (validators, votes)
  voteResults : f.VotesStand entry payload.block d.chain
  passed : firstPassing d.world.caches validators entry.voteResults = .ok (some voteResult)

theorem Passes.votes_ne_nil (h : f.Passes entry payload d validators voteResult) :
    voteResult.data.votes ≠ [] :=
  votes_ne_nil_of_passed (firstPassing_some h.passed).2

theorem run_call_of_passes {fault : Option Fault} (hblock : entry.block = some payload)
    (h : f.Passes entry payload d validators voteResult) (hcheck : checkOutcome fault = .ok ()) :
    (f.call fault entry).run d = (f.finish fault payload.block voteResult).run d := by
  obtain ⟨votes, hproposal⟩ := h.proposal
  have hdecided := decided_eq_ok.mpr ⟨validators, votes, hproposal, h.voteResults, h.passed⟩
  rw [f.run_call fault hblock d, hcheck, hdecided]
  rfl

theorem call_ok (hblock : entry.block = some payload) (hrun : (f.call none entry).run d = (.ok (), done)) :
    ∃ validators voteResult, f.Passes entry payload d validators voteResult ∧
      (f.finish none payload.block voteResult).run d = (.ok (), done) := by
  rw [f.run_call none hblock d] at hrun
  obtain ⟨_, _, hchecked, hrun⟩ := run_bind_ok hrun
  obtain ⟨-, rfl⟩ := run_lift_ok hchecked
  obtain ⟨voteResult, _, hdecided, hfinish⟩ := run_bind_ok hrun
  obtain ⟨hdecided, rfl⟩ := run_lift_ok hdecided
  obtain ⟨validators, votes, hproposal, hvoteResults, hpassed⟩ := decided_eq_ok.mp hdecided
  exact ⟨validators, voteResult, ⟨⟨votes, hproposal⟩, hvoteResults, hpassed⟩, hfinish⟩

/-! The checks of a second call. -/

section

variable (hsame : SameElectors payload.block.blockHeader.clusterAddress payload.block.blockHeader.epoch
  d.world d'.world)

include hsame

theorem Passes.again (h : f.Passes entry payload d validators voteResult)
    (haccepted : f.node.StillAccepted payload.block d.world d'.world)
    (hvotes : f.VotesStand entry payload.block d'.chain) :
    f.Passes entry payload d' validators voteResult := by
  obtain ⟨votes, hproposal⟩ := h.proposal
  refine ⟨⟨votes, (checkProposal_again_iff hsame hproposal).mpr haccepted⟩, hvotes, ?_⟩
  rw [hsame.caches]
  exact h.passed

end

/-! ## The outcome -/

/-- **The outcome is the one of the undisturbed call**, which ends on the first disk: the block is stored and
    executed in the same way, and if it ends an epoch the same committee is stored for the next one. -/
structure SameOutcome (block : Block) (d d' : Disk) : Prop where
  stored : SameStored block d d'
  committee : EndsEpoch block.blockHeader → SameCommittee (newEpoch block.blockHeader) d.chain d'.chain

/-- Finalising recovers from the fault. If the call fails, another one without a fault succeeds and has the
    outcome of the undisturbed call; a call that does not fail has that outcome itself. -/
def Recovers (f : Finalizer F) (entry : PendingBlock) (block : Block) (d done : Disk) (fault : Fault) : Prop :=
  match (f.call (some fault) entry).run d with
  | (.ok (), d') => SameOutcome block done d'
  | (.error _, d') => ∃ done', (f.call none entry).run d' = (.ok (), done') ∧ SameOutcome block done done'

theorem recovers_of_ok (h : (f.call (some fault) entry).run d = (.ok (), d')) :
    f.Recovers entry block d done fault ↔ SameOutcome block done d' := by
  rw [Recovers, h]

theorem recovers_of_error (h : (f.call (some fault) entry).run d = (.error e, d')) :
    f.Recovers entry block d done fault ↔
      ∃ done', (f.call none entry).run d' = (.ok (), done') ∧ SameOutcome block done done' := by
  rw [Recovers, h]

/-- Two writes of the block have the same outcome if they find the same committee at the end of an epoch. -/
theorem sameOutcome_iff (hkeeps : KeepsCommittees d done) (hkeeps' : KeepsCommittees d' done')
    (hstored : SameStored block done done') : SameOutcome block done done' ↔
      (EndsEpoch block.blockHeader → SameCommittee (newEpoch block.blockHeader) d.chain d'.chain) := by
  rw [← sameCommittee_congr hkeeps hkeeps']
  exact ⟨SameOutcome.committee, fun h => ⟨hstored, h⟩⟩

theorem Alike.refl (f : Finalizer F) (block : Block) (d : Disk) : f.Alike block d d :=
  ⟨rfl, rfl, rfl, rfl, fun _ => .rfl⟩

theorem alike_withChain {t t' : ChainTables} (h : SameBlocks t t') :
    f.Alike block (d.withChain t) (d.withChain t') :=
  ⟨rfl, rfl, by rw [Disk.chain_withChain, Disk.chain_withChain, h.blockHeader], h.isBlockExecuted _ _,
    fun _ => .rfl⟩

theorem Alike.install (h : f.Alike block d d') (selected : List Validator) (proposer : BlockProposer) :
    f.Alike block d (d'.withChain (d'.chain.install selected proposer)) :=
  ⟨h.state, h.caches, h.header, h.executed, h.rows⟩

/-! ## The statements of a call -/

/-- The statement is one of the rollover. -/
def inRollover : Fault → Bool
  | .rolloverRead | .nodeInfo _ | .validators | .proposer => true
  | _ => false

theorem rollover_of_not_inRollover (h : inRollover fault = false) (header : BlockHeader) :
    f.rollover (some fault) header = f.rollover none header := by
  cases fault with
  | rolloverRead | nodeInfo | validators | proposer => cases h
  | _ => rfl

theorem write_of_inRollover (h : inRollover fault = true) (block : Block) (voteResult : VoteResult) :
    f.write (some fault) block voteResult = f.write none block voteResult := by
  cases fault with
  | rolloverRead | nodeInfo | validators | proposer => rfl
  | _ => cases h

/-- The committee of the next epoch has no say in the one of the block. -/
theorem sameElectors_batch {header : BlockHeader} (hends : EndsEpoch header)
    (hstored : ∀ v ∈ stored, v.epoch = newEpoch header) :
    SameElectors header.clusterAddress header.epoch d.world
      (d.withChain (d.chain.batchStoreValidators stored)).world := by
  have hother : ∀ v ∈ stored, v.epoch ≠ header.epoch := by
    intro v hv
    rw [hstored v hv]
    exact hends.ne
  refine ⟨rfl, rfl, loadAllValidators_batchStoreValidators hother, fun address => ?_, rfl⟩
  exact congrArg Option.isSome (lookup_batchStoreValidators (.inr fun v hv heq => hother v hv (congrArg Prod.snd heq)))

theorem Rolled.sameElectors {header : BlockHeader} (h : f.Rolled header d d') :
    SameElectors header.clusterAddress header.epoch d.world d'.world := by
  rcases h with ⟨hends, selected, proposer, helects, rfl⟩ | ⟨-, rfl⟩
  · obtain ⟨hstate, hcaches, hvalidators, hisValidator, -⟩ := sameElectors_batch (d := d) hends helects.epoch
    refine ⟨hstate, hcaches, hvalidators, hisValidator, ?_⟩
    -- the proposer that was added is one of the next epoch
    have hepoch : proposer.epoch ≠ header.epoch := by
      rw [helects.proposer_epoch]
      exact hends.ne
    show (d.chain.blockProposer ++ [proposer]).filter _ = _
    simp [hepoch, proposersOf]
    rfl
  · exact ⟨rfl, rfl, rfl, fun _ => rfl, rfl⟩

/-- What a selection without one of the nodes comes to. If it has a proposer, it is the committee that is
    stored; if not, the second attempt adds the right one to it. -/
structure SkipHarmless (f : Finalizer F) (entry : PendingBlock) (block : Block) (d : Disk)
    (selected : List Validator) (proposer : BlockProposer) (skipped : List Validator)
    (chosen : Option BlockProposer) : Prop where
  installed : ∀ other, chosen = some other → SameCommittee (newEpoch block.blockHeader)
    (d.chain.install selected proposer) (d.chain.install skipped other)
  refused : chosen = none →
    f.VotesStand entry block (d.chain.batchStoreValidators skipped) ∧
      SameValidators (newEpoch block.blockHeader) (d.chain.batchStoreValidators selected)
        ((d.chain.batchStoreValidators skipped).batchStoreValidators selected)

/-- A second attempt passes the checks on what the first one has left, and at the end of an epoch it selects
    what is stored. -/
structure Resumes (f : Finalizer F) (entry : PendingBlock) (block : Block) (d left : Disk) : Prop where
  accepted : f.node.StillAccepted block d.world left.world
  votes : f.VotesStand entry block left.chain
  committee : EndsEpoch block.blockHeader → ∃ selected proposer,
    f.Elects none block.blockHeader left selected (some proposer) ∧ left.chain.Holds selected proposer

/-- The call without a fault passes its checks and succeeds. -/
structure Undisturbed (f : Finalizer F) (entry : PendingBlock) (payload : BlockPayload) (d : Disk)
    (validators : List Validator) (voteResult : VoteResult) (done : Disk) : Prop where
  block : entry.block = some payload
  passes : f.Passes entry payload d validators voteResult
  run : (f.call none entry).run d = (.ok (), done)

namespace Undisturbed

variable (u : f.Undisturbed entry payload d validators voteResult done)

include u

theorem call_eq (hcheck : checkOutcome (some fault) = .ok ()) :
    (f.call (some fault) entry).run d = (f.finish (some fault) payload.block voteResult).run d :=
  run_call_of_passes u.block u.passes hcheck

theorem finish : (f.finish none payload.block voteResult).run d = (.ok (), done) := by
  rw [← run_call_of_passes u.block u.passes rfl]
  exact u.run

theorem steps : ∃ d₁, f.Rolled payload.block.blockHeader d d₁ ∧
    (f.write none payload.block voteResult).run d₁ = (.ok (), done) := by
  obtain ⟨_, d₁, hrollover, hwrite⟩ := run_bind_ok u.finish
  exact ⟨d₁, rollover_ok_iff.mp hrollover, hwrite⟩

theorem outcome : SameOutcome payload.block done done := by
  obtain ⟨d₁, -, hwrite⟩ := u.steps
  obtain ⟨done', hwrite', hstored⟩ := write_again u.passes.votes_ne_nil (.refl f payload.block d₁) hwrite
  cases hwrite.symm.trans hwrite'
  exact ⟨hstored, fun _ => ⟨fun _ => rfl, fun _ _ => .rfl⟩⟩

/-- The fault is in no statement that the call comes to. -/
theorem recovers_of_same (hcheck : checkOutcome (some fault) = .ok ())
    (h : (f.finish (some fault) payload.block voteResult).run d =
      (f.finish none payload.block voteResult).run d) : f.Recovers entry payload.block d done fault := by
  have hcall : (f.call (some fault) entry).run d = (.ok (), done) := by
    rw [u.call_eq hcheck, h, u.finish]
  exact (recovers_of_ok hcall).mpr u.outcome

theorem recovers_of_not_endsEpoch (hends : ¬ EndsEpoch payload.block.blockHeader)
    (hearly : inRollover fault = true) : f.Recovers entry payload.block d done fault := by
  have hcheck : checkOutcome (some fault) = .ok () := by
    cases fault with
    | rolloverRead | nodeInfo | validators | proposer => rfl
    | _ => cases hearly
  apply u.recovers_of_same hcheck
  unfold Finalizer.finish
  rw [rollover_of_not_endsEpoch hends, rollover_of_not_endsEpoch hends, write_of_inRollover hearly]

theorem call_late (hlate : inRollover fault = false) (hcheck : checkOutcome (some fault) = .ok ())
    (hrolled : f.Rolled payload.block.blockHeader d d₁) :
    (f.call (some fault) entry).run d = (f.write (some fault) payload.block voteResult).run d₁ := by
  rw [u.call_eq hcheck, Finalizer.finish, rollover_of_not_inRollover hlate]
  exact run_bind_of_ok (rollover_ok_iff.mpr hrolled)

theorem recovers_of_untouched (h : (f.call (some fault) entry).run d = (.error e, d)) :
    f.Recovers entry payload.block d done fault :=
  (recovers_of_error h).mpr ⟨done, u.run, u.outcome⟩

/-- At the end of an epoch the undisturbed call installs a committee, and then it writes the block. -/
theorem installs (hends : EndsEpoch payload.block.blockHeader) :
    ∃ selected proposer, f.Elects none payload.block.blockHeader d selected (some proposer) ∧
      (f.write none payload.block voteResult).run (d.withChain (d.chain.install selected proposer)) =
        (.ok (), done) := by
  obtain ⟨d₁, ⟨-, selected, proposer, helects, rfl⟩ | ⟨hnot, -⟩, hwrite⟩ := u.steps
  · exact ⟨selected, proposer, helects, hwrite⟩
  · exact absurd hends hnot

/-! ## The validators of the next epoch are stored, and the proposer is not -/

section

variable (hscores : f.recording.manager.ScoresFromCaches) (hends : EndsEpoch payload.block.blockHeader)

include hscores hends

section

variable (helects : f.Elects none payload.block.blockHeader d selected (some proposer))
  (hwrite : (f.write none payload.block voteResult).run
    (d.withChain (d.chain.install selected proposer)) = (.ok (), done))

include helects hwrite

/-- **The second attempt** selects what the first one should have stored. It succeeds if the vote results are
    still valid, and what it adds to the validators has to give the right ones. -/
theorem retry_batched (hstored : ∀ v ∈ stored, v.epoch = newEpoch payload.block.blockHeader) :
    (∃ done', (f.call none entry).run (d.withChain (d.chain.batchStoreValidators stored)) = (.ok (), done') ∧
        SameOutcome payload.block done done') ↔
      f.VotesStand entry payload.block (d.chain.batchStoreValidators stored) ∧
        SameValidators (newEpoch payload.block.blockHeader) (d.chain.batchStoreValidators selected)
          ((d.chain.batchStoreValidators stored).batchStoreValidators selected) := by
  have hkeeps := write_keepsCommittees u.passes.votes_ne_nil hwrite
  have hcaches : (d.withChain (d.chain.batchStoreValidators stored)).world.caches = d.world.caches := rfl
  -- it comes to the same on a disk with the same caches and the same head
  have helects' : f.Elects none payload.block.blockHeader (d.withChain (d.chain.batchStoreValidators stored))
      selected (some proposer) := by
    obtain ⟨last, config, hlast, hconfig, hselected, hproposer⟩ := helects.reads
    refine ⟨last, config, hlast, hconfig, ?_, hproposer⟩
    unfold select at hselected ⊢
    split at hselected <;> exact (ValidatorManager.selectValidatorsForEpoch_congr hscores hcaches _ _ last _).trans hselected
  have hrollover := run_rollover_installs hends helects' (by simp)
  constructor
  · rintro ⟨done', hcall, houtcome⟩
    obtain ⟨validators', voteResult', hpasses, hfinish⟩ := call_ok u.block hcall
    obtain ⟨_, d₁, hrollover', hwrite'⟩ := run_bind_ok hfinish
    -- the second rollover is the one computed above, whatever vote result was passed
    cases hrollover.symm.trans hrollover'
    have hkeeps' := write_keepsCommittees hpasses.votes_ne_nil hwrite'
    exact ⟨hpasses.voteResults, ((sameOutcome_iff hkeeps hkeeps' houtcome.stored).mp houtcome hends).1⟩
  · rintro ⟨hvotes, hvalidators⟩
    obtain ⟨votes, hproposal⟩ := u.passes.proposal
    have hhead := (checkProposal_eq_ok.mp hproposal).2.1
    have hpasses := u.passes.again (sameElectors_batch hends hstored) ⟨hhead, rfl⟩ hvotes
    have hblocks : SameBlocks (d.chain.install selected proposer)
        ((d.chain.batchStoreValidators stored).install selected proposer) := ⟨rfl, rfl, rfl⟩
    obtain ⟨done', hwrite', hsame⟩ := write_again u.passes.votes_ne_nil (alike_withChain hblocks) hwrite
    have hkeeps' := write_keepsCommittees u.passes.votes_ne_nil hwrite'
    refine ⟨done', ?_, (sameOutcome_iff hkeeps hkeeps' hsame).mpr fun _ => ⟨hvalidators, fun _ _ => .rfl⟩⟩
    rw [run_call_of_passes u.block hpasses rfl]
    exact (run_bind_of_ok hrollover).trans hwrite'

theorem recovers_nodeInfo_of_elects {address : Address} {skipped : List Validator} {chosen : Option BlockProposer}
    (hskipped : f.Elects (some (.nodeInfo address)) payload.block.blockHeader d skipped chosen) :
    f.Recovers entry payload.block d done (.nodeInfo address) ↔
      f.SkipHarmless entry payload.block d selected proposer skipped chosen := by
  cases chosen with
  | some other =>
    -- another committee is installed, and the call goes on
    have hrollover := run_rollover_installs hends hskipped (by simp)
    have hblocks : SameBlocks (d.chain.install selected proposer) (d.chain.install skipped other) :=
      ⟨rfl, rfl, rfl⟩
    obtain ⟨done', hwrite', hstored⟩ := write_again u.passes.votes_ne_nil (alike_withChain hblocks) hwrite
    have hkeeps := write_keepsCommittees u.passes.votes_ne_nil hwrite
    have hkeeps' := write_keepsCommittees u.passes.votes_ne_nil hwrite'
    have hcall : (f.call (some (.nodeInfo address)) entry).run d = (.ok (), done') := by
      rw [u.call_eq rfl, Finalizer.finish, run_bind_of_ok hrollover, write_of_inRollover rfl, hwrite']
    rw [recovers_of_ok hcall, sameOutcome_iff hkeeps hkeeps' hstored, forall_prop_of_true hends]
    constructor
    · intro hsame
      refine ⟨fun inserted heq => ?_, fun hnone => absurd hnone (Option.some_ne_none other)⟩
      cases heq
      exact hsame
    · intro hharmless
      exact hharmless.installed other rfl
  | none =>
    -- the call ends with the validators stored, as if the insert of the proposer had failed
    obtain ⟨e, hrollover⟩ := run_rollover_refused hends hskipped (.inl rfl) (by simp) (by simp)
    have hcall : (f.call (some (.nodeInfo address)) entry).run d =
        (.error e, d.withChain (d.chain.batchStoreValidators skipped)) :=
      (u.call_eq rfl).trans (run_bind_of_error hrollover)
    rw [recovers_of_error hcall, u.retry_batched hscores hends helects hwrite hskipped.epoch]
    constructor
    · intro hretry
      exact ⟨fun other heq => absurd heq.symm (Option.some_ne_none other), fun _ => hretry⟩
    · intro hharmless
      exact hharmless.refused rfl

end

/-- With the proposer missing, the second attempt finds the validators it selects. -/
theorem recovers_proposer_iff :
    f.Recovers entry payload.block d done .proposer ↔
      ∀ selected proposer, f.Elects none payload.block.blockHeader d selected proposer →
        f.VotesStand entry payload.block (d.chain.batchStoreValidators selected) := by
  obtain ⟨selected, proposer, helects, hwrite⟩ := u.installs hends
  have helects' : f.Elects (some .proposer) payload.block.blockHeader d selected (some proposer) :=
    ⟨helects.reads⟩
  obtain ⟨e, hrollover⟩ := run_rollover_refused hends helects' (.inr rfl) (by simp) (by simp)
  have hcall : (f.call (some .proposer) entry).run d =
      (.error e, d.withChain (d.chain.batchStoreValidators selected)) :=
    (u.call_eq rfl).trans (run_bind_of_error hrollover)
  -- storing validators twice is storing them once
  have htwice : SameValidators (newEpoch payload.block.blockHeader) (d.chain.batchStoreValidators selected)
      ((d.chain.batchStoreValidators selected).batchStoreValidators selected) := by
    intro a
    by_cases hkey : ∃ v ∈ selected, (v.address, v.epoch) = (a, newEpoch payload.block.blockHeader)
    · exact lookup_batchStoreValidators (.inl (isSome_lookup_batchStoreValidators (.inr hkey)))
    · exact lookup_batchStoreValidators (.inr fun v hv heq => hkey ⟨v, hv, heq⟩)
  rw [recovers_of_error hcall, u.retry_batched hscores hends helects hwrite helects.epoch,
    and_iff_left htwice]
  constructor
  · intro hvotes selected' proposer' hother
    rw [(helects.unique hother).1]
    exact hvotes
  · intro hvotes
    exact hvotes selected (some proposer) helects

/-- **A node that was left out** does no harm if the selection fails, or comes to the same in the end. -/
theorem recovers_nodeInfo_iff (address : Address) :
    f.Recovers entry payload.block d done (.nodeInfo address) ↔
      ∀ selected proposer skipped chosen,
        f.Elects none payload.block.blockHeader d selected (some proposer) →
        f.Elects (some (.nodeInfo address)) payload.block.blockHeader d skipped chosen →
          f.SkipHarmless entry payload.block d selected proposer skipped chosen := by
  obtain ⟨selected, proposer, helects, hwrite⟩ := u.installs hends
  by_cases hskips : ∃ skipped chosen,
      f.Elects (some (.nodeInfo address)) payload.block.blockHeader d skipped chosen
  · obtain ⟨skipped, chosen, hskipped⟩ := hskips
    rw [u.recovers_nodeInfo_of_elects hscores hends helects hwrite hskipped]
    constructor
    · intro hharmless selected' proposer' skipped' chosen' helects' hskipped'
      obtain ⟨rfl, heq⟩ := helects.unique helects'
      obtain ⟨rfl, rfl⟩ := hskipped.unique hskipped'
      cases heq
      exact hharmless
    · intro hharmless
      exact hharmless selected proposer skipped chosen helects hskipped
  · refine iff_of_true ?_ ?_
    · obtain ⟨e, hrollover⟩ := run_rollover_unelected hends hskips
      exact u.recovers_of_untouched ((u.call_eq rfl).trans (run_bind_of_error hrollover))
    · intro _ _ skipped chosen _ hskipped
      exact absurd ⟨skipped, chosen, hskipped⟩ hskips

end

end Undisturbed

/-! ## The write of the block fails -/

/-- The transaction is in the table all the same: it was there before, or another one of the block has its
    hash; or it has no hash and is never stored. -/
def Kept (f : Finalizer F) (block : Block) (d : Disk) (sequence : Nat) : Prop :=
  ∀ tx transactionHash, block.transactions[sequence]? = some tx →
    rowHash f.node.platform.rt tx = some transactionHash →
      (d.blockTransaction.lookup (transactionHash, block.blockHeader.blockNumber)).isSome ∨
        Writes f.node.platform.rt (some sequence) block.transactions 0 transactionHash

theorem kept_iff {sequence : Nat} :
    f.Kept block d sequence ↔ ∀ key,
      ((storeRows f.node.platform.rt block.blockHeader.blockNumber (some sequence)
          block.transactions 0 d.blockTransaction).lookup key).isSome ↔
        ((storeRows f.node.platform.rt block.blockHeader.blockNumber none
          block.transactions 0 d.blockTransaction).lookup key).isSome := by
  simp only [isSome_lookup_storeRows]
  constructor
  · rintro hkept ⟨transactionHash, number⟩
    constructor
    · rintro (hrow | ⟨hnumber, i, tx, hget, -, hhash⟩)
      · exact .inl hrow
      · exact .inr ⟨hnumber, i, tx, hget, by simp, hhash⟩
    · rintro (hrow | ⟨rfl, i, tx, hget, -, hhash⟩)
      · exact .inl hrow
      · by_cases hskipped : sequence = i
        · subst hskipped
          exact (hkept tx transactionHash hget hhash).imp_right fun hwrites => ⟨rfl, hwrites⟩
        · refine .inr ⟨rfl, i, tx, hget, fun heq => hskipped ?_, hhash⟩
          rw [Option.some.inj heq, zero_add]
  · intro hrows tx transactionHash hget hhash
    have hwritten : Writes f.node.platform.rt none block.transactions 0 transactionHash :=
      ⟨sequence, tx, hget, by simp, hhash⟩
    have hrow := (hrows (transactionHash, block.blockHeader.blockNumber)).mpr (.inr ⟨rfl, hwritten⟩)
    exact hrow.imp_right And.right

namespace Undisturbed

variable (u : f.Undisturbed entry payload d validators voteResult done)

include u

/-- **A transaction that was not written** is lost, because the call does not fail. -/
theorem recovers_transaction_iff (sequence : Nat) :
    f.Recovers entry payload.block d done (.transaction sequence) ↔ f.Kept payload.block d sequence := by
  obtain ⟨d₁, hrolled, hwrite⟩ := u.steps
  have hvotes := u.passes.votes_ne_nil
  obtain ⟨-, hrows⟩ := hrolled.sameBlocks
  have htransaction : ∀ statement, Stops payload.block.blockHeader d₁.chain statement →
      some (.transaction sequence) ≠ some statement := by
    intro statement hstops heq
    cases heq
    exact hstops
  rw [run_write hvotes not_stopped, run_execute] at hwrite
  obtain ⟨hresult, hdone⟩ := Prod.mk.inj hwrite
  -- a transaction that is not written makes a difference to the rows only
  have hskips : (f.write (some (.transaction sequence)) payload.block voteResult).run d₁ = (.ok (),
      { done with
        blockTransaction := storeRows f.node.platform.rt payload.block.blockHeader.blockNumber
          (some sequence) payload.block.transactions 0 d₁.blockTransaction }) := by
    rw [run_write hvotes htransaction, run_execute, ← hdone]
    exact Prod.ext hresult rfl
  have hall : done.blockTransaction = storeRows f.node.platform.rt payload.block.blockHeader.blockNumber none
      payload.block.transactions 0 d₁.blockTransaction := (congrArg (·.blockTransaction) hdone).symm
  rw [recovers_of_ok ((u.call_late rfl rfl hrolled).trans hskips), kept_iff, ← hrows, ← hall]
  constructor
  · intro houtcome
    exact houtcome.stored.rows
  · intro hkept
    exact ⟨⟨rfl, rfl, rfl, hkept, u.outcome.stored.executed⟩, u.outcome.committee⟩

theorem recovers_of_not_movesHead (hmoves : d.chain.movesHead payload.block.blockHeader = false) :
    f.Recovers entry payload.block d done .blockHead := by
  obtain ⟨d₁, hrolled, hwrite⟩ := u.steps
  obtain ⟨hblocks, -⟩ := hrolled.sameBlocks
  have hpasses : ∀ statement, Stops payload.block.blockHeader d₁.chain statement →
      some .blockHead ≠ some statement := by
    intro statement hstops heq
    cases heq
    have hmoves' : d₁.chain.movesHead payload.block.blockHeader = true := hstops
    rw [movesHead, loadChainState, hblocks.blockHead] at hmoves'
    exact Bool.false_ne_true (hmoves.symm.trans hmoves')
  have hcall : (f.call (some .blockHead) entry).run d = (.ok (), done) := by
    rw [u.call_late rfl rfl hrolled, run_write u.passes.votes_ne_nil hpasses, ← hwrite,
      run_write u.passes.votes_ne_nil not_stopped]
    rfl
  exact (recovers_of_ok hcall).mpr u.outcome

theorem call_stops (hrolled : f.Rolled payload.block.blockHeader d d₁)
    (hstops : Stops payload.block.blockHeader d.chain fault) :
    (f.call (some fault) entry).run d =
      (.error "connection closed", f.leaves payload.block voteResult fault d₁) := by
  have hlate : inRollover fault = false ∧ checkOutcome (some fault) = .ok () := by
    cases fault with
    | check | rolloverRead | nodeInfo | validators | proposer | transaction => cases hstops
    | _ => exact ⟨rfl, rfl⟩
  -- whether the head moves does not depend on the committees
  have hstops' : Stops payload.block.blockHeader d₁.chain fault := by
    rcases hrolled with ⟨-, selected, proposer, -, rfl⟩ | ⟨-, rfl⟩
    · exact hstops
    · exact hstops
  rw [u.call_late hlate.1 hlate.2 hrolled, run_write_stops u.passes.votes_ne_nil hstops']

/-- **The block was being written**: a second attempt has to pass the checks on what is left, and to select
    what is stored. Whatever is missing of the block is filled in. -/
theorem recovers_stops_iff (hrolled : f.Rolled payload.block.blockHeader d d₁)
    (hstops : Stops payload.block.blockHeader d.chain fault) :
    f.Recovers entry payload.block d done fault ↔
      f.Resumes entry payload.block d (f.leaves payload.block voteResult fault d₁) := by
  have hwrite : (f.write none payload.block voteResult).run d₁ = (.ok (), done) :=
    (run_bind_of_ok (rollover_ok_iff.mpr hrolled)).symm.trans u.finish
  have hkeeps := write_keepsCommittees u.passes.votes_ne_nil hwrite
  have hleft : SameCommittees d₁.chain (f.leaves payload.block voteResult fault d₁).chain :=
    leftBy_sameCommittees payload.block voteResult fault
  have hsame := trans_of (SameElectors _ _) hrolled.sameElectors (sameElectors_leaves f payload.block
    voteResult fault d₁ payload.block.blockHeader.clusterAddress payload.block.blockHeader.epoch)
  have halike := alike_leaves f payload.block voteResult fault d₁
  rw [recovers_of_error (u.call_stops hrolled hstops)]
  generalize f.leaves payload.block voteResult fault d₁ = left at hleft hsame halike ⊢
  constructor
  · rintro ⟨done', hcall, houtcome⟩
    obtain ⟨validators', voteResult', hpasses, hfinish⟩ := call_ok u.block hcall
    obtain ⟨votes, hproposal⟩ := u.passes.proposal
    obtain ⟨votes', hproposal'⟩ := hpasses.proposal
    obtain ⟨rfl, rfl⟩ := checkProposal_again_eq hsame hproposal hproposal'
    refine ⟨(checkProposal_again_iff hsame hproposal).mp hproposal', hpasses.voteResults, fun hends => ?_⟩
    obtain ⟨_, d₂, hrollover, hwrite'⟩ := run_bind_ok hfinish
    have hkeeps' := write_keepsCommittees hpasses.votes_ne_nil hwrite'
    have hcommittee := (sameOutcome_iff hkeeps hkeeps' houtcome.stored).mp houtcome hends
    rcases rollover_ok_iff.mp hrollover with ⟨-, selected, proposer, helects, rfl⟩ | ⟨hnot, -⟩
    · refine ⟨selected, proposer, helects, ?_⟩
      rw [← sameCommittee_install_iff helects.epoch helects.proposer_epoch]
      exact (sameCommittee_congr hleft (refl_of SameCommittees _)).mpr hcommittee
    · exact absurd hends hnot
  · rintro ⟨haccepted, hvotes, hreelects⟩
    -- the second rollover changes nothing
    obtain ⟨d₂, hrolled', halike', hcommittee⟩ : ∃ d₂, f.Rolled payload.block.blockHeader left d₂ ∧
        f.Alike payload.block d₁ d₂ ∧ (EndsEpoch payload.block.blockHeader →
          SameCommittee (newEpoch payload.block.blockHeader) d₁.chain d₂.chain) := by
      by_cases hends : EndsEpoch payload.block.blockHeader
      · obtain ⟨selected, proposer, helects, hholds⟩ := hreelects hends
        refine ⟨_, .inl ⟨hends, selected, proposer, helects, rfl⟩, halike.install selected proposer, fun _ => ?_⟩
        rw [← sameCommittee_install_iff helects.epoch helects.proposer_epoch] at hholds
        exact (sameCommittee_congr hleft (refl_of SameCommittees _)).mp hholds
      · exact ⟨left, .inr ⟨hends, rfl⟩, halike, fun h => absurd h hends⟩
    obtain ⟨done', hwrite', hstored⟩ := write_again u.passes.votes_ne_nil halike' hwrite
    have hkeeps' := write_keepsCommittees u.passes.votes_ne_nil hwrite'
    refine ⟨done', ?_, (sameOutcome_iff hkeeps hkeeps' hstored).mpr hcommittee⟩
    rw [run_call_of_passes u.block (u.passes.again hsame haccepted hvotes) rfl]
    exact (run_bind_of_ok (rollover_ok_iff.mpr hrolled')).trans hwrite'

/-- **Until the head moves**, a block is accepted as before if its hash is not the one of the head. -/
theorem stillAccepted_of_ne {last : BlockHeader}
    (hlast : d.chain.blockHeadHeader f.node.clusterAddress = .ok last)
    (hhash : payload.block.blockHeader.blockHash ≠ last.blockHash)
    (hfault : fault ∈ [.voteResult, .blockHeader, .chainState, .blockHead]) :
    f.node.StillAccepted payload.block d.world (f.leaves payload.block voteResult fault d).world := by
  obtain ⟨votes, hproposal⟩ := u.passes.proposal
  obtain ⟨-, ⟨head, hhead, honHead⟩, -⟩ := checkProposal_eq_ok.mp hproposal
  cases hlast.symm.trans hhead
  have hvoteHash : voteResult.data.blockHash ≠ last.blockHash := by
    have hvalid := u.passes.voteResults voteResult (firstPassing_some u.passes.passed).1
    obtain ⟨hsubject, -⟩ := Validate.validateVoteResult_eq_ok.mp hvalid
    rw [show voteResult.data.blockHash = payload.block.blockHeader.blockHash from congrArg (·.2.1) hsubject]
    exact hhash
  -- the head and the votes for it are found as before
  have hleft : (d.chain.leftBy payload.block voteResult fault).blockHeadHeader f.node.clusterAddress = .ok last ∧
      (d.chain.leftBy payload.block voteResult fault).loadVoteResult last.blockHash =
        d.chain.loadVoteResult last.blockHash := by
    have hadded := loadVoteResult_addVoteResult (t := d.chain) hvoteHash
    have hadded' := hlast
    have hstored := blockHeadHeader_storeBlockHeader hadded' payload.block.blockHeader
    simp only [List.mem_cons, List.not_mem_nil, or_false] at hfault
    rcases hfault with rfl | rfl | rfl | rfl
    · exact ⟨hlast, rfl⟩
    · exact ⟨hlast, hadded⟩
    · exact ⟨hstored, hadded⟩
    · exact ⟨hstored, hadded⟩
  obtain ⟨hhead', hvotes⟩ := hleft
  refine ⟨⟨last, hhead', honHead⟩, ?_⟩
  -- and so the same voters are to be paid
  have hvoters : ∀ config, f.node.getLastBlockVotesValidators (f.leaves payload.block voteResult fault d).world
      config = f.node.getLastBlockVotesValidators d.world config := by
    intro config
    unfold getLastBlockVotesValidators
    rw [show (f.leaves payload.block voteResult fault d).world.db.chain.blockHeadHeader _ = _ from hhead',
      show d.world.db.chain.blockHeadHeader _ = _ from hlast, Except.ok_bind, Except.ok_bind,
      show (f.leaves payload.block voteResult fault d).world.db.chain.loadVoteResult _ = _ from hvotes]
    rfl
  unfold rewarded
  simp only [hvoters]
  rfl

end Undisturbed

/-! ## Every statement -/

/-- The fault does no harm. -/
def Harmless (f : Finalizer F) (entry : PendingBlock) (block : Block) (voteResult : VoteResult) (d : Disk) :
    Fault → Prop
  | .check _ | .rolloverRead | .validators => True
  | .nodeInfo address => EndsEpoch block.blockHeader → ∀ selected proposer skipped chosen,
      f.Elects none block.blockHeader d selected (some proposer) →
      f.Elects (some (.nodeInfo address)) block.blockHeader d skipped chosen →
        f.SkipHarmless entry block d selected proposer skipped chosen
  | .proposer => EndsEpoch block.blockHeader → ∀ selected proposer,
      f.Elects none block.blockHeader d selected proposer →
        f.VotesStand entry block (d.chain.batchStoreValidators selected)
  | .transaction sequence => f.Kept block d sequence
  | fault => Stops block.blockHeader d.chain fault → ∀ d₁, f.Rolled block.blockHeader d d₁ →
      f.Resumes entry block d (f.leaves block voteResult fault d₁)

theorem Undisturbed.recovers_late_iff (u : f.Undisturbed entry payload d validators voteResult done)
    (hstops : Stops payload.block.blockHeader d.chain fault) :
    f.Recovers entry payload.block d done fault ↔
      (Stops payload.block.blockHeader d.chain fault → ∀ d₁, f.Rolled payload.block.blockHeader d d₁ →
        f.Resumes entry payload.block d (f.leaves payload.block voteResult fault d₁)) := by
  rw [forall_prop_of_true hstops]
  constructor
  · intro hrecovers d₁ hrolled
    exact (u.recovers_stops_iff hrolled hstops).mp hrecovers
  · intro hresumes
    obtain ⟨d₁, hrolled, -⟩ := u.steps
    exact (u.recovers_stops_iff hrolled hstops).mpr (hresumes d₁ hrolled)

/-- **When finalising can be tried again.** For every pending block and every disk on which
    `try_to_finalize` succeeds, and for every statement of it that fails. -/
theorem recovers_iff (hscores : f.recording.manager.ScoresFromCaches)
    (u : f.Undisturbed entry payload d validators voteResult done) (fault : Fault) :
    f.Recovers entry payload.block d done fault ↔ f.Harmless entry payload.block voteResult d fault := by
  cases fault with
  | check outcome =>
    refine iff_of_true ?_ trivial
    cases outcome with
    | none => exact u.recovers_of_same rfl rfl
    | some e =>
      refine u.recovers_of_untouched (e := e) ?_
      unfold call
      rw [u.block]
      rfl
  | rolloverRead =>
    refine iff_of_true ?_ trivial
    by_cases hends : EndsEpoch payload.block.blockHeader
    · exact u.recovers_of_untouched ((u.call_eq rfl).trans (run_bind_of_error (run_rollover_read hends)))
    · exact u.recovers_of_not_endsEpoch hends rfl
  | validators =>
    refine iff_of_true ?_ trivial
    by_cases hends : EndsEpoch payload.block.blockHeader
    · obtain ⟨selected, proposer, helects, -⟩ := u.installs hends
      obtain ⟨e, hrollover⟩ := run_rollover_validators hends helects
      exact u.recovers_of_untouched ((u.call_eq rfl).trans (run_bind_of_error hrollover))
    · exact u.recovers_of_not_endsEpoch hends rfl
  | nodeInfo address =>
    by_cases hends : EndsEpoch payload.block.blockHeader
    · rw [u.recovers_nodeInfo_iff hscores hends]
      exact ⟨fun h _ => h, fun h => h hends⟩
    · exact iff_of_true (u.recovers_of_not_endsEpoch hends rfl) fun h => absurd h hends
  | proposer =>
    by_cases hends : EndsEpoch payload.block.blockHeader
    · rw [u.recovers_proposer_iff hscores hends]
      exact ⟨fun h _ => h, fun h => h hends⟩
    · exact iff_of_true (u.recovers_of_not_endsEpoch hends rfl) fun h => absurd h hends
  | transaction sequence => exact u.recovers_transaction_iff sequence
  | voteResult | blockHeader | chainState | blockMetaInfo | execution => exact u.recovers_late_iff trivial
  | blockHead =>
    cases hmoves : d.chain.movesHead payload.block.blockHeader with
    | true => exact u.recovers_late_iff hmoves
    | false =>
      refine iff_of_true (u.recovers_of_not_movesHead hmoves) fun hstops => ?_
      exact absurd (hmoves.symm.trans hstops) Bool.false_ne_true

/-! ## Blocks of epoch 1 -/

/-- Node 1, which belongs to the organisation; no other node has a record. -/
def smallFinalizer : Finalizer (BitVec 64) where
  recording := RecordingNode.receiver
  nodeTables := ⟨∅, []⟩
  healths := RecordingNode.firstHealth
  rows := .first

def pending (payload : BlockPayload) : PendingBlock := ⟨[], [voteResultFor payload], some payload⟩

/-- The block before is the head, and node 1 is the validator of epoch 1. -/
def diskBefore (number : BlockNumber) : Disk :=
  let w := Small.atHead number [(1, 1)] [⟨0, 1, 9⟩]
  ⟨{ w with caches.config := some ⟨[1], 10, none, 0, none, some [], none, none, 2, 0⟩ }, ∅⟩

/-- A block within the epoch. -/
def middleBlock : BlockPayload := Small.proposal 9 151 1 0

theorem smallFinalizer_scoresFromCaches : smallFinalizer.recording.manager.ScoresFromCaches :=
  fun _ _ _ => rfl

theorem middleBlock_recovers :
    ∃ done, (smallFinalizer.call none (pending middleBlock)).run (diskBefore 150) = (.ok (), done) ∧
      smallFinalizer.Recovers (pending middleBlock) middleBlock.block (diskBefore 150) done .chainState := by
  obtain ⟨done, hrun⟩ : ∃ done, (smallFinalizer.call none (pending middleBlock)).run (diskBefore 150) =
      (.ok (), done) := ⟨_, run_eq_of_fst (by decide +kernel)⟩
  have hblock : (pending middleBlock).block = some middleBlock := rfl
  obtain ⟨validators, voteResult, hpasses, -⟩ := call_ok hblock hrun
  have u : smallFinalizer.Undisturbed (pending middleBlock) middleBlock (diskBefore 150) validators voteResult
      done := ⟨hblock, hpasses, hrun⟩
  have hends : ¬ EndsEpoch middleBlock.block.blockHeader := by
    unfold EndsEpoch
    decide
  have hlast : (diskBefore 150).chain.blockHeadHeader smallFinalizer.node.clusterAddress =
      .ok { Small.header with blockNumber := 150 } := by
    decide +kernel
  have haccepted : smallFinalizer.node.StillAccepted middleBlock.block (diskBefore 150).world
      (smallFinalizer.leaves middleBlock.block voteResult .chainState (diskBefore 150)).world :=
    u.stillAccepted_of_ne hlast (by decide +kernel) (by simp)
  refine ⟨done, hrun, ?_⟩
  rw [recovers_iff smallFinalizer_scoresFromCaches u]
  rintro _ _ (⟨hnot, -⟩ | ⟨-, rfl⟩)
  · exact absurd hnot hends
  · exact ⟨haccepted, u.passes.voteResults.congr rfl, fun h => absurd h hends⟩

/-- The same head. Node 1 has a stake and no part in the organisation, so that it is paid for its votes;
    no votes for block 150 are stored, and the distributor can pay. -/
def stakedDisk : Disk :=
  let w := (diskBefore 150).world
  ⟨{ w with
      db.state.account := (∅ : Table Address AccountRow).insert SYSTEM_REWARDS_DISTRIBUTOR ⟨.system, 1000, 0⟩
      db.chain.validator := (∅ : Table (Address × Epoch) ValidatorRow).insert (1, 1) ⟨0, 10, 1⟩
      caches.config := some ⟨[], 10, none, 10, none, some [], none, none, 2, 0⟩
      caches.stakingInfo := some (.refresh ((∅ : Table Address NodePoolInfo).insert 1 ⟨10, 8, 0⟩)) }, ∅⟩

/-- The block is stored and its execution fails. The second attempt takes it for the head of the chain, and
    wants the reward of its own voter among its transactions. -/
theorem middleBlock_not_recovered :
    ∃ done d', (smallFinalizer.call none (pending middleBlock)).run stakedDisk = (.ok (), done) ∧
      (smallFinalizer.call (some .execution) (pending middleBlock)).run stakedDisk =
        (.error "connection closed", d') ∧
      ((smallFinalizer.call none (pending middleBlock)).run d').1 =
        .error "Invalid reward distribution: No. of remaining validators: 1" ∧
      ¬ smallFinalizer.Recovers (pending middleBlock) middleBlock.block stakedDisk done .execution := by
  have hfault : ((smallFinalizer.call (some .execution) (pending middleBlock)).run stakedDisk).1 =
      .error "connection closed" := by
    decide +kernel
  have hagain : ((smallFinalizer.call none (pending middleBlock)).run
      ((smallFinalizer.call (some .execution) (pending middleBlock)).run stakedDisk).2).1 =
        .error "Invalid reward distribution: No. of remaining validators: 1" := by
    decide +kernel
  refine ⟨_, _, run_eq_of_fst (by decide +kernel), run_eq_of_fst hfault, hagain, ?_⟩
  rw [recovers_of_error (run_eq_of_fst hfault)]
  rintro ⟨done', hcall, -⟩
  rw [hcall] at hagain
  cases hagain

end L1xCore.Finalizer
