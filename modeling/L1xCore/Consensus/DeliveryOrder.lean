import L1xCore.Consensus.Successors

/-!
# `Consensus.DeliveryOrder` — blocks and vote results that come in any order

A network delivers messages in any order. A node keeps what it cannot use yet, and after every message it
finalises what it can, lowest number first, up to the first block that lacks something. So the blocks of an
epoch are executed in order, once each, whatever the order in which they and their vote results come in.

The state of a delivery is a list of the blocks that are still **awaited**, each with the messages that have
come. A message turns a flag of one of them (`receive_awaits`), and finalising takes those off the front of
which nothing is missing (`tryToFinalize_awaits`).
-/

namespace L1xCore.Node

open Fallible VoteResultManager ChainTables NodeEvent PendingBlocks List

variable {awaited : List Awaited} {p : Proposal} {choice : RowChoice}
  {a : Awaited} {n : Node} {s : NodeState} {w w' : World} {epoch : Epoch}

/-! ## What has come of them -/

/-- A block that is not executed yet, and which of its two messages have come. -/
structure Awaited where
  proposal : Proposal
  hasBlock : Bool
  hasVoteResult : Bool

namespace Awaited

variable (a : Awaited)

def number : BlockNumber := a.proposal.number

/-- One of the messages has come, and there is a pending entry. -/
def started : Bool := a.hasBlock || a.hasVoteResult

/-- Both messages have come. -/
def complete : Bool := a.hasBlock && a.hasVoteResult

/-- The messages that are still to come. -/
def missing : List NodeInput :=
  (if a.hasBlock then [] else [.receiveValidateBlock a.proposal.payload]) ++
    if a.hasVoteResult then [] else [.receiveVoteResult a.proposal.voteResult]

/-- What is pending. -/
def content : Option (Option BlockPayload × List VoteResult) :=
  if a.started then
    some (if a.hasBlock then some a.proposal.payload else none,
      if a.hasVoteResult then [a.proposal.voteResult] else [])
  else none

/-- Nothing has come yet. -/
def ofProposal (p : Proposal) : Awaited := ⟨p, false, false⟩

end Awaited

/-- The messages that are still to come. -/
def missingOf (awaited : List Awaited) : List NodeInput := awaited.flatMap Awaited.missing

/-- The node waits for the blocks, and for nothing else. -/
structure Awaits (n : Node) (epoch : Epoch) (w' : World) (awaited : List Awaited) (s : NodeState) : Prop where
  ahead : n.Ahead n.HonestBelow epoch s.world (awaited.map (·.proposal)) w'
  content : ∀ a ∈ awaited, s.pendingBlocks.content a.number = a.content
  others : ∀ number, (∀ a ∈ awaited, a.number ≠ number) → s.pendingBlocks.get number = none

theorem Ahead.pairwise_awaited (h : n.Ahead n.HonestBelow epoch w (awaited.map (·.proposal)) w') :
    awaited.Pairwise fun a b => a.number < b.number :=
  (pairwise_map (f := fun a : Awaited => a.proposal)).mp h.pairwise

theorem exists_entry {p : PendingBlocks} {number : BlockNumber}
    {content : Option BlockPayload × List VoteResult} (h : p.content number = some content) :
    ∃ entry, p.get number = some entry ∧ entry.block = content.1 ∧ entry.voteResults = content.2 := by
  obtain ⟨entry, hentry, hcontent⟩ := Option.map_eq_some_iff.mp h
  exact ⟨entry, hentry, congrArg Prod.fst hcontent, congrArg Prod.snd hcontent⟩

/-! ## The loop -/

/-- The first pending block lacks something, unless it is the one right after the head and both its messages
    have come. -/
theorem finalizeBlocks_incomplete
    (hahead : n.Ahead n.HonestBelow epoch s.world ((a :: awaited).map (·.proposal)) w')
    (hcontent : ∀ b ∈ a :: awaited, s.pendingBlocks.content b.number = b.content)
    (hincomplete : a.complete = false) :
    ∃ s', (n.finalizeBlocks choice (((a :: awaited).filter (·.started)).map (·.number))).run s =
      (.ok [], s') ∧ Quiet s s' := by
  cases hfirst : (a :: awaited).filter (·.started) with
  | nil => exact ⟨s, rfl, refl_of Quiet s⟩
  | cons b rest =>
    have hmem : b ∈ (a :: awaited).filter (·.started) := by rw [hfirst]; exact mem_cons_self
    obtain ⟨hb, hstarted⟩ := mem_filter.mp hmem
    have hpending := hcontent b hb
    rw [Awaited.content, if_pos hstarted] at hpending
    obtain ⟨entry, hentry, hblock, hresults⟩ := exists_entry hpending
    have hexecuted : s.world.db.chain.isBlockExecuted b.number n.clusterAddress = false :=
      hahead.notExecuted b.proposal (mem_map_of_mem hb)
    suffices hlacks : ∀ payload, entry.block = some payload →
        entry.voteResults = [] ∨ ∃ e, n.checkProposal choice s.world payload = .error e by
      obtain ⟨e, s', hrun, hquiet⟩ := tryToFinalizeBlock_stuck hentry hlacks
      refine ⟨s', ?_, hquiet⟩
      have houtcome : (n.tryToFinalizeBlock choice entry).outcome.run s = (.ok (.error e), s') := by
        rw [run_outcome, hrun]
      show (n.finalizeBlocks choice (b.number :: _)).run s = _
      rw [finalizeBlocks, run_bind_of_ok (run_state s), hexecuted, hentry, if_neg Bool.false_ne_true,
        run_bind_of_ok houtcome]
      rfl
    intro payload hpayload
    rcases mem_cons.mp hb with rfl | hlater
    · -- its block has come, so the vote result has not
      left
      rw [hblock] at hpayload
      split at hpayload
      · next hhas =>
          have hmissing : b.hasVoteResult = false := by
            rw [Awaited.complete, hhas, Bool.true_and] at hincomplete
            exact hincomplete
          rw [hresults, hmissing]
          rfl
      · cases hpayload
    · -- it is not right after the head
      right
      obtain ⟨head, hhead, hnumbers⟩ := hahead.numbers
      have hfirstNumber : a.number.toNat = head.blockNumber.toNat + 1 := (cons.inj hnumbers).1
      have hless : a.number < b.number := (pairwise_cons.mp hahead.pairwise_awaited).1 b hlater
      have hnumber : payload.block.blockHeader.blockNumber = b.number := s.pendingBlocks.filed hentry hpayload
      refine checkProposal_error hhead ?_
      rw [hnumber]
      have := BitVec.lt_def.mp hless
      omega

/-- The complete blocks at the front are executed, in order. -/
structure Advances (awaited done rest : List Awaited) (s s' : NodeState) : Prop where
  split : awaited = done ++ rest
  complete : ∀ a ∈ done, a.complete = true
  incomplete : ∀ a ∈ rest.head?, a.complete = false
  executions : executions s'.log = executions s.log ++ (done.map (·.proposal)).flatMap Proposal.executed

/-- **The loop takes the complete blocks off the front.** -/
theorem finalizeBlocks_awaited (hkey : n.HasAddress) (choice : RowChoice) (awaited : List Awaited) :
    ∀ s : NodeState, n.Ahead n.HonestBelow epoch s.world (awaited.map (·.proposal)) w' →
      (∀ a ∈ awaited, s.pendingBlocks.content a.number = a.content) →
      ∃ done rest s', Advances awaited done rest s s' ∧
        (n.finalizeBlocks choice ((awaited.filter (·.started)).map (·.number))).run s =
          (.ok (done.map (·.number)), s') ∧
        n.Ahead n.HonestBelow epoch s'.world (rest.map (·.proposal)) w' ∧
        ∀ number, s'.pendingBlocks.content number = s.pendingBlocks.content number := by
  induction awaited with
  | nil =>
    intro s hahead _
    refine ⟨[], [], s, ⟨rfl, ?_, ?_, (append_nil _).symm⟩, rfl, hahead, fun _ => rfl⟩
    · exact fun a ha => absurd ha not_mem_nil
    · exact fun a ha => by cases ha
  | cons a awaited ih =>
    intro s hahead hcontent
    by_cases hcomplete : a.complete = true
    · obtain ⟨hhasBlock, hhasVoteResult⟩ := Bool.and_eq_true_iff.mp hcomplete
      have hstarted : a.started = true := by rw [Awaited.started, hhasBlock, Bool.true_or]
      have hpending := hcontent a mem_cons_self
      rw [Awaited.content, if_pos hstarted, if_pos hhasBlock, if_pos hhasVoteResult] at hpending
      obtain ⟨entry, hentry, hblock, hresults⟩ := exists_entry hpending
      obtain ⟨w₁, ⟨hhonest, hbelow⟩, hrest⟩ := hahead.cons
      obtain ⟨s₁, s₂, hrun, hworld, hquiet, hfinished⟩ :=
        tryToFinalizeBlock_finalizes hkey choice hhonest hbelow hentry hblock hresults
      have hsame : ∀ number, s₂.pendingBlocks.content number = s.pendingBlocks.content number := by
        intro number
        rw [hfinished.pendingBlocks, hquiet.content]
      rw [← hworld] at hrest
      obtain ⟨done, rest, s', hadvances, hloop, hahead', hcontent'⟩ :=
        ih s₂ hrest fun b hb => (hsame b.number).trans (hcontent b (mem_cons_of_mem _ hb))
      refine ⟨a :: done, rest, s', ⟨?_, ?_, hadvances.incomplete, ?_⟩, ?_, hahead', ?_⟩
      · rw [hadvances.split, cons_append]
      · exact forall_mem_cons.mpr ⟨hcomplete, hadvances.complete⟩
      · rw [hadvances.executions, hfinished.executions, hquiet.executions, append_assoc]
        rfl
      · rw [filter_cons_of_pos hstarted]
        show (n.finalizeBlocks choice (a.number :: _)).run s = _
        have houtcome : (n.tryToFinalizeBlock choice entry).outcome.run s = (.ok (.ok ()), s₂) := by
          rw [run_outcome, hrun]
        rw [finalizeBlocks, run_bind_of_ok (run_state s), show s.world.db.chain.isBlockExecuted a.number _ = _
            from hahead.notExecuted _ mem_cons_self, hentry, if_neg Bool.false_ne_true,
          run_bind_of_ok houtcome, run_bind_of_ok hloop]
        rfl
      · exact fun number => (hcontent' number).trans (hsame number)
    · have hincomplete : a.complete = false := Bool.eq_false_iff.mpr hcomplete
      obtain ⟨s', hrun, hquiet⟩ := finalizeBlocks_incomplete hahead hcontent hincomplete
      refine ⟨[], a :: awaited, s', ⟨rfl, ?_, ?_, ?_⟩, hrun, ?_, hquiet.content⟩
      · exact fun b hb => absurd hb not_mem_nil
      · intro b hb
        cases hb
        exact hincomplete
      · rw [hquiet.executions]
        exact (append_nil _).symm
      · rw [hquiet.world]
        exact hahead

/-! ## One call of `try_to_finalize` -/

/-- What is pending of a number is pending of an awaited block. -/
theorem Awaits.mem_keys (h : n.Awaits epoch w' awaited s) (number : BlockNumber) :
    number ∈ s.pendingBlocks.blocks.keys ↔ ∃ a ∈ awaited, a.started = true ∧ a.number = number := by
  rw [← AList.mem_keys, ← AList.lookup_isSome]
  show (s.pendingBlocks.get number).isSome ↔ _
  have hcontent : ∀ a ∈ awaited, (s.pendingBlocks.get a.number).isSome = a.started := by
    intro a ha
    have hsome := congrArg Option.isSome (h.content a ha)
    rw [PendingBlocks.content, Option.isSome_map, Awaited.content] at hsome
    rw [hsome]
    cases a.started <;> rfl
  constructor
  · intro hsome
    by_contra hnone
    push Not at hnone
    have hother : s.pendingBlocks.get number = none := by
      refine h.others number fun a ha hnumber => ?_
      refine hnone a ha ?_ hnumber
      rw [← hcontent a ha, hnumber]
      exact hsome
    rw [hother] at hsome
    cases hsome
  · rintro ⟨a, ha, hstarted, rfl⟩
    rw [hcontent a ha]
    exact hstarted

theorem Awaits.blockNumbers (h : n.Awaits epoch w' awaited s) :
    s.pendingBlocks.blockNumbers = (awaited.filter (·.started)).map (·.number) := by
  have hless : ((awaited.filter (·.started)).map (·.number)).Pairwise (· < ·) :=
    (h.ahead.pairwise_awaited.filter _).map _ fun _ _ hless => hless
  have hnodup : ((awaited.filter (·.started)).map (·.number)).Nodup := by
    refine hless.imp fun {a b} hlt heq => ?_
    rw [heq] at hlt
    exact BitVec.lt_irrefl _ hlt
  have hmem : ∀ number, number ∈ s.pendingBlocks.blocks.keys ↔
      number ∈ (awaited.filter (·.started)).map (·.number) := by
    intro number
    rw [h.mem_keys, mem_map]
    simp only [mem_filter, and_assoc]
  have hperm : s.pendingBlocks.blockNumbers.Perm ((awaited.filter (·.started)).map (·.number)) :=
    (perm_insertionSort _ _).trans
      ((perm_ext_iff_of_nodup s.pendingBlocks.blocks.keys_nodup hnodup).mpr hmem)
  refine Perm.eq_of_pairwise (fun a b _ _ hab hba => BitVec.le_antisymm hab hba)
    (pairwise_insertionSort _ _) ?_ hperm
  exact hless.imp BitVec.le_of_lt

theorem get_removeBlocks (p : PendingBlocks) (numbers : List BlockNumber) (number : BlockNumber) :
    (p.removeBlocks numbers).get number = if number ∈ numbers then none else p.get number := by
  induction numbers generalizing p with
  | nil => rfl
  | cons removed numbers ih =>
    refine (ih _).trans ?_
    have hget : (p.removeBlock removed).get number = if number = removed then none else p.get number :=
      AList.lookup_erase_ite ..
    rw [hget]
    by_cases hmem : number ∈ numbers
    · simp [hmem]
    · by_cases hnumber : number = removed
      · simp [hnumber]
      · simp [hmem, hnumber]

/-- **After `try_to_finalize` the first awaited block lacks a message.** -/
theorem tryToFinalize_awaits (hkey : n.HasAddress) (choice : RowChoice) (h : n.Awaits epoch w' awaited s) :
    ∃ done rest s', Advances awaited done rest s s' ∧ (n.tryToFinalize choice).run s = (.ok (), s') ∧
      n.Awaits epoch w' rest s' := by
  obtain ⟨done, rest, s₁, hadvances, hloop, hahead, hcontent⟩ :=
    finalizeBlocks_awaited hkey choice awaited s h.ahead h.content
  have hsplit := hadvances.split
  let s' : NodeState := { s₁ with pendingBlocks := s₁.pendingBlocks.removeBlocks (done.map (·.number)) }
  have hrun : (n.tryToFinalize choice).run s = (.ok (), s') := by
    rw [tryToFinalize, run_bind_of_ok (run_state s), h.blockNumbers, run_bind_of_ok hloop]
    rfl
  have hget : ∀ number, s'.pendingBlocks.get number =
      if number ∈ done.map (·.number) then none else s₁.pendingBlocks.get number :=
    get_removeBlocks _ _
  refine ⟨done, rest, s', ⟨hsplit, hadvances.complete, hadvances.incomplete, hadvances.executions⟩, hrun,
    hahead, fun a ha => ?_, fun number hnone => ?_⟩
  · -- the blocks that are done have other numbers
    have hnot : a.number ∉ done.map (·.number) := by
      intro hmem
      obtain ⟨b, hb, hnumber⟩ := mem_map.mp hmem
      have hpairwise := h.ahead.pairwise_awaited
      rw [hsplit] at hpairwise
      have hless := (pairwise_append.mp hpairwise).2.2 b hb a ha
      rw [hnumber] at hless
      exact BitVec.lt_irrefl _ hless
    have hsame : s'.pendingBlocks.content a.number = s₁.pendingBlocks.content a.number := by
      rw [content, hget, if_neg hnot, content]
    rw [hsame, hcontent]
    refine h.content a ?_
    rw [hsplit]
    exact mem_append_right _ ha
  · rw [hget]
    by_cases hmem : number ∈ done.map (·.number)
    · rw [if_pos hmem]
    · rw [if_neg hmem]
      apply get_eq_none_of_content
      rw [hcontent, content]
      have hother : s.pendingBlocks.get number = none := by
        refine h.others number fun a ha hnumber => ?_
        rw [hsplit] at ha
        rcases mem_append.mp ha with hdone | hrest
        · exact hmem (mem_map.mpr ⟨a, hdone, hnumber⟩)
        · exact hnone a hrest hnumber
      rw [hother]
      rfl

/-! ## One message -/

/-- The node waits for the same blocks when something of one of them has come. -/
theorem Awaits.change {before after : List Awaited} {a' : Awaited} {pendingBlocks : PendingBlocks}
    (h : n.Awaits epoch w' (before ++ a :: after) s) (hproposal : a'.proposal = a.proposal)
    (hcontent : pendingBlocks.content a.number = a'.content)
    (hsame : ∀ number, number ≠ a.number → pendingBlocks.get number = s.pendingBlocks.get number) :
    n.Awaits epoch w' (before ++ a' :: after) { s with pendingBlocks } := by
  have hnumber : a'.number = a.number := congrArg Proposal.number hproposal
  have hproposals : (before ++ a' :: after).map (·.proposal) = (before ++ a :: after).map (·.proposal) := by
    simp [hproposal]
  have hne : ∀ b ∈ before ++ after, b.number ≠ a.number := by
    intro b hb heq
    have hpairwise := h.ahead.pairwise_awaited
    rw [pairwise_append, pairwise_cons] at hpairwise
    obtain ⟨-, ⟨hafter, -⟩, hbefore⟩ := hpairwise
    rcases mem_append.mp hb with hb | hb
    · have hless := hbefore b hb a mem_cons_self
      rw [heq] at hless
      exact BitVec.lt_irrefl _ hless
    · have hless := hafter b hb
      rw [heq] at hless
      exact BitVec.lt_irrefl _ hless
  refine ⟨?_, fun b hb => ?_, fun number hnone => ?_⟩
  · rw [hproposals]
    exact h.ahead
  · rcases mem_append.mp hb with hb | hb
    · rw [PendingBlocks.content, hsame _ (hne b (mem_append_left _ hb))]
      exact h.content b (mem_append_left _ hb)
    · rcases mem_cons.mp hb with rfl | hb
      · rw [hnumber]
        exact hcontent
      · rw [PendingBlocks.content, hsame _ (hne b (mem_append_right _ hb))]
        exact h.content b (mem_append_right _ (mem_cons_of_mem _ hb))
  · have hother : number ≠ a.number := by
      intro heq
      refine hnone a' (mem_append_right _ mem_cons_self) ?_
      rw [hnumber, heq]
    show pendingBlocks.get number = none
    rw [hsame number hother]
    refine h.others number fun b hb heq => ?_
    rcases mem_append.mp hb with hb | hb
    · exact hnone b (mem_append_left _ hb) heq
    · rcases mem_cons.mp hb with rfl | hb
      · exact hother heq.symm
      · exact hnone b (mem_append_right _ (mem_cons_of_mem _ hb)) heq

section

variable {before after : List Awaited} {a : Awaited}

section

variable (h : n.Awaits epoch w' (before ++ a :: after) s)

include h

/-- The entry of an awaited block of which something or nothing has come. -/
theorem Awaits.getD : ((s.pendingBlocks.get a.number).getD .new).block =
        (if a.hasBlock then some a.proposal.payload else none) ∧
      ((s.pendingBlocks.get a.number).getD .new).voteResults =
        if a.hasVoteResult then [a.proposal.voteResult] else [] := by
  have hcontent := h.content a (mem_append_right _ mem_cons_self)
  rw [Awaited.content] at hcontent
  by_cases hstarted : a.started = true
  · rw [if_pos hstarted] at hcontent
    obtain ⟨entry, hentry, hblock, hresults⟩ := exists_entry hcontent
    rw [hentry]
    exact ⟨hblock, hresults⟩
  · rw [if_neg hstarted] at hcontent
    rw [get_eq_none_of_content hcontent]
    obtain ⟨hhasBlock, hhasVoteResult⟩ := Bool.or_eq_false_iff.mp (Bool.eq_false_iff.mpr hstarted)
    rw [hhasBlock, hhasVoteResult]
    exact ⟨rfl, rfl⟩

theorem Awaits.receiveBlock : n.Awaits epoch w' (before ++ { a with hasBlock := true } :: after)
      { s with pendingBlocks := s.pendingBlocks.addBlock a.proposal.payload } := by
  refine h.change rfl ?_ fun number hne => ?_
  · obtain ⟨-, hresults⟩ := h.getD
    have hget : (s.pendingBlocks.addBlock a.proposal.payload).get a.number =
        some (((s.pendingBlocks.get a.number).getD .new).setBlock a.proposal.payload) :=
      (get_change a.number).trans (if_pos rfl)
    rw [PendingBlocks.content, hget]
    show some (_, ((s.pendingBlocks.get a.number).getD .new).voteResults) = _
    rw [hresults]
    rfl
  · exact (get_change number).trans (if_neg hne)

theorem Awaits.receiveVoteResult (hfirst : a.hasVoteResult = false) :
    n.Awaits epoch w' (before ++ { a with hasVoteResult := true } :: after)
      { s with pendingBlocks := s.pendingBlocks.addVoteResult a.proposal.voteResult } := by
  have hnumber : a.proposal.voteResult.data.blockNumber = a.number :=
    h.ahead.voteResultNumber _ (mem_map_of_mem (mem_append_right _ mem_cons_self))
  refine h.change rfl ?_ fun number hne => ?_
  · obtain ⟨hblock, hresults⟩ := h.getD
    rw [hfirst] at hresults
    rw [PendingBlocks.content, addVoteResult, get_change, if_pos hnumber.symm, hnumber]
    show some (((s.pendingBlocks.get a.number).getD .new).block,
      ((s.pendingBlocks.get a.number).getD .new).voteResults ++ [a.proposal.voteResult]) = _
    have hstarted : (a.hasBlock || true) = true := Bool.or_true _
    rw [hblock, hresults]
    exact (if_pos hstarted).symm
  · rw [addVoteResult, get_change, if_neg]
    rw [hnumber]
    exact hne

/-- A block that is awaited is kept, though it may not be the next one. -/
theorem run_receiveValidateBlock (choice : RowChoice) :
    (n.receiveValidateBlock choice a.proposal.payload).run s = (n.tryToFinalize choice).run
        { s with pendingBlocks := s.pendingBlocks.addBlock a.proposal.payload } := by
  have hmem : a.proposal ∈ (before ++ a :: after).map (·.proposal) :=
    mem_map_of_mem (mem_append_right _ mem_cons_self)
  obtain ⟨proposer, hload, haddress⟩ := h.ahead.authorized choice _ hmem
  have hexecuted := h.ahead.notExecuted _ hmem
  have hadd : (onPending (.addBlock a.proposal.payload)).run s =
      (.ok (), { s with pendingBlocks := s.pendingBlocks.addBlock a.proposal.payload }) := rfl
  have hproposer : (lift (s.world.db.chain.loadBlockProposer choice n.clusterAddress
      a.proposal.payload.block.blockHeader.epoch) : Op _).run s = (.ok proposer, s) := by
    exact congrArg (·, s) hload
  have hsigner : (lift (Account.addressOf n.platform.rt.crypto a.proposal.payload.verifyingKey) : Op _).run s =
      (.ok proposer.address, s) := by
    rw [run_lift, haddress]
  have hmark : s.world.db.chain.isBlockExecuted a.proposal.payload.block.blockHeader.blockNumber
      n.clusterAddress = false := hexecuted
  unfold receiveValidateBlock
  rw [run_bind_of_ok (run_state s), run_bind_of_ok hproposer, run_bind_of_ok hsigner,
    if_neg (not_not.mpr rfl), hmark, if_neg Bool.false_ne_true, run_bind_of_ok hadd]

end

end

/-- **A message turns a flag of one awaited block**, and the node tries to finalise. -/
theorem receive_awaits (h : n.Awaits epoch w' awaited s) {message : NodeInput}
    (hmessage : message ∈ missingOf awaited) (choice : RowChoice) :
    ∃ awaited' pendingBlocks, (missingOf awaited).Perm (message :: missingOf awaited') ∧
      awaited'.map (·.proposal) = awaited.map (·.proposal) ∧
      n.Awaits epoch w' awaited' { s with pendingBlocks } ∧
      (n.handle choice message).run s = (n.tryToFinalize choice).run { s with pendingBlocks } := by
  obtain ⟨a, ha, hmissing⟩ := mem_flatMap.mp hmessage
  obtain ⟨before, after, rfl⟩ := append_of_mem ha
  -- one message less of this block is one less of all
  have hless : ∀ a' : Awaited, a.missing.Perm (message :: a'.missing) →
      (missingOf (before ++ a :: after)).Perm (message :: missingOf (before ++ a' :: after)) := by
    intro a' hperm
    rw [missingOf, missingOf, flatMap_append, flatMap_append, flatMap_cons, flatMap_cons]
    refine ((hperm.append_right _).append_left _).trans ?_
    exact perm_middle
  rcases mem_append.mp hmissing with hblock | hvoteResult
  · by_cases hhas : a.hasBlock = true
    · rw [if_pos hhas] at hblock
      cases hblock
    rw [if_neg hhas, mem_singleton] at hblock
    subst hblock
    refine ⟨before ++ { a with hasBlock := true } :: after, _, hless _ ?_, by simp, h.receiveBlock, ?_⟩
    · rw [Awaited.missing, Awaited.missing, if_neg hhas]
      exact .refl _
    · exact run_receiveValidateBlock h choice
  · by_cases hhas : a.hasVoteResult = true
    · rw [if_pos hhas] at hvoteResult
      cases hvoteResult
    rw [if_neg hhas, mem_singleton] at hvoteResult
    subst hvoteResult
    refine ⟨before ++ { a with hasVoteResult := true } :: after, _, hless _ ?_, by simp,
      h.receiveVoteResult (Bool.eq_false_iff.mpr hhas), rfl⟩
    rw [Awaited.missing, Awaited.missing, if_neg hhas]
    exact perm_append_comm.trans (by simp)

/-! ## All messages -/

theorem missingOf_append (done rest : List Awaited) :
    missingOf (done ++ rest) = missingOf done ++ missingOf rest := flatMap_append ..

theorem missingOf_eq_nil {done : List Awaited} (hcomplete : ∀ a ∈ done, a.complete = true) :
    missingOf done = [] := by
  refine flatMap_eq_nil_iff.mpr fun a ha => ?_
  obtain ⟨hblock, hvoteResult⟩ := Bool.and_eq_true_iff.mp (hcomplete a ha)
  rw [Awaited.missing, if_pos hblock, if_pos hvoteResult]
  rfl

theorem eq_nil_of_missingOf (hmissing : missingOf awaited = [])
    (hincomplete : ∀ a ∈ awaited.head?, a.complete = false) : awaited = [] := by
  cases awaited with
  | nil => rfl
  | cons a awaited =>
    exfalso
    have hnone : a.missing = [] := flatMap_eq_nil_iff.mp hmissing a mem_cons_self
    have hcomplete := hincomplete a rfl
    unfold Awaited.missing at hnone
    unfold Awaited.complete at hcomplete
    cases hblock : a.hasBlock with
    | false => simp [hblock] at hnone
    | true =>
      cases hvoteResult : a.hasVoteResult with
      | false => simp [hvoteResult] at hnone
      | true => simp [hblock, hvoteResult] at hcomplete

theorem runCalls_awaits (hkey : n.HasAddress) (calls : List (RowChoice × NodeInput)) :
    ∀ (awaited : List Awaited) (s : NodeState), n.Awaits epoch w' awaited s →
      (∀ a ∈ awaited.head?, a.complete = false) → (calls.map Prod.snd).Perm (missingOf awaited) →
      n.Awaits epoch w' [] (n.runCalls s calls) ∧
        executions (n.runCalls s calls).log =
          executions s.log ++ (awaited.map (·.proposal)).flatMap Proposal.executed := by
  induction calls with
  | nil =>
    intro awaited s hawaits hincomplete hperm
    have hnil := eq_nil_of_missingOf hperm.nil_eq.symm hincomplete
    subst hnil
    exact ⟨hawaits, (append_nil _).symm⟩
  | cons call calls ih =>
    intro awaited s hawaits _ hperm
    have hmessage : call.2 ∈ missingOf awaited := hperm.subset mem_cons_self
    obtain ⟨awaited₁, pendingBlocks, hless, hproposals, hawaits₁, hrun⟩ :=
      receive_awaits hawaits hmessage call.1
    obtain ⟨done, rest, s', hadvances, hfinalize, hawaits'⟩ := tryToFinalize_awaits hkey call.1 hawaits₁
    have hstep : n.step s call = s' := by rw [step, hrun, hfinalize]
    have hrest : (calls.map Prod.snd).Perm (missingOf rest) := by
      have hperm₁ := Perm.cons_inv (hperm.trans hless)
      rw [hadvances.split, missingOf_append, missingOf_eq_nil hadvances.complete, nil_append] at hperm₁
      exact hperm₁
    obtain ⟨hend, hexecutions⟩ := ih rest s' hawaits' hadvances.incomplete hrest
    rw [runCalls, foldl_cons, hstep]
    refine ⟨hend, ?_⟩
    rw [← hproposals, hadvances.split, map_append, flatMap_append, ← append_assoc]
    exact hexecutions.trans (by rw [hadvances.executions])

/-- **Blocks are executed in order, once each, in whatever order they and their vote results come in**, as
    long as each can be finalised once its parent is executed; and nothing stays pending. -/
theorem delivered_executed {chain : List Proposal} {calls : List (RowChoice × NodeInput)}
    (hkey : n.HasAddress) (hahead : n.Ahead n.HonestBelow epoch w chain w')
    (hdelivered : (calls.map Prod.snd).Perm (chain.flatMap Proposal.messages)) :
    (n.runCalls (start w) calls).world = w' ∧
      executions (n.runCalls (start w) calls).log = chain.flatMap Proposal.executed ∧
      (∀ p ∈ chain, w'.db.chain.isBlockExecuted p.number n.clusterAddress = true) ∧
      ∀ number, (n.runCalls (start w) calls).pendingBlocks.get number = none := by
  have hproposals : (chain.map Awaited.ofProposal).map (·.proposal) = chain := by
    rw [map_map]
    exact map_id chain
  have hmissing : missingOf (chain.map .ofProposal) = chain.flatMap Proposal.messages := by
    rw [missingOf, flatMap_map]
    rfl
  have hawaits : n.Awaits epoch w' (chain.map .ofProposal) (start w) := by
    refine ⟨by rw [hproposals]; exact hahead, fun a ha => ?_, fun _ _ => rfl⟩
    obtain ⟨p, -, rfl⟩ := mem_map.mp ha
    rfl
  have hincomplete : ∀ a ∈ (chain.map Awaited.ofProposal).head?, a.complete = false := by
    intro a ha
    obtain ⟨p, -, rfl⟩ := mem_map.mp (mem_of_mem_head? ha)
    rfl
  rw [← hmissing] at hdelivered
  obtain ⟨hend, hexecutions⟩ := runCalls_awaits hkey calls _ _ hawaits hincomplete hdelivered
  refine ⟨?_, ?_, hahead.executed.2, fun number => ?_⟩
  · cases hend.ahead.successive
    rfl
  · rw [hexecutions, hproposals]
    rfl
  · exact hend.others number fun a ha => absurd ha not_mem_nil

/-! The last two blocks of an epoch, of which the second comes first, and its vote result before it. -/

/-- With one row there is nothing to pick. -/
theorem accepts_of_first (row : BlockProposer)
    (hrows : w.db.chain.proposersOf p.header.clusterAddress p.header.epoch = [row]) (hvalid : (do
      let config ← w.caches.getConfig
      let voters ← n.getLastBlockVotesValidators w config
      n.validate.validateProposedBlock .first w p.payload n.clusterAddress voters) = .ok ()) :
    n.Accepts w p := by
  intro choice
  obtain ⟨config, hconfig, hvalid⟩ := Except.bind_eq_ok.mp hvalid
  obtain ⟨voters, hvoters, hvalid⟩ := Except.bind_eq_ok.mp hvalid
  have hpick : choice.pick [row] = some row := by
    cases h : choice.pick [row] with
    | none => cases choice.eq_nil_of_pick h
    | some picked => rw [mem_singleton.mp (choice.mem_of_pick h)]
  have hload : w.db.chain.loadBlockProposer choice p.payload.block.blockHeader.clusterAddress
      p.payload.block.blockHeader.epoch = w.db.chain.loadBlockProposer .first
        p.payload.block.blockHeader.clusterAddress p.payload.block.blockHeader.epoch := by
    have hfilter : (w.db.chain.blockProposer.filter fun q =>
        q.clusterAddress = p.payload.block.blockHeader.clusterAddress ∧
          q.epoch = p.payload.block.blockHeader.epoch) = [row] := hrows
    unfold loadBlockProposer
    rw [hfilter, hpick]
    rfl
  refine ⟨config, voters, hconfig, hvoters, ?_⟩
  rw [← hvalid]
  unfold Validate.validateProposedBlock isBlockProposer
  simp only [hload]

/-- The world after a block was finished. -/
def afterBlock (n : Node) (w : World) (p : Proposal) : World :=
  ((n.finish p.block p.voteResult).run (start w)).2.world

theorem honest_of_first (haccepts : n.Accepts w p)
    (haccepted : n.validate.validateVoteResult w.db.chain p.voteResult p.block = .ok ())
    (hpassed : (w.db.chain.loadAllValidators p.header.epoch).any
      (fun validators => decide (isVoteResultPassed w.caches p.voteResult validators = .ok true)) = true)
    (hfinish : Succeeds (n.finish p.block p.voteResult) (start w)) : n.Honest w p (n.afterBlock w p) := by
  refine ⟨haccepts, ⟨haccepted, ?_⟩, _, run_eq_of_fst hfinish, rfl⟩
  cases hvalidators : w.db.chain.loadAllValidators p.header.epoch with
  | none =>
    rw [hvalidators] at hpassed
    cases hpassed
  | some validators =>
    rw [hvalidators] at hpassed
    exact ⟨validators, rfl, of_decide_eq_true hpassed⟩

theorem below_of_none (h : w.caches.config.all (·.maxBlockHeight.isNone) = true) :
    BelowMaxBlockHeight w p := by
  intro config maxBlockHeight hconfig hmax
  unfold RuntimeCaches.getConfig at hconfig
  split at hconfig
  · next hcached =>
      cases hconfig
      rw [hcached, Option.all_some, hmax] at h
      cases h
  · cases hconfig

def beforeLastTwo : World := Small.atHead 97 [(1, 0)] [⟨0, 0, 9⟩]

def lastTwo : Proposal × Proposal :=
  let first := Small.proposal 9 98 0 0
  let second := Small.proposal 9 99 0 first.block.blockHeader.blockHash
  (⟨first, voteResultFor first⟩, ⟨second, voteResultFor second⟩)

theorem beforeLastTwo_hasHead : beforeLastTwo.db.chain.HasHead 0 { Small.header with blockNumber := 97 } :=
  Validate.atHead_hasHead

theorem lastTwo_honest :
    let n := Small.node 1 validatorsOfEpoch
    let between := n.afterBlock beforeLastTwo lastTwo.1
    n.Honest beforeLastTwo lastTwo.1 between ∧ n.Honest between lastTwo.2 (n.afterBlock between lastTwo.2) := by
  intro n between
  constructor
  · refine honest_of_first ?_ (by decide +kernel) (by decide +kernel) (by unfold Succeeds; decide +kernel)
    exact accepts_of_first ⟨0, 0, 9⟩ (by decide +kernel) (by decide +kernel)
  · refine honest_of_first ?_ (by decide +kernel) (by decide +kernel) (by unfold Succeeds; decide +kernel)
    exact accepts_of_first ⟨0, 0, 9⟩ (by decide +kernel) (by decide +kernel)

theorem lastTwo_ahead :
    let n := Small.node 1 validatorsOfEpoch
    let between := n.afterBlock beforeLastTwo lastTwo.1
    n.Ahead n.HonestBelow 0 beforeLastTwo [lastTwo.1, lastTwo.2] (n.afterBlock between lastTwo.2) := by
  intro n between
  obtain ⟨hfirst, hsecond⟩ := lastTwo_honest
  refine ⟨⟨_, beforeLastTwo_hasHead, by decide +kernel⟩, by decide +kernel, by decide +kernel, ?_⟩
  have hbelow : BelowMaxBlockHeight beforeLastTwo lastTwo.1 := below_of_none (by decide +kernel)
  have hbetween : BelowMaxBlockHeight between lastTwo.2 := below_of_none (by decide +kernel)
  exact .cons ⟨hfirst, hbelow⟩ (.cons ⟨hsecond, hbetween⟩ .nil)

/-- The vote results and the blocks, the last one first. -/
def lastTwoReversed : List (RowChoice × NodeInput) :=
  [(.first, .receiveVoteResult lastTwo.2.voteResult), (.first, .receiveValidateBlock lastTwo.2.payload),
    (.first, .receiveVoteResult lastTwo.1.voteResult), (.first, .receiveValidateBlock lastTwo.1.payload)]

theorem lastTwo_delivered :
    let s := (Small.node 1 validatorsOfEpoch).runCalls (start beforeLastTwo) lastTwoReversed
    executions s.log = lastTwo.1.executed ++ lastTwo.2.executed ∧
      ∀ number, s.pendingBlocks.get number = none := by
  intro s
  have hkey : (Small.node 1 validatorsOfEpoch).HasAddress := ⟨1, by decide +kernel⟩
  have hreversed : lastTwoReversed.map Prod.snd =
      ([lastTwo.1, lastTwo.2].flatMap Proposal.messages).reverse := rfl
  have hdelivered : (lastTwoReversed.map Prod.snd).Perm
      ([lastTwo.1, lastTwo.2].flatMap Proposal.messages) := by
    rw [hreversed]
    exact reverse_perm _
  obtain ⟨-, hexecutions, -, hpending⟩ := delivered_executed hkey lastTwo_ahead hdelivered
  exact ⟨hexecutions, hpending⟩

/-- The node is to stop before the block. -/
def atMaxBlockHeight : World :=
  { beforeLastTwo with
    caches.config := some ⟨[], 10, some 98, 0, none, some [], none, none, 2, 0⟩ }

/-- The block is valid and its vote result passes, and it stays pending. -/
theorem atMaxBlockHeight_pending :
    let n := Small.node 1 validatorsOfEpoch
    let s := n.runCalls (start atMaxBlockHeight)
      [(.first, .receiveValidateBlock lastTwo.1.payload), (.first, .receiveVoteResult lastTwo.1.voteResult)]
    n.Ahead n.Honest 0 atMaxBlockHeight [lastTwo.1] (n.afterBlock atMaxBlockHeight lastTwo.1) ∧
      s.world.db.chain.isBlockExecuted lastTwo.1.number n.clusterAddress = false ∧
      (s.pendingBlocks.get lastTwo.1.number).isSome := by
  intro n s
  have hhonest : n.Honest atMaxBlockHeight lastTwo.1 (n.afterBlock atMaxBlockHeight lastTwo.1) := by
    refine honest_of_first ?_ (by decide +kernel) (by decide +kernel) (by unfold Succeeds; decide +kernel)
    exact accepts_of_first ⟨0, 0, 9⟩ (by decide +kernel) (by decide +kernel)
  refine ⟨⟨⟨_, beforeLastTwo_hasHead, by decide +kernel⟩, by decide +kernel, by decide +kernel, ?_⟩,
    by decide +kernel, by decide +kernel⟩
  exact .cons hhonest .nil

end L1xCore.Node
