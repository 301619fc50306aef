import L1xCore.Consensus.Handlers

/-!
# `Consensus.Equivocation` — a node votes for one block of a number

The only memory of a vote is the pending block it was cast for. As long as that entry is there, the node
does not vote again as a validator (`castVote`); the entry is taken away when the block of its number is
executed, and then neither path votes for that number any more. So the votes agree, **unless the entry is
taken away earlier**, and `add_and_broadcast_block` does that: when the pending block of another proposer has
a different hash, it drops the entry together with the vote in it, and the next call votes again.

The condition of `noEquivocation_of_allMeet` says that this handler is not called while the node's vote is in
an entry that it would drop or contradict.
-/

namespace L1xCore

open ChainTables NodeEvent List

variable {t : ChainTables} {header : BlockHeader} {number : BlockNumber}

/-- Votes that the node has signed for one number carry one hash. -/
def NoEquivocation (log : List NodeEvent) : Prop :=
  ∀ vote vote', signed vote ∈ log → signed vote' ∈ log →
    vote.data.blockNumber = vote'.data.blockNumber → vote.data.blockHash = vote'.data.blockHash

namespace Node

variable {n : Node} {condition : NodeState → NodeInput → Prop} {s s' : NodeState}

/-! ## The blocks of a node -/

/-- A database of the node's cluster: its headers belong to that cluster, and no block is marked as executed
    without a header. -/
structure OwnChain (n : Node) (t : ChainTables) : Prop where
  cluster : ∀ {number header}, t.blockHeader.lookup number = some header →
    header.clusterAddress = n.clusterAddress
  header : ∀ {number}, t.isBlockExecuted number n.clusterAddress = true → t.isBlockHeaderStored number = true

/-- The invariant of the chain: what was stored has a header, and what was finalised has its mark. -/
structure ChainKept (n : Node) (s : NodeState) : Prop where
  chain : n.OwnChain s.chain
  stored : ∀ block : Block, stored block ∈ s.log →
    block.blockHeader.clusterAddress = n.clusterAddress ∧
      s.chain.isBlockHeaderStored block.blockHeader.blockNumber = true
  finalized : ∀ block : Block, finalized block ∈ s.log →
    s.chain.isBlockExecuted block.blockHeader.blockNumber n.clusterAddress = true

/-- A block on the head of such a chain belongs to the cluster too. -/
theorem OwnChain.of_followsHead (h : n.OwnChain t) (hhead : n.FollowsHead t header) :
    header.clusterAddress = n.clusterAddress := by
  obtain ⟨last, hlast, hcluster⟩ := hhead
  unfold blockHeadHeader loadBlockHeader at hlast
  split at hlast
  · next found hfound =>
      cases hlast
      rw [← hcluster]
      exact h.cluster hfound
  · cases hlast

theorem OwnChain.sameBlocks {t' : ChainTables} (h : n.OwnChain t) (hsame : SameBlocks t t') :
    n.OwnChain t' := by
  constructor
  · intro number header hheader
    rw [hsame.blockHeader] at hheader
    exact h.cluster hheader
  · intro number hexecuted
    rw [hsame.isBlockExecuted] at hexecuted
    rw [hsame.isBlockHeaderStored]
    exact h.header hexecuted

theorem OwnChain.storeBlock {block : Block} (h : n.OwnChain t)
    (hcluster : block.blockHeader.clusterAddress = n.clusterAddress) : n.OwnChain (t.storeBlock block) := by
  constructor
  · intro number header hheader
    rw [lookup_blockHeader_storeBlock] at hheader
    split at hheader
    · -- a header that was there stays
      cases hold : t.blockHeader.lookup block.blockHeader.blockNumber with
      | none =>
        rw [hold] at hheader
        cases hheader
        exact hcluster
      | some old =>
        rw [hold] at hheader
        cases hheader
        exact h.cluster hold
    · exact h.cluster hheader
  · intro number hexecuted
    rw [isBlockExecuted_storeBlock] at hexecuted
    rw [isBlockHeaderStored_storeBlock, h.header hexecuted, Bool.or_true]

theorem OwnChain.setBlockExecuted (h : n.OwnChain t) (hstored : t.isBlockHeaderStored number = true)
    (cluster : Address) : n.OwnChain (t.setBlockExecuted number cluster) := by
  have hheaders : ∀ number', (t.setBlockExecuted number cluster).isBlockHeaderStored number' =
      t.isBlockHeaderStored number' := by
    intro number'
    rw [isBlockHeaderStored, setBlockExecuted_blockHeader, isBlockHeaderStored]
  constructor
  · intro number' header hheader
    rw [setBlockExecuted_blockHeader] at hheader
    exact h.cluster hheader
  · intro number' hexecuted
    rw [hheaders]
    rw [isBlockExecuted_setBlockExecuted] at hexecuted
    split at hexecuted
    · next hkey =>
        cases hkey.1
        exact hstored
    · exact h.header hexecuted

section

variable (h : n.Effect condition s s')

include h

theorem Effect.headerStored_mono (hstored : s.chain.isBlockHeaderStored number = true) :
    s'.chain.isBlockHeaderStored number = true := by
  rcases h.chain_cases with hsame | ⟨block, -, -, hchain⟩ | ⟨block, -, hchain⟩
  · rw [hsame.isBlockHeaderStored, hstored]
  · rw [hchain, isBlockHeaderStored_storeBlock, hstored, Bool.or_true]
  · rw [hchain, isBlockHeaderStored, setBlockExecuted_blockHeader]
    exact hstored

theorem Effect.chainKept (hs : n.ChainKept s) : n.ChainKept s' := by
  refine ⟨?_, fun block hlog => ?_, fun block hlog => ?_⟩
  · rcases h.chain_cases with hsame | ⟨block, hhead, -, hchain⟩ | ⟨block, hlogged, hchain⟩
    · exact hs.chain.sameBlocks hsame
    · rw [hchain]
      exact hs.chain.storeBlock (hs.chain.of_followsHead hhead)
    · rw [hchain]
      exact hs.chain.setBlockExecuted (hs.stored block hlogged).2 _
  -- what was known of the blocks in the log is still so; the rest is about a new event
  · by_cases hnew : .stored block ∈ s.log
    · exact ⟨(hs.stored block hnew).1, h.headerStored_mono (hs.stored block hnew).2⟩
    cases h with
    | storeApproved _ hhead | storeReceived _ _ _ hhead =>
      cases new_of_concat hlog hnew
      exact ⟨hs.chain.of_followsHead hhead, isBlockHeaderStored_storeBlock_self _⟩
    | vote | accept | pass | select | execute | finish | propose => cases new_of_concat hlog hnew
    | storeValidators | announce | storeVoteResult | keepVote | keepVoteResult | keepBlock | remove
    | dropConflicting => exact absurd hlog hnew
  · by_cases hnew : .finalized block ∈ s.log
    · exact h.executed_mono _ _ (hs.finalized block hnew)
    cases h with
    | finish hstored hexecuted =>
      cases new_of_concat hlog hnew
      rw [← (hs.stored block hstored).1]
      exact hexecuted
    | vote | accept | pass | select | storeApproved | storeReceived | execute | propose =>
      cases new_of_concat hlog hnew
    | storeValidators | announce | storeVoteResult | keepVote | keepVoteResult | keepBlock | remove
    | dropConflicting => exact absurd hlog hnew

end

/-! ## The votes of a node -/

/-- A vote that the node still knows of: the block of its number is executed, or the vote is pending. -/
def Remembers (n : Node) (s : NodeState) (vote : Vote) : Prop :=
  s.chain.isBlockExecuted vote.data.blockNumber n.clusterAddress = true ∨
    s.pendingBlocks.Holds vote.data.blockNumber vote

/-- The invariant of the votes. -/
structure VotesKept (n : Node) (s : NodeState) : Prop where
  agree : NoEquivocation s.log
  own : ∀ vote, signed vote ∈ s.log → n.isOwn vote = true
  remembered : ∀ vote, signed vote ∈ s.log → n.Remembers s vote

theorem VotesKept.of_signed_subset (hs : n.VotesKept s)
    (hsigned : ∀ vote, signed vote ∈ s'.log → signed vote ∈ s.log)
    (hkept : ∀ vote, signed vote ∈ s.log → n.Remembers s vote → n.Remembers s' vote) : n.VotesKept s' := by
  refine ⟨fun vote vote' h h' => hs.agree vote vote' (hsigned vote h) (hsigned vote' h'),
    fun vote h => hs.own vote (hsigned vote h), fun vote h => ?_⟩
  exact hkept vote (hsigned vote h) (hs.remembered vote (hsigned vote h))

theorem VotesKept.sign (hs : n.VotesKept s) (hlog : s'.log = s.log ++ [.signed (n.voteFor header)])
    (hkept : ∀ vote, n.Remembers s vote → n.Remembers s' vote)
    (hheld : s'.pendingBlocks.Holds header.blockNumber (n.voteFor header))
    (hagree : ∀ vote, signed vote ∈ s.log → vote.data.blockNumber = header.blockNumber →
      vote.data.blockHash = header.blockHash) : n.VotesKept s' := by
  -- a vote in the new log is an old one or the new one
  have hcases : ∀ vote, signed vote ∈ s'.log → signed vote ∈ s.log ∨ vote = n.voteFor header := by
    intro vote hvote
    rw [hlog] at hvote
    rcases mem_append.mp hvote with hold | hlast
    · exact .inl hold
    · cases mem_singleton.mp hlast
      exact .inr rfl
  refine ⟨fun vote vote' h h' hnumber => ?_, fun vote h => ?_, fun vote h => ?_⟩
  · rcases hcases vote h with hold | rfl <;> rcases hcases vote' h' with hold' | rfl
    · exact hs.agree vote vote' hold hold' hnumber
    · exact hagree vote hold hnumber
    · exact (hagree vote' hold' hnumber.symm).symm
    · rfl
  · rcases hcases vote h with hold | rfl
    · exact hs.own vote hold
    · exact decide_eq_true rfl
  · rcases hcases vote h with hold | rfl
    · exact hkept vote (hs.remembered vote hold)
    · exact .inr hheld

/-- When the node works on a block of its own, each vote it has signed and still holds for that number
    is for the same hash, or the pending block is by the same proposer (and nothing happens). -/
def KeepsVote (n : Node) (s : NodeState) : NodeInput → Prop
  | .addAndBroadcastBlock payload =>
    ∀ entry pending vote,
      s.pendingBlocks.get payload.block.blockHeader.blockNumber = some entry →
      entry.block = some pending → vote ∈ entry.votes → signed vote ∈ s.log →
        Account.addressOf n.platform.rt.crypto payload.verifyingKey =
            Account.addressOf n.platform.rt.crypto pending.verifyingKey ∨
          (pending.block.blockHeader.blockHash = payload.block.blockHeader.blockHash ∧
            vote.data.blockHash = payload.block.blockHeader.blockHash)
  | _ => True

theorem Remembers.of_holds {vote : Vote} (h : n.Remembers s vote) (heffect : n.Effect condition s s')
    (hholds : s.pendingBlocks.Holds vote.data.blockNumber vote →
      s'.pendingBlocks.Holds vote.data.blockNumber vote) : n.Remembers s' vote := by
  rcases h with hexecuted | hheld
  · exact .inl (heffect.executed_mono _ _ hexecuted)
  · exact .inr (hholds hheld)

/-- **Every effect keeps the votes**, and what is known of the chain is what the two votes rest on: a number
    that is executed gets no vote from either of them. -/
theorem Effect.votesKept (h : n.Effect n.KeepsVote s s') (hchain : n.ChainKept s) (hs : n.VotesKept s) :
    n.VotesKept s' := by
  have heffect := h
  cases h with
  | @vote number entry payload hentry hblock hexecuted hown =>
    have hnumber := s.pendingBlocks.filed hentry hblock
    refine hs.sign rfl (fun vote hvote => hvote.of_holds heffect fun hheld => hheld.addVote _)
      PendingBlocks.holds_addVote fun vote hsigned hsame => ?_
    -- there is no earlier vote for this number: it would be in the entry, with the node's key
    rw [hnumber] at hsame
    rcases hs.remembered vote hsigned with hdone | ⟨other, hother, hmem⟩
    · rw [hsame, hexecuted] at hdone
      cases hdone
    · rw [hsame, hentry] at hother
      cases hother
      have hno := any_eq_false.mp hown vote hmem
      exact absurd (hs.own vote hsigned) hno
  | @propose payload hcondition hstored hentry =>
    refine hs.sign rfl
      (fun vote hvote => hvote.of_holds heffect fun hheld => (hheld.addVote _).addBlock _)
      (PendingBlocks.holds_addVote.addBlock _) fun vote hsigned hsame => ?_
    rcases hs.remembered vote hsigned with hdone | ⟨entry, hget, hmem⟩
    · -- an executed block has a header, and the node does not propose it again
      have hheader := hchain.chain.header hdone
      rw [hsame, hstored] at hheader
      cases hheader
    · rw [hsame] at hget
      obtain ⟨pending, hpending, -, hproposer⟩ := hentry entry hget
      rcases hcondition entry pending vote hget hpending hmem hsigned with hsameProposer | ⟨-, hhash⟩
      · exact absurd hsameProposer hproposer
      · exact hhash
  | dropConflicting hcondition hentry hpending hhash hproposer =>
    refine hs.of_signed_subset (fun vote hvote => hvote) fun vote hsigned hvote => ?_
    refine hvote.of_holds heffect fun hheld => hheld.removeBlock fun hsame => ?_
    -- the entry that is dropped holds no vote of the node
    obtain ⟨entry, hget, hmem⟩ := hheld
    rw [hsame, hentry] at hget
    cases hget
    rcases hcondition _ _ vote hentry hpending hmem hsigned with hsameProposer | ⟨hsameHash, -⟩
    · exact hproposer hsameProposer
    · exact hhash hsameHash
  | @remove numbers hdone =>
    refine hs.of_signed_subset (fun vote hvote => hvote) fun vote hsigned hvote => ?_
    by_cases hremoved : vote.data.blockNumber ∈ numbers
    · -- the block of the number was executed
      rcases hdone _ hremoved with hexecuted | ⟨block, hnumber, hfinalized⟩
      · exact .inl hexecuted
      · rw [Remembers, ← hnumber]
        exact .inl (hchain.finalized block hfinalized)
    · exact hvote.of_holds heffect fun hheld => hheld.removeBlocks hremoved
  | keepVote other =>
    exact hs.of_signed_subset (fun vote hvote => hvote) fun vote _ hvote =>
      hvote.of_holds heffect fun hheld => hheld.addVote other
  | keepVoteResult voteResult =>
    exact hs.of_signed_subset (fun vote hvote => hvote) fun vote _ hvote =>
      hvote.of_holds heffect fun hheld => hheld.addVoteResult voteResult
  | keepBlock payload =>
    exact hs.of_signed_subset (fun vote hvote => hvote) fun vote _ hvote =>
      hvote.of_holds heffect fun hheld => hheld.addBlock payload
  | storeValidators | announce | storeVoteResult =>
    exact hs.of_signed_subset (fun vote hvote => hvote) fun vote _ hvote =>
      hvote.of_holds heffect fun hheld => hheld
  | accept | pass | select | storeApproved | storeReceived | execute | finish =>
    refine hs.of_signed_subset (fun vote hvote => ?_) fun vote _ hvote =>
      hvote.of_holds heffect fun hheld => hheld
    by_contra hnew
    cases new_of_concat hvote hnew

/-- **A node does not equivocate** in a run from a fresh start, on a database of its cluster, in which every
    call meets the condition. -/
theorem noEquivocation_of_allMeet (n : Node) (w : World) (calls : List (RowChoice × NodeInput))
    (hchain : n.OwnChain w.db.chain) (hmeet : n.AllMeet n.KeepsVote (start w) calls) :
    NoEquivocation (n.runCalls (start w) calls).log := by
  have hstart : n.ChainKept (start w) ∧ n.VotesKept (start w) :=
    ⟨⟨hchain, fun _ h => absurd h not_mem_nil, fun _ h => absurd h not_mem_nil⟩,
      ⟨fun _ _ h => absurd h not_mem_nil, fun _ h => absurd h not_mem_nil, fun _ h => absurd h not_mem_nil⟩⟩
  have hend := runCalls_preserves (I := fun s => n.ChainKept s ∧ n.VotesKept s)
    (fun heffect hs => ⟨heffect.chainKept hs.1, heffect.votesKept hs.1 hs.2⟩) calls hmeet hstart
  exact hend.2.agree

/-- **The chain is kept in every run**: what the node has stored is of its cluster and has a header, and what it
    has finalised has its mark. -/
theorem chainKept_runCalls (n : Node) (w : World) (calls : List (RowChoice × NodeInput))
    (hchain : n.OwnChain w.db.chain) : n.ChainKept (n.runCalls (start w) calls) := by
  refine runCalls_preserves Effect.chainKept calls (n.allMeet_true _ _) ⟨hchain, ?_, ?_⟩
  · exact fun _ h => absurd h not_mem_nil
  · exact fun _ h => absurd h not_mem_nil

/-! ## Two runs at the end of an epoch

Block 99 is stored but its execution failed. The node 5 is a validator of epoch 0 and the proposer of
epoch 1; 9 is the proposer of epoch 0. -/

def atEndOfEpoch : World := Small.atHead 99 [(5, 0)] [⟨0, 0, 9⟩, ⟨0, 1, 5⟩]

/-- A vote result for block 99 that nobody has voted on; it only makes number 99 pending. -/
def emptyVoteResult : VoteResult := ⟨⟨99, 0, 0, true, []⟩, 0, [], []⟩

theorem atEndOfEpoch_ownChain : (Small.node 5 fun _ => []).OwnChain atEndOfEpoch.db.chain := by
  have hempty : (Small.node 5 fun _ => []).OwnChain .empty := ⟨fun h => (by cases h), fun h => (by cases h)⟩
  have hblock : (Small.node 5 fun _ => []).OwnChain
      (empty.storeBlock ⟨{ Small.header with blockNumber := 99 }, []⟩) := hempty.storeBlock rfl
  exact ⟨fun h => hblock.cluster h, fun h => hblock.header h⟩

/-- The node votes for block 100 of the other proposer, and proposes the block after it, twice. -/
theorem votesForTwoNumbers_noEquivocation :
    let n := Small.node 5 fun _ => []
    let s := n.runCalls (start atEndOfEpoch) [(.first, .receiveValidateBlock (Small.proposal 9 100 0 0)),
      (.first, .addAndBroadcastBlock (Small.proposal 5 101 1 0)),
      (.first, .addAndBroadcastBlock (Small.proposal 5 101 1 0))]
    s.log = [.signed (n.voteFor (Small.proposal 9 100 0 0).block.blockHeader),
      .signed (n.voteFor (Small.proposal 5 101 1 0).block.blockHeader)] ∧ NoEquivocation s.log := by
  intro n s
  refine ⟨by decide +kernel, noEquivocation_of_allMeet n atEndOfEpoch _ atEndOfEpoch_ownChain
    ⟨trivial, ?_, ?_, trivial⟩⟩
  · -- nothing is pending for block 101 at first
    intro entry pending vote hentry
    cases (Option.isNone_iff_eq_none.mp (by decide +kernel)).symm.trans hentry
  · -- then it is its own block, with its vote
    generalize ht : n.step _ (.first, .addAndBroadcastBlock (Small.proposal 5 101 1 0)) = t
    have hown : (t.pendingBlocks.get (Small.proposal 5 101 1 0).block.blockHeader.blockNumber).bind (·.block) =
        some (Small.proposal 5 101 1 0) := by
      rw [← ht]
      decide +kernel
    intro entry pending vote hentry hpending _ _
    rw [hentry] at hown
    cases hown.symm.trans hpending
    exact .inl rfl

/-- Block 100 comes as the answer to a query, and is stored and executed. -/
theorem atEndOfEpoch_chainKept :
    let n := Small.node 5 fun _ => []
    let block := (Small.proposal 9 100 1 0).block
    let s := n.runCalls (start atEndOfEpoch) [(.first, .receiveBlock (Small.proposal 9 100 1 0) none)]
    s.log = [.stored block, .executed block, .finalized block] ∧ n.ChainKept s := by
  intro n block s
  exact ⟨by decide +kernel, chainKept_runCalls n _ _ atEndOfEpoch_ownChain⟩

/-- The node votes for block 100 of the other proposer; its own block 100 drops that vote, and when it is
    added again, the node votes for it. -/
theorem droppedVote_equivocates :
    let n := Small.node 5 fun _ => []
    let s := n.runCalls (start atEndOfEpoch) [(.first, .receiveValidateBlock (Small.proposal 9 100 0 0)),
      (.first, .receiveVoteResult emptyVoteResult),
      (.first, .addAndBroadcastBlock (Small.proposal 5 100 1 0)),
      (.first, .addAndBroadcastBlock (Small.proposal 5 100 1 0))]
    s.log = [.signed (n.voteFor (Small.proposal 9 100 0 0).block.blockHeader),
      .signed (n.voteFor (Small.proposal 5 100 1 0).block.blockHeader)] ∧ ¬ NoEquivocation s.log := by
  intro n s
  have hlog : s.log = [.signed (n.voteFor (Small.proposal 9 100 0 0).block.blockHeader),
      .signed (n.voteFor (Small.proposal 5 100 1 0).block.blockHeader)] := by
    decide +kernel
  refine ⟨hlog, fun h => ?_⟩
  rw [hlog] at h
  have hsame := h _ _ mem_cons_self (mem_cons_of_mem _ mem_cons_self) rfl
  revert hsame
  decide +kernel

end Node

end L1xCore
