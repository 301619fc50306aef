import L1xCore.Validate.ValidateBlock

/-!
# `Validate.ValidateVote` — the validation of votes, vote results and proposer announcements

`validate/src/validate_vote.rs`, `validate_vote_result.rs` and `validate_block_proposer.rs`. A vote is
checked only when its **key** belongs to a validator of the epoch that the **vote itself** names; any
other vote is let through. What a vote result has been checked for is collected in
`validateVoteResult_ok`.
-/

namespace L1xCore.Validate

open Except (ensure)

variable {block : Block} {voteResult : VoteResult} (v : Validate) (t : ChainTables)

/-- The checks that a vote and a vote result share: number, hash and cluster are the expected ones. -/
def validateVoted (what : String) (actual expected : BlockNumber × BlockHash × Address) :
    Except Error Unit := do
  ensure (expected.1 = actual.1)
    s!"{what} block number: actual {actual.1.toNat}, expected: {expected.1.toNat}"
  ensure (expected.2.1 = actual.2.1)
    s!"{what} block hash: actual {hexEncode actual.2.1}, expected: {hexEncode expected.2.1}, block #{expected.1.toNat}"
  ensure (expected.2.2 = actual.2.2)
    s!"{what} cluster address: actual {hexEncode actual.2.2}, expected: {hexEncode expected.2.2}, block #{expected.1.toNat}"

/-- What a header, a vote and a vote result say they are about. -/
def subjectOfHeader (header : BlockHeader) : BlockNumber × BlockHash × Address :=
  (header.blockNumber, header.blockHash, header.clusterAddress)

def subjectOfVote (vote : Vote) : BlockNumber × BlockHash × Address :=
  (vote.data.blockNumber, vote.data.blockHash, vote.data.clusterAddress)

def subjectOfVoteResult (voteResult : VoteResult) : BlockNumber × BlockHash × Address :=
  (voteResult.data.blockNumber, voteResult.data.blockHash, voteResult.data.clusterAddress)

def validateVoteFields (vote : Vote) (block : Block) : Except Error Unit := do
  validateVoted "Vote: Incorrect" (subjectOfVote vote) (subjectOfHeader block.blockHeader)
  v.rt.verifyVote vote

/-- `ValidateVote::validate_vote`. -/
def validateVote (vote : Vote) (block : Block) : Except Error Unit := do
  let nodeAddress ← Account.addressOf v.rt.crypto vote.verifyingKey
  if t.isValidator nodeAddress vote.data.epoch then v.validateVoteFields vote block else pure ()

/-- The loop over the votes of a vote result. -/
def validateVotes (voteResult : VoteResult) (block : Block) : List Vote → Except Error Unit
  | [] => pure ()
  | vote :: votes => do
    validateVoted "VoteResult: Incorrect Vote" (subjectOfVote vote) (subjectOfVoteResult voteResult)
    v.validateVote t vote block
    validateVotes voteResult block votes

/-- `ValidateVoteResult::validate_vote_result`. -/
def validateVoteResult (voteResult : VoteResult) (block : Block) : Except Error Unit := do
  validateVoted "VoteResult: Incorrect" (subjectOfVoteResult voteResult)
    (subjectOfHeader block.blockHeader)
  v.rt.verifyVoteResult voteResult
  v.validateVotes t voteResult block voteResult.data.votes

/-- `ValidateBlockProposer::validate_block_proposer`. -/
def validateBlockProposer (payload : BlockProposerPayload) : Except Error Unit :=
  v.rt.verifyBlockProposerPayload payload

/-! ## What was checked -/

variable {v t}

theorem validateVoted_eq_ok {what : String} {actual expected : BlockNumber × BlockHash × Address} :
    validateVoted what actual expected = .ok () ↔ actual = expected := by
  simp only [validateVoted, Except.bind_eq_ok, Except.ensure_eq_ok, decide_eq_true_eq]
  constructor
  · rintro ⟨-, hnumber, -, hhash, hcluster⟩
    exact Prod.ext hnumber.symm (Prod.ext hhash.symm hcluster.symm)
  · rintro rfl
    exact ⟨(), rfl, (), rfl, rfl⟩

/-- A vote that passes `validate_vote` has a key, and its signature holds if the key is the one of a
    validator of the epoch in the vote. -/
theorem validateVote_ok {vote : Vote} (h : v.validateVote t vote block = .ok ()) :
    ∃ a, Account.addressOf v.rt.crypto vote.verifyingKey = .ok a ∧
      (t.isValidator a vote.data.epoch = true → v.rt.verifyVote vote = .ok ()) := by
  obtain ⟨a, hkey, h⟩ := Except.bind_eq_ok.mp h
  refine ⟨a, hkey, fun hvalidator => ?_⟩
  rw [if_pos hvalidator] at h
  obtain ⟨_, _, hsignature⟩ := Except.bind_eq_ok.mp h
  exact hsignature

theorem validateVotes_eq_ok {votes : List Vote} :
    v.validateVotes t voteResult block votes = .ok () ↔
      ∀ vote ∈ votes, subjectOfVote vote = subjectOfVoteResult voteResult ∧
        v.validateVote t vote block = .ok () := by
  induction votes with
  | nil => simp [validateVotes, pure, Except.pure]
  | cons first votes ih =>
    rw [validateVotes, Except.check_eq_ok, Except.check_eq_ok, validateVoted_eq_ok, ih,
      List.forall_mem_cons, and_assoc]

/-- **What is checked of a vote result**: it is about the block and signed, and each of its votes is about
    the block and passes `validate_vote`. -/
theorem validateVoteResult_eq_ok :
    v.validateVoteResult t voteResult block = .ok () ↔
      subjectOfVoteResult voteResult = subjectOfHeader block.blockHeader ∧
        v.rt.verifyVoteResult voteResult = .ok () ∧
        ∀ vote ∈ voteResult.data.votes, subjectOfVote vote = subjectOfHeader block.blockHeader ∧
          v.validateVote t vote block = .ok () := by
  rw [validateVoteResult, Except.check_eq_ok, Except.check_eq_ok, validateVoted_eq_ok, validateVotes_eq_ok]
  refine and_congr_right fun hsubject => ?_
  rw [hsubject]

/-- What an accepted vote result has been checked for: it and all its votes are about the block. -/
theorem validateVoteResult_ok (h : v.validateVoteResult t voteResult block = .ok ()) :
    subjectOfVoteResult voteResult = subjectOfHeader block.blockHeader ∧
      ∀ vote ∈ voteResult.data.votes, subjectOfVote vote = subjectOfHeader block.blockHeader ∧
        v.validateVote t vote block = .ok () := by
  obtain ⟨hsubject, -, hvotes⟩ := validateVoteResult_eq_ok.mp h
  exact ⟨hsubject, hvotes⟩

end L1xCore.Validate
