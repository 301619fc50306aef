import L1xCore.Db.ChainTables
import L1xCore.System.RuntimeConfig
import Mathlib.Algebra.Order.Ring.Rat

/-!
# `VoteResult.VoteResultManager` — when a vote is passed

`vote_result/src/vote_result_manager.rs`. Votes are told apart by the address they **claim** and the first
eight bytes of their key. A vote counts when the claimed address is a validator's, with the stake the
caches know for that address. `0.60` is taken as the rational three fifths.
-/

namespace L1xCore.VoteResultManager

/-- `VOTE_THRESHOLD`, as the fraction 3/5. -/
def VOTE_THRESHOLD : Nat × Nat := (3, 5)

def STAKE_PASS_NUMERATOR : Balance := 60

def STAKE_PASS_DENOMINATOR : Balance := 100

/-- The number of votes a proposer waits for: the threshold rounded **up**. -/
def calculateMinVotes (validatorsCount : Nat) : Nat :=
  (validatorsCount * VOTE_THRESHOLD.1 + (VOTE_THRESHOLD.2 - 1)) / VOTE_THRESHOLD.2

/-- What two votes of one voter have in common. -/
def voterOf (vote : Vote) : Address × Bytes := (vote.validatorAddress, vote.verifyingKey.take 8)

/-- The first vote of every voter. The order of a hash map is arbitrary, and nothing depends on it. -/
def uniqueVotes (votes : List Vote) : List Vote :=
  (votes.foldl (fun unique vote => unique.upsert (voterOf vote) id vote)
    (∅ : Table (Address × Bytes) Vote)).entries.map (·.2)

/-- `get_unique_votes`. Taking eight bytes of a shorter key panics. -/
def getUniqueVotes (votes : List Vote) : Except Error (List Vote) :=
  if votes.all (8 ≤ ·.verifyingKey.length) then .ok (uniqueVotes votes)
  else .error "range end index 8 out of range for slice"

/-- The votes that claim to be a validator's. -/
def validVotes (allVotes : List Vote) (validators : List Validator) : List Vote :=
  allVotes.filter fun vote => vote.validatorAddress ∈ validators.map (·.address)

/-- Nodes of the organisation are marked by a stake of zero and a score of one. -/
def isOrgNode (validators : List Validator) (address : Address) : Bool :=
  match validators.find? (·.address = address) with
  | some validator => validator.stake = 0 ∧ |validator.xscore - 1| < 1 / 2 ^ 52
  | none => false

def stakeOf (config : RuntimeConfig) (stakingInfo : RuntimeStakingInfo)
    (validators : List Validator) (address : Address) : Balance :=
  if isOrgNode validators address then config.minBalance
  else (stakingInfo.nodes.lookup address).elim 0 (·.stakedBalance)

/-- The stake of all valid votes, and of those in favour. The sums wrap. -/
def votedStake (stake : Address → Balance) (votes : List Vote) : Balance × Balance :=
  votes.foldl
    (fun (total, yes) vote =>
      (total + stake vote.validatorAddress,
        if vote.data.vote then yes + stake vote.validatorAddress else yes))
    (0, 0)

/-- Three fifths of the voted stake are in favour. An overflow is a no. -/
def stakePassed (total yes : Balance) : Bool :=
  if total = 0 then false
  else
    match yes.checkedMul STAKE_PASS_DENOMINATOR, total.checkedMul STAKE_PASS_NUMERATOR with
    | some y, some t => t ≤ y
    | _, _ => false

/-- `is_passed`. -/
def isPassed (caches : RuntimeCaches) (allVotes : List Vote) (validators : List Validator)
    (minParticipationCount : Nat) : Except Error Bool := do
  let config ← caches.getConfig
  let stakingInfo ← caches.getStakingInfo
  let valid := validVotes allVotes validators
  if valid.length < minParticipationCount then pure false
  else
    let (total, yes) := votedStake (stakeOf config stakingInfo validators) valid
    pure (stakePassed total yes)

/-- `is_vote_result_passed`: here the threshold is rounded **down**. -/
def isVoteResultPassed (caches : RuntimeCaches) (voteResult : VoteResult)
    (validators : List Validator) : Except Error Bool := do
  let unique ← getUniqueVotes voteResult.data.votes
  isPassed caches unique validators (validators.length * VOTE_THRESHOLD.1 / VOTE_THRESHOLD.2)

/-- `try_to_generate_vote_result`: the proposer's own vote result, once enough votes are in favour. -/
def tryToGenerateVoteResult (messages : MessageCodec) (sign : Bytes → SignatureBytes)
    (verifyingKey : VerifyingKeyBytes) (caches : RuntimeCaches) (blockNumber : BlockNumber)
    (blockHash : BlockHash) (clusterAddress : Address) (allVotes : List Vote)
    (blockProposerAddress : Address) (validators : List Validator) :
    Except Error (Option VoteResult) := do
  let unique ← getUniqueVotes allVotes
  if unique.isEmpty then .error "No votes found for the block_hash"
  else if unique.length < calculateMinVotes validators.length then pure none
  else do
    let votePassed ← isPassed caches unique validators (calculateMinVotes validators.length)
    if votePassed then
      let data : VoteResultSignPayload :=
        { blockNumber, blockHash, clusterAddress, votePassed, votes := unique }
      pure (some
        { data, validatorAddress := blockProposerAddress,
          signature := sign (messages.voteResultSignPayload data), verifyingKey })
    else pure none

end L1xCore.VoteResultManager
