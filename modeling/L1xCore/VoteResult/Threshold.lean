import L1xCore.VoteResult.Quorum

/-!
# `VoteResult.Threshold` — the number of votes on the two sides of a vote result

The proposer makes a vote result with `try_to_generate_vote_result`, and every node counts it again with
`is_vote_result_passed`. Both keep the first vote of every voter, both count the votes that name a
validator, and both ask for three fifths of the voted stake. What differs is the **number** of votes that
three fifths of the validators are: the proposer rounds it up, the nodes round it down. The two are the
same for a committee of a multiple of five, and otherwise one vote apart.
-/

namespace L1xCore.VoteResultManager

open Validate

/-! ## Number and stake -/

/-- The stake of the counted votes is for the block; how many votes there are does not matter. -/
def StakePasses (caches : RuntimeCaches) (allVotes : List Vote) (validators : List Validator) : Prop :=
  isPassed caches allVotes validators 0 = .ok true

instance (caches : RuntimeCaches) (allVotes : List Vote) (validators : List Validator) :
    Decidable (StakePasses caches allVotes validators) :=
  inferInstanceAs (Decidable (_ = _))

variable {validators : List Validator} {caches : RuntimeCaches}

/-- **Votes are passed by their number and their stake**, each on its own. -/
theorem isPassed_iff {allVotes : List Vote} {minParticipationCount : Nat} :
    isPassed caches allVotes validators minParticipationCount = .ok true ↔
      minParticipationCount ≤ (validVotes allVotes validators).length ∧
        StakePasses caches allVotes validators := by
  unfold StakePasses isPassed
  cases hconfig : caches.getConfig with
  | error e =>
    constructor
    · intro h
      cases h
    · rintro ⟨-, h⟩
      cases h
  | ok config =>
    cases hinfo : caches.getStakingInfo with
    | error e =>
      constructor
      · intro h
        cases h
      · rintro ⟨-, h⟩
        cases h
    | ok stakingInfo =>
      by_cases hcount : (validVotes allVotes validators).length < minParticipationCount
      · simp [hcount, bind, Except.bind, pure, Except.pure, not_le.mpr hcount]
      · simp [hcount, bind, bind, pure, pure, Nat.le_of_not_lt hcount]

theorem not_stakePasses_nil : ¬ StakePasses caches [] validators := by
  unfold StakePasses isPassed
  intro h
  cases hconfig : caches.getConfig with
  | error e =>
    rw [hconfig] at h
    cases h
  | ok config =>
    cases hinfo : caches.getStakingInfo with
    | error e =>
      rw [hconfig, hinfo] at h
      cases h
    | ok stakingInfo =>
      rw [hconfig, hinfo] at h
      cases h

theorem getUniqueVotes_eq_ok {votes unique : List Vote} :
    getUniqueVotes votes = .ok unique ↔
      (∀ vote ∈ votes, 8 ≤ vote.verifyingKey.length) ∧ uniqueVotes votes = unique := by
  unfold getUniqueVotes
  split
  · next hkeys => simp_all
  · next hkeys => simp_all

/-! ## The two sides -/

section

variable {messages : MessageCodec} {sign : Bytes → SignatureBytes} {verifyingKey : VerifyingKeyBytes}
  {caches : RuntimeCaches} {blockNumber : BlockNumber} {blockHash : BlockHash}
  {clusterAddress blockProposerAddress : Address} {votes : List Vote} {validators : List Validator}

/-- **What the proposer asks for.** -/
theorem generates_iff :
    (∃ voteResult, tryToGenerateVoteResult messages sign verifyingKey caches blockNumber blockHash
        clusterAddress votes blockProposerAddress validators = .ok (some voteResult)) ↔
      (∀ vote ∈ votes, 8 ≤ vote.verifyingKey.length) ∧
        calculateMinVotes validators.length ≤ (validVotes (uniqueVotes votes) validators).length ∧
        StakePasses caches (uniqueVotes votes) validators := by
  rw [← isPassed_iff]
  unfold tryToGenerateVoteResult
  cases hunique : getUniqueVotes votes with
  | error e =>
    constructor
    · rintro ⟨voteResult, h⟩
      cases h
    · rintro ⟨hkeys, -⟩
      rw [getUniqueVotes_eq_ok.mpr ⟨hkeys, rfl⟩] at hunique
      cases hunique
  | ok unique =>
    obtain ⟨hkeys, rfl⟩ := getUniqueVotes_eq_ok.mp hunique
    show (∃ voteResult, (if (uniqueVotes votes).isEmpty then _ else _) = _) ↔ _
    by_cases hempty : (uniqueVotes votes).isEmpty
    · rw [if_pos hempty]
      constructor
      · rintro ⟨voteResult, h⟩
        cases h
      · rintro ⟨-, hpassed⟩
        rw [List.isEmpty_iff.mp hempty] at hpassed
        exact absurd (isPassed_iff.mp hpassed).2 not_stakePasses_nil
    · rw [if_neg hempty]
      by_cases hfew : (uniqueVotes votes).length < calculateMinVotes validators.length
      · rw [if_pos hfew]
        constructor
        · rintro ⟨voteResult, h⟩
          cases h
        · rintro ⟨-, hpassed⟩
          have hcount := (isPassed_iff.mp hpassed).1
          have hle : (validVotes (uniqueVotes votes) validators).length ≤ _ := List.length_filter_le _ _
          omega
      · rw [if_neg hfew]
        cases hpassed : isPassed caches (uniqueVotes votes) validators
            (calculateMinVotes validators.length) with
        | error e =>
          constructor
          · rintro ⟨voteResult, h⟩
            cases h
          · rintro ⟨-, h⟩
            cases h
        | ok passed =>
          cases passed with
          | false =>
            constructor
            · rintro ⟨voteResult, h⟩
              cases h
            · rintro ⟨-, h⟩
              cases h
          | true =>
            constructor
            · intro _
              exact ⟨hkeys, rfl⟩
            · intro _
              exact ⟨_, rfl⟩

/-- **What a node asks for.** -/
theorem isVoteResultPassed_iff {voteResult : VoteResult} (hvotes : voteResult.data.votes = votes) :
    isVoteResultPassed caches voteResult validators = .ok true ↔
      (∀ vote ∈ votes, 8 ≤ vote.verifyingKey.length) ∧
        3 * validators.length / 5 ≤ (validVotes (uniqueVotes votes) validators).length ∧
        StakePasses caches (uniqueVotes votes) validators := by
  have hfloor : validators.length * VOTE_THRESHOLD.1 / VOTE_THRESHOLD.2 = 3 * validators.length / 5 := by
    show validators.length * 3 / 5 = _
    rw [mul_comm]
  rw [← isPassed_iff]
  unfold isVoteResultPassed
  rw [hvotes, hfloor]
  cases hunique : getUniqueVotes votes with
  | error e =>
    constructor
    · intro h
      cases h
    · rintro ⟨hkeys, -⟩
      rw [getUniqueVotes_eq_ok.mpr ⟨hkeys, rfl⟩] at hunique
      cases hunique
  | ok unique =>
    obtain ⟨hkeys, rfl⟩ := getUniqueVotes_eq_ok.mp hunique
    constructor
    · intro h
      exact ⟨hkeys, h⟩
    · intro h
      exact h.2

end

/-! ## One threshold -/

/-- The proposer makes a vote result of the votes exactly when the nodes pass one that carries them, and the
    nodes pass none with fewer votes of validators than three fifths of their number. -/
structure OneThreshold (messages : MessageCodec) (sign : Bytes → SignatureBytes)
    (verifyingKey : VerifyingKeyBytes) (caches : RuntimeCaches) (blockNumber : BlockNumber)
    (blockHash : BlockHash) (clusterAddress blockProposerAddress : Address) (votes : List Vote)
    (validators : List Validator) : Prop where
  same : ∀ voteResult, voteResult.data.votes = votes →
    ((∃ generated, tryToGenerateVoteResult messages sign verifyingKey caches blockNumber blockHash
        clusterAddress votes blockProposerAddress validators = .ok (some generated)) ↔
      isVoteResultPassed caches voteResult validators = .ok true)
  enough : ∀ voteResult, voteResult.data.votes = votes →
    isVoteResultPassed caches voteResult validators = .ok true →
      3 * validators.length ≤ 5 * (validVotes (uniqueVotes votes) validators).length

/-- The votes are those of three fifths of the validators, rounded down to a smaller number. -/
def OneShort (votes : List Vote) (validators : List Validator) : Prop :=
  validators.length % 5 ≠ 0 ∧ (validVotes (uniqueVotes votes) validators).length = 3 * validators.length / 5

/-- **When the two sides agree.** For all votes, validators and caches: there is one threshold, unless the
    votes are one short of it, and everything else is in order: the keys have eight bytes, the caches are
    there, and the counted stake is for the block. -/
theorem oneThreshold_iff (messages : MessageCodec) (sign : Bytes → SignatureBytes)
    (verifyingKey : VerifyingKeyBytes) (caches : RuntimeCaches) (blockNumber : BlockNumber)
    (blockHash : BlockHash) (clusterAddress blockProposerAddress : Address) (votes : List Vote)
    (validators : List Validator) :
    OneThreshold messages sign verifyingKey caches blockNumber blockHash clusterAddress
        blockProposerAddress votes validators ↔
      ¬ OneShort votes validators ∨ ¬ (∀ vote ∈ votes, 8 ≤ vote.verifyingKey.length) ∨
        ¬ StakePasses caches (uniqueVotes votes) validators := by
  constructor
  · intro h
    by_contra hcond
    obtain ⟨hshort, hcond⟩ := not_or.mp hcond
    obtain ⟨hkeys, hstake⟩ := not_or.mp hcond
    obtain ⟨hmod, hcount⟩ := not_not.mp hshort
    -- any vote result with the votes will do
    let voteResult : VoteResult :=
      ⟨⟨blockNumber, blockHash, clusterAddress, true, votes⟩, blockProposerAddress, [], []⟩
    have hpassed : isVoteResultPassed caches voteResult validators = .ok true :=
      (isVoteResultPassed_iff rfl).mpr
        ⟨not_not.mp hkeys, le_of_eq hcount.symm, not_not.mp hstake⟩
    have henough := h.enough voteResult rfl hpassed
    omega
  · intro hcond
    -- votes that pass rounded down are enough rounded up
    have hround : ∀ voteResult, voteResult.data.votes = votes →
        isVoteResultPassed caches voteResult validators = .ok true →
        3 * validators.length ≤ 5 * (validVotes (uniqueVotes votes) validators).length := by
      intro voteResult hvotes hpassed
      obtain ⟨hkeys, hcount, hstake⟩ := (isVoteResultPassed_iff hvotes).mp hpassed
      rcases hcond with hshort | hkeys' | hstake'
      · by_contra hless
        exact hshort ⟨by omega, by omega⟩
      · exact absurd hkeys hkeys'
      · exact absurd hstake hstake'
    have hmin : calculateMinVotes validators.length = (3 * validators.length + 4) / 5 := by
      show (validators.length * 3 + 4) / 5 = _
      rw [mul_comm]
    refine ⟨?_, hround⟩
    intro voteResult hvotes
    constructor
    · intro hgenerated
      obtain ⟨hkeys, hcount, hstake⟩ := generates_iff.mp hgenerated
      exact (isVoteResultPassed_iff hvotes).mpr ⟨hkeys, by omega, hstake⟩
    · intro hpassed
      have henough := hround voteResult hvotes hpassed
      obtain ⟨hkeys, -, hstake⟩ := (isVoteResultPassed_iff hvotes).mp hpassed
      exact generates_iff.mpr ⟨hkeys, by omega, hstake⟩

/-- Four validators, all of them nodes of the organisation. -/
def fourValidators : List Validator :=
  [1, 2, 3, 4].map fun address => { address, clusterAddress := 0, epoch := 0, stake := 0, xscore := 1 }

/-- The votes of two of them. -/
def twoVotes : List Vote := [forgedVote 1 201, forgedVote 2 202]

/-- Half of the validators is too few for the proposer and enough for the nodes. -/
theorem two_of_four_passed :
    tryToGenerateVoteResult Small.messages (Small.sign (Small.key 200)) (Small.key 200)
      orgCaches 1 0 0 twoVotes 200 fourValidators = .ok none ∧
    isVoteResultPassed orgCaches
      ⟨⟨1, 0, 0, true, twoVotes⟩, 200, [], Small.key 200⟩ fourValidators = .ok true ∧
    ¬ OneThreshold Small.messages (Small.sign (Small.key 200)) (Small.key 200) orgCaches 1 0 0
      200 twoVotes fourValidators := by
  have hpassed : isVoteResultPassed orgCaches
      ⟨⟨1, 0, 0, true, twoVotes⟩, 200, [], Small.key 200⟩ fourValidators = .ok true := by
    decide +kernel
  refine ⟨by decide +kernel, hpassed, ?_⟩
  intro h
  have henough := h.enough _ rfl hpassed
  revert henough
  decide +kernel

end L1xCore.VoteResultManager
