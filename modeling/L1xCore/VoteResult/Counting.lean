import L1xCore.Lib.Firsts
import L1xCore.VoteResult.Threshold
import Mathlib.Algebra.Order.BigOperators.Group.List
import Mathlib.Algebra.Order.Ring.Nat

/-!
# `VoteResult.Counting` — counting votes in any order

Votes come from the network as they are, and `get_unique_votes` and `is_passed` count them: the first vote of
every voter, with the stake of the validator it names. Three things can go wrong. A key may be too short for
its first eight bytes. The stakes may add up to more than 128 bits hold. And a voter may have voted for and
against the block: which of the two is the first depends on the order of the votes.

By voters, the count is about sets: those that only voted for the block, those that contradict themselves,
and all of them. The order of the votes chooses a subset of the second (`Lib.Firsts`), and nothing else
depends on it.
-/

namespace L1xCore.VoteResultManager

open Validate List BitVec

/-! ## Additions that are checked -/

/-- One round of the loop of `is_passed` in a build that checks additions; nothing if one of them panics. -/
def checkedAddVote (stake : Address → Balance) (sums : Balance × Balance) (vote : Vote) :
    Option (Balance × Balance) := do
  let total ← sums.1.checkedAdd (stake vote.validatorAddress)
  let yes ← if vote.data.vote then sums.2.checkedAdd (stake vote.validatorAddress) else some sums.2
  pure (total, yes)

def checkedVotedStake (stake : Address → Balance) (votes : List Vote) : Option (Balance × Balance) :=
  votes.foldlM (checkedAddVote stake) (0, 0)

/-- `is_passed` in a build that checks additions. -/
def isPassedChecked (caches : RuntimeCaches) (allVotes : List Vote) (validators : List Validator)
    (minParticipationCount : Nat) : Option (Except Error Bool) :=
  match caches.getConfig, caches.getStakingInfo with
  | .error e, _ => some (.error e)
  | .ok _, .error e => some (.error e)
  | .ok config, .ok stakingInfo =>
    let valid := validVotes allVotes validators
    if valid.length < minParticipationCount then some (.ok false)
    else (checkedVotedStake (stakeOf config stakingInfo validators) valid).map fun sums =>
      .ok (stakePassed sums.1 sums.2)

/-- The stake of a list of votes, added up without a limit. -/
def stakeSum (stake : Address → Balance) (votes : List Vote) : Nat :=
  (votes.map fun vote => (stake vote.validatorAddress).toNat).sum

variable {stake : Address → Balance} (votes : List Vote) (sums : Balance × Balance)

theorem stakeSum_cons (vote : Vote) (votes : List Vote) :
    stakeSum stake (vote :: votes) = (stake vote.validatorAddress).toNat + stakeSum stake votes := sum_cons

/-- One round of the loop of `is_passed`. -/
def addVote (stake : Address → Balance) (sums : Balance × Balance) (vote : Vote) : Balance × Balance :=
  (sums.1 + stake vote.validatorAddress,
    if vote.data.vote then sums.2 + stake vote.validatorAddress else sums.2)

theorem votedStake_eq : votedStake stake votes = votes.foldl (addVote stake) (0, 0) := rfl

section

variable {sums : Balance × Balance} {vote : Vote}

theorem toNat_addVote (hle : sums.2.toNat ≤ sums.1.toNat)
    (hfits : sums.1.toNat + (stake vote.validatorAddress).toNat < 2 ^ 128) :
    (addVote stake sums vote).1.toNat = sums.1.toNat + (stake vote.validatorAddress).toNat ∧
      (addVote stake sums vote).2.toNat =
        sums.2.toNat + if vote.data.vote then (stake vote.validatorAddress).toNat else 0 := by
  refine ⟨toNat_add_of_lt hfits, ?_⟩
  unfold addVote
  cases vote.data.vote with
  | false => rfl
  | true => exact toNat_add_of_lt (by omega)

/-- The yes votes are among all of them, so only the total can be too large. -/
theorem checkedAddVote_eq (hle : sums.2.toNat ≤ sums.1.toNat) :
    checkedAddVote stake sums vote =
      if sums.1.toNat + (stake vote.validatorAddress).toNat < 2 ^ 128 then
        some (addVote stake sums vote)
      else none := by
  unfold checkedAddVote addVote checkedAdd
  by_cases hfits : sums.1.toNat + (stake vote.validatorAddress).toNat < 2 ^ 128
  · have hyes : sums.2.toNat + (stake vote.validatorAddress).toNat < 2 ^ 128 := by omega
    rw [if_pos hfits, if_pos hfits, if_pos hyes]
    cases vote.data.vote <;> rfl
  · rw [if_neg hfits, if_neg hfits]
    rfl

end

/-- **The loop with checks** returns what the loop without them returns, if the total fits. -/
theorem foldlM_checkedAddVote (hle : sums.2.toNat ≤ sums.1.toNat) :
    votes.foldlM (checkedAddVote stake) sums =
      if sums.1.toNat + stakeSum stake votes < 2 ^ 128 then some (votes.foldl (addVote stake) sums)
      else none := by
  induction votes generalizing sums with
  | nil => exact (if_pos sums.1.isLt).symm
  | cons vote votes ih =>
    rw [foldlM_cons, checkedAddVote_eq hle, stakeSum_cons, foldl_cons]
    by_cases hfits : sums.1.toNat + (stake vote.validatorAddress).toNat < 2 ^ 128
    · obtain ⟨htotal, hyes⟩ := toNat_addVote hle hfits
      have hle' : (addVote stake sums vote).2.toNat ≤ (addVote stake sums vote).1.toNat := by
        rw [htotal, hyes]
        split <;> omega
      rw [if_pos hfits]
      show votes.foldlM (checkedAddVote stake) (addVote stake sums vote) = _
      rw [ih _ hle', htotal, add_assoc]
    · rw [if_neg hfits, if_neg (by omega)]
      rfl

/-- Sums that fit are exact. -/
theorem toNat_foldl_addVote (hle : sums.2.toNat ≤ sums.1.toNat)
    (hfits : sums.1.toNat + stakeSum stake votes < 2 ^ 128) :
    (votes.foldl (addVote stake) sums).1.toNat = sums.1.toNat + stakeSum stake votes ∧
      (votes.foldl (addVote stake) sums).2.toNat =
        sums.2.toNat + stakeSum stake (votes.filter (·.data.vote)) := by
  induction votes generalizing sums with
  | nil => exact ⟨rfl, rfl⟩
  | cons vote votes ih =>
    rw [stakeSum_cons] at hfits
    have hround : sums.1.toNat + (stake vote.validatorAddress).toNat < 2 ^ 128 := by omega
    obtain ⟨htotal, hyes⟩ := toNat_addVote hle hround
    have hle' : (addVote stake sums vote).2.toNat ≤ (addVote stake sums vote).1.toNat := by
      rw [htotal, hyes]
      split <;> omega
    obtain ⟨htotal', hyes'⟩ := ih _ hle' (by omega)
    rw [foldl_cons, htotal', hyes', htotal, hyes, stakeSum_cons, filter_cons]
    refine ⟨by omega, ?_⟩
    cases vote.data.vote with
    | false => rfl
    | true =>
      rw [if_pos rfl, if_pos rfl, stakeSum_cons]
      omega

theorem checkedVotedStake_eq :
    checkedVotedStake stake votes =
      if stakeSum stake votes < 2 ^ 128 then some (votedStake stake votes) else none := by
  have hzero : ((0, 0) : Balance × Balance).1.toNat = 0 := rfl
  unfold checkedVotedStake
  rw [foldlM_checkedAddVote votes (0, 0) (le_refl _), hzero, zero_add]
  rfl

theorem toNat_votedStake {votes : List Vote} (hfits : stakeSum stake votes < 2 ^ 128) :
    (votedStake stake votes).1.toNat = stakeSum stake votes ∧
      (votedStake stake votes).2.toNat = stakeSum stake (votes.filter (·.data.vote)) := by
  have hzero : ((0, 0) : Balance × Balance).1.toNat = 0 := rfl
  have hfits' : ((0, 0) : Balance × Balance).1.toNat + stakeSum stake votes < 2 ^ 128 := by omega
  obtain ⟨htotal, hyes⟩ := toNat_foldl_addVote votes (0, 0) (le_refl _) hfits'
  rw [votedStake_eq, htotal, hyes]
  exact ⟨zero_add _, zero_add _⟩

/-! ## Voters -/

/-- Those with a vote that names a validator. -/
def voters (votes : List Vote) (validators : List Validator) : Finset (Address × Bytes) :=
  ((validVotes votes validators).map voterOf).toFinset

/-- Those of them with votes for the block only. -/
def firmVoters (votes : List Vote) (validators : List Validator) : Finset (Address × Bytes) :=
  List.keysFirm voterOf (·.data.vote) (validVotes votes validators)

/-- Those of them with votes for and against it. -/
def tornVoters (votes : List Vote) (validators : List Validator) : Finset (Address × Bytes) :=
  List.keysTorn voterOf (·.data.vote) (validVotes votes validators)

/-- Those of them whose first vote is for it. -/
def yesVoters (votes : List Vote) (validators : List Validator) : Finset (Address × Bytes) :=
  List.keysLed voterOf (·.data.vote) (validVotes votes validators)

/-- The stake of a set of voters. -/
def votersStake (stake : Address → Balance) (voters : Finset (Address × Bytes)) : Nat :=
  ∑ voter ∈ voters, (stake voter.1).toNat

variable {votes votes' : List Vote} {validators : List Validator}

/-- The counted votes are the first ones of the voters. -/
theorem firsts_validVotes :
    Firsts voterOf (validVotes votes validators) (validVotes (uniqueVotes votes) validators) := by
  refine ⟨?_, nodup_voters.sublist (filter_sublist.map voterOf)⟩
  intro vote
  unfold validVotes
  rw [mem_filter, mem_uniqueVotes, find?_filter]
  by_cases hnamed : vote.validatorAddress ∈ validators.map (·.address)
  · -- all votes of one voter name the same address
    have hsame : (fun x : Vote => decide (decide (x.validatorAddress ∈ validators.map (·.address)) = true ∧
        decide (voterOf x = voterOf vote) = true)) = fun x => decide (voterOf x = voterOf vote) := by
      funext x
      by_cases hvoter : voterOf x = voterOf vote
      · have haddress : x.validatorAddress = vote.validatorAddress := congrArg Prod.fst hvoter
        simp [hvoter, haddress, hnamed]
      · simp [hvoter]
    rw [hsame]
    exact and_iff_left (decide_eq_true hnamed)
  · refine iff_of_false (fun h => hnamed (of_decide_eq_true h.2)) fun h => ?_
    have hfound := find?_some h
    rw [decide_eq_true_iff, decide_eq_true_iff] at hfound
    exact hnamed hfound.1

theorem stakeSum_validVotes : stakeSum stake (validVotes (uniqueVotes votes) validators) =
    votersStake stake (voters votes validators) :=
  firsts_validVotes.sum_map fun voter => (stake voter.1).toNat

theorem stakeSum_filter_validVotes :
    stakeSum stake ((validVotes (uniqueVotes votes) validators).filter (·.data.vote)) =
      votersStake stake (yesVoters votes validators) :=
  firsts_validVotes.sum_filter fun voter => (stake voter.1).toNat

theorem length_validVotes : (validVotes (uniqueVotes votes) validators).length =
    (voters votes validators).card :=
  firsts_validVotes.length_eq

/-! ## What the order decides -/

/-- Three fifths of the stake are in favour, and the products with which this is tested fit. -/
def StakeInFavour (total yes : Nat) : Prop := total ≠ 0 ∧ 60 * total ≤ 100 * yes ∧ 100 * yes < 2 ^ 128

instance (total yes : Nat) : Decidable (StakeInFavour total yes) :=
  inferInstanceAs (Decidable (_ ∧ _))

theorem stakePassed_eq (total yes : Balance) :
    stakePassed total yes = decide (StakeInFavour total.toNat yes.toNat) := by
  rw [Bool.eq_iff_iff, decide_eq_true_iff]
  have htotal : total = 0 ↔ total.toNat = 0 := by
    rw [← toNat_inj]
    rfl
  have hnumerator : STAKE_PASS_NUMERATOR.toNat = 60 := rfl
  have hdenominator : STAKE_PASS_DENOMINATOR.toNat = 100 := rfl
  unfold stakePassed StakeInFavour
  by_cases hzero : total = 0
  · rw [if_pos hzero]
    exact iff_of_false (by decide) fun h => h.1 (htotal.mp hzero)
  rw [if_neg hzero]
  rw [htotal] at hzero
  cases hyes : yes.checkedMul STAKE_PASS_DENOMINATOR with
  | none =>
    have hlarge := checkedMul_eq_none.mp hyes
    rw [hdenominator] at hlarge
    refine iff_of_false (by simp) fun h => ?_
    omega
  | some y =>
    have hy := checkedMul_eq_some.mp hyes
    rw [hdenominator] at hy
    cases htotal : total.checkedMul STAKE_PASS_NUMERATOR with
    | none =>
      have hlarge := checkedMul_eq_none.mp htotal
      rw [hnumerator] at hlarge
      refine iff_of_false (by simp) fun h => ?_
      omega
    | some t =>
      have ht := checkedMul_eq_some.mp htotal
      rw [hnumerator] at ht
      have hcompare : decide (t ≤ y) = true ↔ t.toNat ≤ y.toNat := decide_eq_true_iff
      refine hcompare.trans ?_
      omega

section

variable {caches : RuntimeCaches} {config : RuntimeConfig} {stakingInfo : RuntimeStakingInfo}
  (hconfig : caches.getConfig = .ok config)
  (hinfo : caches.getStakingInfo = .ok stakingInfo)

include hconfig hinfo

theorem isPassed_eq (allVotes : List Vote) (count : Nat) : isPassed caches allVotes validators count =
      if (validVotes allVotes validators).length < count then .ok false
      else
        let sums := votedStake (stakeOf config stakingInfo validators) (validVotes allVotes validators)
        .ok (stakePassed sums.1 sums.2) := by
  unfold isPassed
  rw [hconfig, hinfo]
  rfl

/-- The checks find something exactly if the stake is added up and does not fit. -/
theorem isPassedChecked_eq (allVotes : List Vote) (count : Nat) :
    isPassedChecked caches allVotes validators count =
      if (validVotes allVotes validators).length < count ∨
          stakeSum (stakeOf config stakingInfo validators) (validVotes allVotes validators) < 2 ^ 128 then
        some (isPassed caches allVotes validators count)
      else none := by
  rw [isPassed_eq hconfig hinfo]
  unfold isPassedChecked
  rw [hconfig, hinfo]
  by_cases hfew : (validVotes allVotes validators).length < count
  · simp only [hfew, if_true, true_or]
  · simp only [hfew, if_false, false_or, checkedVotedStake_eq]
    split
    · rfl
    · rfl

end

/-! ## Every order -/

section

variable (hperm : votes'.Perm votes)
include hperm

theorem perm_validVotes : (validVotes votes' validators).Perm (validVotes votes validators) :=
  hperm.filter _

theorem voters_of_perm : voters votes' validators = voters votes validators :=
  (perm_validVotes hperm).keys_eq

theorem firmVoters_of_perm : firmVoters votes' validators = firmVoters votes validators :=
  (perm_validVotes hperm).keysFirm_eq

theorem tornVoters_of_perm : tornVoters votes' validators = tornVoters votes validators :=
  (perm_validVotes hperm).keysTorn_eq

end

/-- The voters in favour are the firm ones and some of the torn ones. -/
theorem yesVoters_eq (validators : List Validator) :
    yesVoters votes validators =
      firmVoters votes validators ∪ (tornVoters votes validators ∩ yesVoters votes validators) :=
  keysLed_eq voterOf (·.data.vote) (validVotes votes validators)

/-- Some order of the votes puts any set of torn voters in favour. -/
theorem exists_perm_yesVoters {T : Finset (Address × Bytes)} (hT : T ⊆ tornVoters votes validators) :
    ∃ votes', votes'.Perm votes ∧ yesVoters votes' validators = firmVoters votes validators ∪ T := by
  obtain ⟨named, hperm, hled⟩ := exists_perm_keysLed hT
  let others := votes.filter fun vote => !decide (vote.validatorAddress ∈ validators.map (·.address))
  have hnamed : validVotes named validators = named := by
    refine filter_eq_self.mpr fun vote hvote => ?_
    exact (mem_filter.mp (hperm.mem_iff.mp hvote)).2
  have hothers : validVotes others validators = [] := by
    refine filter_eq_nil_iff.mpr fun vote hvote => ?_
    simpa using (mem_filter.mp hvote).2
  refine ⟨named ++ others, (hperm.append_right others).trans (filter_append_perm _ votes), ?_⟩
  unfold yesVoters
  rw [show validVotes (named ++ others) validators = validVotes named validators ++ validVotes others validators
    from filter_append .., hnamed, hothers, append_nil]
  exact hled

/-- The votes of a vote result in another order, or other ones. -/
def withVotes (voteResult : VoteResult) (votes : List Vote) : VoteResult :=
  { voteResult with data := { voteResult.data with votes } }

/-- **Counting is safe.** `get_unique_votes` returns, `is_passed` returns what it would return if every
    addition were checked, for the votes as they come and for the unique ones, and the order of the votes
    does not matter. -/
structure CountsSafely (caches : RuntimeCaches) (voteResult : VoteResult)
    (validators : List Validator) : Prop where
  unique : ∃ unique, getUniqueVotes voteResult.data.votes = .ok unique
  noOverflow : ∀ counted,
    counted = voteResult.data.votes ∨ getUniqueVotes voteResult.data.votes = .ok counted → ∀ count,
      isPassedChecked caches counted validators count = some (isPassed caches counted validators count)
  anyOrder : ∀ votes, votes.Perm voteResult.data.votes →
    isVoteResultPassed caches (withVotes voteResult votes) validators =
      isVoteResultPassed caches voteResult validators

/-- It does not matter which of the voters with votes for and against the block are in favour. -/
def TornDoNotDecide (stake : Address → Balance) (votes : List Vote) (validators : List Validator) : Prop :=
  ∀ T ⊆ tornVoters votes validators,
    (StakeInFavour (votersStake stake (voters votes validators))
        (votersStake stake (firmVoters votes validators ∪ T)) ↔
      StakeInFavour (votersStake stake (voters votes validators))
        (votersStake stake (firmVoters votes validators)))

/-! ## When counting is safe -/

section

variable {caches : RuntimeCaches} {config : RuntimeConfig} {stakingInfo : RuntimeStakingInfo}
  {voteResult : VoteResult}

theorem filled_or_error :
    (∃ config stakingInfo, caches.getConfig = .ok config ∧ caches.getStakingInfo = .ok stakingInfo) ∨
      ∃ e, ∀ allVotes validators count, isPassed caches allVotes validators count = .error e ∧
        isPassedChecked caches allVotes validators count = some (.error e) := by
  unfold isPassed isPassedChecked
  cases hconfig : caches.getConfig with
  | error e => exact .inr ⟨e, fun _ _ _ => ⟨rfl, rfl⟩⟩
  | ok config =>
    cases hinfo : caches.getStakingInfo with
    | error e => exact .inr ⟨e, fun _ _ _ => ⟨rfl, rfl⟩⟩
    | ok stakingInfo => exact .inl ⟨config, stakingInfo, rfl, rfl⟩

/-- Counting every voter once, no more stake is added up than for the votes as they come. -/
theorem votersStake_voters_le (stake : Address → Balance) (votes : List Vote) (validators : List Validator) :
    votersStake stake (voters votes validators) ≤ stakeSum stake (validVotes votes validators) := by
  rw [← stakeSum_validVotes]
  have hnodup : (validVotes (uniqueVotes votes) validators).Nodup := firsts_validVotes.nodup.of_map _
  have hsubset : validVotes (uniqueVotes votes) validators ⊆ validVotes votes validators := by
    intro vote hvote
    exact mem_of_find?_eq_some (firsts_validVotes.mem_iff.mp hvote)
  obtain ⟨counted, hperm, hsublist⟩ := subperm_of_subset hnodup hsubset
  calc stakeSum stake (validVotes (uniqueVotes votes) validators)
      = stakeSum stake counted := (hperm.map _).sum_eq.symm
    _ ≤ stakeSum stake (validVotes votes validators) := (hsublist.map _).sum_le_sum fun _ _ => Nat.zero_le _

/-- The count of any order of the votes is about the same voters. -/
theorem isVoteResultPassed_withVotes (hperm : votes.Perm voteResult.data.votes)
    (hconfig : caches.getConfig = .ok config) (hinfo : caches.getStakingInfo = .ok stakingInfo)
    (hkeys : ∀ vote ∈ voteResult.data.votes, 8 ≤ vote.verifyingKey.length)
    (hfits : stakeSum (stakeOf config stakingInfo validators)
      (validVotes voteResult.data.votes validators) < 2 ^ 128) :
    isVoteResultPassed caches (withVotes voteResult votes) validators =
      .ok (decide (3 * validators.length / 5 ≤ (voters voteResult.data.votes validators).card ∧
        StakeInFavour
          (votersStake (stakeOf config stakingInfo validators) (voters voteResult.data.votes validators))
          (votersStake (stakeOf config stakingInfo validators) (yesVoters votes validators)))) := by
  have hkeys' : ∀ vote ∈ (withVotes voteResult votes).data.votes, 8 ≤ vote.verifyingKey.length :=
    fun vote hvote => hkeys vote (hperm.mem_iff.mp hvote)
  have hvoters : voters (withVotes voteResult votes).data.votes validators =
      voters voteResult.data.votes validators := voters_of_perm hperm
  have hle := votersStake_voters_le (stakeOf config stakingInfo validators) voteResult.data.votes validators
  have hfits' : votersStake (stakeOf config stakingInfo validators)
      (voters (withVotes voteResult votes).data.votes validators) < 2 ^ 128 := by
    rw [hvoters]
    omega
  have hfloor : validators.length * VOTE_THRESHOLD.1 / VOTE_THRESHOLD.2 = 3 * validators.length / 5 := by
    show validators.length * 3 / 5 = _
    rw [mul_comm]
  rw [← stakeSum_validVotes] at hfits'
  obtain ⟨htotal, hyes⟩ := toNat_votedStake hfits'
  unfold isVoteResultPassed
  rw [getUniqueVotes_eq_ok.mpr ⟨hkeys', rfl⟩, hfloor, ← hvoters]
  show isPassed caches (uniqueVotes (withVotes voteResult votes).data.votes) validators _ = _
  rw [isPassed_eq hconfig hinfo, ← length_validVotes]
  by_cases hfew : (validVotes (uniqueVotes (withVotes voteResult votes).data.votes) validators).length <
      3 * validators.length / 5
  · rw [if_pos hfew]
    have hnot := not_le.mpr hfew
    simp [hnot]
  · rw [if_neg hfew]
    have hle := Nat.le_of_not_lt hfew
    show Except.ok (stakePassed _ _) = _
    rw [stakePassed_eq, htotal, hyes, stakeSum_validVotes, stakeSum_filter_validVotes, Bool.decide_and,
      decide_eq_true hle, Bool.true_and]
    rfl

/-- **When counting votes is safe.** For all votes, validators and caches: every key has eight bytes, and, if
    the caches are filled, the stakes of the votes that name validators add up to less than 2^128, and no
    voters that contradict themselves decide the vote, unless there are too few voters anyway. -/
theorem countsSafely_iff (caches : RuntimeCaches) (voteResult : VoteResult) (validators : List Validator) :
    CountsSafely caches voteResult validators ↔
      (∀ vote ∈ voteResult.data.votes, 8 ≤ vote.verifyingKey.length) ∧
        ∀ config stakingInfo, caches.getConfig = .ok config → caches.getStakingInfo = .ok stakingInfo →
          stakeSum (stakeOf config stakingInfo validators)
              (validVotes voteResult.data.votes validators) < 2 ^ 128 ∧
            (3 * validators.length / 5 ≤ (voters voteResult.data.votes validators).card →
              TornDoNotDecide (stakeOf config stakingInfo validators) voteResult.data.votes validators) := by
  constructor
  · intro h
    obtain ⟨unique, hunique⟩ := h.unique
    have hkeys := (getUniqueVotes_eq_ok.mp hunique).1
    refine ⟨hkeys, fun config stakingInfo hconfig hinfo => ?_⟩
    have hfits : stakeSum (stakeOf config stakingInfo validators)
        (validVotes voteResult.data.votes validators) < 2 ^ 128 := by
      have hchecked := h.noOverflow _ (.inl rfl) 0
      rw [isPassedChecked_eq hconfig hinfo] at hchecked
      by_contra hlarge
      rw [if_neg (by simpa using hlarge)] at hchecked
      cases hchecked
    refine ⟨hfits, fun hcount T hT => ?_⟩
    -- one order has `T` in favour, another one nobody of the torn
    obtain ⟨votes, hperm, hyes⟩ := exists_perm_yesVoters hT
    obtain ⟨votes', hperm', hyes'⟩ :=
      exists_perm_yesVoters (Finset.empty_subset (tornVoters voteResult.data.votes validators))
    have hsame := (h.anyOrder votes hperm).trans (h.anyOrder votes' hperm').symm
    rw [isVoteResultPassed_withVotes hperm hconfig hinfo hkeys hfits,
      isVoteResultPassed_withVotes hperm' hconfig hinfo hkeys hfits, hyes, hyes', Finset.union_empty] at hsame
    have hdecided := decide_eq_decide.mp (Except.ok.inj hsame)
    rwa [and_iff_right hcount, and_iff_right hcount] at hdecided
  · rintro ⟨hkeys, hfilled⟩
    have hunique := getUniqueVotes_eq_ok.mpr ⟨hkeys, rfl⟩
    rcases filled_or_error with ⟨config, stakingInfo, hconfig, hinfo⟩ | ⟨e, herror⟩
    · obtain ⟨hfits, htorn⟩ := hfilled config stakingInfo hconfig hinfo
      refine ⟨⟨_, hunique⟩, fun counted hcounted count => ?_, fun votes hperm => ?_⟩
      · have hcountedFits : stakeSum (stakeOf config stakingInfo validators)
            (validVotes counted validators) < 2 ^ 128 := by
          rcases hcounted with rfl | hcounted
          · exact hfits
          · obtain ⟨-, rfl⟩ := getUniqueVotes_eq_ok.mp hcounted
            rw [stakeSum_validVotes]
            exact lt_of_le_of_lt (votersStake_voters_le _ _ _) hfits
        rw [isPassedChecked_eq hconfig hinfo, if_pos (.inr hcountedFits)]
      · have hself := isVoteResultPassed_withVotes (.refl _) hconfig hinfo hkeys hfits
        refine (isVoteResultPassed_withVotes hperm hconfig hinfo hkeys hfits).trans (.trans ?_ hself.symm)
        refine congrArg Except.ok (decide_eq_decide.mpr (and_congr_right fun hcount => ?_))
        have hvotes := htorn hcount (tornVoters votes validators ∩ yesVoters votes validators)
          (by rw [tornVoters_of_perm hperm]; exact Finset.inter_subset_left)
        have horiginal := htorn hcount
          (tornVoters voteResult.data.votes validators ∩ yesVoters voteResult.data.votes validators)
          Finset.inter_subset_left
        rw [← firmVoters_of_perm hperm, ← yesVoters_eq, firmVoters_of_perm hperm] at hvotes
        rw [← yesVoters_eq] at horiginal
        exact hvotes.trans horiginal.symm
    · refine ⟨⟨_, hunique⟩, fun counted _ count => ?_, fun votes hperm => ?_⟩
      · rw [(herror counted validators count).1, (herror counted validators count).2]
      · have hkeys' : ∀ vote ∈ (withVotes voteResult votes).data.votes, 8 ≤ vote.verifyingKey.length :=
          fun vote hvote => hkeys vote (hperm.mem_iff.mp hvote)
        unfold isVoteResultPassed
        rw [hunique, getUniqueVotes_eq_ok.mpr ⟨hkeys', rfl⟩]
        exact (herror _ _ _).1.trans (herror _ _ _).1.symm

end

/-- The votes of validator 1 for the block and against it, in this order. -/
def tornVotes : List Vote :=
  [forgedVote 1 201, { forgedVote 1 201 with data := ⟨1, 0, 0, 0, false⟩ }]

def tornVoteResult : VoteResult := ⟨⟨1, 0, 0, true, tornVotes⟩, 200, [], Small.key 200⟩

/-- The caches with a stake of 2^127 for nodes of the organisation. -/
def richCaches : RuntimeCaches :=
  ⟨some ⟨[], 2 ^ 127, none, 0, none, none, none, none, 2, 0⟩, none, some (.refresh ∅)⟩

/-- A key without bytes has no first eight; two stakes of 2^127 do not add up; and a validator that votes twice
    passes the block in one order and not in the other. -/
theorem votes_counted_unsafely :
    getUniqueVotes [{ forgedVote 1 201 with verifyingKey := [] }] =
      .error "range end index 8 out of range for slice" ∧
    isPassedChecked richCaches twoVotes fourValidators 0 = none ∧
    isVoteResultPassed orgCaches tornVoteResult (fourValidators.take 1) = .ok true ∧
    isVoteResultPassed orgCaches (withVotes tornVoteResult tornVotes.reverse)
      (fourValidators.take 1) = .ok false ∧
    ¬ CountsSafely orgCaches tornVoteResult (fourValidators.take 1) := by
  have hyes : isVoteResultPassed orgCaches tornVoteResult (fourValidators.take 1) = .ok true := by
    decide +kernel
  have hno : isVoteResultPassed orgCaches (withVotes tornVoteResult tornVotes.reverse)
      (fourValidators.take 1) = .ok false := by
    decide +kernel
  refine ⟨by decide +kernel, by decide +kernel, hyes, hno, fun h => ?_⟩
  have hsame := h.anyOrder tornVotes.reverse (reverse_perm tornVotes)
  rw [hyes, hno] at hsame
  cases hsame

end L1xCore.VoteResultManager
