import L1xCore.Consensus.Equivocation
import L1xCore.Consensus.ProposerAuthority
import L1xCore.Lib.Related
import L1xCore.VoteResult.Quorum

/-!
# `Consensus.VoteResults` — what other nodes' votes and vote results can do

Votes and vote results are put into the pending list as they come. Two results say what that costs:

* `tryToFinalizeBlock_added_iff` — one vote result that `validate_vote_result` rejects keeps a block from
  being finalised, and nothing else that is added does;
* `broadcasts_usable_iff` — the vote result that a proposer makes of the votes it was sent is accepted
  exactly when the first vote of every voter is about the pending block and passes `validate_vote`.
-/

namespace L1xCore

open Fallible VoteResultManager ChainTables Validate Except List

variable {α : Type} {voteResult : VoteResult} {voteResults : List VoteResult} {t t' : ChainTables}
  {f : ChainTables → ChainTables} {R : World → World → Prop} {voteResult' : VoteResult} {b : Broadcast}

/-- No public key is shorter than the eight bytes by which votes are told apart. -/
def Crypto.KeysAreLong (crypto : Crypto) : Prop :=
  ∀ bytes key, crypto.publicKeyFromSlice bytes = some key → 8 ≤ bytes.length

theorem Account.length_of_addressOf {crypto : Crypto} (hkeys : crypto.KeysAreLong)
    {verifyingKey : VerifyingKeyBytes} {a : Address}
    (h : addressOf crypto verifyingKey = .ok a) : 8 ≤ verifyingKey.length := by
  unfold addressOf at h
  split at h
  · next key hkey => exact hkeys _ _ hkey
  · split at h
    · next howner => rw [howner]; decide
    · split at h
      · next hdistributor => rw [hdistributor]; decide
      · cases h

namespace VoteResultManager

variable {caches : RuntimeCaches} {validators : List Validator} {voteResult : VoteResult}

theorem votes_ne_nil_of_passed (h : isVoteResultPassed caches voteResult validators = .ok true) :
    voteResult.data.votes ≠ [] := by
  intro hnil
  rw [isVoteResultPassed, hnil] at h
  obtain ⟨unique, hunique, h⟩ := bind_eq_ok.mp h
  cases hunique
  obtain ⟨_, _, h⟩ := bind_eq_ok.mp h
  obtain ⟨_, _, h⟩ := bind_eq_ok.mp h
  dsimp only at h
  split at h
  · cases h
  · cases h

/-- The search for the first vote result that is passed, without the log. -/
def firstPassing (caches : RuntimeCaches) (validators : List Validator) :
    List VoteResult → Except Error (Option VoteResult)
  | [] => .ok none
  | voteResult :: voteResults => do
    let passed ← isVoteResultPassed caches voteResult validators
    if passed then pure (some voteResult) else firstPassing caches validators voteResults

theorem firstPassing_some (h : firstPassing caches validators voteResults = .ok (some voteResult)) :
    voteResult ∈ voteResults ∧ isVoteResultPassed caches voteResult validators = .ok true := by
  induction voteResults with
  | nil => cases h
  | cons first voteResults ih =>
    obtain ⟨passed, hpassed, h⟩ := bind_eq_ok.mp h
    split at h
    · next hpass =>
        subst hpass
        cases h
        exact ⟨mem_cons_self, hpassed⟩
    · obtain ⟨hmem, hpass⟩ := ih h
      exact ⟨mem_cons_of_mem _ hmem, hpass⟩

theorem exists_firstPassing
    (hcounted : ∀ other ∈ voteResults, ∃ b, isVoteResultPassed caches other validators = .ok b)
    (hmem : voteResult ∈ voteResults) (hpass : isVoteResultPassed caches voteResult validators = .ok true) :
    ∃ found, firstPassing caches validators voteResults = .ok (some found) := by
  induction voteResults with
  | nil => cases hmem
  | cons first voteResults ih =>
    obtain ⟨b, hfirst⟩ := hcounted first mem_cons_self
    unfold firstPassing
    rw [hfirst]
    cases b with
    | true => exact ⟨first, rfl⟩
    | false =>
      rcases mem_cons.mp hmem with rfl | hmem
      · rw [hpass] at hfirst
        cases hfirst
      · exact ih (fun other hother => hcounted other (mem_cons_of_mem _ hother)) hmem

end VoteResultManager

/-! ## Execution does not look at the stored vote results -/

namespace ChainTables

/-- The tables differ in the vote results at most. -/
structure SameButVoteResults (t t' : ChainTables) : Prop where
  blockHeader : t'.blockHeader = t.blockHeader
  blockHead : t'.blockHead = t.blockHead
  blockMetaInfo : t'.blockMetaInfo = t.blockMetaInfo
  validator : t'.validator = t.validator
  blockProposer : t'.blockProposer = t.blockProposer

theorem SameButVoteResults.storeBlock (h : SameButVoteResults t t') (block : Block) :
    SameButVoteResults (t.storeBlock block) (t'.storeBlock block) := by
  unfold ChainTables.storeBlock updateHead storeBlockHeader loadChainState
  rw [h.blockHead, h.blockHeader]
  split
  · exact ⟨rfl, rfl, by rw [h.blockMetaInfo], h.validator, h.blockProposer⟩
  · exact ⟨rfl, rfl, by rw [h.blockMetaInfo], h.validator, h.blockProposer⟩

end ChainTables

namespace World

/-- State and caches are the same, and the chains are related. -/
structure SameBut (C : ChainTables → ChainTables → Prop) (w w' : World) : Prop where
  state : w'.db.state = w.db.state
  chain : C w.db.chain w'.db.chain
  caches : w'.caches = w.caches

section

variable {C : ChainTables → ChainTables → Prop} (pf : Platform)

theorem applySystemContractsChanges_sameBut {updatedState : UpdatedState} {header : BlockHeader} :
    Related (SameBut C) (applySystemContractsChanges pf updatedState header)
      (applySystemContractsChanges pf updatedState header) (SameBut C) := by
  intro w w' h
  have hsame : pf.applySystemContractsChanges w'.caches w'.db.state updatedState header =
      pf.applySystemContractsChanges w.caches w.db.state updatedState header := by
    rw [h.state, h.caches]
  exact ⟨(congrArg Prod.fst hsame).symm, h.state, h.chain, congrArg Prod.snd hsame⟩

theorem onState_sameBut {x : Fallible StateTables Error α} :
    Related (SameBut C) (onState x) (onState x) (SameBut C) := by
  intro w w' h
  have hsame : x.run w'.db.state = x.run w.db.state := by rw [h.state]
  exact ⟨(congrArg Prod.fst hsame).symm, congrArg Prod.snd hsame, h.chain, h.caches⟩

theorem onChain_update_sameBut (hf : ∀ t t', C t t' → C (f t) (f t')) :
    Related (SameBut C) (onChain (update f)) (onChain (update f)) (SameBut C) :=
  fun _ _ h => ⟨rfl, h.state, hf _ _ h.chain, h.caches⟩

theorem run_transaction_eq (x : Op α) (w : World) :
    (transaction x).run w =
      match x.run w with
      | (.ok a, w') => (.ok a, w')
      | (.error e, w') => (.error e, { w' with db := w.db }) := rfl

theorem transaction_sameBut {x : Op α} (hx : Related (SameBut C) x x (SameBut C)) :
    Related (SameBut C) (transaction x) (transaction x) (SameBut C) := by
  intro w w' hw
  obtain ⟨hresult, hstates⟩ := hx w w' hw
  rcases hrun : x.run w with ⟨r, w₁⟩
  rcases hrun' : x.run w' with ⟨r', w₁'⟩
  rw [hrun, hrun'] at hresult hstates
  cases hresult
  rw [run_transaction_eq, run_transaction_eq, hrun, hrun']
  cases r with
  | ok a => exact ⟨rfl, hstates⟩
  | error e => exact ⟨rfl, hw.state, hw.chain, hstates.caches⟩

/-- **An execution sees of the chain only whether the block is marked.** -/
theorem executeBlock_sameBut (block : Block)
    (hmark : ∀ t t', C t t' →
      t'.isBlockExecuted block.blockHeader.blockNumber block.blockHeader.clusterAddress =
        t.isBlockExecuted block.blockHeader.blockNumber block.blockHeader.clusterAddress)
    (hset : ∀ t t', C t t' →
      C (t.setBlockExecuted block.blockHeader.blockNumber block.blockHeader.clusterAddress)
        (t'.setBlockExecuted block.blockHeader.blockNumber block.blockHeader.clusterAddress)) :
    Related (SameBut C) (executeBlock pf block) (executeBlock pf block) (SameBut C) := by
  have hcommit : ∀ updatedState, Related (SameBut C) (commitBlock updatedState block.blockHeader)
      (commitBlock updatedState block.blockHeader) (SameBut C) := fun updatedState =>
    (onState_sameBut.mapError _).seq fun _ => onChain_update_sameBut hset
  have hinner : Related (SameBut C) (executeBlockInner pf block) (executeBlockInner pf block)
      (SameBut C) := by
    refine .bind_state fun w w' hw => ?_
    rw [hw.state]
    exact (applySystemContractsChanges_sameBut _).outcome.seq fun _ =>
      (hcommit _).seq fun _ => .pure _
  have hsystem : Related (SameBut C) (executeSystemBlockInner pf block)
      (executeSystemBlockInner pf block) (SameBut C) := by
    refine .bind_state fun w w' hw => ?_
    rw [hw.state]
    exact (applySystemContractsChanges_sameBut _).seq fun _ =>
      (hcommit _).seq fun _ => .pure _
  refine .bind_state fun w w' hw => ?_
  rw [hmark _ _ hw.chain]
  split
  · exact .pure _
  · refine transaction_sameBut ?_
    split
    · exact hsystem
    · exact hinner

end

/-- The worlds differ in the vote results at most. -/
abbrev SameButVoteResults : World → World → Prop := SameBut ChainTables.SameButVoteResults

theorem executeBlock_related {pf : Platform} {block : Block} :
    Related SameButVoteResults (executeBlock pf block) (executeBlock pf block)
      SameButVoteResults := by
  have hmark : ∀ t t' : ChainTables, t.SameButVoteResults t' →
      t'.isBlockExecuted block.blockHeader.blockNumber block.blockHeader.clusterAddress =
        t.isBlockExecuted block.blockHeader.blockNumber block.blockHeader.clusterAddress := by
    intro t t' ht
    rw [isBlockExecuted, isBlockExecuted, ht.blockMetaInfo]
  refine executeBlock_sameBut pf block hmark fun t t' ht => ?_
  unfold setBlockExecuted
  rw [ht.blockMetaInfo]
  split
  · exact ⟨ht.blockHeader, ht.blockHead, rfl, ht.validator, ht.blockProposer⟩
  · exact ht

end World

/-! ## A rejected vote result blocks the block -/

namespace Node

variable {n : Node} {block : Block} {s s' : NodeState} {validators : List Validator}

/-- The call ends without an error. -/
def Succeeds (x : Op Unit) (s : NodeState) : Prop := (x.run s).1 = .ok ()

/-- A computation on the world does not see the pending blocks and the log. -/
theorem onWorld_related {x : World.Op α} (hx : Related R x x R) :
    Related (fun s t : NodeState => R s.world t.world) (onWorld x) (onWorld x)
      (fun s t => R s.world t.world) :=
  fun s t h => hx s.world t.world h

theorem record_related (event : NodeEvent) :
    Related (fun s t : NodeState => R s.world t.world) (record event) (record event)
      (fun s t => R s.world t.world) :=
  .update fun _ _ h => h

theorem onWorld_sameWorld {x : World.Op α} : Related SameWorld (onWorld x) (onWorld x) SameWorld := by
  intro s t h
  have hrun : x.run t.world = x.run s.world := congrArg x.run h
  exact ⟨(congrArg Prod.fst hrun).symm, congrArg Prod.snd hrun⟩

theorem rollover_related (header : BlockHeader) :
    Related SameWorld (n.rollover header) (n.rollover header) SameWorld := by
  unfold rollover
  dsimp only
  split
  · refine .bind_state fun s t h => ?_
    rw [show t.world = s.world from h]
    refine .bind_lift fun last => .mapError ?_ _
    refine .bind_state fun s t h => ?_
    rw [show t.world = s.world from h]
    refine .bind_lift fun config => .bind_lift fun selected => ?_
    refine onWorld_sameWorld.seq fun _ => ?_
    unfold selectBlockProposers
    dsimp only
    split
    · exact .fail _
    · refine .bind_state fun s t h => ?_
      exact (Related.update fun _ _ h => h).seq fun _ => onWorld_sameWorld
  · exact .pure ()

/-- Which of two vote results is stored makes no difference to what follows. -/
theorem finish_related (block : Block) (hvotes : voteResult.data.votes ≠ [])
    (hvotes' : voteResult'.data.votes ≠ []) :
    Related SameWorld (n.finish block voteResult) (n.finish block voteResult')
      (fun s t => s.world.SameButVoteResults t.world) := by
  have hsame : ∀ s t : NodeState, SameWorld s t → s.world.SameButVoteResults t.world := by
    intro s t h
    rw [show t.world = s.world from h]
    exact ⟨rfl, ⟨rfl, rfl, rfl, rfl, rfl⟩, rfl⟩
  have hstore : Related SameWorld (onChain (storeVoteResult voteResult))
      (onChain (storeVoteResult voteResult'))
      (fun s t => s.world.SameButVoteResults t.world) := by
    intro s t h
    obtain ⟨first, rest, hcons⟩ := exists_cons_of_ne_nil hvotes
    obtain ⟨first', rest', hcons'⟩ := exists_cons_of_ne_nil hvotes'
    unfold storeVoteResult
    rw [hcons, hcons']
    have hw := hsame s t h
    exact ⟨rfl, hw.state, ⟨hw.chain.blockHeader, hw.chain.blockHead, hw.chain.blockMetaInfo,
      hw.chain.validator, hw.chain.blockProposer⟩, hw.caches⟩
  have hblock : Related (fun s t : NodeState => s.world.SameButVoteResults t.world)
      (storeBlock block) (storeBlock block) (fun s t => s.world.SameButVoteResults t.world) :=
    (onWorld_related fun _ _ h => ⟨rfl, h.state, h.chain.storeBlock block, h.caches⟩).seq fun _ =>
      record_related _
  have hexecute : Related (fun s t : NodeState => s.world.SameButVoteResults t.world)
      (n.executeBlock block) (n.executeBlock block) (fun s t => s.world.SameButVoteResults t.world) :=
    (record_related _).seq fun _ =>
      (onWorld_related World.executeBlock_related).seq fun _ => record_related _
  exact (n.rollover_related block.blockHeader).bind
    (fun _ => hstore.bind (fun _ => hblock.seq fun _ => hexecute) fun _ _ h => h) hsame

theorem finish_succeeds (hworld : s'.world = s.world) (hvotes : voteResult.data.votes ≠ [])
    (hvotes' : voteResult'.data.votes ≠ []) (h : Succeeds (n.finish block voteResult) s) :
    Succeeds (n.finish block voteResult') s' := by
  have hrelated := (n.finish_related block hvotes hvotes' s s' hworld).1
  rw [Succeeds, ← hrelated]
  exact h

theorem castVote_run (header : BlockHeader) (entry : PendingBlock) (votes : Bool) (s : NodeState) :
    ∃ s', (n.castVote header entry votes).run s = (.ok (), s') ∧ s'.world = s.world := by
  unfold castVote
  split
  · exact ⟨_, rfl, rfl⟩
  · exact ⟨_, rfl, rfl⟩

theorem validateVoteResults_run (block : Block) (voteResults : List VoteResult) (s : NodeState) :
    ∃ s', (n.validateVoteResults block voteResults).run s =
      (forM voteResults fun voteResult =>
        n.validate.validateVoteResult s.world.db.chain voteResult block, s') ∧ s'.world = s.world := by
  induction voteResults generalizing s with
  | nil => exact ⟨s, rfl, rfl⟩
  | cons first voteResults ih =>
    obtain ⟨s', hrun, hworld⟩ := ih { s with log := s.log ++ [.accepted first block] }
    have hround : (do
        let s ← state
        lift (n.validate.validateVoteResult s.world.db.chain first block)
        record (.accepted first block) : Op Unit).run s =
          (lift (n.validate.validateVoteResult s.world.db.chain first block) >>= fun _ =>
            record (.accepted first block) : Op Unit).run s := run_bind_of_ok (run_state s)
    rw [forM_cons]
    rcases hfirst : n.validate.validateVoteResult s.world.db.chain first block with e | ⟨⟩
    · rw [hfirst] at hround
      refine ⟨s, ?_, rfl⟩
      rw [validateVoteResults, forEach, run_bind_of_error hround]
      rfl
    · rw [hfirst] at hround
      refine ⟨s', ?_, hworld⟩
      rw [validateVoteResults, forEach, run_bind_of_ok hround]
      exact hrun

theorem firstPassed_run {epoch : Epoch} :
    ∃ s', (firstPassed epoch validators voteResults).run s =
      (firstPassing s.world.caches validators voteResults, s') ∧ s'.world = s.world := by
  induction voteResults with
  | nil => exact ⟨s, rfl, rfl⟩
  | cons first voteResults ih =>
    rw [firstPassed, run_bind_of_ok (run_state s), firstPassing]
    rcases isVoteResultPassed s.world.caches first validators with e | _ | _
    · exact ⟨s, rfl, rfl⟩
    · exact ih
    · exact ⟨_, rfl, rfl⟩

variable {choice : RowChoice} {entry entry' : PendingBlock} {payload : BlockPayload} {vote : Vote}

/-- The vote result a pending block is finalised with, or why it is not: what the checks of
    `try_to_finalize` come to, without the log. -/
def decided (n : Node) (choice : RowChoice) (w : World) (entry : PendingBlock) (payload : BlockPayload) :
    Except Error VoteResult := do
  let (validators, _) ← n.checkProposal choice w payload
  forM entry.voteResults fun voteResult =>
    n.validate.validateVoteResult w.db.chain voteResult payload.block
  let passed ← firstPassing w.caches validators entry.voteResults
  passed.elim (.error "Noone vote result is passed") .ok

/-- The proposal holds, every vote result is accepted, and one is passed. -/
theorem decided_eq_ok {w : World} {passed : VoteResult} :
    n.decided choice w entry payload = .ok passed ↔
      ∃ validators votes, n.checkProposal choice w payload = .ok (validators, votes) ∧
        (∀ voteResult ∈ entry.voteResults,
          n.validate.validateVoteResult w.db.chain voteResult payload.block = .ok ()) ∧
        firstPassing w.caches validators entry.voteResults = .ok (some passed) := by
  constructor
  · intro h
    obtain ⟨⟨validators, votes⟩, hcheck, h⟩ := bind_eq_ok.mp h
    obtain ⟨_, hall, h⟩ := bind_eq_ok.mp h
    obtain ⟨found, hfirst, h⟩ := bind_eq_ok.mp h
    cases found with
    | none => cases h
    | some found =>
      cases h
      exact ⟨validators, votes, hcheck, forM_eq_ok.mp hall, hfirst⟩
  · rintro ⟨validators, votes, hcheck, hall, hfirst⟩
    refine bind_eq_ok.mpr ⟨_, hcheck, bind_eq_ok.mpr ⟨_, forM_eq_ok.mpr hall, ?_⟩⟩
    exact bind_eq_ok.mpr ⟨_, hfirst, rfl⟩

theorem run_passedVoteResult (s : NodeState) :
    ∃ s', s'.world = s.world ∧ (n.passedVoteResult choice entry payload).run s =
      (n.decided choice s.world entry payload, s') := by
  unfold passedVoteResult decided
  rw [run_bind_of_ok (run_state s)]
  rcases n.checkProposal choice s.world payload with e | ⟨validators, votes⟩
  · exact ⟨s, rfl, rfl⟩
  obtain ⟨s₁, hcast, hworld₁⟩ := n.castVote_run payload.block.blockHeader entry votes s
  obtain ⟨s₂, haccept, hworld₂⟩ := n.validateVoteResults_run payload.block entry.voteResults s₁
  obtain ⟨s₃, hpassed, hworld₃⟩ := firstPassed_run
  rw [hworld₁] at haccept hworld₂
  rw [hworld₂] at hpassed hworld₃
  rw [run_bind_of_ok (run_lift _ s)]
  rw [run_bind_of_ok hcast]
  generalize (forM entry.voteResults _ : Except Error Unit) = accepted at haccept ⊢
  rcases accepted with e | ⟨⟩
  · exact ⟨s₂, hworld₂, run_bind_of_error haccept⟩
  rw [run_bind_of_ok haccept]
  refine ⟨s₃, hworld₃, ?_⟩
  show _ = (firstPassing s.world.caches validators entry.voteResults >>= _, s₃)
  generalize firstPassing s.world.caches validators entry.voteResults = passed at hpassed ⊢
  rcases passed with e | passed
  · exact run_bind_of_error hpassed
  · exact run_bind_of_ok hpassed

/-- **What finalising a pending block does**: the rest follows if the checks pass. -/
theorem run_tryToFinalizeBlock (hblock : entry.block = some payload) (s : NodeState) :
    ∃ s', s'.world = s.world ∧ (n.tryToFinalizeBlock choice entry).run s =
      (lift (n.decided choice s.world entry payload) >>= n.finish payload.block).run s' := by
  obtain ⟨s', hworld, hrun⟩ := n.run_passedVoteResult s
  refine ⟨s', hworld, ?_⟩
  unfold tryToFinalizeBlock
  rw [hblock]
  show (n.passedVoteResult choice entry payload >>= n.finish payload.block).run s = _
  rw [run_bind, hrun, run_bind, run_lift]

theorem tryToFinalizeBlock_succeeds_iff (hblock : entry.block = some payload) :
    Succeeds (n.tryToFinalizeBlock choice entry) s ↔
      ∃ passed s', n.decided choice s.world entry payload = .ok passed ∧ s'.world = s.world ∧
        Succeeds (n.finish payload.block passed) s' := by
  obtain ⟨s₁, hworld₁, hrun⟩ := run_tryToFinalizeBlock hblock s
  rw [Succeeds, hrun]
  cases hdecided : n.decided choice s.world entry payload with
  | error e =>
    refine iff_of_false (fun h => by cases h) ?_
    rintro ⟨_, _, h, _⟩
    cases h
  | ok passed =>
    constructor
    · intro h
      exact ⟨passed, s₁, rfl, hworld₁, h⟩
    · rintro ⟨_, s', h, hworld, hfinish⟩
      cases h
      obtain ⟨_, _, _, _, hfirst⟩ := decided_eq_ok.mp hdecided
      have hvotes := votes_ne_nil_of_passed (firstPassing_some hfirst).2
      exact finish_succeeds (hworld₁.trans hworld.symm) hvotes hvotes hfinish

/-- The entry with further vote results, at any places of the list. -/
structure AddsVoteResults (entry entry' : PendingBlock) : Prop where
  block : entry'.block = entry.block
  votes : entry'.votes = entry.votes
  voteResults : entry.voteResults.Sublist entry'.voteResults

/-- **A block that can be finalised still can after vote results were added, exactly when
    `validate_vote_result` accepts all of them.** -/
theorem tryToFinalizeBlock_added_iff (hkeys : n.platform.rt.crypto.KeysAreLong)
    (hblock : entry.block = some payload) (hadds : AddsVoteResults entry entry')
    (hsucceeds : Succeeds (n.tryToFinalizeBlock choice entry) s) :
    Succeeds (n.tryToFinalizeBlock choice entry') s ↔
      ∀ voteResult ∈ entry'.voteResults,
        n.validate.validateVoteResult s.world.db.chain voteResult payload.block = .ok () := by
  rw [tryToFinalizeBlock_succeeds_iff (hadds.block.trans hblock)]
  obtain ⟨passed, s₁, hdecided, hworld, hfinish⟩ := (tryToFinalizeBlock_succeeds_iff hblock).mp hsucceeds
  obtain ⟨validators, votes, hcheck, -, hfirst⟩ := decided_eq_ok.mp hdecided
  obtain ⟨hmem, hpass⟩ := firstPassing_some hfirst
  constructor
  · rintro ⟨_, _, hdecided', _⟩
    obtain ⟨_, _, _, haccepted, _⟩ := decided_eq_ok.mp hdecided'
    exact haccepted
  · intro haccepted
    -- an accepted vote result has keys, so it can be counted
    have hcounted : ∀ other ∈ entry'.voteResults,
        ∃ b, isVoteResultPassed s.world.caches other validators = .ok b := by
      intro other hother
      obtain ⟨_, _, hcaches⟩ := bind_eq_ok.mp hpass
      obtain ⟨config, hconfig, hcaches⟩ := bind_eq_ok.mp hcaches
      obtain ⟨stakingInfo, hstaking, _⟩ := bind_eq_ok.mp hcaches
      have hunique : getUniqueVotes other.data.votes = .ok (uniqueVotes other.data.votes) := by
        refine if_pos (all_eq_true.mpr fun vote hvote => decide_eq_true ?_)
        obtain ⟨-, hvalid⟩ := (validateVoteResult_ok (haccepted other hother)).2 vote hvote
        obtain ⟨_, haddress, _⟩ := validateVote_ok hvalid
        exact Account.length_of_addressOf hkeys haddress
      rw [isVoteResultPassed, hunique]
      show ∃ b, isPassed s.world.caches _ validators _ = .ok b
      unfold isPassed
      rw [hconfig, hstaking]
      dsimp only [bind, bind]
      split
      · exact ⟨_, rfl⟩
      · exact ⟨_, rfl⟩
    obtain ⟨found, hfound⟩ := exists_firstPassing hcounted (hadds.voteResults.subset hmem) hpass
    refine ⟨found, s₁, decided_eq_ok.mpr ⟨validators, votes, hcheck, haccepted, hfound⟩, hworld, ?_⟩
    exact finish_succeeds rfl (votes_ne_nil_of_passed hpass)
      (votes_ne_nil_of_passed (firstPassing_some hfound).2) hfinish

/-! The last block of an epoch with the vote result of its only validator, and with another one. -/

theorem Small.keysAreLong : Small.crypto.KeysAreLong := by
  intro bytes key hkey
  simp only [Small.crypto] at hkey
  split at hkey
  · next hlength => omega
  · cases hkey

/-- The same vote result twice does no harm. -/
theorem tryToFinalizeBlock_repeated :
    let n := Small.node 1 validatorsOfEpoch
    let result := voteResultFor lastOfEpoch
    Succeeds (n.tryToFinalizeBlock .first ⟨[], [result], some lastOfEpoch⟩) (start beforeRollover) ∧
      Succeeds (n.tryToFinalizeBlock .first ⟨[], [result, result], some lastOfEpoch⟩)
        (start beforeRollover) := by
  intro n result
  have hsucceeds : Succeeds (n.tryToFinalizeBlock .first ⟨[], [result], some lastOfEpoch⟩)
      (start beforeRollover) := by
    unfold Succeeds
    decide +kernel
  have hadds : AddsVoteResults ⟨[], [result], some lastOfEpoch⟩
      ⟨[], [result, result], some lastOfEpoch⟩ := ⟨rfl, rfl, sublist_cons_self _ _⟩
  have hkeys : n.platform.rt.crypto.KeysAreLong := Small.keysAreLong
  refine ⟨hsucceeds, (tryToFinalizeBlock_added_iff hkeys rfl hadds hsucceeds).mpr ?_⟩
  have haccepted : n.validate.validateVoteResult beforeRollover.db.chain result lastOfEpoch.block =
      .ok () := by
    decide +kernel
  intro voteResult hmem
  rcases mem_cons.mp hmem with rfl | hmem
  · exact haccepted
  · rw [mem_singleton.mp hmem]
    exact haccepted

/-- A message that anyone can make, without a vote and without a signature, blocks the block. -/
theorem tryToFinalizeBlock_blocked :
    let n := Small.node 1 validatorsOfEpoch
    let result := voteResultFor lastOfEpoch
    Succeeds (n.tryToFinalizeBlock .first ⟨[], [result], some lastOfEpoch⟩) (start beforeRollover) ∧
      ¬ Succeeds (n.tryToFinalizeBlock .first ⟨[], [result, emptyVoteResult], some lastOfEpoch⟩)
        (start beforeRollover) := by
  unfold Succeeds
  decide +kernel

/-! ## What a proposer makes of the votes it is sent -/

/-- The signatures the node makes verify with its key. -/
def SignsWithItsKey (n : Node) : Prop :=
  ∀ message invalid, n.platform.rt.verify 33 (n.sign message) n.verifyingKey message invalid = .ok ()

theorem get_addVote (p : PendingBlocks) (vote : Vote) :
    (p.addVote vote).get vote.data.blockNumber =
      some (((p.get vote.data.blockNumber).getD .new).addVote vote) := by
  unfold PendingBlocks.addVote PendingBlocks.change PendingBlocks.get
  rw [AList.lookup_upsert, if_pos rfl]
  cases p.blocks.lookup vote.data.blockNumber <;> rfl

/-- What a generated vote result consists of: the subject of the first vote, and the first vote of every
    voter. -/
theorem tryToVoteResult_ok {number : BlockNumber} {address : Address}
    (hentry : s.pendingBlocks.get number = some entry)
    (h : n.tryToVoteResult s number address validators = .ok voteResult) :
    ∃ first rest, entry.votes = first :: rest ∧
      subjectOfVoteResult voteResult = subjectOfVote first ∧
      voteResult.data.votes = uniqueVotes entry.votes ∧ voteResult.verifyingKey = n.verifyingKey ∧
      voteResult.signature = n.sign (n.platform.rt.messages.voteResultSignPayload voteResult.data) := by
  unfold tryToVoteResult at h
  rw [hentry] at h
  dsimp only at h
  split at h
  · cases h
  · next first rest hvotes =>
      obtain ⟨made, hmade, h⟩ := bind_eq_ok.mp h
      cases made with
      | none => cases h
      | some made =>
        cases h
        refine ⟨first, rest, hvotes, ?_⟩
        obtain ⟨unique, hunique, hmade⟩ := bind_eq_ok.mp hmade
        have huniqueVotes : unique = uniqueVotes entry.votes := by
          unfold getUniqueVotes at hunique
          split at hunique
          · cases hunique; rfl
          · cases hunique
        subst huniqueVotes
        split at hmade
        · cases hmade
        split at hmade
        · cases hmade
        obtain ⟨passed, _, hmade⟩ := bind_eq_ok.mp hmade
        split at hmade
        · cases hmade
          exact ⟨rfl, rfl, rfl, rfl⟩
        · cases hmade

/-- A vote result that `receive_vote` added and broadcast, with the vote that made it and the state in
    which it came. -/
structure Broadcast where
  state : NodeState
  vote : Vote
  voteResult : VoteResult

/-- What the node broadcasts in a sequence of calls of `receive_vote`. -/
def broadcasts (n : Node) (s : NodeState) : List (RowChoice × Vote) → List Broadcast
  | [] => []
  | (choice, vote) :: calls =>
    let later := n.broadcasts ((n.receiveVote choice vote).run s).2 calls
    match ((n.collectVote choice vote).run s).1 with
    | .ok (some voteResult) => ⟨s, vote, voteResult⟩ :: later
    | _ => later

/-- The block that is pending for the number of the vote. -/
def Broadcast.About (b : Broadcast) (entry : PendingBlock) (payload : BlockPayload) : Prop :=
  b.state.pendingBlocks.get b.vote.data.blockNumber = some entry ∧ entry.block = some payload

/-- The vote result is accepted for the pending block and carries its hash. -/
def Usable (n : Node) (b : Broadcast) : Prop :=
  ∀ entry payload, b.About entry payload →
    n.validate.validateVoteResult b.state.world.db.chain b.voteResult payload.block = .ok () ∧
      b.voteResult.data.blockHash = payload.block.blockHeader.blockHash

/-- The first vote of every voter, the new vote included, is about the pending block and passes
    `validate_vote`. -/
def FirstVotesHold (n : Node) (b : Broadcast) : Prop :=
  ∀ entry payload, b.About entry payload → ∀ vote ∈ uniqueVotes (entry.votes ++ [b.vote]),
    subjectOfVote vote = subjectOfHeader payload.block.blockHeader ∧
      n.validate.validateVote b.state.world.db.chain vote payload.block = .ok ()

theorem mem_uniqueVotes_head {first : Vote} {rest : List Vote} : first ∈ uniqueVotes (first :: rest) := by
  rw [mem_uniqueVotes, find?_cons_of_pos]
  exact decide_eq_true rfl

theorem usable_iff (hkey : n.SignsWithItsKey)
    (h : ((n.collectVote choice b.vote).run b.state).1 = .ok (some b.voteResult)) :
    n.Usable b ↔ n.FirstVotesHold b := by
  refine forall_congr' fun entry => forall_congr' fun payload => forall_congr' fun habout => ?_
  obtain ⟨s', hcollect⟩ : ∃ s', (n.collectVote choice b.vote).run b.state = (.ok (some b.voteResult), s') :=
    ⟨_, Prod.ext h rfl⟩
  obtain ⟨_, _, hread, hcollect⟩ := run_bind_ok hcollect
  cases hread
  obtain ⟨address, _, haddress, hcollect⟩ := run_bind_ok hcollect
  obtain ⟨_, rfl⟩ := run_lift_ok haddress
  obtain ⟨isProposer, _, hproposer, hcollect⟩ := run_bind_ok hcollect
  obtain ⟨_, rfl⟩ := run_lift_ok hproposer
  split at hcollect
  · cases hcollect
  split at hcollect
  · cases hcollect
  obtain ⟨_, _, hadd, hcollect⟩ := run_bind_ok hcollect
  cases hadd
  obtain ⟨_, _, hread, hcollect⟩ := run_bind_ok hcollect
  cases hread
  obtain ⟨validators, _, hvalidators, hcollect⟩ := run_bind_ok hcollect
  obtain ⟨made, _, hmade, hcollect⟩ := run_bind_ok hcollect
  cases hcollect
  have hmade := (run_lift_ok hmade).1
  have hentry : (b.state.pendingBlocks.addVote b.vote).get b.vote.data.blockNumber =
      some (entry.addVote b.vote) := by
    rw [get_addVote, habout.1]
    rfl
  obtain ⟨first, rest, hvotes, hsubject, hunique, hverifying, hsignature⟩ := tryToVoteResult_ok hentry hmade
  have hsigned : n.validate.rt.verifyVoteResult b.voteResult = .ok () := by
    rw [Runtime.verifyVoteResult, hsignature, hverifying]
    exact hkey _ _
  have hall : (entry.addVote b.vote).votes = entry.votes ++ [b.vote] := rfl
  rw [validateVoteResult_eq_ok, hunique, hall]
  constructor
  · rintro ⟨⟨_, _, hvalid⟩, _⟩
    exact hvalid
  · intro hvalid
    -- the first vote of all is the first vote of its voter
    have hfirst := hvalid first (by rw [← hall, hvotes]; exact mem_uniqueVotes_head)
    have habout := hsubject.trans hfirst.1
    exact ⟨⟨habout, hsigned, hvalid⟩, congrArg (·.2.1) habout⟩

theorem mem_broadcasts {calls : List (RowChoice × Vote)} (h : b ∈ n.broadcasts s calls) :
    ∃ choice, ((n.collectVote choice b.vote).run b.state).1 = .ok (some b.voteResult) := by
  induction calls generalizing s with
  | nil => cases h
  | cons call calls ih =>
    obtain ⟨choice, vote⟩ := call
    unfold broadcasts at h
    split at h
    · next voteResult hmade =>
        rcases mem_cons.mp h with rfl | hlater
        · exact ⟨choice, hmade⟩
        · exact ih hlater
    · exact ih h

/-- **The proposer broadcasts usable vote results exactly when the votes it was sent are.** In every
    sequence of calls of `receive_vote`, what was broadcast is accepted for the pending block, if and only
    if at each of these calls the first votes were about that block and passed `validate_vote`. -/
theorem broadcasts_usable_iff (hkey : n.SignsWithItsKey) (s : NodeState) (calls : List (RowChoice × Vote)) :
    (∀ b ∈ n.broadcasts s calls, n.Usable b) ↔ ∀ b ∈ n.broadcasts s calls, n.FirstVotesHold b := by
  refine forall₂_congr fun b hb => ?_
  obtain ⟨choice, hmade⟩ := mem_broadcasts hb
  exact usable_iff hkey hmade

/-! The node 1 is the proposer and the only validator of epoch 0, and has just proposed block 99. -/

def proposing : NodeState :=
  (Small.node 1 fun _ => []).step (start (Small.atHead 98 [(1, 0)] [⟨0, 0, 1⟩]))
    (.first, .addAndBroadcastBlock (Small.proposal 1 99 0 0))

theorem Small.signsWithItsKey {a : UInt8} {selected : Epoch → List Validator} :
    (Small.node a selected).SignsWithItsKey := by
  intro message invalid
  have hlength : (Small.sign (Small.key a) message).length = 64 := by
    simp [Small.sign, Small.key, toBytes]
  show Small.runtime.verify 33 (Small.sign (Small.key a) message) (Small.key a) message invalid = .ok ()
  have hkey : (Small.key a).length = 33 := rfl
  simp [Runtime.verify, Small.runtime, Small.codec, Small.crypto, hlength, hkey]

/-- The vote of another node for the proposed block. -/
theorem broadcasts_usable_ofVote :
    let n := Small.node 1 fun _ => []
    let vote := (Small.node 2 fun _ => []).voteFor (Small.proposal 1 99 0 0).block.blockHeader
    (n.broadcasts proposing [(.first, vote)]).length = 1 ∧
      ∀ b ∈ n.broadcasts proposing [(.first, vote)], n.Usable b := by
  intro n vote
  refine ⟨by decide +kernel, (broadcasts_usable_iff Small.signsWithItsKey _ _).mpr ?_⟩
  have hvotes : (n.broadcasts proposing [(.first, vote)]).all (fun b =>
      (b.state.pendingBlocks.get b.vote.data.blockNumber).all fun entry =>
        entry.block.all fun payload => (uniqueVotes (entry.votes ++ [b.vote])).all fun v =>
          subjectOfVote v = subjectOfHeader payload.block.blockHeader ∧
            n.validate.validateVote b.state.world.db.chain v payload.block = .ok ()) = true := by
    decide +kernel
  rintro b hb entry payload ⟨hentry, hblock⟩ v hv
  have hb := all_eq_true.mp hvotes b hb
  rw [hentry, Option.all_some, hblock, Option.all_some] at hb
  exact of_decide_eq_true (all_eq_true.mp hb v hv)

/-- A vote that names another block, from nobody in particular. -/
def strayVote : Vote :=
  { data := { blockNumber := 99, epoch := 0, blockHash := 7, clusterAddress := 0, vote := true }
    validatorAddress := 2, signature := [], verifyingKey := Small.key 2 }

/-- With it in the list, what the proposer broadcasts is of no use. -/
theorem broadcasts_strayVote :
    let n := Small.node 1 fun _ => []
    (n.broadcasts proposing [(.first, strayVote)]).length = 1 ∧
      ∀ b ∈ n.broadcasts proposing [(.first, strayVote)], ¬ n.Usable b := by
  intro n
  have hrejected : (n.broadcasts proposing [(.first, strayVote)]).all (fun b =>
      (b.state.pendingBlocks.get b.vote.data.blockNumber).any fun entry =>
        entry.block.any fun payload => n.validate.validateVoteResult b.state.world.db.chain
          b.voteResult payload.block ≠ .ok ()) = true := by
    decide +kernel
  refine ⟨by decide +kernel, fun b hb husable => ?_⟩
  have hb := all_eq_true.mp hrejected b hb
  obtain ⟨entry, hentry, hb⟩ := (Option.any_eq_true _ _).mp hb
  obtain ⟨payload, hblock, hb⟩ := (Option.any_eq_true _ _).mp hb
  exact of_decide_eq_true hb (husable entry payload ⟨hentry, hblock⟩).1

end Node

end L1xCore
