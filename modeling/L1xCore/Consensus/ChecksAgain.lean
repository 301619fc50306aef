import L1xCore.Consensus.Successors
import L1xCore.Validate.Rewards

/-!
# `Consensus.ChecksAgain` — the checks of a proposal in a database that has changed

The checks before the vote look at three things: whether the block is on the head of the chain, whether it
pays the voters for the head, and the rest, which is who may propose and vote in its epoch. A block that was
accepted once is accepted again, with the state and the rest as they were, exactly when it is on the head and
the same voters are to be rewarded (`checkProposal_again_iff`).
-/

namespace L1xCore

open ChainTables Validate Except

namespace Validate

/-- The block is the head of the chain, or what is expected after it. -/
def OnHead (t : ChainTables) (cluster : Address) (block : Block) : Prop :=
  ∃ last, t.blockHeadHeader cluster = .ok last ∧
    (last = block.blockHeader ∨ validateExpectedBlockFields last block = .ok ())

/-- The block pays the rewards of these nodes and of nobody else, and is valid otherwise. -/
def PaysExactly (v : Validate) (w : World) (payload : BlockPayload) (eligible : Finset Address) : Prop :=
  ∃ config stakingInfo paid, w.caches.getConfig = .ok config ∧ w.caches.getStakingInfo = .ok stakingInfo ∧
    payload.block.blockHeader.blockHash = v.rt.messages.blockHash payload.block ∧
    v.OthersValid w payload.block.transactions ∧
    List.Forall₂ (Pays config stakingInfo) (v.rewardsOf payload.block.transactions) paid ∧ paid.Nodup ∧
    paid.toFinset = eligible

variable {v : Validate} {w w' : World} {payload : BlockPayload} {cluster : Address}
  {eligible eligible' : Finset Address}

theorem PaysExactly.unique (h : v.PaysExactly w payload eligible) (h' : v.PaysExactly w payload eligible') :
    eligible = eligible' := by
  obtain ⟨config, stakingInfo, paid, hconfig, hstaking, -, -, hpaid, -, rfl⟩ := h
  obtain ⟨config', stakingInfo', paid', hconfig', hstaking', -, -, hpaid', -, rfl⟩ := h'
  cases hconfig.symm.trans hconfig'
  cases hstaking.symm.trans hstaking'
  rw [List.right_unique_forall₂' Pays.rightUnique hpaid hpaid']

theorem PaysExactly.congr (hstate : w'.db.state = w.db.state) (hcaches : w'.caches = w.caches)
    (h : v.PaysExactly w payload eligible) : v.PaysExactly w' payload eligible := by
  unfold PaysExactly OthersValid at h ⊢
  rw [hstate, hcaches]
  exact h

/-- **What is checked with a set of voters.** -/
theorem validateBlockHeaderAndTransactions_some_iff :
    v.validateBlockHeaderAndTransactions w payload cluster (some eligible) = .ok () ↔
      OnHead w.db.chain cluster payload.block ∧ v.PaysExactly w payload eligible := by
  constructor
  · intro h
    obtain ⟨hchecked⟩ := headerAndTransactionsChecked h
    obtain ⟨hothers, paid, hpaid, hnodup, hset⟩ := validateBlockTxs_paid_iff.mp hchecked.paid
    exact ⟨⟨hchecked.last, hchecked.head, hchecked.header⟩, hchecked.config, hchecked.stakingInfo, paid,
      hchecked.configCached, hchecked.stakingInfoCached, hchecked.hash, hothers, hpaid, hnodup, hset⟩
  · rintro ⟨⟨last, hlast, hheader⟩, config, stakingInfo, paid, hconfig, hstaking, hhash, hothers, hpaid,
      hnodup, rfl⟩
    have htransactions : v.validateBlockTxs w config stakingInfo last payload.block.transactions
        (some paid.toFinset) = .ok (some ∅) :=
      validateBlockTxs_paid_iff.mpr ⟨hothers, paid, hpaid, hnodup, rfl⟩
    have hchecked : HeaderAndTransactionsChecked v w payload cluster (some paid.toFinset) :=
      ⟨last, config, stakingInfo, some ∅, hlast, hconfig, hstaking, hheader, hhash, htransactions, by
        rintro validators heq
        exact (Option.some.inj heq).symm⟩
    exact hchecked.accepted

end Validate

namespace Node

variable {n : Node} {choice : RowChoice} {w w' : World} {payload : BlockPayload}
  {validators : List Validator} {votes : Bool}

/-- The voters for the head of the chain that a block has to pay. -/
def rewarded (n : Node) (w : World) : Except Error (Finset Address) := do
  let config ← w.caches.getConfig
  let voters ← n.getLastBlockVotesValidators w config
  getEligibleValidatorsForReward w voters

/-- The rest of the checks: the block is one of the proposer of its epoch, and the epoch has validators. -/
structure Authorized (n : Node) (choice : RowChoice) (w : World) (payload : BlockPayload)
    (validators : List Validator) (votes : Bool) : Prop where
  height : ∃ config, w.caches.getConfig = .ok config ∧
    checkMaxBlockHeight config payload.block.blockHeader.blockNumber = .ok ()
  type : payload.block.isSystemBlock = false
  proposer : ∃ address, Account.addressOf n.platform.rt.crypto payload.verifyingKey = .ok address ∧
    w.db.chain.isBlockProposer choice
      ⟨payload.block.blockHeader.clusterAddress, payload.block.blockHeader.epoch, address⟩ = .ok true
  signature : n.validate.verifyBlockSignature payload = .ok ()
  validators : w.db.chain.loadAllValidators payload.block.blockHeader.epoch = some validators
  votes : ∃ address isBlockProposer, Account.addressOf n.platform.rt.crypto n.verifyingKey = .ok address ∧
    w.db.chain.isBlockProposer choice
      ⟨payload.block.blockHeader.clusterAddress, payload.block.blockHeader.epoch, address⟩ =
        .ok isBlockProposer ∧
    votes = (w.db.chain.isValidator n.nodeAddress payload.block.blockHeader.epoch && !isBlockProposer)

/-- **The checks of a proposal, in three parts.** -/
theorem checkProposal_eq_ok :
    n.checkProposal choice w payload = .ok (validators, votes) ↔
      n.Authorized choice w payload validators votes ∧
        OnHead w.db.chain n.clusterAddress payload.block ∧
        ∃ eligible, n.rewarded w = .ok eligible ∧ n.validate.PaysExactly w payload eligible := by
  constructor
  · intro h
    obtain ⟨config, voters, own, isBlockProposer, hconfig, hheight, hvoters, hproposed, hvalidators, hown,
      hisBlockProposer, hvotes⟩ := proposalChecked h
    obtain ⟨address, haddress, hproposed⟩ := bind_eq_ok.mp hproposed
    obtain ⟨htype, hproposed⟩ := check_eq_ok.mp hproposed
    obtain ⟨isProposer, hproposer, hproposed⟩ := bind_eq_ok.mp hproposed
    obtain ⟨htrue, hproposed⟩ := check_eq_ok.mp hproposed
    obtain ⟨hsignature, hproposed⟩ := check_eq_ok.mp hproposed
    obtain ⟨eligible, heligible, hheader⟩ := bind_eq_ok.mp hproposed
    obtain ⟨hhead, hpays⟩ := validateBlockHeaderAndTransactions_some_iff.mp hheader
    rw [show isProposer = true from ensure_eq_ok.mp htrue] at hproposer
    refine ⟨⟨⟨config, hconfig, hheight⟩, ?_, ⟨address, haddress, hproposer⟩, hsignature, hvalidators,
      own, isBlockProposer, hown, hisBlockProposer, hvotes⟩, hhead, eligible, ?_, hpays⟩
    · simpa using ensure_eq_ok.mp htype
    · rw [rewarded, hconfig, ok_bind, hvoters, ok_bind, heligible]
  · rintro ⟨hauthorized, hhead, eligible, hrewarded, hpays⟩
    obtain ⟨config, hconfig, hheight⟩ := hauthorized.height
    obtain ⟨address, haddress, hproposer⟩ := hauthorized.proposer
    obtain ⟨own, isBlockProposer, hown, hisBlockProposer, hvotes⟩ := hauthorized.votes
    rw [rewarded, hconfig, ok_bind] at hrewarded
    obtain ⟨voters, hvoters, heligible⟩ := bind_eq_ok.mp hrewarded
    have hproposed : n.validate.validateProposedBlock choice w payload n.clusterAddress voters = .ok () := by
      refine bind_eq_ok.mpr ⟨address, haddress, check_eq_ok.mpr ⟨?_, ?_⟩⟩
      · rw [ensure_eq_ok, hauthorized.type]
        rfl
      refine bind_eq_ok.mpr ⟨true, hproposer, check_eq_ok.mpr ⟨rfl, ?_⟩⟩
      refine check_eq_ok.mpr ⟨hauthorized.signature, ?_⟩
      exact bind_eq_ok.mpr ⟨eligible, heligible,
        validateBlockHeaderAndTransactions_some_iff.mpr ⟨hhead, hpays⟩⟩
    exact ProposalChecked.accepted ⟨config, voters, own, isBlockProposer, hconfig, hheight, hvoters, hproposed,
      hauthorized.validators, hown, hisBlockProposer, hvotes⟩

/-- State and caches are the same, and so are the validators and the proposers of an epoch. -/
structure SameElectors (cluster : Address) (epoch : Epoch) (w w' : World) : Prop where
  state : w'.db.state = w.db.state
  caches : w'.caches = w.caches
  validators : w'.db.chain.loadAllValidators epoch = w.db.chain.loadAllValidators epoch
  isValidator : ∀ address, w'.db.chain.isValidator address epoch = w.db.chain.isValidator address epoch
  proposers : w'.db.chain.proposersOf cluster epoch = w.db.chain.proposersOf cluster epoch

instance {cluster : Address} {epoch : Epoch} : IsTrans World (SameElectors cluster epoch) :=
  ⟨fun _ _ _ h₁ h₂ => ⟨h₂.state.trans h₁.state, h₂.caches.trans h₁.caches, h₂.validators.trans h₁.validators,
    fun address => (h₂.isValidator address).trans (h₁.isValidator address), h₂.proposers.trans h₁.proposers⟩⟩

theorem SameElectors.isBlockProposer {cluster : Address} {epoch : Epoch}
    (h : SameElectors cluster epoch w w') (choice : RowChoice) (address : Address) :
    w'.db.chain.isBlockProposer choice ⟨cluster, epoch, address⟩ =
      w.db.chain.isBlockProposer choice ⟨cluster, epoch, address⟩ := by
  unfold ChainTables.isBlockProposer
  rw [loadBlockProposer_congr h.proposers]

/-- The block is on the head of the changed chain, and the same voters are to be paid. -/
structure StillAccepted (n : Node) (block : Block) (w w' : World) : Prop where
  head : OnHead w'.db.chain n.clusterAddress block
  rewarded : n.rewarded w' = n.rewarded w

variable (hsame : SameElectors payload.block.blockHeader.clusterAddress payload.block.blockHeader.epoch w w')

include hsame

theorem Authorized.congr (h : n.Authorized choice w payload validators votes) :
    n.Authorized choice w' payload validators votes := by
  obtain ⟨hheight, htype, ⟨address, haddress, hproposer⟩, hsignature, hvalidators,
    own, isBlockProposer, hown, hisBlockProposer, hvotes⟩ := h
  refine ⟨?_, htype, ⟨address, haddress, ?_⟩, hsignature, ?_, own, isBlockProposer, hown, ?_, ?_⟩
  · rw [hsame.caches]
    exact hheight
  · rw [hsame.isBlockProposer]
    exact hproposer
  · rw [hsame.validators]
    exact hvalidators
  · rw [hsame.isBlockProposer]
    exact hisBlockProposer
  · rw [hsame.isValidator]
    exact hvotes

variable (h : n.checkProposal choice w payload = .ok (validators, votes))

include h

/-- **The checks come out as before exactly when the block is still accepted.** -/
theorem checkProposal_again_iff :
    n.checkProposal choice w' payload = .ok (validators, votes) ↔ n.StillAccepted payload.block w w' := by
  obtain ⟨hauthorized, -, eligible, hrewarded, hpays⟩ := checkProposal_eq_ok.mp h
  have hpays' := hpays.congr hsame.state hsame.caches
  rw [checkProposal_eq_ok]
  constructor
  · rintro ⟨-, hhead, eligible', hrewarded', hpays''⟩
    refine ⟨hhead, ?_⟩
    rw [hrewarded', hrewarded, hpays''.unique hpays']
  · rintro ⟨hhead, hrewards⟩
    exact ⟨hauthorized.congr hsame, hhead, eligible, hrewards.trans hrewarded, hpays'⟩

/-- Whatever the checks return on the changed chain, it is what they returned before. -/
theorem checkProposal_again_eq {validators' : List Validator}
    {votes' : Bool} (h' : n.checkProposal choice w' payload = .ok (validators', votes')) :
    validators' = validators ∧ votes' = votes := by
  obtain ⟨hauthorized, -⟩ := checkProposal_eq_ok.mp h
  obtain ⟨hauthorized', -⟩ := checkProposal_eq_ok.mp h'
  have hcongr := hauthorized.congr hsame
  constructor
  · have hvalidators := hauthorized'.validators.symm.trans hcongr.validators
    exact Option.some.inj hvalidators
  · obtain ⟨own, isBlockProposer, hown, hisBlockProposer, hvotes⟩ := hcongr.votes
    obtain ⟨own', isBlockProposer', hown', hisBlockProposer', hvotes'⟩ := hauthorized'.votes
    cases hown.symm.trans hown'
    cases hisBlockProposer.symm.trans hisBlockProposer'
    exact hvotes'.trans hvotes.symm

end Node

namespace Validate

variable {v : Validate} {t t' : ChainTables} {voteResult : VoteResult} {block : Block}

theorem validateVoteResult_congr (h : t'.validator = t.validator) :
    v.validateVoteResult t' voteResult block = v.validateVoteResult t voteResult block := by
  have hvote : ∀ vote, v.validateVote t' vote block = v.validateVote t vote block := by
    intro vote
    unfold validateVote isValidator
    rw [h]
  have hvotes : ∀ votes, v.validateVotes t' voteResult block votes =
      v.validateVotes t voteResult block votes := by
    intro votes
    induction votes with
    | nil => rfl
    | cons vote votes ih => rw [validateVotes, validateVotes, hvote, ih]
  unfold validateVoteResult
  rw [hvotes]

end Validate

end L1xCore
