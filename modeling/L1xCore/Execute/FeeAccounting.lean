import L1xCore.Execute.Drained
import L1xCore.Execute.Supply
import L1xCore.State.Rules

/-!
# `Execute.FeeAccounting` — from the lock of a fee to its record

After the fee limit of a transaction was locked, a round of `execute_block_inner` has to give the unused part
back to the sender and to write one metadata record. The refund comes first, and when it fails the round ends
without a record.

A failed transaction has left the fee recipient what it got, so its round always closes. A transaction that
passed may have taken it away. `feeCloses_iff` says that this is the only way not to close.
-/

namespace L1xCore

open Fallible UpdatedState Store Option

variable {tx : Transaction} {sender : Address} {locked s' : UpdatedState} {unused : Balance}
  {hash : TransactionHash} {result : TransactionResult} {st : Store}

/-! ## Nobody but the loop writes metadata -/

namespace UpdatedState

variable {db : StateTables} {s : UpdatedState}

/-- No metadata record is written. -/
def Unrecorded (s s' : UpdatedState) : Prop := s'.transactionMetadatas = s.transactionMetadatas

instance : Std.Refl Unrecorded := ⟨fun _ => rfl⟩

instance : IsTrans UpdatedState Unrecorded := ⟨fun _ _ _ h₁ h₂ => Eq.trans h₂ h₁⟩

theorem Unrecorded.view (h : Unrecorded s s') : (s'.view db).metadatas = (s.view db).metadatas :=
  congrArg (List.filterMap CachedStatus.getInner) h

theorem unrecorded_rule : TokenRule db Unrecorded :=
  ⟨fun h => h.metadatas, fun _ h => h.metadatas⟩

end UpdatedState

/-- The engines write no metadata: in the whole source only the loop over the transactions of a block calls
    `store_transaction_metadata`. -/
def ContractExecutor.KeepsRecords (executor : ContractExecutor) (crypto : Crypto) (db : StateTables) : Prop :=
  ∀ request s, Unrecorded s
    (runOps crypto db (executor.operations db s request) s)

namespace TransactionContext

variable {cx : TransactionContext} {tx : Transaction} {s : UpdatedState}

/-- The plain work of every kind is work on the overlay that writes no metadata. -/
theorem plainKind_unrecorded {nonce : Nonce} {e e' : Execution} {executed : Executed}
    (hnone : ∃ hash e₀, (cx.prepareKind tx hash nonce).run e₀ = (.ok none, e))
    (h : (cx.plainKind tx nonce).run e = (.ok executed, e')) : Unrecorded e.updatedState e'.updatedState := by
  have hwork : ∀ {α : Type} {fee : Balance} {text : Error → Error} {x : StateOp α}
      {event : α → Option ExecutionEvent}, Moves Unrecorded x →
      (plainWork fee text x event).run e = (.ok executed, e') →
      Unrecorded e.updatedState e'.updatedState := by
    intro α fee text x event hx hrun
    obtain ⟨-, a, hx'⟩ := plainWork_ok hrun
    exact hx.of_run hx'
  obtain ⟨hash, e₀, hprepare⟩ := hnone
  unfold plainKind executeKind at h
  cases htype : tx.transactionType with
  | nativeTokenTransfer | smartContractFunctionCall =>
    rw [htype] at h
    refine hwork ?_ h
    unfold executeNativeTokenTransfer
    split
    · exact unrecorded_rule.keyed.mint _ _
    · exact unrecorded_rule.keyed.transfer _ _ _
  | createStakingPool contractInstanceAddress minStake maxStake minPoolBalance maxPoolBalance period =>
    rw [htype] at h
    exact hwork (unrecorded_rule.keyed.createPool _ _ _ _ _ _ _ _ _ _ _) h
  | stake poolAddress amount =>
    rw [htype] at h
    exact hwork (unrecorded_rule.keyed.stake _ _ _ _) h
  | unStake poolAddress amount =>
    rw [htype] at h
    exact hwork (unrecorded_rule.keyed.unStake _ _ _ _) h
  | stakingPoolContract poolAddress contractInstanceAddress =>
    rw [htype] at h
    exact hwork (unrecorded_rule.keyed.poolRule.updateContract _ _ _) h
  | smartContractDeployment | smartContractInit =>
    exact absurd hprepare (prepareKind_ne_none (by rw [creates, htype]))

theorem passes_unrecorded (hrecords : cx.executor.KeepsRecords cx.rt.crypto cx.db) {fee : Nat}
    (h : cx.Passes tx s fee s') : Unrecorded s s' := by
  rcases passes_cases h with ⟨request, e, burntGas, hrequest, rfl⟩ |
    ⟨size, hash, nonce, e, event, e', hplain⟩
  · have hreads : Unrecorded s e.updatedState := (requestOf_reads hrequest.asked).metadatas
    exact trans_of Unrecorded hreads (hrecords request e.updatedState)
  · obtain ⟨e₀, -, hprepare⟩ := hplain.none
    have hwork := plainKind_unrecorded ⟨hash, e₀, hprepare⟩ hplain.work
    rw [hplain.state] at hwork
    exact trans_of Unrecorded hplain.reads.metadatas hwork

end TransactionContext

/-! ## The end of a round -/

/-- The round of a transaction is closed: one record of a fee within the limit, and the unused part moved
    from the fee recipient to the sender and nothing else. `v` is the state with the fee locked, `effect` what
    the transaction made of it, `v'` the state after the round. -/
structure RoundClosed (sender : Address) (tx : Transaction) (hash : TransactionHash)
    (result : TransactionResult) (v effect v' : StateView) : Prop where
  record : v'.metadatas = v.metadatas ++ [Platform.metadataOf hash result]
  limited : result.fee.toNat ≤ tx.feeLimit.toNat
  refund : ∀ a, v'.balanceAt a +
      (if a = FEE_RECIPIENT_MASTER_ADDRESS then tx.feeLimit.toNat - result.fee.toNat else 0) =
    effect.balanceAt a + if a = sender then tx.feeLimit.toNat - result.fee.toNat else 0

namespace Platform

variable (pf : Platform) {db : StateTables} (header : BlockHeader) {s : UpdatedState}

/-- **Fee accounting closes** in a round on the overlay `s` of the block. -/
def FeeCloses (db : StateTables) (tx : Transaction) (s : UpdatedState) : Prop :=
  ∀ sender hash locked, Account.addressOf pf.rt.crypto tx.verifyingKey = .ok sender →
    tx.transactionHash pf.rt.crypto pf.rt.codec = .ok hash →
    (lockFee db sender tx).run s = (.ok (), locked) →
    match executeTransaction (pf.transactionContext db header sender) tx locked with
    | (.ok result, s') => RoundClosed sender tx hash result (locked.view db) (s'.view db)
        ((pf.processTransaction db header tx s).2.view db)
    | (.error result, _) => RoundClosed sender tx hash result (locked.view db) (locked.view db)
        ((pf.processTransaction db header tx s).2.view db)

/-- With the fee locked, the fee recipient is there and has the limit, and the sender is there. -/
theorem covered_of_lockFee (hs : s.WellKeyed) (hlock : (lockFee db sender tx).run s = (.ok (), locked)) :
    ((locked.view db).account FEE_RECIPIENT_MASTER_ADDRESS).isSome ∧
      tx.feeLimit.toNat ≤ (locked.view db).balanceAt FEE_RECIPIENT_MASTER_ADDRESS ∧
      (∃ account, (locked.view db).account sender = some account) ∧
      (locked.view db).supply = (s.view db).supply := by
  obtain ⟨st₁, st₂, hnonce, htransfer, hlocked⟩ := view_lockFee hlock
  have hf : (s.view db).AccountsFiled := accountsFiled_view hs
  have hf₁ := accountsFiled_incrementNonce hf hnonce
  have hmoved := moved_of_transfer hf₁ htransfer
  have hbalance := hmoved.balance FEE_RECIPIENT_MASTER_ADDRESS
  have henough := le_balanceAt_of_transfer htransfer
  obtain ⟨account, hacc⟩ : ∃ account, st₁.account sender = some account := by
    obtain ⟨account, hacc, -⟩ := bind_eq_some_iff.mp htransfer
    exact ⟨account, hacc⟩
  obtain ⟨balance, hkept⟩ := hmoved.kept sender account hacc
  obtain ⟨payee, credited, -, hpayee⟩ := hmoved.payee
  rw [hlocked]
  refine ⟨?_, ?_, ⟨_, hkept⟩, ?_⟩
  · show (st₂.account FEE_RECIPIENT_MASTER_ADDRESS).isSome
    rw [hpayee]
    rfl
  · show tx.feeLimit.toNat ≤ st₂.balanceAt FEE_RECIPIENT_MASTER_ADDRESS
    rw [if_pos rfl] at hbalance
    by_cases hself : FEE_RECIPIENT_MASTER_ADDRESS = sender
    · rw [← hself] at henough
      rw [if_pos hself] at hbalance
      omega
    · rw [if_neg hself] at hbalance
      omega
  · exact (supply_transfer hf₁ htransfer).trans (supply_incrementNonce hf hnonce)

theorem isSome_account_of_evolves {a : Address} (hs' : s'.WellKeyed) (h : s.Evolves s')
    (hacc : ((s.view db).account a).isSome) : ((s'.view db).account a).isSome := by
  cases he : s'.entry (.account a) with
  | some c =>
    obtain ⟨account, hfound, -⟩ := hs' (.account a) c he
    have hread : (s'.view db).account a = c.getInner := congrArg (overlaid · _) he
    rw [hread, hfound]
    rfl
  | none =>
    have hbefore := h.grows (.account a) he
    have hread : (s.view db).account a = db.store.account a := congrArg (overlaid · _) hbefore
    have hread' : (s'.view db).account a = db.store.account a := congrArg (overlaid · _) he
    rw [hread', ← hread]
    exact hacc

theorem roundClosed_of_refund {v effect v' : StateView} (hf : effect.AccountsFiled)
    (hunused : unused.toNat + result.fee.toNat = tx.feeLimit.toNat)
    (hrefund : effect.transfer FEE_RECIPIENT_MASTER_ADDRESS sender unused = some st)
    (hrecords : effect.metadatas = v.metadatas) (hafter : v' = { effect.onStore fun _ => st with
      metadatas := effect.metadatas ++ [metadataOf hash result] }) :
    RoundClosed sender tx hash result v effect v' := by
  subst hafter
  have hleft : tx.feeLimit.toNat - result.fee.toNat = unused.toNat := by omega
  refine ⟨?_, by omega, ?_⟩
  · rw [← hrecords]
  · intro a
    rw [hleft]
    exact (moved_of_transfer hf hrefund).balance a

/-- **The round of a transaction that failed** closes. -/
theorem roundClosed_failed (hs : s.WellKeyed) (hfits : (s.view db).supply < 2 ^ 128)
    (hlock : (lockFee db sender tx).run s = (.ok (), locked))
    (hexec : executeTransaction (pf.transactionContext db header sender) tx locked = (.error result, s')) :
    RoundClosed sender tx hash result (locked.view db) (locked.view db)
      ((settleFailed db sender tx hash result (s.merge locked)).view db) := by
  have hevolves : s.Evolves locked := (lockFee_evolves sender tx).of_run hlock
  obtain ⟨hthere, hcover, -, hsupply⟩ := covered_of_lockFee hs hlock
  obtain ⟨payer, hpayer⟩ := isSome_iff_exists.mp hthere
  have hf : (locked.view db).AccountsFiled := accountsFiled_view (hevolves.wellKeyed hs)
  obtain ⟨unused, hunused⟩ := exists_unused hexec
  have hunused : unused.toNat + result.fee.toNat = tx.feeLimit.toNat := hunused
  obtain ⟨st, hst⟩ := isSome_iff_exists.mp ((transfer_isSome_iff hf
    (hsupply.trans_lt hfits) hpayer sender unused).mpr (by omega))
  have hmerged : view db (s.merge locked) = view db locked := view_merge hevolves
  refine roundClosed_of_refund hf hunused hst rfl ?_
  rw [view_settleFailed hunused (by rw [hmerged]; exact hst), hmerged]

/-- **The round of a transaction that passed** closes exactly when the fee recipient can pay. -/
theorem roundClosed_passed_iff (hs : s.WellKeyed) (hfits : (s'.view db).supply < 2 ^ 128)
    (hlock : (lockFee db sender tx).run s = (.ok (), locked))
    (hexec : executeTransaction (pf.transactionContext db header sender) tx locked = (.ok result, s'))
    (hrecords : Unrecorded locked s') :
    RoundClosed sender tx hash result (locked.view db) (s'.view db)
        ((settlePassed db sender tx hash result (s.merge locked) s').view db) ↔
      tx.feeLimit.toNat - result.fee.toNat ≤ (s'.view db).balanceAt FEE_RECIPIENT_MASTER_ADDRESS := by
  have hevolves : s.Evolves locked := (lockFee_evolves sender tx).of_run hlock
  have hclone : (s.merge locked).Evolves s' := evolves_of_executed hevolves hexec
  have hevolved : locked.Evolves s' := executeTransaction_evolves hexec
  have hs' : s'.WellKeyed := hevolved.wellKeyed (hevolves.wellKeyed hs)
  have hf : (s'.view db).AccountsFiled := accountsFiled_view hs'
  obtain ⟨payer, hpayer⟩ := isSome_iff_exists.mp
    (isSome_account_of_evolves hs' hevolved (covered_of_lockFee hs hlock).1)
  obtain ⟨unused, hunused⟩ := exists_unused hexec
  have hunused : unused.toNat + result.fee.toNat = tx.feeLimit.toNat := hunused
  have hleft : tx.feeLimit.toNat - result.fee.toNat = unused.toNat := by omega
  rw [hleft, ← transfer_isSome_iff hf hfits hpayer sender unused]
  constructor
  · intro hclosed
    by_contra hnone
    -- without the refund there is no record either
    have hunpaid : (settlePassed db sender tx hash result (s.merge locked) s').view db = s'.view db := by
      obtain ⟨e, c', hrun, -⟩ := transfer_transacts.undefined (not_isSome_iff_eq_none.mp hnone)
      unfold settlePassed
      rw [run_refundFee hunused, hrun]
      exact view_merge hclone
    have hrecord := hclosed.record
    rw [hunpaid, hrecords.view] at hrecord
    have hlength := congrArg List.length hrecord
    rw [List.length_append, List.length_singleton] at hlength
    omega
  · intro hsome
    obtain ⟨st, hst⟩ := isSome_iff_exists.mp hsome
    refine roundClosed_of_refund hf hunused hst hrecords.view ?_
    obtain ⟨c', hrun, hv⟩ := transfer_transacts.defined hst
    have hrefund : s'.Evolves c' := (tokens_evolve.transfer _ _ _).of_run hrun
    have hwrites : Writes db (storeTransactionMetadata (metadataOf hash result)) _ :=
      storeTransactionMetadata_writes
    obtain ⟨s₂, hrun₂, hv₂⟩ := hwrites (((s.merge locked).merge s').merge c')
    have hmerged : view db (((s.merge locked).merge s').merge c') = view db c' :=
      view_merge (trans_of Evolves (evolves_of_merge hclone) hrefund)
    unfold settlePassed
    rw [run_refundFee hunused, hrun]
    dsimp only
    rw [hrun₂, hv₂, hmerged, hv]
    rfl

/-- **When fee accounting closes.** In a round of any block, with all balances together below `2 ^ 128` before
    and after the transaction: unless the transaction passes and leaves the fee recipient with less than the
    unused fee. -/
theorem feeCloses_iff (hrecords : pf.executor.KeepsRecords pf.rt.crypto db) (before : List Transaction)
    (tx : Transaction) (hfits : ((pf.processTransactions db header before .new).2.view db).supply < 2 ^ 128)
    (hfits' : ∀ sender locked fee s', Account.addressOf pf.rt.crypto tx.verifyingKey = .ok sender →
      (lockFee db sender tx).run (pf.processTransactions db header before .new).2 = (.ok (), locked) →
      (pf.transactionContext db header sender).Passes tx locked fee s' → (s'.view db).supply < 2 ^ 128) :
    pf.FeeCloses header db tx (pf.processTransactions db header before .new).2 ↔
      ∀ sender hash locked, Account.addressOf pf.rt.crypto tx.verifyingKey = .ok sender →
        tx.transactionHash pf.rt.crypto pf.rt.codec = .ok hash →
        (lockFee db sender tx).run (pf.processTransactions db header before .new).2 = (.ok (), locked) →
        ¬ (pf.transactionContext db header sender).Drained tx locked := by
  have hs : (pf.processTransactions db header before .new).2.WellKeyed :=
    pf.wellKeyed_processTransactions header before
  refine forall_congr' fun sender => forall_congr' fun hash => forall_congr' fun locked => ?_
  refine imp_congr_right fun hkey => imp_congr_right fun hhash => imp_congr_right fun hlock => ?_
  obtain ⟨-, hcover, ⟨account, hacc⟩, hsupply⟩ := covered_of_lockFee hs hlock
  have hlocked : locked.WellKeyed := Evolves.wellKeyed ((lockFee_evolves sender tx).of_run hlock) hs
  have hdrained : (∃ fee s', (pf.transactionContext db header sender).Passes tx locked fee s' ∧
      (s'.view db).balanceAt FEE_RECIPIENT_MASTER_ADDRESS < tx.feeLimit.toNat - fee) ↔
      (pf.transactionContext db header sender).Drained tx locked :=
    TransactionContext.drained_iff hlocked (hsupply.trans_lt hfits) hcover hacc hhash
  rw [← hdrained]
  unfold processTransaction
  rw [hkey]
  dsimp only
  rw [hhash]
  rw [hlock]
  dsimp only
  rcases hexec : executeTransaction (pf.transactionContext db header sender) tx locked with
    ⟨result | result, s'⟩
  · -- a transaction that failed does not pass
    refine iff_of_true (pf.roundClosed_failed header hs hfits hlock hexec) ?_
    rintro ⟨fee, s₁, ⟨passed, hpassed, -⟩, -⟩
    cases hexec.symm.trans hpassed
  · dsimp only
    have hpasses : (pf.transactionContext db header sender).Passes tx locked result.fee.toNat s' :=
      ⟨result, hexec, rfl⟩
    have hunrecorded := TransactionContext.passes_unrecorded hrecords hpasses
    rw [pf.roundClosed_passed_iff header hs (hfits' _ _ _ _ hkey hlock hpasses) hlock hexec hunrecorded]
    constructor
    · rintro hle ⟨fee, s₁, ⟨passed, hpassed, rfl⟩, hshort⟩
      cases hexec.symm.trans hpassed
      exact absurd hshort (not_lt.mpr hle)
    · intro hnot
      by_contra hgt
      exact hnot ⟨_, s', hpasses, Nat.lt_of_not_le hgt⟩

/-- A payment of an ordinary account takes nothing from the fee recipient. -/
theorem payment_closes :
    Small.platform.FeeCloses Small.header oneAccount (payment 5 60)
      (Small.platform.processTransactions oneAccount Small.header [] .new).2 := by
  have hstart : (new.view oneAccount).supply = 100 :=
    (StateTables.supply_store oneAccount).trans (by decide +kernel)
  have hrecords : Small.platform.executor.KeepsRecords Small.platform.rt.crypto oneAccount := by
    intro request s
    cases request with
    | deployment | init => rfl
    | functionCall _ cx _ contractInstance =>
      exact trans_of Unrecorded (unrecorded_rule.keyed.incrementNonce contractInstance.instanceAddress s)
        (unrecorded_rule.keyed.transfer contractInstance.instanceAddress cx.accountAddress 1 _)
  refine (Small.platform.feeCloses_iff Small.header hrecords [] (payment 5 60)
    (hstart.trans_lt (by decide)) ?_).mpr ?_
  · rintro sender locked fee s' hkey hlock ⟨result, hexec, -⟩
    cases (Small.addressOf_key 1).symm.trans hkey
    obtain ⟨htokens, hlocked⟩ := (lockFee_supply 1 (payment 5 60)).of_run hlock
      (tokensOnly_new oneAccount)
    obtain ⟨-, hsupply⟩ := executeTransaction_supply rfl htokens hexec
    rw [if_neg (by decide), add_zero] at hsupply
    have hafter : (s'.view oneAccount).supply = 100 := hsupply.trans (hlocked.trans hstart)
    exact hafter.trans_lt (by decide)
  · intro sender hash locked hkey _ _
    cases (Small.addressOf_key 1).symm.trans hkey
    rintro (⟨size, -, -, hdrains⟩ | ⟨fee, request, e, burntGas, hrequest, -⟩)
    · have hpayer : (1 : Address) = FEE_RECIPIENT_MASTER_ADDRESS := hdrains.payer
      exact absurd hpayer (by decide)
    · -- a payment asks no engine
      have hprepare := TransactionContext.prepareBody_of_requestOf hrequest.asked
      obtain ⟨_, _, _, hprepare⟩ := run_bind_ok hprepare
      obtain ⟨_, _, _, hprepare⟩ := run_bind_ok hprepare
      obtain ⟨_, _, _, hprepare⟩ := run_bind_ok hprepare
      obtain ⟨_, _, _, hprepare⟩ := run_bind_ok hprepare
      cases hprepare

/-- The key whose address is the fee recipient's. -/
def recipientKey : VerifyingKeyBytes :=
  List.replicate 13 0 ++
    [224, 120, 253, 101, 57, 149, 201, 67, 249, 210, 42, 17, 116, 248, 101, 68, 242, 236, 1, 99]

/-- The fee recipient has a hundred tokens. -/
def recipientAccount : StateTables :=
  { StateTables.empty with
    account := (∅ : Table Address AccountRow).insert FEE_RECIPIENT_MASTER_ADDRESS ⟨.user, 100, 4⟩ }

/-- The fee recipient pays 95 of its hundred tokens, with a fee limit of 10. -/
def recipientPayment : Transaction :=
  { payment 5 95 with verifyingKey := recipientKey }

/-- The payment passes at the price of 3. The refund of 7 has only 5 tokens to come from, so it fails, and
    there is no record of the payment. -/
theorem recipientPayment_unrecorded :
    let round := Small.platform.processTransaction recipientAccount Small.header recipientPayment .new
    (UpdatedState.new.view recipientAccount).supply < 2 ^ 128 ∧
    (∃ result, round.1 = .executed (.ok result) ∧ result.fee = 3) ∧
    (round.2.view recipientAccount).balanceAt FEE_RECIPIENT_MASTER_ADDRESS = 5 ∧
    (round.2.view recipientAccount).metadatas = [] ∧
    ¬ Small.platform.FeeCloses Small.header recipientAccount recipientPayment .new := by
  intro round
  have hnone : (round.2.view recipientAccount).metadatas = [] := by decide +kernel
  refine ⟨?_, ?_, by decide +kernel, hnone, ?_⟩
  · exact ((StateTables.supply_store recipientAccount).trans (by decide +kernel)).trans_lt
      (by decide : 100 < 2 ^ 128)
  · have hfee : round.1.success.map (·.fee) = some 3 := by decide +kernel
    obtain ⟨result, hsuccess, hfee⟩ := map_eq_some_iff.mp hfee
    exact ⟨result, TransactionOutcome.success_eq_some.mp hsuccess, hfee⟩
  · intro hcloses
    have hlock : (lockFee recipientAccount FEE_RECIPIENT_MASTER_ADDRESS recipientPayment).run .new =
        (.ok (), ((lockFee recipientAccount FEE_RECIPIENT_MASTER_ADDRESS recipientPayment).run .new).2) :=
      Prod.ext (by decide +kernel) rfl
    have hround := hcloses FEE_RECIPIENT_MASTER_ADDRESS _ _ (by decide +kernel) rfl hlock
    have hshorter : ∀ {v effect : StateView} {hash result}, ¬ RoundClosed FEE_RECIPIENT_MASTER_ADDRESS
        recipientPayment hash result v effect (round.2.view recipientAccount) := by
      intro v effect hash result hclosed
      have hlength := congrArg List.length (hnone.symm.trans hclosed.record)
      rw [List.length_append, List.length_singleton] at hlength
      exact absurd hlength (Nat.succ_ne_zero _).symm
    split at hround
    · exact hshorter hround
    · exact hshorter hround

end Platform

end L1xCore
