import L1xCore.Execute.ExecuteBlock
import L1xCore.State.Ledger

/-!
# `Execute.Settlement` — what one round of a block does

A round of `execute_block_inner` locks the fee, executes the transaction on a clone, and settles: the
clone is merged or dropped, the unused fee goes back, and a metadata record is kept. `processTransaction_cases`
lists the ways a round can end; everything said about blocks follows from it.

The main result is that **a failed transaction costs its fee and nothing else** (`CostsFee`), whatever the
transactions before it in the block did.
-/

namespace L1xCore

open Fallible UpdatedState Store

variable {tx : Transaction} {s : UpdatedState} {c s' : UpdatedState} {cx : TransactionContext}
  {result : TransactionResult} {sender : Address}

namespace Platform

variable (pf : Platform) (db : StateTables) (header : BlockHeader)

/-- **How a round ends.** It is skipped before anything happens, or the fee is locked, the transaction
    executed, and the round settled by the result. -/
theorem processTransaction_cases (tx : Transaction) (s : UpdatedState) :
    (∃ e, pf.processTransaction db header tx s = (.skipped e, s)) ∨
    ∃ sender hash locked, Account.addressOf pf.rt.crypto tx.verifyingKey = .ok sender ∧
      tx.transactionHash pf.rt.crypto pf.rt.codec = .ok hash ∧
      (lockFee db sender tx).run s = (.ok (), locked) ∧
      ((∃ result s', executeTransaction (pf.transactionContext db header sender) tx locked =
          (.ok result, s') ∧
        pf.processTransaction db header tx s = (.executed (.ok result),
          settlePassed db sender tx hash result (s.merge locked) s')) ∨
      (∃ result s', executeTransaction (pf.transactionContext db header sender) tx locked =
          (.error result, s') ∧
        pf.processTransaction db header tx s = (.executed (.error result),
          settleFailed db sender tx hash result (s.merge locked)))) := by
  rcases hkey : Account.addressOf pf.rt.crypto tx.verifyingKey with e | sender
  · exact .inl ⟨e, by simp only [processTransaction, hkey]⟩
  rcases hhash : tx.transactionHash pf.rt.crypto pf.rt.codec with e | hash
  · exact .inl ⟨e, by simp only [processTransaction, hkey, hhash]⟩
  rcases hlock : (lockFee db sender tx).run s with ⟨e | ⟨⟩, locked⟩
  · exact .inl ⟨e, by simp only [processTransaction, hkey, hhash, hlock]⟩
  refine .inr ⟨sender, hash, locked, rfl, rfl, hlock, ?_⟩
  rcases hexec : executeTransaction (pf.transactionContext db header sender) tx locked with
    ⟨result | result, s'⟩
  · exact .inr ⟨result, s', rfl, by simp only [processTransaction, hkey, hhash, hlock, hexec]⟩
  · exact .inl ⟨result, s', rfl, by simp only [processTransaction, hkey, hhash, hlock, hexec]⟩

/-! ## Every state of a block is well keyed -/

variable {db} {s : UpdatedState} (txs : List Transaction)

theorem lockFee_evolves (sender : Address) (tx : Transaction) : Moves Evolves (lockFee db sender tx) :=
  (tokens_evolve.incrementNonce _).bind fun _ => tokens_evolve.transfer _ _ _

theorem refundFee_evolves {fee : Balance} : Moves Evolves (refundFee db sender tx fee) :=
  (Moves.okOr _ _).bind fun _ => tokens_evolve.transfer _ _ _

theorem storeTransactionMetadata_evolves {metadata : TransactionMetadata} :
    Moves Evolves (storeTransactionMetadata metadata) :=
  fun _ => evolves_of_entry_eq fun _ => rfl

theorem settleFailed_evolves (sender : Address) (tx : Transaction) (hash : TransactionHash)
    (result : TransactionResult) (s : UpdatedState) : s.Evolves (settleFailed db sender tx hash result s) :=
  (refundFee_evolves.bind fun _ => storeTransactionMetadata_evolves) s

/-- The settlement of a transaction that passed, seen from the clone `c` it was executed on. -/
theorem settlePassed_rule {R : UpdatedState → UpdatedState → Prop} [IsTrans UpdatedState R]
    (hremembers : ∀ {s s'}, Remembers db s s' → R s s')
    (hrefund : Moves R (refundFee db sender tx result.fee)) {hash : TransactionHash}
    (hstore : Moves R (storeTransactionMetadata (metadataOf hash result)))
    (h : s.Evolves c) : R c (settlePassed db sender tx hash result s c) := by
  have hmerged : Remembers db c (s.merge c) := remembers_merge h
  unfold settlePassed
  rcases hrun : (refundFee db sender tx result.fee).run c with ⟨e | ⟨⟩, c'⟩
  · exact hremembers hmerged
  · have hevolves : c.Evolves c' := refundFee_evolves.of_run hrun
    -- merging the refunded clone adds only what the merged state remembered
    have hagain : R c' ((s.merge c).merge c') := hremembers (merge_remembers hmerged hevolves)
    exact trans_of R (trans_of R (hrefund.of_run hrun) hagain) (hstore _)

theorem settlePassed_evolves (hash : TransactionHash)
    (result : TransactionResult) (h : s.Evolves c) : s.Evolves (settlePassed db sender tx hash result s c) :=
  trans_of Evolves h (settlePassed_rule (fun hr : Remembers db _ _ => hr.evolves) refundFee_evolves
    storeTransactionMetadata_evolves h)

/-- The locked clone is merged before the execution goes on from it. -/
theorem evolves_of_executed {r : Except TransactionResult TransactionResult} (h : s.Evolves c)
    (hexec : executeTransaction cx tx c = (r, s')) : (s.merge c).Evolves s' :=
  trans_of Evolves (evolves_of_merge h) (executeTransaction_evolves hexec)

theorem processTransaction_evolves (tx : Transaction) (s : UpdatedState) :
    s.Evolves (pf.processTransaction db header tx s).2 := by
  rcases pf.processTransaction_cases db header tx s with ⟨e, hrun⟩ |
    ⟨sender, hash, locked, -, -, hlock, ⟨result, s', hexec, hrun⟩ | ⟨result, s', hexec, hrun⟩⟩ <;>
    rw [hrun]
  · exact refl_of Evolves s
  all_goals
    have hlocked : s.Evolves locked := (lockFee_evolves sender tx).of_run hlock
    have hmerge := merge_evolves hlocked
  · exact trans_of Evolves hmerge
      (settlePassed_evolves _ _ (evolves_of_executed hlocked hexec))
  · exact trans_of Evolves hmerge (settleFailed_evolves _ _ _ _ _)

theorem processTransactions_evolves (s : UpdatedState) :
    s.Evolves (pf.processTransactions db header txs s).2 := by
  induction txs generalizing s with
  | nil => exact refl_of Evolves s
  | cons tx txs ih =>
    exact trans_of Evolves (pf.processTransaction_evolves header tx s) (ih _)

theorem wellKeyed_processTransactions : (pf.processTransactions db header txs .new).2.WellKeyed :=
  (pf.processTransactions_evolves header txs .new).wellKeyed wellKeyed_new

end Platform

/-! ## The price of a failure -/

/-- `v'` is `v` after a transaction of `sender` failed at the price `fee`. A missing fee recipient counts
    as an account with nothing in it. -/
structure CostsFee (sender : Address) (fee : Balance) (metadata : TransactionMetadata)
    (v v' : StateView) : Prop where
  charged : ∃ account nonce balance, v.account sender = some account ∧
    v'.account sender = some { account with nonce, balance } ∧
    nonce.toNat = account.nonce.toNat + 1 ∧ balance.toNat + fee.toNat = account.balance.toNat
  credited : ∃ account balance,
    account = (v.account FEE_RECIPIENT_MASTER_ADDRESS).getD (.new FEE_RECIPIENT_MASTER_ADDRESS) ∧
    v'.account FEE_RECIPIENT_MASTER_ADDRESS = some { account with balance } ∧
    balance.toNat = account.balance.toNat + fee.toNat
  account : ∀ a, a ≠ sender → a ≠ FEE_RECIPIENT_MASTER_ADDRESS → v'.account a = v.account a
  contract : v'.contract = v.contract
  contractInstance : v'.contractInstance = v.contractInstance
  storage : v'.storage = v.storage
  stakingPool : v'.stakingPool = v.stakingPool
  stakingAccount : v'.stakingAccount = v.stakingAccount
  events : v'.events = v.events
  metadatas : v'.metadatas = v.metadatas ++ [metadata]

namespace Store

variable {st st₁ st₂ : Store} {recipient : Address} {limit unused fee : Balance}

/-- **Locking the fee limit and giving back the unused part.** The refund never fails, and all that is left
    of the two is the next nonce and the fee. -/
theorem lock_refund (hf : st.AccountsFiled) (hne : sender ≠ recipient)
    (hnonce : st.incrementNonce sender = some st₁) (hlock : st₁.transfer sender recipient limit = some st₂)
    (hunused : unused.toNat + fee.toNat = limit.toNat) :
    ∃ account nonce fromBalance toBalance, st.account sender = some account ∧
      nonce.toNat = account.nonce.toNat + 1 ∧ fromBalance.toNat + fee.toNat = account.balance.toNat ∧
      toBalance.toNat = ((st.account recipient).getD (.new recipient)).balance.toNat + fee.toNat ∧
      st₂.transfer recipient sender unused = some
        ((st.setAccount { account with nonce, balance := fromBalance }).setAccount
          { (st.account recipient).getD (.new recipient) with balance := toBalance }) := by
  simp only [incrementNonce, Option.bind_eq_bind, Option.bind_eq_some_iff, Option.some.injEq,
    BitVec.checkedAdd_eq_some] at hnonce
  obtain ⟨account, hacc, nonce, hnonce, rfl⟩ := hnonce
  obtain rfl := hf sender account hacc
  have hrecipient : (st.setAccount { account with nonce }).account recipient = st.account recipient :=
    account_setAccount_of_ne hne.symm
  obtain ⟨locked, fromBalance, toBalance, hdeb, hsub, hadd, rfl⟩ := (transfer_eq_some_of_ne hne).mp hlock
  have hself : (st.setAccount { account with nonce }).account account.address = _ :=
    account_setAccount_self { account with nonce }
  obtain rfl : { account with nonce } = locked := Option.some.inj (hself.symm.trans hdeb)
  rw [hrecipient] at hadd ⊢
  generalize hpaid : (st.account recipient).getD (.new recipient) = paid at hadd ⊢
  have haddr : paid.address = recipient := by
    subst hpaid
    cases hr : st.account recipient with
    | none => rfl
    | some r => exact hf recipient r hr
  subst haddr
  dsimp only at hsub
  obtain ⟨fromBalance', hfrom⟩ := BitVec.exists_toNat_eq
    (show fromBalance.toNat + unused.toNat < 2 ^ 128 by omega)
  obtain ⟨toBalance', hto⟩ := BitVec.exists_toNat_eq
    (show toBalance.toNat - unused.toNat < 2 ^ 128 by have := toBalance.isLt; omega)
  refine ⟨account, nonce, fromBalance', toBalance', hacc, hnonce, by omega, by omega, ?_⟩
  -- the refund takes from the account just credited and gives to the account just debited
  have hsender : (((st.setAccount { account with nonce }).setAccount
      { account with nonce, balance := fromBalance }).setAccount
      { paid with balance := toBalance }).account account.address =
        some { account with nonce, balance := fromBalance } := by
    have hne' : account.address ≠ ({ paid with balance := toBalance } : Account).address := hne
    rw [account_setAccount_of_ne hne']
    exact account_setAccount_self { account with nonce, balance := fromBalance }
  refine (transfer_eq_some_of_ne hne.symm).mpr ⟨{ paid with balance := toBalance }, toBalance',
    fromBalance', account_setAccount_self _, by dsimp only; omega, ?_, ?_⟩
  · rw [hsender]; exact hfrom
  · rw [hsender]
    simp only [setAccount, Option.getD_some]
    congr 1
    funext a
    by_cases hs : a = account.address
    · subst hs; simp [hne]
    · by_cases hp : a = paid.address
      · subst hp; simp [hs]
      · simp [hs, hp]

end Store

namespace Platform

variable (pf : Platform) {db : StateTables} (header : BlockHeader)

theorem isSuccess_of_error (h : executeTransaction cx tx s = (.error result, s')) :
    result.isSuccess = false := by
  rcases hrun : (cx.executeBody tx).run ⟨s, .new tx.feeLimit⟩ with ⟨e | ⟨e | ⟨⟩, event⟩, e'⟩ <;>
    simp only [executeTransaction, hrun] at h <;> cases h <;> rfl

/-- A fee that was locked left the plain store by the two operations of the lock. -/
theorem view_lockFee {locked : UpdatedState} (h : (lockFee db sender tx).run s = (.ok (), locked)) :
    ∃ st₁ st₂, (s.view db).incrementNonce sender = some st₁ ∧
      st₁.transfer sender FEE_RECIPIENT_MASTER_ADDRESS tx.feeLimit = some st₂ ∧
      locked.view db = (s.view db).onStore fun _ => st₂ := by
  obtain ⟨⟨⟩, s₁, hnonce, htransfer⟩ := run_bind_ok h
  obtain ⟨st₁, hst₁, hv₁⟩ := incrementNonce_transacts.ok hnonce
  obtain ⟨st₂, hst₂, hv₂⟩ := transfer_transacts.ok htransfer
  rw [hv₁] at hst₂ hv₂
  exact ⟨st₁, st₂, hst₁, hst₂, hv₂⟩

theorem exists_unused {r : Except TransactionResult TransactionResult}
    (h : executeTransaction cx tx s = (r, s')) :
    ∃ unused : Balance, unused.toNat + (reportOf r).fee.toNat = tx.feeLimit.toNat := by
  have hspec := (executeTransaction_spec cx tx s).1
  rw [h] at hspec
  obtain ⟨unused, hunused, -⟩ := BitVec.exists_checkedSub hspec
  exact ⟨unused, hunused⟩

theorem run_refundFee {fee unused : Balance} (hunused : unused.toNat + fee.toNat = tx.feeLimit.toNat) :
    refundFee db sender tx fee = transfer db FEE_RECIPIENT_MASTER_ADDRESS sender unused := by
  rw [refundFee, BitVec.checkedSub_eq_some.mpr hunused]
  rfl

/-- The settlement of a failed transaction whose refund goes through. -/
theorem view_settleFailed {hash : TransactionHash} {unused : Balance} {st : Store}
    (hunused : unused.toNat + result.fee.toNat = tx.feeLimit.toNat)
    (hrefund : (s.view db).transfer FEE_RECIPIENT_MASTER_ADDRESS sender unused = some st) :
    (settleFailed db sender tx hash result s).view db =
      { (s.view db).onStore fun _ => st with
        metadatas := (s.view db).metadatas ++ [metadataOf hash result] } := by
  obtain ⟨s₁, hrun₁, hv₁⟩ := transfer_transacts.defined hrefund
  have hwrites : Writes db
      (storeTransactionMetadata (metadataOf hash result)) _ := storeTransactionMetadata_writes
  obtain ⟨s₂, hrun₂, hv₂⟩ := hwrites s₁
  rw [settleFailed, run_refundFee hunused, run_bind_of_ok hrun₁, hrun₂, hv₂, hv₁]
  rfl

/-- **A failed transaction only costs its fee.** Whatever the transactions before it in the block did: when
    the fee of a transaction was locked and its execution failed, the state of the block after its round
    differs from the state before it in the sender's nonce and balance, the fee recipient's balance and
    the new metadata record. -/
theorem failed_transaction_costs_fee (before : List Transaction) (tx : Transaction)
    (sender : Address) (hash : TransactionHash) (result : TransactionResult)
    (hkey : Account.addressOf pf.rt.crypto tx.verifyingKey = .ok sender)
    (hhash : tx.transactionHash pf.rt.crypto pf.rt.codec = .ok hash)
    (hsender : sender ≠ FEE_RECIPIENT_MASTER_ADDRESS)
    (hfailed : (pf.processTransaction db header tx
      (pf.processTransactions db header before .new).2).1.failure = some result) :
    let s := (pf.processTransactions db header before .new).2
    CostsFee sender result.fee ⟨hash, result.fee, result.gasBurnt, false⟩ (s.view db)
      ((pf.processTransaction db header tx s).2.view db) := by
  intro s
  have hs : s.WellKeyed := pf.wellKeyed_processTransactions header before
  rcases pf.processTransaction_cases db header tx s with ⟨e, hrun⟩ |
    ⟨sender', hash', locked, hkey', hhash', hlock, ⟨passed, s', hexec, hrun⟩ | ⟨failed, s', hexec, hrun⟩⟩
  · cases hfailed.symm.trans (congrArg (·.1.failure) hrun)
  · cases hfailed.symm.trans (congrArg (·.1.failure) hrun)
  cases hfailed.symm.trans (congrArg (·.1.failure) hrun)
  cases hkey.symm.trans hkey'
  cases hhash.symm.trans hhash'
  obtain ⟨st₁, st₂, hnonce, htransfer, hlocked⟩ := view_lockFee hlock
  obtain ⟨unused, hfee⟩ := exists_unused hexec
  rw [reportOf] at hfee
  obtain ⟨account, nonce, fromBalance, toBalance, hacc, hn, hfrom, hto, hrefund⟩ :=
    lock_refund (accountsFiled_view hs) hsender hnonce htransfer hfee
  have hmerged : (s.merge locked).view db = (s.view db).onStore fun _ => st₂ := by
    have hevolves : Moves Evolves (lockFee db sender tx) := lockFee_evolves sender tx
    have h := hevolves s
    rw [hlock] at h
    rw [view_merge h, hlocked]
  rw [hrun]
  rw [view_settleFailed hfee (by rw [hmerged]; exact hrefund), hmerged]
  obtain rfl := accountsFiled_view hs sender account hacc
  have hrecipient : (((s.view db).account FEE_RECIPIENT_MASTER_ADDRESS).getD
      (.new FEE_RECIPIENT_MASTER_ADDRESS)).address = FEE_RECIPIENT_MASTER_ADDRESS := by
    cases hr : (s.view db).account FEE_RECIPIENT_MASTER_ADDRESS with
    | none => rfl
    | some r => exact accountsFiled_view hs _ r hr
  generalize hpaid : ((s.view db).account FEE_RECIPIENT_MASTER_ADDRESS).getD
    (.new FEE_RECIPIENT_MASTER_ADDRESS) = paid at hrecipient hto ⊢
  have hne : account.address ≠ ({ paid with balance := toBalance } : Account).address := by
    rwa [← hrecipient] at hsender
  exact
    { charged := ⟨account, nonce, fromBalance, hacc,
        (account_setAccount_of_ne hne).trans
          (account_setAccount_self { account with nonce, balance := fromBalance }), hn, hfrom⟩
      credited := ⟨paid, toBalance, hpaid.symm,
        (congrArg _ hrecipient.symm).trans (account_setAccount_self { paid with balance := toBalance }), hto⟩
      account := fun a ha hr => by
        have hr' : a ≠ ({ paid with balance := toBalance } : Account).address := by
          rwa [← hrecipient] at hr
        exact (account_setAccount_of_ne hr').trans (account_setAccount_of_ne ha)
      contract := rfl
      contractInstance := rfl
      storage := rfl
      stakingPool := rfl
      stakingAccount := rfl
      events := rfl
      metadatas := by
        rw [metadataOf, isSuccess_of_error hexec]
        rfl }

/-- The account with address 1 has a hundred tokens. -/
def oneAccount : StateTables :=
  { StateTables.empty with
    account := (∅ : Table Address AccountRow).insert 1 ⟨.user, 100, 4⟩ }

/-- A transfer of some tokens of that account. -/
def payment (nonce : Nonce) (amount : Balance) : Transaction :=
  { version := .V3, nonce, transactionType := .nativeTokenTransfer 2 amount, feeLimit := 10,
    signature := [], verifyingKey := Small.key 1, ethOriginalTransaction := none }

/-- A payment that goes through, and then one of more tokens than there are. -/
theorem payment_costs_fee :
    let s := (Small.platform.processTransactions oneAccount Small.header [payment 5 60] .new).2
    ∃ (hash : TransactionHash) (result : TransactionResult), result.fee = 3 ∧
      CostsFee 1 result.fee ⟨hash, result.fee, result.gasBurnt, false⟩ (s.view oneAccount)
        ((Small.platform.processTransaction oneAccount Small.header (payment 6 60) s).2.view oneAccount) := by
  intro s
  have hrun : (Small.platform.processTransaction oneAccount Small.header (payment 6 60) s).1.failure.map
      (·.fee) = some 3 := by decide +kernel
  obtain ⟨result, hfailed, hfee⟩ := Option.map_eq_some_iff.mp hrun
  exact ⟨_, result, hfee, failed_transaction_costs_fee Small.platform Small.header [payment 5 60]
    (payment 6 60) 1 _ result (Small.addressOf_key 1) rfl (by decide) hfailed⟩

end Platform

end L1xCore
