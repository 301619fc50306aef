import L1xCore.Execute.Payable
import L1xCore.Mempool.Proposals

/-!
# `Mempool.Selected` — whether a block executes what its proposer has selected

A round of a block is skipped when the fee of its transaction cannot be locked (`Platform.FeesCovered`). The
proposer takes for every sender the right prefix of its queue, but simulates the balances with the fee limits
and the transfers only. A stake or a contract takes more, and the **next** transaction of the same sender may
find too little for its fee.
-/

namespace L1xCore

open UpdatedState World Platform Except List
open Account (addressOf)

/-! ## The selection of a proposer -/

namespace Mempool

variable {pf : Platform} {db : StateTables} {header : BlockHeader} {s : UpdatedState}
  {accounts : Table Address Account} {crypto : Crypto} {sender : Address} {tx : Transaction}
  {included : List Transaction} {txs : List Transaction} {account : Account} {account' : Account}

theorem includeTransactions_sublist
    (h : includeTransactions crypto db accounts txs = .ok included) : included.Sublist txs := by
  induction txs generalizing accounts included with
  | nil =>
    cases h
    exact .slnil
  | cons tx txs ih =>
    obtain ⟨sender, _, h⟩ := bind_eq_ok.mp h
    obtain ⟨account, _, h⟩ := bind_eq_ok.mp h
    split at h
    · obtain ⟨rest, hrest, h⟩ := bind_eq_ok.mp h
      cases h
      exact (ih hrest).cons_cons tx
    · exact (ih h).cons tx

theorem pairwise_sortByNonce : (sortByNonce txs).Pairwise fun tx tx' => tx.nonce ≤ tx'.nonce := by
  let r := fun tx tx' : Transaction => tx.nonce ≤ tx'.nonce
  exact pairwise_insertionSort r txs

/-- **What a block does with the transactions of its proposer.** In the state they were selected in, no
    transaction is skipped exactly if each one finds its fee in its sender's account. That is so if the stored
    balances cover what is spent. -/
theorem selected_executed_iff (pf : Platform) (p : Mempool) (db : StateTables) (block : Block)
    (hengines : pf.executor.SparesOthers pf.rt.crypto db)
    (hselected : p.buildNewBlockTransactionsList pf.rt.crypto db = .ok block.transactions)
    (hfits : pf.BalancesFit db block.blockHeader block.transactions .new) :
    (NoneSkipped (pf.processBlock db block).1 ↔ pf.FeesCovered db block.blockHeader block.transactions .new) ∧
      ((∀ a, SpendingCovered pf.rt db a block.transactions) → NoneSkipped (pf.processBlock db block).1) := by
  -- the proposer's order is the one of execution
  have hsorted := (pairwise_sortByNonce.sublist (includeTransactions_sublist hselected)).insertionSort_eq
  rw [processBlock, sortByNonce, hsorted]
  refine ⟨noneSkipped_iff_feesCovered wellKeyed_new hfits, fun hcovered o ho => ?_⟩
  obtain ⟨before, after, hsplit, -⟩ := exists_round ho
  have hmem : o.1 ∈ block.transactions := hsplit ▸ mem_append_right before mem_cons_self
  obtain ⟨-, sender, hsender, -⟩ := buildNewBlockTransactionsList_affordable hselected o.1 hmem
  exact executed_of_spendingCovered hengines (hcovered sender) hfits o ho hsender

/-! ## What is selected -/

section

variable {crypto : Crypto} {sender : Address} {account : Account} {txs included : List Transaction}

theorem sentBy_cons (hsender : addressOf crypto tx.verifyingKey = .ok sender) :
    sentBy crypto sender (tx :: txs) = tx :: sentBy crypto sender txs :=
  filter_cons_of_pos (decide_eq_true hsender)

theorem sentBy_cons_of_ne (hsender : addressOf crypto tx.verifyingKey ≠ .ok sender) :
    sentBy crypto sender (tx :: txs) = sentBy crypto sender txs :=
  filter_cons_of_neg fun h => hsender (of_decide_eq_true h)

/-- What the proposer counts for a transaction. -/
def cost (tx : Transaction) : Nat := (requiredDeposit tx).toNat + tx.feeLimit.toNat

/-- **The right prefix** of the transactions of a sender, whose account is given: the nonces that follow the
    one of the account, as far as there is a transaction that can be paid for. -/
structure TakesPrefix (crypto : Crypto) (sender : Address) (account : Account)
    (txs included : List Transaction) : Prop where
  nonces : (sentBy crypto sender included).map (·.nonce.toNat) =
    List.range' (account.nonce.toNat + 1) (sentBy crypto sender included).length
  covered : ((sentBy crypto sender included).map cost).sum ≤ account.balance.toNat
  maximal : ∀ tx ∈ sentBy crypto sender txs,
    tx.nonce.toNat = account.nonce.toNat + (sentBy crypto sender included).length + 1 →
      account.balance.toNat < ((sentBy crypto sender included).map cost).sum + cost tx

/-- A transaction with the right nonce is dropped only if the account cannot pay for it. -/
theorem lt_cost_of_accountAfter (h : accountAfter account tx = none)
    (hnonce : tx.nonce.toNat = account.nonce.toNat + 1) : account.balance.toNat < cost tx := by
  by_contra hle
  have hexpected : account.nonce.checkedAdd 1 = some tx.nonce := BitVec.checkedAdd_eq_some.mpr hnonce
  unfold cost at hle
  obtain ⟨required, hrequired⟩ :=
    BitVec.exists_toNat_eq (show (requiredDeposit tx).toNat + tx.feeLimit.toNat < 2 ^ 128 by omega)
  obtain ⟨balance, -, hsub⟩ := BitVec.exists_checkedSub (show required.toNat ≤ account.balance.toNat by omega)
  have hadd : (requiredDeposit tx).checkedAdd tx.feeLimit = some required :=
    BitVec.checkedAdd_eq_some.mpr hrequired
  unfold accountAfter at h
  rw [hexpected] at h
  simp [hadd, hsub] at h

namespace TakesPrefix

theorem taken {after : Account} (hsender : addressOf crypto tx.verifyingKey = .ok sender)
    (hafter : accountAfter account tx = some after) (h : TakesPrefix crypto sender after txs included) :
    TakesPrefix crypto sender account (tx :: txs) (tx :: included) := by
  obtain ⟨hnonces, hcovered, hmaximal⟩ := h
  obtain ⟨hnonce, hlast, hbalance⟩ := accountAfter_some hafter
  rw [hlast, hnonce] at hnonces hmaximal
  have hcost : after.balance.toNat + cost tx = account.balance.toNat := hbalance
  have hsum : ((sentBy crypto sender (tx :: included)).map cost).sum =
      cost tx + ((sentBy crypto sender included).map cost).sum := by
    rw [sentBy_cons hsender, map_cons, sum_cons]
  refine ⟨?_, by omega, fun other hother hnext => ?_⟩
  · rw [sentBy_cons hsender, map_cons, hnonces, hnonce]
    rfl
  · rw [sentBy_cons hsender, length_cons] at hnext
    rw [sentBy_cons hsender] at hother
    rcases mem_cons.mp hother with rfl | hother
    · omega
    · have hshort := hmaximal other hother (by omega)
      omega

/-- A dropped transaction comes before those that are included later on: were there any, they would start with
    the next nonce, and it could not carry one after theirs. -/
theorem dropped (hsender : addressOf crypto tx.verifyingKey = .ok sender)
    (hafter : accountAfter account tx = none) (hfirst : ∀ other ∈ included, tx.nonce ≤ other.nonce)
    (h : TakesPrefix crypto sender account txs included) :
    TakesPrefix crypto sender account (tx :: txs) included := by
  refine ⟨h.nonces, h.covered, fun other hother hnext => ?_⟩
  rw [sentBy_cons hsender] at hother
  rcases mem_cons.mp hother with rfl | hother
  · have hnonces := h.nonces
    cases hincluded : sentBy crypto sender included with
    | nil =>
      rw [hincluded] at hnext
      exact (lt_cost_of_accountAfter hafter hnext).trans_le (Nat.le_add_left _ _)
    | cons first more =>
      rw [hincluded] at hnext hnonces
      have hmem : first ∈ included := mem_of_mem_filter (hincluded ▸ mem_cons_self)
      have hle := BitVec.le_def.mp (hfirst first hmem)
      have hstart : first.nonce.toNat = account.nonce.toNat + 1 := (cons.inj hnonces).1
      rw [length_cons] at hnext
      omega
  · exact h.maximal other hother hnext

theorem other {included' : List Transaction} (hsender : addressOf crypto tx.verifyingKey ≠ .ok sender)
    (hincluded : sentBy crypto sender included' = sentBy crypto sender included)
    (h : TakesPrefix crypto sender account txs included) :
    TakesPrefix crypto sender account (tx :: txs) included' := by
  obtain ⟨hnonces, hcovered, hmaximal⟩ := h
  rw [← hincluded] at hnonces hcovered hmaximal
  refine ⟨hnonces, hcovered, ?_⟩
  rw [sentBy_cons_of_ne hsender]
  exact hmaximal

end TakesPrefix

/-- **The loop** over a sorted list, from any accounts: `account` is what it would find for the sender. -/
theorem includeTransactions_takesPrefix (hsorted : txs.Pairwise fun tx tx' => tx.nonce ≤ tx'.nonce)
    (h : includeTransactions crypto db accounts txs = .ok included)
    (haccount : (accounts.lookup sender).elim (db.getAccount sender) .ok = .ok account) :
    TakesPrefix crypto sender account txs included := by
  induction txs generalizing accounts included account with
  | nil =>
    cases h
    exact ⟨rfl, Nat.zero_le _, fun tx htx => absurd htx not_mem_nil⟩
  | cons tx txs ih =>
    obtain ⟨hfirst, hsorted⟩ := pairwise_cons.mp hsorted
    obtain ⟨sender', hsender', hloop⟩ := bind_eq_ok.mp h
    obtain ⟨account', haccount', hloop⟩ := bind_eq_ok.mp hloop
    -- what the loop finds for the sender in the next round
    have hnext : ∀ found, ((accounts.insert sender' found).lookup sender).elim (db.getAccount sender) .ok =
        if sender = sender' then .ok found else .ok account := by
      intro found
      rw [AList.lookup_insert_ite]
      split
      · rfl
      · exact haccount
    by_cases hown : sender = sender'
    · subst hown
      cases haccount.symm.trans haccount'
      split at hloop
      · next after hafter =>
          obtain ⟨rest, hrest, hloop⟩ := bind_eq_ok.mp hloop
          cases hloop
          exact .taken hsender' hafter (ih hsorted hrest ((hnext after).trans (if_pos rfl)))
      · next hafter =>
          exact .dropped hsender' hafter
            (fun other hother => hfirst other ((includeTransactions_sublist hloop).subset hother))
            (ih hsorted hloop ((hnext account).trans (if_pos rfl)))
    · have hother : addressOf crypto tx.verifyingKey ≠ .ok sender :=
        fun heq => hown (ok.inj (heq.symm.trans hsender'))
      split at hloop
      · obtain ⟨rest, hrest, hloop⟩ := bind_eq_ok.mp hloop
        cases hloop
        exact .other hother (sentBy_cons_of_ne hother) (ih hsorted hrest ((hnext _).trans (if_neg hown)))
      · exact .other hother rfl (ih hsorted hloop ((hnext _).trans (if_neg hown)))

/-- **A proposer takes the right prefix** of the transactions of every sender, and nothing that is not in its
    queue. -/
theorem buildNewBlockTransactionsList_takesPrefix {p : Mempool}
    (h : p.buildNewBlockTransactionsList crypto db = .ok included) :
    (∀ tx ∈ included, (∃ e ∈ p.transactionsPriority, e.1 = tx) ∧
      ∃ sender stored, addressOf crypto tx.verifyingKey = .ok sender ∧ db.getAccount sender = .ok stored) ∧
      ∀ sender stored, db.getAccount sender = .ok stored →
        TakesPrefix crypto sender stored (p.transactionsPriority.map Prod.fst) included := by
  constructor
  · intro tx htx
    obtain ⟨hqueued, sender, hsender, stored, hstored, -⟩ := buildNewBlockTransactionsList_affordable h tx htx
    exact ⟨hqueued, sender, stored, hsender, hstored⟩
  · intro sender stored hstored
    have hsorted := includeTransactions_takesPrefix pairwise_sortByNonce h hstored
    refine ⟨hsorted.nonces, hsorted.covered, fun tx htx => hsorted.maximal tx ?_⟩
    obtain ⟨hqueued, hsender⟩ := mem_filter.mp htx
    exact mem_filter.mpr ⟨(mem_insertionSort _).mpr hqueued, hsender⟩

end

/-! ## Two payments, and a stake before a payment -/

/-- A mempool with the given transactions in its list. -/
def waiting (txs : List Transaction) : Mempool :=
  { Mempool.new 10 1000 10 60 60 with transactionsPriority := txs.map (·, 0) }

/-- Two payments of the account with 100 tokens. -/
def paymentsBlock : Block := (proposed [signedPayment 5, signedPayment 6]).block

/-- They are taken from three payments, of which the third leaves out a nonce. -/
theorem selected_payments_prefix :
    let queued := [signedPayment 6, signedPayment 8, signedPayment 5]
    (waiting queued).buildNewBlockTransactionsList Small.platform.rt.crypto poolWorld.db.state =
        .ok paymentsBlock.transactions ∧
      TakesPrefix Small.platform.rt.crypto 1 ⟨1, 100, 4, .user⟩ queued paymentsBlock.transactions := by
  intro queued
  have hbuilt : (waiting queued).buildNewBlockTransactionsList Small.platform.rt.crypto poolWorld.db.state =
      .ok paymentsBlock.transactions := by
    decide +kernel
  exact ⟨hbuilt, (buildNewBlockTransactionsList_takesPrefix hbuilt).2 1 _ (by decide +kernel)⟩

theorem selected_payments_executed :
    (waiting paymentsBlock.transactions).buildNewBlockTransactionsList Small.platform.rt.crypto
      poolWorld.db.state = .ok paymentsBlock.transactions ∧
    NoneSkipped (Small.platform.processBlock poolWorld.db.state paymentsBlock).1 := by
  have hselected : (waiting paymentsBlock.transactions).buildNewBlockTransactionsList
      Small.platform.rt.crypto poolWorld.db.state = .ok paymentsBlock.transactions := by
    decide +kernel
  have hsupply : (UpdatedState.new.view poolWorld.db.state).supply = 100 :=
    (StateTables.supply_store poolWorld.db.state).trans (by decide +kernel)
  have hfits : Small.platform.BalancesFit poolWorld.db.state paymentsBlock.blockHeader
      paymentsBlock.transactions .new :=
    balancesFit_of_native isNative_payments (tokensOnly_new _) (by rw [hsupply]; decide +kernel)
  refine ⟨hselected, ?_⟩
  exact (selected_executed_iff Small.platform _ poolWorld.db.state paymentsBlock
    (Small.platform_sparesOthers _) hselected hfits).2
    (spendingCovered_payments (by decide +kernel) (by decide +kernel))

/-- The stake leaves less than a fee, and the payment after it is skipped: the proposer has counted the fee of
    the stake only. -/
theorem selected_payment_skipped :
    (waiting [signedStake 5 90, signedPayment 6]).buildNewBlockTransactionsList
        Small.platform.rt.crypto poolWorld.db.state = .ok [signedStake 5 90, signedPayment 6] ∧
    ¬ NoneSkipped (Small.platform.processBlock poolWorld.db.state
      (proposed [signedStake 5 90, signedPayment 6]).block).1 := by
  have hskipped : (Small.platform.processBlock poolWorld.db.state
      (proposed [signedStake 5 90, signedPayment 6]).block).1.any
        (fun o => o.2 matches .skipped _) = true := by
    decide +kernel
  refine ⟨by decide +kernel, fun hnone => ?_⟩
  obtain ⟨o, ho, hskip⟩ := any_eq_true.mp hskipped
  obtain ⟨result, hresult⟩ := hnone o ho
  rw [hresult] at hskip
  cases hskip

end Mempool

end L1xCore
