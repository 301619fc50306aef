import L1xCore.Execute.Spending
import L1xCore.Execute.Supply

/-!
# `Execute.Payable` — blocks whose transactions can be paid

A round of a block is skipped when the fee of its transaction cannot be locked. Whether it can is settled by
the state the round starts from (`FeesCovered`). For a sender without a contract at its address it can be said
beforehand: its stored account has to cover the fee limits, transfers and stakes of its transactions
(`SpendingCovered`). Then none of them is skipped, and the block replays nothing for this sender exactly if
the nonces in it are the ones that follow the stored nonce (`World.noReplay_iff`).
-/

namespace L1xCore

open UpdatedState World Platform List
open Account (addressOf)

variable {crypto : Crypto} {a : Address}

/-- Every transaction was executed: its nonce was counted and its fee locked. -/
def NoneSkipped (outcomes : List (Transaction × TransactionOutcome)) : Prop :=
  ∀ o ∈ outcomes, ∃ result, o.2 = .executed result

namespace Platform

variable (pf : Platform) (db : StateTables) (header : BlockHeader)

/-- The fee of a transaction can be taken from its sender, whose nonce is not used up. -/
def FeeCovered (tx : Transaction) (s : UpdatedState) : Prop :=
  (∃ hash, tx.transactionHash pf.rt.crypto pf.rt.codec = .ok hash) ∧
    ∃ sender account, addressOf pf.rt.crypto tx.verifyingKey = .ok sender ∧
      (s.view db).account sender = some account ∧ account.nonce.toNat + 1 < 2 ^ 128 ∧
        tx.feeLimit.toNat ≤ account.balance.toNat

/-- Every round starts in a state where its fee can be taken. -/
def FeesCovered : List Transaction → UpdatedState → Prop
  | [], _ => True
  | tx :: txs, s => pf.FeeCovered db tx s ∧ FeesCovered txs (pf.processTransaction db header tx s).2

/-- Before every round all balances together fit. -/
def BalancesFit : List Transaction → UpdatedState → Prop
  | [], _ => True
  | tx :: txs, s => (s.view db).supply < 2 ^ 128 ∧ BalancesFit txs (pf.processTransaction db header tx s).2

variable {pf db header} {s : UpdatedState} {tx : Transaction} {txs before after : List Transaction}

/-- The rounds of a block, each with the state it starts from. -/
theorem exists_round {o : Transaction × TransactionOutcome}
    (h : o ∈ (pf.processTransactions db header txs s).1) :
    ∃ before after, txs = before ++ o.1 :: after ∧
      o.2 = (pf.processTransaction db header o.1 (pf.processTransactions db header before s).2).1 := by
  induction txs generalizing s with
  | nil => cases h
  | cons tx txs ih =>
    rcases mem_cons.mp h with rfl | h
    · exact ⟨[], txs, rfl, rfl⟩
    · obtain ⟨before, after, rfl, hround⟩ := ih h
      exact ⟨tx :: before, after, rfl, hround⟩

theorem BalancesFit.at_round (h : pf.BalancesFit db header (before ++ tx :: after) s) :
    ((pf.processTransactions db header before s).2.view db).supply < 2 ^ 128 := by
  induction before generalizing s with
  | nil => exact h.1
  | cons first before ih => exact ih h.2

/-- Blocks without contracts have room for all balances if there is room for what they mint. -/
theorem balancesFit_of_native (hnative : ∀ tx ∈ txs, tx.isNative = true) (htokens : s.TokensOnly db)
    (hsupply : (s.view db).supply + minted pf.rt.crypto (pf.processTransactions db header txs s).1 < 2 ^ 128) :
    pf.BalancesFit db header txs s := by
  induction txs generalizing s with
  | nil => trivial
  | cons tx txs ih =>
    obtain ⟨htokens', hround⟩ := pf.processTransaction_supply header (hnative tx mem_cons_self) htokens
    have hminted : minted pf.rt.crypto (pf.processTransactions db header (tx :: txs) s).1 =
        mintedBy pf.rt.crypto (tx, (pf.processTransaction db header tx s).1) +
          minted pf.rt.crypto (pf.processTransactions db header txs
            (pf.processTransaction db header tx s).2).1 := rfl
    rw [hminted] at hsupply
    refine ⟨by omega, ih (fun tx' h => hnative tx' (mem_cons_of_mem tx h)) htokens' ?_⟩
    rw [hround]
    omega

/-! ## One round -/

/-- **A round is skipped for want of the fee**, or because the nonce is used up. -/
theorem executed_iff_feeCovered (hs : s.WellKeyed) (hfits : (s.view db).supply < 2 ^ 128) :
    (∃ result, (pf.processTransaction db header tx s).1 = .executed result) ↔ pf.FeeCovered db tx s := by
  constructor
  · rintro ⟨result, hexecuted⟩
    rcases pf.processTransaction_cases db header tx s with ⟨e, hrun⟩ |
      ⟨sender, hash, locked, hsender, hhash, hlocked, -⟩
    · rw [hrun] at hexecuted
      cases hexecuted
    obtain ⟨account, haccount⟩ := (lockFee_ok_iff hs hfits tx).mp ⟨locked, hlocked⟩
    exact ⟨⟨hash, hhash⟩, sender, account, hsender, haccount⟩
  · rintro ⟨⟨hash, hhash⟩, sender, account, hsender, haccount⟩
    obtain ⟨locked, hlocked⟩ := (lockFee_ok_iff hs hfits tx).mpr ⟨account, haccount⟩
    rcases hexec : executeTransaction (pf.transactionContext db header sender) tx locked with
      ⟨result | result, s'⟩
    · exact ⟨.error result, by simp only [processTransaction, hsender, hhash, hlocked, hexec]⟩
    · exact ⟨.ok result, by simp only [processTransaction, hsender, hhash, hlocked, hexec]⟩

theorem noneSkipped_iff_feesCovered (hs : s.WellKeyed) (hfits : pf.BalancesFit db header txs s) :
    NoneSkipped (pf.processTransactions db header txs s).1 ↔ pf.FeesCovered db header txs s := by
  induction txs generalizing s with
  | nil => exact iff_of_true (fun _ ho => by cases ho) trivial
  | cons tx txs ih =>
    obtain ⟨hfitsNow, hfitsRest⟩ := hfits
    have hcons : NoneSkipped (pf.processTransactions db header (tx :: txs) s).1 ↔
        (∃ result, (pf.processTransaction db header tx s).1 = .executed result) ∧
          NoneSkipped (pf.processTransactions db header txs (pf.processTransaction db header tx s).2).1 :=
      forall_mem_cons
    rw [hcons, executed_iff_feeCovered hs hfitsNow,
      ih ((pf.processTransaction_evolves header tx s).wellKeyed hs) hfitsRest]
    rfl

end Platform

/-! ## What is spent along a block -/

/-- What the transactions of `a` may take from its account. -/
def spentBy (crypto : Crypto) (a : Address) (txs : List Transaction) : Nat :=
  (txs.map fun tx => if addressOf crypto tx.verifyingKey = .ok a
    then tx.feeLimit.toNat + tx.spends else 0).sum

/-- Nothing is taken from `a` that `spentBy` does not count: its transactions run no contract, and nobody
    unstakes from a pool at its address. -/
structure OnlySpends (crypto : Crypto) (a : Address) (txs : List Transaction) : Prop where
  native : ∀ tx ∈ txs, addressOf crypto tx.verifyingKey = .ok a → tx.isNative = true
  pools : ∀ tx ∈ txs, ∀ poolAddress amount, tx.transactionType = .unStake poolAddress amount → poolAddress ≠ a

/-- The stored account of `a` has the fee limit of a transaction and all that `a` spends before it. There is
    no contract at its address, and its nonce is not used up. -/
structure PaidFrom (rt : Runtime) (db : StateTables) (a : Address) (before : List Transaction)
    (tx : Transaction) : Prop where
  hash : ∃ hash, tx.transactionHash rt.crypto rt.codec = .ok hash
  external : db.store.contractInstance a = none
  spends : OnlySpends rt.crypto a before
  account : ∃ account, db.getAccount a = .ok account ∧
    account.nonce.toNat + (sentBy rt.crypto a before).length + 1 < 2 ^ 128 ∧
    spentBy rt.crypto a before + tx.feeLimit.toNat ≤ account.balance.toNat

/-- `a` can pay for each of its transactions. -/
def SpendingCovered (rt : Runtime) (db : StateTables) (a : Address) (txs : List Transaction) : Prop :=
  ∀ before tx after, txs = before ++ tx :: after → addressOf rt.crypto tx.verifyingKey = .ok a →
    PaidFrom rt db a before tx

namespace Platform

variable {pf : Platform} {db : StateTables} {header : BlockHeader} {s : UpdatedState}
  {txs : List Transaction} {key : VerifyingKeyBytes}

section

variable (hengines : pf.executor.SparesOthers pf.rt.crypto db) (hkey : addressOf pf.rt.crypto key = .ok a)

include hengines hkey

theorem processTransactions_loses (hspends : OnlySpends pf.rt.crypto a txs) :
    Loses db a (spentBy pf.rt.crypto a txs) s (pf.processTransactions db header txs s).2 := by
  induction txs generalizing s with
  | nil => exact refl_of (Loses db a _) s
  | cons tx txs ih =>
    have hround : Loses db a _ s (pf.processTransaction db header tx s).2 :=
      pf.processTransaction_loses header hengines hkey (hspends.native tx mem_cons_self)
        (hspends.pools tx mem_cons_self)
    have hrest : OnlySpends pf.rt.crypto a txs :=
      ⟨fun tx' h => hspends.native tx' (mem_cons_of_mem tx h),
        fun tx' h => hspends.pools tx' (mem_cons_of_mem tx h)⟩
    exact hround.trans (ih hrest)

/-- A block counts no more nonces for `a` than it has transactions of it. -/
theorem processTransactions_nonceAt_le (hs : External db a s) :
    ((pf.processTransactions db header txs s).2.view db).nonceAt a ≤
      (s.view db).nonceAt a + (sentBy pf.rt.crypto a txs).length := by
  induction txs generalizing s with
  | nil => exact le_refl _
  | cons tx txs ih =>
    obtain ⟨hexternal, hround⟩ := pf.processTransaction_nonceAt header hengines hkey tx hs
    refine (ih hexternal).trans ?_
    rw [hround]
    cases hby : appliedBy pf.rt.crypto a (tx, (pf.processTransaction db header tx s).1) with
    | false =>
      have hle : (sentBy pf.rt.crypto a txs).length ≤ (sentBy pf.rt.crypto a (tx :: txs)).length :=
        ((sublist_cons_self tx txs).filter _).length_le
      simpa using hle
    | true =>
      have hown : sentBy pf.rt.crypto a (tx :: txs) = tx :: sentBy pf.rt.crypto a txs :=
        filter_cons_of_pos (decide_eq_true (addressOf_of_appliedBy hby))
      rw [hown, length_cons, if_pos rfl]
      omega

end

theorem exists_account_of_stored (hs : s.WellKeyed) {stored : Account} (h : db.getAccount a = .ok stored) :
    ∃ account, (s.view db).account a = some account := by
  show ∃ account, overlaid (s.accounts.lookup a) (db.getAccount a).toOption = some account
  cases hentry : s.accounts.lookup a with
  | none => exact ⟨stored, by rw [h]; rfl⟩
  | some c =>
    obtain ⟨account, haccount, -⟩ := hs (.account a) c hentry
    exact ⟨account, haccount⟩

/-- **Whoever can pay is not skipped.** -/
theorem executed_of_spendingCovered (hengines : pf.executor.SparesOthers pf.rt.crypto db)
    (hcovered : SpendingCovered pf.rt db a txs) (hfits : pf.BalancesFit db header txs .new) :
    ∀ o ∈ (pf.processTransactions db header txs .new).1,
      addressOf pf.rt.crypto o.1.verifyingKey = .ok a → ∃ result, o.2 = .executed result := by
  intro o ho hsender
  obtain ⟨before, after, rfl, hround⟩ := exists_round ho
  obtain ⟨hhash, hnone, hspends, stored, hstored, hnonces, hbalances⟩ := hcovered before o.1 after rfl hsender
  have hstart : External db a .new := ⟨wellKeyed_new, hnone⟩
  have hfirst : (new.view db).account a = some stored := by
    show (db.getAccount a).toOption = some stored
    rw [hstored]
    rfl
  have hbefore : Loses db a _ .new (pf.processTransactions db header before .new).2 :=
    processTransactions_loses hengines hsender hspends
  obtain ⟨hs, hloses⟩ := hbefore hstart
  have hcounts : ((pf.processTransactions db header before .new).2.view db).nonceAt a ≤ _ :=
    processTransactions_nonceAt_le hengines hsender hstart
  dsimp only at hloses
  rw [Store.balanceAt_of_some hfirst] at hloses
  rw [Store.nonceAt_of_some hfirst] at hcounts
  rw [hround]
  refine (executed_iff_feeCovered hs.wellKeyed hfits.at_round).mpr ⟨hhash, a, ?_⟩
  obtain ⟨account, haccount⟩ := exists_account_of_stored hs.wellKeyed hstored
  rw [Store.balanceAt_of_some haccount] at hloses
  rw [Store.nonceAt_of_some haccount] at hcounts
  exact ⟨account, hsender, haccount, by omega, by omega⟩

end Platform

/-! ## No replay -/

namespace World

/-- An account with 100 tokens pays 20 twice. -/
theorem spendingCovered_payments {db : StateTables} (hstored : db.getAccount 1 = .ok ⟨1, 100, 4, .user⟩)
    (hnone : db.store.contractInstance 1 = none) (a : Address) :
    SpendingCovered Small.platform.rt db a [signedPayment 5, signedPayment 6] := by
  intro before tx after hsplit hsender
  have hpaid : ∀ {before tx}, OnlySpends Small.platform.rt.crypto 1 before →
      (∃ hash, tx.transactionHash Small.platform.rt.crypto Small.platform.rt.codec = .ok hash) →
      (sentBy Small.platform.rt.crypto 1 before).length ≤ 1 →
      spentBy Small.platform.rt.crypto 1 before + tx.feeLimit.toNat ≤ 100 →
      PaidFrom Small.platform.rt db 1 before tx :=
    fun hspends hhash hfew hcovered =>
      ⟨hhash, hnone, hspends, _, hstored, (show 4 + _ + 1 < 2 ^ 128 by omega), hcovered⟩
  rcases before with _ | ⟨first, _ | ⟨second, rest⟩⟩
  · obtain ⟨rfl, -⟩ := cons.inj hsplit
    cases (Small.addressOf_key 1).symm.trans hsender
    exact hpaid ⟨fun _ h => absurd h not_mem_nil, fun _ h => absurd h not_mem_nil⟩ ⟨_, rfl⟩ (by decide +kernel)
      (by decide +kernel)
  · obtain ⟨rfl, hrest⟩ := cons.inj hsplit
    obtain ⟨rfl, -⟩ := cons.inj hrest
    cases (Small.addressOf_key 1).symm.trans hsender
    have hnative : OnlySpends Small.platform.rt.crypto 1 [signedPayment 5] := by
      refine ⟨fun tx htx _ => ?_, fun tx htx poolAddress amount hkind => ?_⟩
      · rw [mem_singleton.mp htx]
        rfl
      · rw [mem_singleton.mp htx] at hkind
        cases hkind
    exact hpaid hnative ⟨_, rfl⟩ (by decide +kernel) (by decide +kernel)
  · have hlength := congrArg length hsplit
    simp only [length_append, length_cons, length_nil] at hlength
    omega

theorem isNative_payments : ∀ tx ∈ [signedPayment 5, signedPayment 6], tx.isNative = true := by
  decide +kernel

end World

end L1xCore
