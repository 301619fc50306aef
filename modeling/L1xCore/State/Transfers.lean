import L1xCore.State.Ledger

/-!
# `State.Transfers` — a transfer is exact, and a failed one leaves no trace

`UpdatedState::transfer` reads the payer, debits a copy of it, reads the payee or opens an account for it,
and writes both. A payee that is missing, a payer who pays itself and a payee who cannot hold the amount
meet in the order of these steps: the new account is written **before** the credit is computed, and a
transfer to oneself has to go on from the debited copy. What holds for all of them is said on the plain
store (`Store.Moved`), and then for every overlay that operations can make.
-/

namespace L1xCore

namespace Store

variable {st st' : Store} {a b : Address} {amount : Balance}

/-- **A transfer that was carried out.** Every balance is what it was, less what the account pays and plus
    what it is paid; nothing else of an account changes. -/
structure Moved (st st' : Store) (a b : Address) (amount : Balance) : Prop where
  balance : ∀ x, st'.balanceAt x + (if x = a then amount.toNat else 0) =
    st.balanceAt x + if x = b then amount.toNat else 0
  /-- What was there keeps its nonce and its type. -/
  kept : ∀ x account, st.account x = some account → ∃ balance, st'.account x = some { account with balance }
  /-- The payee is there, and a payee that was missing is a new account. -/
  payee : ∃ account balance, account = (st.account b).getD (.new b) ∧
    st'.account b = some { account with balance }
  others : ∀ x, x ≠ a → x ≠ b → st'.account x = st.account x
  /-- No other kind of record is touched. -/
  records : st' = { st with account := st'.account }

variable (hf : st.AccountsFiled) (h : st.transfer a b amount = some st')

include hf h

/-- After a transfer to someone else the payer is debited and the payee credited; to oneself, the account is
    debited and then credited. -/
theorem account_transfer : ∃ account fromBalance toBalance, st.account a = some account ∧
      (∀ x, st'.account x =
        if x = b then some { st.payee { account with balance := fromBalance } a b with
          balance := toBalance }
        else if x = a then some { account with balance := fromBalance }
        else st.account x) ∧
      st' = { st with account := st'.account } := by
  simp only [transfer, Option.bind_eq_bind, Option.bind_eq_some_iff, Option.some.injEq] at h
  obtain ⟨account, hacc, fromBalance, -, toBalance, -, rfl⟩ := h
  obtain rfl := hf a account hacc
  refine ⟨account, fromBalance, toBalance, hacc, ?_, rfl⟩
  intro x
  have hpayee : (st.payee { account with balance := fromBalance } account.address b).address = b :=
    payee_address hf { account with balance := fromBalance } b
  simp only [setAccount, Function.update_apply, hpayee]

theorem moved_of_transfer : st.Moved st' a b amount := by
  obtain ⟨account, fromBalance, toBalance, hacc, hafter, hrecords⟩ := account_transfer hf h
  refine ⟨?_, ?_, ?_, ?_, hrecords⟩
  · intro x
    have hmoved := balanceAt_transfer hf h x
    omega
  · intro x found hfound
    rw [hafter x]
    by_cases hxb : x = b
    · subst hxb
      by_cases hab : a = x
      · -- to oneself: the account that was debited is credited
        subst hab
        cases hacc.symm.trans hfound
        simp [payee]
      · refine ⟨toBalance, ?_⟩
        simp [payee, hab, hfound]
    · rw [if_neg hxb]
      by_cases hxa : x = a
      · subst hxa
        cases hacc.symm.trans hfound
        rw [if_pos rfl]
        exact ⟨fromBalance, rfl⟩
      · rw [if_neg hxa]
        exact ⟨found.balance, hfound⟩
  · refine ⟨(st.account b).getD (.new b), toBalance, rfl, ?_⟩
    rw [hafter b, if_pos rfl]
    by_cases hab : a = b
    · subst hab
      simp [payee, hacc]
    · simp [payee, hab]
  · intro x hxa hxb
    rw [hafter x, if_neg hxb, if_neg hxa]

end Store

namespace UpdatedState

/-- What a transfer may do to an overlay: it is carried out, or nothing can be seen of it. The events and
    metadata are left alone in both cases. -/
def TransferExact (db : StateTables) (s : UpdatedState) (a b : Address) (amount : Balance) : Prop :=
  match (transfer db a b amount).run s with
  | (.ok (), s') => (view db s).Moved (view db s').toStore a b amount ∧
      (view db s').events = (view db s).events ∧ (view db s').metadatas = (view db s).metadatas
  | (.error _, s') => view db s' = view db s

theorem transferExact_of_wellKeyed {db : StateTables} {s : UpdatedState} (hs : WellKeyed s)
    (a b : Address) (amount : Balance) : TransferExact db s a b amount := by
  unfold TransferExact
  have hx : Transacts db (transfer db a b amount) (·.transfer a b amount) := transfer_transacts
  cases hst : (view db s).transfer a b amount with
  | some st =>
    obtain ⟨s', hrun, hview⟩ := hx.defined hst
    rw [hrun]
    show (view db s).Moved (view db s').toStore a b amount ∧ _
    rw [hview]
    exact ⟨Store.moved_of_transfer (accountsFiled_view hs) hst, rfl, rfl⟩
  | none =>
    obtain ⟨e, s', hrun, hview⟩ := hx.undefined hst
    rw [hrun]
    exact hview

/-- **A transfer is exact and atomic**, on every overlay that any sequence of operations can make over any
    tables, between any two addresses, the same ones included. -/
theorem transfer_exact (crypto : Crypto) (db : StateTables) (ops : List Op) (a b : Address)
    (amount : Balance) : TransferExact db (runOps crypto db ops .new) a b amount :=
  transferExact_of_wellKeyed (wellKeyed_runOps crypto db ops) a b amount

end UpdatedState

end L1xCore
