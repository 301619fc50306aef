import L1xCore.Execute.Conserved
import L1xCore.Validate.ValidateBlock

/-!
# `Execute.Replay` — the nonces of the transactions a block applies

The validation of a block looks at each transaction against the state **before** the block; the execution
sorts the transactions by nonce and increments the sender's nonce without looking at it. So a block applies
for a sender whatever nonces its transactions carry, except for those whose fee cannot be locked
(`appliedNonces_sublist`).

The nonce of an account is a conserved quantity of everything but the lock of a fee: transfers, stakes, new
accounts and refunds leave it alone. So do the contract engines if the account belongs to a key and to no
contract (`ContractExecutor.SparesOthers`): they only count the contracts that a *contract* creates.
-/

namespace L1xCore

open Fallible UpdatedState Store Platform List Option
open Account (addressOf)

variable {a b : Address} {account : Account} {amount : Balance} {crypto : Crypto} {key : VerifyingKeyBytes}
  {tx : Transaction}

/-! ## The nonce as a conserved quantity -/

namespace Store

variable {st st' : Store}

/-- The nonce at an address; an address without an account has used none. -/
def nonceAt (st : Store) (a : Address) : Nat := ((st.account a).map (·.nonce.toNat)).getD 0

theorem nonceAt_of_some (h : st.account a = some account) : st.nonceAt a = account.nonce.toNat := by
  rw [nonceAt, h]; rfl

theorem nonceAt_setAccount (h : account.nonce.toNat = st.nonceAt account.address) (a : Address) :
    (st.setAccount account).nonceAt a = st.nonceAt a := by
  by_cases ha : a = account.address
  · subst ha
    rw [nonceAt_of_some (account_setAccount_self account), h]
  · rw [nonceAt, nonceAt, account_setAccount_of_ne ha]

theorem nonceAt_mint (hf : st.AccountsFiled) (h : st.mint amount b = some st') :
    st'.nonceAt a = st.nonceAt a := by
  simp only [mint, bind_eq_bind, bind_eq_some_iff, some.injEq] at h
  obtain ⟨account, hacc, balance, -, rfl⟩ := h
  obtain rfl := hf b account hacc
  apply nonceAt_setAccount
  exact (nonceAt_of_some hacc).symm

theorem nonceAt_createAccount (h : st.createAccount (.newSystem b) = some st') :
    st'.nonceAt a = st.nonceAt a := by
  unfold createAccount at h
  split at h
  · cases h
  · next hnone =>
      cases h
      apply nonceAt_setAccount
      rw [nonceAt, hnone]
      rfl

theorem nonceAt_transfer {c : Address} (hf : st.AccountsFiled) (h : st.transfer b c amount = some st') :
    st'.nonceAt a = st.nonceAt a := by
  simp only [transfer, bind_eq_bind, bind_eq_some_iff, some.injEq] at h
  obtain ⟨account, hacc, fromBalance, -, toBalance, -, rfl⟩ := h
  obtain rfl := hf b account hacc
  generalize hdeb : ({ account with balance := fromBalance } : Account) = debited
  obtain ⟨haddr, hnonce⟩ : debited.address = account.address ∧ debited.nonce = account.nonce := by
    subst hdeb; exact ⟨rfl, rfl⟩
  have hdebit : ∀ x, (st.setAccount debited).nonceAt x = st.nonceAt x := by
    apply nonceAt_setAccount
    rw [haddr, hnonce, nonceAt_of_some hacc]
  have hpayee := payee_address hf debited c
  rw [← haddr]
  refine (nonceAt_setAccount ?_ a).trans (hdebit a)
  -- the payee is the debited account, an account with its nonce, or a new one
  show (st.payee debited debited.address c).nonce.toNat = _
  rw [hdebit, hpayee]
  unfold payee
  split
  · next hself => rw [← hself, haddr, hnonce, nonceAt_of_some hacc]
  · cases hc : st.account c with
    | none => rw [nonceAt, hc]; rfl
    | some other => rw [nonceAt_of_some hc]; rfl

theorem nonceAt_incrementNonce (hf : st.AccountsFiled) (h : st.incrementNonce b = some st') :
    st'.nonceAt a = st.nonceAt a + if a = b then 1 else 0 := by
  simp only [incrementNonce, bind_eq_bind, bind_eq_some_iff, some.injEq, BitVec.checkedAdd_eq_some] at h
  obtain ⟨account, hacc, nonce, hadd, rfl⟩ := h
  obtain rfl := hf b account hacc
  split
  · next hab =>
      subst hab
      have hself : (st.setAccount { account with nonce }).account account.address = _ :=
        account_setAccount_self { account with nonce }
      rw [nonceAt_of_some hself, nonceAt_of_some hacc]
      exact hadd
  · next hab =>
      have hother : (st.setAccount { account with nonce }).account a = st.account a :=
        account_setAccount_of_ne hab
      rw [nonceAt, nonceAt, hother, add_zero]

end Store

namespace UpdatedState

variable {db : StateTables}

/-- There is no contract at the address. -/
structure External (db : StateTables) (a : Address) (s : UpdatedState) : Prop where
  wellKeyed : s.WellKeyed
  noContract : (s.view db).contractInstance a = none

theorem external_of_entry {s s' : UpdatedState} (h : External db a s) (hkeyed : s'.WellKeyed)
    (he : s'.entry (.contractInstance a) = s.entry (.contractInstance a)) : External db a s' :=
  ⟨hkeyed, (congrArg (overlaid · (db.store.contractInstance a)) he).trans h.noContract⟩

theorem external_invariant (db : StateTables) (a : Address) : TokenInvariant db (External db a) where
  wellKeyed h := h.wellKeyed
  entry h he := external_of_entry h (fun k c hc => h.wellKeyed k c ((he k).symm.trans hc)) (he _)
  remembers h hr := ⟨hr.evolves.wellKeyed h.wellKeyed, by rw [← hr.view]; exact h.noContract⟩
  sets h hs hfits htoken := external_of_entry h ((hs.evolves fun _ => hfits).wellKeyed h.wellKeyed)
    (hs.entry_of_ne _ fun hk => by subst hk; cases htoken)

/-- **The nonce is conserved by token operations.** -/
theorem conserved_nonceAt (db : StateTables) (a : Address) : Conserved db (External db a) (·.nonceAt a) where
  toTokenInvariant := external_invariant db a
  congr h := by simp only [nonceAt, h]
  transfer hf h := nonceAt_transfer hf h
  createAccount h := nonceAt_createAccount h

theorem mint_nonceAt (amount : Balance) (a b : Address) :
    Moves (Keeps db (External db a) (·.nonceAt a)) (mint db amount b) :=
  (conserved_nonceAt db a).keeps_of_transacts (mint_transacts amount b)
    ((conserved_nonceAt db a).preserves.mint amount b)
    fun hf h => nonceAt_mint hf h

/-- An instance that is found is not the one of an address without a contract. -/
theorem readInstance_external {cx : TransactionContext} {R : UpdatedState → UpdatedState → Prop}
    [IsTrans UpdatedState R] (hpools : PoolRule cx.db R)
    (hguard : ∀ {s s'}, (External cx.db a s → R s s') → R s s') (address : Address)
    {f : ContractInstance → ExecutionOp Executed}
    (hf : ∀ i, i.instanceAddress ≠ a → Moves (TransactionContext.Along R) (f i)) :
    Moves (TransactionContext.Along R) (ExecutionOp.onState (getContractInstance cx.db address) >>= f) := by
  refine .bind_guarded (I := fun e => External cx.db a e.updatedState) hguard
    (TransactionContext.onState_along (hpools.reads (getContractInstance_remembers address))) ?_
  intro i e e' hs hrun
  apply hf
  rintro rfl
  obtain ⟨s', hread, -⟩ := run_zoom_ok hrun
  have hfound := (@getContractInstance_reads cx.db address e.updatedState).1
  rw [hread] at hfound
  have hstored : (e.updatedState.view cx.db).contractInstance address = some i := hfound.symm
  have hkey : i.instanceAddress = address :=
    (hs.wellKeyed.fits (k := .contractInstance address) hstored).key_eq
  rw [← hkey, hs.noContract] at hstored
  cases hstored

end UpdatedState

/-! ## Contract engines -/

/-- To an account that belongs to no contract a call does nothing but give it tokens. From the caller it may
    take some. -/
def Call.Spares {α : Type} (call : Call α) (crypto : Crypto) (db : StateTables) (caller a : Address) : Prop :=
  ∀ s, External db a s → External db a (runOps crypto db (call s).2 s) ∧
    ((runOps crypto db (call s).2 s).view db).nonceAt a = (s.view db).nonceAt a ∧
    (a ≠ caller → (s.view db).balanceAt a ≤ ((runOps crypto db (call s).2 s).view db).balanceAt a)

/-- The engines take tokens from the sender and from contracts only, the one nonce they count is that of a
    contract which creates another one, and they create none at the address of a key. -/
structure ContractExecutor.SparesOthers (executor : ContractExecutor) (crypto : Crypto)
    (db : StateTables) : Prop where
  deployment : ∀ {key a}, addressOf crypto key = .ok a →
    ∀ contractType (call : CallContext) accessType contractCode salt deposit,
      (executor.executeContractDeployment contractType db call accessType contractCode salt
        deposit).Spares crypto db call.accountAddress a
  init : ∀ {key a}, addressOf crypto key = .ok a →
    ∀ contractType (call : CallContext) contract arguments deposit,
      (executor.executeContractInit contractType db call contract arguments deposit).Spares crypto
        db call.accountAddress a
  functionCall : ∀ {key a}, addressOf crypto key = .ok a →
    ∀ contractType (call : CallContext) contract contractInstance function arguments deposit,
      contractInstance.instanceAddress ≠ a →
        (executor.executeContractFunctionCall contractType db call contract contractInstance function
          arguments deposit).Spares crypto db call.accountAddress a

theorem Call.perform_nonceAt {α : Type} {call : Call (Except Error α)} {db : StateTables} {caller : Address}
    (h : call.Spares crypto db caller a) :
    Moves (Keeps db (External db a) (·.nonceAt a)) (call.perform crypto db) := by
  intro s hs
  obtain ⟨hs', hnonce, -⟩ := h s hs
  exact ⟨hs', hnonce⟩

theorem executeTransaction_nonceAt {cx : TransactionContext}
    (hengines : cx.executor.SparesOthers cx.rt.crypto cx.db) (hkey : addressOf cx.rt.crypto key = .ok a)
    (tx : Transaction) {s s' : UpdatedState} {r : Except TransactionResult TransactionResult}
    (hs : External cx.db a s) (h : executeTransaction cx tx s = (r, s')) :
    External cx.db a s' ∧ (s'.view cx.db).nonceAt a = (s.view cx.db).nonceAt a := by
  have hsteps := (conserved_nonceAt cx.db a).tokenSteps
  have hcontracts : cx.ContractsKeep (Keeps cx.db (External cx.db a) (·.nonceAt a))
      (fun i => i.instanceAddress ≠ a) :=
    { deployment := fun _ _ _ _ _ _ => Call.perform_nonceAt (hengines.deployment hkey _ _ _ _ _ _)
      init := fun _ _ _ _ _ => Call.perform_nonceAt (hengines.init hkey _ _ _ _ _)
      readInstance := readInstance_external hsteps.pools fun h hs => h hs hs
      functionCall := fun contractType call contract contractInstance function arguments deposit hne =>
        have hcall : (cx.executor.executeContractFunctionCall contractType cx.db call contract
            contractInstance function arguments deposit).total.Spares cx.rt.crypto cx.db
              call.accountAddress a :=
          hengines.functionCall hkey _ _ _ _ _ _ _ hne
        Call.perform_nonceAt hcall
      mint := fun _ _ _ => mint_nonceAt _ _ _ }
  exact hsteps.executeTransaction hcontracts (fun _ _ => mint_nonceAt _ _ _) h hs

/-! ## One round -/

/-- The transaction was applied (its fee locked and its execution started), and `a` is its sender. -/
def appliedBy (crypto : Crypto) (a : Address) : Transaction × TransactionOutcome → Bool
  | (tx, .executed _) =>
    match addressOf crypto tx.verifyingKey with
    | .ok sender => a = sender
    | .error _ => false
  | _ => false

/-- The transactions of one sender, in their order. -/
def sentBy (crypto : Crypto) (sender : Address) (txs : List Transaction) : List Transaction :=
  txs.filter fun tx => addressOf crypto tx.verifyingKey = .ok sender

theorem addressOf_of_appliedBy {outcome : TransactionOutcome} (h : appliedBy crypto a (tx, outcome) = true) :
    addressOf crypto tx.verifyingKey = .ok a := by
  unfold appliedBy at h
  split at h
  · next tx' _ heq =>
      cases heq
      cases hkey : addressOf crypto tx.verifyingKey with
      | error e => rw [hkey] at h; cases h
      | ok sender =>
        rw [hkey] at h
        have hsender : a = sender := of_decide_eq_true h
        rw [hsender]
  · cases h

namespace Platform

variable (pf : Platform) (db : StateTables) (header : BlockHeader)

variable {db} {s : UpdatedState} {a : Address}

theorem lockFee_nonceAt {sender : Address} {locked : UpdatedState} (hs : s.WellKeyed)
    (hlock : (lockFee db sender tx).run s = (.ok (), locked)) :
    (locked.view db).nonceAt a = (s.view db).nonceAt a + if a = sender then 1 else 0 := by
  obtain ⟨st₁, st₂, hnonce, htransfer, hlocked⟩ := view_lockFee hlock
  have hf : (s.view db).AccountsFiled := accountsFiled_view hs
  have hf₁ : st₁.AccountsFiled := accountsFiled_incrementNonce hf hnonce
  rw [hlocked]
  exact (nonceAt_transfer hf₁ htransfer).trans (nonceAt_incrementNonce hf hnonce)

theorem lockFee_external (sender : Address) (tx : Transaction) :
    Moves (Preserves (External db a)) (lockFee db sender tx) :=
  ((external_invariant db a).preserves.incrementNonce _).bind fun _ =>
    (external_invariant db a).preserves.transfer _ _ _

/-- **One round** moves the nonce of a key holder by one if it applied a transaction of it, and else not at
    all. -/
theorem processTransaction_nonceAt (hengines : pf.executor.SparesOthers pf.rt.crypto db)
    (hkey : addressOf pf.rt.crypto key = .ok a) (tx : Transaction) (hs : External db a s) :
    External db a (pf.processTransaction db header tx s).2 ∧
    ((pf.processTransaction db header tx s).2.view db).nonceAt a = (s.view db).nonceAt a +
      if appliedBy pf.rt.crypto a (tx, (pf.processTransaction db header tx s).1) then 1 else 0 := by
  have hq := conserved_nonceAt db a
  rcases pf.processTransaction_cases db header tx s with ⟨e, hrun⟩ |
    ⟨sender, hash, locked, hsender, -, hlock, ⟨result, s', hexec, hrun⟩ | ⟨result, s', hexec, hrun⟩⟩
  · rw [hrun]
    exact ⟨hs, rfl⟩
  all_goals
    have hlocked : s.Evolves locked := (lockFee_evolves sender tx).of_run hlock
    have hcount := lockFee_nonceAt (a := a) hs.wellKeyed hlock
    have hlockedExternal : External db a locked := (lockFee_external sender tx).of_run hlock hs
    have happlied : ∀ r, (if appliedBy pf.rt.crypto a (tx, .executed r) then 1 else 0) =
        if a = sender then 1 else 0 := by
      intro r
      simp only [appliedBy, hsender, decide_eq_true_eq]
    rw [hrun, happlied, ← hcount]
  · have hdone := executeTransaction_nonceAt hengines hkey tx hlockedExternal hexec
    have hclone : (s.merge locked).Evolves s' := evolves_of_executed hlocked hexec
    have hsettled := settlePassed_keeps hq sender tx hash result hclone hdone.1
    exact ⟨hsettled.1, hsettled.2.trans hdone.2⟩
  · -- the clone is dropped, and the merged state shows the locked one
    have hmerged : Remembers db locked (s.merge locked) := remembers_merge hlocked
    have hkept := hq.keeps_of_remembers hmerged hlockedExternal
    have hsettled := settleFailed_keeps hq sender tx hash result _ hkept.1
    exact ⟨hsettled.1, hsettled.2.trans hkept.2⟩

end Platform

/-! ## What is applied -/

section

variable {outcomes : List (Transaction × TransactionOutcome)}

end

/-! ## A block -/

namespace World

/-- What `execute_block` makes of every transaction, in the order of execution. A block that was executed
    before is not executed again. -/
def outcomes (pf : Platform) (block : Block) (w : World) : List (Transaction × TransactionOutcome) :=
  if w.db.chain.isBlockExecuted block.blockHeader.blockNumber block.blockHeader.clusterAddress then []
  else if block.isSystemBlock then
    (pf.processSystemTransactions w.db.state block.blockHeader (sortByNonce block.transactions) .new).1
  else (pf.processBlock w.db.state block).1

/-- The events that `execute_block` returns are the ones of these outcomes. -/
theorem executeBlock_events {pf : Platform} {block : Block} {w w' : World}
    {events : List ExecutionEvent} (h : (executeBlock pf block).run w = (.ok events, w')) :
    events = eventsOf (outcomes pf block w) := by
  obtain ⟨_, _, hw, h⟩ := run_bind_ok h
  cases hw
  unfold outcomes
  by_cases hexecuted : w.db.chain.isBlockExecuted block.blockHeader.blockNumber
      block.blockHeader.clusterAddress = true
  · rw [if_pos hexecuted] at h ⊢
    cases h
    rfl
  · rw [if_neg hexecuted] at h ⊢
    rcases run_transaction h with ⟨_, hok, hinner⟩ | ⟨⟨_, hfailed⟩, -⟩
    · cases hok
      split at hinner
      · next hsystem =>
          rw [if_pos hsystem]
          exact (executeSystemBlockInner_ok hinner).events
      · next hsystem =>
          rw [if_neg hsystem]
          exact (executeBlockInner_ok hinner).events
    · cases hfailed

/-- Block 0 is stored, the caches are filled, and the account with address 1 has used four nonces. -/
def afterGenesis : World where
  db :=
    { state := oneAccount
      chain :=
        { ChainTables.empty with
          blockHeader := (∅ : Table BlockNumber BlockHeader).insert 0 { Small.header with blockNumber := 0 } } }
  caches :=
    { config := some ⟨[], 0, none, 0, none, none, none, none, 2, 0⟩
      denyConfig := some ⟨none, none⟩
      stakingInfo := some (.refresh ∅) }

/-- A payment of that account with its signature. -/
def signedPayment (nonce : Nonce) : Transaction :=
  { payment nonce 20 with
    signature := Small.sign (Small.key 1)
      (Small.codec.v3SignPayload (payment nonce 20).v3SignPayload) }

/-- The block after genesis with the given transactions, as its proposer sends it. -/
def proposed (transactions : List Transaction) : BlockPayload :=
  let header : BlockHeader :=
    { Small.header with
      blockHash := Small.messages.blockHash ⟨Small.header, []⟩
      numTransactions := .ofNat transactions.length }
  { block := ⟨header, transactions⟩
    signature := Small.sign (Small.key 9) (toBytes 32 header.blockHash)
    verifyingKey := Small.key 9
    sender := 9 }

end World

end L1xCore
