import L1xCore.Execute.Conserved

/-!
# `Execute.Supply` — blocks without contracts conserve the native supply

A block whose transactions run no contract moves tokens between accounts, pools and stakers. The sum of
all balances is followed through it: every operation such a transaction performs keeps the sum, in the
error paths as well, except for a mint, which adds its amount.

The sum is the supply of the view (`Store.supply`) while the block runs, and the sum over the account
table before and after. The two agree at a commit as long as the overlay says of accounts what the
database says (`TokensOnly`).
-/

namespace L1xCore

open Fallible UpdatedState StateTables Store

variable {e e' : Execution} {event : Option ExecutionEvent} {db' : StateTables}

/-- The sum over the account table. -/
def StateTables.totalBalance (db : StateTables) : Nat := db.account.sumBy (·.balance.toNat)

namespace UpdatedState

variable {db : StateTables} {s s' : UpdatedState} {a : Address}

/-- What is remembered of an account is what the database holds, and no contract or instance is
    waiting to be written. -/
structure TokensOnly (db : StateTables) (s : UpdatedState) : Prop where
  wellKeyed : s.WellKeyed
  account : ∀ a v, s.entry (.account a) = some (.cached v) → db.record (.account a) = some v
  contract : ∀ a c, s.entry (.contract a) = some c → c.isUpdated = false
  contractInstance : ∀ a c, s.entry (.contractInstance a) = some c → c.isUpdated = false

theorem tokensOnly_new (db : StateTables) : TokensOnly db new where
  wellKeyed := wellKeyed_new
  account a v h := by rw [entry_new] at h; cases h
  contract a c h := by rw [entry_new] at h; cases h
  contractInstance a c h := by rw [entry_new] at h; cases h

theorem TokensOnly.remembers (h : TokensOnly db s) (hr : Remembers db s s') : TokensOnly db s' where
  wellKeyed := hr.evolves.wellKeyed h.wellKeyed
  account a v hv := by
    rcases hr.entry (.account a) with he | ⟨-, w, he, hw⟩
    · exact h.account a v (he.symm.trans hv)
    · cases he.symm.trans hv; exact hw
  contract a c hc := by
    rcases hr.entry (.contract a) with he | ⟨-, w, he, -⟩
    · exact h.contract a c (he.symm.trans hc)
    · cases he.symm.trans hc; rfl
  contractInstance a c hc := by
    rcases hr.entry (.contractInstance a) with he | ⟨-, w, he, -⟩
    · exact h.contractInstance a c (he.symm.trans hc)
    · cases he.symm.trans hc; rfl

theorem TokensOnly.sets {k : RecordKey} {v : Option k.Value} (h : TokensOnly db s)
    (hs : Sets s k (.updated v) s') (hfits : Fits k (.updated v)) (htoken : k.isToken = true) :
    TokensOnly db s' where
  wellKeyed := (hs.evolves fun _ => hfits).wellKeyed h.wellKeyed
  account a w hw := by
    by_cases hk : .account a = k
    · subst hk; cases hs.entry_self.symm.trans hw
    · exact h.account a w ((hs.entry_of_ne _ hk).symm.trans hw)
  contract a c hc := h.contract a c ((hs.entry_of_ne _ fun hk => by subst hk; cases htoken).symm.trans hc)
  contractInstance a c hc :=
    h.contractInstance a c ((hs.entry_of_ne _ fun hk => by subst hk; cases htoken).symm.trans hc)

/-- **The supply is conserved by token operations.** -/
theorem conserved_supply (db : StateTables) : Conserved db (TokensOnly db) supply where
  wellKeyed h := h.wellKeyed
  entry h he :=
    { wellKeyed := fun k c hc => h.wellKeyed k c ((he k).symm.trans hc)
      account := fun a v hv => h.account a v ((he _).symm.trans hv)
      contract := fun a c hc => h.contract a c ((he _).symm.trans hc)
      contractInstance := fun a c hc => h.contractInstance a c ((he _).symm.trans hc) }
  remembers h hr := h.remembers hr
  sets h hs hfits htoken := h.sets hs hfits htoken
  congr h := supply_congr h
  transfer hf h := supply_transfer hf h
  createAccount h := supply_createAccount rfl h

theorem incrementNonce_supply : Moves (Keeps db (TokensOnly db) supply) (incrementNonce db a) :=
  (conserved_supply db).keeps_of_transacts incrementNonce_transacts
    ((conserved_supply db).preserves.incrementNonce a)
    fun hf h => supply_incrementNonce hf h

end UpdatedState

/-! ## One transaction -/

namespace TransactionContext

variable {cx : TransactionContext} {tx : Transaction}

/-- **One execution that passed**: the supply grew by the amount of a mint, or not at all. -/
theorem executeBody_supply (hnative : tx.isNative = true) (htokens : e.updatedState.TokensOnly cx.db)
    (hrun : (cx.executeBody tx).run e = (.ok (.ok (), event), e')) :
    e'.updatedState.TokensOnly cx.db ∧
      (e'.updatedState.view cx.db).supply = (e.updatedState.view cx.db).supply +
        if isMintTx cx.accountAddress tx then tx.amount.toNat else 0 := by
  -- what comes before the kind's own work keeps the supply
  have hq := conserved_supply cx.db
  let R := Along (Keeps cx.db (TokensOnly cx.db) supply)
  obtain ⟨fee, e₁, h₁, hrun⟩ := Moves.bind_ok (R := R) (.okOr _ _) hrun
  obtain ⟨_, e₂, h₂, hrun⟩ := Moves.bind_ok (R := R) (chargeFee_along fee) hrun
  obtain ⟨hash, e₃, h₃, hrun⟩ := Moves.bind_ok (R := R) (.lift _) hrun
  obtain ⟨nonce, e₄, h₄, hrun⟩ := hq.tokenSteps.rule.getNonce.bind_ok hrun
  have hbefore : R e e₄ := trans_of R (trans_of R h₁ h₂) (trans_of R h₃ h₄)
  obtain ⟨htokens₄, hsupply₄⟩ := hbefore htokens
  by_cases hmint : isMintTx cx.accountAddress tx = true
  · rw [if_pos hmint, ← hsupply₄]
    unfold isMintTx at hmint
    cases hkind : tx.transactionType with
    | nativeTokenTransfer recipient amount =>
      rw [hkind] at hmint
      have hamount : tx.amount = amount := by rw [Transaction.amount, hkind]
      rw [executeKind, hkind] at hrun
      obtain ⟨_, e₅, h₅, hrun⟩ := Moves.bind_ok (R := R) (chargeFee_along _) hrun
      obtain ⟨htokens₅, hsupply₅⟩ := h₅ htokens₄
      obtain ⟨_, e₆, htransfer, hrun⟩ := run_bind_ok hrun
      obtain ⟨s₆, hstate, rfl⟩ := run_zoom_ok (run_mapError_ok htransfer)
      rw [executeNativeTokenTransfer, if_pos hmint] at hstate
      cases hrun
      rw [hamount, ← hsupply₅]
      -- a mint that succeeds adds its amount
      obtain ⟨st, hst, hv⟩ := (mint_transacts _ _).ok hstate
      refine ⟨((conserved_supply _).preserves.mint _ _).of_run hstate htokens₅, ?_⟩
      rw [hv]
      exact supply_mint (accountsFiled_view htokens₅.wellKeyed) hst
    | _ => rw [hkind] at hmint; cases hmint
  · have hnone : tx.isNative = false → cx.ContractsKeep (Keeps cx.db (TokensOnly cx.db) supply) fun _ => True :=
      fun h => absurd (hnative.symm.trans h) (by decide)
    have hkeeps := hq.tokenSteps.executeKind hnone (fun h => absurd h hmint) hash nonce
    rw [if_neg hmint, ← hsupply₄, add_zero]
    exact hkeeps.of_run hrun htokens₄

end TransactionContext

/-- **One transaction that passed.** -/
theorem executeTransaction_supply {cx : TransactionContext} {tx : Transaction}
    (hnative : tx.isNative = true) {s s' : UpdatedState} {result : TransactionResult}
    (htokens : s.TokensOnly cx.db) (hrun : executeTransaction cx tx s = (.ok result, s')) :
    s'.TokensOnly cx.db ∧ (s'.view cx.db).supply = (s.view cx.db).supply +
      if isMintTx cx.accountAddress tx then tx.amount.toNat else 0 := by
  rcases hbody : (cx.executeBody tx).run ⟨s, .new tx.feeLimit⟩ with ⟨e | ⟨e | ⟨⟩, event⟩, e'⟩ <;>
    simp only [executeTransaction, hbody] at hrun
  · cases hrun
  · cases hrun
  · cases hrun
    exact TransactionContext.executeBody_supply (e := ⟨s, .new tx.feeLimit⟩) hnative htokens hbody

/-! ## One round, and the whole block -/

/-- What the round of a transaction minted. -/
def mintedBy (crypto : Crypto) : Transaction × TransactionOutcome → Nat
  | (tx, .executed (.ok _)) =>
    match Account.addressOf crypto tx.verifyingKey with
    | .ok sender => if isMintTx sender tx then tx.amount.toNat else 0
    | .error _ => 0
  | _ => 0

/-- The amounts of the mint transactions that passed. -/
def minted (crypto : Crypto) (outcomes : List (Transaction × TransactionOutcome)) : Nat :=
  (outcomes.map (mintedBy crypto)).sum

namespace Platform

variable (pf : Platform) {db : StateTables} (header : BlockHeader)

theorem lockFee_supply (sender : Address) (tx : Transaction) :
    Moves (Keeps db (TokensOnly db) supply) (lockFee db sender tx) :=
  incrementNonce_supply.bind fun _ =>
    (conserved_supply db).transfer_keeps _ _ _

/-- **One round** of a transaction that runs no contract: the supply grows by what was minted. -/
theorem processTransaction_supply {tx : Transaction} (hnative : tx.isNative = true)
    {s : UpdatedState} (htokens : s.TokensOnly db) :
    (pf.processTransaction db header tx s).2.TokensOnly db ∧
      ((pf.processTransaction db header tx s).2.view db).supply = (s.view db).supply +
        mintedBy pf.rt.crypto (tx, (pf.processTransaction db header tx s).1) := by
  rcases pf.processTransaction_cases db header tx s with ⟨e, hrun⟩ |
    ⟨sender, hash, locked, hkey, -, hlock, ⟨result, s', hexec, hrun⟩ | ⟨result, s', hexec, hrun⟩⟩
  · rw [hrun]
    exact ⟨htokens, (add_zero _).symm⟩
  · -- passed: the lock keeps the supply, the execution may mint, the settlement keeps it again
    have hlocked : s.Evolves locked := (lockFee_evolves sender tx).of_run hlock
    obtain ⟨htokens₁, hsupply₁⟩ := (lockFee_supply sender tx).of_run hlock htokens
    obtain ⟨htokens₂, hsupply₂⟩ : s'.TokensOnly db ∧ (s'.view db).supply = (locked.view db).supply +
        if isMintTx sender tx then tx.amount.toNat else 0 :=
      executeTransaction_supply hnative htokens₁ hexec
    have hclone : (s.merge locked).Evolves s' := evolves_of_executed hlocked hexec
    obtain ⟨htokens₃, hsupply₃⟩ := settlePassed_keeps (conserved_supply db) sender tx hash
      result hclone htokens₂
    rw [hrun]
    refine ⟨htokens₃, ?_⟩
    rw [hsupply₃, hsupply₂, hsupply₁]
    simp only [mintedBy, hkey]
  · -- failed: the clone is dropped
    have hlocked : s.Evolves locked := (lockFee_evolves sender tx).of_run hlock
    have hmerged : Remembers db locked (s.merge locked) := remembers_merge hlocked
    have hq := conserved_supply db
    obtain ⟨htokens₁, hsupply₁⟩ := (lockFee_supply sender tx).of_run hlock htokens
    obtain ⟨htokens₂, hsupply₂⟩ := hq.keeps_of_remembers hmerged htokens₁
    obtain ⟨htokens₃, hsupply₃⟩ := settleFailed_keeps hq sender tx hash result _ htokens₂
    rw [hrun]
    refine ⟨htokens₃, ?_⟩
    rw [hsupply₃, hsupply₂, hsupply₁]
    exact (add_zero _).symm

/-- **The loop**, by induction over the transactions. -/
theorem processTransactions_supply (txs : List Transaction) :
    ∀ s, (∀ tx ∈ txs, tx.isNative = true) → s.TokensOnly db →
      (pf.processTransactions db header txs s).2.TokensOnly db ∧
      ((pf.processTransactions db header txs s).2.view db).supply = (s.view db).supply +
        minted pf.rt.crypto (pf.processTransactions db header txs s).1 := by
  induction txs with
  | nil =>
    intro s _ htokens
    exact ⟨htokens, (add_zero _).symm⟩
  | cons tx txs ih =>
    intro s hnative htokens
    obtain ⟨htokens₁, hsupply₁⟩ := pf.processTransaction_supply header (hnative tx List.mem_cons_self) htokens
    obtain ⟨htokens₂, hsupply₂⟩ := ih _ (fun tx' htx' => hnative tx' (List.mem_cons_of_mem tx htx')) htokens₁
    refine ⟨htokens₂, ?_⟩
    have hminted : minted pf.rt.crypto (pf.processTransactions db header (tx :: txs) s).1 =
        mintedBy pf.rt.crypto (tx, (pf.processTransaction db header tx s).1) +
          minted pf.rt.crypto (pf.processTransactions db header txs
            (pf.processTransaction db header tx s).2).1 := rfl
    rw [hminted, ← add_assoc, ← hsupply₁]
    exact hsupply₂

end Platform

/-! ## The commit -/

namespace UpdatedState

variable {db : StateTables} {s : UpdatedState}

theorem TokensOnly.committable (h : TokensOnly db s) : s.Committable db where
  contract a c hc := by
    have hcached := h.contract a c hc
    cases c with
    | cached v => rfl
    | updated v => cases hcached
  contractInstance a c hc := by
    have hcached := h.contractInstance a c hc
    cases c with
    | cached v => rfl
    | updated v => cases hcached

/-- After the commit an account has the balance that the overlay showed. -/
theorem TokensOnly.balance_committed (h : TokensOnly db s) (hd : Committed s db db') (a : Address) :
    ((db'.account.lookup a).map (·.balance.toNat)).getD 0 = (s.view db).balanceAt a := by
  rw [hd.account]
  cases he : s.accounts.lookup a with
  | none =>
    have hread : (s.view db).account a = db.store.account a := congrArg (overlaid · _) he
    rw [balanceAt, hread]
    cases hrow : db.account.lookup a <;>
      simp [applied, store, StateTables.getAccount, hrow, Except.toOption]
  | some c =>
    have hread : (s.view db).account a = c.getInner := congrArg (overlaid · _) he
    rw [balanceAt, hread]
    cases c with
    | cached v =>
      -- the row is left alone, and it is the row that was remembered
      have hv := h.account a v he
      cases hrow : db.account.lookup a <;>
        simp only [record, StateTables.getAccount, hrow, Except.toOption] at hv
      · cases hv
      · cases hv; rfl
    | updated v =>
      obtain ⟨account, hv, -⟩ := h.wellKeyed (.account a) (.updated v) he
      cases hv
      cases hrow : db.account.lookup a <;> rfl

theorem TokensOnly.totalBalance_committed (h : TokensOnly db s) (hd : Committed s db db') :
    db'.totalBalance = (s.view db).supply := by
  rw [totalBalance, AList.sumBy_eq_sum, supply]
  exact Finset.sum_congr rfl fun a _ => h.balance_committed hd a

end UpdatedState

theorem StateTables.supply_store (db : StateTables) : db.store.supply = db.totalBalance := by
  rw [totalBalance, AList.sumBy_eq_sum, supply]
  refine Finset.sum_congr rfl fun a _ => ?_
  rw [balanceAt]
  cases hrow : db.account.lookup a <;>
    simp [store, getAccount, hrow, Except.toOption]

namespace World

/-- A block whose commit succeeds: the tables are the committed ones, whatever becomes of the caches. -/
theorem run_executeBlockInner {pf : Platform} {block : Block} {w : World} {state' : StateTables}
    (h : (pf.processBlock w.db.state block).2.commit.run w.db.state = (.ok (), state')) :
    ∃ events w', (executeBlockInner pf block).run w = (.ok events, w') ∧ w'.db.state = state' := by
  rcases hblock : pf.processBlock w.db.state block with ⟨outcomes, updatedState⟩
  rw [hblock] at h
  -- the caches are filled first; the tables are not touched by that
  rcases hcaches : (applySystemContractsChanges pf updatedState block.blockHeader).run w with ⟨r, w₁⟩
  have hdb : w₁.db = w.db := congrArg (·.2.db) hcaches.symm
  have houtcome : (applySystemContractsChanges pf updatedState block.blockHeader).outcome.run w =
      (.ok r, w₁) := by rw [run_outcome, hcaches]
  have hcommit : (mapError ("Could not commit Block state, error: " ++ ·)
      (onState updatedState.commit)).run w₁ = (.ok (), { w₁ with db.state := state' }) := by
    rw [run_mapError, onState, run_zoom, hdb, h]
    rfl
  unfold executeBlockInner
  rw [run_bind_of_ok (run_state w), hblock]
  rw [run_bind_of_ok houtcome, commitBlock, run_bind, run_bind_of_ok hcommit]
  exact ⟨_, _, rfl, rfl⟩

/-- **Native supply is conserved.** A block whose transactions run no contract, in any number and order
    and with any outcomes, is executed and committed, and the sum of all balances afterwards is the sum
    before plus the amounts of the mint transactions that passed. -/
theorem supply_conserved (pf : Platform) (block : Block) (w : World)
    (hnative : ∀ tx ∈ block.transactions, tx.isNative = true) :
    ∃ events w', (executeBlockInner pf block).run w = (.ok events, w') ∧
      w'.db.state.totalBalance = w.db.state.totalBalance +
        minted pf.rt.crypto (pf.processBlock w.db.state block).1 := by
  have hsorted : ∀ tx ∈ Platform.sortByNonce block.transactions, tx.isNative = true := by
    intro tx htx
    exact hnative tx ((List.mem_insertionSort _).mp htx)
  obtain ⟨htokens, hsupply⟩ := pf.processTransactions_supply block.blockHeader _ .new hsorted
    (tokensOnly_new w.db.state)
  obtain ⟨state', hcommit, hcommitted⟩ := commit_ok htokens.wellKeyed htokens.committable
  have htotal := htokens.totalBalance_committed hcommitted
  obtain ⟨events, w', hrun, hstate⟩ := run_executeBlockInner hcommit
  refine ⟨events, w', hrun, ?_⟩
  have hstart : ((new.view w.db.state).supply) = w.db.state.totalBalance := w.db.state.supply_store
  rw [hstate, htotal, hsupply, hstart]
  rfl

/-- The account with address 1 and the mint master, who has enough for the fee. -/
def twoAccounts : World where
  db :=
    { state :=
        { StateTables.empty with
          account := ((∅ : Table Address AccountRow).insert 1 ⟨.user, 100, 4⟩).insert
            MINT_MASTER_ADDRESS ⟨.user, 20, 0⟩ }
      chain := .empty }
  caches := ⟨none, none, none⟩

/-- A mint between two payments, of which the second asks for too much. -/
def mintBlock : Block where
  blockHeader := Small.header
  transactions :=
    [Platform.payment 5 60,
      { version := .V3, nonce := 1, transactionType := .nativeTokenTransfer MINT_MASTER_ADDRESS 1000,
        feeLimit := 10, signature := [], ethOriginalTransaction := none,
        -- the key whose address in the small runtime is the mint master's
        verifyingKey := List.replicate 13 0 ++
          [176, 13, 25, 84, 93, 1, 15, 15, 109, 199, 149, 189, 243, 101, 52, 77, 172, 219, 239, 143] },
      Platform.payment 6 60]

theorem mintBlock_conserves :
    minted Small.platform.rt.crypto (Small.platform.processBlock twoAccounts.db.state mintBlock).1 = 1000 ∧
    ∃ events w', (executeBlockInner Small.platform mintBlock).run twoAccounts = (.ok events, w') ∧
      w'.db.state.totalBalance = twoAccounts.db.state.totalBalance +
        minted Small.platform.rt.crypto (Small.platform.processBlock twoAccounts.db.state mintBlock).1 := by
  refine ⟨?_, ?_⟩
  · decide +kernel
  · exact supply_conserved Small.platform mintBlock twoAccounts (by decide)

end World

end L1xCore
