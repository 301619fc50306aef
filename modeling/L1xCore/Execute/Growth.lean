import L1xCore.Execute.Replay

/-!
# `Execute.Growth` — what the execution of blocks never takes away

A check that passed in one state may be relied on in a later one if what it looked at can only grow. Rows of
accounts, contracts, instances and staking records stay once they are there, a contract stays **as it is**,
a pool keeps its limits, and the nonce of an account never goes down (`StateTables.GrowsTo`). This holds for
every block, whether it is executed without an error or not (`World.executeBlock_growsTo`). Balances are left
out: they go up and down.

What a contract engine does to a nonce is not known, and may be anything that the operations of the overlay do
to it: accounts are moved tokens, created, and their nonces counted. Only an engine that writes whole accounts
could lower a nonce, and none of them does (`ContractExecutor.KeepsAccounts`).
-/

namespace L1xCore

open Fallible UpdatedState

variable {a : Address} {s c : UpdatedState} {db : StateTables} {crypto : Crypto}

/-! ## Nonces only count up -/

namespace Store

variable {st st' : Store}

theorem nonceAt_le_createAccount {account : Account} (h : st.createAccount account = some st') :
    st.nonceAt a ≤ st'.nonceAt a := by
  unfold createAccount at h
  split at h
  · cases h
  next hnone =>
  cases h
  by_cases ha : a = account.address
  · subst ha
    rw [nonceAt, hnone]
    exact Nat.zero_le _
  · rw [nonceAt, nonceAt, account_setAccount_of_ne ha]

end Store

namespace UpdatedState

/-- The nonce of `a` does not go down. -/
abbrev Counts (db : StateTables) (a : Address) : UpdatedState → UpdatedState → Prop :=
  Drops WellKeyed (fun s => (s.view db).nonceAt a) 0

theorem counts_of_transacts {x : StateOp Unit} {g : Store → Option Store} (hx : Transacts db x g)
    (hinv : Moves (Preserves WellKeyed) x)
    (hg : ∀ {st st'}, st.AccountsFiled → g st = some st' → st.nonceAt a ≤ st'.nonceAt a) :
    Moves (Counts db a) x :=
  wellKeyed_invariant.drops_of_transacts (p := (·.nonceAt a)) hx hinv hg

theorem counts_of_remembers (h : Remembers db s c) : Counts db a s c :=
  wellKeyed_invariant.drops_of_remembers (p := (·.nonceAt a)) h

theorem counts_of_accounts (h : s.Evolves c) (hsame : c.accounts = s.accounts) : Counts db a s c := by
  refine .of_eq h.wellKeyed ?_
  show ((overlaid (c.accounts.lookup a) _).map _).getD 0 = _
  rw [hsame]
  rfl

theorem counts_pools : PoolRule db (Counts db a) :=
  wellKeyed_invariant.drops_pools (p := (·.nonceAt a)) fun h => by simp only [Store.nonceAt, h]

theorem counts_createAccount (account : Account) : Moves (Counts db a) (createAccount db account) :=
  counts_of_transacts createAccount_transacts (wellKeyed_invariant.preserves.createAccount account)
    fun _ h => Store.nonceAt_le_createAccount h

theorem counts_steps : TransactionContext.TokenSteps (Counts db a) db where
  pools := counts_pools
  transfer b c amount := counts_of_transacts transfer_transacts
    (wellKeyed_invariant.preserves.transfer b c amount) fun hf h => (Store.nonceAt_transfer hf h).ge
  createSystemAccount b := counts_createAccount (.newSystem b)

theorem counts_mint (amount : Balance) (b : Address) : Moves (Counts db a) (mint db amount b) :=
  counts_of_transacts (mint_transacts amount b) (wellKeyed_invariant.preserves.mint amount b)
    fun hf h => (Store.nonceAt_mint hf h).ge

theorem counts_incrementNonce (b : Address) : Moves (Counts db a) (incrementNonce db b) :=
  counts_of_transacts incrementNonce_transacts (wellKeyed_invariant.preserves.incrementNonce b)
    fun hf h => (Nat.le_add_right _ _).trans (Store.nonceAt_incrementNonce hf h).ge

mutual

/-- No account is written as a whole. -/
def Op.KeepsAccounts : Op → Prop
  | .write (.updateAccount _) => False
  | .checkpoint ops _ => KeepAccounts ops
  | _ => True

/-- None of the operations writes a whole account. -/
def KeepAccounts : List Op → Prop
  | [] => True
  | op :: ops => op.KeepsAccounts ∧ KeepAccounts ops

end

theorem write_counts {w : WriteOp} (h : Op.KeepsAccounts (.write w)) : Moves (Counts db a) (w.run db) := by
  have hevolves : Moves Evolves (w.run db) := evolves_rule.write w
  cases w with
  | updateAccount account => exact h.elim
  | storeContract | storeContractInstance | storeStateKeyValue | deleteStateKeyValue =>
    exact fun s => counts_of_accounts (hevolves s) rfl
  | insertStakingPool pool => exact counts_pools.insertStakingPool pool
  | updateStakingPoolBlockNumber p n => exact counts_pools.updateStakingPoolBlockNumber p n
  | updateContract i p n => exact counts_pools.updateContract i p n
  | updateStakingAccount account => exact counts_pools.updateStakingAccount account
  | insertStakingAccount => exact counts_pools.updateStakingAccount _

mutual

/-- **Every operation but the write of an account** lets nonces only count up. -/
theorem Op.exec_counts (crypto : Crypto) :
    (op : Op) → op.KeepsAccounts → (s : UpdatedState) → Counts db a s (op.exec crypto db s)
  | .query q, _, s => counts_of_remembers (q.exec_remembers s)
  | .write _, h, s => write_counts h s
  | .incrementNonce b, _, s => counts_incrementNonce b s
  | .mint amount b, _, s => counts_mint amount b s
  | .transfer b c amount, _, s => counts_steps.transfer b c amount s
  | .createAccount account, _, s => counts_createAccount account s
  | .createSystemAccount b, _, s => counts_steps.createSystemAccount b s
  | .createPool .., _, s => counts_pools.createPool counts_steps.createSystemAccount _ _ _ _ _ _ _ _ _ _ _ s
  | .stake _ _ n _, _, s => counts_pools.stake (counts_steps.transfer _ _ _) n s
  | .unStake _ _ n amount, _, s => counts_pools.unStake (counts_steps.transfer _ _) n amount s
  | .createEvent event, _, s => counts_of_accounts (Op.exec_evolves crypto (.createEvent event) s) rfl
  | .storeTransactionMetadata m, _, s =>
    counts_of_accounts (Op.exec_evolves crypto (.storeTransactionMetadata m) s) rfl
  | .checkpoint ops keep, h, s => by
    have hclone := runOps_counts crypto ops h s
    cases keep with
    | false => exact refl_of (Counts db a) s
    | true =>
      have hevolves : Evolves s (runOps crypto db ops s) := runOps_evolves crypto ops s
      exact trans_of (Counts db a) hclone (counts_of_remembers (remembers_merge hevolves))

/-- **Every run** does. -/
theorem runOps_counts (crypto : Crypto) :
    (ops : List Op) → KeepAccounts ops → (s : UpdatedState) → Counts db a s (runOps crypto db ops s)
  | [], _, s => refl_of (Counts db a) s
  | op :: ops, h, s => trans_of (Counts db a) (op.exec_counts crypto h.1 s) (runOps_counts crypto ops h.2 _)

end

end UpdatedState

/-- Whatever an engine does to the overlay, it writes no account as a whole. -/
structure ContractExecutor.KeepsAccounts (executor : ContractExecutor) : Prop where
  deployment : ∀ contractType db call accessType contractCode salt deposit s,
    KeepAccounts (executor.executeContractDeployment contractType db call accessType contractCode salt
      deposit s).2
  init : ∀ contractType db call contract arguments deposit s,
    KeepAccounts (executor.executeContractInit contractType db call contract arguments deposit s).2
  functionCall : ∀ contractType db call contract contractInstance function arguments deposit s,
    KeepAccounts (executor.executeContractFunctionCall contractType db call contract contractInstance
      function arguments deposit s).2

theorem Small.platform_keepsAccounts : Small.platform.executor.KeepsAccounts :=
  ⟨fun _ _ _ _ _ _ _ _ => trivial, fun _ _ _ _ _ _ _ => trivial,
    fun _ _ _ _ _ _ _ _ _ => ⟨trivial, trivial, trivial⟩⟩

theorem executeTransaction_counts {cx : TransactionContext} (hengines : cx.executor.KeepsAccounts)
    {tx : Transaction} {s s' : UpdatedState} {r : Except TransactionResult TransactionResult}
    (h : executeTransaction cx tx s = (r, s')) : Counts cx.db a s s' := by
  have hcontracts : cx.ContractsKeep (Counts cx.db a) fun _ => True :=
    { deployment := fun _ _ _ _ _ _ s => runOps_counts _ _ (hengines.deployment _ _ _ _ _ _ _ s) s
      init := fun _ _ _ _ _ s => runOps_counts _ _ (hengines.init _ _ _ _ _ _ s) s
      readInstance := fun _ => counts_steps.rule.readInstance
      functionCall := fun _ _ _ _ _ _ _ _ s => runOps_counts _ _ (hengines.functionCall _ _ _ _ _ _ _ _ s) s
      mint := fun _ _ _ => counts_mint _ _ }
  exact counts_steps.executeTransaction hcontracts (fun _ _ => counts_mint _ _) h

/-! ## What grows -/

namespace StateTables

/-- Nothing that later checks rely on was taken away. -/
structure GrowsTo (db db' : StateTables) : Prop where
  account : ∀ {a row}, db.account.lookup a = some row → ∃ row', db'.account.lookup a = some row' ∧
    row.nonce ≤ row'.nonce
  contract : ∀ {a row}, db.contract.lookup a = some row → db'.contract.lookup a = some row
  contractInstance : ∀ {a}, db.isValidContractInstance a = true → db'.isValidContractInstance a = true
  stakingPool : ∀ {a row}, db.stakingPool.lookup a = some row → ∃ updatedBlockNumber contractInstanceAddress,
    db'.stakingPool.lookup a = some { row with updatedBlockNumber, contractInstanceAddress }
  stakingAccount : ∀ {k staked}, db.stakingAccount.lookup k = some staked →
    ∃ staked', db'.stakingAccount.lookup k = some staked'

variable {db' db'' : StateTables}

theorem GrowsTo.refl : GrowsTo db db :=
  ⟨fun h => ⟨_, h, BitVec.le_refl _⟩, id, id, fun h => ⟨_, _, h⟩, fun h => ⟨_, h⟩⟩

theorem GrowsTo.trans (h : GrowsTo db db') (h' : GrowsTo db' db'') : GrowsTo db db'' where
  account hrow := by
    obtain ⟨row', hrow', hnonce⟩ := h.account hrow
    obtain ⟨row'', hrow'', hnonce'⟩ := h'.account hrow'
    exact ⟨row'', hrow'', BitVec.le_trans hnonce hnonce'⟩
  contract hrow := h'.contract (h.contract hrow)
  contractInstance hvalid := h'.contractInstance (h.contractInstance hvalid)
  stakingPool hrow := by
    obtain ⟨_, _, hrow'⟩ := h.stakingPool hrow
    obtain ⟨_, _, hrow''⟩ := h'.stakingPool hrow'
    exact ⟨_, _, hrow''⟩
  stakingAccount hrow := by
    obtain ⟨_, hrow'⟩ := h.stakingAccount hrow
    exact h'.stakingAccount hrow'

theorem isValidContractInstance_iff : db.isValidContractInstance a = true ↔ instanceRows db a ≠ [] := by
  rw [isValidContractInstance, List.any_eq_true, instanceRows, ne_eq, List.filterMap_eq_nil_iff]
  constructor
  · rintro ⟨row, hrow, ha⟩ hnone
    have h := hnone row hrow
    rw [if_pos (of_decide_eq_true ha)] at h
    cases h
  · intro h
    by_contra hall
    refine h fun row hrow => if_neg fun ha => hall ⟨row, hrow, decide_eq_true ha⟩

/-- **A commit only adds.** -/
theorem Committed.growsTo (h : s.Committed db db') (hnonces : ∀ a, Counts db a .new s) :
    GrowsTo db db' where
  account := by
    intro a row hrow
    rw [h.account a, hrow]
    have hbase : (new.view db).nonceAt a = row.nonce.toNat := by
      show ((db.store.account a).map (·.nonce.toNat)).getD 0 = _
      rw [store]
      simp only [getAccount, hrow]
      rfl
    cases hentry : s.accounts.lookup a with
    | none => exact ⟨row, rfl, BitVec.le_refl _⟩
    | some c =>
      rcases c with (_ | account) | account
      · exact ⟨row, rfl, BitVec.le_refl _⟩
      · refine ⟨_, rfl, ?_⟩
        obtain ⟨-, hahead⟩ := hnonces a wellKeyed_new
        dsimp only at hahead
        rw [hbase] at hahead
        have hview : (s.view db).nonceAt a = account.nonce.toNat := by
          show ((overlaid (s.accounts.lookup a) _).map (·.nonce.toNat)).getD 0 = _
          rw [hentry]
          rfl
        rw [hview] at hahead
        exact BitVec.le_def.mpr hahead
      · exact ⟨row, rfl, BitVec.le_refl _⟩
  contract := by
    intro a row hrow
    rw [h.contract a, hrow]
    cases s.contracts.lookup a with
    | none => rfl
    | some c => rcases c with (_ | contract) | contract <;> rfl
  contractInstance := by
    intro a hvalid
    rw [isValidContractInstance_iff] at hvalid ⊢
    rw [h.contractInstance a]
    cases s.contractInstances.lookup a with
    | none => exact hvalid
    | some c =>
      rcases c with (_ | i) | i
      · exact hvalid
      · show (contractInstanceEffect _ _).getD _ ≠ []
        unfold contractInstanceEffect
        dsimp only
        split
        · exact hvalid
        · exact List.cons_ne_nil _ _
      · exact hvalid
  stakingPool := by
    intro a row hrow
    rw [h.stakingPool a, hrow]
    cases s.stakingPools.lookup a with
    | none => exact ⟨_, _, rfl⟩
    | some c => rcases c with (_ | pool) | pool <;> exact ⟨_, _, rfl⟩
  stakingAccount := by
    intro k staked hrow
    rw [h.stakingAccount k, hrow]
    cases s.stakingAccounts.lookup₂ k.1 k.2 with
    | none => exact ⟨_, rfl⟩
    | some c => rcases c with (_ | stakingAccount) | stakingAccount <;> exact ⟨_, rfl⟩

end StateTables

namespace Platform

variable {pf : Platform} {header : BlockHeader} {tx : Transaction}

theorem storeTransactionMetadata_counts (metadata : TransactionMetadata) :
    Moves (Counts db a) (storeTransactionMetadata metadata) :=
  fun s => counts_of_accounts (storeTransactionMetadata_evolves s) rfl

theorem refundFee_counts (sender : Address) (fee : Balance) :
    Moves (Counts db a) (refundFee db sender tx fee) :=
  (Moves.okOr _ _).bind fun _ => counts_steps.transfer _ _ _

theorem counts_merge (h : s.Evolves c) : Counts db a c (s.merge c) :=
  counts_of_remembers (remembers_merge h)

/-! ## Regular blocks -/

theorem processTransaction_counts (hengines : pf.executor.KeepsAccounts) :
    Counts db a s (pf.processTransaction db header tx s).2 := by
  rcases pf.processTransaction_cases db header tx s with ⟨e, hrun⟩ |
    ⟨sender, hash, locked, -, -, hlock, hend⟩
  · rw [hrun]
    exact refl_of (Counts db a) s
  have hlocked : s.Evolves locked := (lockFee_evolves sender tx).of_run hlock
  have hlocks : Counts db a s locked :=
    ((counts_incrementNonce sender).bind fun _ => counts_steps.transfer _ _ _).of_run hlock
  refine trans_of (Counts db a) hlocks ?_
  rcases hend with ⟨result, s', hexec, hrun⟩ | ⟨result, s', hexec, hrun⟩
  · have hclone : (s.merge locked).Evolves s' := evolves_of_executed hlocked hexec
    rw [hrun]
    exact trans_of (Counts db a) (executeTransaction_counts hengines hexec)
      (settlePassed_rule counts_of_remembers (refundFee_counts sender _)
        (storeTransactionMetadata_counts _) hclone)
  · rw [hrun]
    exact trans_of (Counts db a) (counts_merge hlocked)
      ((refundFee_counts sender _).bind (fun _ => storeTransactionMetadata_counts _) _)

theorem processTransactions_counts (hengines : pf.executor.KeepsAccounts) (txs : List Transaction) :
    Counts db a s (pf.processTransactions db header txs s).2 := by
  induction txs generalizing s with
  | nil => exact refl_of (Counts db a) s
  | cons tx txs ih => exact trans_of (Counts db a) (processTransaction_counts hengines) ih

/-! ## System blocks -/

theorem processSystemTransaction_counts (hengines : pf.executor.KeepsAccounts) :
    Counts db a s (pf.processSystemTransaction db header tx s).2 := by
  unfold processSystemTransaction
  cases Account.addressOf pf.rt.crypto tx.verifyingKey with
  | error e => exact refl_of (Counts db a) s
  | ok sender =>
  cases tx.transactionHash pf.rt.crypto pf.rt.codec with
  | error e => exact refl_of (Counts db a) s
  | ok hash =>
  dsimp only
  rcases hcount : (incrementNonce db sender).run s with ⟨e | ⟨⟩, counted⟩
  · exact refl_of (Counts db a) s
  dsimp only
  have hcounted : s.Evolves counted := (tokens_evolve.incrementNonce sender).of_run hcount
  refine trans_of (Counts db a) ((counts_incrementNonce sender).of_run hcount) ?_
  rcases hexec : executeTransaction (pf.transactionContext db header sender) tx counted with
    ⟨result | result, s'⟩
  · exact trans_of (Counts db a) (counts_merge hcounted) (storeTransactionMetadata_counts _ _)
  · have hclone : (s.merge counted).Evolves s' := evolves_of_executed hcounted hexec
    exact trans_of (Counts db a) (executeTransaction_counts hengines hexec)
      (trans_of (Counts db a) (counts_merge hclone) (storeTransactionMetadata_counts _ _))

theorem processSystemTransactions_counts (hengines : pf.executor.KeepsAccounts) (txs : List Transaction) :
    Counts db a s (pf.processSystemTransactions db header txs s).2 := by
  induction txs generalizing s with
  | nil => exact refl_of (Counts db a) s
  | cons tx txs ih => exact trans_of (Counts db a) (processSystemTransaction_counts hengines) ih

end Platform

/-! ## Blocks -/

namespace World

variable {pf : Platform} {w : World}

theorem commit_growsTo {db' : StateTables} (hnonces : ∀ a, Counts db a .new s)
    (h : s.commit.run db = (.ok (), db')) : db.GrowsTo db' := by
  obtain ⟨hs, -⟩ := hnonces 0 wellKeyed_new
  by_cases hc : s.Committable db
  · obtain ⟨found, hfound, hcommitted⟩ := commit_ok hs hc
    cases h.symm.trans hfound
    exact StateTables.Committed.growsTo hcommitted hnonces
  · obtain ⟨e, found, hfound⟩ := commit_error hs hc
    cases h.symm.trans hfound

/-- **Blocks only add**, whatever their execution returns. -/
theorem executeBlock_growsTo (hengines : pf.executor.KeepsAccounts) (block : Block) :
    w.db.state.GrowsTo ((executeBlock pf block).run w).2.db.state := by
  rcases hrun : (executeBlock pf block).run w with ⟨r, w'⟩
  rw [executeBlock, run_bind_of_ok (run_state w)] at hrun
  split at hrun
  · cases hrun
    exact .refl
  · rcases run_transaction hrun with ⟨events, -, hinner⟩ | ⟨-, hdb⟩
    · split at hinner
      · exact commit_growsTo (fun _ => Platform.processSystemTransactions_counts hengines _)
          (executeSystemBlockInner_ok hinner).state
      · exact commit_growsTo (fun _ => Platform.processTransactions_counts hengines _)
          (executeBlockInner_ok hinner).state
    · rw [hdb]
      exact .refl

end World

end L1xCore
