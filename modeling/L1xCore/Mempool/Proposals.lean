import L1xCore.Consensus.Consensus
import L1xCore.Execute.Growth
import L1xCore.Lib.Triple
import L1xCore.Mempool.Mempool

/-!
# `Mempool.Proposals` — whether peers accept what a proposer takes from its mempool

A transaction was validated when it arrived, in an older state. The proposer looks at it once more, at its
nonce and at what it may cost, and its peers validate it in the state before the block. What validation looks
at besides these two can only grow (`StateTables.GrowsTo`), so **token transfers**, the creation of a pool and
its contract always pass. The other kinds depend on what the proposer does not count: the deposit of a
contract kind, and the pool and the balances of a stake (`validateTx_included_iff`).
-/

namespace L1xCore.Mempool

open Fallible StateTables Triple World Validate Except List BitVec
open Account (addressOf)

variable {tx : Transaction} {account : Account} {contractType : ContractType} {w : World}
  {currentTime : TimeStamp} {included : List Transaction} {arguments : ContractArgument}
  {s : Mempool × World}

/-! ## What is in the queue -/

/-- Every transaction in the list has the property. -/
def AllQueued (P : Transaction → Prop) (p : Mempool) : Prop := ∀ e ∈ p.transactionsPriority, P e.1

variable {P : Transaction → Prop} {crypto : Crypto} {p : Mempool}

theorem AllQueued.filter {keep : Transaction × TimeStamp → Bool} (h : AllQueued P p)
    {p' : Mempool} (hp : p'.transactionsPriority = p.transactionsPriority.filter keep) : AllQueued P p' := by
  intro e he
  rw [hp] at he
  exact h e (mem_of_mem_filter he)

theorem getConflicts_triple :
    Triple (Preserves (AllQueued P)) (AllQueued P) (getConflicts crypto tx)
      (fun conflicts _ => ∀ e ∈ conflicts, P e.1) := by
  intro p hp
  refine ⟨fun h => h.filter rfl, fun conflicts p' hrun => ?_⟩
  cases hrun
  intro e he
  exact hp e (mem_of_mem_filter he)

theorem handleConflicts_mem (conflicts : List (Transaction × TimeStamp)) (newTx : Transaction × TimeStamp) :
    handleConflicts conflicts newTx = newTx ∨ handleConflicts conflicts newTx ∈ conflicts := by
  unfold handleConflicts
  induction conflicts using reverseRecOn with
  | nil => exact .inl rfl
  | append_singleton conflicts conflict ih =>
    rw [foldl_append]
    show (if newTx.1.feeLimit < conflict.1.feeLimit then _ else _) = _ ∨ (if _ then _ else _) ∈ _
    split
    · exact .inr (mem_append_right _ (mem_singleton_self conflict))
    · exact ih.imp_right (mem_append_left _)

theorem resolveConflicts_triple (htx : P tx) (currentTime : TimeStamp) :
    Triple (Preserves (AllQueued P)) (AllQueued P) (resolveConflicts crypto currentTime tx)
      (fun entry _ => P entry.1) := by
  refine bind getConflicts_triple fun conflicts => ?_
  split
  · exact pure fun _ _ => htx
  · have hloop : Moves (Preserves (AllQueued P)) (forEach conflicts (removeConflict crypto)) := by
      refine .forEach (fun conflict => ?_) conflicts
      refine (Moves.lift _).bind fun sender => .update fun p h => ?_
      split
      · exact h
      · exact h
    refine (hloop.triple fun _ _ _ h => h).bind fun _ => pure fun _ hconflicts => ?_
    rcases handleConflicts_mem conflicts (tx, currentTime) with hnew | hold
    · rw [hnew]
      exact htx
    · exact hconflicts _ hold

theorem insertTransaction_triple {entry : Transaction × TimeStamp} {sender : Address} :
    Triple (Preserves (AllQueued P)) (fun _ => P entry.1) (insertTransaction sender entry)
      (fun _ _ => True) := by
  refine bind (update (Q := fun _ _ => P entry.1) fun p h => ⟨fun hp => hp, h⟩) fun _ => ?_
  refine bind_state fun p hentry => ?_
  dsimp only
  split
  · refine update ?_
    rintro _ rfl
    refine ⟨fun hp e he => ?_, trivial⟩
    rcases eq_or_mem_of_mem_insertIdx he with rfl | hold
    · exact hentry
    · exact hp e hold
  · exact fail _

/-- **What is queued was queued before or has passed the checks.** -/
theorem addTransaction_allQueued {v : Validate} (hp : AllQueued P p)
    (htx : ∀ sender, p.checkTransaction v w currentTime tx = .ok sender → P tx) :
    AllQueued P ((addTransaction v w currentTime tx).run p).2 := by
  have htriple : Triple (Preserves (AllQueued P)) (· = p) (addTransaction v w currentTime tx)
      (fun _ _ => True) := by
    refine bind_state fun s hs => bind_lift fun sender hcheck => ?_
    rw [hs] at hcheck
    refine bind ((resolveConflicts_triple (htx sender hcheck) currentTime).pre ?_) fun entry =>
      insertTransaction_triple
    rintro _ rfl
    rw [hs]
    exact hp
  exact (htriple p rfl).1 hp

theorem removeTransaction_allQueued (hp : AllQueued P p) (tx : Transaction) :
    AllQueued P ((removeTransaction crypto tx).run p).2 := by
  have hmoves : Moves (Preserves (AllQueued P)) (removeTransaction crypto tx) :=
    (Moves.lift _).bind fun _ => .update fun _ h => h.filter rfl
  exact hmoves p hp

theorem removeExpiredTransactions_allQueued (hp : AllQueued P p) (currentTime : TimeStamp) :
    AllQueued P ((removeExpiredTransactions currentTime).run p).2 := by
  have hmoves : Moves (Preserves (AllQueued P)) (removeExpiredTransactions currentTime) :=
    Moves.state.bind fun _ => (Moves.update fun _ h => h.filter rfl).bind fun _ => .pure _
  exact hmoves p hp

/-! ## What is included -/

variable {db : StateTables}

/-- A simulated account is the stored one, ahead in its nonce and with less on it. -/
def Simulates (db : StateTables) (a : Address) (account : Account) : Prop :=
  ∃ stored, db.getAccount a = .ok stored ∧ stored.nonce ≤ account.nonce ∧ account.balance ≤ stored.balance

/-- The proposer's view of a transaction: it carries a later nonce than its sender has used, and the stored
    balance covers its fee limit and the amount of a transfer. -/
def Affordable (db : StateTables) (tx : Transaction) (sender : Address) : Prop :=
  ∃ stored, db.getAccount sender = .ok stored ∧ stored.nonce < tx.nonce ∧
    (requiredDeposit tx).toNat + tx.feeLimit.toNat ≤ stored.balance.toNat

theorem accountAfter_some {account' : Account} (h : accountAfter account tx = some account') :
    tx.nonce.toNat = account.nonce.toNat + 1 ∧ account'.nonce = tx.nonce ∧
      account'.balance.toNat + ((requiredDeposit tx).toNat + tx.feeLimit.toNat) = account.balance.toNat := by
  obtain ⟨expectedNonce, hexpected, h⟩ := Option.bind_eq_some_iff.mp h
  split at h
  · next hnonce =>
      subst hnonce
      obtain ⟨required, hrequired, h⟩ := Option.bind_eq_some_iff.mp h
      obtain ⟨balance, hbalance, h⟩ := Option.bind_eq_some_iff.mp h
      cases h
      rw [checkedAdd_eq_some] at hexpected hrequired
      rw [checkedSub_eq_some] at hbalance
      refine ⟨hexpected, rfl, ?_⟩
      rw [← hrequired]
      exact hbalance
  · cases h

/-- **Included transactions are affordable**, by induction over the loop: what is simulated stays a
    simulation. -/
theorem includeTransactions_affordable {accounts : Table Address Account} {txs : List Transaction}
    (hsim : ∀ a account, accounts.lookup a = some account → Simulates db a account)
    (h : includeTransactions crypto db accounts txs = .ok included) :
    ∀ tx ∈ included, tx ∈ txs ∧ ∃ sender, addressOf crypto tx.verifyingKey = .ok sender ∧
      Affordable db tx sender := by
  induction txs generalizing accounts included with
  | nil =>
    cases h
    intro tx htx
    cases htx
  | cons tx txs ih =>
    obtain ⟨sender, hsender, h⟩ := bind_eq_ok.mp h
    obtain ⟨account, haccount, h⟩ := bind_eq_ok.mp h
    have hsimulated : Simulates db sender account := by
      cases hlookup : accounts.lookup sender with
      | none =>
        rw [hlookup] at haccount
        exact ⟨account, haccount, BitVec.le_refl _, BitVec.le_refl _⟩
      | some seen =>
        rw [hlookup] at haccount
        cases haccount
        exact hsim sender _ hlookup
    -- the table with one more simulated account
    have hinsert : ∀ account', Simulates db sender account' → ∀ a other,
        (accounts.insert sender account').lookup a = some other → Simulates db a other := by
      intro account' hsender' a other hother
      rw [AList.lookup_insert_ite] at hother
      split at hother
      · next ha =>
          cases hother
          rw [ha]
          exact hsender'
      · exact hsim a other hother
    split at h
    · next account' hafter =>
        obtain ⟨rest, hrest, h⟩ := bind_eq_ok.mp h
        cases h
        obtain ⟨hnonce, hlast, hbalance⟩ := accountAfter_some hafter
        obtain ⟨stored, hstored, hle, hleft⟩ := hsimulated
        rw [le_def] at hle hleft
        have hsimulated' : Simulates db sender account' := by
          refine ⟨stored, hstored, ?_, ?_⟩
          · rw [hlast, le_def]
            omega
          · rw [le_def]
            omega
        intro tx' htx'
        rcases mem_cons.mp htx' with rfl | hmem
        · refine ⟨mem_cons_self, sender, hsender, stored, hstored, ?_, ?_⟩
          · rw [lt_def]
            omega
          · omega
        · obtain ⟨hin, haffordable⟩ := ih (hinsert account' hsimulated') hrest tx' hmem
          exact ⟨mem_cons_of_mem _ hin, haffordable⟩
    · intro tx' htx'
      obtain ⟨hin, haffordable⟩ := ih (hinsert account hsimulated) h tx' htx'
      exact ⟨mem_cons_of_mem _ hin, haffordable⟩

theorem buildNewBlockTransactionsList_affordable
    (h : p.buildNewBlockTransactionsList crypto db = .ok included) :
    ∀ tx ∈ included, (∃ e ∈ p.transactionsPriority, e.1 = tx) ∧
      ∃ sender, addressOf crypto tx.verifyingKey = .ok sender ∧ Affordable db tx sender := by
  intro tx htx
  have hempty : ∀ a account, (∅ : Table Address Account).lookup a = some account →
      Simulates db a account := by
    intro a account hlookup
    cases hlookup
  obtain ⟨hin, haffordable⟩ := includeTransactions_affordable hempty h tx htx
  rw [Platform.sortByNonce, mem_insertionSort, mem_map] at hin
  exact ⟨hin, haffordable⟩

/-! ## Checks in a later state

The transaction passed a check in `db₀`, and is affordable in `db`. -/

/-- What the proposer does not count: the deposits of the contract kinds, the tokens and the room for a
    stake, and the tokens that are unstaked. -/
def DepositCovered (db : StateTables) (tx : Transaction) (sender : Address) : Prop :=
  match tx.transactionType with
  | .nativeTokenTransfer .. => True
  | .smartContractDeployment .. | .smartContractInit .. | .smartContractFunctionCall .. =>
    ∃ balance, db.getBalance sender = .ok balance ∧ tx.amount.toNat + tx.feeLimit.toNat ≤ balance.toNat
  | .createStakingPool .. => True
  | .stake poolAddress amount =>
    (∀ row, db.stakingPool.lookup poolAddress = some row → PoolHasRoom db poolAddress row amount) ∧
    ∃ balance, db.getBalance sender = .ok balance ∧ amount < balance
  | .unStake poolAddress amount =>
    ∃ staked, db.stakingAccount.lookup (poolAddress, sender) = some staked ∧ amount ≤ staked
  | .stakingPoolContract .. => True

variable {v : Validate} {db₀ : StateTables} {tx : Transaction} {sender : Address}

theorem getBalance_of_getAccount (h : db.getAccount sender = .ok account) :
    db.getBalance sender = .ok account.balance := by
  unfold getAccount at h
  unfold getBalance
  cases hrow : db.account.lookup sender with
  | none =>
    rw [hrow] at h
    cases h
  | some row =>
    rw [hrow] at h
    cases h
    rfl

/-- The balance covers the fee limit and the deposit. -/
def Covers (db : StateTables) (tx : Transaction) (sender : Address) : Prop :=
  ∃ balance, db.getBalance sender = .ok balance ∧ tx.amount.toNat + tx.feeLimit.toNat ≤ balance.toNat

section

variable (hgrows : db₀.GrowsTo db)

include hgrows

variable (haffordable : Affordable db tx sender)

include haffordable

theorem validateCommon_later (h₀ : v.validateCommon db₀ tx sender = .ok ()) :
    v.validateCommon db tx sender = .ok () ↔ Covers db tx sender := by
  obtain ⟨hhash, hsignature, account₀, required, haccount₀, hnonce₀, hrequired, -⟩ :=
    validateCommon_eq_ok.mp h₀
  obtain ⟨account, haccount, hnonce, -⟩ := haffordable
  have hsum : required.toNat = tx.amount.toNat + tx.feeLimit.toNat := by
    unfold Transaction.requiredBalance at hrequired
    split at hrequired
    · next hadd =>
        cases hrequired
        exact checkedAdd_eq_some.mp hadd
    · cases hrequired
  rw [validateCommon_eq_ok, Covers, getBalance_of_getAccount haccount]
  constructor
  · rintro ⟨-, -, found, required', hfound, -, hrequired', hle⟩
    cases haccount.symm.trans hfound
    cases hrequired.symm.trans hrequired'
    exact ⟨account.balance, rfl, hsum ▸ le_def.mp hle⟩
  · rintro ⟨_, ⟨⟩, hle⟩
    refine ⟨hhash, hsignature, account, required, haccount, ?_, hrequired, ?_⟩
    · -- the nonce was the next one, it is not used up, and the stored one did not go down
      have hgrown : account₀.nonce ≤ account.nonce := by
        unfold getAccount at haccount₀ haccount
        split at haccount₀
        · next row₀ hrow₀ =>
            obtain ⟨row, hrow, hgrown⟩ := hgrows.account hrow₀
            rw [hrow] at haccount
            cases haccount₀
            cases haccount
            exact hgrown
        · cases haccount₀
      have hgrown := le_def.mp hgrown
      have hlt := lt_def.mp hnonce
      have hone : (1 : Nonce).toNat = 1 := rfl
      rw [hnonce₀, toNat_add, hone] at hlt
      have heq : account.nonce = account₀.nonce := eq_of_toNat_eq (by omega)
      rw [heq]
      exact hnonce₀
    · rw [le_def, hsum]
      exact hle

/-- **Contract kinds**: the common chain, and a rest that stays once it holds. -/
theorem contractCheck_later {rest₀ rest : Except Error Unit}
    (h₀ : (do v.validateCommon db₀ tx sender; rest₀) = .ok ()) (hrest : rest₀ = .ok () → rest = .ok ()) :
    (do v.validateCommon db tx sender; rest) = .ok () ↔ Covers db tx sender := by
  obtain ⟨hcommon₀, hrest₀⟩ := check_eq_ok.mp h₀
  rw [check_eq_ok, ← validateCommon_later hgrows haffordable hcommon₀]
  exact and_iff_left (hrest hrest₀)

/-- An instance stays, and a plain transfer to a contract that has appeared in the meantime is a call. -/
theorem validateContractFunctionCall_later {contractInstanceAddress : Address} {function : ContractFunction}
    (h₀ : (v.contractValidator db₀ contractType).validateContractFunctionCall tx contractInstanceAddress
      function arguments sender = .ok ()) :
    (v.contractValidator db contractType).validateContractFunctionCall tx contractInstanceAddress function
        arguments sender = .ok () ↔ Covers db tx sender := by
  cases contractType with
  | L1XVM =>
    refine contractCheck_later hgrows haffordable h₀ fun hrest => ?_
    rw [ensure_eq_ok] at hrest ⊢
    exact hgrows.contractInstance hrest
  | EVM =>
    refine contractCheck_later hgrows haffordable h₀ fun hrest => ?_
    split at hrest
    · rw [check_eq_ok, ensure_eq_ok, ensure_eq_ok] at hrest ⊢
      cases hvalid₀ : db₀.isValidContractInstance contractInstanceAddress with
      | true =>
        rw [hgrows.contractInstance hvalid₀]
        exact ⟨rfl, rfl⟩
      | false =>
        rw [hvalid₀] at hrest
        cases db.isValidContractInstance contractInstanceAddress with
        | true => exact ⟨rfl, rfl⟩
        | false => exact hrest
    · cases hrest
  | XTALK => cases h₀

end

/-- **Every kind**: accepted before and affordable now, a transaction passes exactly if what the proposer does
    not count is there. -/
theorem validateTx_later {caches₀ caches : RuntimeCaches} (hgrows : db₀.GrowsTo db)
    (hlists : caches.denyConfig = caches₀.denyConfig)
    (h₀ : v.validateTx db₀ caches₀ tx sender = .ok ()) (haffordable : Affordable db tx sender) :
    v.validateTx db caches tx sender = .ok () ↔ DepositCovered db tx sender := by
  unfold validateTx at h₀ ⊢
  unfold DepositCovered
  cases hkind : tx.transactionType with
  | nativeTokenTransfer recipient amount =>
    rw [hkind] at h₀
    obtain ⟨hlist, htoken⟩ := check_eq_ok.mp h₀
    have hsame : wbListCheck caches sender recipient = wbListCheck caches₀ sender recipient := by
      unfold wbListCheck RuntimeCaches.getDenyConfig
      rw [hlists]
    refine iff_of_true (check_eq_ok.mpr ⟨hsame.trans hlist, ?_⟩) trivial
    obtain ⟨hhash, hsignature, hamount, -⟩ := validateNativeToken_eq_ok.mp htoken
    obtain ⟨account, haccount, hnonce, hbalance⟩ := haffordable
    rw [requiredDeposit, hkind] at hbalance
    exact validateNativeToken_eq_ok.mpr
      ⟨hhash, hsignature, hamount, account, haccount, hnonce, fun _ => hbalance⟩
  | smartContractDeployment _ contractType =>
    rw [hkind] at h₀
    cases contractType with
    | L1XVM => exact contractCheck_later hgrows haffordable h₀ id
    | EVM => exact validateCommon_later hgrows haffordable h₀
    | XTALK => cases h₀
  | smartContractInit contractAddress =>
    rw [hkind] at h₀
    dsimp only at h₀ ⊢
    generalize (if tx.ethOriginalTransaction.isSome then ContractType.EVM else .L1XVM) = contractType at h₀ ⊢
    cases contractType with
    | L1XVM =>
      refine contractCheck_later hgrows haffordable h₀ fun hrest => ?_
      have howner : ∀ {found}, db₀.getContractOwner contractAddress = .ok found →
          db.getContractOwner contractAddress = .ok found := by
        intro found hfound
        unfold getContractOwner at hfound ⊢
        split at hfound
        · next hrow =>
            rw [hgrows.contract hrow]
            exact hfound
        · cases hfound
      obtain ⟨found, hfound, hmay⟩ := bind_eq_ok.mp hrest
      exact bind_eq_ok.mpr ⟨found, howner hfound, hmay⟩
    | EVM | XTALK => cases h₀
  | smartContractFunctionCall =>
    rw [hkind] at h₀
    exact validateContractFunctionCall_later hgrows haffordable h₀
  | createStakingPool => exact iff_of_true rfl trivial
  | stake poolAddress amount =>
    rw [hkind] at h₀
    obtain ⟨row₀, hrow₀⟩ := exists_pool_of_validateStake h₀
    obtain ⟨hmin, hmax, -⟩ := (validateStake_eq_ok hrow₀).mp h₀
    obtain ⟨_, _, hrow⟩ := hgrows.stakingPool hrow₀
    refine (validateStake_eq_ok hrow).trans ⟨?_, ?_⟩
    · rintro ⟨-, -, hroom, hbalance⟩
      refine ⟨fun found hfound => ?_, hbalance⟩
      cases hrow.symm.trans hfound
      exact hroom
    · rintro ⟨hroom, hbalance⟩
      exact ⟨hmin, hmax, hroom _ hrow, hbalance⟩
  | unStake poolAddress amount =>
    rw [hkind] at h₀
    obtain ⟨⟨row₀, hrow₀⟩, -⟩ := validateUnstake_eq_ok.mp h₀
    obtain ⟨_, _, hrow⟩ := hgrows.stakingPool hrow₀
    exact validateUnstake_eq_ok.trans (and_iff_right ⟨_, hrow⟩)
  | stakingPoolContract => exact iff_of_true rfl trivial

/-! ## Runs -/

/-- What happens to the mempool and the world of a node. -/
inductive Step where
  | addTransaction (currentTime : TimeStamp) (tx : Transaction)
  | removeTransaction (tx : Transaction)
  | removeExpiredTransactions (currentTime : TimeStamp)
  | executeBlock (block : Block)

def Step.apply (n : Node) : Step → Mempool × World → Mempool × World
  | .addTransaction currentTime tx, (p, w) => (((Mempool.addTransaction n.validate w currentTime tx).run p).2, w)
  | .removeTransaction tx, (p, w) => (((Mempool.removeTransaction n.platform.rt.crypto tx).run p).2, w)
  | .removeExpiredTransactions currentTime, (p, w) => (((Mempool.removeExpiredTransactions currentTime).run p).2, w)
  | .executeBlock block, (p, w) => (p, ((World.executeBlock n.platform block).run w).2)

/-- Reached from a new mempool in any world, while the lists of allowed transfers stay as they are. -/
inductive Reached (n : Node) : Mempool × World → Prop where
  | new (maxSize : Nat) (feeLimit : Balance) (rateLimit : Nat) (timeFrameSeconds expirationSeconds : TimeStamp)
      (w : World) : Reached n (.new maxSize feeLimit rateLimit timeFrameSeconds expirationSeconds, w)
  | step {s : Mempool × World} (h : Reached n s) (step : Step)
      (hlists : (step.apply n s).2.caches.denyConfig = s.2.caches.denyConfig) : Reached n (step.apply n s)

variable {n : Node}

theorem Reached.addTransaction (h : Reached n s) (currentTime : TimeStamp) (tx : Transaction) :
    Reached n ((Step.addTransaction currentTime tx).apply n s) :=
  h.step _ rfl

/-- The transaction was valid when it came. -/
def Admitted (n : Node) (w : World) (tx : Transaction) : Prop :=
  ∃ w₀ : World, ∃ sender, addressOf n.platform.rt.crypto tx.verifyingKey = .ok sender ∧
    n.validate.validateTx w₀.db.state w₀.caches tx sender = .ok () ∧
    w.caches.denyConfig = w₀.caches.denyConfig ∧ w₀.db.state.GrowsTo w.db.state

theorem admitted_of_checkTransaction (h : p.checkTransaction n.validate w currentTime tx = .ok sender) :
    Admitted n w tx := by
  obtain ⟨_, h⟩ := check_eq_ok.mp h
  obtain ⟨_, _, h⟩ := bind_eq_ok.mp h
  obtain ⟨_, h⟩ := check_eq_ok.mp h
  obtain ⟨found, hfound, h⟩ := bind_eq_ok.mp h
  obtain ⟨hvalid, -⟩ := check_eq_ok.mp h
  exact ⟨w, found, hfound, hvalid, rfl, .refl⟩

/-- **Whatever is queued was valid when it came**, and nothing it relied on has been taken away since. -/
theorem Reached.allQueued (hengines : n.platform.executor.KeepsAccounts) (h : Reached n s) :
    AllQueued (Admitted n s.2) s.1 := by
  induction h with
  | new =>
    intro e he
    cases he
  | @step s hs step hlists ih =>
    cases step with
    | addTransaction currentTime tx =>
      exact addTransaction_allQueued ih fun _ => admitted_of_checkTransaction
    | removeTransaction tx => exact removeTransaction_allQueued ih tx
    | removeExpiredTransactions currentTime => exact removeExpiredTransactions_allQueued ih currentTime
    | executeBlock block =>
      intro e he
      obtain ⟨w₀, sender, hsender, hvalid, hsame, hgrows⟩ := ih e he
      exact ⟨w₀, sender, hsender, hvalid, hlists.trans hsame,
        hgrows.trans (executeBlock_growsTo hengines block)⟩

/-- **What peers say about the transactions of a proposer.** In every reached state, each transaction that the
    proposer takes passes validation in that state exactly if what the proposer does not count is there. -/
theorem validateTx_included_iff (n : Node) (hengines : n.platform.executor.KeepsAccounts) (p : Mempool)
    (w : World) (hreached : Reached n (p, w)) (included : List Transaction)
    (h : p.buildNewBlockTransactionsList n.platform.rt.crypto w.db.state = .ok included) :
    ∀ tx ∈ included, ∃ sender, addressOf n.platform.rt.crypto tx.verifyingKey = .ok sender ∧
      (n.validate.validateTx w.db.state w.caches tx sender = .ok () ↔ DepositCovered w.db.state tx sender) := by
  intro tx htx
  obtain ⟨⟨e, he, rfl⟩, sender, hsender, haffordable⟩ := buildNewBlockTransactionsList_affordable h tx htx
  obtain ⟨w₀, sender₀, hsender₀, hvalid, hlists, hgrows⟩ := hreached.allQueued hengines e he
  cases hsender.symm.trans hsender₀
  exact ⟨sender, hsender, validateTx_later hgrows hlists hvalid haffordable⟩

/-! ## A proposal with a stake -/

/-- The account with address 1 has 100 tokens, and there is a pool without limits. -/
def poolWorld : World :=
  { afterGenesis with
    db := { afterGenesis.db with
      state := { Platform.oneAccount with
        stakingPool := (∅ : Table Address StakingPoolRow).insert 7
          ⟨1, 0, none, 0, 0, none, none, none, none, none⟩ } } }

/-- A stake of that account with its signature. -/
def signedStake (nonce : Nonce) (amount : Balance) : Transaction :=
  let tx := { Platform.payment nonce 0 with transactionType := .stake 7 amount }
  { tx with signature := Small.sign (Small.key 1) (Small.codec.v3SignPayload tx.v3SignPayload) }

def proposer : Node := Small.node 9 fun _ => []

/-- A payment and a stake arrive. -/
def arrived : Mempool × World :=
  (Step.addTransaction 0 (signedStake 7 85)).apply proposer <|
    (Step.addTransaction 0 (signedPayment 6)).apply proposer (.new 10 1000 10 60 60, poolWorld)

/-- A block with another payment of the account is executed while they wait. -/
def waitingStake : Mempool × World :=
  (Step.executeBlock (proposed [signedPayment 5]).block).apply proposer arrived

theorem reached_waitingStake : Reached proposer waitingStake := by
  have harrived : Reached proposer arrived :=
    ((Reached.new 10 1000 10 60 60 poolWorld).addTransaction _ _).addTransaction _ _
  have hlists : waitingStake.2.caches.denyConfig = arrived.2.caches.denyConfig := by decide +kernel
  unfold waitingStake at hlists ⊢
  exact harrived.step _ hlists

theorem build_waitingStake :
    waitingStake.1.buildNewBlockTransactionsList proposer.platform.rt.crypto waitingStake.2.db.state =
      .ok [signedPayment 6, signedStake 7 85] := by
  decide +kernel

/-- The payment passes. -/
theorem validateTx_included_payment :
    Reached proposer waitingStake ∧
    waitingStake.1.buildNewBlockTransactionsList proposer.platform.rt.crypto waitingStake.2.db.state =
      .ok [signedPayment 6, signedStake 7 85] ∧
    proposer.validate.validateTx waitingStake.2.db.state waitingStake.2.caches (signedPayment 6) 1 =
      .ok () := by
  have hreached : Reached proposer (waitingStake.1, waitingStake.2) := by
    rw [Prod.mk.eta]
    exact reached_waitingStake
  refine ⟨reached_waitingStake, build_waitingStake, ?_⟩
  obtain ⟨sender, hsender, hvalid⟩ := validateTx_included_iff proposer Small.platform_keepsAccounts
    waitingStake.1 waitingStake.2 hreached _ build_waitingStake (signedPayment 6) mem_cons_self
  cases (Small.addressOf_key 1).symm.trans hsender
  exact hvalid.mpr trivial

/-- The stake is proposed as well, and refused: the payment in the block has taken the tokens, and the proposer
    only looked at the fee. -/
theorem validateTx_included_refused :
    Reached proposer waitingStake ∧
    waitingStake.1.buildNewBlockTransactionsList proposer.platform.rt.crypto waitingStake.2.db.state =
      .ok [signedPayment 6, signedStake 7 85] ∧
    proposer.validate.validateTx waitingStake.2.db.state waitingStake.2.caches (signedStake 7 85) 1 =
      .error "Insufficient balance to stake 85 tokens" :=
  ⟨reached_waitingStake, build_waitingStake, by decide +kernel⟩

end L1xCore.Mempool
