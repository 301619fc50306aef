import L1xCore.Execute.FeeAccounting
import L1xCore.Execute.Growth

/-!
# `Execute.PoolOwner` — who gives a pool another contract

A pool has an owner, and a `StakingPoolContract` transaction gives it another contract instance. Nobody
compares the owner with the sender: `validate_tx` has an empty arm for this kind, the staking executor is not
told who the sender is, and `update_contract` changes whatever pool it is given. `ownerOnly_iff` says when a
pool is left to its owner all the same.
-/

namespace L1xCore

open Fallible UpdatedState Platform

variable {s s' : UpdatedState} {db : StateTables} {tx : Transaction} {sender p i : Address}
  {pool : StakingPool}

/-! ## Fees leave the pools alone -/

namespace UpdatedState

/-- Every pool reads the same. -/
def SamePools (db : StateTables) (s s' : UpdatedState) : Prop :=
  (s'.view db).stakingPool = (s.view db).stakingPool

instance : IsTrans UpdatedState (SamePools db) := ⟨fun _ _ _ h₁ h₂ => h₂.trans h₁⟩

instance : Std.Refl (SamePools db) := ⟨fun _ => rfl⟩

theorem samePools_of_view (h : s'.view db = s.view db) : SamePools db s s' := by
  rw [SamePools, h]

theorem samePools_of_transacts {x : StateOp Unit} {g : Store → Option Store} (hx : Transacts db x g)
    (hg : ∀ {st st'}, g st = some st' → st'.stakingPool = st.stakingPool) : Moves (SamePools db) x := by
  intro s
  cases hst : g (s.view db).toStore with
  | some st =>
    obtain ⟨s', hrun, hv⟩ := hx.defined hst
    rw [hrun, SamePools, hv]
    exact hg hst
  | none =>
    obtain ⟨e, s', hrun, hv⟩ := hx.undefined hst
    rw [hrun]
    exact samePools_of_view hv

theorem transfer_samePools {a b : Address} {amount : Balance} :
    Moves (SamePools db) (transfer db a b amount) :=
  samePools_of_transacts transfer_transacts fun h => (Store.transfer_frame h).1

theorem incrementNonce_samePools : Moves (SamePools db) (incrementNonce db sender) := by
  refine samePools_of_transacts incrementNonce_transacts fun h => ?_
  simp only [Store.incrementNonce, Option.bind_eq_bind, Option.bind_eq_some_iff, Option.some.injEq] at h
  obtain ⟨account, -, nonce, -, rfl⟩ := h
  rfl

theorem refundFee_samePools (sender : Address) (tx : Transaction) (fee : Balance) :
    Moves (SamePools db) (refundFee db sender tx fee) :=
  (Moves.okOr _ _).bind fun _ => transfer_samePools

theorem storeTransactionMetadata_samePools (metadata : TransactionMetadata) :
    Moves (SamePools db) (storeTransactionMetadata metadata) := fun _ => rfl

end UpdatedState

/-! ## The execution of a request -/

namespace TransactionContext

variable {cx : TransactionContext}

/-- The fee limit covers the fixed fees of a request. -/
def AffordsRequest (tx : Transaction) : Prop :=
  ∃ size, FeeConfig.config.transactionSizeFee tx = some size ∧
    size.toNat + FeeConfig.config.stakingPoolContract.toNat ≤ tx.feeLimit.toNat

theorem affordsRequest_of_passes (htype : tx.transactionType = .stakingPoolContract p i)
    {result : TransactionResult} (h : executeTransaction cx tx s = (.ok result, s')) : AffordsRequest tx := by
  rcases passes_cases ⟨result, h, rfl⟩ with ⟨request, e, burntGas, hrequest, -⟩ |
    ⟨size, transactionHash, nonce, e, event, e', hplain⟩
  · -- no contract is run
    have hprepare := prepareBody_of_requestOf hrequest.asked
    unfold prepareBody at hprepare
    rw [← opening_bind] at hprepare
    obtain ⟨opened, e₁, -, hprepare⟩ := run_bind_ok hprepare
    rw [prepareKind_of_type htype] at hprepare
    cases hprepare
  · obtain ⟨hcost, hle, -⟩ := hplain.worked (plainKind_of_type htype)
    exact ⟨size, hplain.sized, hcost ▸ hle⟩

end TransactionContext

/-! ## A round -/

namespace Platform

open TransactionContext

variable (pf : Platform) (db) (header : BlockHeader)

/-- A round of a block of either kind. -/
def round (s : UpdatedState) (tx : Transaction) : UpdatedState :=
  match header.blockType with
  | .SystemBlock => (pf.processSystemTransaction db header tx s).2
  | _ => (pf.processTransaction db header tx s).2

/-- What a round does before the transaction is executed. -/
def opens (sender : Address) (tx : Transaction) : StateOp Unit :=
  match header.blockType with
  | .SystemBlock => incrementNonce db sender
  | _ => lockFee db sender tx

/-- **Only the owner gives a pool another contract**: for every other sender the pool reads the same after
    the round. -/
def OwnerOnly (tx : Transaction) (s : UpdatedState) : Prop :=
  ∀ sender p i pool, Account.addressOf pf.rt.crypto tx.verifyingKey = .ok sender →
    tx.transactionType = .stakingPoolContract p i → (s.view db).stakingPool p = some pool →
    sender ≠ pool.poolOwner → ((pf.round db header s tx).view db).stakingPool p = some pool

/-- A request of somebody else that has a hash, whose nonce is counted and fee limit locked, and whose fees
    the limit covers, asks for what the pool has. -/
def Idle (tx : Transaction) (s : UpdatedState) : Prop :=
  ∀ sender p i pool hash opened, Account.addressOf pf.rt.crypto tx.verifyingKey = .ok sender →
    tx.transactionType = .stakingPoolContract p i → (s.view db).stakingPool p = some pool →
    sender ≠ pool.poolOwner → tx.transactionHash pf.rt.crypto pf.rt.codec = .ok hash →
    (opens db header sender tx).run s = (.ok (), opened) → AffordsRequest tx →
      pool.contractInstanceAddress = some i ∧ pool.updatedBlockNumber = header.blockNumber

variable {pf db header} {opened : UpdatedState} {hash : TransactionHash} {result : TransactionResult}

theorem opens_samePools : Moves (SamePools db) (opens db header sender tx) := by
  unfold opens
  split
  · exact incrementNonce_samePools
  · exact incrementNonce_samePools.bind fun _ => transfer_samePools

theorem opens_evolves : Moves Evolves (opens db header sender tx) := by
  unfold opens
  split
  · exact tokens_evolve.incrementNonce sender
  · exact lockFee_evolves sender tx

theorem isSome_account_of_opens (hs : s.WellKeyed)
    (h : (opens db header sender tx).run s = (.ok (), opened)) : ((opened.view db).account sender).isSome := by
  have hevolves : s.Evolves opened := opens_evolves.of_run h
  refine isSome_account_of_evolves (hevolves.wellKeyed hs) hevolves ?_
  -- either way the nonce of the sender is counted first
  obtain ⟨s₁, hcount⟩ : ∃ s₁, (incrementNonce db sender).run s = (.ok (), s₁) := by
    unfold opens at h
    split at h
    · exact ⟨_, h⟩
    · obtain ⟨⟨⟩, s₁, hcount, -⟩ := run_bind_ok h
      exact ⟨s₁, hcount⟩
  obtain ⟨st, hst, -⟩ := incrementNonce_transacts.ok hcount
  simp only [Store.incrementNonce, Option.bind_eq_bind, Option.bind_eq_some_iff] at hst
  obtain ⟨account, hacc, -⟩ := hst
  exact Option.isSome_of_eq_some hacc

theorem mergeAndStore_evolves {c : UpdatedState} (h : s.Evolves c) (metadata : TransactionMetadata) :
    s.Evolves ((storeTransactionMetadata metadata).run (s.merge c)).2 :=
  trans_of Evolves (merge_evolves h) (storeTransactionMetadata_evolves _)

/-- A transaction that passes leaves the pools as its execution did. -/
theorem round_passed (hkey : Account.addressOf pf.rt.crypto tx.verifyingKey = .ok sender)
    (hhash : tx.transactionHash pf.rt.crypto pf.rt.codec = .ok hash)
    (hopen : (opens db header sender tx).run s = (.ok (), opened))
    (hexec : executeTransaction (pf.transactionContext db header sender) tx opened = (.ok result, s')) :
    (s.merge opened).Evolves (pf.round db header s tx) ∧ SamePools db s' (pf.round db header s tx) := by
  have hclone : (s.merge opened).Evolves s' := evolves_of_executed (opens_evolves.of_run hopen) hexec
  unfold opens at hopen
  unfold round
  split at hopen
  · simp only [processSystemTransaction, hkey, hhash, hopen, hexec]
    have hmerged : SamePools db s' ((s.merge opened).merge s') := samePools_of_view (view_merge hclone)
    exact ⟨mergeAndStore_evolves hclone _, hmerged⟩
  · simp only [processTransaction, hkey, hhash, hopen, hexec]
    refine ⟨settlePassed_evolves _ _ hclone, ?_⟩
    exact settlePassed_rule (fun hr => samePools_of_view hr.view.symm)
      (refundFee_samePools sender tx result.fee) (storeTransactionMetadata_samePools _) hclone

/-- **A round.** The overlay goes on, and the pools are what they were unless the transaction passes. -/
theorem round_cases (tx : Transaction) (s : UpdatedState) :
    s.Evolves (pf.round db header s tx) ∧ (SamePools db s (pf.round db header s tx) ∨
      ∃ sender hash opened result s', Account.addressOf pf.rt.crypto tx.verifyingKey = .ok sender ∧
        tx.transactionHash pf.rt.crypto pf.rt.codec = .ok hash ∧
        (opens db header sender tx).run s = (.ok (), opened) ∧
        executeTransaction (pf.transactionContext db header sender) tx opened = (.ok result, s')) := by
  have hskipped : pf.round db header s tx = s →
      s.Evolves (pf.round db header s tx) ∧ SamePools db s (pf.round db header s tx) := by
    intro h
    rw [h]
    exact ⟨refl_of Evolves s, rfl⟩
  rcases hkey : Account.addressOf pf.rt.crypto tx.verifyingKey with e | sender
  · exact (hskipped (by
      unfold round
      split <;> simp only [processSystemTransaction, processTransaction, hkey])).imp_right .inl
  rcases hhash : tx.transactionHash pf.rt.crypto pf.rt.codec with e | hash
  · exact (hskipped (by
      unfold round
      split <;> simp only [processSystemTransaction, processTransaction, hkey, hhash])).imp_right .inl
  rcases hopen : (opens db header sender tx).run s with ⟨e | ⟨⟩, opened⟩
  · refine (hskipped ?_).imp_right .inl
    unfold opens at hopen
    unfold round
    split at hopen <;> simp only [processSystemTransaction, processTransaction, hkey, hhash, hopen]
  have hevolves : s.Evolves opened := opens_evolves.of_run hopen
  have hmerged : s.Evolves (s.merge opened) := merge_evolves hevolves
  rcases hexec : executeTransaction (pf.transactionContext db header sender) tx opened with
    ⟨result | result, s'⟩
  · have hpools : SamePools db s (s.merge opened) :=
      trans_of (SamePools db) (opens_samePools.of_run hopen) (samePools_of_view (view_merge hevolves))
    unfold opens at hopen
    unfold round
    split at hopen
    · simp only [processSystemTransaction, hkey, hhash, hopen, hexec]
      exact ⟨mergeAndStore_evolves hevolves _, .inl hpools⟩
    · simp only [processTransaction, hkey, hhash, hopen, hexec]
      have hsettled : SamePools db (s.merge opened) _ :=
        ((refundFee_samePools sender tx result.fee).bind fun _ =>
          storeTransactionMetadata_samePools (metadataOf hash result)) (s.merge opened)
      exact ⟨trans_of Evolves hmerged (settleFailed_evolves _ _ _ _ _),
        .inl (trans_of (SamePools db) hpools hsettled)⟩
  · exact ⟨trans_of Evolves hmerged (round_passed hkey hhash hopen hexec).1,
      .inr ⟨sender, hash, opened, result, s', rfl, rfl, hopen, hexec⟩⟩

theorem round_granted (hs : s.WellKeyed) (hkey : Account.addressOf pf.rt.crypto tx.verifyingKey = .ok sender)
    (htype : tx.transactionType = .stakingPoolContract p i) (hpool : (s.view db).stakingPool p = some pool)
    (hhash : tx.transactionHash pf.rt.crypto pf.rt.codec = .ok hash)
    (hopen : (opens db header sender tx).run s = (.ok (), opened)) (haffords : AffordsRequest tx) :
    ((pf.round db header s tx).view db).stakingPool p =
      some { pool with contractInstanceAddress := some i, updatedBlockNumber := header.blockNumber } := by
  have hsame : SamePools db s opened := opens_samePools.of_run hopen
  obtain ⟨size, hsize, hle⟩ := haffords
  obtain ⟨account, hacc⟩ := Option.isSome_iff_exists.mp (isSome_account_of_opens hs hopen)
  have hchange : ∀ s₁, Remembers db opened s₁ → ∃ u s',
      (updateContract db i p header.blockNumber).run s₁ = (.ok u, s') ∧ (s'.view db).stakingPool p =
        some { pool with contractInstanceAddress := some i, updatedBlockNumber := header.blockNumber } := by
    intro s₁ hreads
    have hfound := (congrFun hsame p).trans hpool
    rw [hreads.view] at hfound
    obtain ⟨s', hrun, hview⟩ := (modifyStakingPool_transacts p fun pool => { pool with
      contractInstanceAddress := some i, updatedBlockNumber := header.blockNumber }).defined
        (Option.map_eq_some_iff.mpr ⟨pool, hfound, rfl⟩)
    refine ⟨(), s', hrun, ?_⟩
    rw [hview]
    exact Function.update_self ..
  -- a request that is paid for is granted, whoever sends it
  have hhash' : tx.transactionHash (pf.transactionContext db header sender).rt.crypto
    (pf.transactionContext db header sender).rt.codec = .ok hash := hhash
  obtain ⟨s', ⟨result, hexec, -⟩, hafter⟩ := passes_of_plain hsize hhash' hacc hle
    (fun e _ => ⟨e, by rw [prepareKind_of_type htype]; rfl⟩) (plainKind_of_type htype) hchange
  exact (congrFun (round_passed hkey hhash hopen hexec).2 p).trans hafter

/-- **When a pool is left to its owner.** For every database, in a round of a block of any kind after any
    transactions and calls: exactly if nobody else pays for a request that would change the pool. -/
theorem ownerOnly_iff (pf : Platform) (db : StateTables) (header : BlockHeader) (before : List Transaction)
    (tx : Transaction) : pf.OwnerOnly db header tx (before.foldl (pf.round db header) .new) ↔
      pf.Idle db header tx (before.foldl (pf.round db header) .new) := by
  have hs : (before.foldl (pf.round db header) .new).WellKeyed := by
    refine List.foldlRecOn before _ wellKeyed_new fun s hs tx _ => ?_
    exact (round_cases tx s).1.wellKeyed hs
  generalize before.foldl (pf.round db header) .new = s at hs ⊢
  constructor
  · intro h sender p i pool hash opened hkey htype hpool hother hhash hopen haffords
    have hsame := h sender p i pool hkey htype hpool hother
    have heq := hsame.symm.trans (round_granted hs hkey htype hpool hhash hopen haffords)
    cases pool
    cases heq
    exact ⟨rfl, rfl⟩
  · intro h sender p i pool hkey htype hpool hother
    rcases (@round_cases db pf header tx s).2 with hsame |
      ⟨sender', hash, opened, result, s', hkey', hhash, hopen, hexec⟩
    · exact (congrFun hsame p).trans hpool
    · cases hkey.symm.trans hkey'
      have haffords := affordsRequest_of_passes htype hexec
      obtain ⟨hinstance, hnumber⟩ := h sender p i pool hash opened hkey htype hpool hother hhash hopen haffords
      rw [round_granted hs hkey htype hpool hhash hopen haffords, ← hinstance, ← hnumber]

/-- The pool at address 3 belongs to address 2. -/
def foreignPool : StateTables :=
  { Validate.usedAccount with
    stakingPool := (∅ : Table Address StakingPoolRow).insert 3
      ⟨2, 0, some 8, 0, 0, none, none, none, none, none⟩ }

/-- The account with address 1 gives it another contract. -/
def foreignRequest : Transaction :=
  { version := .V3, nonce := 5, transactionType := .stakingPoolContract 3 9, feeLimit := 10, signature := [],
    verifyingKey := Small.key 1, ethOriginalTransaction := none }

theorem foreignRequest_granted :
    Validate.small.validateTx foreignPool ⟨none, none, none⟩ foreignRequest 1 = .ok () ∧
    ¬ Small.platform.OwnerOnly foreignPool Small.header foreignRequest .new := by
  refine ⟨rfl, fun h => ?_⟩
  have hsame := h 1 3 9 _ (Small.addressOf_key 1) rfl rfl (by decide)
  have hinstance : (((Small.platform.round foreignPool Small.header .new foreignRequest).view
      foreignPool).stakingPool 3).bind (·.contractInstanceAddress) = some 9 := by decide +kernel
  rw [hsame] at hinstance
  cases hinstance

end Platform

end L1xCore
