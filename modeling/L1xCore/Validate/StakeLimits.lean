import L1xCore.State.StakingOutcomes
import L1xCore.Validate.ValidateTx

/-!
# `Validate.StakeLimits` — the limits of a pool, checked twice

`validate_stake` checks a stake against the limits of its pool when the transaction comes in, on the
database; `UpdatedState::stake` checks them again when it is executed, on the overlay. The limit on the
balance of the pool is computed in two ways: the balance after the stake by a checked addition, and what the
limit leaves for the balance by a saturating subtraction. `limitsHold_iff` says when the two agree and the
limits are kept. They do, except for a stake above the limit into a pool with an empty account: there the
subtraction saturates at zero, and zero is not less than the balance.
-/

namespace L1xCore

open UpdatedState Store Except

variable {st : Store} {pool : StakingPool} {e : Error}

/-- The checks of a stake against the limits of its pool. -/
structure LimitChecks where
  amount : StakingPool → Balance → Except Error Unit
  room (maxPoolBalance poolBalance amount : Balance) : Except Error Unit

namespace LimitChecks

/-- The error with which a limit refuses the stake, for what was read of the pool and its balance. A record
    that cannot be read is not a limit. -/
def refusal (c : LimitChecks) (pool : Option StakingPool) (balance : Option Balance) (amount : Balance) :
    Option Error :=
  match pool with
  | none => none
  | some pool =>
    match c.amount pool amount with
    | .error e => some e
    | .ok _ =>
      match pool.maxPoolBalance, balance with
      | some maxPoolBalance, some poolBalance =>
        match c.room maxPoolBalance poolBalance amount with
        | .error e => some e
        | .ok _ => none
      | _, _ => none

theorem refusal_eq_none_iff {c : LimitChecks} {balance : Option Balance} {amount : Balance} :
    c.refusal (some pool) balance amount = none ↔
      c.amount pool amount = .ok () ∧
        ∀ maxPoolBalance poolBalance, pool.maxPoolBalance = some maxPoolBalance →
          balance = some poolBalance → c.room maxPoolBalance poolBalance amount = .ok () := by
  unfold refusal
  dsimp only
  cases hamount : c.amount pool amount with
  | error e => simp
  | ok _ =>
    cases hmax : pool.maxPoolBalance with
    | none => simp
    | some maxPoolBalance =>
      cases balance with
      | none => simp
      | some poolBalance =>
        dsimp only
        cases hroom : c.room maxPoolBalance poolBalance amount with
        | error e =>
          simp only [reduceCtorEq, false_iff, not_and, not_forall]
          intro _
          refine ⟨maxPoolBalance, poolBalance, rfl, rfl, ?_⟩
          rw [hroom]
          simp
        | ok _ =>
          simp only [true_iff, true_and]
          rintro _ _ ⟨⟩ ⟨⟩
          exact hroom

/-- The checks of `validate_stake`. -/
def validation : LimitChecks where
  amount := Validate.ensureStakeLimits
  room := Validate.ensurePoolRoom

/-- The checks of `UpdatedState::stake`. -/
def execution : LimitChecks where
  amount := checkStakeLimits
  room := checkPoolRoom

end LimitChecks

/-! ## What the checks say -/

/-- The amount lies within the limits of the pool on one stake. -/
def StakingPool.Allows (pool : StakingPool) (amount : Balance) : Prop :=
  (∀ minStake, pool.minStake = some minStake → minStake ≤ amount) ∧
    ∀ maxStake, pool.maxStake = some maxStake → amount ≤ maxStake

namespace LimitChecks

variable {pool : StakingPool} {amount maxPoolBalance poolBalance : Balance}

theorem validation_amount_eq_ok : validation.amount pool amount = .ok () ↔ pool.Allows amount := by
  unfold validation StakingPool.Allows
  rw [Validate.ensureStakeLimits_eq_ok]
  cases pool.minStake <;> cases pool.maxStake <;> simp

theorem execution_amount_eq_ok : execution.amount pool amount = .ok () ↔ pool.Allows amount := by
  show checkStakeLimits pool amount = .ok () ↔ _
  have hmax : checkStakeLimits.checkMax pool amount = .ok () ↔
      ∀ maxStake, pool.maxStake = some maxStake → amount ≤ maxStake := by
    unfold checkStakeLimits.checkMax
    cases pool.maxStake <;> simp
  unfold checkStakeLimits StakingPool.Allows
  rw [← hmax]
  cases pool.minStake with
  | none => simp
  | some minStake =>
    by_cases hless : minStake > amount
    · have hnot : ¬ minStake ≤ amount := BitVec.not_le.mpr hless
      simp [if_pos hless, hnot]
    · have hle : minStake ≤ amount := BitVec.not_lt.mp hless
      simp [if_neg hless, hle]

theorem validation_room_eq_ok :
    validation.room maxPoolBalance poolBalance amount = .ok () ↔
      poolBalance.toNat + amount.toNat ≤ maxPoolBalance.toNat :=
  Validate.ensurePoolRoom_eq_ok

/-- The subtraction saturates: above the limit it leaves room for an empty balance. -/
theorem execution_room_eq_ok :
    execution.room maxPoolBalance poolBalance amount = .ok () ↔
      poolBalance.toNat + amount.toNat ≤ maxPoolBalance.toNat ∨
        poolBalance = 0 ∧ maxPoolBalance < amount := by
  have hzero : poolBalance = 0 ↔ poolBalance.toNat = 0 := BitVec.toNat_eq
  have hroom : execution.room maxPoolBalance poolBalance amount = .ok () ↔
      ¬ maxPoolBalance.saturatingSub amount < poolBalance := by
    unfold execution checkPoolRoom
    simp
  rw [hroom, BitVec.not_lt, BitVec.le_def, BitVec.toNat_saturatingSub, BitVec.lt_def, hzero]
  omega

end LimitChecks

/-! ## Both checks inside their functions -/

namespace Validate

variable {db : StateTables} {sender p : Address} {amount : Balance}

/-- What a limit refuses, `validate_stake` refuses with the error of that limit. -/
theorem validateStake_of_refusal
    (h : LimitChecks.validation.refusal (db.getStakingPool p).toOption (db.getBalance p).toOption amount =
      some e) : validateStake db sender p amount = .error e := by
  cases hpool : db.getStakingPool p with
  | error text =>
    rw [hpool] at h
    cases h
  | ok pool =>
    rw [hpool] at h
    rw [validateStake, hpool, ok_bind]
    unfold LimitChecks.refusal LimitChecks.validation at h
    dsimp only [Except.toOption] at h
    -- the limits on the amount come first in both
    cases hamount : ensureStakeLimits pool amount with
    | error text =>
      rw [hamount] at h
      cases h
      rfl
    | ok _ =>
      rw [hamount] at h
      cases hmax : pool.maxPoolBalance with
      | none =>
        rw [hmax] at h
        cases h
      | some maxPoolBalance =>
        cases hbalance : db.getBalance p with
        | error text =>
          rw [hmax, hbalance] at h
          cases h
        | ok poolBalance =>
          rw [hmax, hbalance] at h
          cases hroom : ensurePoolRoom maxPoolBalance poolBalance amount with
          | error text =>
            dsimp only at h ⊢
            rw [hroom] at h
            cases h
            rw [ok_bind, ok_bind, hroom]
            rfl
          | ok _ =>
            dsimp only at h
            rw [hroom] at h
            cases h

/-- `validate_stake` rejects for a limit of the pool. -/
def RejectsForLimit (db : StateTables) (sender p : Address) (amount : Balance) : Prop :=
  ∃ e, validateStake db sender p amount = .error e ∧
    LimitChecks.validation.refusal (db.getStakingPool p).toOption (db.getBalance p).toOption amount = some e

theorem rejectsForLimit_iff :
    RejectsForLimit db sender p amount ↔
      LimitChecks.validation.refusal (db.getStakingPool p).toOption (db.getBalance p).toOption amount ≠
        none := by
  rw [Option.ne_none_iff_exists']
  constructor
  · rintro ⟨e, -, h⟩
    exact ⟨e, h⟩
  · rintro ⟨e, h⟩
    exact ⟨e, validateStake_of_refusal h, h⟩

end Validate

namespace UpdatedState

open Fallible

variable {db : StateTables} {s : UpdatedState} {p a : Address} {amount : Balance} (n : BlockNumber)

/-- What a limit refuses, `stake` refuses with the error of that limit. -/
theorem stake_of_refusal (h : LimitChecks.execution.refusal ((view db s).stakingPool p)
      (((view db s).account p).map (·.balance)) amount = some e) :
    ∃ s', (stake db p a n amount).run s = (.error e, s') := by
  unfold stake
  cases hpool : (view db s).stakingPool p with
  | none =>
    rw [hpool] at h
    cases h
  | some pool =>
    rw [hpool] at h
    obtain ⟨s₁, hrun₁, hv₁⟩ := (getStakingPool_reads p).found hpool
    rw [run_bind_of_ok hrun₁]
    unfold LimitChecks.refusal LimitChecks.execution at h
    dsimp only at h
    cases hlimits : checkStakeLimits pool amount with
    | error text =>
      rw [hlimits] at h
      cases h
      exact ⟨s₁, rfl⟩
    | ok _ =>
      rw [hlimits] at h
      rw [run_bind_of_ok (run_lift (.ok ()) s₁)]
      cases hmax : pool.maxPoolBalance with
      | none =>
        rw [hmax] at h
        cases h
      | some maxPoolBalance =>
        cases hacc : (view db s).account p with
        | none =>
          rw [hmax, hacc] at h
          cases h
        | some account =>
          rw [hmax, hacc] at h
          dsimp only [Option.map_some] at h
          have hreads : Reads db (getBalance db p) (fun v => (v.account p).map (·.balance)) :=
            (getAccount_reads p).map (·.balance)
          obtain ⟨s₂, hrun₂, -⟩ := hreads.found (s := s₁) (by rw [hv₁, hacc]; rfl)
          cases hroom : checkPoolRoom maxPoolBalance account.balance amount with
          | error text =>
            rw [hroom] at h
            cases h
            refine ⟨s₂, run_bind_of_error ?_⟩
            unfold checkPoolBalance
            rw [hmax]
            rw [run_bind_of_ok hrun₂, hroom]
            rfl
          | ok _ =>
            rw [hroom] at h
            cases h

/-- `stake` rejects for a limit of the pool. -/
def RejectsForLimit (db : StateTables) (s : UpdatedState) (p a : Address) (n : BlockNumber)
    (amount : Balance) : Prop :=
  ∃ e s', (stake db p a n amount).run s = (.error e, s') ∧
    LimitChecks.execution.refusal ((view db s).stakingPool p) (((view db s).account p).map (·.balance))
      amount = some e

theorem rejectsForLimit_iff :
    RejectsForLimit db s p a n amount ↔
      LimitChecks.execution.refusal ((view db s).stakingPool p)
        (((view db s).account p).map (·.balance)) amount ≠ none := by
  rw [Option.ne_none_iff_exists']
  constructor
  · rintro ⟨e, _, -, h⟩
    exact ⟨e, h⟩
  · rintro ⟨e, h⟩
    obtain ⟨s', hrun⟩ := stake_of_refusal n h
    exact ⟨e, s', hrun, h⟩

/-! ## The limits and the two checks -/

/-- No write is pending: the overlay is empty, but for values it remembers of the database. -/
def NothingPending (db : StateTables) (s : UpdatedState) : Prop :=
  ∀ k, Recalled (db.record k) none (s.entry k)

theorem view_stakingPool_of_nothingPending (h : NothingPending db s) (p : Address) :
    (view db s).stakingPool p = (db.getStakingPool p).toOption :=
  (Recalled.overlaid (h (.stakingPool p))).symm

theorem view_balance_of_nothingPending (h : NothingPending db s) (p : Address) :
    ((view db s).account p).map (·.balance) = (db.getBalance p).toOption := by
  have haccount : (view db s).account p = (db.getAccount p).toOption :=
    (Recalled.overlaid (h (.account p))).symm
  rw [haccount, StateTables.getAccount, StateTables.getBalance]
  cases db.account.lookup p <;> rfl

/-- The limits of the pool are kept by every stake that succeeds, and both functions reject for a limit
    alike where nothing is pending. -/
structure LimitsHold (db : StateTables) (s : UpdatedState) (p a : Address) (n : BlockNumber)
    (amount : Balance) : Prop where
  kept : ∀ s', (stake db p a n amount).run s = (.ok (), s') →
    ∀ pool, (view db s).stakingPool p = some pool → pool.Allows amount ∧
      ∀ maxPoolBalance, pool.maxPoolBalance = some maxPoolBalance →
        (view db s').balanceAt p ≤ maxPoolBalance.toNat
  agree : NothingPending db s → (Validate.RejectsForLimit db a p amount ↔ RejectsForLimit db s p a n amount)

/-- A stake above the limit of a pool whose account is empty. -/
def AboveEmptyPool (st : Store) (p : Address) (amount : Balance) : Prop :=
  ∃ pool maxPoolBalance account, st.stakingPool p = some pool ∧ pool.Allows amount ∧
    pool.maxPoolBalance = some maxPoolBalance ∧ maxPoolBalance < amount ∧
    st.account p = some account ∧ account.balance = 0

/-- The staker has the amount, and it can be noted. -/
def CanStake (st : Store) (p a : Address) (amount : Balance) : Prop :=
  amount.toNat ≤ st.balanceAt a ∧ st.stakedBy p a + amount.toNat < 2 ^ 128

/-- Away from empty pools both checks refuse the same stakes. -/
theorem refusal_iff (h : ¬ AboveEmptyPool st p amount) :
    LimitChecks.validation.refusal (st.stakingPool p) ((st.account p).map (·.balance)) amount = none ↔
      LimitChecks.execution.refusal (st.stakingPool p) ((st.account p).map (·.balance)) amount = none := by
  cases hpool : st.stakingPool p with
  | none => exact .rfl
  | some pool =>
    rw [LimitChecks.refusal_eq_none_iff, LimitChecks.refusal_eq_none_iff,
      LimitChecks.validation_amount_eq_ok, LimitChecks.execution_amount_eq_ok]
    refine and_congr_right fun hallows => ?_
    refine forall₄_congr fun maxPoolBalance poolBalance hmax hbalance => ?_
    rw [LimitChecks.validation_room_eq_ok, LimitChecks.execution_room_eq_ok]
    refine ⟨.inl, ?_⟩
    rintro (hle | ⟨hempty, hless⟩)
    · exact hle
    · obtain ⟨account, hacc, rfl⟩ := Option.map_eq_some_iff.mp hbalance
      exact absurd ⟨pool, maxPoolBalance, account, hpool, hallows, hmax, hless, hacc, hempty⟩ h

/-- Above the limit of an empty pool `validate_stake` rejects, and `stake` goes on. -/
theorem AboveEmptyPool.refusals (h : AboveEmptyPool st p amount) :
    LimitChecks.validation.refusal (st.stakingPool p) ((st.account p).map (·.balance)) amount ≠ none ∧
      LimitChecks.execution.refusal (st.stakingPool p) ((st.account p).map (·.balance)) amount = none := by
  obtain ⟨pool, maxPoolBalance, account, hpool, hallows, hmax, hless, hacc, hempty⟩ := h
  rw [hpool, hacc, Option.map_some, Ne, LimitChecks.refusal_eq_none_iff,
    LimitChecks.refusal_eq_none_iff, LimitChecks.execution_amount_eq_ok]
  constructor
  · rintro ⟨-, hroom⟩
    have hle := LimitChecks.validation_room_eq_ok.mp (hroom maxPoolBalance account.balance hmax rfl)
    have hless : maxPoolBalance.toNat < amount.toNat := hless
    omega
  · refine ⟨hallows, ?_⟩
    intro maxPoolBalance' poolBalance hmax' hbalance
    cases hmax.symm.trans hmax'
    cases hbalance
    exact LimitChecks.execution_room_eq_ok.mpr (.inr ⟨hempty, hless⟩)

/-- What a pool accepts is what the checks of the execution let through. -/
theorem accepts_of_aboveEmptyPool (h : AboveEmptyPool st p amount) :
    ∃ pool maxPoolBalance, st.Accepts p amount pool ∧ pool.maxPoolBalance = some maxPoolBalance ∧
      maxPoolBalance < amount ∧ st.balanceAt p = 0 := by
  obtain ⟨pool, maxPoolBalance, account, hpool, hallows, hmax, hless, hacc, hempty⟩ := h
  refine ⟨pool, maxPoolBalance, ⟨hpool, LimitChecks.execution_amount_eq_ok.mpr hallows, ?_⟩, hmax, hless, ?_⟩
  · intro _ _
    refine ⟨account, hacc, ?_⟩
    rw [hempty, BitVec.le_def]
    exact Nat.zero_le _
  · rw [balanceAt_of_some hacc, hempty]
    rfl

/-- A stake that succeeds keeps the limits, unless it is above the limit of an empty pool. -/
theorem stake_within_limits (hs : WellKeyed s) {n : BlockNumber} {s' : UpdatedState}
    (h : (stake db p a n amount).run s = (.ok (), s'))
    (hnot : ¬ (AboveEmptyPool (view db s).toStore p amount ∧ CanStake (view db s).toStore p a amount))
    (hpool : (view db s).stakingPool p = some pool) :
    pool.Allows amount ∧ ∀ maxPoolBalance, pool.maxPoolBalance = some maxPoolBalance →
      (view db s').balanceAt p ≤ maxPoolBalance.toNat := by
  obtain ⟨pool', st, balance, haccepts, hst, hadd, hview⟩ := stake_ok h
  cases hpool.symm.trans haccepts.found
  have hallows := LimitChecks.execution_amount_eq_ok.mp haccepts.limits
  refine ⟨hallows, ?_⟩
  intro maxPoolBalance hmax
  have hafter : (view db s').balanceAt p = st.balanceAt p := by
    rw [hview]
    rfl
  have hmoved := balanceAt_transfer (accountsFiled_view hs) hst
  obtain ⟨account, hacc, hroom⟩ := haccepts.room maxPoolBalance hmax
  have hbefore := balanceAt_of_some hacc
  have hroom : account.balance.toNat ≤ maxPoolBalance.toNat - amount.toNat := by
    rw [← BitVec.toNat_saturatingSub]
    exact hroom
  have hself := hmoved p
  by_cases hless : maxPoolBalance < amount
  · -- the limit was not checked, so the pool was empty and the stake could be made
    exfalso
    have hless' : maxPoolBalance.toNat < amount.toNat := hless
    have hempty : account.balance = 0 := BitVec.eq_of_toNat_eq (by
      show account.balance.toNat = 0
      omega)
    refine hnot ⟨⟨pool, maxPoolBalance, account, hpool, hallows, hmax, hless, hacc, hempty⟩,
      le_balanceAt_of_transfer hst, ?_⟩
    rw [← toNat_noted hs hadd]
    exact balance.isLt
  · have hle : amount.toNat ≤ maxPoolBalance.toNat := not_lt.mp hless
    split at hself <;> omega

/-- **When the limits of a pool hold.** For every overlay that operations can make, every pool, account and
    amount, the limits are kept and both functions reject for a limit alike, except for a stake above the
    limit of an empty pool, on an overlay without pending writes or by an account that can make it. -/
theorem limitsHold_iff (crypto : Crypto) (db : StateTables) (ops : List Op) (p a : Address)
    (n : BlockNumber) (amount : Balance) :
    LimitsHold db (runOps crypto db ops .new) p a n amount ↔
      ¬ (AboveEmptyPool (view db (runOps crypto db ops .new)).toStore p amount ∧
        (NothingPending db (runOps crypto db ops .new) ∨
          CanStake (view db (runOps crypto db ops .new)).toStore p a amount)) := by
  have hs : WellKeyed (runOps crypto db ops .new) := wellKeyed_runOps crypto db ops
  constructor
  · rintro hlimits ⟨habove, hclean | hcan⟩
    · -- one of the two rejects
      have hagree := hlimits.agree hclean
      obtain ⟨hvalidate, hstake⟩ := habove.refusals
      rw [Validate.rejectsForLimit_iff, rejectsForLimit_iff,
        ← view_stakingPool_of_nothingPending hclean, ← view_balance_of_nothingPending hclean] at hagree
      exact hagree.mp hvalidate hstake
    · -- the stake succeeds, and the pool has more than its limit
      obtain ⟨pool, maxPoolBalance, haccepts, hmax, hless, hempty⟩ := accepts_of_aboveEmptyPool habove
      have hless : maxPoolBalance.toNat < amount.toNat := hless
      have hne : a ≠ p := by
        rintro rfl
        have hle := hcan.1
        omega
      obtain ⟨st, hst⟩ := (exists_transfer_iff hne).mpr
        ⟨isSome_account_of_pos (by have hle := hcan.1; omega), hcan.1, by
          rw [hempty, zero_add]
          exact amount.isLt⟩
      obtain ⟨s', balance, -, hrun, hview⟩ := stake_noted hs n haccepts hst hcan.2
      have hkept := (hlimits.kept s' hrun pool haccepts.found).2 maxPoolBalance hmax
      have hmoved := balanceAt_transfer (accountsFiled_view hs) hst p
      rw [if_pos rfl, if_neg (symm hne)] at hmoved
      have hafter : (view db s').balanceAt p = st.balanceAt p := by
        rw [hview]
        rfl
      omega
  · intro hnot
    constructor
    · intro s' hrun pool hpool
      exact stake_within_limits hs hrun (fun h => hnot ⟨h.1, .inr h.2⟩) hpool
    · intro hclean
      rw [Validate.rejectsForLimit_iff, rejectsForLimit_iff,
        ← view_stakingPool_of_nothingPending hclean, ← view_balance_of_nothingPending hclean]
      exact not_congr (refusal_iff fun habove => hnot ⟨habove, .inl hclean⟩)

/-- A pool that may hold thirty is opened. -/
def openSmallPool : List Op :=
  [.createPool 1 0 0 1 none none none none (some 30) none]

/-- Forty are staked in the new pool that may hold thirty. -/
theorem forty_in_small_pool :
    ((stake beforeStaking 7 1 2 40).run (runOps poolAtSeven beforeStaking openSmallPool .new)).1.isOk = true ∧
      (view beforeStaking ((stake beforeStaking 7 1 2 40).run
        (runOps poolAtSeven beforeStaking openSmallPool .new)).2).balanceAt 7 = 40 ∧
      ¬ LimitsHold beforeStaking (runOps poolAtSeven beforeStaking openSmallPool .new) 7 1 2 40 := by
  refine ⟨rfl, rfl, ?_⟩
  intro h
  have hkept := (h.kept _ rfl _ rfl).2 30 rfl
  have hle : (40 : Nat) ≤ 30 := hkept
  omega

end UpdatedState

end L1xCore
