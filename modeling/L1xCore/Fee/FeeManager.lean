import L1xCore.Lib.Fallible
import L1xCore.System.Transaction

/-!
# `Fee.FeeManager` — fixed fees, the gas price, and the fee limit of a transaction

The `fee` crate: `FeeConfig` has the fixed fees of each transaction kind, `GasStation` converts between
gas and tokens at a fixed price, and a `FeeManager` takes both out of the fee limit of one transaction.
That the limit is never exceeded is part of the type: what is left of it is a field with its bound.
-/

namespace L1xCore

open BitVec

variable {m m' : FeeManager} {fee : Balance} {gas : Gas}

/-- The length of a byte vector, as a `usize`. -/
def len (bytes : Bytes) : BitVec 64 := BitVec.ofNat 64 bytes.length

/-! ## Fixed fees -/

structure ContractFee where
  deployment : Balance
  deploymentPerByte : Balance
  init : Balance
  initPerByte : Balance
  methodCall : Balance
  methodCallPerByte : Balance

structure FeeConfig where
  transaction : Balance
  transactionPerByte : Balance
  tokenTransfer : Balance
  createStakingPool : Balance
  stake : Balance
  unstake : Balance
  stakingPoolContract : Balance
  l1xvmContract : ContractFee
  l1xevmContract : ContractFee
  xtalkContract : ContractFee

namespace FeeConfig

/-- A fixed part and a part per byte. -/
def sizeFee (fixed perByte : Balance) (size : BitVec 64) : Option Balance := do
  let dynamic ← perByte.checkedMul (size.setWidth 128)
  dynamic.checkedAdd fixed

/-- The size a transaction is charged for; only contract transactions have one that varies. -/
def transactionSize (tx : Transaction) : Option (BitVec 64) :=
  match tx.transactionType with
  | .smartContractDeployment _ _ contractCode _ salt => (len contractCode).checkedAdd (len salt)
  | .smartContractInit _ arguments _ => some (len arguments)
  | .smartContractFunctionCall _ function arguments _ =>
    some (((len function).checkedAdd (len arguments)).getD (BitVec.allOnes 64))
  | _ => some 1

/-- `transaction_size_fee`; none on overflow. -/
def transactionSizeFee (config : FeeConfig) (tx : Transaction) : Option Balance := do
  let size ← transactionSize tx
  sizeFee config.transaction config.transactionPerByte size

/-- The fees of contracts of one type. -/
def contractFees (config : FeeConfig) : ContractType → ContractFee
  | .EVM => config.l1xevmContract
  | .L1XVM => config.l1xvmContract
  | .XTALK => config.xtalkContract

/-- `contract_fee`; none on overflow, and for a transaction that runs no contract. -/
def contractFee (config : FeeConfig) (tx : Transaction) (contractType : ContractType) : Option Balance :=
  let fees := config.contractFees contractType
  match tx.transactionType with
  | .smartContractDeployment _ _ contractCode _ _ =>
    sizeFee fees.deployment fees.deploymentPerByte (len contractCode)
  | .smartContractInit _ arguments _ => sizeFee fees.init fees.initPerByte (len arguments)
  | .smartContractFunctionCall _ function arguments _ => do
    let size ← (len function).checkedAdd (len arguments)
    sizeFee fees.methodCall fees.methodCallPerByte size
  | _ => none

/-- `FeeConfig::config`: one token each, and one per byte of the transaction. -/
def config : FeeConfig where
  transaction := 1
  transactionPerByte := 1
  tokenTransfer := 1
  createStakingPool := 1
  stake := 1
  unstake := 1
  stakingPoolContract := 1
  l1xvmContract := ⟨1, 0, 1, 0, 1, 0⟩
  l1xevmContract := ⟨1, 0, 1, 0, 1, 0⟩
  xtalkContract := ⟨1, 0, 1, 0, 1, 0⟩

end FeeConfig

/-! ## Gas -/

/-- `GasStation::buy_gas` at the fixed price; more gas than a `u64` holds is cut off. -/
def buyGas (balance : Balance) : Gas :=
  let maxGas : Balance := (BitVec.allOnes 64).setWidth 128
  let gas := (balance.checkedMul GAS_PRICE).getD maxGas
  if gas ≤ maxGas then gas.setWidth 64 else BitVec.allOnes 64

/-- `GasStation::sell_gas`: a started unit of the price is paid in full. -/
def sellGas (gas : Gas) : Balance :=
  if gas = 0 then 0 else (gas / GAS_PRICE.setWidth 64 + 1).setWidth 128

theorem toNat_buyGas (balance : Balance) :
    (buyGas balance).toNat = min (balance.toNat * GAS_PRICE.toNat) (2 ^ 64 - 1) := by
  have hmax : ((allOnes 64).setWidth 128 : Balance).toNat = 2 ^ 64 - 1 := by decide
  have hones : (allOnes 64 : Gas).toNat = 2 ^ 64 - 1 := by decide
  unfold buyGas
  dsimp only
  cases hgas : balance.checkedMul GAS_PRICE with
  | none =>
    -- a product that does not fit in 128 bits does not fit in 64
    have hlarge := checkedMul_eq_none.mp hgas
    rw [Option.getD_none, if_pos (BitVec.le_refl _), toNat_setWidth, hmax]
    omega
  | some gas =>
    have hexact := checkedMul_eq_some.mp hgas
    rw [Option.getD_some]
    split
    · next hle =>
        rw [le_def, hmax] at hle
        rw [toNat_setWidth, Nat.mod_eq_of_lt (by omega)]
        omega
    · next hgt =>
        rw [le_def, hmax] at hgt
        omega

theorem toNat_sellGas (h : gas ≠ 0) : (sellGas gas).toNat = gas.toNat / GAS_PRICE.toNat + 1 := by
  have hprice : (GAS_PRICE.setWidth 64 : Gas).toNat = GAS_PRICE.toNat := by decide
  rw [sellGas, if_neg h, toNat_setWidth, toNat_add, toNat_udiv, hprice]
  show (gas.toNat / 7000 + 1) % 2 ^ 64 % 2 ^ 128 = gas.toNat / 7000 + 1
  omega

/-- **What gas is sold for buys it back.** -/
theorem le_buyGas_sellGas : gas ≤ buyGas (sellGas gas) := by
  rw [le_def, toNat_buyGas]
  by_cases hzero : gas = 0
  · subst hzero
    exact Nat.zero_le _
  · rw [toNat_sellGas hzero]
    show gas.toNat ≤ min ((gas.toNat / 7000 + 1) * 7000) (2 ^ 64 - 1)
    omega

/-! ## The fee limit -/

/-- What has been taken out of the fee limit of a transaction. -/
structure FeeManager where
  feeLimit : Balance
  gasUsed : Gas
  leftLimit : Balance
  leftLimit_le : leftLimit ≤ feeLimit

namespace FeeManager

open Fallible

/-- An operation that charges fees. -/
abbrev Op := Fallible FeeManager Error

def new (feeLimit : Balance) : FeeManager := ⟨feeLimit, 0, feeLimit, BitVec.le_refl _⟩

/-- Take a fee out of the limit. When it does not suffice, all of it is gone. -/
def charge (manager : FeeManager) (fee : Balance) : Option FeeManager :=
  match h : manager.leftLimit.checkedSub fee with
  | some leftLimit =>
    some { manager with
      leftLimit
      leftLimit_le := by
        have hsub := checkedSub_eq_some.mp h
        have hle := manager.leftLimit_le
        rw [le_def] at hle ⊢; omega }
  | none => none

/-- The manager with nothing left. -/
def exhausted (manager : FeeManager) : FeeManager :=
  { manager with leftLimit := 0, leftLimit_le := by rw [le_def]; simp }

def updateFee (fee : Balance) : Op Unit := do
  let manager ← state
  match manager.charge fee with
  | some manager => update fun _ => manager
  | none => do
    update exhausted
    fail "Update fee: Insufficient fee limit"

def getGasLimit (manager : FeeManager) : Gas := buyGas manager.leftLimit

/-- `checked_add(..).unwrap_or(Gas::MAX)`. -/
def addGas (burntGas : Gas) (manager : FeeManager) : FeeManager :=
  { manager with gasUsed := (manager.gasUsed.checkedAdd burntGas).getD (BitVec.allOnes 64) }

def updateGasAndFeeUsed (burntGas : Gas) : Op Unit := do
  let manager ← state
  match manager.charge (sellGas burntGas) with
  | some manager => update fun _ => manager.addGas burntGas
  | none => do
    update fun manager => (manager.addGas burntGas).exhausted
    fail "Update gas & fee: Insufficient fee limit"

def getFeeUsed (manager : FeeManager) : Balance := manager.feeLimit - manager.leftLimit

variable (manager : FeeManager) {burntGas : Gas}

theorem toNat_getFeeUsed : manager.getFeeUsed.toNat = manager.feeLimit.toNat - manager.leftLimit.toNat :=
  toNat_sub_of_le manager.leftLimit_le

/-- **The fee is within the limit.** -/
theorem getFeeUsed_le : manager.getFeeUsed ≤ manager.feeLimit := by
  rw [le_def, toNat_getFeeUsed]
  exact Nat.sub_le _ _

/-- The limit is fixed from the start. -/
def SameLimit (m m' : FeeManager) : Prop := m'.feeLimit = m.feeLimit

instance : Std.Refl SameLimit := ⟨fun _ => rfl⟩

instance : IsTrans FeeManager SameLimit := ⟨fun _ _ _ h₁ h₂ => h₂.trans h₁⟩

theorem feeLimit_charge (h : m.charge fee = some m') : m'.feeLimit = m.feeLimit := by
  unfold charge at h
  split at h
  · cases h; rfl
  · cases h

theorem gasUsed_charge (h : m.charge fee = some m') : m'.gasUsed = m.gasUsed := by
  unfold charge at h
  split at h
  · cases h; rfl
  · cases h

theorem charge_cases (m : FeeManager) (fee : Balance) :
    (∃ m', m.charge fee = some m' ∧ m'.leftLimit.toNat + fee.toNat = m.leftLimit.toNat) ∨
      m.charge fee = none ∧ m.leftLimit.toNat < fee.toNat := by
  unfold charge
  split
  · next leftLimit h => exact .inl ⟨_, rfl, checkedSub_eq_some.mp h⟩
  · next h => exact .inr ⟨rfl, checkedSub_eq_none.mp h⟩

theorem run_updateFee_ok (h : m.charge fee = some m') : (updateFee fee).run m = (.ok (), m') := by
  rw [updateFee, run_bind_of_ok (run_state m), h]
  rfl

theorem run_updateFee_error (h : m.charge fee = none) :
    (updateFee fee).run m = (.error "Update fee: Insufficient fee limit", m.exhausted) := by
  rw [updateFee, run_bind_of_ok (run_state m), h]
  rfl

theorem updateFee_sameLimit : Moves SameLimit (updateFee fee) := by
  intro m
  simp only [updateFee, run_bind, run_state]
  cases h : m.charge fee with
  | some m' => exact feeLimit_charge h
  | none => rfl

theorem updateGasAndFeeUsed_sameLimit : Moves SameLimit (updateGasAndFeeUsed burntGas) := by
  intro m
  simp only [updateGasAndFeeUsed, run_bind, run_state]
  cases h : m.charge (sellGas burntGas) with
  | some m' =>
    have hlimit : m'.feeLimit = m.feeLimit := feeLimit_charge h
    exact hlimit
  | none => rfl

/-- **What a charge for gas does.** The gas is added, and what it costs is taken out of the limit, or all of it
    is gone. -/
theorem updateGasAndFeeUsed_spec (m : FeeManager) (burntGas : Gas) :
    ((updateGasAndFeeUsed burntGas).run m).2.feeLimit = m.feeLimit ∧
    ((updateGasAndFeeUsed burntGas).run m).2.gasUsed = (m.addGas burntGas).gasUsed ∧
    ((updateGasAndFeeUsed burntGas).run m).2.leftLimit.toNat =
      m.leftLimit.toNat - (sellGas burntGas).toNat := by
  refine ⟨updateGasAndFeeUsed_sameLimit m, ?_⟩
  unfold updateGasAndFeeUsed
  rw [run_bind_of_ok (run_state m)]
  rcases m.charge_cases (sellGas burntGas) with ⟨m', hcharge, hleft⟩ | ⟨hcharge, hless⟩
  · rw [hcharge]
    refine ⟨?_, ?_⟩
    · show (m'.gasUsed.checkedAdd burntGas).getD _ = (m.gasUsed.checkedAdd burntGas).getD _
      rw [gasUsed_charge hcharge]
    · show m'.leftLimit.toNat = _
      omega
  · rw [hcharge]
    refine ⟨rfl, ?_⟩
    show 0 = _
    omega

/-! ## The gas that a limit is for -/

/-- A charge for gas succeeds exactly when what is left covers its price. -/
theorem updateGasAndFeeUsed_ok_iff :
    ((updateGasAndFeeUsed burntGas).run m).1 = .ok () ↔ (sellGas burntGas).toNat ≤ m.leftLimit.toNat := by
  unfold updateGasAndFeeUsed
  rw [run_bind_of_ok (run_state m)]
  rcases m.charge_cases (sellGas burntGas) with ⟨m', hcharge, hleft⟩ | ⟨hcharge, hless⟩
  · rw [hcharge]
    constructor
    · intro _
      omega
    · intro _
      rfl
  · rw [hcharge]
    constructor
    · intro h
      cases h
    · intro h
      omega

/-- Gas within the limit can be paid for, and what it is sold for buys it back. -/
structure GasFits (m : FeeManager) (burntGas : Gas) : Prop where
  paid : burntGas ≤ m.getGasLimit → ((updateGasAndFeeUsed burntGas).run m).1 = .ok ()
  boughtBack : burntGas ≤ buyGas (sellGas burntGas)

/-- **When the gas of a limit can be paid for.** A started unit of the price is paid in full, and so is one
    that has just ended. For every state of a fee manager and every amount of gas: gas within the limit is
    paid for, unless it is all the gas that the remaining fee buys. -/
theorem gasFits_iff (m : FeeManager) (burntGas : Gas) :
    m.GasFits burntGas ↔ burntGas = 0 ∨ burntGas.toNat ≠ m.leftLimit.toNat * GAS_PRICE.toNat := by
  constructor
  · intro h
    by_contra hall
    obtain ⟨hne, hall⟩ := not_or.mp hall
    have hall := not_not.mp hall
    have hlimit : burntGas ≤ m.getGasLimit := by
      rw [getGasLimit, le_def, toNat_buyGas]
      omega
    have hpaid := updateGasAndFeeUsed_ok_iff.mp (h.paid hlimit)
    rw [toNat_sellGas hne, hall] at hpaid
    have hunits : m.leftLimit.toNat * GAS_PRICE.toNat / GAS_PRICE.toNat = m.leftLimit.toNat :=
      Nat.mul_div_cancel _ (by decide)
    omega
  · intro h
    refine ⟨?_, le_buyGas_sellGas⟩
    intro hlimit
    apply updateGasAndFeeUsed_ok_iff.mpr
    by_cases hzero : burntGas = 0
    · subst hzero
      exact Nat.zero_le _
    · rw [getGasLimit, le_def, toNat_buyGas] at hlimit
      rw [toNat_sellGas hzero]
      have hless : burntGas.toNat < m.leftLimit.toNat * GAS_PRICE.toNat := by
        rcases h with h | h
        · exact absurd h hzero
        · omega
      exact Nat.div_lt_of_lt_mul (by rw [mul_comm]; exact hless)

/-- With one token left the limit is the price, and that much gas is refused. -/
theorem all_gas_not_paid :
    (new 1).getGasLimit = 7000 ∧
    (updateGasAndFeeUsed 7000).run (new 1) = (.error "Update gas & fee: Insufficient fee limit",
      ((new 1).addGas 7000).exhausted) ∧ ¬ (new 1).GasFits 7000 := by
  refine ⟨by decide, rfl, ?_⟩
  intro h
  have hpaid := h.paid (by decide)
  cases hpaid

end FeeManager

end L1xCore
