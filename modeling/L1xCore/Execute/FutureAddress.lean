import L1xCore.Execute.CallValue
import L1xCore.Execute.ContractExecutor
import L1xCore.State.Transfers

/-!
# `Execute.FutureAddress` — tokens at an address before it is created

The addresses of pools, contracts and instances follow from the sender and its nonce, so that everybody can know
them. A transfer to such an address opens an account there. Every creation asks for an account at its address
first, and takes one for a collision.
-/

namespace L1xCore

open Fallible UpdatedState

/-- What a transaction creates. -/
inductive Creation where
  | pool (createdBlockNumber : BlockNumber) (contractInstanceAddress : Option Address)
      (minStake maxStake minPoolBalance maxPoolBalance : Option Balance) (stakingPeriod : Option BlockNumber)
  | deployment (contractType : ContractType) (accessType : AccessType) (contractCode : ContractCode)
      (deposit : Balance)
  | init (contractType : ContractType) (contract : Contract) (arguments : ContractArgument) (deposit : Balance)

namespace Creation

variable (vms : VirtualMachines) (db : StateTables) (cx : CallContext)

/-- The address it is created at. -/
def address : Creation → Address
  | pool .. => Account.poolAddress vms.crypto cx.accountAddress cx.clusterAddress cx.nonce
  | deployment .EVM accessType contractCode deposit =>
    let deployment := cx.deployment accessType contractCode deposit
    createEvmAddress vms.crypto deployment.scheme deployment.env.nonce
  | deployment .. => Account.contractAddress vms.crypto cx.accountAddress cx.clusterAddress cx.nonce
  | init _ contract _ _ => (cx.initInstance vms.crypto contract).instanceAddress

def run (creation : Creation) (s : UpdatedState) : Except Error Address × UpdatedState :=
  match creation with
  | pool createdBlockNumber contractInstanceAddress minStake maxStake minPoolBalance maxPoolBalance
      stakingPeriod =>
    (createPool db vms.crypto cx.accountAddress cx.clusterAddress cx.nonce createdBlockNumber
      contractInstanceAddress minStake maxStake minPoolBalance maxPoolBalance stakingPeriod).run s
  | deployment contractType accessType contractCode deposit =>
    let deployed := vms.executeContractDeployment db contractType cx accessType contractCode deposit s
    (deployed.outcome.map (·.1), deployed.updatedState)
  | init contractType contract arguments deposit =>
    let created := vms.executeContractInit db contractType cx contract arguments deposit s
    (created.outcome.map (·.1.instanceAddress), created.updatedState)

/-- **Tokens do not block a creation.** What can be created on the overlay `s` can be created on `s'`, where the
    address has got an amount, and then has it in addition. -/
def Unblocked (creation : Creation) (amount : Balance) (s s' : UpdatedState) : Prop :=
  ∀ created s₁, creation.run vms db cx s = (.ok created, s₁) →
    ∃ s₁', creation.run vms db cx s' = (.ok created, s₁') ∧
      (view db s₁').balanceAt created = (view db s₁).balanceAt created + amount.toNat

variable {vms db cx} {s : UpdatedState} {a : Address}

theorem createSystemAccount_of_occupied (h : ((view db s).account a).isSome) :
    ∃ e s', (createSystemAccount db a).run s = (.error e, s') := by
  obtain ⟨account, hacc⟩ := Option.isSome_iff_exists.mp h
  have hcreate : Transacts db (createSystemAccount db a) (·.createAccount (.newSystem a)) := createAccount_transacts
  have hnone : (view db s).toStore.createAccount (.newSystem a) = none := by
    simp [Store.createAccount, Account.newSystem, hacc]
  obtain ⟨e, s', hrun, -⟩ := hcreate.undefined hnone
  exact ⟨e, s', hrun⟩

/-- **A collision**: nothing is created at an address that has an account. -/
theorem run_of_occupied (creation : Creation) (h : ((view db s).account (creation.address vms cx)).isSome) :
    ∃ e s', creation.run vms db cx s = (.error e, s') := by
  cases creation with
  | pool =>
    obtain ⟨e, s', hrun⟩ := createSystemAccount_of_occupied h
    exact ⟨e, s', run_bind_of_error hrun⟩
  | deployment contractType accessType contractCode deposit =>
    cases contractType with
    | L1XVM =>
      obtain ⟨e, s', hrun⟩ := createSystemAccount_of_occupied h
      have hdeploy : (ExecuteContractL1xvm.executeContractDeployment vms.crypto db cx accessType
          contractCode).run s = (.error e, s') := run_bind_of_error hrun
      refine ⟨e, s', ?_⟩
      simp only [run, VirtualMachines.executeContractDeployment, hdeploy]
      rfl
    | EVM =>
      obtain ⟨account, hacc⟩ := Option.isSome_iff_exists.mp h
      obtain ⟨s', hrun, -⟩ := isValidAccount_of_found hacc
      simp only [run, VirtualMachines.executeContractDeployment]
      rw [contractEngines_eq]
      dsimp only [address, CallContext.env] at hrun
      simp only [nextEngines, ExecuteContractEvm.executeContractDeployment,
        ExecuteContractEvm.createContractAccount, run_bind_of_ok hrun]
      exact ⟨_, s', rfl⟩
    | XTALK => exact ⟨_, s, rfl⟩
  | init contractType contract arguments deposit =>
    cases contractType with
    | L1XVM =>
      obtain ⟨e, s', hrun⟩ := createSystemAccount_of_occupied h
      have hcreate : (ExecuteContractL1xvm.createInstance vms.crypto db cx contract).run s = (.error e, s') :=
        run_bind_of_error hrun
      refine ⟨e, s', ?_⟩
      simp only [run, VirtualMachines.executeContractInit, ExecuteContractL1xvm.executeContractInit, hcreate]
      rfl
    | EVM | XTALK => exact ⟨_, s, rfl⟩

/-- **When tokens do no harm**: only if nothing can be created without them either. -/
theorem unblocked_iff (creation : Creation) (ops : List Op) (payer : Address) (amount : Balance)
    {s' : UpdatedState} (hfunded : (transfer db payer (creation.address vms cx) amount).run
      (runOps vms.crypto db ops .new) = (.ok (), s')) :
    creation.Unblocked vms db cx amount (runOps vms.crypto db ops .new) s' ↔
      ∀ created s₁, creation.run vms db cx (runOps vms.crypto db ops .new) ≠ (.ok created, s₁) := by
  have hexact : TransferExact db (runOps vms.crypto db ops .new) payer (creation.address vms cx) amount :=
    transferExact_of_wellKeyed (wellKeyed_runOps vms.crypto db ops) payer (creation.address vms cx) amount
  unfold TransferExact at hexact
  rw [hfunded] at hexact
  obtain ⟨account, balance, -, hpayee⟩ := hexact.1.payee
  have hoccupied : ((view db s').account (creation.address vms cx)).isSome :=
    Option.isSome_iff_exists.mpr ⟨_, hpayee⟩
  obtain ⟨e, s₁, hcollision⟩ := creation.run_of_occupied hoccupied
  constructor
  · intro hunblocked created s₂ hrun
    obtain ⟨s₃, hrun', -⟩ := hunblocked created s₂ hrun
    cases hcollision.symm.trans hrun'
  · intro hfails created s₂ hrun
    exact absurd hrun (hfails created s₂)

open L1xCore.Small (virtualMachines)
open ExecuteContractL1xvm (askingTables)

/-- The third transaction of account 0x66. -/
def thirdCall : CallContext := ⟨0x66, 0, 3, 0, 0, 0, 0, 0⟩

def unlimitedPool : Creation := .pool 0 none none none none none none

/-- One token of account 0x77 at the address of the pool, and it cannot be created any more. -/
theorem funded_pool_refused :
    ∃ s', (transfer askingTables 0x77 (unlimitedPool.address virtualMachines thirdCall) 1).run .new =
        (.ok (), s') ∧ (unlimitedPool.run virtualMachines askingTables thirdCall .new).1.isOk = true ∧
      (unlimitedPool.run virtualMachines askingTables thirdCall s').1.isOk = false ∧
      ¬ unlimitedPool.Unblocked virtualMachines askingTables thirdCall 1 .new s' := by
  have hcreates : (unlimitedPool.run virtualMachines askingTables thirdCall .new).1.isOk = true := by
    decide +kernel
  have hrefused : (unlimitedPool.run virtualMachines askingTables thirdCall
      ((transfer askingTables 0x77 (unlimitedPool.address virtualMachines thirdCall) 1).run .new).2).1.isOk =
        false := by
    decide +kernel
  refine ⟨_, run_eq_of_fst (by decide +kernel), hcreates, hrefused, fun hunblocked => ?_⟩
  rcases hrun : unlimitedPool.run virtualMachines askingTables thirdCall .new with ⟨e | created, s₁⟩
  · rw [hrun] at hcreates
    cases hcreates
  · obtain ⟨s₁', hrun', -⟩ := hunblocked created s₁ hrun
    rw [hrun'] at hrefused
    cases hrefused

/-- A second token makes no difference to the pool: its address is taken already. -/
theorem taken_pool_unblocked :
    let taken := runOps virtualMachines.crypto askingTables
      [.transfer 0x77 (unlimitedPool.address virtualMachines thirdCall) 1] .new
    ∃ s', (transfer askingTables 0x77 (unlimitedPool.address virtualMachines thirdCall) 1).run taken =
        (.ok (), s') ∧ unlimitedPool.Unblocked virtualMachines askingTables thirdCall 1 taken s' := by
  intro taken
  have hpaid : ((transfer askingTables 0x77 (unlimitedPool.address virtualMachines thirdCall) 1).run taken).1 =
      .ok () := by
    decide +kernel
  have hrefused : (unlimitedPool.run virtualMachines askingTables thirdCall taken).1.isOk = false := by
    decide +kernel
  refine ⟨_, run_eq_of_fst hpaid, (unblocked_iff _ _ 0x77 1 (run_eq_of_fst hpaid)).mpr ?_⟩
  intro created s₁ hcreated
  rw [hcreated] at hrefused
  cases hrefused

end Creation

end L1xCore
