import L1xCore.Fee.FeeManager
import L1xCore.L1xEvm.Evm
import L1xCore.State.Operations
import L1xCore.System.Block

/-!
# `Execute.ExecuteTransaction` — the execution of one transaction

`execute/src/execute_transaction.rs`: fees are charged, and then each of the eight kinds does its work
on the overlay. The contract engines are a parameter (`ContractExecutor`): they may run any operations on
the overlay, nested calls included, and report any amount of burnt gas.

An execution works on two pieces of mutable state, the overlay and the fee manager (`Execution`). Every
early return of the source reports the fees charged so far, which is what failing in `Fallible` does.
-/

namespace L1xCore

open Fallible UpdatedState FeeManager

variable {α : Type} {deposit : Balance} {arguments : ContractArgument} {tx : Transaction}

/-! ## Contract engines -/

/-- What every contract call is told about its transaction and block. -/
structure CallContext where
  accountAddress : Address
  clusterAddress : Address
  nonce : Nonce
  gasLimit : Gas
  transactionHash : TransactionHash
  blockNumber : BlockNumber
  blockHash : BlockHash
  blockTimestamp : BlockTimeStamp

/-- What a call answers in a state of the overlay, and the operations it performs there. -/
abbrev Call (α : Type) := UpdatedState → α × List Op

/-- The engine of each contract type. It sees and changes the overlay through its operations only. -/
structure ContractExecutor where
  executeContractDeployment : ContractType → StateTables → CallContext → AccessType →
    ContractCode → Salt → Balance → Call (Except Error (Address × Gas))
  executeContractInit : ContractType → StateTables → CallContext → Contract →
    ContractArgument → Balance → Call (Except Error (ContractInstance × Gas))
  /-- A function call never fails as such; how it ended tells what happened. -/
  executeContractFunctionCall : ContractType → StateTables → CallContext → Contract →
    ContractInstance → ContractFunction → ContractArgument → Balance → Call (Capture × Gas)

/-- Run a call on the overlay. -/
def Call.perform {α : Type} (call : Call (Except Error α)) (crypto : Crypto) (db : StateTables) : StateOp α :=
  fun s => ((call s).1, runOps crypto db (call s).2 s)

/-- A call as one that may fail. -/
def Call.total {α : Type} (call : Call α) : Call (Except Error α) := fun s => (.ok (call s).1, (call s).2)

/-- What a transaction reports. -/
inductive ExecutionEvent where
  | nativeTokenTransferred (fromAddress toAddress : Address) (amount : Balance)
  | smartContractDeployed (contractType : ContractType) (contractAddress : Address)
  | smartContractInitialized (contractInstance : ContractInstance)
  | returned (data : Bytes)
  deriving DecidableEq

/-! ## Tokens -/

def isMint (fromAddress toAddress : Address) : Bool :=
  fromAddress = toAddress ∧ fromAddress = MINT_MASTER_ADDRESS

def isMintTx (fromAddress : Address) (tx : Transaction) : Bool :=
  match tx.transactionType with
  | .nativeTokenTransfer toAddress _ => isMint fromAddress toAddress
  | _ => false

def executeNativeTokenTransfer (db : StateTables) (fromAddress toAddress : Address)
    (amount : Balance) : StateOp Unit :=
  if isMint fromAddress toAddress then mint db amount toAddress
  else transfer db fromAddress toAddress amount

/-! ## One transaction -/

/-- The mutable state of an execution. -/
structure Execution where
  updatedState : UpdatedState
  feeManager : FeeManager

abbrev ExecutionOp := Fallible Execution Error

namespace ExecutionOp

def onState {α : Type} (x : StateOp α) : ExecutionOp α :=
  zoom Execution.updatedState (fun updatedState e => { e with updatedState }) x

def onFees {α : Type} (x : Op α) : ExecutionOp α :=
  zoom Execution.feeManager (fun feeManager e => { e with feeManager }) x

end ExecutionOp

open ExecutionOp

/-- What a transaction is executed with. -/
structure TransactionContext where
  rt : Runtime
  executor : ContractExecutor
  db : StateTables
  accountAddress : Address
  clusterAddress : Address
  blockNumber : BlockNumber
  blockHash : BlockHash
  blockTimestamp : BlockTimeStamp

/-- The result of a transaction kind and its event. -/
abbrev Executed := Except Error Unit × Option ExecutionEvent

def analyzeReason (reason : ExitReason) (returnData : Bytes) : Executed :=
  match reason with
  | .succeed => (.ok (), some (.returned returnData))
  | .error e => (.error e, some (.returned returnData))
  | .revert e => (.error e, some (.returned returnData))
  | .fatal e => (.error e, some (.returned returnData))

namespace TransactionContext

variable (cx : TransactionContext)

def perform {α : Type} (call : Call (Except Error α)) : ExecutionOp α :=
  onState (call.perform cx.rt.crypto cx.db)

def chargeFee (fee : Balance) : ExecutionOp Unit := onFees (updateFee fee)

def chargeContractFee (tx : Transaction) (contractType : ContractType) : ExecutionOp Unit := do
  let fee ← okOr (FeeConfig.config.contractFee tx contractType) "Can't get contract fee"
  chargeFee fee

def callContext (nonce : Nonce) (transactionHash : TransactionHash) (gasLimit : Gas) : CallContext :=
  { accountAddress := cx.accountAddress, clusterAddress := cx.clusterAddress, nonce, gasLimit,
    transactionHash, blockNumber := cx.blockNumber, blockHash := cx.blockHash,
    blockTimestamp := cx.blockTimestamp }

def executeTokenTransfer (recipient : Address) (amount : Balance) : ExecutionOp Executed := do
  chargeFee FeeConfig.config.tokenTransfer
  mapError ("Error executing NativeTokenTransfer - " ++ ·)
    (onState (executeNativeTokenTransfer cx.db cx.accountAddress recipient amount))
  pure (.ok (), some (.nativeTokenTransferred cx.accountAddress recipient amount))

def executeDeployment (tx : Transaction) (transactionHash : TransactionHash) (nonce : Nonce)
    (accessType : AccessType) (contractType : ContractType) (contractCode : ContractCode)
    (deposit : Balance) (salt : Salt) : ExecutionOp Executed := do
  if salt.length ≠ 32 then fail "Incorrect salt"
  else
    chargeContractFee tx contractType
    let e ← state
    let (contractAddress, burntGas) ←
      mapError ("Error executing SmartContractDeployment - " ++ ·)
        (cx.perform (cx.executor.executeContractDeployment contractType cx.db
          (cx.callContext nonce transactionHash e.feeManager.getGasLimit) accessType contractCode
          salt deposit))
    onFees (updateGasAndFeeUsed burntGas)
    pure (.ok (), some (.smartContractDeployed contractType contractAddress))

def executeInit (tx : Transaction) (transactionHash : TransactionHash) (nonce : Nonce)
    (contractCodeAddress : Address) (arguments : ContractArgument) (deposit : Balance) :
    ExecutionOp Executed := do
  let contract ← onState (getContract cx.db contractCodeAddress)
  let contractType ← lift (ContractType.ofInt8 contract.type)
  chargeContractFee tx contractType
  let e ← state
  let (contractInstance, burntGas) ←
    mapError ("Error executing SmartContractInit - " ++ ·)
      (cx.perform (cx.executor.executeContractInit contractType cx.db
        (cx.callContext nonce transactionHash e.feeManager.getGasLimit) contract arguments deposit))
  onFees (updateGasAndFeeUsed burntGas)
  pure (.ok (), some (.smartContractInitialized contractInstance))

/-- A call of an address that is no contract instance is a token transfer. -/
def executeFunctionCall (tx : Transaction) (transactionHash : TransactionHash) (nonce : Nonce)
    (contractInstanceAddress : Address) (function : ContractFunction)
    (arguments : ContractArgument) (deposit : Balance) : ExecutionOp Executed := do
  let valid ← onState (isValidContractInstance cx.db contractInstanceAddress)
  if valid then
    let contractInstance ←
      onState (getContractInstance cx.db contractInstanceAddress)
    let contract ← onState (getContract cx.db contractInstance.contractAddress)
    let contractType ← lift (ContractType.ofInt8 contract.type)
    chargeContractFee tx contractType
    let e ← state
    let (capture, burntGas) ←
      cx.perform (cx.executor.executeContractFunctionCall contractType cx.db
        (cx.callContext nonce transactionHash e.feeManager.getGasLimit) contract contractInstance
        function arguments deposit).total
    onFees (updateGasAndFeeUsed burntGas)
    match capture with
    | .exit reason result => pure (analyzeReason reason result)
    | .trap => pure (analyzeReason (.error "execute_transaction: Capture::Trap(resolve)") [])
  else cx.executeTokenTransfer contractInstanceAddress deposit

def executeCreateStakingPool (nonce : Nonce) (contractInstanceAddress : Option Address)
    (minStake maxStake minPoolBalance maxPoolBalance : Option Balance)
    (stakingPeriod : Option BlockNumber) : ExecutionOp Executed := do
  chargeFee FeeConfig.config.createStakingPool
  let address ← mapError ("Error executing CreateStakingPool - " ++ ·)
    (onState (createPool cx.db cx.rt.crypto cx.accountAddress cx.clusterAddress nonce
      cx.blockNumber contractInstanceAddress minStake maxStake minPoolBalance maxPoolBalance stakingPeriod))
  pure (.ok (), some (.returned (addressBytes address)))

/-- The kinds that do one staking operation and report no event. -/
def executeStaking (fee : Balance) (kind : String) (x : StateOp Unit) : ExecutionOp Executed := do
  chargeFee fee
  mapError (s!"Error executing {kind} - " ++ ·) (onState x)
  pure (.ok (), none)

/-- The work of each transaction kind. -/
def executeKind (tx : Transaction) (transactionHash : TransactionHash) (nonce : Nonce) :
    ExecutionOp Executed :=
  match tx.transactionType with
  | .nativeTokenTransfer recipient amount => cx.executeTokenTransfer recipient amount
  | .smartContractDeployment accessType contractType contractCode deposit salt =>
    cx.executeDeployment tx transactionHash nonce accessType contractType contractCode deposit salt
  | .smartContractInit contractCodeAddress arguments deposit =>
    cx.executeInit tx transactionHash nonce contractCodeAddress arguments deposit
  | .smartContractFunctionCall contractInstanceAddress function arguments deposit =>
    cx.executeFunctionCall tx transactionHash nonce contractInstanceAddress function arguments
      deposit
  | .createStakingPool contractInstanceAddress minStake maxStake minPoolBalance maxPoolBalance
      stakingPeriod =>
      cx.executeCreateStakingPool nonce contractInstanceAddress minStake maxStake minPoolBalance
        maxPoolBalance stakingPeriod
  | .stake poolAddress amount =>
    executeStaking FeeConfig.config.stake "Stake"
      (stake cx.db poolAddress cx.accountAddress cx.blockNumber amount)
  | .unStake poolAddress amount =>
    executeStaking FeeConfig.config.unstake "UnStake"
      (unStake cx.db poolAddress cx.accountAddress cx.blockNumber amount)
  | .stakingPoolContract poolAddress contractInstanceAddress =>
    executeStaking FeeConfig.config.stakingPoolContract "StakingPoolContract"
      (updateContract cx.db contractInstanceAddress poolAddress cx.blockNumber)

/-- The body of `ExecuteTransaction::execute_transaction`. -/
def executeBody (tx : Transaction) : ExecutionOp Executed := do
  let fee ← okOr (FeeConfig.config.transactionSizeFee tx) "Can't get transaction size fee"
  chargeFee fee
  let transactionHash ← lift (tx.transactionHash cx.rt.crypto cx.rt.codec)
  let accountNonce ← onState (getNonce cx.db cx.accountAddress)
  cx.executeKind tx transactionHash accountNonce

/-- How every execution begins: the size is charged, and the hash and the nonce are got. -/
def opening (tx : Transaction) : ExecutionOp (TransactionHash × Nonce) := do
  let fee ← okOr (FeeConfig.config.transactionSizeFee tx) "Can't get transaction size fee"
  chargeFee fee
  let transactionHash ← lift (tx.transactionHash cx.rt.crypto cx.rt.codec)
  let accountNonce ← onState (getNonce cx.db cx.accountAddress)
  pure (transactionHash, accountNonce)

variable {cx}

theorem opening_bind {f : TransactionHash → Nonce → ExecutionOp α} :
    (cx.opening tx >>= fun opened => f opened.1 opened.2) = (do
      let fee ← okOr (FeeConfig.config.transactionSizeFee tx) "Can't get transaction size fee"
      chargeFee fee
      let transactionHash ← lift (tx.transactionHash cx.rt.crypto cx.rt.codec)
      let accountNonce ← onState (getNonce cx.db cx.accountAddress)
      f transactionHash accountNonce) := by
  unfold opening
  simp only [bind_bind]
  rfl

theorem run_executeBody_opening (tx : Transaction) (e : Execution) :
    (cx.executeBody tx).run e =
      (cx.opening tx >>= fun opened => cx.executeKind tx opened.1 opened.2).run e := by
  rw [opening_bind]
  rfl

end TransactionContext

structure TransactionResult where
  event : Option ExecutionEvent
  fee : Balance
  gasBurnt : Gas
  isSuccess : Bool
  error : Option Error
  deriving DecidableEq

/-- `ExecuteBlock::execute_transaction`: both outcomes report the event, the fee and the gas. -/
def executeTransaction (cx : TransactionContext) (tx : Transaction) (updatedState : UpdatedState) :
    Except TransactionResult TransactionResult × UpdatedState :=
  let (executed, e) := (cx.executeBody tx).run ⟨updatedState, .new tx.feeLimit⟩
  let fee := e.feeManager.getFeeUsed
  let gas := e.feeManager.gasUsed
  match executed with
  | .error error => (.error ⟨none, fee, gas, false, some error⟩, e.updatedState)
  | .ok (.error error, event) => (.error ⟨event, fee, gas, false, some error⟩, e.updatedState)
  | .ok (.ok (), event) => (.ok ⟨event, fee, gas, true, none⟩, e.updatedState)

/-! ## What an execution is made of -/

namespace TransactionContext

/-- `R` contains the steps of an execution other than the work on the overlay: charges against one limit, and
    reads. -/
structure ExecutionRule (cx : TransactionContext) (R : Execution → Execution → Prop) : Prop where
  fees : ∀ {α : Type} {x : Op α}, Moves SameLimit x → Moves R (onFees x)
  reads : ∀ {α : Type} {x : StateOp α}, Moves (Remembers cx.db) x → Moves R (onState x)

namespace ExecutionRule

variable {cx : TransactionContext} {R : Execution → Execution → Prop} (h : cx.ExecutionRule R)
include h

theorem chargeFee (fee : Balance) : Moves R (chargeFee fee) := h.fees updateFee_sameLimit

theorem getNonce : Moves R (onState (getNonce cx.db cx.accountAddress)) :=
  h.reads ((getAccount_remembers _).bind fun _ => .pure _)

variable [Std.Refl R] [IsTrans Execution R]

theorem chargeContractFee (tx : Transaction) (contractType : ContractType) :
    Moves R (chargeContractFee tx contractType) :=
  (Moves.okOr _ _).bind fun fee => h.chargeFee fee

theorem burn {β : Type} (gas : Gas) (b : β) :
    Moves R (do
      onFees (updateGasAndFeeUsed gas)
      pure b) :=
  (h.fees updateGasAndFeeUsed_sameLimit).bind fun _ => .pure _

theorem work {x : StateOp α} (hx : Moves R (onState x)) (fee : Balance) (text : Error → Error)
    (f : α → Executed) :
    Moves R (do
      TransactionContext.chargeFee fee
      let a ← mapError text (onState x)
      pure (f a)) :=
  (h.chargeFee fee).bind fun _ => hx.mapError.bind fun _ => .pure _

theorem executeDeployment {accessType : AccessType} {contractType : ContractType}
    {contractCode : ContractCode} {salt : Salt}
    (hengine : ∀ call, call.accountAddress = cx.accountAddress → Moves R (cx.perform
      (cx.executor.executeContractDeployment contractType cx.db call accessType contractCode salt deposit)))
    (tx : Transaction) (hash : TransactionHash) (nonce : Nonce) :
    Moves R (cx.executeDeployment tx hash nonce accessType contractType contractCode deposit salt) := by
  unfold TransactionContext.executeDeployment
  split
  · exact .fail _
  · exact (h.chargeContractFee _ _).bind fun _ => Moves.state.bind fun _ =>
      (hengine _ rfl).mapError.bind fun _ => h.burn _ _

theorem executeInit
    (hengine : ∀ contractType call contract, call.accountAddress = cx.accountAddress → Moves R (cx.perform
      (cx.executor.executeContractInit contractType cx.db call contract arguments deposit)))
    (tx : Transaction) (hash : TransactionHash) (nonce : Nonce) (contractCodeAddress : Address) :
    Moves R (cx.executeInit tx hash nonce contractCodeAddress arguments deposit) :=
  (h.reads (getContract_remembers _)).bind fun _ => (Moves.lift _).bind fun _ =>
    (h.chargeContractFee _ _).bind fun _ => Moves.state.bind fun _ =>
      (hengine _ _ _ rfl).mapError.bind fun _ => h.burn _ _

/-- A call of a contract instance, or a transfer to an address that is none. What is known about an instance
    that was looked up may be used for the call. -/
theorem executeFunctionCall {contractInstanceAddress : Address} {function : ContractFunction}
    {Stored : ContractInstance → Prop}
    (htransfer : Moves R (cx.executeTokenTransfer contractInstanceAddress deposit))
    (hinstance : ∀ {f : ContractInstance → ExecutionOp Executed}, (∀ i, Stored i → Moves R (f i)) →
      Moves R (onState (getContractInstance cx.db contractInstanceAddress) >>= f))
    (hengine : ∀ contractType call contract contractInstance, Stored contractInstance →
      call.accountAddress = cx.accountAddress → Moves R (cx.perform
        (cx.executor.executeContractFunctionCall contractType cx.db call contract contractInstance function
          arguments deposit).total)) (tx : Transaction) (hash : TransactionHash) (nonce : Nonce) :
    Moves R (cx.executeFunctionCall tx hash nonce contractInstanceAddress function arguments deposit) := by
  have hread : ∀ a, Moves (Remembers cx.db) (getContractInstance cx.db a) := getContractInstance_remembers
  refine (h.reads ((hread _).outcome.bind fun _ => .pure _)).bind fun valid => ?_
  cases valid with
  | false => exact htransfer
  | true =>
    refine hinstance fun i hi =>
      (h.reads (getContract_remembers _)).bind fun _ => (Moves.lift _).bind fun _ =>
        (h.chargeContractFee _ _).bind fun _ => Moves.state.bind fun _ =>
          (hengine _ _ _ i hi rfl).bind fun r =>
            (h.fees updateGasAndFeeUsed_sameLimit).bind fun _ => ?_
    cases r.1 with
    | exit reason result => exact .pure _
    | trap => exact .pure _

omit [Std.Refl R] in
theorem readInstance {address : Address} {f : ContractInstance → ExecutionOp Executed}
    (hf : ∀ i, True → Moves R (f i)) : Moves R (onState (getContractInstance cx.db address) >>= f) :=
  (h.reads (getContractInstance_remembers address)).bind fun i => hf i trivial

theorem executeBody (hkind : ∀ hash nonce, Moves R (cx.executeKind tx hash nonce)) :
    Moves R (cx.executeBody tx) :=
  (Moves.okOr _ _).bind fun _ => (h.chargeFee _).bind fun _ => (Moves.lift _).bind fun hash =>
    h.getNonce.bind fun nonce => hkind hash nonce

end ExecutionRule

end TransactionContext

/-! ## What every execution keeps -/

namespace Execution

/-- The overlay only evolves, and the fee limit stays what it was. -/
structure Step (e e' : Execution) : Prop where
  evolves : e.updatedState.Evolves e'.updatedState
  sameLimit : e.feeManager.SameLimit e'.feeManager

instance : Std.Refl Step := ⟨fun _ => ⟨refl_of Evolves _, refl_of SameLimit _⟩⟩

instance : IsTrans Execution Step :=
  ⟨fun _ _ _ h₁ h₂ => ⟨trans_of Evolves h₁.evolves h₂.evolves, trans_of SameLimit h₁.sameLimit h₂.sameLimit⟩⟩

end Execution

open Execution (Step)

theorem onState_step {x : StateOp α} (hx : Moves Evolves x) : Moves Step (onState x) :=
  hx.zoom fun _ _ h => ⟨h, refl_of SameLimit _⟩

namespace TransactionContext

variable (cx : TransactionContext)

theorem step_rule : cx.ExecutionRule Step where
  fees hx := hx.zoom fun _ _ h => ⟨refl_of Evolves _, h⟩
  reads hx := onState_step (hx.mono fun _ _ h => h.evolves)

theorem perform_step (call : Call (Except Error α)) : Moves Step (cx.perform call) :=
  onState_step fun s => runOps_evolves cx.rt.crypto (call s).2 s

theorem executeTokenTransfer_step (recipient : Address) (amount : Balance) :
    Moves Step (cx.executeTokenTransfer recipient amount) := by
  refine cx.step_rule.work (onState_step ?_) _ _ _
  unfold executeNativeTokenTransfer
  split
  · exact tokens_evolve.mint _ _
  · exact tokens_evolve.transfer _ _ _

theorem executeBody_step (tx : Transaction) : Moves Step (cx.executeBody tx) := by
  have hwork {x : StateOp Unit} (hx : Moves Evolves x) (fee : Balance) (kind : String) :
      Moves Step (executeStaking fee kind x) := cx.step_rule.work (onState_step hx) _ _ _
  refine cx.step_rule.executeBody fun hash nonce => ?_
  unfold executeKind
  cases tx.transactionType with
  | nativeTokenTransfer recipient amount => exact cx.executeTokenTransfer_step _ _
  | smartContractDeployment =>
    exact cx.step_rule.executeDeployment (fun _ _ => cx.perform_step _) _ _ _
  | smartContractInit => exact cx.step_rule.executeInit (fun _ _ _ _ => cx.perform_step _) _ _ _ _
  | smartContractFunctionCall =>
    exact cx.step_rule.executeFunctionCall (cx.executeTokenTransfer_step _ _) cx.step_rule.readInstance
      (fun _ _ _ _ _ _ => cx.perform_step _) _ _ _
  | createStakingPool =>
    exact cx.step_rule.work
      (onState_step (tokens_evolve.createPool _ _ _ _ _ _ _ _ _ _ _)) _ _ _
  | stake => exact hwork (tokens_evolve.stake _ _ _ _) _ _
  | unStake => exact hwork (tokens_evolve.unStake _ _ _ _) _ _
  | stakingPoolContract => exact hwork ((pools_evolve _).updateContract _ _ _) _ _

end TransactionContext

/-- What a transaction reports, passed or failed. -/
def reportOf : Except TransactionResult TransactionResult → TransactionResult
  | .ok result => result
  | .error result => result

/-- **No transaction is charged more than its fee limit**, and what it leaves of the overlay has evolved
    from what it found. -/
theorem executeTransaction_spec (cx : TransactionContext) (tx : Transaction) (s : UpdatedState) :
    (reportOf (executeTransaction cx tx s).1).fee ≤ tx.feeLimit ∧
      s.Evolves (executeTransaction cx tx s).2 := by
  have hstep := cx.executeBody_step tx ⟨s, .new tx.feeLimit⟩
  rcases hrun : (cx.executeBody tx).run ⟨s, .new tx.feeLimit⟩ with ⟨executed, e⟩
  rw [hrun] at hstep
  have hfee : e.feeManager.getFeeUsed ≤ tx.feeLimit := by
    have hle := e.feeManager.getFeeUsed_le
    rwa [hstep.sameLimit] at hle
  rcases executed with error | ⟨error | ⟨⟩, event⟩ <;> simp only [executeTransaction, hrun] <;>
    exact ⟨hfee, hstep.evolves⟩

theorem executeTransaction_evolves {cx : TransactionContext} {s s' : UpdatedState}
    {r : Except TransactionResult TransactionResult} (h : executeTransaction cx tx s = (r, s')) :
    s.Evolves s' := by
  have hspec := (executeTransaction_spec cx tx s).2
  rwa [h] at hspec

end L1xCore
