import L1xCore.L1xEvm.Evm
import L1xCore.Lib.Interaction
import L1xCore.State.UpdatedState

/-!
# `ContractInstanceManager.Frame` — contract calls, and what a running contract can ask its host

A contract runs in a **frame**. An L1XVM contract reaches the node through the system calls that
`l1x-ebpf-runtime` registers, an EVM contract through the methods of `evm_runtime::Handler`; both end at a
`ContractInstanceManager`, which works on a clone of the overlay of its caller. A program is a tree of
such requests (`Interaction`): the interpreters decide what is asked next, and nothing else of them can
be seen from the state.

Every request is written to a **log**, as the code logs it, together with the frame that made it. The log
of a frame holds the requests of the frames below it, whatever became of them; the state of a frame that
failed is dropped, its log is not.
-/

namespace L1xCore

open Fallible

/-! ## Frames -/

/-- What every frame of a transaction is told about the transaction and its block. -/
structure CallEnv where
  clusterAddress : Address
  nonce : Nonce
  transactionHash : TransactionHash
  blockNumber : BlockNumber
  blockHash : BlockHash
  blockTimestamp : BlockTimeStamp

/-- The fields of `ContractInstanceManager` that stay as they are while a frame runs. -/
structure Frame where
  contractInstance : Option ContractInstance
  accountAddress : Address
  env : CallEnv
  context : Context
  readonly : Bool
  currentCallDepth : Nat

/-- The version section of an eBPF object. -/
structure EbpfObjectVersion where
  objectVersion : BitVec 64
  expectedRuntimeVersion : BitVec 64

/-- The fields of `VMLogic` that stay as they are while a frame runs. -/
structure VMContext where
  callerAddress : Address
  contractCodeAddress : Address
  contractInstanceAddress : Address
  contractOwnerAddress : Address
  input : ContractArgument
  readonly : Bool
  ebpfObjectVersion : EbpfObjectVersion
  blockNumber : BlockNumber
  blockHash : BlockHash
  blockTimestamp : BlockTimeStamp
  deposit : Balance

/-! ## Requests of L1XVM programs -/

abbrev RegisterId := BitVec 64
abbrev MemoryAddress := BitVec 64

/-- The memory a program shares with its host. -/
structure Memory where
  maxPages : BitVec 64
  sharedMemoryBuffer : Bytes

/-- The system calls of an eBPF program, with the arguments it passes in registers. `compute` stands for
    the instructions between two of them, with the system calls for memory and arithmetic that they make:
    they burn gas, and they read and change the shared memory in any way, or stop the program. -/
inductive Syscall where
  | compute (gas : Gas) (f : Memory → Except Error (BitVec 64 × Memory))
  | msg (addr : MemoryAddress) (len : BitVec 64)
  | panic (msgPtr : MemoryAddress) (msgLen : BitVec 64)
  | input (resultRegisterId : RegisterId)
  | output (outputAddr : MemoryAddress) (outputLen : BitVec 64)
  | registerLen (registerId : RegisterId)
  | readRegister (registerId : RegisterId) (resultAddr : MemoryAddress)
  | writeRegister (registerId : RegisterId) (dataAddr : MemoryAddress) (dataLen : BitVec 64)
  | storageWrite (keyAddr : MemoryAddress) (keyLen : BitVec 64) (valueAddr : MemoryAddress)
      (valueLen : BitVec 64) (evictedRegisterId : RegisterId)
  | storageRemove (keyAddr : MemoryAddress) (keyLen : BitVec 64) (evictedRegisterId : RegisterId)
  | storageRead (keyAddr : MemoryAddress) (keyLen : BitVec 64) (registerId : RegisterId)
  | storageWritePerm
  | currentRuntimeVersion
  | callerAddress (resultRegisterId : RegisterId)
  | contractOwnerAddress (resultRegisterId : RegisterId)
  | contractOwnerAddressOf (addressPtr : MemoryAddress) (len : BitVec 64)
      (resultRegisterId : RegisterId)
  | contractInstanceAddress (resultRegisterId : RegisterId)
  | contractCodeAddressOf (addressPtr : MemoryAddress) (len : BitVec 64)
      (resultRegisterId : RegisterId)
  | contractCodeOwnerAddressOf (addressPtr : MemoryAddress) (len : BitVec 64)
      (resultRegisterId : RegisterId)
  | gasLimit
  | gasLeft
  | deposit (resultAddr : MemoryAddress) (resultLen : BitVec 64)
  | addressBalance (addressPtr : MemoryAddress) (addressLen : BitVec 64)
      (resultRegisterId : RegisterId)
  | transferTo (toPtr : MemoryAddress) (toLen : BitVec 64) (amountPtr : MemoryAddress)
      (amountLen : BitVec 64)
  | transferFromCaller (amountPtr : MemoryAddress) (amountLen : BitVec 64)
  | blockNumber (resultAddr : MemoryAddress) (resultLen : BitVec 64)
  | blockTimestamp (resultAddr : MemoryAddress) (resultLen : BitVec 64)
  | blockHash (resultAddr : MemoryAddress) (resultLen : BitVec 64)
  | callContract (callAddr : MemoryAddress) (callLen : BitVec 64) (resultRegisterId : RegisterId)
  | callContract2 (callAddr : MemoryAddress) (callLen : BitVec 64) (resultRegisterId : RegisterId)
  | emitEventExperimental (dataAddr : MemoryAddress) (dataLen : BitVec 64)

/-- An eBPF program. Every system call answers with the contents of a register; the program ends with
    its return code, or with an error of the interpreter. -/
abbrev EbpfProgram := Interaction Syscall (fun _ => BitVec 64) (Except Error (BitVec 64))

/-! ## Requests of EVM programs -/

/-- The methods of `evm_runtime::Handler`. -/
inductive HandlerCall where
  | balance (address : Address)
  | codeSize (address : Address)
  | codeHash (address : Address)
  | code (address : Address)
  | storage (address : Address) (key : H256)
  | originalStorage (address : Address) (key : H256)
  | gasLeft
  | gasPrice
  | origin
  | blockHash (number : U256)
  | blockNumber
  | blockCoinbase
  | blockTimestamp
  | blockDifficulty
  | blockRandomness
  | blockGasLimit
  | blockBaseFeePerGas
  | chainId
  | exists (address : Address)
  | deleted (address : Address)
  | isCold (address : Address) (key : Option H256)
  | setStorage (address : Address) (key value : H256)
  | log (address : Address) (topics : List H256) (eventData : EventData)
  | markDelete (address target : Address)
  | create (caller : Address) (scheme : CreateScheme) (value : U256) (initCode : Bytes)
      (targetGas : Option Gas)
  | call (address : Address) (transfer : Option Transfer) (input : Bytes) (targetGas : Option Gas)
      (isStatic : Bool) (context : Context)
  | preValidate (opcode : UInt8)
  | recordExternalOperation

/-- What each method returns. -/
def HandlerCall.Answer : HandlerCall → Type
  | balance _ | codeSize _ | codeHash _ | storage _ _ | originalStorage _ _ | gasLeft | gasPrice
  | blockHash _ | blockNumber | blockTimestamp | blockDifficulty | blockGasLimit
  | blockBaseFeePerGas | chainId => BitVec 256
  | code _ => Bytes
  | origin | blockCoinbase => Address
  | blockRandomness => Option H256
  | .exists _ | deleted _ => Bool
  | isCold _ _ => Except Error Bool
  | setStorage _ _ _ | log _ _ _ | markDelete _ _ | preValidate _ | recordExternalOperation =>
    Except Error Unit
  | create _ _ _ _ _ => ExitReason × Option Address × Bytes
  | call _ _ _ _ _ _ => Capture

/-- The four call opcodes. -/
inductive CallScheme where
  | call
  | callCode
  | delegateCall
  | staticCall
  deriving DecidableEq

/-- The handler method `evm_runtime` calls for a call opcode that a frame with the context `own`
    executes. No gas is passed where the operand has more than 64 bits. -/
def CallScheme.handlerCall (scheme : CallScheme) (own : Context) (target : Address) (value : U256)
    (input : Bytes) (gas : Option Gas) : HandlerCall :=
  match scheme with
  | .call =>
    .call target (some ⟨own.address, target, value⟩) input gas false
      ⟨target, own.address, value⟩
  | .callCode =>
    .call target (some ⟨own.address, own.address, value⟩) input gas false
      ⟨own.address, own.address, value⟩
  | .delegateCall => .call target none input gas false own
  | .staticCall => .call target none input gas true ⟨target, own.address, 0⟩

/-- How the interpreter leaves a program: with a reason, or waiting for a call or a creation that the
    handler has not answered. -/
inductive RunCapture where
  | exit (reason : ExitReason)
  | trapCall
  | trapCreate

/-- The end of an EVM program: how it stopped, what it returned, and whether handing the result on
    (`finish_call`, `finish_create`) failed. -/
structure EvmExit where
  capture : RunCapture
  returnValue : Bytes
  finishError : Option Error

abbrev EvmProgram := Interaction HandlerCall HandlerCall.Answer EvmExit

/-! ## Calls and engines -/

/-- A request, with the frame that made it. -/
inductive HostCall where
  | l1xvm (frame : Frame) (vm : VMContext) (call : Syscall)
  | evm (frame : Frame) (call : HandlerCall)

/-- The arguments of `execute_contract_function_call`. -/
structure FunctionCall where
  accountAddress : Address
  context : Context
  gasLimit : Gas
  deposit : Balance
  contract : Contract
  contractInstance : ContractInstance
  function : ContractFunction
  arguments : ContractArgument
  readonly : Bool
  env : CallEnv
  currentCallDepth : Nat

/-- The arguments of `execute_contract_deployment`. -/
structure Deployment where
  accountAddress : Address
  scheme : CreateScheme
  gasLimit : Gas
  deposit : Balance
  accessType : Int8
  contractCode : ContractCode
  env : CallEnv
  currentCallDepth : Nat

/-- What a call leaves: its outcome, the overlay it was given as it has changed it, and the requests made
    on the way. -/
structure Performed (α : Type) where
  outcome : α
  updatedState : UpdatedState
  log : List HostCall

/-- The two engines, as a frame sees them. -/
@[ext] structure Engines where
  l1xvm : FunctionCall → UpdatedState → Performed (Capture × Gas)
  evm : FunctionCall → UpdatedState → Performed (Capture × Gas)
  evmDeployment : Deployment → UpdatedState → Performed (Except Error (Address × Gas))

/-- A call of a contract of type `XTALK` does nothing. -/
def xtalk (s : UpdatedState) : Performed (Capture × Gas) := ⟨(.exit .succeed [], 0), s, []⟩

/-! ## The manager of a frame -/

/-- The fields of `ContractInstanceManager` that change while a frame runs. -/
structure ContractInstanceManager where
  gasometer : GasometerState
  updatedState : UpdatedState
  log : List HostCall

abbrev ManagerOp := Fallible ContractInstanceManager Error

namespace ContractInstanceManager

/-- The manager of a new frame: it clones the overlay. -/
def new (gasLimit : Gas) (updatedState : UpdatedState) : ContractInstanceManager :=
  ⟨.new gasLimit, updatedState, []⟩

def onState {α : Type} (x : StateOp α) : ManagerOp α :=
  zoom updatedState (fun updatedState self => { self with updatedState }) x

def record (call : HostCall) : ManagerOp Unit :=
  update fun self => { self with log := self.log ++ [call] }

/-- Run a call on a clone of the overlay. Its state is the caller's to merge or to drop. -/
def perform {α : Type} (call : UpdatedState → Performed α) : ManagerOp (α × UpdatedState) := do
  let self ← state
  let performed := call self.updatedState
  update fun self => { self with log := self.log ++ performed.log }
  pure (performed.outcome, performed.updatedState)

def mergeState (clonedUpdatedState : UpdatedState) : ManagerOp Unit :=
  update fun self => { self with updatedState := self.updatedState.merge clonedUpdatedState }

def chargeGas (gas : Gas) : ManagerOp Unit :=
  update fun self => { self with gasometer := self.gasometer.charge gas }

end ContractInstanceManager

end L1xCore
