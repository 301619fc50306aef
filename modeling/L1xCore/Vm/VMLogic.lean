import L1xCore.ContractInstanceManager.ContractInstanceL1xvm

/-!
# `Vm.VMLogic` — the system calls of L1XVM programs

`vm/l1x-ebpf-runtime/src/logic.rs`. A program passes addresses and amounts through its shared memory, and
gets byte strings back in registers of the host. A system call that returns an error stops the program.

The calls that write storage or emit an event first ask `write_perm`, which a read-only frame does not
have, and a contract may call another one from a read-only frame only with the read-only flag set. The
two that transfer tokens ask for nothing.
-/

namespace L1xCore

open Fallible

def CURRENT_OBJECT_VERSION : BitVec 64 := 1

def CURRENT_RUNTIME_VERSION : BitVec 64 := 4

/-- From this version on, tokens come with a call as its deposit. -/
def RUNTIME_VERSION_DEPOSIT_FEATURE : BitVec 64 := 5

inductive HostError where
  | guestPanic (panicMsg : Bytes)
  | memoryAccessViolation
  | invalidRegisterId (registerId : RegisterId)
  | storageError (msg : Error)
  | readonlyCall
  | invalidAddress
  | invalidArgument
  | outOfGas
  | contractCallGasLimit (gasLeft gasLimit : Gas)
  | notSupported (msg : Error)

/-- The text of an error. -/
def HostError.toError : HostError → Error
  | guestPanic panicMsg => s!"VM2Host IO Error: Guest Panic {panicMsg}"
  | memoryAccessViolation => "VM2Host IO Error: Memory Access Violation"
  | invalidRegisterId registerId => s!"VM2Host IO Error: Invalid Register ID {registerId.toNat}"
  | storageError msg => s!"VM2Host IO Error: Storage Error {msg}"
  | readonlyCall =>
    "VM2Host IO Error: The called method tried to change the state or did a mutable cross-contract call without write permissions"
  | invalidAddress => "VM2Host IO Error: The address length is invalid"
  | invalidArgument => "VM2Host IO Error: The syscall's argument is invalid"
  | outOfGas => "Out of Gas"
  | contractCallGasLimit gasLeft gasLimit =>
    s!"Contract call Gas limit is too big: gas_left={gasLeft.toNat}, gas_limit={gasLimit.toNat}"
  | notSupported msg => s!"API method is not supported: {msg}"

/-! ## Gas -/

/-- The fees of the runtime (`VmExecutionFees::create_basic_config`), as far as they are charged. -/
structure VmExecutionFees where
  basicInstruction : Gas := 1
  apiCall : Gas := 1
  crossContractCall : Gas := 1
  storageWrite : Gas := 1
  storageWritePerByte : Gas := 0
  storageRemove : Gas := 1
  tokenTransfer : Gas := 1
  emitEvent : Gas := 1
  emitEventPerBytes : Gas := 0

def VmExecutionFees.createBasicConfig : VmExecutionFees := {}

structure RuntimeGas where
  gasLimit : Gas
  burntGas : Gas

namespace RuntimeGas

def new (gasLimit : Gas) : RuntimeGas := ⟨gasLimit, 0⟩

def burn (self : RuntimeGas) (gas : Gas) : RuntimeGas :=
  { self with burntGas := (self.burntGas.checkedAdd gas).getD (BitVec.allOnes 64) }

def left (self : RuntimeGas) : Gas := self.gasLimit.saturatingSub self.burntGas

end RuntimeGas

/-! ## Memory -/

/-- A call of the host that may end with a panic, which is `none`. -/
abbrev Host (ε α : Type) := ExceptT ε Option α

namespace Host

variable {ε α : Type}

def panic : Host ε α := (none : Option (Except ε α))

/-- The result, if the host goes on with one. -/
def result (x : Host ε α) : Option α := x.run.bind Except.toOption

end Host

namespace Memory

/-- `mem_view` on a buffer. The byte after the last one is looked up, and the room for the result is reserved
    before the range, which is empty if the sum has wrapped, is read. -/
def viewBytes (memory : Bytes) (addr len : BitVec 64) : Host Unit Bytes :=
  if memory.length ≤ (addr + len).toNat then throw ()
  else if 2 ^ 63 ≤ len.toNat then Host.panic
  else pure ((memory.drop addr.toNat).take ((addr + len).toNat - addr.toNat))

/-- `mem_write` on a buffer, which returns the new one. -/
def writeBytes (memory : Bytes) (offset : BitVec 64) (buffer : Bytes) : Host Unit Bytes :=
  if (BitVec.ofNat 64 memory.length - offset).toNat < buffer.length then throw ()
  else if memory.length < offset.toNat then Host.panic
  else pure (memory.take offset.toNat ++ buffer ++ memory.drop (offset.toNat + buffer.length))

end Memory

/-- `u128::to_le_bytes`. -/
def u128ToLeBytes (x : BitVec 128) : Bytes := (u128ToBeBytes x).reverse

/-! ## Calls of other contracts, as a program passes them -/

structure ContractCallv1 where
  contractInstanceAddress : Address
  methodName : Bytes
  args : Bytes
  readOnly : Bool
  feeLimit : BitVec 128

structure ContractCallv2 where
  contractInstanceAddress : Address
  methodName : Bytes
  args : Bytes
  readOnly : Bool
  gasLimit : Gas

structure ContractCallv3 where
  contractInstanceAddress : Address
  methodName : Bytes
  args : Bytes
  readOnly : Bool
  gasLimit : Gas
  deposit : Balance

/-- Borsh decoding of the three forms (`try_from_slice`). -/
structure BorshCalls where
  v1 : Bytes → Option ContractCallv1
  v2 : Bytes → Option ContractCallv2
  v3 : Bytes → Option ContractCallv3

inductive ContractCallVersion where
  | V1
  | V2
  | V3

/-- A call in the newest form: the older ones carry no deposit, and the oldest has a limit of 128 bits
    that has to fit. -/
def ContractCallVersion.decode (borsh : BorshCalls) (version : ContractCallVersion) (data : Bytes) :
    Option ContractCallv3 :=
  match version with
  | .V1 => do
    let call ← borsh.v1 data
    if call.feeLimit.toNat < 2 ^ 64 then
      some ⟨call.contractInstanceAddress, call.methodName, call.args, call.readOnly,
        call.feeLimit.setWidth 64, 0⟩
    else none
  | .V2 => do
    let call ← borsh.v2 data
    some ⟨call.contractInstanceAddress, call.methodName, call.args, call.readOnly, call.gasLimit, 0⟩
  | .V3 => borsh.v3 data

/-! ## The state of a program's host -/

/-- The fields of `VMLogic` that change while a frame runs. -/
structure VMLogic where
  registers : Table RegisterId Bytes
  memory : Memory
  returnData : Bytes
  runtimeGas : RuntimeGas
  api : ContractInstanceManager

abbrev VMOp := Fallible VMLogic Error

namespace VMLogic

/-- Ask the manager; its errors are handled by the caller. -/
def onApi {α : Type} (x : ManagerOp α) : VMOp (Except Error α) :=
  fun self => (.ok (x.run self.api).1, { self with api := (x.run self.api).2 })

/-- Ask the manager; its error stops the program. -/
def tryApi {α : Type} (x : ManagerOp α) (f : Error → HostError) : VMOp α := do
  match ← onApi x with
  | .ok a => pure a
  | .error e => fail (f e).toError

def burnGas (gas : Gas) : VMOp Unit :=
  update fun self => { self with runtimeGas := self.runtimeGas.burn gas }

/-- Stop a program that has no gas left. -/
def checkGas : VMOp Unit := do
  let self ← state
  if self.runtimeGas.left = 0 then fail HostError.outOfGas.toError

def tryBurnGas (gas : Gas) : VMOp Unit := do
  burnGas gas
  checkGas

def memView (addr len : BitVec 64) : VMOp Bytes := do
  let self ← state
  -- a program whose access panics gets no answer either
  okOr (Memory.viewBytes self.memory.sharedMemoryBuffer addr len).result HostError.memoryAccessViolation.toError

def memWrite (offset : MemoryAddress) (buffer : Bytes) : VMOp Unit := do
  let self ← state
  let sharedMemoryBuffer ← okOr (Memory.writeBytes self.memory.sharedMemoryBuffer offset buffer).result
    HostError.memoryAccessViolation.toError
  update fun self => { self with memory := { self.memory with sharedMemoryBuffer } }

def readL1xAddress (addressPtr addressLen : BitVec 64) : VMOp Address := do
  let address ← memView addressPtr addressLen
  if address.length = 20 then pure (ofBytes 160 address)
  else fail HostError.invalidAddress.toError

def readBalance (balancePtr balanceLen : BitVec 64) : VMOp Balance := do
  let balance ← memView balancePtr balanceLen
  if balance.length = 16 then pure (ofBytes 128 balance.reverse)
  else fail HostError.invalidArgument.toError

def setRegister (registerId : RegisterId) (data : Bytes) : VMOp Unit :=
  update fun self => { self with registers := self.registers.insert registerId data }

/-- Put the old value of a storage key into a register, and say whether there was one. -/
def evict (registerId : RegisterId) (evicted : Option Bytes) : VMOp (BitVec 64) :=
  match evicted with
  | some evicted => do
    setRegister registerId evicted
    pure 1
  | none => pure 0

/-- A fee with a part for every byte. -/
def feePerByte (base perByte : Gas) (data : Bytes) : VMOp Gas := do
  let gasPerByte ← okOr (perByte.checkedMul (BitVec.ofNat 64 data.length))
    HostError.invalidArgument.toError
  okOr (base.checkedAdd gasPerByte) HostError.invalidArgument.toError

/-- A fixed-size value is written to memory if the program has made room for just that size. -/
def writeResult (data : Bytes) (resultAddr : MemoryAddress) (resultLen : BitVec 64) : VMOp Unit :=
  if resultLen.toNat ≠ data.length then fail HostError.memoryAccessViolation.toError
  else memWrite resultAddr data

/-! ## System calls on the program's own data -/

def panic (msgPtr : MemoryAddress) (msgLen : BitVec 64) : VMOp Unit := do
  if msgLen.toNat > 0 then
    let msg ← memView msgPtr msgLen
    fail (HostError.guestPanic msg).toError
  else
    fail (HostError.guestPanic
      (Error.intoBytes "the contract panicked without the message")).toError

def readRegister (registerId : RegisterId) (resultAddr : MemoryAddress) : VMOp Unit := do
  let self ← state
  let data ← okOr (self.registers.lookup registerId) (HostError.invalidRegisterId registerId).toError
  memWrite resultAddr data

def registerLen (registerId : RegisterId) : VMOp (BitVec 64) := do
  let self ← state
  match self.registers.lookup registerId with
  | some data => pure (BitVec.ofNat 64 data.length)
  | none => pure (BitVec.allOnes 64)

def writeRegister (registerId : RegisterId) (dataAddr : MemoryAddress) (dataLen : BitVec 64) :
    VMOp Unit := do
  let data ← memView dataAddr dataLen
  setRegister registerId data

def output (outputAddr : MemoryAddress) (outputLen : BitVec 64) : VMOp Unit := do
  let data ← memView outputAddr outputLen
  update fun self => { self with returnData := data }

/-! ## System calls on the state -/

variable (db : StateTables) (frame : Frame) (vm : VMContext)

/-- Whether the frame may change the state. -/
def writePerm : VMOp Unit :=
  if vm.readonly then fail HostError.readonlyCall.toError else pure ()

def storageRead (keyAddr : MemoryAddress) (keyLen : BitVec 64) (registerId : RegisterId) :
    VMOp (BitVec 64) := do
  let key ← memView keyAddr keyLen
  let value ← tryApi (VMContractTrait.storageRead db frame key) HostError.storageError
  evict registerId value

def storageWrite (keyAddr : MemoryAddress) (keyLen : BitVec 64) (valueAddr : MemoryAddress)
    (valueLen : BitVec 64) (evictedRegisterId : RegisterId) : VMOp (BitVec 64) := do
  writePerm vm
  let key ← memView keyAddr keyLen
  let value ← memView valueAddr valueLen
  let evicted ← tryApi (VMContractTrait.storageRead db frame key) HostError.storageError
  tryApi (VMContractTrait.storageWrite frame key value) HostError.storageError
  let gas ← feePerByte VmExecutionFees.createBasicConfig.storageWrite
    VmExecutionFees.createBasicConfig.storageWritePerByte value
  tryBurnGas gas
  evict evictedRegisterId evicted

def storageRemove (keyAddr : MemoryAddress) (keyLen : BitVec 64) (evictedRegisterId : RegisterId) :
    VMOp (BitVec 64) := do
  writePerm vm
  let key ← memView keyAddr keyLen
  let evicted ← tryApi (VMContractTrait.storageRead db frame key) HostError.storageError
  tryApi (VMContractTrait.storageRemove frame key) HostError.storageError
  tryBurnGas VmExecutionFees.createBasicConfig.storageRemove
  evict evictedRegisterId evicted

def contractOwnerAddressOf (addressPtr : MemoryAddress) (len : BitVec 64)
    (resultRegisterId : RegisterId) : VMOp Unit := do
  let instanceAddress ← readL1xAddress addressPtr len
  if instanceAddress = vm.contractInstanceAddress then
    setRegister resultRegisterId (addressBytes vm.contractOwnerAddress)
  else
    let owner ← tryApi (VMContractTrait.contractInstanceOwnerAddressOf db instanceAddress)
      fun _ => HostError.invalidAddress
    setRegister resultRegisterId (addressBytes owner)

def contractCodeAddressOf (addressPtr : MemoryAddress) (len : BitVec 64)
    (resultRegisterId : RegisterId) : VMOp Unit := do
  let instanceAddress ← readL1xAddress addressPtr len
  if instanceAddress = vm.contractInstanceAddress then
    setRegister resultRegisterId (addressBytes vm.contractCodeAddress)
  else
    let codeAddress ← tryApi (VMContractTrait.contractCodeAddressOf db instanceAddress)
      fun _ => HostError.invalidAddress
    setRegister resultRegisterId (addressBytes codeAddress)

def contractCodeOwnerAddressOf (addressPtr : MemoryAddress) (len : BitVec 64)
    (resultRegisterId : RegisterId) : VMOp Unit := do
  let codeAddress ← readL1xAddress addressPtr len
  let codeOwner ← tryApi (VMContractTrait.contractCodeOwnerAddressOf db codeAddress)
    fun _ => HostError.invalidAddress
  setRegister resultRegisterId (addressBytes codeOwner)

def addressBalance (addressPtr : MemoryAddress) (addressLen : BitVec 64)
    (resultRegisterId : RegisterId) : VMOp Unit := do
  let address ← readL1xAddress addressPtr addressLen
  let balance ← onApi (VMContractTrait.getBalance db address)
  setRegister resultRegisterId (u128ToLeBytes (balance.toOption.getD 0))

/-- Whether the manager did what it was asked, as the number a program gets. -/
def succeeded (outcome : Except Error Unit) : BitVec 64 :=
  match outcome with
  | .ok _ => 1
  | .error _ => 0

/-- The tokens of the contract are transferred. -/
def transferTo (toPtr : MemoryAddress) (toLen : BitVec 64) (amountPtr : MemoryAddress)
    (amountLen : BitVec 64) : VMOp (BitVec 64) := do
  let toAddress ← readL1xAddress toPtr toLen
  let amount ← readBalance amountPtr amountLen
  tryBurnGas VmExecutionFees.createBasicConfig.tokenTransfer
  let transferred ← onApi (VMContractTrait.transferToken db vm.contractInstanceAddress toAddress amount)
  pure (succeeded transferred)

/-- The tokens of the caller are transferred, unless the call came with a deposit: then the program is
    told whether it asks for just that. -/
def transferFromCaller (amountPtr : MemoryAddress) (amountLen : BitVec 64) : VMOp (BitVec 64) := do
  if RUNTIME_VERSION_DEPOSIT_FEATURE ≤ vm.ebpfObjectVersion.expectedRuntimeVersion then
    fail (HostError.notSupported
      s!"tansfer_from_caller is not supported from runtime version '{RUNTIME_VERSION_DEPOSIT_FEATURE.toNat}', object runtime version: {vm.ebpfObjectVersion.expectedRuntimeVersion.toNat}").toError
  else
    let amount ← readBalance amountPtr amountLen
    tryBurnGas VmExecutionFees.createBasicConfig.tokenTransfer
    if 0 < vm.deposit then
      pure (if amount = vm.deposit then 1 else 0)
    else
      let transferred ← onApi
        (VMContractTrait.transferToken db vm.callerAddress vm.contractInstanceAddress amount)
      pure (succeeded transferred)

def callContract (borsh : BorshCalls) (engines : Engines) (version : ContractCallVersion)
    (callAddr : MemoryAddress) (callLen : BitVec 64) (resultRegisterId : RegisterId) :
    VMOp (BitVec 64) := do
  let callData ← memView callAddr callLen
  let call ← okOr (version.decode borsh callData) HostError.invalidArgument.toError
  if vm.readonly && !call.readOnly then fail HostError.readonlyCall.toError
  else
    tryBurnGas VmExecutionFees.createBasicConfig.crossContractCall
    let self ← state
    if self.runtimeGas.left < call.gasLimit then
      fail (HostError.contractCallGasLimit self.runtimeGas.left call.gasLimit).toError
    else
      match ← onApi (VMContractTrait.callContract db frame engines call.contractInstanceAddress
        call.methodName call.args call.gasLimit call.deposit call.readOnly) with
      | .ok (result, gas) => do
        burnGas gas
        setRegister resultRegisterId result
        pure 1
      | .error e => do
        setRegister resultRegisterId (Error.intoBytes e)
        pure 0

def emitEvent (dataAddr : MemoryAddress) (dataLen : BitVec 64) : VMOp (BitVec 64) := do
  writePerm vm
  let eventData ← memView dataAddr dataLen
  let gas ← feePerByte VmExecutionFees.createBasicConfig.emitEvent
    VmExecutionFees.createBasicConfig.emitEventPerBytes eventData
  tryBurnGas gas
  let emitted ← onApi (VMContractTrait.emitEvent frame eventData)
  pure (succeeded emitted)

/-! ## The host of a program -/

/-- The instructions between two system calls. -/
def compute (f : Memory → Except Error (BitVec 64 × Memory)) : VMOp (BitVec 64) := do
  let self ← state
  let computed ← lift (f self.memory)
  update fun self => { self with memory := computed.2 }
  pure computed.1

/-- A call that returns nothing leaves zero in the register of the result. -/
def zero (x : VMOp Unit) : VMOp (BitVec 64) := do
  x
  pure 0

/-- The system call a program makes. A message that cannot be printed is not an error. -/
def perform (borsh : BorshCalls) (engines : Engines) : Syscall → VMOp (BitVec 64)
  | .compute _ f => compute f
  | .msg _ _ => pure 0
  | .panic msgPtr msgLen => zero (panic msgPtr msgLen)
  | .input resultRegisterId => zero (setRegister resultRegisterId vm.input)
  | .output outputAddr outputLen => zero (output outputAddr outputLen)
  | .registerLen registerId => registerLen registerId
  | .readRegister registerId resultAddr => zero (readRegister registerId resultAddr)
  | .writeRegister registerId dataAddr dataLen => zero (writeRegister registerId dataAddr dataLen)
  | .storageWrite keyAddr keyLen valueAddr valueLen evictedRegisterId =>
    storageWrite db frame vm keyAddr keyLen valueAddr valueLen evictedRegisterId
  | .storageRemove keyAddr keyLen evictedRegisterId =>
    storageRemove db frame vm keyAddr keyLen evictedRegisterId
  | .storageRead keyAddr keyLen registerId => storageRead db frame keyAddr keyLen registerId
  | .storageWritePerm => pure (if vm.readonly then 0 else 1)
  | .currentRuntimeVersion => pure CURRENT_RUNTIME_VERSION
  | .callerAddress resultRegisterId =>
    zero (setRegister resultRegisterId (addressBytes vm.callerAddress))
  | .contractOwnerAddress resultRegisterId =>
    zero (setRegister resultRegisterId (addressBytes vm.contractOwnerAddress))
  | .contractOwnerAddressOf addressPtr len resultRegisterId =>
    zero (contractOwnerAddressOf db vm addressPtr len resultRegisterId)
  | .contractInstanceAddress resultRegisterId =>
    zero (setRegister resultRegisterId (addressBytes vm.contractInstanceAddress))
  | .contractCodeAddressOf addressPtr len resultRegisterId =>
    zero (contractCodeAddressOf db vm addressPtr len resultRegisterId)
  | .contractCodeOwnerAddressOf addressPtr len resultRegisterId =>
    zero (contractCodeOwnerAddressOf db addressPtr len resultRegisterId)
  | .gasLimit => do
    let self ← state
    pure self.runtimeGas.gasLimit
  | .gasLeft => do
    let self ← state
    pure self.runtimeGas.left
  | .deposit resultAddr resultLen =>
    zero (writeResult (u128ToLeBytes vm.deposit) resultAddr resultLen)
  | .addressBalance addressPtr addressLen resultRegisterId =>
    zero (addressBalance db addressPtr addressLen resultRegisterId)
  | .transferTo toPtr toLen amountPtr amountLen => transferTo db vm toPtr toLen amountPtr amountLen
  | .transferFromCaller amountPtr amountLen => transferFromCaller db vm amountPtr amountLen
  | .blockNumber resultAddr resultLen =>
    zero (writeResult (u128ToLeBytes vm.blockNumber) resultAddr resultLen)
  | .blockTimestamp resultAddr resultLen =>
    zero (writeResult (u128ToLeBytes (vm.blockTimestamp.setWidth 128 * 1000)) resultAddr resultLen)
  | .blockHash resultAddr resultLen =>
    zero (writeResult (toBytes 32 vm.blockHash) resultAddr resultLen)
  | .callContract callAddr callLen resultRegisterId =>
    callContract db frame vm borsh engines .V1 callAddr callLen resultRegisterId
  | .callContract2 callAddr callLen resultRegisterId =>
    callContract db frame vm borsh engines .V2 callAddr callLen resultRegisterId
  | .emitEventExperimental dataAddr dataLen => emitEvent frame vm dataAddr dataLen

/-- What the interpreter burns for a system call, or for the instructions before the next one. -/
def instructionFee : Syscall → Gas
  | .compute gas _ => gas
  | _ =>
    VmExecutionFees.createBasicConfig.apiCall + VmExecutionFees.createBasicConfig.basicInstruction

/-- Answer a system call. The interpreter does not go on without gas. -/
def answer (borsh : BorshCalls) (engines : Engines) (c : Syscall) : VMOp (BitVec 64) := do
  update fun self => { self with api := { self.api with log := self.api.log ++ [.l1xvm frame vm c] } }
  let r ← perform db frame vm borsh engines c
  burnGas (instructionFee c)
  checkGas
  pure r

end VMLogic

end L1xCore
