import L1xCore.ContractInstanceManager.Frame

/-!
# `ContractInstanceManager.ContractInstanceEvm` — the manager as the host of an EVM contract

`contract_instance_manager/src/contract_instance_evm.rs`, the implementation of `evm_runtime::Handler`.
Reads answer zero or nothing where the record is missing. Writing storage, logging and creating a
contract are refused in a read-only frame, and so is a call that carries a transfer. The frame of a call
is read-only if the call is **static**; whether the calling frame is plays no part.

A method that panics ends the program with an error.
-/

namespace L1xCore

open UpdatedState

/-- The precompiled contracts: what the one with the given number answers to an input. -/
abbrev Precompiles := Nat → Bytes → GasometerState → Except Error Unit × Bytes

namespace Handler

open Fallible ContractInstanceManager

/-- The stored code of an event's source (`EventType as i8`). -/
def EVENT_TYPE_EVM : Int8 := 1

/-- `H256::from_slice`, which panics on any other length. -/
def h256FromSlice (value : Bytes) : Except Error H256 :=
  if value.length = 32 then .ok (ofBytes 256 value)
  else .error "assertion failed: `(left == right)`"

section

variable (crypto : Crypto) (db : StateTables)

def balance (address : Address) : ManagerOp U256 := do
  let balance ← (onState (getBalance db address)).outcome
  pure ((balance.toOption.getD 0).setWidth 256)

/-- The contract behind an instance, if both are there. -/
def contractAt (address : Address) : ManagerOp (Option Contract) := do
  match ← (onState (getContractInstance db address)).outcome with
  | .error _ => pure none
  | .ok contractInstance => do
    let contract ← (onState (getContract db contractInstance.contractAddress)).outcome
    pure contract.toOption

def codeSize (address : Address) : ManagerOp U256 := do
  let contract ← contractAt db address
  pure (BitVec.ofNat 256 (contract.elim 0 fun contract => contract.code.length))

def codeHash (address : Address) : ManagerOp H256 := do
  let contract ← contractAt db address
  pure (contract.elim 0 fun contract => crypto.keccak256 contract.code)

def code (address : Address) : ManagerOp Bytes := do
  let contract ← contractAt db address
  pure (contract.elim [] Contract.code)

/-- `storage` and `original_storage`, which are the same function. -/
def storage (address : Address) (key : H256) : ManagerOp H256 := do
  let value ← onState (getStateKeyValue db address (toBytes 32 key))
  match value with
  | some value => lift (h256FromSlice value)
  | none => pure 0

/-- `exists` and `deleted`, which are the same function. -/
def isValidAccount (address : Address) : ManagerOp Bool :=
  onState (UpdatedState.isValidAccount db address)

end

/-! ## Writes -/

variable (db : StateTables) (frame : Frame)

def setStorage (address : Address) (key value : H256) : ManagerOp (Except Error Unit) :=
  if frame.readonly then
    pure (.error "set_storage: Can't be called from static-call context")
  else
    (onState (storeStateKeyValue address (toBytes 32 key) (toBytes 32 value))).outcome

def log (address : Address) (topics : List H256) (eventData : EventData) : ManagerOp (Except Error Unit) :=
  if frame.readonly then pure (.error "Log: Can't be called from static-call context")
  else
    (onState (createEvent
      ⟨frame.env.transactionHash, eventData, frame.env.blockNumber, EVENT_TYPE_EVM, address,
        some topics⟩)).outcome

/-- A creation that ended with an error. -/
def createError (e : Error) (code : Bytes) : ExitReason × Option Address × Bytes :=
  (.error e, none, code)

/-- The nonce a creation uses; the account's is incremented, whatever becomes of the creation. -/
def takeNonce (address : Address) : StateOp Nonce := do
  let nonce ← getNonce db address
  incrementNonce db address
  pure nonce

def create (engines : Engines) (caller : Address) (scheme : CreateScheme) (value : U256)
    (initCode : Bytes) (targetGas : Option Gas) : ManagerOp (ExitReason × Option Address × Bytes) :=
  if frame.readonly then
    pure (createError "Create: Can't be called from static-call context" initCode)
  else
    match u256ToBalance value with
    | none =>
      pure (createError
        s!"Create: Can't convert EVM value to deposit, value: {value.toNat}" initCode)
    | some deposit => do
      let self ← state
      match ← (onState (takeNonce db caller)).outcome with
      | .error e => pure (createError e initCode)
      | .ok nonce => do
        let created ← perform (engines.evmDeployment
          { accountAddress := caller, scheme, gasLimit := targetGas.getD self.gasometer.gas64,
            deposit, accessType := AccessType.PRIVATE.toInt8, contractCode := initCode,
            env := { frame.env with nonce }, currentCallDepth := frame.currentCallDepth + 1 })
        match created.1 with
        | .ok (address, burntGas) => do
          chargeGas burntGas
          mergeState created.2
          pure (.succeed, some address, initCode)
        | .error e => pure (createError e initCode)

/-! ## Calls -/

/-- A call of an address without a contract: only the transfer is made. -/
def transferOnly (transfer : Option Transfer) : ManagerOp Capture :=
  match transfer with
  | none => pure (.exit .succeed [])
  | some transfer =>
    match u256ToBalance transfer.value with
    | none => pure (.ofError s!"Can't convert value to balance, value: {transfer.value.toNat}")
    | some amount => do
      match ← (onState
        (UpdatedState.transfer db transfer.source transfer.target amount)).outcome with
      | .ok _ => pure (.exit .succeed [])
      | .error e => pure (.ofError e)

/-- The deposit of a call; the tokens are transferred when the contract is executed. -/
def depositOf (transfer : Option Transfer) : Except Error Balance :=
  match transfer with
  | none => .ok 0
  | some transfer =>
    match u256ToBalance transfer.value with
    | some deposit => .ok deposit
    | none =>
      .error s!"Create: Can't convert EVM value to deposit, value: {transfer.value.toNat}"

/-- The called contract, whose frame is read-only if the call is static. -/
def calledByHandler (engines : Engines) (contractType : ContractType) (contract : Contract)
    (contractInstance : ContractInstance) (input : Bytes) (gasLimit : Gas) (deposit : Balance)
    (isStatic : Bool) (context : Context) : UpdatedState → Performed (Capture × Gas) :=
  match contractType with
  | .L1XVM =>
    engines.l1xvm
      { accountAddress := context.caller, context := ⟨context.caller, context.caller, 0⟩, gasLimit,
        deposit, contract, contractInstance, function := [], arguments := input,
        readonly := isStatic, env := frame.env, currentCallDepth := frame.currentCallDepth + 1 }
  | .EVM =>
    engines.evm
      { accountAddress := context.caller, context, gasLimit, deposit, contract, contractInstance,
        function := [], arguments := input, readonly := isStatic, env := frame.env,
        currentCallDepth := frame.currentCallDepth + 1 }
  | .XTALK => xtalk

/-- Run the called contract and keep what it did if it succeeded. -/
def executeCall (call : UpdatedState → Performed (Capture × Gas)) : ManagerOp Capture := do
  let called ← perform call
  chargeGas called.1.2
  match called.1.1 with
  | .exit reason result => do
    if reason.isSucceed then mergeState called.2
    pure (.exit reason result)
  | .trap => pure .trap

/-- A call of an address that is not a precompiled contract. -/
def callAddress (engines : Engines) (address : Address) (transfer : Option Transfer) (input : Bytes)
    (targetGas : Option Gas) (isStatic : Bool) (context : Context) : ManagerOp Capture := do
  match ← (onState (getContractInstance db address)).outcome with
  | .error _ => transferOnly db transfer
  | .ok contractInstance =>
    match ← (onState
      (getContract db contractInstance.contractAddress)).outcome with
    | .error e => pure (.ofError e)
    | .ok contract =>
      match ContractType.ofInt8 contract.type, depositOf transfer with
      | .error e, _ => pure (.ofError e)
      | .ok _, .error e => pure (.ofError e)
      | .ok contractType, .ok deposit => do
        let self ← state
        executeCall (calledByHandler frame engines contractType contract contractInstance input
          (targetGas.getD self.gasometer.gas64) deposit isStatic context)

/-- The number of the precompiled contract at an address. -/
def precompileNumber (address : Address) : Option Nat :=
  if 1 ≤ address.toNat ∧ address.toNat ≤ 9 then some address.toNat else none

def call (config : EvmConfig) (precompiles : Precompiles) (engines : Engines) (address : Address)
    (transfer : Option Transfer) (input : Bytes) (targetGas : Option Gas) (isStatic : Bool)
    (context : Context) : ManagerOp Capture :=
  if frame.readonly && transfer.isSome then
    pure (.ofError "Call: Can't be called from static-call context with attached value")
  else
    match GasometerState.newTransactCall config 1000000 input with
    | .error e => pure (.ofError e)
    | .ok gasometer =>
      match precompileNumber address with
      | some number =>
        match precompiles number input gasometer with
        | (.ok _, data) => pure (.exit .succeed data)
        | (.error e, data) => pure (.exit (.error e) data)
      | none => callAddress db frame engines address transfer input targetGas isStatic context

/-! ## Opcodes -/

/-- The opcodes that the handler lets pass. -/
def validOpcodes : List UInt8 :=
  [0x00, 0x01, 0x02, 0x03, 0x04, 0x05, 0x06, 0x07, 0x08, 0x09, 0x0a, 0x0b, 0x0c, 0x10, 0x11, 0x12,
   0x13, 0x14, 0x15, 0x16, 0x17, 0x18, 0x19, 0x1a, 0x1b, 0x1c, 0x1d, 0x20, 0x21, 0x30, 0x31, 0x32,
   0x33, 0x34, 0x35, 0x36, 0x37, 0x38, 0x39, 0x3a, 0x3b, 0x3c, 0x3d, 0x3e, 0x3f, 0x40, 0x41, 0x42,
   0x43, 0x44, 0x45, 0x46, 0x47, 0x48, 0x50, 0x51, 0x52, 0x53, 0x54, 0x55, 0x56, 0x57, 0x58, 0x59,
   0x5a, 0x5b, 0x5c, 0x60, 0x61, 0x62, 0x63, 0x64, 0x65, 0x66, 0x67, 0x68, 0x69, 0x6a, 0x6b, 0x6c,
   0x6d, 0x6e, 0x6f, 0x70, 0x71, 0x72, 0x73, 0x74, 0x75, 0x76, 0x77, 0x78, 0x79, 0x7a, 0x7b, 0x7c,
   0x7d, 0x7e, 0x7f, 0x80, 0x81, 0x82, 0x83, 0x84, 0x85, 0x86, 0x87, 0x88, 0x89, 0x8a, 0x8b, 0x8c,
   0x8d, 0x8e, 0x8f, 0x90, 0x91, 0x92, 0x93, 0x94, 0x95, 0x96, 0x97, 0x98, 0x99, 0x9a, 0x9b, 0x9c,
   0x9d, 0x9e, 0x9f, 0xa0, 0xa1, 0xa2, 0xa3, 0xa4, 0xa5, 0xb0, 0xb1, 0xb2, 0xb4, 0xb5, 0xb6, 0xb8,
   0xb9, 0xba, 0xbb, 0xe1, 0xe2, 0xe3, 0xe4, 0xf0, 0xf1, 0xf2, 0xf3, 0xf4, 0xf5, 0xf6, 0xfa, 0xfb,
   0xfc, 0xfd, 0xfe, 0xff]

/-- `pre_validate`, which the interpreter calls before each opcode. -/
def preValidate (opcode : UInt8) : Except Error Unit :=
  if validOpcodes.contains opcode then .ok () else .error s!"InvalidCode(Opcode({opcode.toNat}))"

/-! ## The handler -/

/-- The account an EVM program sees as the origin of the transaction. -/
def origin : Address :=
  frame.contractInstance.elim frame.accountAddress ContractInstance.instanceAddress

/-- Answer a request of an EVM program. -/
def answer (crypto : Crypto) (config : EvmConfig) (precompiles : Precompiles) (engines : Engines) :
    (c : HandlerCall) → ManagerOp c.Answer
  | .balance address => balance db address
  | .codeSize address => codeSize db address
  | .codeHash address => codeHash crypto db address
  | .code address => code db address
  | .storage address key | .originalStorage address key => storage db address key
  | .gasLeft => do
    let self ← state
    pure (self.gasometer.gas64.setWidth 256)
  | .gasPrice => pure (1 : BitVec 256)
  | .origin => pure (origin frame)
  | .blockHash _ => pure frame.env.blockHash
  | .blockNumber => pure (frame.env.blockNumber.setWidth 256)
  | .blockCoinbase => pure (0 : BitVec 160)
  | .blockTimestamp => pure (frame.env.blockTimestamp.setWidth 256)
  | .blockDifficulty | .blockGasLimit | .blockBaseFeePerGas | .chainId => pure (0 : BitVec 256)
  | .blockRandomness => pure (none : Option H256)
  | .exists address | .deleted address => isValidAccount db address
  | .isCold _ _ => pure (.ok false : Except Error Bool)
  | .setStorage address key value => setStorage frame address key value
  | .log address topics eventData => log frame address topics eventData
  | .markDelete _ _ => pure (.ok () : Except Error Unit)
  | .create caller scheme value initCode targetGas =>
    create db frame engines caller scheme value initCode targetGas
  | .call address transfer input targetGas isStatic context =>
    call db frame config precompiles engines address transfer input targetGas isStatic context
  | .preValidate opcode => pure (preValidate opcode)
  | .recordExternalOperation => pure (.ok () : Except Error Unit)

end Handler

end L1xCore
