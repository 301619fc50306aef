import L1xCore.ContractInstanceManager.Frame

/-!
# `ContractInstanceManager.ContractInstanceL1xvm` — the manager as the host of an L1XVM contract

`contract_instance_manager/src/contract_instance_l1xvm.rs`: storage of the contract's own instance, token
transfers, events, and calls of other contracts. A called contract runs on a clone of the manager's
overlay, which is merged only if the call succeeded.
-/

namespace L1xCore.VMContractTrait

open Fallible ContractInstanceManager UpdatedState

/-- The address of the running instance. The code unwraps the option. -/
def instanceAddress (frame : Frame) : ManagerOp Address :=
  okOr (frame.contractInstance.map ContractInstance.instanceAddress)
    "called `Option::unwrap()` on a `None` value"

variable (db : StateTables) (frame : Frame)

def contractInstanceOwnerAddressOf (contractInstanceAddress : Address) : ManagerOp Address := do
  let contractInstance ← onState (getContractInstance db contractInstanceAddress)
  pure contractInstance.ownerAddress

def contractCodeOwnerAddressOf (contractCodeAddress : Address) : ManagerOp Address := do
  let owner ← onState (getContractOwner db contractCodeAddress)
  pure owner.2

def contractCodeAddressOf (contractInstanceAddress : Address) : ManagerOp Address := do
  let contractInstance ← onState (getContractInstance db contractInstanceAddress)
  pure contractInstance.contractAddress

def storageRead (key : ContractInstanceKey) : ManagerOp (Option ContractInstanceValue) := do
  let instanceAddress ← instanceAddress frame
  onState (getStateKeyValue db instanceAddress key)

def storageRemove (key : ContractInstanceKey) : ManagerOp Unit := do
  let instanceAddress ← instanceAddress frame
  onState (deleteStateKeyValue instanceAddress key)

def storageWrite (key : ContractInstanceKey) (value : ContractInstanceValue) : ManagerOp Unit := do
  let instanceAddress ← instanceAddress frame
  onState (storeStateKeyValue instanceAddress key value)

def transferToken (fromAddress toAddress : Address) (amount : Balance) : ManagerOp Unit :=
  onState (transfer db fromAddress toAddress amount)

def getBalance (address : Address) : ManagerOp Balance :=
  onState (UpdatedState.getBalance db address)

/-- What a called contract is called with. An EVM contract gets its own address as the account. -/
def calledContract (engines : Engines) (contractType : ContractType) (contract : Contract)
    (contractInstance : ContractInstance) (currentAddress contractInstanceAddress : Address)
    (function : ContractFunction) (arguments : ContractArgument) (gasLimit : Gas) (deposit : Balance)
    (readonly : Bool) : UpdatedState → Performed (Capture × Gas) :=
  match contractType with
  | .L1XVM =>
    engines.l1xvm
      { accountAddress := currentAddress, context := ⟨currentAddress, currentAddress, 0⟩, gasLimit,
        deposit, contract, contractInstance, function, arguments, readonly, env := frame.env,
        currentCallDepth := frame.currentCallDepth + 1 }
  | .EVM =>
    engines.evm
      { accountAddress := contractInstanceAddress,
        context := ⟨contractInstanceAddress, currentAddress, deposit.setWidth 256⟩, gasLimit,
        deposit, contract, contractInstance, function, arguments, readonly, env := frame.env,
        currentCallDepth := frame.currentCallDepth + 1 }
  | .XTALK => xtalk

/-- `call_contract`: the data and the burnt gas of a call that succeeded. -/
def callContract (engines : Engines) (contractInstanceAddress : Address)
    (function : ContractFunction) (arguments : ContractArgument) (gasLimit : Gas) (deposit : Balance)
    (readonly : Bool) : ManagerOp (Bytes × Gas) := do
  let currentAddress ← instanceAddress frame
  let contractInstance ← onState (getContractInstance db contractInstanceAddress)
  let contract ← onState (getContract db contractInstance.contractAddress)
  let contractType ← lift (ContractType.ofInt8 contract.type)
  let called ← perform (calledContract frame engines contractType contract contractInstance
    currentAddress contractInstanceAddress function arguments gasLimit deposit readonly)
  match called.1.1 with
  | .exit .succeed result => do
    mergeState called.2
    pure (result, called.1.2)
  | .exit (.error e) _ => fail s!"Error: {e}"
  | .exit (.fatal e) _ => fail s!"Fatal: {e}"
  | .exit (.revert e) _ => fail s!"Revert: {e}"
  | .trap => fail "Trap"

/-- The stored code of an event's source (`EventType as i8`). -/
def EVENT_TYPE_L1XVM : Int8 := 0

def emitEvent (eventData : EventData) : ManagerOp Unit := do
  let contractAddress ← okOr (frame.contractInstance.map ContractInstance.instanceAddress)
    "Emit event | Contract instance not found"
  onState (createEvent
    ⟨frame.env.transactionHash, eventData, frame.env.blockNumber, EVENT_TYPE_L1XVM, contractAddress, none⟩)

end L1xCore.VMContractTrait
