import L1xCore.System.Account

/-!
# `L1xEvm.Evm` — the values that pass between the node and the EVM

How a contract call ends, what it is called with (`Context`, `Transfer`), how the address of a created
contract is derived (`l1x_evm/src/tagged_runtime.rs`), and the gas meter of a frame
(`evm_interpreter/src/evmgasometer`). The meter of a frame is only ever charged explicitly: the memory
and refund counters keep the zeros they start with.
-/

namespace L1xCore

abbrev U256 := BitVec 256
abbrev H256 := BitVec 256

/-! ## How a contract call ends -/

inductive ExitReason where
  | succeed
  | error (e : Error)
  | revert (e : Error)
  | fatal (e : Error)

def ExitReason.isSucceed : ExitReason → Bool
  | .succeed => true
  | _ => false

/-- The end of a contract call (`Capture`). -/
inductive Capture where
  | exit (reason : ExitReason) (result : Bytes)
  | trap

/-- The text of an error as the data a call returns. -/
def Error.intoBytes (e : Error) : Bytes := e.toUTF8.toList

/-- A call that ended with the error `e` and its text. -/
def Capture.ofError (e : Error) : Capture := .exit (.error e) (Error.intoBytes e)

/-! ## What a call is made with -/

/-- The execution context of a frame. -/
structure Context where
  address : Address
  caller : Address
  apparentValue : U256
  deriving DecidableEq

/-- A transfer of value that goes with a call. -/
structure Transfer where
  source : Address
  target : Address
  value : U256
  deriving DecidableEq

/-- `u256_to_balance`: the largest balance is refused as well. -/
def u256ToBalance (value : U256) : Option Balance :=
  if value ≥ BitVec.ofNat 256 (2 ^ 128 - 1) then none else some (value.setWidth 128)

inductive CreateScheme where
  | create2 (caller : Address) (codeHash salt : H256)
  | legacy (caller : Address)
  | fixed (address : Address)
  deriving DecidableEq

/-- The RLP form of an unsigned integer: its bytes without leading zeros, behind their length unless
    there is a single small one. -/
def rlpU128 (n : BitVec 128) : Bytes :=
  match (u128ToBeBytes n).dropWhile (· = 0) with
  | [b] => if b < 0x80 then [b] else [0x81, b]
  | bytes => UInt8.ofNat (0x80 + bytes.length) :: bytes

/-- The RLP list of an address and a nonce. -/
def rlpAddressNonce (address : Address) (nonce : Nonce) : Bytes :=
  let items := 0x94 :: addressBytes address ++ rlpU128 nonce
  UInt8.ofNat (0xc0 + items.length) :: items

def createEvmAddress (crypto : Crypto) (scheme : CreateScheme) (nonce : Nonce) : Address :=
  match scheme with
  | .create2 caller codeHash salt =>
    Account.ofHash (crypto.keccak256 (0xff :: addressBytes caller ++ toBytes 32 salt ++ toBytes 32 codeHash))
  | .legacy caller => Account.ofHash (crypto.keccak256 (rlpAddressNonce caller nonce))
  | .fixed address => address

/-! ## Gas -/

/-- What `Config::shanghai` fixes, as far as it is read. -/
structure EvmConfig where
  gasTransactionCreate : Gas := 53000
  gasTransactionCall : Gas := 21000
  gasTransactionZeroData : Gas := 4
  gasTransactionNonZeroData : Gas := 16
  disallowExecutableFormat : Bool := true
  createContractLimit : Nat := 0x6000

def EvmConfig.shanghai : EvmConfig := {}

namespace TransactionCost

/-- What the bytes of a transaction cost, the access list being empty. -/
def data (config : EvmConfig) (base : Gas) (data : Bytes) : Gas :=
  base + BitVec.ofNat 64 (data.count 0) * config.gasTransactionZeroData +
    BitVec.ofNat 64 (data.length - data.count 0) * config.gasTransactionNonZeroData

def call (config : EvmConfig) (arguments : Bytes) : Gas :=
  data config config.gasTransactionCall arguments

/-- `init_code_cost`: two units for every started word. -/
def initCodeCost (code : Bytes) : Gas := 2 * ((BitVec.ofNat 64 code.length + 31) / 32)

def create (config : EvmConfig) (code : Bytes) : Gas :=
  data config config.gasTransactionCreate code + initCodeCost code

end TransactionCost

structure GasometerState where
  gasLimit : Gas
  memoryGas : Gas
  usedGas : Gas
  refundedGas : Gas
  deriving DecidableEq

namespace GasometerState

def new (gasLimit : Gas) : GasometerState := ⟨gasLimit, 0, 0, 0⟩

def totalUsedGas (self : GasometerState) : Gas := self.usedGas + self.memoryGas

def gas64 (self : GasometerState) : Gas := self.gasLimit - self.memoryGas - self.usedGas

def recordGas64 (self : GasometerState) (cost : Gas) : Except Error GasometerState :=
  match self.totalUsedGas.checkedAdd cost with
  | some allGasCost =>
    if self.gasLimit < allGasCost then .error "OutOfGas"
    else .ok { self with usedGas := self.usedGas + cost }
  | none => .error "OutOfGas"

/-- The callers log a failed charge and go on; the meter is then as it was. -/
def charge (self : GasometerState) (cost : Gas) : GasometerState :=
  (self.recordGas64 cost).toOption.getD self

def newTransactCall (config : EvmConfig) (gasLimit : Gas) (input : Bytes) : Except Error GasometerState :=
  (new gasLimit).recordGas64 (TransactionCost.call config input)

def burntGas (self : GasometerState) : Gas := self.totalUsedGas.saturatingSub self.refundedGas

end GasometerState

end L1xCore
