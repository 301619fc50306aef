import L1xCore.Lib.Checked

/-!
# `Primitives` — the scalar types and the compile-time constants

The type aliases of `primitives` and the constants of `compile_time_config`. Fixed-width integers and
fixed-size byte arrays are bit vectors of the same width; arithmetic that the code does not check wraps,
as in the release build. Byte vectors of arbitrary length are lists of bytes.
-/

namespace L1xCore

abbrev Bytes := List UInt8

abbrev Address := BitVec 160
abbrev BlockHash := BitVec 256
abbrev TransactionHash := BitVec 256
abbrev Balance := BitVec 128
abbrev Nonce := BitVec 128
abbrev BlockNumber := BitVec 128
abbrev Gas := BitVec 64
abbrev Epoch := BitVec 64
abbrev BlockTimeStamp := BitVec 64

instance : LawfulBEq Address := inferInstance

abbrev SignatureBytes := Bytes
abbrev VerifyingKeyBytes := Bytes
abbrev ContractCode := Bytes
abbrev ContractFunction := Bytes
abbrev ContractArgument := Bytes
abbrev ContractInstanceKey := Bytes
abbrev ContractInstanceValue := Bytes
abbrev EventData := Bytes
abbrev Salt := Bytes

/-- Errors carry a text, as `anyhow::Error` does. -/
abbrev Error := String

/-- `hex::encode` of a fixed-size byte array: two lower-case digits a byte. -/
def hexEncode {n : Nat} (x : BitVec n) : String := x.toHex

/-- The `n` bytes of a `8 * n`-bit value, most significant first: the array as a byte vector. -/
def toBytes (n : Nat) (x : BitVec (8 * n)) : Bytes :=
  (List.range n).map fun i => UInt8.ofBitVec (x.extractLsb' (8 * (n - 1 - i)) 8)

/-- The value of a byte vector, most significant byte first. -/
def ofBytes (w : Nat) (bytes : Bytes) : BitVec w :=
  bytes.foldl (fun x b => x <<< 8 ||| b.toBitVec.setWidth w) 0

/-- An address as a byte vector (`Address::to_vec`). -/
def addressBytes (a : Address) : Bytes := toBytes 20 a

/-- `u128::to_be_bytes`. -/
def u128ToBeBytes (x : BitVec 128) : Bytes := toBytes 16 x

/-! ## Compile-time configuration (main net) -/

/-- Gas units for one unit of the native token. -/
def GAS_PRICE : Balance := 7000

def SLOTS_PER_EPOCH : BlockNumber := 100

def MINT_MASTER_ADDRESS : Address := 0xbd9641b7A6c7FD137dD75dA9a129965754c5620a

def FEE_RECIPIENT_MASTER_ADDRESS : Address := 0xf1bac54594b120f468108652e7669791f3e7aaf1

def SYSTEM_CONTRACTS_OWNER : Address := 0xff00000000000000000000000000000000000000

def SYSTEM_REWARDS_DISTRIBUTOR : Address := 0xff00000000000000000000000000000000000001

end L1xCore
