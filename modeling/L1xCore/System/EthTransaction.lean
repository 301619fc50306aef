import L1xCore.Fee.FeeManager
import L1xCore.L1xEvm.Evm
import L1xCore.System.Block

/-!
# `System.EthTransaction` — Ethereum transactions are converted

`Transaction::new_from_eth` decodes an Ethereum transaction, recovers the key of its sender and narrows the
numbers, which have 256 bits. A value or a gas limit that does not fit is an error. A nonce that does not fit
panics, and the one that is added to it can overflow. On the way the configuration of the node is read, which
is not used, and which panics where there is none.
-/

namespace L1xCore

inductive TransactionAction where
  | call (address : Address)
  | create

/-- The fields of `ethereum::LegacyTransaction` that are converted. -/
structure LegacyTransaction where
  nonce : U256
  gasLimit : U256
  action : TransactionAction
  value : U256
  input : Bytes

/-- `ethereum::TransactionV2`. The other kinds are refused. -/
inductive TransactionV2 where
  | legacy (transaction : LegacyTransaction)
  | other

/-- `try_into`, `as_u128` and `as_u64`. -/
def U256.narrow (w : Nat) (x : U256) : Option (BitVec w) :=
  if x.toNat < 2 ^ w then some (x.setWidth w) else none

/-- Decoding, and the recovery of the signature and the key from what was decoded. -/
structure EthDecoder where
  decode : Bytes → Except Error TransactionV2
  recover : Bytes → Except Error (SignatureBytes × VerifyingKeyBytes)
  /-- `Config::default()`: whether the `config.toml` of the working directory can be read, or it panics. -/
  config : Option Unit

namespace EthDecoder

variable (d : EthDecoder)

def converted (bytes : Bytes) (transaction : LegacyTransaction) (value : Balance)
    (recovered : SignatureBytes × VerifyingKeyBytes) (gasLimit : Gas) (nonce : Nonce) : Transaction where
  version := .V3
  nonce := nonce
  transactionType :=
    match transaction.action with
    | .call address => .smartContractFunctionCall address [] transaction.input value
    | .create => .smartContractDeployment .PUBLIC .EVM transaction.input value (List.replicate 32 0)
  feeLimit := gasLimit.setWidth 128 / GAS_PRICE + 1
  signature := recovered.1
  verifyingKey := recovered.2
  ethOriginalTransaction := some bytes

/-- What comes after the configuration: the gas limit and the nonce are narrowed. -/
def convert (bytes : Bytes) (transaction : LegacyTransaction) (value : Balance)
    (recovered : SignatureBytes × VerifyingKeyBytes) : Option (Except Error Transaction) :=
  match transaction.gasLimit.narrow 64 with
  | none => some (.error "Gas_limit overflowed")
  | some gasLimit => do
    let nonce ← transaction.nonce.narrow 128
    let nonce ← nonce.checkedAdd 1
    some (.ok (converted bytes transaction value recovered gasLimit nonce))

/-- `Transaction::new_from_eth`; `none` is a panic, or a sum that overflows. -/
def newFromEth (bytes : Bytes) : Option (Except Error Transaction) :=
  match d.decode bytes with
  | .error e => some (.error s!"Failed to parse log ethereum Transaction v2: {e}")
  | .ok .other => some (.error "Transaction type not Legacy")
  | .ok (.legacy transaction) =>
    match transaction.value.narrow 128 with
    | none =>
      some (.error "Failed to convert legacy TX balance: integer overflow when casting to u128")
    | some value =>
      match d.recover bytes with
      | .error e => some (.error e)
      | .ok recovered => do
        let _ ← d.config
        convert bytes transaction value recovered

/-- The codec of a node that converts so. -/
def codec (codec : Codec) : Codec :=
  { codec with newFromEth := fun bytes => (d.newFromEth bytes).getD (.error "panicked") }

/-- What a conversion keeps. -/
structure Faithful (crypto : Crypto) (codec : Codec) (transaction : LegacyTransaction) (t : Transaction) :
    Prop where
  nonce : t.nonce.toNat = transaction.nonce.toNat + 1
  deposit : t.amount.toNat = transaction.value.toNat
  gas : transaction.gasLimit.toNat ≤ (buyGas t.feeLimit).toNat
  signature : t.verifySignature crypto (d.codec codec) = .ok true

/-- **The conversion returns**, and what it returns is faithful. -/
def ConvertsFaithfully (crypto : Crypto) (codec : Codec) (bytes : Bytes) : Prop :=
  ∃ result, d.newFromEth bytes = some result ∧ ∀ t, result = .ok t →
    ∃ transaction, d.decode bytes = .ok (.legacy transaction) ∧ d.Faithful crypto codec transaction t

/-- What comes to the configuration: a legacy transaction whose value fits, and whose key is recovered. -/
structure ReachesConfig (bytes : Bytes) (transaction : LegacyTransaction) : Prop where
  decoded : d.decode bytes = .ok (.legacy transaction)
  value : transaction.value.toNat < 2 ^ 128
  recovered : ∃ signature, d.recover bytes = .ok signature

theorem narrow_eq_some {w : Nat} {x : U256} {y : BitVec w} :
    x.narrow w = some y ↔ x.toNat < 2 ^ w ∧ y.toNat = x.toNat := by
  unfold U256.narrow
  by_cases hfits : x.toNat < 2 ^ w
  · rw [if_pos hfits, Option.some.injEq, BitVec.toNat_eq, BitVec.toNat_setWidth, Nat.mod_eq_of_lt hfits,
      and_iff_right hfits]
    exact eq_comm
  · rw [if_neg hfits]
    exact iff_of_false nofun fun h => hfits h.1

theorem narrow_eq_none {w : Nat} {x : U256} : x.narrow w = none ↔ ¬ x.toNat < 2 ^ w := by
  unfold U256.narrow
  split <;> simp [*]

theorem le_buyGas (gasLimit : Gas) :
    gasLimit.toNat ≤ (buyGas (gasLimit.setWidth 128 / GAS_PRICE + 1)).toNat := by
  have hfee : (gasLimit.setWidth 128 / GAS_PRICE + 1 : Balance).toNat = gasLimit.toNat / 7000 + 1 := by
    have hlt := gasLimit.isLt
    rw [BitVec.toNat_add, BitVec.toNat_udiv, BitVec.toNat_setWidth]
    show (gasLimit.toNat % 2 ^ 128 / 7000 + 1) % 2 ^ 128 = _
    omega
  rw [toNat_buyGas, hfee]
  show _ ≤ min ((gasLimit.toNat / 7000 + 1) * 7000) _
  omega

/-- **What the conversion comes to**: an error, or the configuration and the nonce. -/
theorem newFromEth_cases (bytes : Bytes) :
    (∃ e, d.newFromEth bytes = some (.error e) ∧ ∀ transaction, ¬ d.ReachesConfig bytes transaction) ∨
      ∃ transaction value recovered, d.ReachesConfig bytes transaction ∧
        value.toNat = transaction.value.toNat ∧
        d.newFromEth bytes = d.config.bind fun _ => convert bytes transaction value recovered := by
  unfold newFromEth
  split
  · next e hdecode =>
      refine .inl ⟨_, rfl, fun transaction h => ?_⟩
      cases hdecode.symm.trans h.decoded
  · next hdecode =>
      refine .inl ⟨_, rfl, fun transaction h => ?_⟩
      cases hdecode.symm.trans h.decoded
  next transaction hdecode =>
  split
  · next hvalue =>
      refine .inl ⟨_, rfl, fun other h => ?_⟩
      cases hdecode.symm.trans h.decoded
      exact narrow_eq_none.mp hvalue h.value
  next value hvalue =>
  split
  · next e hrecover =>
      refine .inl ⟨_, rfl, fun other h => ?_⟩
      obtain ⟨recovered, hrecovered⟩ := h.recovered
      cases hrecover.symm.trans hrecovered
  next recovered hrecover =>
  obtain ⟨hvalueFits, hvalue⟩ := narrow_eq_some.mp hvalue
  exact .inr ⟨transaction, value, recovered, ⟨hdecode, hvalueFits, _, hrecover⟩, hvalue, rfl⟩

/-- **When Ethereum transactions convert faithfully**: if, for a transaction that comes so far, the configuration
    can be read, and the nonce and the next one fit into 128 bits unless the gas limit is refused. -/
theorem convertsFaithfully_iff (crypto : Crypto) (codec : Codec) (bytes : Bytes) :
    d.ConvertsFaithfully crypto codec bytes ↔
      ∀ transaction, d.ReachesConfig bytes transaction → d.config.isSome ∧
        (transaction.gasLimit.toNat < 2 ^ 64 → transaction.nonce.toNat < 2 ^ 128 - 1) := by
  rcases d.newFromEth_cases bytes with ⟨e, herror, hnot⟩ |
    ⟨transaction, value, recovered, hreaches, hvalue, hconvert⟩
  · exact iff_of_true ⟨_, herror, fun t ht => by cases ht⟩ fun other h => absurd h (hnot other)
  constructor
  · rintro ⟨result, hresult, -⟩ other hother
    cases hreaches.decoded.symm.trans hother.decoded
    rw [hconvert] at hresult
    obtain ⟨⟨⟩, hconfig, hresult⟩ := Option.bind_eq_some_iff.mp hresult
    refine ⟨Option.isSome_iff_exists.mpr ⟨_, hconfig⟩, fun hfits => ?_⟩
    have hgas : transaction.gasLimit.narrow 64 = some _ := if_pos hfits
    rw [convert, hgas] at hresult
    obtain ⟨nonce, hnonce, hresult⟩ := Option.bind_eq_some_iff.mp hresult
    obtain ⟨next, hnext, -⟩ := Option.bind_eq_some_iff.mp hresult
    have hnarrow := (narrow_eq_some.mp hnonce).2
    have hsum : next.toNat = nonce.toNat + 1 := BitVec.checkedAdd_eq_some.mp hnext
    have hlt := next.isLt
    omega
  · intro h
    obtain ⟨hconfig, hsmall⟩ := h transaction hreaches
    obtain ⟨⟨⟩, hconfig⟩ := Option.isSome_iff_exists.mp hconfig
    rw [hconfig, Option.bind_some, convert] at hconvert
    cases hgas : transaction.gasLimit.narrow 64 with
    | none =>
      rw [hgas] at hconvert
      exact ⟨_, hconvert, fun t ht => by cases ht⟩
    | some gasLimit =>
    obtain ⟨hfits, hlimit⟩ := narrow_eq_some.mp hgas
    have hsmall := hsmall hfits
    have hnonce : transaction.nonce.narrow 128 = some _ := if_pos (by omega)
    have hnarrow := (narrow_eq_some.mp hnonce).2
    have hone : (1 : Nonce).toNat = 1 := rfl
    have hroom : ¬ 2 ^ 128 ≤ (transaction.nonce.setWidth 128).toNat + (1 : Nonce).toNat := by omega
    obtain ⟨next, hnext⟩ := Option.ne_none_iff_exists'.mp (mt BitVec.checkedAdd_eq_none.mp hroom)
    have hsum : next.toNat = _ + 1 := BitVec.checkedAdd_eq_some.mp hnext
    rw [hgas] at hconvert
    simp only [hnonce, hnext, Option.bind_eq_bind, Option.bind_some] at hconvert
    refine ⟨_, hconvert, fun t ht => ⟨transaction, hreaches.decoded, ?_⟩⟩
    cases ht
    refine ⟨hsum.trans (congrArg (· + 1) hnarrow), ?_, hlimit ▸ le_buyGas gasLimit, ?_⟩
    · rw [← hvalue]
      unfold Transaction.amount converted
      cases transaction.action <;> rfl
    · -- the same bytes are converted again
      unfold Transaction.verifySignature EthDecoder.codec
      dsimp only [converted]
      rw [hconvert]
      exact congrArg Except.ok (decide_eq_true rfl)

end EthDecoder

namespace Small

/-- Every byte string is a transaction with this nonce, and the configuration can be read. -/
def ethDecoder (nonce : U256) : EthDecoder :=
  ⟨fun _ => .ok (.legacy ⟨nonce, 0, .create, 0, []⟩), fun _ => .ok ([], []), some ()⟩

/-- The conversion panics on a nonce of 129 bits, and overflows on the largest one of 128 bits. -/
theorem large_nonces_not_converted :
    (ethDecoder (2 ^ 128)).newFromEth [] = none ∧ (ethDecoder (2 ^ 128 - 1)).newFromEth [] = none ∧
      ¬ (ethDecoder (2 ^ 128)).ConvertsFaithfully crypto codec [] := by
  have hpanics : (ethDecoder (2 ^ 128)).newFromEth [] = none := by decide +kernel
  refine ⟨hpanics, by decide +kernel, ?_⟩
  rintro ⟨result, hresult, -⟩
  cases hpanics.symm.trans hresult

end Small

end L1xCore
