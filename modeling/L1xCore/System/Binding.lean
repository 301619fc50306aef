import L1xCore.System.Transaction
import Mathlib.Data.Countable.Basic
import Mathlib.Data.FinEnum
import Mathlib.Logic.Equiv.List
import Mathlib.Tactic.DeriveCountable

/-!
# `System.Binding` — what a signature commits its signer to

Two transactions that carry one signature of one key were signed as one payload. The payload of
version 3 keeps everything a transaction does. The payload of versions 1 and 2 drops the deposit of
an instantiation and of a call, so there the signature leaves the deposit open.
-/

namespace L1xCore

/-! ## The payload projections -/

theorem u128ToString_inj {m n : BitVec 128} : u128ToString m = u128ToString n ↔ m = n := by
  refine ⟨fun h => ?_, congrArg _⟩
  unfold u128ToString at h
  rw [Nat.repr_eq_ofList_toDigits, Nat.repr_eq_ofList_toDigits, String.ofList_inj] at h
  -- the number is read back from its digits
  have hread : Nat.ofDigitChars 10 (Nat.toDigits 10 m.toNat) 0 = m.toNat := Nat.ofDigitChars_ten_toDigits
  rw [h, Nat.ofDigitChars_ten_toDigits] at hread
  exact BitVec.eq_of_toNat_eq hread.symm

namespace TransactionType

/-- The kinds that versions 1 and 2 sign without the deposit they carry. -/
def unsignedDeposit : TransactionType → Bool
  | smartContractInit _ _ _ => true
  | smartContractFunctionCall _ _ _ _ => true
  | _ => false

/-- The kind with another deposit, where the kind is one whose deposit is not signed. -/
def withDeposit (deposit : Balance) : TransactionType → TransactionType
  | smartContractInit contractCodeAddress arguments _ =>
    smartContractInit contractCodeAddress arguments deposit
  | smartContractFunctionCall contractInstanceAddress function arguments _ =>
    smartContractFunctionCall contractInstanceAddress function arguments deposit
  | kind => kind

theorem toV2SignPayload_injective : Function.Injective toV2SignPayload := by
  intro t u h
  cases t <;> cases u <;> simp_all [toV2SignPayload, u128ToString_inj]

theorem toV1SignPayload_withDeposit (t : TransactionType) (deposit : Balance) :
    (t.withDeposit deposit).toV1SignPayload = t.toV1SignPayload := by
  cases t <;> rfl

/-- An unsigned deposit can be changed: one of the two values is not the present one. -/
theorem exists_withDeposit_ne {t : TransactionType} (ht : t.unsignedDeposit = true) :
    ∃ deposit, t.withDeposit deposit ≠ t := by
  cases t with
  | smartContractInit contractCodeAddress arguments deposit =>
    refine ⟨deposit + 1, fun h => ?_⟩
    simp [withDeposit] at h
  | smartContractFunctionCall contractInstanceAddress function arguments deposit =>
    refine ⟨deposit + 1, fun h => ?_⟩
    simp [withDeposit] at h
  | _ => cases ht

end TransactionType

/-! ## Signatures -/

/-- What is assumed of the curve and of the serialisation: under one key a signature verifies for one
    serialised payload, and payloads are serialised injectively. -/
structure Crypto.Binds (crypto : Crypto) (codec : Codec) : Prop where
  verifies_once : ∀ publicKey payload payload' signature,
    crypto.ecdsaVerify publicKey payload signature = true →
    crypto.ecdsaVerify publicKey payload' signature = true → payload = payload'
  v1_injective : Function.Injective codec.v1SignPayload
  v3_injective : Function.Injective codec.v3SignPayload

namespace Transaction

section

variable {crypto : Crypto} {codec : Codec} {t : Transaction}

/-- The bytes that the sender of a transaction of its version signs. -/
def signedBytes (codec : Codec) (tx : Transaction) : Bytes :=
  match tx.version with
  | .V1 | .V2 => codec.v1SignPayload tx.v1SignPayload
  | .V3 => codec.v3SignPayload tx.v3SignPayload

/-- The two transactions do the same: what is left out is who sends them and how they are signed. -/
structure SameEffect (t u : Transaction) : Prop where
  nonce : t.nonce = u.nonce
  feeLimit : t.feeLimit = u.feeLimit
  transactionType : t.transactionType = u.transactionType

/-- `u` is another transaction that carries the signature of `t`: same version, key and signature, and
    it verifies as well. -/
structure SharesSignature (crypto : Crypto) (codec : Codec) (t u : Transaction) : Prop where
  native : u.ethOriginalTransaction = none
  version : u.version = t.version
  verifyingKey : u.verifyingKey = t.verifyingKey
  signature : u.signature = t.signature
  verified : u.verifySignature crypto codec = .ok true

/-- A transaction that is no Ethereum one verifies when its key and its signature parse and the
    signature is one of the signed bytes. -/
theorem verifySignature_ok_iff (ht : t.ethOriginalTransaction = none) :
    t.verifySignature crypto codec = .ok true ↔
      ∃ signature publicKey, codec.signatureFromBytes t.signature = some signature ∧
        crypto.publicKeyFromSlice t.verifyingKey = some publicKey ∧
        crypto.ecdsaVerify publicKey (t.signedBytes codec) signature = true := by
  unfold verifySignature signedBytes
  rw [ht]
  cases hsignature : codec.signatureFromBytes t.signature with
  | none => simp
  | some signature =>
    cases hkey : crypto.publicKeyFromSlice t.verifyingKey with
    | none => simp
    | some publicKey => cases hversion : t.version <;> simp

/-- The transaction with another deposit, as anyone on its way can make it. -/
def withDeposit (t : Transaction) (deposit : Balance) : Transaction :=
  { t with transactionType := t.transactionType.withDeposit deposit }

/-- In versions 1 and 2 the changed transaction still carries a valid signature. -/
theorem sharesSignature_withDeposit (ht : t.ethOriginalTransaction = none)
    (hverified : t.verifySignature crypto codec = .ok true) (hversion : t.version ≠ .V3)
    (deposit : Balance) : SharesSignature crypto codec t (t.withDeposit deposit) := by
  have hbytes : (t.withDeposit deposit).signedBytes codec = t.signedBytes codec := by
    unfold signedBytes
    cases h : t.version with
    | V3 => exact absurd h hversion
    | _ =>
      simp only [withDeposit, v1SignPayload, h, TransactionType.toV1SignPayload_withDeposit]
  have hnative : (t.withDeposit deposit).ethOriginalTransaction = none := ht
  refine ⟨ht, rfl, rfl, rfl, (verifySignature_ok_iff hnative).mpr ?_⟩
  rw [hbytes]
  exact (verifySignature_ok_iff ht).mp hverified

/-- **A signature fixes the effect of its transaction, the deposits of versions 1 and 2 apart.** No
    other transaction with a different effect carries the signature, exactly when the transaction is of
    version 3 or its kind has no deposit that versions 1 and 2 leave out. -/
theorem signature_binds_iff (hbinds : crypto.Binds codec) (ht : t.ethOriginalTransaction = none)
    (hverified : t.verifySignature crypto codec = .ok true) :
    (∀ u, SharesSignature crypto codec t u → SameEffect t u) ↔
      t.version = .V3 ∨ t.transactionType.unsignedDeposit = false := by
  constructor
  · intro hall
    by_contra hcon
    obtain ⟨hversion, hkind⟩ := not_or.mp hcon
    obtain ⟨deposit, hne⟩ := TransactionType.exists_withDeposit_ne (by simpa using hkind)
    have hshares := sharesSignature_withDeposit ht hverified hversion deposit
    exact hne (hall _ hshares).transactionType.symm
  · intro hcondition u hu
    have hbytes : t.signedBytes codec = u.signedBytes codec := by
      obtain ⟨signature, publicKey, hs, hk, hv⟩ := (verifySignature_ok_iff ht).mp hverified
      obtain ⟨signature', publicKey', hs', hk', hv'⟩ := (verifySignature_ok_iff hu.native).mp hu.verified
      rw [hu.signature, hs] at hs'
      rw [hu.verifyingKey, hk] at hk'
      cases hs'
      cases hk'
      exact hbinds.verifies_once publicKey _ _ signature hv hv'
    unfold signedBytes at hbytes
    rw [hu.version] at hbytes
    cases hversion : t.version with
    | V3 =>
      rw [hversion] at hbytes
      have hpayload := hbinds.v3_injective hbytes
      simp only [v3SignPayload, TxV3SignPayload.mk.injEq, u128ToString_inj] at hpayload
      obtain ⟨hnonce, hkind, hfee⟩ := hpayload
      exact ⟨hnonce, hfee, TransactionType.toV2SignPayload_injective hkind⟩
    | _ =>
      rw [hversion] at hbytes hcondition
      have hkind := hcondition.resolve_left (by decide)
      have hpayload := hbinds.v1_injective hbytes
      simp only [v1SignPayload, TxV1SignPayload.mk.injEq] at hpayload
      obtain ⟨hnonce, hkinds, hfee⟩ := hpayload
      refine ⟨hnonce, hfee, ?_⟩
      cases ht : t.transactionType <;> cases hu : u.transactionType <;>
        simp_all [TransactionType.toV1SignPayload, TransactionType.unsignedDeposit, u128ToString_inj]

end

/-! ## A transparent signature

The signature is the payload itself and the payload is written as a number in unary: the assumptions
hold, and nothing else is known of the curve. -/

namespace Transparent

instance : Countable Char :=
  Function.Injective.countable (fun _ _ h => Char.toNat_inj.mp h)

instance : Countable String :=
  Function.Injective.countable (fun _ _ h => String.toList_injective h)

deriving instance Countable for AccessType, ContractType
deriving instance Countable for TransactionTypeV1SignPayload, TransactionTypeV2SignPayload
deriving instance Countable for TxV1SignPayload, TxV3SignPayload

noncomputable def unary {α : Type} [Countable α] (a : α) : Bytes :=
  List.replicate ((exists_injective_nat α).choose a) 0

theorem unary_injective {α : Type} [Countable α] : Function.Injective (unary : α → Bytes) := by
  intro a b h
  have hlength := congrArg List.length h
  simp only [unary, List.length_replicate] at hlength
  exact (exists_injective_nat α).choose_spec hlength

def crypto : Crypto where
  keccak256 _ := 0
  sha256 _ := 0
  publicKeyFromSlice := some
  ecdsaVerify _ payload signature := signature = payload

noncomputable def codec : Codec where
  transactionBytes tx := tx.signature
  v1SignPayload := unary
  v3SignPayload := unary
  signatureFromBytes := some
  newFromEth _ := .error "not an Ethereum transaction"
  ethTransactionHash _ := .error "not an Ethereum transaction"

theorem binds : crypto.Binds codec where
  verifies_once _ payload payload' signature h h' := by
    simp only [crypto, decide_eq_true_eq] at h h'
    rw [← h, h']
  v1_injective := unary_injective
  v3_injective := unary_injective

/-- A call with the given deposit, signed by its sender for the deposit `signed`. -/
noncomputable def call (version : TransactionVersion) (deposit signed : Balance) : Transaction :=
  let unsigned (deposit : Balance) : Transaction :=
    { version, nonce := 1, transactionType := .smartContractFunctionCall 7 [] [] deposit,
      feeLimit := 10, signature := [], verifyingKey := [1], ethOriginalTransaction := none }
  { unsigned deposit with signature := (unsigned signed).signedBytes codec }

theorem call_verified {version : TransactionVersion} {deposit : Balance} :
    (call version deposit deposit).verifySignature crypto codec = .ok true := by
  refine (verifySignature_ok_iff rfl).mpr ⟨_, _, rfl, rfl, ?_⟩
  cases version <;> exact decide_eq_true rfl

end Transparent

theorem signature_binds_v3 :
    (Transparent.call .V3 5 5).verifySignature Transparent.crypto Transparent.codec = .ok true ∧
    ∀ u, SharesSignature Transparent.crypto Transparent.codec (Transparent.call .V3 5 5) u →
      SameEffect (Transparent.call .V3 5 5) u :=
  have hverified := Transparent.call_verified
  ⟨hverified, (signature_binds_iff Transparent.binds rfl hverified).mpr (.inl rfl)⟩

/-- A call of version 1 signed for a deposit of 5 verifies with a deposit of 500. -/
theorem signature_leaves_deposit :
    Transparent.crypto.Binds Transparent.codec ∧
    (Transparent.call .V1 5 5).verifySignature Transparent.crypto Transparent.codec = .ok true ∧
    SharesSignature Transparent.crypto Transparent.codec (Transparent.call .V1 5 5)
      (Transparent.call .V1 500 5) ∧
    ¬ SameEffect (Transparent.call .V1 5 5) (Transparent.call .V1 500 5) := by
  refine ⟨Transparent.binds, Transparent.call_verified, ?_, ?_⟩
  · exact sharesSignature_withDeposit rfl Transparent.call_verified (by decide) 500
  · intro h
    have hkind := h.transactionType
    simp [Transparent.call] at hkind

end Transaction

end L1xCore
