import L1xCore.Vm.VMLogic

/-!
# `Vm.HostFunctions` — what a program can make the host compute

A program chooses the addresses and the numbers it passes to the host functions of `l1x-ebpf-runtime`, all of
64 bits. An access behind the end of a buffer has to be an error of the call; what is not caught is a panic,
and that ends the node. The additions of the source are not checked, and wrap.
-/

namespace L1xCore

/-- A vector of bytes: its length is at most `isize::MAX`. -/
structure ByteVec where
  bytes : Bytes
  fits : bytes.length < 2 ^ 63

namespace ByteVec

abbrev length (self : ByteVec) : Nat := self.bytes.length

/-! ## Views and writes -/

def memView (memory : ByteVec) (addr len : BitVec 64) : Host Unit Bytes :=
  Memory.viewBytes memory.bytes addr len

def memWrite (memory : ByteVec) (offset : BitVec 64) (buffer : ByteVec) : Host Unit Bytes :=
  Memory.writeBytes memory.bytes offset buffer.bytes

/-- The bytes of the range, or an error if the range does not end inside the buffer. -/
def ViewExact (memory : ByteVec) (addr len : BitVec 64) : Prop :=
  memory.memView addr len =
    if addr.toNat + len.toNat ≤ memory.length then pure ((memory.bytes.drop addr.toNat).take len.toNat)
    else throw ()

/-- The range is replaced, or an error if it does not end inside the buffer. -/
def WriteExact (memory : ByteVec) (offset : BitVec 64) (buffer : ByteVec) : Prop :=
  memory.memWrite offset buffer =
    if offset.toNat + buffer.length ≤ memory.length then
      pure (memory.bytes.take offset.toNat ++ buffer.bytes ++
        memory.bytes.drop (offset.toNat + buffer.length))
    else throw ()

variable {memory buffer : ByteVec} {addr len offset : BitVec 64}

theorem viewExact_iff : memory.ViewExact addr len ↔
    addr.toNat + len.toNat ≠ memory.length ∧
      (2 ^ 64 ≤ addr.toNat + len.toNat → memory.length + 2 ^ 64 ≤ addr.toNat + len.toNat) := by
  have hfits : memory.bytes.length < 2 ^ 63 := memory.fits
  have hsum : (addr + len).toNat = (addr.toNat + len.toNat) % 2 ^ 64 := BitVec.toNat_add addr len
  unfold ViewExact memView Memory.viewBytes length
  by_cases hwraps : 2 ^ 64 ≤ addr.toNat + len.toNat
  · -- the range ends behind the buffer, and the wrapped sum may lie inside it
    rw [if_neg (show ¬ addr.toNat + len.toNat ≤ memory.bytes.length by omega)]
    by_cases hinside : (addr + len).toNat < memory.bytes.length
    · rw [if_neg (by omega)]
      refine iff_of_false (fun h => ?_) (by omega)
      split at h <;> cases h
    · exact iff_of_true (if_pos (by omega)) (by omega)
  · have hexact : (addr + len).toNat - addr.toNat = len.toNat := by omega
    rw [hexact]
    rcases lt_trichotomy (addr.toNat + len.toNat) memory.bytes.length with hlt | heq | hgt
    · refine iff_of_true ?_ (by omega)
      rw [if_neg (by omega), if_neg (by omega), if_pos (by omega)]
    · -- the last byte of the range is the last one of the buffer
      rw [if_pos (by omega), if_pos (by omega)]
      exact iff_of_false (fun h => by cases h) (by omega)
    · refine iff_of_true ?_ (by omega)
      rw [if_pos (by omega), if_neg (by omega)]

theorem writeExact_iff : memory.WriteExact offset buffer ↔
    offset.toNat ≤ memory.length ∨ memory.length + 2 ^ 64 < offset.toNat + buffer.length := by
  have hfits : memory.bytes.length < 2 ^ 63 := memory.fits
  have hroom : (.ofNat 64 memory.bytes.length - offset).toNat =
      (2 ^ 64 - offset.toNat + memory.bytes.length) % 2 ^ 64 := by
    rw [BitVec.toNat_sub, BitVec.toNat_ofNat]
    omega
  unfold WriteExact memWrite Memory.writeBytes length
  by_cases hinside : offset.toNat ≤ memory.bytes.length
  · refine iff_of_true ?_ (.inl hinside)
    by_cases hends : offset.toNat + buffer.bytes.length ≤ memory.bytes.length
    · rw [if_neg (by omega), if_neg (by omega), if_pos hends]
    · rw [if_pos (by omega), if_neg hends]
  · -- the room behind the offset has wrapped, and only a longer buffer is refused
    rw [if_neg (show ¬ offset.toNat + buffer.bytes.length ≤ memory.bytes.length by omega)]
    by_cases hrefused : (.ofNat 64 memory.bytes.length - offset).toNat < buffer.bytes.length
    · exact iff_of_true (if_pos hrefused) (by omega)
    · rw [if_neg hrefused, if_pos (by omega)]
      exact iff_of_false (fun h => by cases h) (by omega)

/-- Both accesses are exact: they end without a panic, and with just the bytes of the range. -/
structure AccessExact (memory : ByteVec) (addr len : BitVec 64) (buffer : ByteVec) : Prop where
  view : memory.ViewExact addr len
  write : memory.WriteExact addr buffer

/-- **When an access is exact.** A view must not end exactly at the end of the buffer, and a sum that wraps
    must not fall into it; a write must not begin behind the end, unless the buffer is so long that it is
    refused all the same. -/
theorem accessExact_iff (memory : ByteVec) (addr len : BitVec 64) (buffer : ByteVec) :
    memory.AccessExact addr len buffer ↔
      (addr.toNat + len.toNat ≠ memory.length ∧
        (2 ^ 64 ≤ addr.toNat + len.toNat → memory.length + 2 ^ 64 ≤ addr.toNat + len.toNat)) ∧
      (addr.toNat ≤ memory.length ∨ memory.length + 2 ^ 64 < addr.toNat + buffer.length) := by
  rw [← viewExact_iff, ← writeExact_iff]
  exact ⟨fun h => ⟨h.view, h.write⟩, fun h => ⟨h.1, h.2⟩⟩

/-- Four bytes. -/
def fourBytes : ByteVec := ⟨[1, 2, 3, 4], by decide⟩

/-- All four cannot be viewed, one byte at the last address of all is viewed as none, and the node panics on
    a write at the address five. -/
theorem fourBytes_access :
    fourBytes.memView 0 4 = throw () ∧ fourBytes.memView (-1) 1 = pure [] ∧
      fourBytes.memWrite 5 fourBytes = Host.panic ∧ ¬ fourBytes.AccessExact 0 4 fourBytes := by
  refine ⟨rfl, rfl, rfl, fun h => ?_⟩
  have hview := (viewExact_iff.mp h.view).1
  exact hview rfl

end ByteVec

/-! ## Division -/

/-- The system calls of `SyscallMathOp` that divide integers. -/
inductive DivisionOp where
  | I64DivS
  | I32DivS
  | I64RemS
  | I32RemS

namespace DivisionOp

/-- The number of the operation. -/
def toU64 : DivisionOp → Nat
  | I64DivS => 24
  | I32DivS => 25
  | I64RemS => 26
  | I32RemS => 27

/-- The operands are read as numbers of this many bits. -/
def width : DivisionOp → Nat
  | I64DivS | I64RemS => 64
  | I32DivS | I32RemS => 32

/-- The quotient or the remainder of signed numbers. -/
def apply {w : Nat} : DivisionOp → BitVec w → BitVec w → BitVec w
  | I64DivS | I32DivS => .sdiv
  | I64RemS | I32RemS => .srem

/-- `syscall_math_op64`, for these operations. The quotient of the least number and `-1` does not fit, and Rust
    panics on it, for the remainder as well. -/
def syscallMathOp64 (op : DivisionOp) (arg1 arg2 : BitVec 64) : Host Error (BitVec 64) :=
  let arg1S := arg1.setWidth op.width
  let arg2S := arg2.setWidth op.width
  if arg2S = 0 then throw s!"Division by zero op={op.toU64}"
  else if arg1S = .intMin op.width ∧ arg2S = -1 then Host.panic
  else pure ((op.apply arg1S arg2S).signExtend 64)

/-- An operand, as a number. -/
def operand (op : DivisionOp) (arg : BitVec 64) : Int := (arg.setWidth op.width).toInt

/-- The truncated quotient, or its remainder. -/
def exact : DivisionOp → Int → Int → Int
  | I64DivS | I32DivS => Int.tdiv
  | I64RemS | I32RemS => Int.tmod

/-- The call returns the exact result, or an error if the divisor is zero or the result does not fit. It does
    not panic. -/
def DividesSafely (op : DivisionOp) (arg1 arg2 : BitVec 64) : Prop :=
  (∃ r, op.syscallMathOp64 arg1 arg2 = pure r ∧ op.operand arg2 ≠ 0 ∧
    r.toInt = op.exact (op.operand arg1) (op.operand arg2)) ∨
  ∃ e, op.syscallMathOp64 arg1 arg2 = throw e ∧
    (op.operand arg2 = 0 ∨ 2 ^ (op.width - 1) ≤ op.exact (op.operand arg1) (op.operand arg2))

variable {op : DivisionOp}

/-- Unless the quotient overflows, the bits are those of the exact result. -/
theorem toInt_apply {w : Nat} {x y : BitVec w} (h : ¬ (x = .intMin w ∧ y = -1)) :
    (op.apply x y).toInt = op.exact x.toInt y.toInt := by
  cases op with
  | I64DivS | I32DivS => exact BitVec.toInt_sdiv_of_ne_or_ne x y (Decidable.not_and_iff_or_not.mp h)
  | I64RemS | I32RemS => exact BitVec.toInt_srem x y

/-- **When a division is safe**: not for the least number of the width and `-1`. -/
theorem dividesSafely_iff (op : DivisionOp) (arg1 arg2 : BitVec 64) :
    op.DividesSafely arg1 arg2 ↔
      ¬ (arg1.setWidth op.width = .intMin op.width ∧ arg2.setWidth op.width = -1) := by
  have hwidth : op.width ≤ 64 ∧ (0 : BitVec op.width) ≠ -1 := by
    cases op <;> decide
  have hzero : op.operand arg2 = 0 ↔ arg2.setWidth op.width = 0 := by
    rw [operand, ← BitVec.toInt_inj]
    simp
  unfold DividesSafely syscallMathOp64
  by_cases hdivisor : arg2.setWidth op.width = 0
  · rw [if_pos hdivisor]
    refine iff_of_true (.inr ⟨_, rfl, .inl (hzero.mpr hdivisor)⟩) fun h => ?_
    exact hwidth.2 (hdivisor.symm.trans h.2)
  · rw [if_neg hdivisor]
    by_cases hover : arg1.setWidth op.width = .intMin op.width ∧ arg2.setWidth op.width = -1
    · rw [if_pos hover]
      refine iff_of_false ?_ (not_not_intro hover)
      rintro (⟨r, h, -⟩ | ⟨e, h, -⟩) <;> cases h
    · rw [if_neg hover]
      refine iff_of_true (.inl ⟨_, rfl, fun h => hdivisor (hzero.mp h), ?_⟩) hover
      rw [BitVec.toInt_signExtend_of_le hwidth.1, toInt_apply hover]
      rfl

/-- The remainder of the least number by `-1` is zero, and the node panics on it. -/
theorem remainder_panics :
    syscallMathOp64 I64RemS (.intMin 64) (-1) = Host.panic ∧
      exact I64RemS (operand I64RemS (.intMin 64)) (operand I64RemS (-1)) = 0 ∧
      ¬ DividesSafely I64RemS (.intMin 64) (-1) := by
  have hpanic : syscallMathOp64 I64RemS (.intMin 64) (-1) = .panic := rfl
  refine ⟨hpanic, by decide, ?_⟩
  rintro (⟨r, h, -⟩ | ⟨e, h, -⟩) <;> cases hpanic.symm.trans h

end DivisionOp

end L1xCore
