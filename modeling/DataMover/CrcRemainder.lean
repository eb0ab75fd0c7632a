import DataMover.Avx512.CrcReflected
import DataMover.Continuation.Crc

/-!
# The CRC kernel as a polynomial remainder

The register of the CRC kernel after its data loop is the remainder of the seed and the
message modulo the polynomial of the CRC, for all four combinations of the bypass flags.
With default flags the kernel is the usual CRC-32C: the register that shifts right is the
mirror image of the register of the kernel, bit by bit.

## Main definitions

* `crcRegister` — `crc_value` after the data loop of `kernels::crc`.
* `crc32c` — the CRC-32C as it is usually written, shifting right.

## Main results

* `crcRegister_eq_modByMonic` — the register is a remainder.
* `crcOf_eq_crc32c` — the kernel with default flags and seed zero.
* `crc_remainder` — both, of the value the kernel leaves in the completion record.
-/

namespace DataMover

open ByteMemory Carryless Polynomial

/-! ### The register after the data loop -/

/-- `crc_value` after the data loop of `kernels::crc`. -/
def crcRegister (m : Memory) (src transferSize : ℕ) (crcSeed : BitVec 32)
    (operationSpecificFlags : ℕ) : BitVec 32 :=
  let bypassReflection :=
    intersects operationSpecificFlags CrcSpecificFlag.bypassCrcInversionAndReflection
  let bypassDataReflection := intersects operationSpecificFlags CrcSpecificFlag.bypassDataReflection
  let crcValue := if !bypassReflection then reverse32 (~~~crcSeed) else crcSeed
  if !bypassDataReflection then dmlRefCrcReflectedU32 m src transferSize crcValue crcPolynomial
  else dmlRefCrc32u m src transferSize crcValue crcPolynomial

/-- The seed of the polynomial: as given, or inverted and bit-reversed. -/
def seedPolynomial (bypassReflection : Bool) (crcSeed : BitVec 32) : BitVec 32 :=
  if bypassReflection then crcSeed else (~~~crcSeed).reverse

/-- A byte of the message: most significant bit first, or least significant bit first. -/
def messageByte (bypassDataReflection : Bool) (byte : BitVec 8) : BitVec 8 :=
  if bypassDataReflection then byte else byte.reverse

/-- The reported value: the register, or its bit-reversed inverse. -/
def reportedCrc (bypassReflection : Bool) (register : BitVec 32) : BitVec 32 :=
  if bypassReflection then register else ~~~register.reverse

theorem reverse32_eq (value : BitVec 32) : reverse32 value = value.reverse := by
  apply BitVec.eq_of_getLsbD_eq
  intro i hi
  rw [getLsbD_reverse32 value hi, Simd.getLsbD_reverse_of_lt value hi]

theorem monic_modulus (p : BitVec 32) : (modulus p).Monic := monic_withLeading p

/-- **The reference CRC is a remainder.** -/
theorem toPoly_dmlRefCrc32u (p : BitVec 32) (m : Memory) (src n : ℕ) (crcValue : BitVec 32) :
    toPoly (dmlRefCrc32u m src n crcValue p)
      = (toPoly crcValue * X ^ (8 * n) + message (fun i => m (src + i)) n * X ^ 32)
          %ₘ modulus p := by
  have hclass : AdjoinRoot.mk (modulus p)
        (toPoly crcValue * X ^ (8 * n) + message (fun i => m (src + i)) n * X ^ 32)
      = residue (modulus p) (dmlRefCrc32u m src n crcValue p) := by
    rw [residue_dmlRefCrc32u, map_add, map_mul, map_mul, map_pow, map_pow, mk_X, mk_toPoly]
    ring
  exact toPoly_eq_modByMonic hclass

/-- **The register after the data loop is a remainder**, for all four combinations of the
bypass flags. -/
theorem crcRegister_eq_modByMonic (m : Memory) (src n : ℕ) (seed : BitVec 32) (flags : ℕ) :
    toPoly (crcRegister m src n seed flags)
      = (toPoly (seedPolynomial
            (intersects flags CrcSpecificFlag.bypassCrcInversionAndReflection) seed) * X ^ (8 * n)
          + message (fun i => messageByte
              (intersects flags CrcSpecificFlag.bypassDataReflection) (m (src + i))) n * X ^ 32)
        %ₘ modulus crcPolynomial := by
  unfold crcRegister seedPolynomial messageByte
  simp only [reverse32_eq, dmlRefCrcReflectedU32_eq, reverse8_eq]
  cases intersects flags CrcSpecificFlag.bypassDataReflection with
  | true =>
    simp only [Bool.not_true, Bool.false_eq_true, if_false, if_true, toPoly_dmlRefCrc32u]
    cases intersects flags CrcSpecificFlag.bypassCrcInversionAndReflection <;> rfl
  | false =>
    simp only [Bool.not_false, Bool.false_eq_true, if_false, if_true, toPoly_dmlRefCrc32u]
    cases intersects flags CrcSpecificFlag.bypassCrcInversionAndReflection <;> rfl

theorem crcOf_eq_reportedCrc (m : Memory) (src n : ℕ) (seed : BitVec 32) (flags : ℕ) :
    Kernels.crcOf m src n seed flags
      = reportedCrc (intersects flags CrcSpecificFlag.bypassCrcInversionAndReflection)
          (crcRegister m src n seed flags) := by
  unfold Kernels.crcOf reportedCrc crcRegister
  simp only [reverse32_eq]
  cases intersects flags CrcSpecificFlag.bypassCrcInversionAndReflection <;> rfl

/-! ### The CRC that shifts right -/

/-- One bit of the register that shifts right, with the reflected polynomial. -/
def crc32cBit (crc : BitVec 32) : BitVec 32 :=
  if crc.getLsbD 0 then (crc >>> 1) ^^^ 0x82F63B78#32 else crc >>> 1

def crc32cByte (crc : BitVec 32) (byte : BitVec 8) : BitVec 32 :=
  Loop.iter (fun _ crc => crc32cBit crc) 8 (crc ^^^ byte.setWidth 32)

/-- The CRC-32C of a sequence of bytes, without a table. -/
def crc32c (bytes : List (BitVec 8)) : BitVec 32 :=
  bytes.foldl crc32cByte 0xFFFFFFFF#32 ^^^ 0xFFFFFFFF#32

/-- The check value of the CRC-32C, of the digits `1` to `9`. -/
example : crc32c [0x31, 0x32, 0x33, 0x34, 0x35, 0x36, 0x37, 0x38, 0x39] = 0xE3069283#32 := by
  set_option maxRecDepth 4000 in
  decide

theorem crc32cBit_eq (crc : BitVec 32) :
    crc32cBit crc = (crc >>> 1) ^^^ (-(crc &&& 1#32) &&& crcPolynomial.reverse) := by
  have hpoly : crcPolynomial.reverse = 0x82F63B78#32 := by
    set_option maxRecDepth 2000 in decide
  have hbit : crc &&& 1#32 = if crc.getLsbD 0 then 1#32 else 0#32 := BitVec.and_twoPow crc 0
  rw [crc32cBit, hbit, hpoly]
  cases crc.getLsbD 0 with
  | true => rfl
  | false =>
    have hzero : -(0#32) &&& 0x82F63B78#32 = 0#32 := by decide
    rw [if_neg (by decide), if_neg (by decide), hzero, BitVec.xor_zero]

/-- One byte of the register that shifts right, in the mirror. -/
theorem crc32cByte_reverse (crc : BitVec 32) (byte : BitVec 8) :
    (crc32cByte crc byte).reverse = calculateCrc32u crc.reverse (reverse8 byte) crcPolynomial := by
  unfold crc32cByte
  simp only [crc32cBit_eq]
  exact reflectedByte_reverse crcPolynomial crc byte

/-- **The register that shifts right is the mirror image of the register that shifts left**,
over every message. -/
theorem foldl_crc32cByte_reverse (m : Memory) (src n : ℕ) (crc : BitVec 32) :
    (((List.range n).map fun i => m (src + i)).foldl crc32cByte crc).reverse
      = dmlRefCrcReflectedU32 m src n crc.reverse crcPolynomial := by
  induction n with
  | zero => rfl
  | succ n ih =>
    rw [List.range_succ, List.map_append, List.foldl_append, List.map_cons, List.map_nil,
      List.foldl_cons, List.foldl_nil, crc32cByte_reverse, ih]
    rfl

/-- **The kernel with default flags and seed zero is the CRC-32C.** -/
theorem crcOf_eq_crc32c (m : Memory) (src n : ℕ) {flags : ℕ}
    (hcrc : intersects flags CrcSpecificFlag.bypassCrcInversionAndReflection = false)
    (hdata : intersects flags CrcSpecificFlag.bypassDataReflection = false) :
    Kernels.crcOf m src n 0#32 flags = crc32c ((List.range n).map fun i => m (src + i)) := by
  have hones : ~~~(0#32) = 0xFFFFFFFF#32 := by decide
  have hxor : ∀ v : BitVec 32, v ^^^ 0xFFFFFFFF#32 = ~~~v := fun v => BitVec.xor_allOnes
  have hmirror := foldl_crc32cByte_reverse m src n 0xFFFFFFFF#32
  rw [crcOf_eq_reportedCrc, hcrc, reportedCrc, crcRegister, hcrc, hdata, crc32c, hxor]
  simp only [Bool.not_false, if_true, Bool.false_eq_true, if_false, reverse32_eq, hones]
  rw [← hmirror, BitVec.reverse_reverse_eq]

/-! ### The kernel -/

/-- **The CRC operation computes the remainder it documents**: the register after the data
loop is the remainder of seed and message, the completion record holds the register or its
bit-reversed inverse, and with default flags and seed zero it holds the CRC-32C of the
source. -/
theorem crc_remainder (m : Memory) (dsc : ℕ) :
    let src := AnyDescriptor.sourceAddress.get m dsc
    let n := AnyDescriptor.transferSize.get m dsc
    let seed := BitVec.ofNat 32 (CrcDescriptor.crcSeed.get m dsc)
    let flags := AnyDescriptor.operationSpecificFlags.get m dsc
    let bypassReflection := intersects flags CrcSpecificFlag.bypassCrcInversionAndReflection
    let bypassDataReflection := intersects flags CrcSpecificFlag.bypassDataReflection
    let register := crcRegister m src n seed flags
    let reported := CrcCompletionRecord.crcValue.get (Kernels.crc m dsc) (getCompletionRecord m dsc)
    toPoly register
        = (toPoly (seedPolynomial bypassReflection seed) * X ^ (8 * n)
            + message (fun i => messageByte bypassDataReflection (m (src + i))) n * X ^ 32)
          %ₘ (X ^ 32 + toPoly 0x1EDC6F41#32)
      ∧ reported = (reportedCrc bypassReflection register).toNat
      ∧ (bypassReflection = false → bypassDataReflection = false → seed = 0#32 →
          reported = (crc32c ((List.range n).map fun i => m (src + i))).toNat) := by
  intro src n seed flags bypassReflection bypassDataReflection register reported
  have hreported : reported = (Kernels.crcOf m src n seed flags).toNat := by
    simp only [reported, Kernels.crc]
    rw [get_setStatus (by decide), crcValue_set]
  refine ⟨crcRegister_eq_modByMonic m src n seed flags, ?_, ?_⟩
  · rw [hreported, crcOf_eq_reportedCrc]
  · intro hcrc hdata hseed
    rw [hreported, hseed, crcOf_eq_crc32c m src n hcrc hdata]

/-- A CRC descriptor at address zero over the digits `1` to `9` at address 64. -/
def crcDigits : Memory := fun a =>
  if a = 8 then 128#8 else if a = 16 then 64#8 else if a = 32 then 9#8
  else if 64 ≤ a ∧ a < 73 then BitVec.ofNat 8 (a - 64 + 0x31) else 0#8

/-- The kernel reports the check value of the CRC-32C. -/
theorem crc_remainder_digits :
    CrcCompletionRecord.crcValue.get (Kernels.crc crcDigits 0) (getCompletionRecord crcDigits 0)
      = 0xE3069283 := by
  obtain ⟨-, -, hstandard⟩ := crc_remainder crcDigits 0
  rw [hstandard (by decide) (by decide) (by decide)]
  set_option maxRecDepth 4000 in
  decide

end DataMover
