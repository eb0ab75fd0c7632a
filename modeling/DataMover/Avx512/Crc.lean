import DataMover.Lib.Simd128
import DataMover.Ref.Crc

/-!
# The vector kernels of the CRC

`dml_avx512_crc_u32` and `dml_avx512_crc_reflected_u32` of `sw_dispatcher/avx512/crc.c`.
Both read the data as one long polynomial, fold it to 128 bits with carry-less products by
powers of `x` modulo the polynomial of the CRC, and reduce the rest with Barrett's method.
Data of less than 1024 bytes, and every polynomial but the usual one, takes the `opt` path
with a table of coefficients; longer data takes the `long` path, where the coefficients are
constants of the code.

The reflected kernel of the `opt` path is the other one with the bits of every loaded byte
reversed.  The reflected kernel of the `long` path leaves the data as it is and folds with
reflected coefficients; only the 128 bits that are left are reversed.

The labels of the source are functions here, and its jumps are calls.

## Main definitions

* `dRefl` — `D_REFL`, the bits of every byte reversed.
* `ownCrcOptK0` — the `opt` path, over the reflection of a loaded register and the table
  of coefficients; `ownCrc8uOptK0` and `ownCrcReflected8uOptK0` are its two forms.
* `foldLong` — what the two `long` functions share, over what they do not (`LongOps`).
* `ownCrc32LongLeK0`, `ownCrc32LongBeK0` — the `long` path.
* `dmlAvx512CrcU32`, `dmlAvx512CrcReflectedU32` — the kernels.
-/

namespace DataMover

open ByteMemory Carryless Simd

/-! ### Constants and the reflection of bytes -/

/-- `ENDIA_SHUF_MASK`, `shuffle_le_mask`: the bytes of a register in the opposite order. -/
def endiaShufMask : BitVec 128 :=
  mmSetEpi8 [0x00#8, 0x01#8, 0x02#8, 0x03#8, 0x04#8, 0x05#8, 0x06#8, 0x07#8, 0x08#8, 0x09#8,
    0x0A#8, 0x0B#8, 0x0C#8, 0x0D#8, 0x0E#8, 0x0F#8]

/-- `xmmSH_L`: the reversed low nibbles. -/
def xmmShL : BitVec 128 :=
  mmSetEpi8 [0xf0#8, 0x70#8, 0xb0#8, 0x30#8, 0xd0#8, 0x50#8, 0x90#8, 0x10#8, 0xe0#8, 0x60#8,
    0xa0#8, 0x20#8, 0xc0#8, 0x40#8, 0x80#8, 0x00#8]

/-- `xmmSH_H`: the reversed high nibbles. -/
def xmmShH : BitVec 128 :=
  mmSetEpi8 [0x0f#8, 0x07#8, 0x0b#8, 0x03#8, 0x0d#8, 0x05#8, 0x09#8, 0x01#8, 0x0e#8, 0x06#8,
    0x0a#8, 0x02#8, 0x0c#8, 0x04#8, 0x08#8, 0x00#8]

/-- `xmm_F`. -/
def xmmF : BitVec 128 := mmSet1Epi8 0x0f#8

/-- `D_REFL`: the bits of every byte reversed, nibble by nibble from two tables. -/
def dRefl (xmmRefl : BitVec 128) : BitVec 128 :=
  let xmm11 := mmSrliEpi16 xmmRefl 4
  let xmmRefl := xmmRefl &&& xmmF
  let xmm11 := xmm11 &&& xmmF
  let xmmRefl := mmShuffleEpi8 xmmShL xmmRefl
  let xmm11 := mmShuffleEpi8 xmmShH xmm11
  xmmRefl ||| xmm11

/-- `mask2` of the `opt` path and of `own_crc32_long_le_k0`: the low 96 bits. -/
def mask2 : BitVec 128 := mmSetEpi64x 0x00000000FFFFFFFF#64 0xFFFFFFFFFFFFFFFF#64

/-- `mask1`: the top bit of every byte. -/
def mask1 : BitVec 128 := mmSetEpi64x 0x8080808080808080#64 0x8080808080808080#64

/-- `pshufb_shf_table` as bytes. -/
def pshufbShfTable : Memory := fun i =>
  byteAt ([0x8786858483828100, 0x8f8e8d8c8b8a8988, 0x0706050403020100,
    0x000e0d0c0b0a0908].getD (i / 8) 0) (i % 8)

/-! ### The coefficients -/

/-- `getCRCSize`. -/
def getCRCSize (poly : BitVec 64) : ℕ := 63 - poly.clz.toNat

/-- `poly1x64_32_div`: the quotient and the remainder of `x ^ 64`.  The 72 bits shifted in
are those of `byte`, a one after seven zeros and then zeros. -/
def poly1x6432Div (poly : BitVec 64) : BitVec 64 × BitVec 32 :=
  let s := Loop.iter (fun _ (s : BitVec 8 × BitVec 64 × BitVec 64) =>
      let bit := (s.1 &&& 0x80#8) >>> 7
      let byte := s.1 <<< 1
      let hbit := s.2.1 &&& 0x80000000#64
      let tail := (s.2.1 <<< 1) ||| bit.setWidth 64
      let quot := s.2.2 <<< 1
      let (tail, quot) := if hbit ≠ 0#64 then (tail ^^^ poly, quot ||| 1#64) else (tail, quot)
      (byte, tail &&& 0xffffffff#64, quot)) 72 (0x01#8, 0#64, 0#64)
  (s.2.2, s.2.1.setWidth 32)

/-- The doubling `tail += tail; tail ^= mask` of `own_gen_crc_opt_poly_8u`. -/
def doubleTail (poly32 tail : BitVec 32) : BitVec 32 :=
  let mask := if tail &&& 0x80000000#32 ≠ 0#32 then poly32 else 0#32
  (tail + tail) ^^^ mask

/-- `own_gen_crc_opt_poly_8u`: the polynomial, Barrett's quotient, and a word for every
element of `bits` but the last two.  The counter `j` starts at 40 and is never reset, so the
word for `b` has been doubled `b + 8 - 40` times. -/
def ownGenCrcOptPoly8u (poly : BitVec 64) : ℕ → BitVec 32 :=
  let u := (poly1x6432Div (poly <<< (32 - getCRCSize poly))).1
  let bits : List ℕ := [64, 96, 160, 224, 288, 352, 416, 480, 544, 608, 672, 736, 800, 864, 928,
    992, 1056, 2016, 2080]
  let poly32 := poly.setWidth 32
  fun i =>
    if i = 0 then poly.setWidth 32
    else if i = 1 then (poly >>> 32).setWidth 32
    else if i = 2 then u.setWidth 32
    else if i = 3 then (u >>> 32).setWidth 32
    else if i < 21 then
      Loop.iter (fun _ tail => doubleTail poly32 tail) (bits.getD (i - 4) 0 + 8 - 40) poly32
    else 0#32

/-- `opt_poly_1_ptr` as 32-bit words; the words after the last one are zero. -/
def optPoly1Ptr : ℕ → BitVec 32 := fun i =>
  [0x1edc6f41#32, 0x00000001#32, 0x1f91caf6#32, 0x00000001#32, 0x3aab4576#32, 0xd7a01665#32,
   0xff60609e#32, 0xe287e4ba#32, 0xb8caa439#32, 0xb78c6837#32, 0x41712870#32, 0x3f76a4f2#32,
   0x81eee05c#32, 0xd29b9738#32, 0x6eecb820#32, 0x8a3b3e81#32, 0xd3399d07#32, 0xcf5fd885#32,
   0x187136a8#32, 0x920db960#32, 0x8ae6932c#32].getD i 0#32

/-! ### The `opt` path -/

section Opt

variable (refl : BitVec 128 → BitVec 128) (koeff : ℕ → BitVec 32) (crcSize : ℕ)

/-- `k_64` to `k_1056`: a coefficient in the upper half of 64 bits. -/
def optK (i : ℕ) : BitVec 64 := (koeff i).setWidth 64 <<< 32

/-- A load, the reflection, and the shuffle by `ENDIA_SHUF_MASK`. -/
def loadEndia (m : Memory) (src : ℕ) : BitVec 128 :=
  mmShuffleEpi8 (refl (mmLoaduSi128 m src)) endiaShufMask

/-- `_cleanup`. -/
def cleanup (eax : BitVec 32) : BitVec 32 := eax >>> (32 - crcSize)

/-- `_barrett`. -/
def barrett (xmm7 : BitVec 128) : BitVec 32 :=
  let q := (koeff 1 ++ koeff 0) <<< (32 - crcSize)
  let u := koeff 3 ++ koeff 2
  let xmm10 := mmSetEpi64x q u
  let xmm0 := xmm7
  let xmm7 := mmClmulepi64Si128 xmm7 xmm10 0x01
  let xmm7 := mmSlliSi128 xmm7 4
  let xmm7 := mmClmulepi64Si128 xmm7 xmm10 0x11
  let xmm7 := mmSlliSi128 xmm7 4
  let xmm7 := xmm7 ^^^ xmm0
  cleanup crcSize (mmExtractEpi32 xmm7 1)

/-- `_128_done`: from 128 bits to 96. -/
def done128 (xmm7 : BitVec 128) : BitVec 32 :=
  let xmm10 := mmSetEpi64x (optK koeff 4) (optK koeff 5)
  let xmm0 := xmm7
  let xmm7 := mmClmulepi64Si128 xmm7 xmm10 0x01
  let xmm0 := mmSlliSi128 xmm0 8
  let xmm7 := xmm7 ^^^ xmm0
  let xmm0 := xmm7
  let xmm0 := xmm0 &&& mask2
  let xmm7 := mmSrliSi128 xmm7 12
  let xmm7 := mmClmulepi64Si128 xmm7 xmm10 0x10
  let xmm7 := xmm7 ^^^ xmm0
  barrett koeff crcSize xmm7

/-- The two products that move a register 128 bits up, by `k_160` and `k_96`. -/
def fold16 (xmm7 : BitVec 128) : BitVec 128 :=
  let xmm10 := mmSetEpi64x (optK koeff 6) (optK koeff 5)
  let xmm8 := xmm7
  let xmm7 := mmClmulepi64Si128 xmm7 xmm10 0x11
  let xmm8 := mmClmulepi64Si128 xmm8 xmm10 0x00
  xmm7 ^^^ xmm8

/-- `_get_last_two_xmms`: the last `len < 16` bytes, loaded together with the bytes before
them.  The register is split in two at the place where these bytes have to go in. -/
def getLastTwoXmms (m : Memory) (src : ℕ) (len : ℤ) (xmm7 : BitVec 128) : BitVec 32 :=
  let xmm2 := xmm7
  let xmm1 := loadEndia refl m (src - 16 + len).toNat
  let xmm0 := mmLoaduSi128 pshufbShfTable (16 - len).toNat
  let xmm2 := mmShuffleEpi8 xmm2 xmm0
  let xmm0 := xmm0 ^^^ mask1
  let xmm7 := mmShuffleEpi8 xmm7 xmm0
  let xmm1 := mmBlendvEpi8 xmm1 xmm2 xmm0
  let xmm2 := xmm1
  let xmm7 := fold16 koeff xmm7
  let xmm7 := xmm7 ^^^ xmm2
  done128 koeff crcSize xmm7

/-- `_final_reduction_for_128`. -/
def finalReductionFor128 (m : Memory) (src : ℕ) (len : ℤ) (xmm7 : BitVec 128) : BitVec 32 :=
  let len := len + 16
  if len = 0 then done128 koeff crcSize xmm7 else getLastTwoXmms refl koeff crcSize m src len xmm7

/-- The state of a loop that folds: the registers, the pointer and the counter. -/
structure FoldState (α : Type) where
  xmm : α
  src : ℕ
  len : ℤ

/-- The body of `_16B_reduction_loop`. -/
def reduce16B (m : Memory) (s : FoldState (BitVec 128)) : FoldState (BitVec 128) :=
  let xmm7 := fold16 koeff s.xmm
  let xmm0 := loadEndia refl m s.src
  let xmm7 := xmm7 ^^^ xmm0
  { xmm := xmm7, src := s.src + 16, len := s.len - 16 }

/-- `_16B_reduction_loop`, and on to the end. -/
def reductionLoop16B (m : Memory) (s : FoldState (BitVec 128)) : Option (BitVec 32) := do
  let s ← Loop.whileLoop (fun s => decide (0 ≤ s.len)) (fun s => some (reduce16B refl koeff m s))
    s.len.toNat (reduce16B refl koeff m s)
  some (finalReductionFor128 refl koeff crcSize m s.src s.len s.xmm)

/-- The body of `_fold_128_B_loop`: the eight registers `xmm0` to `xmm7` by `k_1056` and
`k_992`, each into its part of the next 128 bytes. -/
def fold128B (m : Memory) (s : FoldState (ℕ → BitVec 128)) : FoldState (ℕ → BitVec 128) :=
  let xmm10 := mmSetEpi64x (optK koeff 20) (optK koeff 19)
  let src := s.src + 128
  { xmm := fun i =>
      mmClmulepi64Si128 (s.xmm i) xmm10 0x00 ^^^ loadEndia refl m (src + 16 * i)
        ^^^ mmClmulepi64Si128 (s.xmm i) xmm10 0x11,
    src := src, len := s.len - 128 }

/-- The eight registers into `xmm7`: `xmm0` by `k_928` and `k_864`, `xmm1` by `k_800` and
`k_736`, and so on to `xmm6` by `k_160` and `k_96`. -/
def fold8To1 (xmm : ℕ → BitVec 128) : BitVec 128 :=
  Loop.iter (fun i xmm7 =>
    let xmm10 := mmSetEpi64x (optK koeff (18 - 2 * i)) (optK koeff (17 - 2 * i))
    xmm7 ^^^ mmClmulepi64Si128 (xmm i) xmm10 0x00 ^^^ mmClmulepi64Si128 (xmm i) xmm10 0x11) 7
    (xmm 7)

/-- The data of at least 256 bytes. -/
def atLeast256 (m : Memory) (src : ℕ) (ecx : BitVec 32) (len : ℤ) : Option (BitVec 32) := do
  let xmm10 := mmSlliSi128 (mmCvtsi32Si128 ecx) 12
  let xmm := fun i =>
    if i = 0 then loadEndia refl m src ^^^ xmm10 else loadEndia refl m (src + 16 * i)
  let s ← Loop.whileLoop (fun s => decide (0 ≤ s.len)) (fun s => some (fold128B refl koeff m s))
    len.toNat (fold128B refl koeff m { xmm := xmm, src := src, len := len - 256 })
  let src := s.src + 128
  let xmm7 := fold8To1 koeff s.xmm
  let len := s.len + (128 - 16)
  if len < 0 then some (finalReductionFor128 refl koeff crcSize m src len xmm7)
  else reductionLoop16B refl koeff crcSize m { xmm := xmm7, src := src, len := len }

/-- The local array `ttt` while bytes are moved into it. -/
structure Gather where
  ttt : Memory
  r11 : ℕ
  src : ℕ
  len : ℤ

/-- `_less_than_16_left`, `_less_than_8_left`, `_less_than_4_left`: `w` bytes when so many
are left. -/
def gather (m : Memory) (w : ℕ) (g : Gather) : Gather :=
  if g.len < w then g
  else { ttt := store g.ttt g.r11 w (load m g.src w), r11 := g.r11 + w, src := g.src + w,
         len := g.len - w }

/-- `_less_than_2_left`. -/
def gatherLast (m : Memory) (g : Gather) : Memory :=
  if g.len < 1 then g.ttt else Function.update g.ttt g.r11 (m g.src)

/-- `_only_less_than_4`: one, two or three bytes. -/
def onlyLessThan4 (m : Memory) (src : ℕ) (len : ℤ) (xmm0 : BitVec 128) : BitVec 32 :=
  let ttt : Memory := fun _ => 0#8
  let (ttt, shift) :=
    if len < 3 then
      if len < 2 then (Function.update ttt 0 (m src), 7)
      else (Function.update (Function.update ttt 0 (m src)) 1 (m (src + 1)), 6)
    else (Function.update (Function.update (Function.update ttt 0 (m src)) 1 (m (src + 1))) 2
      (m (src + 2)), 5)
  let xmm7 := loadEndia refl ttt 0
  let xmm7 := xmm7 ^^^ xmm0
  let xmm7 := mmSrliSi128 xmm7 shift
  barrett koeff crcSize xmm7

/-- `_less_than_16_left`: the bytes through `ttt`, which starts out zero. -/
def lessThan16Left (m : Memory) (src : ℕ) (len : ℤ) (xmm0 : BitVec 128) : BitVec 32 :=
  if len < 4 then onlyLessThan4 refl koeff crcSize m src len xmm0
  else
    let r9 := len
    let g := gather m 8 { ttt := fun _ => 0#8, r11 := 0, src := src, len := len }
    let g := gather m 4 g
    let g := gather m 2 g
    let ttt := gatherLast m g
    let xmm7 := loadEndia refl ttt 0
    let xmm7 := xmm7 ^^^ xmm0
    let xmm0 := mmLoaduSi128 pshufbShfTable (16 - r9).toNat
    let xmm0 := xmm0 ^^^ mask1
    let xmm7 := mmShuffleEpi8 xmm7 xmm0
    done128 koeff crcSize xmm7

/-- `_less_than_32`. -/
def lessThan32 (m : Memory) (src : ℕ) (ecx : BitVec 32) (len : ℤ) : BitVec 32 :=
  if len = 0 then cleanup crcSize ecx
  else
    let xmm0 := mmSlliSi128 (mmCvtsi32Si128 ecx) 12
    if len = 16 then done128 koeff crcSize (loadEndia refl m src ^^^ xmm0)
    else if len < 16 then lessThan16Left refl koeff crcSize m src len xmm0
    else
      let xmm7 := loadEndia refl m src ^^^ xmm0
      getLastTwoXmms refl koeff crcSize m (src + 16) (len - 16) xmm7

/-- What `own_CRC_8u_opt_k0` and `own_CRC_reflected_8u_opt_k0` share; the second reflects every
register it loads. -/
def ownCrcOptK0 (m : Memory) (src : ℕ) (initCrc : BitVec 32) (len0 : ℤ) : Option (BitVec 32) :=
  let ecx := initCrc <<< (32 - crcSize)
  if len0 < 256 then
    if len0 < 32 then some (lessThan32 refl koeff crcSize m src ecx len0)
    else
      let xmm0 := mmSlliSi128 (mmCvtsi32Si128 ecx) 12
      let xmm7 := loadEndia refl m src ^^^ xmm0
      reductionLoop16B refl koeff crcSize m { xmm := xmm7, src := src + 16, len := len0 - 32 }
  else atLeast256 refl koeff crcSize m src ecx len0

end Opt

/-- `own_CRC_8u_opt_k0`. -/
def ownCrc8uOptK0 := ownCrcOptK0 fun xmm => xmm

/-- `own_CRC_reflected_8u_opt_k0`. -/
def ownCrcReflected8uOptK0 := ownCrcOptK0 dRefl

/-! ### The `long` path -/

/-- `own_shift_two_lanes`: the pair shifted right by `16 - offset` bytes. -/
def ownShiftTwoLanes (offset : ℕ) (xmm0 xmm1 : BitVec 128) : BitVec 128 × BitVec 128 :=
  let shift := if 1 ≤ offset ∧ offset ≤ 15 then 16 - offset else 16
  (mmAlignrEpi8 xmm1 xmm0 shift, mmSrliSi128 xmm1 shift)

/-- `own_shift_two_lanes_be`: the pair, the other way round, shifted right by `offset`
bytes. -/
def ownShiftTwoLanesBe (offset : ℕ) (xmm0 xmm1 : BitVec 128) : BitVec 128 × BitVec 128 :=
  let shift := if 1 ≤ offset ∧ offset ≤ 15 then offset else 0
  (mmAlignrEpi8 xmm0 xmm1 shift, mmSlliSi128 xmm1 (16 - shift))

/-- What `own_crc32_long_le_k0` and `own_crc32_long_be_k0` do differently while they fold:
the order given to a loaded register, the halves the products take, the coefficients and
the shift of the tail. -/
structure LongOps where
  order : BitVec 128 → BitVec 128
  imm0 : ℕ
  imm1 : ℕ
  tailImm0 : ℕ
  tailImm1 : ℕ
  koef512 : BitVec 128
  koef128 : BitVec 128
  shiftTwoLanes : ℕ → BitVec 128 → BitVec 128 → BitVec 128 × BitVec 128

namespace LongOps

/-- A register by a pair of coefficients, into the next part of the data. -/
def foldInto (ops : LongOps) (koef xmm0 srcmm0 : BitVec 128) : BitVec 128 :=
  let xmm1 := xmm0
  let xmm0 := mmClmulepi64Si128 xmm0 koef ops.imm0
  let xmm1 := mmClmulepi64Si128 xmm1 koef ops.imm1
  let xmm0 := xmm0 ^^^ srcmm0
  xmm0 ^^^ xmm1

/-- A loaded register in order. -/
def loadOrdered (ops : LongOps) (m : Memory) (src : ℕ) : BitVec 128 :=
  ops.order (mmLoaduSi128 m src)

/-- The body of the loop over 64 bytes: the four registers `xmm0`, `xmm2`, `xmm4`, `xmm6`. -/
def fold64B (ops : LongOps) (m : Memory) (s : FoldState (ℕ → BitVec 128)) :
    FoldState (ℕ → BitVec 128) :=
  { xmm := fun i => ops.foldInto ops.koef512 (s.xmm i) (ops.loadOrdered m (s.src + 16 * i)),
    src := s.src + 64, len := s.len - 64 }

/-- The body of the loop over 16 bytes. -/
def fold16B (ops : LongOps) (m : Memory) (s : FoldState (BitVec 128)) : FoldState (BitVec 128) :=
  { xmm := ops.foldInto ops.koef128 s.xmm (ops.loadOrdered m s.src), src := s.src + 16,
    len := s.len - 16 }

/-- The part for more than 512 bytes: four registers until less than 128 bytes are left,
and the four into one. -/
def foldFour (ops : LongOps) (m : Memory) (s : FoldState (BitVec 128)) :
    Option (FoldState (BitVec 128)) := do
  let xmm := fun i => if i = 0 then s.xmm else ops.loadOrdered m (s.src + 16 * (i - 1))
  let t ← Loop.whileLoop (fun t => decide (128 ≤ t.len)) (fun t => some (ops.fold64B m t))
    s.len.toNat { xmm := xmm, src := s.src + 48, len := s.len }
  let xmm0 := ops.foldInto ops.koef128 (t.xmm 0) (t.xmm 1)
  let xmm0 := ops.foldInto ops.koef128 xmm0 (t.xmm 2)
  let xmm0 := ops.foldInto ops.koef128 xmm0 (t.xmm 3)
  some { xmm := xmm0, src := t.src, len := t.len - 48 }

/-- The last `tail < 16` bytes. -/
def foldTail (ops : LongOps) (m : Memory) (tail : ℕ) (s : FoldState (BitVec 128)) : BitVec 128 :=
  if tail ≠ 0 then
    let tailMask := (1#16 <<< tail) - 1#16
    let xmm2 := ops.order (mmMaskzLoaduEpi8 tailMask m s.src)
    let (xmm2, xmm0) := ops.shiftTwoLanes tail xmm2 s.xmm
    let xmm1 := xmm0
    let xmm0 := mmClmulepi64Si128 xmm0 ops.koef128 ops.tailImm0
    let xmm1 := mmClmulepi64Si128 xmm1 ops.koef128 ops.tailImm1
    let xmm0 := xmm0 ^^^ xmm1
    xmm0 ^^^ xmm2
  else s.xmm

/-- The data folded to 128 bits; `xCrc` goes into the first register. -/
def foldLong (ops : LongOps) (m : Memory) (src length : ℕ) (xCrc : BitVec 128) :
    Option (BitVec 128) := do
  let tail := length % 16
  let xmm0 := ops.loadOrdered m src ^^^ xCrc
  let s := { xmm := xmm0, src := src + 16, len := length }
  let s ← if length > 512 then ops.foldFour m s else some s
  let s ← Loop.whileLoop (fun s => decide (32 ≤ s.len)) (fun s => some (ops.fold16B m s))
    s.len.toNat s
  some (ops.foldTail m tail s)

end LongOps

/-- The end of both functions: Barrett's reduction of the low 96 bits. -/
def longBarrett (xmm0 : BitVec 128) : BitVec 32 :=
  let kKoef := mmSetEpi64x 0x11edc6f41#64 0x11f91caf6#64
  let xmm1 := xmm0
  let xmm0 := mmClmulepi64Si128 xmm0 kKoef 0x01
  let xmm0 := mmSlliSi128 xmm0 4
  let xmm0 := mmClmulepi64Si128 xmm0 kKoef 0x11
  let xmm0 := mmSlliSi128 xmm0 4
  let xmm0 := xmm0 ^^^ xmm1
  mmExtractEpi32 xmm0 1

/-- The coefficients of `own_crc32_long_le_k0`. -/
def longLeK (koef : BitVec 32) : BitVec 64 := koef.setWidth 64 <<< 32

/-- `own_crc32_long_le_k0` while it folds. -/
def longLe : LongOps where
  order xmm := mmShuffleEpi8 xmm endiaShufMask
  imm0 := 0x00
  imm1 := 0x11
  tailImm0 := 0x11
  tailImm1 := 0x00
  koef512 := mmSetEpi64x (longLeK 0x81eee05c#32) (longLeK 0x3f76a4f2#32)
  koef128 := mmSetEpi64x (longLeK 0xff60609e#32) (longLeK 0xd7a01665#32)
  shiftTwoLanes := ownShiftTwoLanes

/-- From 128 bits to 96 in `own_crc32_long_le_k0`. -/
def longLeReduce (xmm0 : BitVec 128) : BitVec 128 :=
  let kKoef := mmSetEpi64x (longLeK 0x3aab4576#32) (longLeK 0xd7a01665#32)
  let xmm1 := xmm0
  let xmm0 := mmClmulepi64Si128 xmm0 kKoef 0x01
  let xmm1 := mmSlliSi128 xmm1 8
  let xmm0 := xmm0 ^^^ xmm1
  let xmm1 := xmm0
  let xmm1 := xmm1 &&& mask2
  let xmm0 := mmSrliSi128 xmm0 12
  let xmm0 := mmClmulepi64Si128 xmm0 kKoef 0x10
  xmm0 ^^^ xmm1

/-- `own_crc32_long_le_k0`. -/
def ownCrc32LongLeK0 (m : Memory) (src length : ℕ) (crc : BitVec 32) : Option (BitVec 32) :=
  let polynomial := crcPolynomial
  if length ≥ 16 then do
    let xCrc := mmSlliSi128 (mmCvtsi32Si128 crc) 12
    let xmm0 ← longLe.foldLong m src length xCrc
    some (longBarrett (longLeReduce xmm0))
  else
    some (Loop.iter (fun i crc =>
      Loop.iter (fun _ crc => (crc <<< 1) ^^^ (-(crc >>> 31) &&& polynomial)) 8
        (crc ^^^ ((m (src + i)).setWidth 32 <<< 24))) length crc)

/-- `bit_reflect_32`. -/
def bitReflect32 (x : BitVec 32) : BitVec 32 :=
  let shuffleMask := mmCvtsi32Si128 0x00010203#32
  let xmm0 := dRefl (mmCvtsi32Si128 x)
  (mmShuffleEpi8 xmm0 shuffleMask).extractLsb' 0 32

/-- The coefficients of `own_crc32_long_be_k0`. -/
def longBeK (koef : BitVec 32) : BitVec 64 := koef.setWidth 64 <<< 1

/-- `own_crc32_long_be_k0` while it folds. -/
def longBe : LongOps where
  order xmm := xmm
  imm0 := 0x01
  imm1 := 0x10
  tailImm0 := 0x01
  tailImm1 := 0x10
  koef512 := mmSetEpi64x (longBeK 0x3a077781#32) (longBeK 0x4f256efc#32)
  koef128 := mmSetEpi64x (longBeK 0x790606ff#32) (longBeK 0xa66805eb#32)
  shiftTwoLanes := ownShiftTwoLanesBe

/-- From 128 bits to 96 in `own_crc32_long_be_k0`, and then the bits of the register in the
opposite order. -/
def longBeReduce (xmm0 : BitVec 128) : BitVec 128 :=
  let mask2 := mmSetEpi64x 0xFFFFFFFFFFFFFFFF#64 0xFFFFFFFF00000000#64
  let kKoef := mmSetEpi64x (longBeK 0xa66805eb#32) (longBeK 0x6ea2d55c#32)
  let xmm1 := xmm0
  let xmm0 := mmClmulepi64Si128 xmm0 kKoef 0x10
  let xmm1 := mmSrliSi128 xmm1 8
  let xmm0 := xmm0 ^^^ xmm1
  let xmm1 := xmm0
  let xmm1 := xmm1 &&& mask2
  let xmm0 := mmSlliSi128 xmm0 12
  let xmm0 := mmClmulepi64Si128 xmm0 kKoef 0x01
  let xmm0 := xmm0 ^^^ xmm1
  mmShuffleEpi8 (dRefl xmm0) endiaShufMask

/-- `own_crc32_long_be_k0`. -/
def ownCrc32LongBeK0 (m : Memory) (src length : ℕ) (crc : BitVec 32) : Option (BitVec 32) :=
  let polynomial := crcPolynomial
  let crc := bitReflect32 crc
  if length ≥ 16 then do
    let xCrc := mmCvtsi32Si128 crc
    let xmm0 ← longBe.foldLong m src length xCrc
    some (longBarrett (longBeReduce xmm0))
  else
    let polynomialS := bitReflect32 polynomial
    some (bitReflect32 (Loop.iter (fun i crc =>
      Loop.iter (fun _ crc => (crc >>> 1) ^^^ (-(crc &&& 1#32) &&& polynomialS)) 8
        (crc ^^^ (m (src + i)).setWidth 32)) length crc))

/-! ### The kernels -/

section Kernel

variable (opt : (ℕ → BitVec 32) → ℕ → Memory → ℕ → BitVec 32 → ℤ → Option (BitVec 32))
  (long : Memory → ℕ → ℕ → BitVec 32 → Option (BitVec 32))

/-- What `own_CRC_8u_k0` and `own_CRC_reflected_8u_k0` share, over the two paths: the `long`
path is for the usual polynomial and at least 1024 bytes.  `len` becomes a signed number on
the `opt` path. -/
def ownCrcK0 (m : Memory) (src len : ℕ) (poly : BitVec 64) (optPoly : ℕ → BitVec 32)
    (init : BitVec 32) : Option (BitVec 32) :=
  let len0 := (BitVec.ofNat 32 len).toInt
  if (1#64 <<< 32) ||| crcPolynomial.setWidth 64 = poly then
    if len < 1024 then opt optPoly 32 m src init len0
    else long m src len init
  else opt optPoly (getCRCSize poly) m src init len0

end Kernel

/-- `own_CRC_8u_k0`. -/
def ownCrc8uK0 := ownCrcK0 ownCrc8uOptK0 ownCrc32LongLeK0

/-- `own_CRC_reflected_8u_k0`. -/
def ownCrcReflected8uK0 := ownCrcK0 ownCrcReflected8uOptK0 ownCrc32LongBeK0

/-- What `dmlc_own_calculate_crc_32u` and `dmlc_own_calculate_crc_reflected_32u` share. -/
def ownCalculateCrc
    (k0 : Memory → ℕ → ℕ → BitVec 64 → (ℕ → BitVec 32) → BitVec 32 → Option (BitVec 32))
    (m : Memory) (src bytesToHash : ℕ) (crc polynomial : BitVec 32) : Option (BitVec 32) :=
  let poly := polynomial.setWidth 64 ||| (1#64 <<< 32)
  if crcPolynomial = polynomial then k0 m src bytesToHash poly optPoly1Ptr crc
  else k0 m src bytesToHash poly (ownGenCrcOptPoly8u poly) crc

/-- `dmlc_own_calculate_crc_32u`. -/
def dmlcOwnCalculateCrc32u := ownCalculateCrc ownCrc8uK0

/-- `dmlc_own_calculate_crc_reflected_32u`. -/
def dmlcOwnCalculateCrcReflected32u := ownCalculateCrc ownCrcReflected8uK0

/-- `dml_avx512_crc_u32`. -/
def dmlAvx512CrcU32 (m : Memory) (src transferSize : ℕ) (crcValue polynomial : BitVec 32) :
    Option (BitVec 32) :=
  dmlcOwnCalculateCrc32u m src transferSize crcValue polynomial

/-- `dml_avx512_crc_reflected_u32`. -/
def dmlAvx512CrcReflectedU32 (m : Memory) (src transferSize : ℕ)
    (crcValue polynomial : BitVec 32) : Option (BitVec 32) :=
  dmlcOwnCalculateCrcReflected32u m src transferSize crcValue polynomial

end DataMover
