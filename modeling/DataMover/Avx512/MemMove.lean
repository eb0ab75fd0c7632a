import DataMover.Lib.Simd
import DataMover.Ref.Move

/-!
# The vector kernel of the memory move

`dml_avx512_mem_move` of `sw_dispatcher/avx512/mem_move.c`.  Ranges that overlap go to
the reference kernel.  Ranges that do not are copied block by block, and the code
chooses among many ways to do it: by size, by the alignment of the two addresses, and,
when they are aligned differently, by the distance between the two alignments.

All of these ways load aligned blocks of 64 bytes and store aligned blocks of 64 bytes.
When source and destination are `shift` bytes apart modulo 64, a stored block is made of
the last `64 - shift` bytes of one loaded block and the first `shift` bytes of the next.
How the two are put together depends on `shift`; `ShiftsBytes` says what all of the ways
have in common, and the loops are the same for every way that has it.

## Main definitions

* `dmlcOwnPxCopy8uUnrolled` — the copy that uses general registers only.
* `combineAligned`, `combineEven`, `combineLow`, `combineHigh` — the ways to put a stored
  block together, and `copyShifted`, which chooses among them.
* `copyAvx512`, `dmlAvx512MemMove` — the kernel; the result of the cache-size query is
  a parameter.

## Main results

* `dmlcOwnPxCopy8uUnrolled_eq`, `copyShifted_eq`, `copyUnshifted_eq` — each of the ways
  ends without a fault and is the block move.
* `memMove_isMemmove` — both kernels realise `memmove`.
-/

namespace DataMover

open ByteMemory Simd

/-! ### Copying through general registers -/

/-- Where a copying loop stands: the memory, the two pointers and the elements left. -/
structure Cursor where
  mem : Memory
  src : ℕ
  dst : ℕ
  length : ℕ

/-- `*dst = *src` for elements of `w` bytes. -/
def assign (w : ℕ) (m : Memory) (src dst : ℕ) : Memory := store m dst w (load m src w)

/-- `for (i = 0; i < length; ++i) dst[i] = src[i]` for elements of `w` bytes. -/
def assignLoop (w : ℕ) (m : Memory) (src dst length : ℕ) : Memory :=
  Loop.iter (fun i m => assign w m (src + w * i) (dst + w * i)) length m

/-- The body of the loop that copies four words of 8 bytes at a time. -/
def copyFourWords (c : Cursor) : Option Cursor :=
  let m := assign 8 c.mem c.src c.dst
  let m := assign 8 m (c.src + 8) (c.dst + 8)
  let m := assign 8 m (c.src + 16) (c.dst + 16)
  let m := assign 8 m (c.src + 24) (c.dst + 24)
  some { mem := m, src := c.src + 32, dst := c.dst + 32, length := c.length - 4 }

/-- The body of the loop that copies eight bytes at a time. -/
def copyEightBytes (c : Cursor) : Option Cursor :=
  let m := assign 1 c.mem c.src c.dst
  let m := assign 1 m (c.src + 1) (c.dst + 1)
  let m := assign 1 m (c.src + 2) (c.dst + 2)
  let m := assign 1 m (c.src + 3) (c.dst + 3)
  let m := assign 1 m (c.src + 4) (c.dst + 4)
  let m := assign 1 m (c.src + 5) (c.dst + 5)
  let m := assign 1 m (c.src + 6) (c.dst + 6)
  let m := assign 1 m (c.src + 7) (c.dst + 7)
  some { mem := m, src := c.src + 8, dst := c.dst + 8, length := c.length - 8 }

/-- The part of `dmlc_own_px_copy_8u_unrolled` after the head: by words when both
addresses have the same distance to a multiple of 64, else by bytes. -/
def pxCopyBody (sameAlignment : Bool) (m : Memory) (src dst length : ℕ) : Option Memory :=
  if sameAlignment then do
    let length64u := length / 8
    let tailStart := length64u * 8
    let c ← Loop.whileLoop (fun c => 3 < c.length) copyFourWords length64u
      { mem := m, src := src, dst := dst, length := length64u }
    let m := assignLoop 8 c.mem c.src c.dst c.length
    some (assignLoop 1 m (src + tailStart) (dst + tailStart) (length - tailStart))
  else do
    let c ← Loop.whileLoop (fun c => 7 < c.length) copyEightBytes length
      { mem := m, src := src, dst := dst, length := length }
    some (assignLoop 1 c.mem c.src c.dst c.length)

/-- `dmlc_own_px_copy_8u_unrolled`: bytes up to the first multiple of 64 in the
destination, and then the rest. -/
def dmlcOwnPxCopy8uUnrolled (m : Memory) (src dst length : ℕ) : Option Memory :=
  let alignDst := 64 - dst % 64
  let alignSrc := 64 - src % 64
  if alignDst < 64 then
    if length < alignDst then some (assignLoop 1 m src dst length)
    else
      pxCopyBody (alignDst == alignSrc) (assignLoop 1 m src dst alignDst) (src + alignDst)
        (dst + alignDst) (length - alignDst)
  else pxCopyBody (alignDst == alignSrc) m src dst length

/-! ### Putting a block together -/

/-- `permutex_idx_2u` to `permutex_idx_62u`, in the order of `permutex_idx_pptr`. -/
def permutexIdxPptr : List (List ℕ) :=
  [[1, 2, 3, 4, 5, 6, 7, 8, 9, 10, 11, 12, 13, 14, 15, 16,
    17, 18, 19, 20, 21, 22, 23, 24, 25, 26, 27, 28, 29, 30, 31, 32],
   [2, 3, 4, 5, 6, 7, 8, 9, 10, 11, 12, 13, 14, 15, 16, 17,
    18, 19, 20, 21, 22, 23, 24, 25, 26, 27, 28, 29, 30, 31, 32, 33],
   [3, 4, 5, 6, 7, 8, 9, 10, 11, 12, 13, 14, 15, 16, 17, 18,
    19, 20, 21, 22, 23, 24, 25, 26, 27, 28, 29, 30, 31, 32, 33, 34],
   [4, 5, 6, 7, 8, 9, 10, 11, 12, 13, 14, 15, 16, 17, 18, 19,
    20, 21, 22, 23, 24, 25, 26, 27, 28, 29, 30, 31, 32, 33, 34, 35],
   [5, 6, 7, 8, 9, 10, 11, 12, 13, 14, 15, 16, 17, 18, 19, 20,
    21, 22, 23, 24, 25, 26, 27, 28, 29, 30, 31, 32, 33, 34, 35, 36],
   [6, 7, 8, 9, 10, 11, 12, 13, 14, 15, 16, 17, 18, 19, 20, 21,
    22, 23, 24, 25, 26, 27, 28, 29, 30, 31, 32, 33, 34, 35, 36, 37],
   [7, 8, 9, 10, 11, 12, 13, 14, 15, 16, 17, 18, 19, 20, 21, 22,
    23, 24, 25, 26, 27, 28, 29, 30, 31, 32, 33, 34, 35, 36, 37, 38],
   [8, 9, 10, 11, 12, 13, 14, 15, 16, 17, 18, 19, 20, 21, 22, 23,
    24, 25, 26, 27, 28, 29, 30, 31, 32, 33, 34, 35, 36, 37, 38, 39],
   [9, 10, 11, 12, 13, 14, 15, 16, 17, 18, 19, 20, 21, 22, 23, 24,
    25, 26, 27, 28, 29, 30, 31, 32, 33, 34, 35, 36, 37, 38, 39, 40],
   [10, 11, 12, 13, 14, 15, 16, 17, 18, 19, 20, 21, 22, 23, 24, 25,
    26, 27, 28, 29, 30, 31, 32, 33, 34, 35, 36, 37, 38, 39, 40, 41],
   [11, 12, 13, 14, 15, 16, 17, 18, 19, 20, 21, 22, 23, 24, 25, 26,
    27, 28, 29, 30, 31, 32, 33, 34, 35, 36, 37, 38, 39, 40, 41, 42],
   [12, 13, 14, 15, 16, 17, 18, 19, 20, 21, 22, 23, 24, 25, 26, 27,
    28, 29, 30, 31, 32, 33, 34, 35, 36, 37, 38, 39, 40, 41, 42, 43],
   [13, 14, 15, 16, 17, 18, 19, 20, 21, 22, 23, 24, 25, 26, 27, 28,
    29, 30, 31, 32, 33, 34, 35, 36, 37, 38, 39, 40, 41, 42, 43, 44],
   [14, 15, 16, 17, 18, 19, 20, 21, 22, 23, 24, 25, 26, 27, 28, 29,
    30, 31, 32, 33, 34, 35, 36, 37, 38, 39, 40, 41, 42, 43, 44, 45],
   [15, 16, 17, 18, 19, 20, 21, 22, 23, 24, 25, 26, 27, 28, 29, 30,
    31, 32, 33, 34, 35, 36, 37, 38, 39, 40, 41, 42, 43, 44, 45, 46],
   [16, 17, 18, 19, 20, 21, 22, 23, 24, 25, 26, 27, 28, 29, 30, 31,
    32, 33, 34, 35, 36, 37, 38, 39, 40, 41, 42, 43, 44, 45, 46, 47],
   [17, 18, 19, 20, 21, 22, 23, 24, 25, 26, 27, 28, 29, 30, 31, 32,
    33, 34, 35, 36, 37, 38, 39, 40, 41, 42, 43, 44, 45, 46, 47, 48],
   [18, 19, 20, 21, 22, 23, 24, 25, 26, 27, 28, 29, 30, 31, 32, 33,
    34, 35, 36, 37, 38, 39, 40, 41, 42, 43, 44, 45, 46, 47, 48, 49],
   [19, 20, 21, 22, 23, 24, 25, 26, 27, 28, 29, 30, 31, 32, 33, 34,
    35, 36, 37, 38, 39, 40, 41, 42, 43, 44, 45, 46, 47, 48, 49, 50],
   [20, 21, 22, 23, 24, 25, 26, 27, 28, 29, 30, 31, 32, 33, 34, 35,
    36, 37, 38, 39, 40, 41, 42, 43, 44, 45, 46, 47, 48, 49, 50, 51],
   [21, 22, 23, 24, 25, 26, 27, 28, 29, 30, 31, 32, 33, 34, 35, 36,
    37, 38, 39, 40, 41, 42, 43, 44, 45, 46, 47, 48, 49, 50, 51, 52],
   [22, 23, 24, 25, 26, 27, 28, 29, 30, 31, 32, 33, 34, 35, 36, 37,
    38, 39, 40, 41, 42, 43, 44, 45, 46, 47, 48, 49, 50, 51, 52, 53],
   [23, 24, 25, 26, 27, 28, 29, 30, 31, 32, 33, 34, 35, 36, 37, 38,
    39, 40, 41, 42, 43, 44, 45, 46, 47, 48, 49, 50, 51, 52, 53, 54],
   [24, 25, 26, 27, 28, 29, 30, 31, 32, 33, 34, 35, 36, 37, 38, 39,
    40, 41, 42, 43, 44, 45, 46, 47, 48, 49, 50, 51, 52, 53, 54, 55],
   [25, 26, 27, 28, 29, 30, 31, 32, 33, 34, 35, 36, 37, 38, 39, 40,
    41, 42, 43, 44, 45, 46, 47, 48, 49, 50, 51, 52, 53, 54, 55, 56],
   [26, 27, 28, 29, 30, 31, 32, 33, 34, 35, 36, 37, 38, 39, 40, 41,
    42, 43, 44, 45, 46, 47, 48, 49, 50, 51, 52, 53, 54, 55, 56, 57],
   [27, 28, 29, 30, 31, 32, 33, 34, 35, 36, 37, 38, 39, 40, 41, 42,
    43, 44, 45, 46, 47, 48, 49, 50, 51, 52, 53, 54, 55, 56, 57, 58],
   [28, 29, 30, 31, 32, 33, 34, 35, 36, 37, 38, 39, 40, 41, 42, 43,
    44, 45, 46, 47, 48, 49, 50, 51, 52, 53, 54, 55, 56, 57, 58, 59],
   [29, 30, 31, 32, 33, 34, 35, 36, 37, 38, 39, 40, 41, 42, 43, 44,
    45, 46, 47, 48, 49, 50, 51, 52, 53, 54, 55, 56, 57, 58, 59, 60],
   [30, 31, 32, 33, 34, 35, 36, 37, 38, 39, 40, 41, 42, 43, 44, 45,
    46, 47, 48, 49, 50, 51, 52, 53, 54, 55, 56, 57, 58, 59, 60, 61],
   [31, 32, 33, 34, 35, 36, 37, 38, 39, 40, 41, 42, 43, 44, 45, 46,
    47, 48, 49, 50, 51, 52, 53, 54, 55, 56, 57, 58, 59, 60, 61, 62]]

/-- `_mm512_load_si512(permutex_idx_pptr[k])`. -/
def permutexIdx (k : ℕ) : BitVec 512 :=
  ofWords 512 fun j => (permutexIdxPptr.getD k []).getD j 0

/-- `dmlc_own_mm512_bsrli_epi128`: the counts 1 to 15, and zero for any other. -/
def dmlcOwnMm512BsrliEpi128 (a : BitVec 512) (shift : ℕ) : BitVec 512 :=
  if 1 ≤ shift ∧ shift ≤ 15 then mm512BsrliEpi128 a shift else 0#512

/-- `dmlc_own_mm512_bslli_epi128`: the counts 1 to 15, and zero for any other. -/
def dmlcOwnMm512BslliEpi128 (a : BitVec 512) (shift : ℕ) : BitVec 512 :=
  if 1 ≤ shift ∧ shift ≤ 15 then mm512BslliEpi128 a shift else 0#512

/-- `dmlc_own_mm512_alignr_epi8`: the multiples of 4 below 64, and zero for any other. -/
def dmlcOwnMm512AlignrEpi8 (a b : BitVec 512) (shift : ℕ) : BitVec 512 :=
  if shift = 0 then b
  else if shift % 4 = 0 ∧ shift ≤ 60 then mm512AlignrEpi32 a b (shift / 4)
  else 0#512

/-- A block when `shift` is a multiple of 4: `next` is the block loaded last, `prev` the
one loaded before it. -/
def combineAligned (shift : ℕ) (next prev : BitVec 512) : BitVec 512 :=
  dmlcOwnMm512AlignrEpi8 next prev shift

/-- A block when `shift` is even. -/
def combineEven (shift : ℕ) (next prev : BitVec 512) : BitVec 512 :=
  mm512Permutex2varEpi16 prev (permutexIdx ((shift - 2) / 2)) next

/-- A block when `shift` is odd and below 16: the permutation for `shift + 1`, one byte
up, and the first byte of every lane from the previous block. -/
def combineLow (shift : ℕ) (next prev : BitVec 512) : BitVec 512 :=
  let lower := dmlcOwnMm512BsrliEpi128 prev shift
  let higher := mm512Permutex2varEpi16 prev (permutexIdx ((shift - 1) / 2)) next
  let higher := dmlcOwnMm512BslliEpi128 higher 1
  mm512MaskMovEpi8 higher 0x0001000100010001#64 lower

/-- A block when `shift` is odd and above 48: the permutation for `shift - 1`, one byte
down, and the last byte of every lane from the next block. -/
def combineHigh (shift : ℕ) (next prev : BitVec 512) : BitVec 512 :=
  let lower := mm512Permutex2varEpi16 prev (permutexIdx ((shift - 3) / 2)) next
  let lower := dmlcOwnMm512BsrliEpi128 lower 1
  let higher := dmlcOwnMm512BslliEpi128 next (64 - shift)
  mm512MaskMovEpi8 higher 0x7FFF7FFF7FFF7FFF#64 lower

/-! ### Copying through vector registers -/

/-- The state of the loops over shifted blocks: `zmm0` is the block loaded last. -/
structure ShiftedCursor extends Cursor where
  zmm0 : BitVec 512

/-- The body of the loops over shifted blocks: four blocks. -/
def copyFourShifted (combine : BitVec 512 → BitVec 512 → BitVec 512) (c : ShiftedCursor) :
    Option ShiftedCursor := do
  let zmm1 ← mm512LoadSi512 c.mem c.src
  let zmm2 := combine zmm1 c.zmm0
  let zmm3 ← mm512LoadSi512 c.mem (c.src + 64)
  let zmm4 := combine zmm3 zmm1
  let zmm5 ← mm512LoadSi512 c.mem (c.src + 128)
  let zmm6 := combine zmm5 zmm3
  let zmm0 ← mm512LoadSi512 c.mem (c.src + 192)
  let zmm7 := combine zmm0 zmm5
  let m ← mm512StoreSi512 c.mem c.dst zmm2
  let m ← mm512StoreSi512 m (c.dst + 64) zmm4
  let m ← mm512StoreSi512 m (c.dst + 128) zmm6
  let m ← mm512StoreSi512 m (c.dst + 192) zmm7
  some { mem := m, src := c.src + 256, dst := c.dst + 256, length := c.length - 4, zmm0 := zmm0 }

/-- The body of the loops over blocks that need no shift: four blocks. -/
def copyFourBlocks (loadBlock : Memory → ℕ → Option (BitVec 512)) (c : Cursor) :
    Option Cursor := do
  let zmm0 ← loadBlock c.mem c.src
  let zmm1 ← loadBlock c.mem (c.src + 64)
  let zmm2 ← loadBlock c.mem (c.src + 128)
  let zmm3 ← loadBlock c.mem (c.src + 192)
  let m ← mm512StoreSi512 c.mem c.dst zmm0
  let m ← mm512StoreSi512 m (c.dst + 64) zmm1
  let m ← mm512StoreSi512 m (c.dst + 128) zmm2
  let m ← mm512StoreSi512 m (c.dst + 192) zmm3
  some { mem := m, src := c.src + 256, dst := c.dst + 256, length := c.length - 4 }

/-- The body of the loop over the last blocks. -/
def copyBlock (c : Cursor) : Option Cursor := do
  let zmm0 := mm512LoaduSi512 c.mem c.src
  let m ← mm512StoreSi512 c.mem c.dst zmm0
  some { mem := m, src := c.src + 64, dst := c.dst + 64, length := c.length - 1 }

/-- The end of `copy_avx512`: the blocks the unrolled loops left, and the tail. -/
def copyRest (c : Cursor) (tail : ℕ) : Option Memory := do
  let c ← Loop.whileLoop (fun c => 0 < c.length) copyBlock c.length c
  dmlcOwnPxCopy8uUnrolled c.mem c.src c.dst tail

/-- Blocks that need no shift, and the end. -/
def copyUnshifted (loadBlock : Memory → ℕ → Option (BitVec 512)) (m : Memory)
    (src dst transferSize : ℕ) : Option Memory := do
  let length512u := transferSize / 64
  let tail := transferSize % 64
  let c ← Loop.whileLoop (fun c => 3 < c.length) (copyFourBlocks loadBlock) length512u
    { mem := m, src := src, dst := dst, length := length512u }
  copyRest c tail

/-- Shifted blocks, and the end.  The first block is loaded from the multiple of 64 below
the source, without the bytes that lie before it. -/
def copyShiftedBy (combine : BitVec 512 → BitVec 512 → BitVec 512) (m : Memory)
    (src dst transferSize shift : ℕ) : Option Memory := do
  let length512u := transferSize / 64
  let tail := transferSize % 64
  let src := src - shift
  let skipMask := ~~~((1#64 <<< shift) - 1#64)
  let zmm0 := mm512MaskzLoaduEpi8 skipMask m src
  let src := src + 64
  let c ← Loop.whileLoop (fun c => 4 < c.length) (copyFourShifted combine) length512u
    { mem := m, src := src, dst := dst, length := length512u, zmm0 := zmm0 }
  copyRest { c.toCursor with src := c.src - (64 - shift) } tail

/-- The choice by `shift`.  `oddLimit` is the size below which an odd shift is not worth
its setup: 16 kilobytes after an unaligned head, and no limit otherwise. -/
def copyShifted (oddLimit : ℕ) (m : Memory) (src dst transferSize shift : ℕ) : Option Memory :=
  if shift % 4 = 0 then copyShiftedBy (combineAligned shift) m src dst transferSize shift
  else if shift % 2 = 0 then copyShiftedBy (combineEven shift) m src dst transferSize shift
  else if shift < 16 then
    if transferSize < oddLimit then dmlcOwnPxCopy8uUnrolled m src dst transferSize
    else copyShiftedBy (combineLow shift) m src dst transferSize shift
  else if shift > 48 then
    if transferSize < oddLimit then dmlcOwnPxCopy8uUnrolled m src dst transferSize
    else copyShiftedBy (combineHigh shift) m src dst transferSize shift
  else dmlcOwnPxCopy8uUnrolled m src dst transferSize

/-- `copy_avx512` from where the destination is known not to be a multiple of 64: the head
first, and then blocks.  `align_src - align_dst` is a 32-bit subtraction. -/
def copyUnalignedDst (m : Memory) (src dst transferSize alignSrc alignDst : ℕ) :
    Option Memory := do
  let m ← dmlcOwnPxCopy8uUnrolled m src dst alignDst
  let transferSize := transferSize - alignDst
  let dst := dst + alignDst
  let src := src + alignDst
  if (alignSrc + (2 ^ 32 - alignDst)) % 2 ^ 32 % 16 ≠ 0 then
    let shift := if alignDst > alignSrc then alignDst - alignSrc else 64 + alignDst - alignSrc
    copyShifted (16 * 1024) m src dst transferSize shift
  else copyUnshifted (fun m a => some (mm512LoaduSi512 m a)) m src dst transferSize

/-- `copy_avx512`; `cacheSize` is what `dml_core_get_cache_size` returns. -/
def copyAvx512 (cacheSize : ℕ) (m : Memory) (src dst transferSize : ℕ) : Option Memory :=
  let kilobyte := 1024
  if transferSize < kilobyte then dmlcOwnPxCopy8uUnrolled m src dst transferSize
  else if transferSize > 32 * kilobyte ∧ cacheSize > 0 ∧ transferSize > cacheSize then
    dmlcOwnPxCopy8uUnrolled m src dst transferSize
  else
    let alignDst := 64 - dst % 64
    let alignSrc := 64 - src % 64
    if alignDst < 64 then
      if transferSize < 4 * kilobyte then dmlcOwnPxCopy8uUnrolled m src dst transferSize
      else copyUnalignedDst m src dst transferSize alignSrc alignDst
    else if alignSrc < 64 then
      if transferSize < 32 * kilobyte then dmlcOwnPxCopy8uUnrolled m src dst transferSize
      else copyShifted 0 m src dst transferSize (64 - alignSrc)
    else if 12 * kilobyte < transferSize ∧ transferSize < 32 * kilobyte then
      dmlcOwnPxCopy8uUnrolled m src dst transferSize
    else copyUnshifted mm512LoadSi512 m src dst transferSize

/-- `dml_avx512_mem_move`. -/
def dmlAvx512MemMove (cacheSize : ℕ) (m : Memory) (src dst transferSize : ℕ) : Option Memory :=
  let srcEnd := src + transferSize
  let dstEnd := dst + transferSize
  if srcEnd ≤ dst ∨ src ≥ dstEnd then copyAvx512 cacheSize m src dst transferSize
  else some (dmlRefMemMove m src dst transferSize)

/-! ### General registers: the copy is the block move -/

/-- A copying loop once `k` bytes are copied. -/
def cursorAt (m : Memory) (src dst k length : ℕ) : Cursor :=
  { mem := move m src dst k, src := src + k, dst := dst + k, length := length }

/-- **A copying loop.**  When one iteration copies `dec` elements of `w` bytes, the loop
that runs while more than `bound` are left stops with at most `bound` left, everything
before them copied. -/
theorem copyLoop {m : Memory} {src dst n : ℕ} {body : Cursor → Option Cursor}
    {w bound dec total : ℕ} (hdec : 0 < dec) (hbound : dec ≤ bound + 1) (htotal : w * total ≤ n)
    (hbody : ∀ i length, w * i + w * dec ≤ n → body (cursorAt m src dst (w * i) length)
      = some (cursorAt m src dst (w * i + w * dec) (length - dec)))
    {i length : ℕ} (hi : i + length = total) :
    ∃ j left, Loop.whileLoop (fun c => decide (bound < c.length)) body length
        (cursorAt m src dst (w * i) length) = some (cursorAt m src dst (w * j) left) ∧
      j + left = total ∧ left ≤ bound := by
  obtain ⟨c, j, hloop, hc, hj, hle⟩ := Loop.whileLoop_countdown
    (fun i c => c = cursorAt m src dst (w * i) c.length) Cursor.length hdec hbound
    (fun i c hc hic hlt => by
      have hroom : w * (i + dec) ≤ n := le_trans (Nat.mul_le_mul_left w (by omega)) htotal
      rw [Nat.mul_add] at hroom
      refine ⟨cursorAt m src dst (w * i + w * dec) (c.length - dec), ?_, ?_, rfl⟩
      · rw [hc]; exact hbody _ _ hroom
      · rw [← Nat.mul_add]; rfl)
    (s := cursorAt m src dst (w * i) length) rfl hi
  exact ⟨j, c.length, hc ▸ hloop, hj, hle⟩

section Apart

variable {m : Memory} {src dst n : ℕ} (hap : Region.Apart ⟨src, n⟩ ⟨dst, n⟩)

include hap

/-- One more element of a copy. -/
theorem assign_move {w k : ℕ} (hk : k + w ≤ n) :
    assign w (move m src dst k) (src + k) (dst + k) = move m src dst (k + w) := by
  refine store_move fun i hi => ?_
  rw [byteAt_load _ _ hi, Nat.add_assoc]
  exact move_apply_source hap (by omega) (by omega)

theorem assignLoop_move {w k length : ℕ} (hk : k + w * length ≤ n) :
    assignLoop w (move m src dst k) (src + k) (dst + k) length
      = move m src dst (k + w * length) := by
  unfold assignLoop
  induction length with
  | zero => rfl
  | succ length ih =>
    rw [Nat.mul_succ] at hk
    rw [Loop.iter_succ, ih (by omega), Nat.add_assoc src, Nat.add_assoc dst,
      assign_move hap (by omega), Nat.mul_succ, Nat.add_assoc]

/-- Four words of a copy. -/
theorem copyFourWords_eq {k length : ℕ} (hk : k + 32 ≤ n) :
    copyFourWords (cursorAt m src dst k length)
      = some (cursorAt m src dst (k + 32) (length - 4)) := by
  simp only [copyFourWords, cursorAt, Nat.add_assoc]
  rw [assign_move hap (by omega), assign_move hap (by omega), assign_move hap (by omega),
    assign_move hap (by omega)]

/-- Eight bytes of a copy. -/
theorem copyEightBytes_eq {k length : ℕ} (hk : k + 8 ≤ n) :
    copyEightBytes (cursorAt m src dst k length)
      = some (cursorAt m src dst (k + 8) (length - 8)) := by
  simp only [copyEightBytes, cursorAt, Nat.add_assoc]
  rw [assign_move hap (by omega), assign_move hap (by omega), assign_move hap (by omega),
    assign_move hap (by omega), assign_move hap (by omega), assign_move hap (by omega),
    assign_move hap (by omega), assign_move hap (by omega)]

theorem pxCopyBody_eq (sameAlignment : Bool) :
    pxCopyBody sameAlignment m src dst n = some (move m src dst n) := by
  have hstart : ∀ length, ({ mem := m, src := src, dst := dst, length := length } : Cursor)
      = cursorAt m src dst 0 length := fun length => by simp [cursorAt]
  cases sameAlignment with
  | true =>
    -- four words at a time, then single words, then bytes
    obtain ⟨j, left, hloop, hj, hle⟩ := copyLoop (m := m) (n := n) (i := 0) (w := 8)
      (show 0 < 4 by omega) (show 4 ≤ 3 + 1 by omega) (show 8 * (n / 8) ≤ n by omega)
      (fun i length hi => copyFourWords_eq hap hi) (Nat.zero_add (n / 8))
    have htail : assignLoop 1 (move m src dst (n / 8 * 8)) (src + n / 8 * 8) (dst + n / 8 * 8)
        (n - n / 8 * 8) = move m src dst (n / 8 * 8 + 1 * (n - n / 8 * 8)) :=
      assignLoop_move hap (by omega)
    simp only [pxCopyBody, hstart, Option.bind_eq_bind, if_true]
    rw [Nat.mul_zero] at hloop
    rw [hloop, Option.bind_some]
    simp only [cursorAt]
    rw [assignLoop_move hap (by omega), show 8 * j + 8 * left = n / 8 * 8 by omega, htail]
    congr 2; omega
  | false =>
    -- eight bytes at a time, then single bytes
    obtain ⟨j, left, hloop, hj, hle⟩ := copyLoop (m := m) (n := n) (i := 0) (w := 1)
      (show 0 < 8 by omega) (show 8 ≤ 7 + 1 by omega) (show 1 * n ≤ n by omega)
      (fun i length hi => copyEightBytes_eq hap hi) (Nat.zero_add n)
    simp only [pxCopyBody, hstart, Option.bind_eq_bind, Bool.false_eq_true, if_false]
    rw [Nat.mul_zero] at hloop
    rw [hloop, Option.bind_some]
    simp only [cursorAt]
    rw [assignLoop_move hap (by omega)]
    congr 2; omega

end Apart

/-- The two ranges after the first `k` bytes. -/
theorem apart_advance {src dst n k : ℕ} (hap : Region.Apart ⟨src, n⟩ ⟨dst, n⟩) (hk : k ≤ n) :
    Region.Apart ⟨src + k, n - k⟩ ⟨dst + k, n - k⟩ := by
  simp only [Region.Apart] at *
  omega

/-- A copy made in two parts. -/
theorem move_split {m : Memory} {src dst n k : ℕ} (hap : Region.Apart ⟨src, n⟩ ⟨dst, n⟩)
    (hk : k ≤ n) : move (move m src dst k) (src + k) (dst + k) (n - k) = move m src dst n := by
  have hsafe : ForwardSafe src dst (k + (n - k)) := by
    simp only [Region.Apart] at hap
    unfold ForwardSafe
    omega
  rw [move_forward m hsafe, Nat.add_sub_cancel' hk]

/-- **The copy through general registers is the block move.** -/
theorem dmlcOwnPxCopy8uUnrolled_eq (m : Memory) {src dst n : ℕ}
    (hap : Region.Apart ⟨src, n⟩ ⟨dst, n⟩) :
    dmlcOwnPxCopy8uUnrolled m src dst n = some (move m src dst n) := by
  have hhead : ∀ k, k ≤ n → assignLoop 1 m src dst k = move m src dst k := by
    intro k hk
    have h : assignLoop 1 (move m src dst 0) (src + 0) (dst + 0) k = move m src dst (0 + 1 * k) :=
      assignLoop_move hap (by omega)
    simpa using h
  unfold dmlcOwnPxCopy8uUnrolled
  simp only
  split
  · split
    · rw [hhead n le_rfl]
    · next h =>
      rw [hhead _ (by omega), pxCopyBody_eq (apart_advance hap (by omega)),
        move_split hap (by omega)]
  · exact pxCopyBody_eq hap _

/-! ### Every way to put a block together -/

/-- **What a way to combine two blocks has to do**: the result is the 64 bytes that start
`shift` bytes into the two blocks. -/
def ShiftsBytes (shift : ℕ) (combine : BitVec 512 → BitVec 512 → BitVec 512) : Prop :=
  ∀ next prev i, i < 64 →
    byte (combine next prev) i
      = if i + shift < 64 then byte prev (i + shift) else byte next (i + shift - 64)

theorem permutexIdxPptr_getD :
    ∀ k < 31, ∀ j < 32, (permutexIdxPptr.getD k []).getD j 0 = j + (k + 1) := by
  decide

/-- The permutation of table `k` takes the bytes from `2 * (k + 1)` on. -/
theorem byte_permutexIdx (next prev : BitVec 512) {k i : ℕ} (hk : k < 31) (hi : i < 64) :
    byte (mm512Permutex2varEpi16 prev (permutexIdx k) next) i
      = if i + 2 * (k + 1) < 64 then byte prev (i + 2 * (k + 1))
        else byte next (i + 2 * (k + 1) - 64) :=
  byte_mm512Permutex2varEpi16 prev next (by omega) (fun j hj => permutexIdxPptr_getD k hk j hj) hi

theorem shiftsBytes_combineAligned {shift : ℕ} (h4 : shift % 4 = 0) (hlt : shift < 64) :
    ShiftsBytes shift (combineAligned shift) := by
  intro next prev i hi
  rw [combineAligned, dmlcOwnMm512AlignrEpi8]
  by_cases h0 : shift = 0
  · rw [if_pos h0, h0, if_pos (by omega), Nat.add_zero]
  · rw [if_neg h0, if_pos (by omega), byte_mm512AlignrEpi32 next prev (by omega) hi,
      show 4 * (shift / 4) = shift by omega]

theorem shiftsBytes_combineEven {shift : ℕ} (h2 : shift % 2 = 0) (hpos : 0 < shift)
    (hlt : shift < 64) : ShiftsBytes shift (combineEven shift) := by
  intro next prev i hi
  rw [combineEven, byte_permutexIdx next prev (by omega) hi,
    show 2 * ((shift - 2) / 2 + 1) = shift by omega]

theorem getLsbD_firstOfLane :
    ∀ i < 64, (0x0001000100010001#64).getLsbD i = decide (i % 16 = 0) := by
  decide

theorem getLsbD_allButLastOfLane :
    ∀ i < 64, (0x7FFF7FFF7FFF7FFF#64).getLsbD i = decide (i % 16 ≠ 15) := by
  decide

theorem shiftsBytes_combineLow {shift : ℕ} (hodd : shift % 2 = 1) (hlt : shift < 16) :
    ShiftsBytes shift (combineLow shift) := by
  intro next prev i hi
  simp only [combineLow, dmlcOwnMm512BsrliEpi128, dmlcOwnMm512BslliEpi128]
  rw [if_pos (by omega), if_pos (by omega), byte_mm512MaskMovEpi8 _ _ _ hi,
    getLsbD_firstOfLane i hi]
  by_cases hfirst : i % 16 = 0
  · -- the first byte of a lane is at most `shift` bytes away, in the same lane
    rw [decide_eq_true hfirst, if_pos rfl, byte_mm512BsrliEpi128 _ _ hi, if_pos (by omega),
      if_pos (by omega)]
  · rw [decide_eq_false hfirst, if_neg (by decide), byte_mm512BslliEpi128 _ _ hi,
      if_pos (by omega), byte_permutexIdx next prev (by omega) (by omega),
      show i - 1 + 2 * ((shift - 1) / 2 + 1) = i + shift by omega]

theorem shiftsBytes_combineHigh {shift : ℕ} (hodd : shift % 2 = 1) (hgt : 48 < shift)
    (hlt : shift < 64) : ShiftsBytes shift (combineHigh shift) := by
  intro next prev i hi
  simp only [combineHigh, dmlcOwnMm512BsrliEpi128, dmlcOwnMm512BslliEpi128]
  rw [if_pos (by omega), if_pos (by omega), byte_mm512MaskMovEpi8 _ _ _ hi,
    getLsbD_allButLastOfLane i hi]
  by_cases hlast : i % 16 = 15
  · -- the last byte of a lane comes from the next block, in the same lane
    rw [decide_eq_false (by omega), if_neg (by decide), byte_mm512BslliEpi128 _ _ hi,
      if_pos (by omega), if_neg (by omega)]
    congr 1; omega
  · rw [decide_eq_true hlast, if_pos rfl, byte_mm512BsrliEpi128 _ _ hi, if_pos (by omega),
      byte_permutexIdx next prev (by omega) (by omega),
      show i + 1 + 2 * ((shift - 3) / 2 + 1) = i + shift by omega]

/-! ### The loops over blocks -/

/-- A register that holds the block at `a`, from byte `lo` on. -/
def HoldsBlock (m : Memory) (a lo : ℕ) (z : BitVec 512) : Prop :=
  ∀ i, lo ≤ i → i < 64 → byte z i = m (a + i)

theorem HoldsBlock.mono {m : Memory} {a lo : ℕ} {z : BitVec 512} (h : HoldsBlock m a 0 z) :
    HoldsBlock m a lo z := fun i _ hi => h i (Nat.zero_le i) hi

/-- Storing a block of source bytes is one more block of the copy. -/
theorem store_block {m : Memory} {src dst k : ℕ} {z : BitVec 512}
    (hz : HoldsBlock m (src + k) 0 z) :
    store (move m src dst k) (dst + k) 64 z.toNat = move m src dst (k + 64) := by
  refine store_move fun i hi => ?_
  rw [byteAt_toNat]
  exact hz i (Nat.zero_le i) hi

section Apart

variable {m : Memory} {src dst n : ℕ} (hap : Region.Apart ⟨src, n⟩ ⟨dst, n⟩)

include hap

/-- A block of the source loaded during the copy is the block as it was before the copy. -/
theorem holdsBlock_load {k a : ℕ} (hk : k ≤ n) (hlo : src ≤ a) (hhi : a + 64 ≤ src + n) :
    HoldsBlock m a 0 (mm512LoaduSi512 (move m src dst k) a) := by
  intro i _ hi
  rw [byte_mm512LoaduSi512 _ _ hi]
  have h : move m src dst k (src + (a - src + i)) = m (src + (a - src + i)) :=
    move_apply_source hap hk (by omega)
  rwa [show src + (a - src + i) = a + i by omega] at h

variable (hdst : dst % 64 = 0)

include hdst

theorem copyBlock_eq {k length : ℕ} (hk : k + 64 ≤ n) (hk64 : k % 64 = 0) :
    copyBlock (cursorAt m src dst k length)
      = some (cursorAt m src dst (k + 64) (length - 1)) := by
  have hz : HoldsBlock m (src + k) 0 (mm512LoaduSi512 (move m src dst k) (src + k)) :=
    holdsBlock_load hap (by omega) (by omega) (by omega)
  simp only [copyBlock, cursorAt, Option.bind_eq_bind]
  rw [mm512StoreSi512_eq (by omega), Option.bind_some, store_block hz, Nat.add_assoc,
    Nat.add_assoc]

theorem copyFourBlocks_eq {loadBlock : Memory → ℕ → Option (BitVec 512)}
    {k length : ℕ}
    (hload : ∀ m j, j % 64 = 0 → loadBlock m (src + j) = some (mm512LoaduSi512 m (src + j)))
    (hk : k + 256 ≤ n) (hk64 : k % 64 = 0) :
    copyFourBlocks loadBlock (cursorAt m src dst k length)
      = some (cursorAt m src dst (k + 256) (length - 4)) := by
  have hz : ∀ j, j ≤ 192 →
      HoldsBlock m (src + (k + j)) 0 (mm512LoaduSi512 (move m src dst k) (src + (k + j))) :=
    fun j hj => holdsBlock_load hap (by omega) (by omega) (by omega)
  have hz0 := hz 0 (by omega)
  rw [Nat.add_zero] at hz0
  simp only [copyFourBlocks, cursorAt, Option.bind_eq_bind, Nat.add_assoc]
  rw [hload _ k (by omega), hload _ (k + 64) (by omega), hload _ (k + 128) (by omega),
    hload _ (k + 192) (by omega)]
  simp only [Option.bind_some]
  rw [mm512StoreSi512_eq (by omega), Option.bind_some, store_block hz0,
    mm512StoreSi512_eq (by omega), Option.bind_some, store_block (hz 64 (by omega)),
    mm512StoreSi512_eq (by omega), Option.bind_some, store_block (hz 128 (by omega)),
    mm512StoreSi512_eq (by omega), Option.bind_some, store_block (hz 192 (by omega))]

/-- **The end of the copy**, from any number of blocks copied. -/
theorem copyRest_eq {j left : ℕ} (hj : j + left = n / 64) :
    copyRest (cursorAt m src dst (64 * j) left) (n % 64) = some (move m src dst n) := by
  obtain ⟨j', left', hloop, hj', hle⟩ := copyLoop (m := m) (n := n) (i := j) (w := 64)
    (show 0 < 1 by omega) (show 1 ≤ 0 + 1 by omega) (show 64 * (n / 64) ≤ n by omega)
    (fun i length hi => copyBlock_eq hap hdst hi (by omega)) hj
  have hdone : 64 * j' = n - n % 64 := by omega
  have htail : Region.Apart ⟨src + (n - n % 64), n % 64⟩ ⟨dst + (n - n % 64), n % 64⟩ := by
    have h := apart_advance hap (show n - n % 64 ≤ n by omega)
    rwa [show n - (n - n % 64) = n % 64 by omega] at h
  have hsplit := move_split (m := m) hap (show n - n % 64 ≤ n by omega)
  rw [show n - (n - n % 64) = n % 64 by omega] at hsplit
  simp only [copyRest, Option.bind_eq_bind]
  rw [show (cursorAt m src dst (64 * j) left).length = left from rfl, hloop, Option.bind_some,
    hdone]
  simp only [cursorAt]
  rw [dmlcOwnPxCopy8uUnrolled_eq _ htail, hsplit]

/-- **A copy of blocks that need no shift.** -/
theorem copyUnshifted_eq {loadBlock : Memory → ℕ → Option (BitVec 512)}
    (hload : ∀ m j, j % 64 = 0 → loadBlock m (src + j) = some (mm512LoaduSi512 m (src + j))) :
    copyUnshifted loadBlock m src dst n = some (move m src dst n) := by
  obtain ⟨j, left, hloop, hj, hle⟩ := copyLoop (m := m) (n := n) (i := 0) (w := 64)
    (show 0 < 4 by omega) (show 4 ≤ 3 + 1 by omega) (show 64 * (n / 64) ≤ n by omega)
    (fun i length hi => copyFourBlocks_eq hap hdst hload hi (by omega)) (Nat.zero_add (n / 64))
  have hstart : ({ mem := m, src := src, dst := dst, length := n / 64 } : Cursor)
      = cursorAt m src dst (64 * 0) (n / 64) := by simp [cursorAt]
  simp only [copyUnshifted, Option.bind_eq_bind]
  rw [hstart, hloop, Option.bind_some, copyRest_eq hap hdst hj]

end Apart

/-! ### The loops over shifted blocks -/

/-- The combination of two consecutive blocks is a block of the source. -/
theorem holdsBlock_combine {m : Memory} {a shift : ℕ}
    {combine : BitVec 512 → BitVec 512 → BitVec 512} (hshift : ShiftsBytes shift combine)
    (hlt : shift < 64) {next prev : BitVec 512} (hprev : HoldsBlock m a shift prev)
    (hnext : HoldsBlock m (a + 64) 0 next) :
    HoldsBlock m (a + shift) 0 (combine next prev) := by
  intro i _ hi
  rw [hshift next prev i hi]
  split
  · rw [hprev _ (by omega) (by omega)]
    congr 1; omega
  · rw [hnext _ (by omega) (by omega)]
    congr 1; omega

theorem getLsbD_skipMask {shift i : ℕ} (hshift : shift < 64) (hi : i < 64) (hle : shift ≤ i) :
    (~~~((1#64 <<< shift) - 1#64)).getLsbD i = true := by
  have hpow : 2 ^ shift < 2 ^ 64 := Nat.pow_lt_pow_right (by omega) hshift
  have hpos : 0 < 2 ^ shift := Nat.two_pow_pos shift
  have hval : ((1#64 <<< shift) - 1#64).toNat = 2 ^ shift - 1 := by
    rw [BitVec.toNat_sub, BitVec.toNat_shiftLeft, BitVec.toNat_ofNat, Nat.shiftLeft_eq]
    omega
  rw [BitVec.getLsbD_not, BitVec.getLsbD, hval, Nat.testBit_two_pow_sub_one]
  simp [hi, hle]

section Shifted

variable {m : Memory} {base shift dst n : ℕ}
  (hap : Region.Apart ⟨base + shift, n⟩ ⟨dst, n⟩) (hdst : dst % 64 = 0) (hbase : base % 64 = 0)
  (hlt : shift < 64)

/-- The state of a loop over shifted blocks once `k` bytes are copied: the source pointer
is at the block after the one in `zmm0`. -/
structure ShiftedAt (m : Memory) (base shift dst k : ℕ) (c : ShiftedCursor) : Prop where
  mem : c.mem = move m (base + shift) dst k
  src : c.src = base + k + 64
  dst : c.dst = dst + k
  block : HoldsBlock m (base + k) shift c.zmm0

include hap hdst hbase hlt

theorem copyFourShifted_eq {combine : BitVec 512 → BitVec 512 → BitVec 512}
    (hshift : ShiftsBytes shift combine) {k : ℕ} (hk64 : k % 64 = 0) (hk : k + 320 ≤ n)
    {c : ShiftedCursor} (hc : ShiftedAt m base shift dst k c) :
    ∃ t, copyFourShifted combine c = some t ∧ ShiftedAt m base shift dst (k + 256) t ∧
      t.length = c.length - 4 := by
  obtain ⟨hmem, hsrc, hd, hprev⟩ := hc
  have hload : ∀ j, 64 ≤ j → j ≤ 256 → HoldsBlock m (base + (k + j)) 0
      (mm512LoaduSi512 (move m (base + shift) dst k) (base + (k + j))) :=
    fun j hj64 hj => holdsBlock_load hap (by omega) (by omega) (by omega)
  have hblock : ∀ j next prev, HoldsBlock m (base + (k + j)) shift prev →
      HoldsBlock m (base + (k + (j + 64))) 0 next →
      HoldsBlock m (base + (shift + (k + j))) 0 (combine next prev) := by
    intro j next prev hp hn
    rw [← Nat.add_assoc k, ← Nat.add_assoc base] at hn
    have h := holdsBlock_combine hshift hlt hp hn
    rwa [Nat.add_assoc base, Nat.add_comm _ shift] at h
  -- the four stored blocks, each from two neighbouring loads
  have hz2 := hblock 0 _ _ hprev (hload 64 (by omega) (by omega))
  have hz4 := hblock 64 _ _ (hload 64 (by omega) (by omega)).mono (hload 128 (by omega) (by omega))
  have hz6 := hblock 128 _ _ (hload 128 (by omega) (by omega)).mono
    (hload 192 (by omega) (by omega))
  have hz7 := hblock 192 _ _ (hload 192 (by omega) (by omega)).mono
    (hload 256 (by omega) (by omega))
  rw [Nat.add_zero, ← Nat.add_assoc] at hz2
  rw [← Nat.add_assoc] at hz4 hz6 hz7
  refine ⟨{ mem := move m (base + shift) dst (k + 256), src := base + (k + 320),
            dst := dst + (k + 256), length := c.length - 4,
            zmm0 := mm512LoaduSi512 (move m (base + shift) dst k) (base + (k + 256)) },
    ?_, ⟨rfl, by simp only [Nat.add_assoc, Nat.reduceAdd], rfl,
      (hload 256 (by omega) (by omega)).mono⟩, rfl⟩
  simp only [copyFourShifted, Option.bind_eq_bind, hmem, hsrc, hd, Nat.add_assoc, Nat.reduceAdd]
  rw [mm512LoadSi512_eq (by omega), mm512LoadSi512_eq (by omega), mm512LoadSi512_eq (by omega),
    mm512LoadSi512_eq (by omega)]
  simp only [Option.bind_some]
  rw [mm512StoreSi512_eq (by omega), Option.bind_some, store_block hz2,
    mm512StoreSi512_eq (by omega), Option.bind_some, store_block hz4,
    mm512StoreSi512_eq (by omega), Option.bind_some, store_block hz6,
    mm512StoreSi512_eq (by omega), Option.bind_some, store_block hz7]

/-- **A copy of shifted blocks**, for every way to put a block together. -/
theorem copyShiftedBy_eq {combine : BitVec 512 → BitVec 512 → BitVec 512}
    (hshift : ShiftsBytes shift combine) :
    copyShiftedBy combine m (base + shift) dst n shift = some (move m (base + shift) dst n) := by
  have hfirst : ShiftedAt m base shift dst 0
      { mem := m, src := base + 64, dst := dst, length := n / 64,
        zmm0 := mm512MaskzLoaduEpi8 (~~~((1#64 <<< shift) - 1#64)) m base } :=
    ⟨(move_zero _ _ _).symm, rfl, rfl, fun i hlo hi =>
      byte_mm512MaskzLoaduEpi8 m base hi (getLsbD_skipMask hlt hi hlo)⟩
  obtain ⟨c, j, hloop, hc, hj, hle⟩ := Loop.whileLoop_countdown
    (fun i c => ShiftedAt m base shift dst (64 * i) c) (fun c => c.length)
    (show 0 < 4 by omega) (show 4 ≤ 4 + 1 by omega)
    (fun i c hA hi hlt4 => by
      obtain ⟨t, ht, hAt, hlen⟩ := copyFourShifted_eq hap hdst hbase hlt hshift
        (k := 64 * i) (by omega) (by omega) hA
      exact ⟨t, ht, hAt, hlen⟩)
    (i := 0) hfirst (Nat.zero_add (n / 64))
  -- back to the true source pointer
  have hcursor : ({ c.toCursor with src := c.src - (64 - shift) } : Cursor)
      = cursorAt m (base + shift) dst (64 * j) c.length := by
    have hsrc : c.src - (64 - shift) = base + shift + 64 * j := by rw [hc.src]; omega
    simp only [hsrc, hc.mem, hc.dst, cursorAt]
  simp only [copyShiftedBy, Option.bind_eq_bind, Nat.add_sub_cancel]
  rw [hloop, Option.bind_some, hcursor, copyRest_eq hap hdst hj]

end Shifted

/-- **The copy of shifted blocks, whatever the shift.** -/
theorem copyShifted_eq (oddLimit : ℕ) (m : Memory) {src dst n : ℕ}
    (hap : Region.Apart ⟨src, n⟩ ⟨dst, n⟩) (hdst : dst % 64 = 0) :
    copyShifted oddLimit m src dst n (src % 64) = some (move m src dst n) := by
  have hpx := dmlcOwnPxCopy8uUnrolled_eq m hap
  have hlt : src % 64 < 64 := Nat.mod_lt _ (by omega)
  -- the aligned address below the source is the base of the loads
  have hby : ∀ combine, ShiftsBytes (src % 64) combine →
      copyShiftedBy combine m src dst n (src % 64) = some (move m src dst n) := by
    intro combine hshift
    have hsplit : src = src - src % 64 + src % 64 := by omega
    rw [hsplit] at hap
    have h := copyShiftedBy_eq hap hdst (by omega) hlt hshift (m := m)
    rwa [← hsplit] at h
  unfold copyShifted
  split
  · next h4 => exact hby _ (shiftsBytes_combineAligned h4 hlt)
  · split
    · next h2 => exact hby _ (shiftsBytes_combineEven h2 (by omega) hlt)
    · split
      · next hlow =>
        split
        · exact hpx
        · exact hby _ (shiftsBytes_combineLow (by omega) hlow)
      · split
        · next hhigh =>
          split
          · exact hpx
          · exact hby _ (shiftsBytes_combineHigh (by omega) hhigh hlt)
        · exact hpx

/-! ### The kernel -/

theorem copyUnalignedDst_eq (m : Memory) {src dst n : ℕ} (hap : Region.Apart ⟨src, n⟩ ⟨dst, n⟩)
    (hn : 64 ≤ n) :
    copyUnalignedDst m src dst n (64 - src % 64) (64 - dst % 64) = some (move m src dst n) := by
  have happart : Region.Apart ⟨src, 64 - dst % 64⟩ ⟨dst, 64 - dst % 64⟩ :=
    hap.mono ⟨le_rfl, by simp only; omega⟩ ⟨le_rfl, by simp only; omega⟩
  have hhead := dmlcOwnPxCopy8uUnrolled_eq m happart
  have hrest := apart_advance hap (show 64 - dst % 64 ≤ n by omega)
  have hdst : (dst + (64 - dst % 64)) % 64 = 0 := by omega
  have hsplit := move_split (m := m) hap (show 64 - dst % 64 ≤ n by omega)
  simp only [copyUnalignedDst, Option.bind_eq_bind, hhead, Option.bind_some]
  split
  · next hne =>
    have hshift : (if 64 - dst % 64 > 64 - src % 64 then 64 - dst % 64 - (64 - src % 64)
        else 64 + (64 - dst % 64) - (64 - src % 64)) = (src + (64 - dst % 64)) % 64 := by
      split <;> omega
    rw [hshift, copyShifted_eq _ _ hrest hdst, hsplit]
  · rw [copyUnshifted_eq hrest hdst fun m j _ => rfl, hsplit]

/-- **The copy of ranges that do not overlap is the block move.** -/
theorem copyAvx512_eq (cacheSize : ℕ) (m : Memory) {src dst n : ℕ}
    (hap : Region.Apart ⟨src, n⟩ ⟨dst, n⟩) :
    copyAvx512 cacheSize m src dst n = some (move m src dst n) := by
  have hpx := dmlcOwnPxCopy8uUnrolled_eq m hap
  unfold copyAvx512
  simp only
  split
  · exact hpx
  · split
    · exact hpx
    · split
      · split
        · exact hpx
        · exact copyUnalignedDst_eq m hap (by omega)
      · next hdst =>
        split
        · split
          · exact hpx
          · rw [show 64 - (64 - src % 64) = src % 64 by omega]
            exact copyShifted_eq 0 m hap (by omega)
        · next hsrc =>
          split
          · exact hpx
          · exact copyUnshifted_eq hap (by omega) fun m j hj => mm512LoadSi512_eq (by omega)

theorem dmlAvx512MemMove_eq (cacheSize : ℕ) (m : Memory) (src dst : ℕ) {n : ℕ} (hn : n < 2 ^ 32) :
    dmlAvx512MemMove cacheSize m src dst n = some (move m src dst n) := by
  unfold dmlAvx512MemMove
  simp only
  split
  · next h =>
    refine copyAvx512_eq cacheSize m ?_
    simp only [Region.Apart]
    omega
  · rw [dmlRefMemMove_eq m src dst hn]

/-- What `memmove` promises: the destination holds the old source bytes, and nothing else
has changed. -/
structure IsMemmove (m m' : Memory) (src dst n : ℕ) : Prop where
  copied : ∀ i, i < n → m' (dst + i) = m (src + i)
  untouched : ∀ x, x < dst ∨ dst + n ≤ x → m' x = m x

theorem isMemmove_move (m : Memory) (src dst n : ℕ) : IsMemmove m (move m src dst n) src dst n :=
  ⟨fun _ hi => move_apply_of_lt hi, fun _ hx => move_apply_of_notMem hx⟩

/-- **Both kernels realise `memmove`**, for every memory, every two addresses, every size
that fits in 32 bits and every answer of the cache-size query; the vector kernel never
faults. -/
theorem memMove_isMemmove (cacheSize : ℕ) (m : Memory) (src dst : ℕ) {n : ℕ} (hn : n < 2 ^ 32) :
    IsMemmove m (dmlRefMemMove m src dst n) src dst n ∧
      ∃ m', dmlAvx512MemMove cacheSize m src dst n = some m' ∧ IsMemmove m m' src dst n := by
  rw [dmlRefMemMove_eq m src dst hn]
  exact ⟨isMemmove_move m src dst n, move m src dst n, dmlAvx512MemMove_eq cacheSize m src dst hn,
    isMemmove_move m src dst n⟩

/-- Forty kilobytes, the source 9 bytes off the destination modulo 64. -/
theorem memMove_isMemmove_shift_nine :
    IsMemmove (fun a => BitVec.ofNat 8 (a * a))
        (dmlRefMemMove (fun a => BitVec.ofNat 8 (a * a)) 1001 100000 40960) 1001 100000 40960 ∧
      ∃ m', dmlAvx512MemMove 0 (fun a => BitVec.ofNat 8 (a * a)) 1001 100000 40960 = some m' ∧
        IsMemmove (fun a => BitVec.ofNat 8 (a * a)) m' 1001 100000 40960 :=
  memMove_isMemmove 0 _ 1001 100000 (by decide)

end DataMover
