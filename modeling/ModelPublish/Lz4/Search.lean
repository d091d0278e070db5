import ModelPublish.Lz4.Sequences

/-!
# The match finder

`LZ4HC_InsertAndGetWiderMatch` as the optimal parser calls it: `iLowLimit` is `ip`, so a match never
starts earlier and `delta` is 0. A place of the source is an offset from its start; an index is the
source's own, 64 KB more. `LZ4HC_init` sets `dictLimit` and `lowLimit` alike, so there is no
external dictionary.
-/

namespace Lz4

/-- The machine word that `LZ4_read_ARCH` reads. -/
inductive Arch where
  | x32
  | x64
  deriving DecidableEq, Repr

def Arch.stepSize : Arch → Nat
  | .x32 => 4
  | .x64 => 8

/-- `size` bytes at a place, read as one little endian word. -/
def readWord (src : List UInt8) : Nat → Nat → Nat
  | 0, _ => 0
  | size + 1, place => (byteAt src place).toNat + 256 * readWord src size (place + 1)

def read32 (src : List UInt8) (place : Nat) : Nat := readWord src 4 place

/-- `_BitScanForward`, for words of `bits` bits. -/
def trailingZeros : Nat → Nat → Nat
  | 0, _ => 0
  | bits + 1, val => if val % 2 = 0 then 1 + trailingZeros bits (val / 2) else 0

def nbCommonBytes (arch : Arch) (val : Nat) : Nat := trailingZeros (8 * arch.stepSize) val / 8

/-- The last steps of `LZ4_count`, with less than a word to go. -/
def countTail (arch : Arch) (src : List UInt8) (pIn pMatch pInLimit : Nat) : Nat :=
  let four := if arch.stepSize = 8 ∧ pIn + 3 < pInLimit ∧ read32 src pMatch = read32 src pIn
    then 4 else 0
  let two := if pIn + four + 1 < pInLimit
      ∧ readWord src 2 (pMatch + four) = readWord src 2 (pIn + four) then 2 else 0
  let one := if pIn + four + two < pInLimit
      ∧ byteAt src (pMatch + four + two) = byteAt src (pIn + four + two) then 1 else 0
  four + two + one

/-- `LZ4_count`. The source writes the first round of its loop out. -/
def count (arch : Arch) (src : List UInt8) (pIn pMatch pInLimit : Nat) : Nat :=
  if pIn + (arch.stepSize - 1) < pInLimit then
    let diff := readWord src arch.stepSize pMatch ^^^ readWord src arch.stepSize pIn
    if diff = 0 then
      arch.stepSize + count arch src (pIn + arch.stepSize) (pMatch + arch.stepSize) pInLimit
    else nbCommonBytes arch diff
  else countTail arch src pIn pMatch pInLimit
termination_by pInLimit - pIn
decreasing_by cases arch <;> simp only [Arch.stepSize] at * <;> omega

/-! ### Repeated patterns -/

/-- The bytes at `ip` that go on as the low bytes of `patternByte` do. -/
def countPatternTail (src : List UInt8) (iEnd : Nat) : Nat → Nat → Nat → Nat
  | 0, _, _ => 0
  | rounds + 1, ip, patternByte =>
    if ip < iEnd ∧ (byteAt src ip).toNat = patternByte % 256 then
      1 + countPatternTail src iEnd rounds (ip + 1) (patternByte / 256)
    else 0

/-- `LZ4HC_countPattern`, for a pattern already as wide as a machine word. -/
def countPatternWords (arch : Arch) (src : List UInt8) (pattern ip iEnd : Nat) : Nat :=
  if ip + (arch.stepSize - 1) < iEnd then
    let diff := readWord src arch.stepSize ip ^^^ pattern
    if diff = 0 then
      arch.stepSize + countPatternWords arch src pattern (ip + arch.stepSize) iEnd
    else nbCommonBytes arch diff
  else countPatternTail src iEnd (iEnd - ip) ip pattern
termination_by iEnd - ip
decreasing_by cases arch <;> simp only [Arch.stepSize] at * <;> omega

def countPattern (arch : Arch) (src : List UInt8) (ip iEnd pattern32 : Nat) : Nat :=
  let pattern := if arch.stepSize = 8 then pattern32 + pattern32 * 2 ^ 32 else pattern32
  countPatternWords arch src pattern ip iEnd

/-- The bytes before `ip` that end as the low `size` bytes of the pattern do. -/
def reverseCountTail (src : List UInt8) (iLow pattern : Nat) : Nat → Nat → Nat
  | 0, _ => 0
  | size + 1, ip =>
    if iLow < ip ∧ (byteAt src (ip - 1)).toNat = pattern / 256 ^ size % 256 then
      1 + reverseCountTail src iLow pattern size (ip - 1)
    else 0

def reverseCountPattern (src : List UInt8) (ip iLow pattern : Nat) : Nat :=
  if iLow + 4 ≤ ip ∧ read32 src (ip - 4) = pattern then
    4 + reverseCountPattern src (ip - 4) iLow pattern
  else reverseCountTail src iLow pattern 4 ip
termination_by ip
decreasing_by omega

/-! ### Hash chains -/

/-- The index of the first byte of the source. -/
def prefixStart : Nat := 65536

/-- Subtraction of 32-bit indices. -/
def sub32 (a b : Nat) : Nat := (a + 2 ^ 32 - b) % 2 ^ 32

/-- `LZ4HC_CCtx_internal`: the last index of each hash value and, for each index, how far back the
one before it lies. -/
structure Context where
  hashTable : Array Nat
  chainTable : Array Nat
  nextToUpdate : Nat

def Context.init : Context where
  hashTable := Array.replicate 32768 0
  chainTable := Array.replicate 65536 0xFFFF
  nextToUpdate := prefixStart

def Context.lastOf (ctx : Context) (h : Nat) : Nat := ctx.hashTable.getD h 0

/-- `DELTANEXTU16`. -/
def Context.deltaNext (ctx : Context) (idx : Nat) : Nat := ctx.chainTable.getD (idx % 65536) 0

def hashPtr (src : List UInt8) (place : Nat) : Nat := read32 src place * 2654435761 % 2 ^ 32 / 2 ^ 17

/-- The distance `LZ4HC_Insert` enters for an index. -/
def Context.delta (ctx : Context) (src : List UInt8) (idx : Nat) : Nat :=
  min (sub32 idx (ctx.lastOf (hashPtr src (idx - prefixStart)))) maxDistance

/-- One round of `LZ4HC_Insert`. -/
def Context.insertOne (ctx : Context) (src : List UInt8) (idx : Nat) : Context where
  hashTable := ctx.hashTable.setIfInBounds (hashPtr src (idx - prefixStart)) idx
  chainTable := ctx.chainTable.setIfInBounds (idx % 65536) (ctx.delta src idx)
  nextToUpdate := ctx.nextToUpdate

/-- `LZ4HC_Insert`: every index not entered yet, up to `ip`. -/
def Context.insert (ctx : Context) (src : List UInt8) (ip : Nat) : Context :=
  let target := ip + prefixStart
  let entered := (List.range' ctx.nextToUpdate (target - ctx.nextToUpdate)).foldl
    (fun ctx idx => ctx.insertOne src idx) ctx
  { entered with nextToUpdate := target }

inductive RepeatState where
  | untested
  | no
  | confirmed
  deriving DecidableEq, Repr

/-- The loop of `LZ4HC_InsertAndGetWiderMatch`: the candidate, the best match so far and what is
known of a repeated pattern. -/
structure Walk where
  matchIndex : Nat
  longest : Nat
  matchpos : Nat
  repeats : RepeatState
  srcPatternLength : Nat

def lowLimit (ip : Nat) : Nat :=
  if ip + prefixStart < prefixStart + 65536 then prefixStart else ip + prefixStart - maxDistance

/-- The candidate against the bytes at `ip`. -/
def Walk.compare (arch : Arch) (src : List UInt8) (ip iHighLimit : Nat) (w : Walk) : Walk :=
  let matchPtr := w.matchIndex - prefixStart
  if byteAt src (ip + w.longest) = byteAt src (matchPtr + w.longest)
      ∧ read32 src matchPtr = read32 src ip then
    let mlt := minMatch + count arch src (ip + minMatch) (matchPtr + minMatch) iHighLimit
    if w.longest < mlt then { w with longest := mlt, matchpos := matchPtr } else w
  else w

/-- What the first time a distance of 1 tells about the bytes at `ip`. -/
def Walk.detect (arch : Arch) (src : List UInt8) (ip iHighLimit : Nat) (w : Walk) : Walk :=
  let pattern := read32 src ip
  if w.repeats = .untested then
    if pattern % 65536 = pattern / 65536 ∧ pattern % 256 = pattern / 2 ^ 24 then
      { w with
        repeats := .confirmed
        srcPatternLength := countPattern arch src (ip + 4) iHighLimit pattern + 4 }
    else { w with repeats := .no }
  else w

/-- Over a repeated pattern, straight to the place that can hold all of it. -/
def Walk.leap (arch : Arch) (src : List UInt8) (ip iHighLimit : Nat) (w : Walk) : Walk :=
  let pattern := read32 src ip
  let matchPtr := w.matchIndex - prefixStart
  if w.repeats = .confirmed ∧ prefixStart ≤ w.matchIndex ∧ read32 src matchPtr = pattern then
    let forwardPatternLength := countPattern arch src (matchPtr + 4) iHighLimit pattern + 4
    let maxLowPtr := if ip ≤ maxDistance then 0 else ip - maxDistance
    let backLength := reverseCountPattern src matchPtr maxLowPtr pattern
    if w.srcPatternLength ≤ backLength + forwardPatternLength
        ∧ forwardPatternLength ≤ w.srcPatternLength then
      { w with
        matchIndex :=
          (w.matchIndex + sub32 forwardPatternLength w.srcPatternLength) % 2 ^ 32 }
    else { w with matchIndex := sub32 w.matchIndex backLength }
  else w

/-- The next candidate of the chain. -/
def Walk.next (arch : Arch) (src : List UInt8) (ip iHighLimit : Nat) (ctx : Context) (w : Walk) :
    Walk :=
  let nextOffset := ctx.deltaNext w.matchIndex
  let w := { w with matchIndex := sub32 w.matchIndex nextOffset }
  if nextOffset = 1 then (w.detect arch src ip iHighLimit).leap arch src ip iHighLimit else w

def walkChain (arch : Arch) (src : List UInt8) (ip iHighLimit : Nat) (ctx : Context) :
    Nat → Walk → Walk
  | 0, w => w
  | nbAttempts + 1, w =>
    if lowLimit ip ≤ w.matchIndex then
      walkChain arch src ip iHighLimit ctx nbAttempts
        ((w.compare arch src ip iHighLimit).next arch src ip iHighLimit ctx)
    else w

/-- `LZ4HC_FindLongerMatch`: length and offset, or nothing longer than `minLen`. -/
def findLongerMatch (arch : Arch) (src : List UInt8) (ctx : Context) (ip iHighLimit minLen
    nbSearches : Nat) : Context × Option (Nat × Nat) :=
  let ctx := ctx.insert src ip
  let w := walkChain arch src ip iHighLimit ctx nbSearches
    ⟨ctx.lastOf (hashPtr src ip), minLen, 0, .untested, 0⟩
  (ctx, if w.longest ≤ minLen then none else some (w.longest, ip - w.matchpos))

end Lz4
