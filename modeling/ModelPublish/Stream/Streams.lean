import ModelPublish.Packed.Memory
import ModelPublish.Packed.Word

/-!
# Streams

`CMemStream` and `CFileStream` behind `CBaseStream`. Both are read through `Seek`, `Tell` and
`Read`; a buffer pointer passed to `Read` is never null here, as no caller passes one.
-/

namespace ModelPublish.Stream
open Packed

def seekSet : UInt32 := 0
def seekCur : UInt32 := 1
def seekEnd : UInt32 := 2

/-- What a `Read` hands back: its return value and the bytes copied into the buffer. `within` says
that the copy did not leave the memory the stream was bound to. -/
structure Transfer where
  ret : UInt32
  bytes : List UInt8
  within : Bool
  deriving DecidableEq, Repr

/-- `uiSize` is the number of bytes behind `pMem`, as `Bind` is told. -/
structure CMemStream where
  pMem : Option (List UInt8)
  uiSize : UInt32
  uiCurPos : UInt32
  sized : ∀ bytes ∈ pMem, bytes.length = uiSize.toNat

namespace CMemStream

def closed : CMemStream := ⟨none, 0, 0, by simp⟩

def bind (bytes : List UInt8) (small : bytes.length < 2 ^ 32) : CMemStream :=
  ⟨some bytes, UInt32.ofNat bytes.length, 0, by
    simp only [Option.mem_some_iff, forall_eq']
    exact (UInt32.toNat_ofNat_of_lt' small).symm⟩

/-- The position `Seek` is asked for, in the types the function computes it in. -/
def requestedPos (uiSize uiCurPos : UInt32) (iOfs : Int32) (uiOrig : UInt32) : Int32 :=
  if uiOrig = seekSet then iOfs
  else if uiOrig = seekEnd then (uiSize + iOfs.toUInt32).toInt32
  else if uiOrig = seekCur then (uiCurPos + iOfs.toUInt32).toInt32
  else 0

/-- The position it settles for. -/
def clampPos (uiSize : UInt32) (iNewPos : Int32) : Int32 :=
  let iNewPos := if iNewPos < 0 then 0 else iNewPos
  if uiSize.toInt32 ≤ iNewPos then (uiSize - 1).toInt32 else iNewPos

def newPos (uiSize uiCurPos : UInt32) (iOfs : Int32) (uiOrig : UInt32) : Int32 :=
  clampPos uiSize (requestedPos uiSize uiCurPos iOfs uiOrig)

def seek (s : CMemStream) (iOfs : Int32) (uiOrig : UInt32) : UInt32 × CMemStream :=
  match s.pMem with
  | none => (0, s)
  | some _ =>
    let pos := (newPos s.uiSize s.uiCurPos iOfs uiOrig).toUInt32
    (pos, { s with uiCurPos := pos })

def tell (s : CMemStream) : UInt32 := s.uiCurPos

/-- The number of bytes `Read` copies. The end position is computed in 32 bits. -/
def copySize (s : CMemStream) (uiSize : UInt32) : UInt32 :=
  let uiEnd := s.uiCurPos + uiSize
  if s.uiSize ≤ uiEnd then s.uiSize - s.uiCurPos else uiSize

/-- `beyond` is what lies in memory behind the buffer. -/
def read (s : CMemStream) (beyond : Nat → UInt8) (uiSize : UInt32) : Transfer × CMemStream :=
  match s.pMem with
  | none => (⟨0, [], true⟩, s)
  | some bytes =>
    let size := s.copySize uiSize
    (⟨size, fetch bytes beyond s.uiCurPos.toNat size.toNat,
      decide (s.uiCurPos.toNat + size.toNat ≤ bytes.length)⟩,
      { s with uiCurPos := s.uiCurPos + size })

end CMemStream

/-- An open file is its content and the position of its cursor. -/
structure CFileStream where
  pFile : Option (List UInt8 × Nat)
  deriving DecidableEq

namespace CFileStream

def openFile (bytes : List UInt8) : CFileStream := ⟨some (bytes, 0)⟩

/-- Where `fseek` would put the cursor. -/
def target (size pos : Nat) (iOfs : Int32) (uiOrig : UInt32) : Option Int :=
  if uiOrig = seekSet then some iOfs.toInt
  else if uiOrig = seekCur then some (pos + iOfs.toInt)
  else if uiOrig = seekEnd then some (size + iOfs.toInt)
  else none

/-- The result of `fseek`: 0, or -1 with the cursor left alone. -/
def seek (s : CFileStream) (iOfs : Int32) (uiOrig : UInt32) : UInt32 × CFileStream :=
  match s.pFile with
  | none => (0, s)
  | some (bytes, pos) =>
    match target bytes.length pos iOfs uiOrig with
    | some t => if t < 0 then (-1, s) else (0, ⟨some (bytes, t.toNat)⟩)
    | none => (-1, s)

/-- `ftell` returns a `long`. -/
def tell (s : CFileStream) : UInt32 :=
  match s.pFile with
  | none => -1
  | some (_, pos) => if pos < 2 ^ 31 then UInt32.ofNat pos else -1

/-- `fread` of one item of `uiSize` bytes returns the number of whole items. -/
def read (s : CFileStream) (uiSize : UInt32) : Transfer × CFileStream :=
  match s.pFile with
  | none => (⟨0, [], true⟩, s)
  | some (bytes, pos) =>
    let got := (bytes.drop pos).take uiSize.toNat
    (⟨if uiSize ≠ 0 ∧ got.length = uiSize.toNat then 1 else 0, got, true⟩,
      ⟨some (bytes, pos + got.length)⟩)

end CFileStream

/-- `CBaseStream&`: a call goes to the class of the object behind it. -/
inductive BaseStream where
  | mem (s : CMemStream)
  | file (s : CFileStream)

namespace BaseStream

def seek (s : BaseStream) (iOfs : Int32) (uiOrig : UInt32) : UInt32 × BaseStream :=
  match s with
  | .mem s => ((s.seek iOfs uiOrig).1, .mem (s.seek iOfs uiOrig).2)
  | .file s => ((s.seek iOfs uiOrig).1, .file (s.seek iOfs uiOrig).2)

def tell : BaseStream → UInt32
  | .mem s => s.tell
  | .file s => s.tell

def read (s : BaseStream) (beyond : Nat → UInt8) (uiSize : UInt32) : Transfer × BaseStream :=
  match s with
  | .mem s => ((s.read beyond uiSize).1, .mem (s.read beyond uiSize).2)
  | .file s => ((s.read uiSize).1, .file (s.read uiSize).2)

/-- `Seek ( iOfs, SEEK_SET )` for its effect. -/
def seekTo (s : BaseStream) (iOfs : Int32) : BaseStream := (s.seek iOfs seekSet).2

/-! ### Two positions in one image -/

/-- Two open streams of one class over the same bytes. -/
inductive SameImage : BaseStream → BaseStream → Prop
  | mem (bytes : List UInt8) (uiSize p q : UInt32) (sized) :
    SameImage (.mem ⟨some bytes, uiSize, p, sized⟩) (.mem ⟨some bytes, uiSize, q, sized⟩)
  | file (bytes : List UInt8) (p q : Nat) :
    SameImage (.file ⟨some (bytes, p)⟩) (.file ⟨some (bytes, q)⟩)

theorem SameImage.trans {s t u : BaseStream} (h : SameImage s t) (k : SameImage t u) :
    SameImage s u := by
  cases h <;> cases k
  · exact .mem _ _ _ _ _
  · exact .file _ _ _

theorem SameImage.symm {s t : BaseStream} (h : SameImage s t) : SameImage t s := by
  cases h
  · exact .mem _ _ _ _ _
  · exact .file _ _ _

theorem SameImage.refl {s t : BaseStream} (h : SameImage s t) : SameImage s s := h.trans h.symm

theorem seekTo_congr {s t : BaseStream} (h : SameImage s t) {iOfs : Int32} (positive : 0 < iOfs) :
    s.seekTo iOfs = t.seekTo iOfs := by
  cases h with
  | mem => rfl
  | file bytes p q =>
    have nonneg : ¬ iOfs.toInt < 0 := by
      have := Int32.lt_iff_toInt_lt.mp positive
      simp only [Int32.toInt_zero] at this
      omega
    simp [seekTo, seek, CFileStream.seek, CFileStream.target, nonneg]

theorem seekTo_sameImage {s t : BaseStream} (h : SameImage s t) (iOfs : Int32) :
    SameImage (s.seekTo iOfs) t := by
  cases h with
  | mem => exact .mem _ _ _ _ _
  | file bytes p q =>
    simp only [seekTo, seek, CFileStream.seek]
    repeat' split
    all_goals exact .file _ _ _

theorem read_sameImage {s t : BaseStream} (h : SameImage s t) (beyond : Nat → UInt8)
    (uiSize : UInt32) : SameImage (s.read beyond uiSize).2 t := by
  cases h with
  | mem => exact .mem _ _ _ _ _
  | file => exact .file _ _ _

theorem read_congr (s : BaseStream) (f g : Nat → UInt8) (uiSize : UInt32) :
    (s.read f uiSize).1.bytes.length = (s.read g uiSize).1.bytes.length ∧
      (s.read f uiSize).1.within = (s.read g uiSize).1.within ∧
      (s.read f uiSize).2 = (s.read g uiSize).2 := by
  cases s with
  | mem s =>
    obtain ⟨pMem, size, pos, sized⟩ := s
    cases pMem with
    | none => exact ⟨rfl, rfl, rfl⟩
    | some bytes => exact ⟨by simp [read, CMemStream.read], rfl, rfl⟩
  | file s => exact ⟨rfl, rfl, rfl⟩

end BaseStream

/-! ### Reading inside the image -/

theorem CMemStream.clampPos_toInt {uiSize : UInt32} (nonempty : 0 < uiSize.toNat)
    (small : uiSize.toNat < 2 ^ 31) (iNewPos : Int32) :
    (clampPos uiSize iNewPos).toInt = max 0 (min iNewPos.toInt (uiSize.toNat - 1)) := by
  have size : uiSize.toInt32.toInt = uiSize.toNat := toInt_toInt32_small small
  have last : (uiSize - 1).toInt32.toInt = uiSize.toNat - 1 := by
    have one : (1 : UInt32).toNat = 1 := rfl
    have value : (uiSize - 1).toNat = uiSize.toNat - 1 :=
      UInt32.toNat_sub_of_le _ _ (UInt32.le_iff_toNat_le.mpr (by rw [one]; exact nonempty))
    rw [toInt_toInt32_small (by omega), value]
    omega
  have raised : (if iNewPos < 0 then 0 else iNewPos : Int32).toInt = max 0 iNewPos.toInt := by
    split <;> rename_i sign <;> rw [int32_neg_iff] at sign
    · rw [Int32.toInt_zero]
      omega
    · omega
  simp only [clampPos]
  generalize (if iNewPos < 0 then 0 else iNewPos : Int32) = notNegative at raised ⊢
  split <;> rename_i above <;> rw [Int32.le_iff_toInt_le, size, raised] at above
  · rw [last]
    omega
  · rw [raised]
    omega

theorem CMemStream.newPos_inside {uiSize uiCurPos : UInt32} {iOfs : Int32}
    (small : uiSize.toNat < 2 ^ 31) (nonneg : 0 ≤ iOfs.toInt) (inside : iOfs.toInt < uiSize.toNat) :
    newPos uiSize uiCurPos iOfs seekSet = iOfs := by
  apply Int32.toInt_inj.mp
  rw [newPos, clampPos_toInt (by omega) small, requestedPos, if_pos rfl]
  omega

theorem CMemStream.copySize_toNat (s : CMemStream) (uiSize : UInt32)
    (position : s.uiCurPos.toNat ≤ s.uiSize.toNat)
    (exact : s.uiCurPos.toNat + uiSize.toNat < 2 ^ 32) :
    (s.copySize uiSize).toNat = min uiSize.toNat (s.uiSize.toNat - s.uiCurPos.toNat) := by
  have sum : (s.uiCurPos + uiSize).toNat = s.uiCurPos.toNat + uiSize.toNat := by
    rw [UInt32.toNat_add, Nat.mod_eq_of_lt exact]
  have rest : (s.uiSize - s.uiCurPos).toNat = s.uiSize.toNat - s.uiCurPos.toNat :=
    UInt32.toNat_sub_of_le _ _ (UInt32.le_iff_toNat_le.mpr position)
  rw [copySize]
  split
  · rename_i clamped
    rw [UInt32.le_iff_toNat_le, sum] at clamped
    rw [rest]
    omega
  · rename_i inside
    rw [UInt32.le_iff_toNat_le, sum] at inside
    omega

theorem CMemStream.read_wild {s : CMemStream} {bytes : List UInt8} {n : UInt32}
    (bound : s.pMem = some bytes) (wild : bytes.length < s.uiCurPos.toNat ∨
      2 ^ 32 ≤ s.uiCurPos.toNat + n.toNat) :
    bytes.length < s.uiCurPos.toNat + (s.copySize n).toNat := by
  have length := s.sized bytes bound
  have total := s.uiSize.toNat_lt
  have position := s.uiCurPos.toNat_lt
  have wanted := n.toNat_lt
  rw [CMemStream.copySize]
  split
  · rename_i clamped
    rw [UInt32.le_iff_toNat_le, UInt32.toNat_add] at clamped
    omega
  · omega

namespace BaseStream

/-- An open stream over `bytes`, `pos` bytes in. -/
def At (bytes : List UInt8) (pos : Nat) : BaseStream → Prop
  | .mem s => s.pMem = some bytes ∧ s.uiCurPos.toNat = pos
  | .file s => s.pFile = some (bytes, pos)

variable {s : BaseStream} {bytes : List UInt8} {pos : Nat}

theorem At.sameImage (h : s.At bytes pos) : SameImage s s := by
  cases s with
  | mem s =>
    obtain ⟨pMem, uiSize, uiCurPos, sized⟩ := s
    obtain ⟨rfl, -⟩ := h
    exact .mem _ _ _ _ _
  | file s =>
    obtain ⟨pFile⟩ := s
    obtain rfl : pFile = some (bytes, pos) := h
    exact .file _ _ _

theorem At.pos_eq {bytes' : List UInt8} {pos' : Nat} (h : s.At bytes pos) (h' : s.At bytes' pos') :
    pos = pos' := by
  cases s with
  | mem s => exact h.2.symm.trans h'.2
  | file s => exact (Prod.mk.inj (Option.some.inj (Eq.trans (Eq.symm h) h'))).2

/-- Every position can be sought: `Seek` of a `CMemStream` takes its size for an `int32_t`. -/
def Seeks : BaseStream → Prop
  | .mem s => s.uiSize.toNat < 2 ^ 31
  | .file _ => True

theorem At.seeks (h : s.At bytes pos) (small : bytes.length < 2 ^ 31) : s.Seeks := by
  cases s with
  | mem s =>
    have length := s.sized bytes h.1
    rw [Seeks]
    omega
  | file s => trivial

theorem At.sought (h : s.At bytes pos) (seeks : s.Seeks) (iOfs : Int32)
    (nonneg : 0 ≤ iOfs.toInt) (inside : iOfs.toInt < bytes.length) :
    (s.seekTo iOfs).At bytes iOfs.toInt.toNat := by
  cases s with
  | mem s =>
    obtain ⟨pMem, uiSize, uiCurPos, sized⟩ := s
    obtain ⟨rfl, -⟩ := h
    have length := sized bytes rfl
    refine ⟨rfl, ?_⟩
    show (CMemStream.newPos uiSize uiCurPos iOfs seekSet).toUInt32.toNat = _
    have inside' : iOfs.toInt < uiSize.toNat := length ▸ inside
    rw [CMemStream.newPos_inside seeks nonneg inside']
    have value := toNat_toUInt32 nonneg
    omega
  | file s =>
    obtain ⟨pFile⟩ := s
    obtain rfl : pFile = some (bytes, pos) := h
    have forward : ¬ iOfs.toInt < 0 := by omega
    simp [BaseStream.seekTo, seek, CFileStream.seek, CFileStream.target, forward, At]

theorem At.seekTo (h : s.At bytes pos) (small : bytes.length < 2 ^ 31) (iOfs : Int32)
    (nonneg : 0 ≤ iOfs.toInt) (inside : iOfs.toInt < bytes.length) :
    (s.seekTo iOfs).At bytes iOfs.toInt.toNat :=
  h.sought (h.seeks small) iOfs nonneg inside

theorem At.seekTo_end (h : s.At bytes pos) (small : bytes.length < 2 ^ 31)
    (nonempty : 0 < bytes.length) (iOfs : Int32) (last : iOfs.toInt = bytes.length) :
    ∃ pos', (s.seekTo iOfs).At bytes pos' ∧ pos' ≤ bytes.length ∧ bytes.length ≤ pos' + 1 := by
  cases s with
  | mem s =>
    obtain ⟨pMem, uiSize, uiCurPos, sized⟩ := s
    obtain ⟨rfl, -⟩ := h
    have length := sized bytes rfl
    have clamped : (CMemStream.newPos uiSize uiCurPos iOfs seekSet).toInt = bytes.length - 1 := by
      rw [CMemStream.newPos, CMemStream.clampPos_toInt (by omega) (by omega), CMemStream.requestedPos,
        if_pos rfl]
      omega
    have value := toNat_toUInt32 (i := CMemStream.newPos uiSize uiCurPos iOfs seekSet) (by omega)
    refine ⟨(CMemStream.newPos uiSize uiCurPos iOfs seekSet).toUInt32.toNat, ⟨rfl, rfl⟩, ?_⟩
    omega
  | file s =>
    obtain ⟨pFile⟩ := s
    obtain rfl : pFile = some (bytes, pos) := h
    have forward : ¬ (bytes.length : Int) < 0 := by omega
    refine ⟨bytes.length, ?_, Nat.le_refl _, Nat.le_succ _⟩
    simp [BaseStream.seekTo, seek, CFileStream.seek, CFileStream.target, forward, At, last]

theorem At.read_bytes (h : s.At bytes pos) (position : pos ≤ bytes.length) (beyond : Nat → UInt8)
    (uiSize : UInt32) (exact : pos + uiSize.toNat < 2 ^ 32) :
    (s.read beyond uiSize).1.bytes = (bytes.drop pos).take uiSize.toNat := by
  cases s with
  | mem s =>
    obtain ⟨pMem, size, uiCurPos, sized⟩ := s
    obtain ⟨rfl, rfl⟩ := h
    have length := sized bytes rfl
    change uiCurPos.toNat ≤ _ at position
    change uiCurPos.toNat + _ < _ at exact
    have copied := CMemStream.copySize_toNat ⟨some bytes, size, uiCurPos, sized⟩ uiSize
      (by simp only; omega) exact
    simp only at copied
    simp only [BaseStream.read, CMemStream.read]
    rw [copied, fetch_inside (by omega)]
    exact List.take_eq_take_iff.mpr (by rw [List.length_drop]; omega)
  | file s =>
    obtain ⟨pFile⟩ := s
    obtain rfl : pFile = some (bytes, pos) := h
    rfl

theorem At.read (h : s.At bytes pos) (beyond : Nat → UInt8)
    (uiSize : UInt32) (inside : pos + uiSize.toNat ≤ bytes.length) :
    (s.read beyond uiSize).1.bytes = (bytes.drop pos).take uiSize.toNat ∧
      (s.read beyond uiSize).1.within = true ∧
      (s.read beyond uiSize).2.At bytes (pos + uiSize.toNat) := by
  cases s with
  | mem s =>
    obtain ⟨pMem, size, uiCurPos, sized⟩ := s
    obtain ⟨rfl, rfl⟩ := h
    have length := sized bytes rfl
    have total := size.toNat_lt
    change uiCurPos.toNat + _ ≤ _ at inside
    have copied := CMemStream.copySize_toNat ⟨some bytes, size, uiCurPos, sized⟩ uiSize
      (by simp only; omega) (by simp only; omega)
    simp only at copied
    rw [Nat.min_eq_left (by omega)] at copied
    refine ⟨?_, ?_, rfl, ?_⟩
    · simp only [BaseStream.read, CMemStream.read]
      rw [copied, fetch_inside inside]
    · simp only [BaseStream.read, CMemStream.read]
      rw [copied]
      exact decide_eq_true inside
    · show (uiCurPos + _).toNat = _
      rw [UInt32.toNat_add, copied, Nat.mod_eq_of_lt (by omega)]
  | file s =>
    obtain ⟨pFile⟩ := s
    obtain rfl : pFile = some (bytes, pos) := h
    have full : ((bytes.drop pos).take uiSize.toNat).length = uiSize.toNat := by
      rw [List.length_take, List.length_drop]
      omega
    refine ⟨rfl, rfl, ?_⟩
    show some (bytes, pos + ((bytes.drop pos).take uiSize.toNat).length) = _
    rw [full]

/-! ### Reading anywhere -/

/-- The reads of `n` bytes that stay in the memory behind the stream. -/
def Room (n : UInt32) : BaseStream → Prop
  | .mem s => ∀ bytes ∈ s.pMem,
    s.uiCurPos.toNat ≤ bytes.length ∧ s.uiCurPos.toNat + n.toNat < 2 ^ 32
  | .file _ => True

/-- The reads of `n` bytes that the image serves in full. -/
def Serves (n : UInt32) : BaseStream → Prop
  | .mem s => match s.pMem with
    | none => n = 0
    | some bytes => s.uiCurPos.toNat + n.toNat ≤ bytes.length
  | .file s => match s.pFile with
    | none => n = 0
    | some (bytes, pos) => n = 0 ∨ pos + n.toNat ≤ bytes.length

/-- What a read delivers is in the memory behind the stream and no more than was asked for. -/
theorem room_of_within {s : BaseStream} {beyond : Nat → UInt8} {n : UInt32}
    (inside : (s.read beyond n).1.within = true) : s.Room n := by
  cases s with
  | mem s =>
    obtain ⟨pMem, size, pos, sized⟩ := s
    rintro bytes rfl
    have inside : pos.toNat + (CMemStream.copySize ⟨some bytes, size, pos, sized⟩ n).toNat ≤ bytes.length :=
      of_decide_eq_true inside
    have length := sized bytes rfl
    by_contra wild
    have outside := CMemStream.read_wild (s := ⟨some bytes, size, pos, sized⟩) (n := n) rfl (by
      simp only at wild ⊢
      omega)
    simp only at outside
    omega
  | file s => trivial

theorem read_inside_iff (s : BaseStream) (beyond : Nat → UInt8) (n : UInt32) :
    ((s.read beyond n).1.within = true ∧ (s.read beyond n).1.bytes.length ≤ n.toNat) ↔ s.Room n := by
  refine ⟨fun inside => room_of_within inside.1, fun room => ?_⟩
  cases s with
  | mem s =>
    obtain ⟨pMem, size, pos, sized⟩ := s
    cases pMem with
    | none => exact ⟨rfl, Nat.zero_le _⟩
    | some bytes =>
      obtain ⟨position, exact⟩ := room bytes rfl
      have length := sized bytes rfl
      simp only at position exact
      have copied := CMemStream.copySize_toNat ⟨some bytes, size, pos, sized⟩ n
        (by simp only; omega) exact
      simp only at copied
      simp only [read, CMemStream.read, length_fetch, decide_eq_true_eq]
      omega
  | file s =>
    obtain ⟨pFile⟩ := s
    cases pFile with
    | none => exact ⟨rfl, Nat.zero_le _⟩
    | some p =>
      simp only [read, CFileStream.read, List.length_take, true_and]
      exact Nat.min_le_left _ _

/-- Inside the image, what lies behind it does not matter. -/
theorem read_room {s : BaseStream} {n : UInt32} (room : s.Room n) (f g : Nat → UInt8) :
    (s.read f n).1.bytes = (s.read g n).1.bytes := by
  have inside := ((read_inside_iff s f n).mpr room).1
  cases s with
  | mem s =>
    obtain ⟨pMem, size, pos, sized⟩ := s
    cases pMem with
    | none => rfl
    | some bytes =>
      have inside := of_decide_eq_true inside
      simp only [read, CMemStream.read]
      rw [fetch_inside inside, fetch_inside inside]
  | file s => rfl

theorem read_full_iff (s : BaseStream) (beyond : Nat → UInt8) (n : UInt32) :
    ((s.read beyond n).1.bytes.length = n.toNat ∧ (s.read beyond n).1.within = true) ↔ s.Serves n := by
  cases s with
  | mem s =>
    obtain ⟨pMem, size, pos, sized⟩ := s
    cases pMem with
    | none =>
      simp only [read, CMemStream.read, Serves, List.length_nil, and_true, ← UInt32.toNat_inj]
      exact eq_comm
    | some bytes =>
      have length := sized bytes rfl
      have total := size.toNat_lt
      simp only [read, CMemStream.read, Serves, length_fetch, decide_eq_true_eq]
      by_cases wild : bytes.length < pos.toNat ∨ 2 ^ 32 ≤ pos.toNat + n.toNat
      · have outside := CMemStream.read_wild (s := ⟨some bytes, size, pos, sized⟩) (n := n) rfl wild
        simp only at outside
        omega
      · have copied := CMemStream.copySize_toNat ⟨some bytes, size, pos, sized⟩ n
          (by simp only; omega) (by simp only; omega)
        simp only at copied
        omega
  | file s =>
    obtain ⟨pFile⟩ := s
    cases pFile with
    | none =>
      simp only [read, CFileStream.read, Serves, List.length_nil, and_true, ← UInt32.toNat_inj]
      exact eq_comm
    | some p =>
      have zero : n = 0 ↔ n.toNat = 0 := UInt32.toNat_inj.symm
      simp only [read, CFileStream.read, Serves, List.length_take, List.length_drop, and_true, zero]
      omega

theorem read_served {s : BaseStream} {n : UInt32} (served : s.Serves n) (f g : Nat → UInt8) :
    (s.read f n).1.bytes = (s.read g n).1.bytes :=
  read_room (room_of_within ((read_full_iff s f n).mpr served).2) f g

theorem At.serves_iff (h : s.At bytes pos) (position : pos ≤ bytes.length) {n : UInt32} :
    s.Serves n ↔ pos + n.toNat ≤ bytes.length := by
  cases s with
  | mem s =>
    obtain ⟨pMem, size, uiCurPos, sized⟩ := s
    obtain ⟨rfl, rfl⟩ := h
    rfl
  | file s =>
    obtain ⟨pFile⟩ := s
    obtain rfl : pFile = some (bytes, pos) := h
    have zero : n = 0 ↔ n.toNat = 0 := UInt32.toNat_inj.symm
    simp only [Serves, zero]
    omega

/-- Behind a link, two bytes or more are there only in front of the end of an image that can be sought. -/
theorem At.seek_serves_iff (h : s.At bytes pos) {iOfs : Int32} {n : UInt32} (positive : 0 < iOfs)
    (wanted : 2 ≤ n.toNat) :
    (s.seekTo iOfs).Serves n ↔ s.Seeks ∧ iOfs.toInt.toNat + n.toNat ≤ bytes.length := by
  rw [int32_pos_iff] at positive
  by_cases inside : s.Seeks ∧ iOfs.toInt < bytes.length
  · rw [(h.sought inside.1 iOfs (by omega) inside.2).serves_iff (by omega), and_iff_right inside.1]
  · refine iff_of_false ?_ fun whole => inside ⟨whole.1, by omega⟩
    cases s with
    | mem s =>
      obtain ⟨pMem, size, uiCurPos, sized⟩ := s
      obtain ⟨rfl, -⟩ := h
      have length := sized bytes rfl
      have total := size.toNat_lt
      have size' := toInt_toInt32 size
      have outside : ¬ (size.toNat < 2 ^ 31 ∧ iOfs.toInt < bytes.length) := inside
      have landed : CMemStream.newPos size uiCurPos iOfs seekSet = (size - 1).toInt32 := by
        have forward : ¬ iOfs < 0 := by
          rw [int32_neg_iff]
          omega
        have last : size.toInt32 ≤ iOfs := by
          rw [Int32.le_iff_toInt_le]
          split at size' <;> omega
        rw [CMemStream.newPos, CMemStream.requestedPos, if_pos rfl, CMemStream.clampPos, if_neg forward,
          if_pos last]
      intro served
      have served : (CMemStream.newPos size uiCurPos iOfs seekSet).toUInt32.toNat + n.toNat ≤
        bytes.length := served
      rw [landed, UInt32.toUInt32_toInt32, UInt32.toNat_sub] at served
      have one : (1 : UInt32).toNat = 1 := rfl
      omega
    | file s =>
      obtain ⟨pFile⟩ := s
      obtain rfl : pFile = some (bytes, pos) := h
      have forward : ¬ iOfs.toInt < 0 := by omega
      have outside : ¬ iOfs.toInt < bytes.length := fun before => inside ⟨trivial, before⟩
      have zero : n = 0 ↔ n.toNat = 0 := UInt32.toNat_inj.symm
      simp only [BaseStream.seekTo, seek, CFileStream.seek, CFileStream.target, if_true, forward, if_false,
        Serves, zero]
      omega

/-- The streams `Load3DScanModelFromMemory` and `Load3DScanModelFromFile` set up. -/
theorem at_bind (bytes : List UInt8) (small : bytes.length < 2 ^ 32) :
    (BaseStream.mem (.bind bytes small)).At bytes 0 := ⟨rfl, rfl⟩

theorem at_openFile (bytes : List UInt8) : (BaseStream.file (.openFile bytes)).At bytes 0 := rfl

end BaseStream
end ModelPublish.Stream
