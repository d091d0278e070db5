import ModelPublish.Stream.Streams

/-!
# Is one stream as good as the other?

The same calls on a `CMemStream` and on a `CFileStream` over the same bytes. The classes count and
clamp differently, so they agree only on call sequences that `Aligned` describes.
-/

namespace ModelPublish.Stream
open Packed

inductive Call where
  | seek (iOfs : Int32) (uiOrig : UInt32)
  | tell
  | read (uiSize : UInt32)
  deriving DecidableEq, Repr

namespace BaseStream

/-- The value a call returns and the bytes it delivers. -/
def answer (s : BaseStream) (beyond : Nat → UInt8) : Call → UInt32 × List UInt8
  | .seek iOfs uiOrig => ((s.seek iOfs uiOrig).1, [])
  | .tell => (s.tell, [])
  | .read uiSize => ((s.read beyond uiSize).1.ret, (s.read beyond uiSize).1.bytes)

def after (s : BaseStream) (beyond : Nat → UInt8) : Call → BaseStream
  | .seek iOfs uiOrig => (s.seek iOfs uiOrig).2
  | .tell => s
  | .read uiSize => (s.read beyond uiSize).2

/-- All answers in order, and the final position. -/
def transcript (s : BaseStream) (beyond : Nat → UInt8) : List Call → List (UInt32 × List UInt8) × UInt32
  | [] => ([], s.tell)
  | c :: calls =>
    let rest := (s.after beyond c).transcript beyond calls
    (s.answer beyond c :: rest.1, rest.2)

end BaseStream

/-- Every seek, counted from the real cursor, goes to a position of the file or to its end. -/
def SeeksInside (size : Nat) : Nat → List Call → Prop
  | _, [] => True
  | pos, .tell :: calls => SeeksInside size pos calls
  | pos, .read uiSize :: calls => SeeksInside size (pos + min uiSize.toNat (size - pos)) calls
  | pos, .seek iOfs uiOrig :: calls =>
    ∃ t : Nat, CFileStream.target size pos iOfs uiOrig = some (t : Int) ∧ t ≤ size ∧
      SeeksInside size t calls

/-- The call sequences on which the classes agree. `parked` says that the last seek went to the
end, where a `CMemStream` stops one byte short. -/
def Aligned (size : Nat) : Nat → Bool → List Call → Prop
  | _, parked, [] => parked = false
  | pos, parked, .tell :: calls => parked = false ∧ Aligned size pos parked calls
  | pos, parked, .read uiSize :: calls =>
    (uiSize = 0 ∨ parked = false ∧ (uiSize = 1 ∨ pos = size ∧ pos + uiSize.toNat < 2 ^ 32)) ∧
      Aligned size (pos + min uiSize.toNat (size - pos)) parked calls
  | pos, _, .seek iOfs uiOrig :: calls =>
    ∃ t : Nat, CFileStream.target size pos iOfs uiOrig = some (t : Int) ∧ (t = 0 ∨ size = 1) ∧
      Aligned size t (decide (t = size)) calls

/-- A memory stream and a file stream that have agreed so far. -/
structure Paired (bytes : List UInt8) (pos : Nat) (parked : Bool) (s : CMemStream)
    (t : CFileStream) : Prop where
  mem : s.pMem = some bytes
  file : t.pFile = some (bytes, pos)
  inside : pos ≤ bytes.length
  cursor : s.uiCurPos.toNat = if parked then pos - 1 else pos
  single : parked = true → bytes.length = 1 ∧ pos = 1

section Steps
variable {bytes : List UInt8} {pos : Nat} {parked : Bool} {s : CMemStream} {t : CFileStream}
  (h : Paired bytes pos parked s t) (nonempty : 0 < bytes.length) (small : bytes.length < 2 ^ 31)
include h nonempty small

theorem Paired.tell_iff : s.tell = t.tell ↔ parked = false := by
  have bound : pos < 2 ^ 31 := by have := h.inside; omega
  have file : t.tell = UInt32.ofNat pos := by
    simp only [CFileStream.tell, h.file]
    exact if_pos bound
  have value : (UInt32.ofNat pos).toNat = pos :=
    UInt32.toNat_ofNat_of_lt' (Nat.lt_trans bound (by decide))
  rw [CMemStream.tell, file, ← UInt32.toNat_inj, value, h.cursor]
  cases parked with
  | false => simp
  | true =>
    have := h.single rfl
    simp only [if_true, Bool.true_eq_false, iff_false]
    omega

theorem Paired.newPos {iOfs : Int32} {uiOrig : UInt32} {target : Nat}
    (aim : CFileStream.target bytes.length pos iOfs uiOrig = some (target : Int))
    (inside : target ≤ bytes.length) :
    (CMemStream.newPos s.uiSize s.uiCurPos iOfs uiOrig).toInt =
      min (target : Int) (bytes.length - 1) := by
  have length := s.sized bytes h.mem
  have cursor := h.cursor
  have bounds := h.inside
  rw [CMemStream.newPos, CMemStream.clampPos_toInt (by omega) (by omega), CMemStream.requestedPos]
  unfold CFileStream.target at aim
  split at aim
  · rename_i origin
    have aim := Option.some.inj aim
    rw [if_pos origin]
    omega
  · rename_i notSet
    rw [if_neg notSet]
    split at aim
    · rename_i origin
      have aim := Option.some.inj aim
      have notEnd : uiOrig ≠ seekEnd := by rw [origin]; decide
      rw [if_neg notEnd, if_pos origin]
      cases parked with
      | false =>
        rw [if_neg (by decide)] at cursor
        rw [toInt_add_toUInt32 (v := (target : Int)) (by omega) (by omega) (by omega)]
        omega
      | true =>
        have single := h.single rfl
        rw [if_pos rfl] at cursor
        rw [toInt_add_toUInt32 (v := (target : Int) - 1) (by omega) (by omega) (by omega)]
        omega
    · split at aim
      · rename_i origin
        have aim := Option.some.inj aim
        rw [if_pos origin, toInt_add_toUInt32 (v := (target : Int)) (by omega) (by omega) (by omega)]
        omega
      · cases aim

theorem Paired.seek_iff {iOfs : Int32} {uiOrig : UInt32} {target : Nat}
    (aim : CFileStream.target bytes.length pos iOfs uiOrig = some (target : Int))
    (inside : target ≤ bytes.length) :
    (s.seek iOfs uiOrig).1 = (t.seek iOfs uiOrig).1 ↔ target = 0 ∨ bytes.length = 1 := by
  have arrived := h.newPos nonempty small aim inside
  have value := toNat_toUInt32 (i := CMemStream.newPos s.uiSize s.uiCurPos iOfs uiOrig) (by omega)
  have forward : ¬ (target : Int) < 0 := by omega
  simp only [CMemStream.seek, CFileStream.seek, h.mem, h.file, aim, if_neg forward]
  rw [← UInt32.toNat_inj, UInt32.toNat_zero]
  omega

theorem Paired.seek {iOfs : Int32} {uiOrig : UInt32} {target : Nat}
    (aim : CFileStream.target bytes.length pos iOfs uiOrig = some (target : Int))
    (inside : target ≤ bytes.length) (same : target = 0 ∨ bytes.length = 1) :
    Paired bytes target (decide (target = bytes.length)) (s.seek iOfs uiOrig).2
      (t.seek iOfs uiOrig).2 := by
  have arrived := h.newPos nonempty small aim inside
  have value := toNat_toUInt32 (i := CMemStream.newPos s.uiSize s.uiCurPos iOfs uiOrig) (by omega)
  have forward : ¬ (target : Int) < 0 := by omega
  refine ⟨?_, ?_, inside, ?_, ?_⟩
  · simp [CMemStream.seek, h.mem]
  · simp [CFileStream.seek, h.file, aim, forward]
  · simp only [CMemStream.seek, h.mem, decide_eq_true_eq]
    split <;> omega
  · simp only [decide_eq_true_eq]
    omega

end Steps

section Reads
variable {bytes : List UInt8} {pos : Nat} {parked : Bool} {s : CMemStream} {t : CFileStream}
  (h : Paired bytes pos parked s t) (beyond : Nat → UInt8) (uiSize : UInt32)
include h

theorem Paired.read_mem (exact : s.uiCurPos.toNat + uiSize.toNat < 2 ^ 32) :
    (s.read beyond uiSize).1.ret.toNat = min uiSize.toNat (bytes.length - s.uiCurPos.toNat) ∧
      (s.read beyond uiSize).1.bytes = (bytes.drop s.uiCurPos.toNat).take uiSize.toNat ∧
      (s.read beyond uiSize).2.uiCurPos.toNat =
        s.uiCurPos.toNat + min uiSize.toNat (bytes.length - s.uiCurPos.toNat) := by
  have length := s.sized bytes h.mem
  have cursor := h.cursor
  have bounds := h.inside
  have before : s.uiCurPos.toNat ≤ pos := by split at cursor <;> omega
  have copied := s.copySize_toNat uiSize (by omega) exact
  rw [← length] at copied
  simp only [CMemStream.read, h.mem]
  refine ⟨copied, ?_, ?_⟩
  · rw [fetch_inside (by omega), copied]
    exact List.take_eq_take_iff.mpr (by rw [List.length_drop]; omega)
  · rw [UInt32.toNat_add, copied, Nat.mod_eq_of_lt (by omega)]

theorem Paired.read_mem_wrap (wrap : 2 ^ 32 ≤ s.uiCurPos.toNat + uiSize.toNat) :
    (s.read beyond uiSize).1.bytes.length = uiSize.toNat := by
  have length := s.sized bytes h.mem
  have bounds := h.inside
  have cursor := h.cursor
  have before : s.uiCurPos.toNat ≤ pos := by split at cursor <;> omega
  have bound := uiSize.toNat_lt
  have unclamped : s.copySize uiSize = uiSize := by
    rw [CMemStream.copySize]
    apply if_neg
    intro above
    rw [UInt32.le_iff_toNat_le, UInt32.toNat_add] at above
    omega
  simp only [CMemStream.read, h.mem, length_fetch, unclamped]

theorem Paired.read_file :
    (t.read uiSize).1.ret.toNat =
        (if uiSize.toNat ≠ 0 ∧ uiSize.toNat ≤ bytes.length - pos then 1 else 0) ∧
      (t.read uiSize).1.bytes = (bytes.drop pos).take uiSize.toNat ∧
      (t.read uiSize).2.pFile = some (bytes, pos + min uiSize.toNat (bytes.length - pos)) := by
  have zero : uiSize ≠ 0 ↔ uiSize.toNat ≠ 0 := by rw [ne_eq, ← UInt32.toNat_inj]; rfl
  have full : min uiSize.toNat (bytes.length - pos) = uiSize.toNat ↔
      uiSize.toNat ≤ bytes.length - pos := by omega
  simp only [CFileStream.read, h.file, List.length_take, List.length_drop, zero, full, and_true]
  split <;> rfl

theorem Paired.read_iff (small : bytes.length < 2 ^ 31) :
    ((s.read beyond uiSize).1.ret = (t.read uiSize).1.ret ∧
        (s.read beyond uiSize).1.bytes = (t.read uiSize).1.bytes) ↔
      (uiSize = 0 ∨
        parked = false ∧ (uiSize = 1 ∨ pos = bytes.length ∧ pos + uiSize.toNat < 2 ^ 32)) := by
  have cursor := h.cursor
  have bounds := h.inside
  obtain ⟨fileRet, fileBytes, -⟩ := h.read_file uiSize
  have zero : uiSize = 0 ↔ uiSize.toNat = 0 := by rw [← UInt32.toNat_inj]; rfl
  have one : uiSize = 1 ↔ uiSize.toNat = 1 := by rw [← UInt32.toNat_inj]; rfl
  rw [← UInt32.toNat_inj, fileRet, fileBytes, zero, one]
  cases parked with
  | true =>
    obtain ⟨single, last⟩ := h.single rfl
    rw [if_pos rfl] at cursor
    obtain ⟨memRet, memBytes, -⟩ := h.read_mem beyond uiSize (by have := uiSize.toNat_lt; omega)
    rw [memRet, memBytes]
    constructor
    · rintro ⟨-, same⟩
      have count := congrArg List.length same
      simp only [List.length_take, List.length_drop] at count
      omega
    · rintro (none | ⟨impossible, -⟩)
      · simp [none]
      · cases impossible
  | false =>
    rw [if_neg (by decide)] at cursor
    by_cases exact : s.uiCurPos.toNat + uiSize.toNat < 2 ^ 32
    · obtain ⟨memRet, memBytes, -⟩ := h.read_mem beyond uiSize exact
      rw [memRet, memBytes, cursor]
      by_cases whole : uiSize.toNat ≠ 0 ∧ uiSize.toNat ≤ bytes.length - pos
      · simp only [if_pos whole, and_true, true_and]
        omega
      · simp only [if_neg whole, and_true, true_and]
        omega
    · have count := h.read_mem_wrap beyond uiSize (by omega)
      constructor
      · rintro ⟨-, same⟩
        rw [same, List.length_take, List.length_drop] at count
        omega
      · omega

theorem Paired.read (agreed : uiSize = 0 ∨
      parked = false ∧ (uiSize = 1 ∨ pos = bytes.length ∧ pos + uiSize.toNat < 2 ^ 32))
    (small : bytes.length < 2 ^ 31) :
    Paired bytes (pos + min uiSize.toNat (bytes.length - pos)) parked (s.read beyond uiSize).2
      (t.read uiSize).2 := by
  have cursor := h.cursor
  have bounds := h.inside
  have zero : uiSize = 0 ↔ uiSize.toNat = 0 := by rw [← UInt32.toNat_inj]; rfl
  have one : uiSize = 1 ↔ uiSize.toNat = 1 := by rw [← UInt32.toNat_inj]; rfl
  rw [zero, one] at agreed
  have before : s.uiCurPos.toNat ≤ pos := by split at cursor <;> omega
  obtain ⟨-, -, arrived⟩ := h.read_mem beyond uiSize (by omega)
  obtain ⟨-, -, file⟩ := h.read_file uiSize
  refine ⟨by simp [CMemStream.read, h.mem], file, by omega, ?_, ?_⟩
  · rw [arrived]
    cases parked with
    | true =>
      rw [if_pos rfl] at cursor ⊢
      have single := h.single rfl
      have unread : uiSize.toNat = 0 := by simpa using agreed
      omega
    | false =>
      rw [if_neg (by decide)] at cursor ⊢
      omega
  · intro still
    have := h.single still
    omega

end Reads

/-- From a paired state the classes agree on a whole sequence exactly when it is aligned. -/
theorem Paired.transcript_iff {bytes : List UInt8} {pos : Nat} {parked : Bool} {s : CMemStream}
    {t : CFileStream} (h : Paired bytes pos parked s t) (nonempty : 0 < bytes.length)
    (small : bytes.length < 2 ^ 31) (beyond : Nat → UInt8) (calls : List Call)
    (inside : SeeksInside bytes.length pos calls) :
    (BaseStream.mem s).transcript beyond calls = (BaseStream.file t).transcript beyond calls ↔
      Aligned bytes.length pos parked calls := by
  have first (c : Call) (calls : List Call) (s t : BaseStream) :
      s.transcript beyond (c :: calls) = t.transcript beyond (c :: calls) ↔
        s.answer beyond c = t.answer beyond c ∧
          (s.after beyond c).transcript beyond calls = (t.after beyond c).transcript beyond calls := by
    simp only [BaseStream.transcript, Prod.ext_iff, List.cons.injEq]
    tauto
  induction calls generalizing pos parked s t with
  | nil =>
    simp only [BaseStream.transcript, Prod.mk.injEq, true_and]
    exact h.tell_iff nonempty small
  | cons c calls ih =>
    rw [first]
    cases c with
    | tell =>
      have same : (BaseStream.mem s).answer beyond .tell = (BaseStream.file t).answer beyond .tell ↔
          parked = false := by
        simpa only [BaseStream.answer, BaseStream.tell, Prod.mk.injEq, and_true] using
          h.tell_iff nonempty small
      rw [same]
      exact and_congr_right fun _ => ih h inside
    | read uiSize =>
      have same : (BaseStream.mem s).answer beyond (.read uiSize) =
          (BaseStream.file t).answer beyond (.read uiSize) ↔ _ :=
        Prod.mk.injEq _ _ _ _ ▸ h.read_iff beyond uiSize small
      rw [same]
      exact and_congr_right fun agreed => ih (h.read beyond uiSize agreed small) inside
    | seek iOfs uiOrig =>
      obtain ⟨target, aim, bound, inside⟩ := inside
      have same : (BaseStream.mem s).answer beyond (.seek iOfs uiOrig) =
          (BaseStream.file t).answer beyond (.seek iOfs uiOrig) ↔
            target = 0 ∨ bytes.length = 1 := by
        simpa only [BaseStream.answer, BaseStream.seek, Prod.mk.injEq, and_true] using
          h.seek_iff nonempty small aim bound
      rw [same]
      constructor
      · rintro ⟨start, rest⟩
        exact ⟨target, aim, start, (ih (h.seek nonempty small aim bound start) inside).mp rest⟩
      · rintro ⟨other, aim', start, rest⟩
        obtain rfl : other = target := by
          rw [aim] at aim'
          exact Int.ofNat_inj.mp (Option.some.inj aim').symm
        exact ⟨start, (ih (h.seek nonempty small aim bound start) inside).mpr rest⟩

/-- A `CMemStream` bound to `bytes` and a `CFileStream` opened on a file of `bytes` answer a call
sequence alike, and end at the same position, exactly when the sequence is aligned. -/
theorem mem_file_transcript_iff (bytes : List UInt8) (nonempty : 0 < bytes.length)
    (small : bytes.length < 2 ^ 31) (beyond : Nat → UInt8) (calls : List Call)
    (inside : SeeksInside bytes.length 0 calls) :
    (BaseStream.mem (.bind bytes (Nat.lt_trans small (by decide)))).transcript beyond calls =
        (BaseStream.file (.openFile bytes)).transcript beyond calls ↔
      Aligned bytes.length 0 false calls := by
  have start : Paired bytes 0 false (.bind bytes (Nat.lt_trans small (by decide)))
      (.openFile bytes) := ⟨rfl, rfl, Nat.zero_le _, rfl, fun parked => by cases parked⟩
  exact start.transcript_iff nonempty small beyond calls inside

theorem mem_file_transcript_single :
    (BaseStream.mem (.bind [7] (by decide))).transcript (fun _ => 0)
        [.read 1, .read 1, .seek 0 seekSet, .tell, .read 1] =
      (BaseStream.file (.openFile [7])).transcript (fun _ => 0)
        [.read 1, .read 1, .seek 0 seekSet, .tell, .read 1] :=
  (mem_file_transcript_iff [7] (by decide) (by decide) (fun _ => 0)
    [.read 1, .read 1, .seek 0 seekSet, .tell, .read 1]
    ⟨0, by decide, by decide, trivial⟩).mpr (by
      refine ⟨by decide, by decide, 0, by decide, by decide, ?_⟩
      exact ⟨by decide, by decide, rfl⟩)

/-- Two bytes read at once: `Read` counts 2 bytes on one side and 1 item on the other. A seek to
position 1 returns 1 and 0. -/
theorem mem_file_transcript_differ :
    SeeksInside 2 0 [.read 2] ∧ SeeksInside 2 0 [.seek 1 seekSet] ∧
      (BaseStream.mem (.bind [1, 2] (by decide))).transcript (fun _ => 0) [.read 2] ≠
        (BaseStream.file (.openFile [1, 2])).transcript (fun _ => 0) [.read 2] ∧
      (BaseStream.mem (.bind [1, 2] (by decide))).transcript (fun _ => 0) [.seek 1 seekSet] ≠
        (BaseStream.file (.openFile [1, 2])).transcript (fun _ => 0) [.seek 1 seekSet] :=
  ⟨trivial, ⟨1, by decide, by decide, trivial⟩, by decide, by decide⟩

end ModelPublish.Stream
