import ModelPublish.Stream.Streams

/-!
# Inside the buffer

Any calls of a `CMemStream`, one after the other. Its position leaves the buffer, or a copy does, exactly when an
empty buffer is sought in, or when the end of a copy is past the last position that 32 bits hold.
-/

namespace ModelPublish.Stream
open Packed

namespace CMemStream

/-- `pBuf` is what the caller's memory holds. Of what is copied past the end only the buffer's part is kept here. -/
def write (s : CMemStream) (pBuf : Nat → UInt8) (uiSize : UInt32) : Transfer × CMemStream :=
  match found : s.pMem with
  | none => (⟨0, [], true⟩, s)
  | some bytes =>
    let size := s.copySize uiSize
    let copied := cells pBuf size.toNat
    let front := bytes.take s.uiCurPos.toNat
    (⟨size, copied, decide (s.uiCurPos.toNat + size.toNat ≤ bytes.length)⟩,
      { pMem := some (front ++ overlay (bytes.drop s.uiCurPos.toNat) copied)
        uiSize := s.uiSize
        uiCurPos := s.uiCurPos + size
        sized := by
          intro bytes' same
          have whole := congrArg List.length (List.take_append_drop s.uiCurPos.toNat bytes)
          rw [← Option.mem_some_iff.mp same, List.length_append, length_overlay, ← s.sized bytes found, ← whole,
            List.length_append] })

end CMemStream

/-- Memory of a size that `Bind` can be told. -/
structure Block where
  bytes : List UInt8
  small : bytes.length < 2 ^ 32

/-- A call with its arguments, and what it finds in memory that is not the stream's. -/
inductive CMemStream.Call where
  | bind (pMem : Option Block)
  | seek (iOfs : Int32) (uiOrig : UInt32)
  | read (hasBuf : Bool) (beyond : Nat → UInt8) (uiSize : UInt32)
  | write (pBuf : Option (Nat → UInt8)) (uiSize : UInt32)

namespace CMemStream.Call

/-- What a call copies, if it is one that copies, and what it makes of the stream. -/
def call (s : CMemStream) : CMemStream.Call → Option Transfer × CMemStream
  | bind none => (none, s)
  | bind (some block) => (none, .bind block.bytes block.small)
  | seek iOfs uiOrig => (none, (s.seek iOfs uiOrig).2)
  | read false _ _ => (some ⟨0, [], true⟩, s)
  | read true beyond uiSize => ((s.read beyond uiSize).map some id)
  | write none _ => (some ⟨0, [], true⟩, s)
  | write (some pBuf) uiSize => ((s.write pBuf uiSize).map some id)

def run (s : CMemStream) (calls : List CMemStream.Call) : CMemStream := calls.foldl (fun s c => (c.call s).2) s

end CMemStream.Call

/-- The position is one of the buffer, or its end. -/
def CMemStream.Inside (s : CMemStream) : Prop := s.uiCurPos ≤ s.uiSize

instance (s : CMemStream) : Decidable s.Inside := inferInstanceAs (Decidable (_ ≤ _))

/-- What is copied lies between the old position and the end of the buffer, and the position moves on by it. -/
structure Copied (s s' : CMemStream) (t : Transfer) : Prop where
  fits : s.uiCurPos.toNat + t.bytes.length ≤ s.uiSize.toNat
  advance : s'.uiCurPos.toNat = s.uiCurPos.toNat + t.bytes.length
  ret : t.ret.toNat = t.bytes.length

/-- A call that leaves the position inside the buffer and copies nothing from or to elsewhere. -/
structure CMemStream.Call.Safe (s : CMemStream) (c : CMemStream.Call) : Prop where
  inside : (c.call s).2.Inside
  copied : ∀ t ∈ (c.call s).1, Copied s (c.call s).2 t

/-- An empty buffer has no last byte to seek to, and the end of a copy must be a 32-bit number. -/
def CMemStream.Call.Bounded (s : CMemStream) : CMemStream.Call → Prop
  | bind _ => True
  | seek _ _ => s.pMem.isSome → s.uiSize ≠ 0
  | read hasBuf _ uiSize => s.pMem.isSome → hasBuf = true → s.uiCurPos.toNat + uiSize.toNat < 2 ^ 32
  | write pBuf uiSize => s.pMem.isSome → pBuf.isSome → s.uiCurPos.toNat + uiSize.toNat < 2 ^ 32

section Steps
variable {s : CMemStream}

theorem CMemStream.inside_iff : s.Inside ↔ s.uiCurPos.toNat ≤ s.uiSize.toNat := UInt32.le_iff_toNat_le

theorem raised_nonneg (iNewPos : Int32) : 0 ≤ (if iNewPos < 0 then 0 else iNewPos : Int32).toInt := by
  split
  · exact Int.le_refl 0
  · rename_i sign
    rw [int32_neg_iff] at sign
    omega

theorem CMemStream.clampPos_large {uiSize : UInt32} (large : 2 ^ 31 ≤ uiSize.toNat) (iNewPos : Int32) :
    clampPos uiSize iNewPos = (uiSize - 1).toInt32 := by
  have size : uiSize.toInt32.toInt < 0 := by
    have total := uiSize.toNat_lt
    rw [toInt_toInt32, if_neg (by omega)]
    omega
  have raised := raised_nonneg iNewPos
  unfold clampPos
  dsimp only
  rw [if_pos]
  rw [Int32.le_iff_toInt_le]
  omega

theorem CMemStream.clampPos_empty (iNewPos : Int32) : clampPos 0 iNewPos = -1 := by
  unfold clampPos
  dsimp only
  rw [if_pos]
  · rfl
  · rw [Int32.le_iff_toInt_le]
    exact raised_nonneg iNewPos

theorem CMemStream.clampPos_inside_iff (uiSize : UInt32) (iNewPos : Int32) :
    (clampPos uiSize iNewPos).toUInt32 ≤ uiSize ↔ uiSize ≠ 0 := by
  rw [UInt32.le_iff_toNat_le]
  by_cases empty : uiSize = 0
  · rw [empty, clampPos_empty]
    exact iff_of_false (by decide) (not_not_intro rfl)
  · have nonempty : 0 < uiSize.toNat := by
      apply Nat.pos_of_ne_zero
      intro zero
      exact empty (UInt32.toNat_inj.mp zero)
    refine iff_of_true ?_ empty
    by_cases small : uiSize.toNat < 2 ^ 31
    · have value := clampPos_toInt nonempty small iNewPos
      have position := toNat_toUInt32 (i := clampPos uiSize iNewPos) (by omega)
      omega
    · have one : (1 : UInt32).toNat = 1 := rfl
      rw [clampPos_large (Nat.le_of_not_lt small), UInt32.toUInt32_toInt32,
        UInt32.toNat_sub_of_le _ _ (UInt32.le_iff_toNat_le.mpr (by rw [one]; exact nonempty))]
      exact Nat.sub_le _ _

theorem CMemStream.copySize_inside_iff (inside : s.Inside) (bound : s.pMem.isSome) (n : UInt32) :
    s.uiCurPos.toNat + (s.copySize n).toNat ≤ s.uiSize.toNat ↔ s.uiCurPos.toNat + n.toNat < 2 ^ 32 := by
  obtain ⟨bytes, mem⟩ := Option.isSome_iff_exists.mp bound
  have length := s.sized bytes mem
  rw [inside_iff] at inside
  constructor
  · intro fits
    by_contra wraps
    have wild := read_wild mem (n := n) (.inr (Nat.le_of_not_lt wraps))
    omega
  · intro exact
    rw [copySize_toNat s n inside exact]
    omega

theorem copied_iff (inside : s.Inside) (bound : s.pMem.isSome) {n : UInt32} {s' : CMemStream} {t : Transfer}
    (size : s'.uiSize = s.uiSize) (position : s'.uiCurPos = s.uiCurPos + s.copySize n) (ret : t.ret = s.copySize n)
    (bytes : t.bytes.length = (s.copySize n).toNat) :
    s'.Inside ∧ Copied s s' t ↔ s.uiCurPos.toNat + n.toNat < 2 ^ 32 := by
  rw [← CMemStream.copySize_inside_iff inside bound]
  constructor
  · rintro ⟨-, copied⟩
    rw [← bytes]
    exact copied.fits
  · intro fits
    have total := s.uiSize.toNat_lt
    have sum : s'.uiCurPos.toNat = s.uiCurPos.toNat + (s.copySize n).toNat := by
      rw [position, UInt32.toNat_add, Nat.mod_eq_of_lt (by omega)]
    refine ⟨?_, ?_, ?_, ?_⟩
    · rw [CMemStream.inside_iff, size, sum]
      exact fits
    · rw [bytes]
      exact fits
    · rw [sum, bytes]
    · rw [ret, bytes]

theorem safe_of_still {c : CMemStream.Call} (inside : s.Inside) (still : (c.call s).2 = s)
    (copied : ∀ t ∈ (c.call s).1, t.ret = 0 ∧ t.bytes = []) : c.Safe s := by
  refine ⟨by rw [still]; exact inside, ?_⟩
  intro t member
  obtain ⟨ret, nothing⟩ := copied t member
  rw [still]
  refine ⟨?_, ?_, ?_⟩
  · rw [nothing]
    exact CMemStream.inside_iff.mp inside
  · rw [nothing]
    rfl
  · rw [ret, nothing]
    rfl

theorem safe_iff_copied {c : CMemStream.Call} {t : Transfer} (copies : (c.call s).1 = some t) :
    c.Safe s ↔ (c.call s).2.Inside ∧ Copied s (c.call s).2 t := by
  constructor
  · intro safe
    exact ⟨safe.inside, safe.copied t copies⟩
  · rintro ⟨inside, copied⟩
    refine ⟨inside, fun t' member => ?_⟩
    rw [copies] at member
    cases member
    exact copied

theorem CMemStream.Call.safe_iff_bounded (inside : s.Inside) (c : CMemStream.Call) : c.Safe s ↔ c.Bounded s := by
  obtain ⟨pMem, uiSize, uiCurPos, sized⟩ := s
  cases c with
  | bind pMem =>
    refine iff_of_true ?_ trivial
    cases pMem with
    | none => exact safe_of_still inside rfl nofun
    | some block => exact ⟨UInt32.le_iff_toNat_le.mpr (Nat.zero_le _), nofun⟩
  | seek iOfs uiOrig =>
    cases pMem with
    | none => exact iff_of_true (safe_of_still inside rfl nofun) nofun
    | some bytes =>
      refine Iff.trans ⟨fun safe => safe.inside, fun h => ⟨h, nofun⟩⟩ ?_
      apply (CMemStream.clampPos_inside_iff uiSize _).trans
      exact ⟨fun nonempty _ => nonempty, fun h => h rfl⟩
  | read hasBuf beyond n =>
    cases hasBuf with
    | false =>
      refine iff_of_true (safe_of_still inside rfl ?_) fun _ => nofun
      rintro t ⟨⟩
      exact ⟨rfl, rfl⟩
    | true =>
      cases pMem with
      | none =>
        refine iff_of_true (safe_of_still inside rfl ?_) nofun
        rintro t ⟨⟩
        exact ⟨rfl, rfl⟩
      | some bytes =>
        have copies : (call ⟨some bytes, uiSize, uiCurPos, sized⟩ (read true beyond n)).1 = some _ := rfl
        apply (safe_iff_copied copies).trans
        refine Iff.trans (copied_iff inside rfl rfl rfl rfl ?_) ?_
        · exact length_fetch ..
        exact ⟨fun exact _ _ => exact, fun h => h rfl rfl⟩
  | write pBuf n =>
    cases pBuf with
    | none =>
      refine iff_of_true (safe_of_still inside rfl ?_) fun _ => nofun
      rintro t ⟨⟩
      exact ⟨rfl, rfl⟩
    | some pBuf =>
      cases pMem with
      | none =>
        refine iff_of_true (safe_of_still inside rfl ?_) nofun
        rintro t ⟨⟩
        exact ⟨rfl, rfl⟩
      | some bytes =>
        have copies : (call ⟨some bytes, uiSize, uiCurPos, sized⟩ (write (some pBuf) n)).1 = some _ := rfl
        apply (safe_iff_copied copies).trans
        refine Iff.trans (copied_iff inside rfl rfl rfl rfl ?_) ?_
        · exact length_cells ..
        exact ⟨fun exact _ _ => exact, fun h => h rfl rfl⟩

end Steps

/-- A property of each call of a run, and of the state in which it is made. -/
def Throughout (P : CMemStream → CMemStream.Call → Prop) (s : CMemStream) (calls : List CMemStream.Call) : Prop :=
  ∀ before c after, calls = before ++ c :: after → P (CMemStream.Call.run s before) c

theorem throughout_nil (P : CMemStream → CMemStream.Call → Prop) (s : CMemStream) : Throughout P s [] := by
  intro before c after same
  cases before <;> cases same

theorem throughout_cons {P : CMemStream → CMemStream.Call → Prop} {s : CMemStream} {c : CMemStream.Call}
    {calls : List CMemStream.Call} :
    Throughout P s (c :: calls) ↔ P s c ∧ Throughout P (c.call s).2 calls := by
  constructor
  · intro h
    refine ⟨h [] c calls rfl, ?_⟩
    intro before c' after same
    exact h (c :: before) c' after (congrArg (c :: ·) same)
  · rintro ⟨first, rest⟩ before c' after same
    cases before with
    | nil =>
      cases same
      exact first
    | cons b before =>
      cases same
      exact rest before c' after rfl

/-- Every call of a run is safe exactly when each is bounded in the state that it finds. -/
theorem safe_throughout_iff {s : CMemStream} (inside : s.Inside) (calls : List CMemStream.Call) :
    Throughout (fun s c => c.Safe s) s calls ↔ Throughout (fun s c => c.Bounded s) s calls := by
  induction calls generalizing s with
  | nil => exact iff_of_true (throughout_nil _ s) (throughout_nil _ s)
  | cons c calls ih =>
    rw [throughout_cons, throughout_cons, c.safe_iff_bounded inside]
    constructor
    · rintro ⟨bounded, rest⟩
      exact ⟨bounded, (ih ((c.safe_iff_bounded inside).mpr bounded).inside).mp rest⟩
    · rintro ⟨bounded, rest⟩
      exact ⟨bounded, (ih ((c.safe_iff_bounded inside).mpr bounded).inside).mpr rest⟩

/-- The same from the constructor on. -/
theorem calls_safe_iff (calls : List CMemStream.Call) : Throughout (fun s c => c.Safe s) .closed calls ↔
    Throughout (fun s c => c.Bounded s) .closed calls :=
  safe_throughout_iff (s := .closed) (UInt32.le_refl 0) calls

/-- A seek to the start of an empty buffer. -/
theorem seek_in_empty_unsafe :
    ¬ Throughout (fun s c => c.Safe s) .closed [.bind (some ⟨[], by decide⟩), .seek 0 seekSet] := by
  intro safe
  have inside := (safe [.bind (some ⟨[], by decide⟩)] (.seek 0 seekSet) [] rfl).inside
  exact absurd inside (by decide)

/-- A read of 2^32 - 1 bytes, one byte into a buffer of two. -/
example : ¬ Throughout (fun s c => c.Safe s) .closed
    [.bind (some ⟨[0, 0], by decide⟩), .seek 1 seekSet, .read true (fun _ => 0) 4294967295] := by
  rw [calls_safe_iff]
  intro bounded
  exact absurd (bounded [_, _] _ [] rfl rfl rfl) (by decide)

end ModelPublish.Stream
