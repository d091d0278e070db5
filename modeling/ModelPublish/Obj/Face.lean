import ModelPublish.Text.Scan

/-!
# Face statements

How `LoadObj2` reads a line that begins with `f`: one scanner counts the vertices and looks at the
first of them, another walks the line and reads the indices.
-/

namespace ModelPublish.Obj
open Text

def lineBuffSize : Nat := 4096

def isCharNumber (c : UInt8) : Bool := 48 ≤ c && c ≤ 57

/-- The character under a pointer into a string that ends in a NUL. -/
def at0 (s : Chars) : UInt8 := s.headD 0

def countNumbers (s : Chars) : Nat := (s.takeWhile isCharNumber).length

/-- `hasTexCoords` and `hasNormals`. -/
structure Components where
  hasTexCoords : Bool
  hasNormals : Bool
  deriving DecidableEq

def inspectVertexDefinition (sVertexDef : Chars) : Components :=
  let len := countNumbers sVertexDef
  if len = 0 then ⟨false, false⟩
  else
    let s := sVertexDef.drop len
    if at0 s ≠ slash ∨ at0 (s.drop 1) = 0 then ⟨false, false⟩
    else
      let s := s.drop 1
      let len := countNumbers s
      let hasTexCoords := decide (0 < len)
      let s := s.drop len
      if at0 s ≠ slash ∨ at0 (s.drop 1) = 0 then ⟨hasTexCoords, false⟩
      else
        let s := s.drop 1
        let len := countNumbers s
        ⟨hasTexCoords, decide (0 < len)⟩

/-- The loop of `InspectFaceLine`: the vertices are counted, and the first of them is inspected. -/
def inspectFrom (spaceCount : Nat) (first : Option Components) : Chars → Nat × Option Components
  | [] => (spaceCount, first)
  | c :: s =>
    if c = 0 then (spaceCount, first)
    else if c ≠ space then inspectFrom spaceCount first s
    else if ¬ isCharNumber (at0 s) then inspectFrom spaceCount first s
    else inspectFrom (spaceCount + 1) (if spaceCount + 1 ≠ 1 then first else some (inspectVertexDefinition s)) s

/-- The number of vertices, and the components of the first if there is one. -/
def inspectFaceLine (sLine : Chars) : Nat × Option Components := inspectFrom 0 none (sLine.drop 1)

/-- Where one round of the face loop reads its numbers. -/
structure Pointers where
  v : Chars
  t : Chars
  n : Chars

def behindSlash (present : Bool) (s : Chars) : Option Chars := if present then skipTo slash s else some s

def pointers (has : Components) (s : Chars) : Option Pointers := do
  let v ← skipTo space s
  let t ← behindSlash has.hasTexCoords v
  let n ← behindSlash has.hasNormals t
  pure ⟨v, t, n⟩

/-- The rounds of the face loop. Each goes on from where the one before it has stopped. -/
def rounds (has : Components) : Nat → Chars → Option (List Pointers)
  | 0, _ => some []
  | vCount + 1, s => do
    let p ← pointers has s
    let ps ← rounds has vCount p.n
    pure (p :: ps)

/-- The indices of one vertex. -/
@[ext] structure Corner where
  vertIndex : Int
  uvIndex : Int
  normalIndex : Int
  deriving DecidableEq

/-- The index that is made of a number, after `up` is added to a negative one. -/
def toIndex (up n : Int) : Int := (if n < 0 then n + up else n) - 1

def readComponent (present : Bool) (s : Chars) : Option Int :=
  if present then (atoi s).map (toIndex 2) else some (-1)

def Pointers.read (has : Components) (p : Pointers) : Option Corner := do
  let v ← atoi p.v
  let t ← readComponent has.hasTexCoords p.t
  let n ← readComponent has.hasNormals p.n
  pure ⟨toIndex 1 v, t, n⟩

def readCorners (has : Components) (vCount : Nat) (s : Chars) : Option (List Corner) := do
  let ps ← rounds has vCount s
  ps.mapM (Pointers.read has)

structure MyFace where
  vertIndex : List Int
  normalIndex : List Int
  uvIndex : List Int
  deriving DecidableEq

def MyFace.ofCorners (corners : List Corner) : MyFace :=
  ⟨corners.map Corner.vertIndex, corners.map Corner.normalIndex, corners.map Corner.uvIndex⟩

theorem MyFace.ofCorners_injective {cs cs' : List Corner} (h : MyFace.ofCorners cs = MyFace.ofCorners cs') :
    cs = cs' := by
  obtain ⟨v, n, t⟩ := (MyFace.mk.injEq ..).mp h
  induction cs generalizing cs' with
  | nil => exact (List.map_eq_nil_iff.mp v.symm).symm
  | cons c cs ih =>
    cases cs' with
    | nil => cases v
    | cons c' cs' =>
      rw [List.map_cons, List.map_cons, List.cons.injEq] at v n t
      have head : c = c' := Corner.ext v.1 t.1 n.1
      rw [head, ih (MyFace.mk.injEq .. |>.mpr ⟨v.2, n.2, t.2⟩) v.2 n.2 t.2]

/-! ### What the first scanner finds in a vertex -/

/-- A character that ends a number and is no slash, or the end of the text. -/
def Stops (s : Chars) : Prop := isCharNumber (at0 s) = false ∧ at0 s ≠ slash

theorem stops_nil : Stops [] := ⟨rfl, by decide⟩

theorem stops_space (s : Chars) : Stops (space :: s) := by
  unfold Stops at0
  exact ⟨rfl, by simp [space, slash]⟩

theorem stops_nul (s : Chars) : Stops (0 :: s) := by
  unfold Stops at0
  exact ⟨rfl, by simp [slash]⟩

theorem countNumbers_append {s : Chars} (stops : Stops s) (w : Chars) : countNumbers (w ++ s) = countNumbers w := by
  unfold countNumbers
  induction w with
  | nil =>
    cases s with
    | nil => rfl
    | cons c s =>
      have other : isCharNumber c = false := stops.1
      rw [List.nil_append, List.takeWhile_cons_of_neg (by rw [other]; decide)]
      rfl
  | cons c w ih =>
    rw [List.cons_append, List.takeWhile_cons, List.takeWhile_cons]
    split
    · rw [List.length_cons, List.length_cons, ih]
    · rfl

theorem drop_countNumbers {s : Chars} (w : Chars) :
    (w ++ s).drop (countNumbers w) = w.drop (countNumbers w) ++ s :=
  List.drop_append_of_le_length (List.takeWhile_prefix _).length_le

theorem countNumbers_zero {s : Chars} (other : isCharNumber (at0 s) = false) : countNumbers s = 0 := by
  cases s with
  | nil => rfl
  | cons c s =>
    have other : isCharNumber c = false := other
    rw [countNumbers, List.takeWhile_cons_of_neg (by rw [other]; decide)]
    rfl

/-- A slash and a number behind it. -/
def slashNumber (s : Chars) : Bool := decide (at0 s = slash) && decide (0 < countNumbers (s.drop 1))

/-- It does not matter that the scanner gives up at the end of the text. -/
theorem inspectVertexDefinition_eq (w : Chars) : inspectVertexDefinition w =
    if countNumbers w = 0 then ⟨false, false⟩
    else
      let s := w.drop (countNumbers w)
      ⟨slashNumber s, decide (at0 s = slash) && slashNumber ((s.drop 1).drop (countNumbers (s.drop 1)))⟩ := by
  have nul : ∀ x : Chars, at0 x = 0 → countNumbers x = 0 := by
    intro x nul
    exact countNumbers_zero (by rw [nul]; rfl)
  unfold inspectVertexDefinition slashNumber
  dsimp only
  split
  · rfl
  generalize w.drop (countNumbers w) = s
  by_cases first : at0 s = slash
  swap
  · simp [first]
  rw [first]
  simp only [ne_eq, not_true_eq_false, false_or, decide_true, Bool.true_and]
  generalize s.drop 1 = x
  by_cases last : at0 x = 0
  · have zero : at0 x ≠ slash := by
      rw [last]
      decide
    rw [if_pos last, nul x last, List.drop_zero, decide_eq_false zero]
    rfl
  rw [if_neg last]
  generalize x.drop (countNumbers x) = t
  by_cases second : at0 t = slash
  swap
  · simp [second]
  simp only [second, not_true_eq_false, false_or, decide_true, Bool.true_and]
  generalize t.drop 1 = y
  split
  · rename_i last'
    rw [nul y last']
    rfl
  · rfl

theorem at0_stopped {s : Chars} (stops : Stops s) (x : Chars) : at0 (x ++ s) = slash ↔ at0 x = slash := by
  cases x with
  | nil => exact iff_of_false stops.2 (by decide)
  | cons c x => exact Iff.rfl

theorem slashNumber_append {s : Chars} (stops : Stops s) (x : Chars) : slashNumber (x ++ s) = slashNumber x := by
  unfold slashNumber
  rw [decide_eq_decide.mpr (at0_stopped stops x)]
  by_cases first : at0 x = slash
  · cases x with
    | nil => cases first
    | cons c x =>
      rw [List.cons_append, List.drop_one, List.drop_one, List.tail_cons, List.tail_cons, countNumbers_append stops]
  · rw [decide_eq_false first, Bool.false_and, Bool.false_and]

theorem inspectVertexDefinition_append {s : Chars} (stops : Stops s) (w : Chars) :
    inspectVertexDefinition (w ++ s) = inspectVertexDefinition w := by
  rw [inspectVertexDefinition_eq, inspectVertexDefinition_eq]
  simp only [countNumbers_append stops, drop_countNumbers]
  generalize w.drop (countNumbers w) = x
  rw [slashNumber_append stops, decide_eq_decide.mpr (at0_stopped stops x)]
  by_cases first : at0 x = slash
  · cases x with
    | nil => cases first
    | cons c x =>
      rw [List.cons_append, List.drop_one, List.drop_one, List.tail_cons, List.tail_cons, countNumbers_append stops,
        drop_countNumbers, slashNumber_append stops]
  · rw [decide_eq_false first, Bool.false_and, Bool.false_and]

theorem countNumbers_ended {w : Chars} (ended : w.drop (countNumbers w) ≠ []) (z : Chars) :
    countNumbers (w ++ z) = countNumbers w := by
  unfold countNumbers at ended ⊢
  induction w with
  | nil => exact absurd List.drop_nil ended
  | cons c w ih =>
    rw [List.cons_append, List.takeWhile_cons, List.takeWhile_cons]
    rw [List.takeWhile_cons] at ended
    split
    · rename_i digit
      rw [if_pos digit] at ended
      rw [List.length_cons, List.length_cons, ih ended]
    · rfl

theorem slashNumber_longer {s : Chars} (h : slashNumber s = true) (z : Chars) : slashNumber (s ++ z) = true := by
  unfold slashNumber at h ⊢
  rw [Bool.and_eq_true, decide_eq_true_eq, decide_eq_true_eq] at h ⊢
  obtain ⟨first, number⟩ := h
  cases s with
  | nil => exact absurd first (by decide)
  | cons c s =>
    refine ⟨first, ?_⟩
    rw [List.cons_append, List.drop_one, List.tail_cons]
    rw [List.drop_one, List.tail_cons] at number
    cases s with
    | nil => exact absurd number (Nat.lt_irrefl 0)
    | cons d s =>
      unfold countNumbers at number ⊢
      rw [List.cons_append]
      cases digit : isCharNumber d with
      | true =>
        rw [List.takeWhile_cons_of_pos digit]
        exact Nat.succ_pos _
      | false =>
        rw [List.takeWhile_cons_of_neg (by rw [digit]; decide)] at number
        exact absurd number (Nat.lt_irrefl 0)

theorem slashNumber_behind {w : Chars} (h : slashNumber (w.drop (countNumbers w)) = true) (z : Chars) :
    slashNumber ((w ++ z).drop (countNumbers (w ++ z))) = true := by
  have ended : w.drop (countNumbers w) ≠ [] := by
    intro none
    rw [none] at h
    cases h
  rw [countNumbers_ended ended, drop_countNumbers]
  exact slashNumber_longer h z

theorem inspectVertexDefinition_longer (w z : Chars) :
    ((inspectVertexDefinition w).hasTexCoords = true → (inspectVertexDefinition (w ++ z)).hasTexCoords = true) ∧
      ((inspectVertexDefinition w).hasNormals = true → (inspectVertexDefinition (w ++ z)).hasNormals = true) := by
  rw [inspectVertexDefinition_eq, inspectVertexDefinition_eq]
  by_cases none : countNumbers w = 0
  · rw [if_pos none]
    constructor <;> intro h <;> cases h
  rw [if_neg none]
  by_cases all : w.drop (countNumbers w) = []
  · rw [all]
    constructor <;> intro h <;> cases h
  rw [countNumbers_ended all, if_neg none, drop_countNumbers]
  generalize w.drop (countNumbers w) = s at all
  constructor
  · intro coord
    exact slashNumber_longer coord z
  · intro normal
    dsimp only at normal ⊢
    rw [Bool.and_eq_true] at normal ⊢
    obtain ⟨first, second⟩ := normal
    obtain ⟨c, s, rfl⟩ := List.exists_cons_of_ne_nil all
    refine ⟨first, ?_⟩
    rw [List.cons_append, List.drop_one, List.tail_cons]
    exact slashNumber_behind second z

end ModelPublish.Obj
