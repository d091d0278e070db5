import ModelPublish.Obj.Scanners

/-!
# Vertices as they are written

The forms of a vertex that the importer is documented to handle, with indices of either sign, and what
the face loop reads of a row of vertices that are all of one form.
-/

namespace ModelPublish.Obj
open Text Packed

/-- An index as it is written. There may be zeros in front of it. -/
structure Number where
  negative : Bool
  digits : Chars
  decimal : digits.all isDigit = true
  positive : 0 < numeral digits
  small : negative = false → numeral digits < 2 ^ 31
  deriving DecidableEq

namespace Number

/-- The index `1`. -/
def one : Number := ⟨false, chars "1", rfl, by decide, fun _ => by decide⟩

theorem all (x : Number) : ∀ c ∈ x.digits, isDigit c = true := List.all_eq_true.mp x.decimal

def print (x : Number) : Chars := if x.negative then 45 :: x.digits else x.digits

def value (x : Number) : Int := if x.negative then saturate (-(numeral x.digits : Nat)) else (numeral x.digits : Nat)

theorem digits_cons (x : Number) : ∃ d ds, x.digits = d :: ds := by
  cases same : x.digits with
  | cons d ds => exact ⟨d, ds, rfl⟩
  | nil =>
    have positive := x.positive
    rw [same] at positive
    exact absurd positive (Nat.lt_irrefl 0)

theorem print_of_negative {x : Number} (h : x.negative = true) : x.print = 45 :: x.digits := if_pos h

theorem print_of_positive {x : Number} (h : x.negative = false) : x.print = x.digits :=
  if_neg (by rw [h]; decide)

theorem atoi_print (x : Number) {c : UInt8} (stop : isDigit c = false) (rest : Chars) :
    atoi (x.print ++ c :: rest) = some x.value := by
  unfold value
  cases sign : x.negative with
  | true =>
    rw [print_of_negative sign, if_pos rfl]
    exact atoi_minus x.all stop rest
  | false =>
    obtain ⟨d, ds, same⟩ := x.digits_cons
    have all := x.all
    have small := x.small sign
    rw [print_of_positive sign, if_neg (by decide)]
    rw [same] at all small ⊢
    exact atoi_digits all stop small rest

theorem mem_print {x : Number} {c : UInt8} (member : c ∈ x.print) : c = 45 ∨ isDigit c = true := by
  unfold print at member
  split at member
  · rcases List.mem_cons.mp member with minus | digit
    · exact .inl minus
    · exact .inr (x.all c digit)
  · exact .inr (x.all c member)

theorem space_print (x : Number) : space ∉ x.print := fun member => by
  rcases mem_print member with minus | digit
  · exact absurd minus (by decide)
  · exact absurd digit (by decide)

theorem slash_print (x : Number) : slash ∉ x.print := fun member => by
  rcases mem_print member with minus | digit
  · exact absurd minus (by decide)
  · exact absurd digit (by decide)

theorem nul_print (x : Number) : 0 ∉ x.print := fun member => by
  rcases mem_print member with minus | digit
  · exact absurd minus (by decide)
  · exact absurd digit (by decide)

theorem print_cons (x : Number) : ∃ c s, x.print = c :: s ∧ isCharNumber c = !x.negative := by
  cases sign : x.negative with
  | true => exact ⟨45, x.digits, print_of_negative sign, rfl⟩
  | false =>
    obtain ⟨d, ds, same⟩ := x.digits_cons
    refine ⟨d, ds, (print_of_positive sign).trans same, ?_⟩
    exact x.all d (same ▸ List.mem_cons_self)

theorem print_concat (x : Number) : ∃ s d, x.print = s ++ [d] ∧ isDigit d = true := by
  obtain ⟨d, ds, same⟩ := x.digits_cons
  have some_digit : x.digits ≠ [] := by simp [same]
  have last := x.all _ (List.getLast_mem some_digit)
  cases sign : x.negative with
  | true =>
    refine ⟨45 :: x.digits.dropLast, _, ?_, last⟩
    rw [print_of_negative sign, List.cons_append, List.dropLast_append_getLast]
  | false =>
    refine ⟨x.digits.dropLast, _, ?_, last⟩
    rw [print_of_positive sign, List.dropLast_append_getLast]

theorem countNumbers_print (x : Number) {s : Chars} (stops : isCharNumber (at0 s) = false) :
    countNumbers (x.print ++ s) = if x.negative then 0 else x.print.length := by
  cases sign : x.negative with
  | true =>
    rw [print_of_negative sign]
    rfl
  | false =>
    have digits : (x.digits ++ s).takeWhile isCharNumber = x.digits ++ s.takeWhile isCharNumber :=
      List.takeWhile_append_of_pos x.all
    have none : (s.takeWhile isCharNumber).length = 0 := countNumbers_zero stops
    rw [print_of_positive sign, countNumbers, digits, List.length_append, none]
    rfl

theorem length_print (x : Number) : 0 < x.print.length := by
  obtain ⟨c, s, same, -⟩ := x.print_cons
  rw [same]
  exact Nat.succ_pos _

theorem slashNumber_minus {x : Number} (sign : x.negative = true) (s : Chars) : slashNumber (x.print ++ s) = false := by
  rw [print_of_negative sign]
  rfl

theorem slashNumber_slash (x : Number) {s : Chars} (stops : isCharNumber (at0 s) = false) :
    slashNumber (slash :: (x.print ++ s)) = !x.negative := by
  have some_digit := x.length_print
  rw [slashNumber, List.drop_one, List.tail_cons, x.countNumbers_print stops]
  cases x.negative with
  | true => rfl
  | false => exact decide_eq_true some_digit

theorem drop_countNumbers (x : Number) {s : Chars} (stops : isCharNumber (at0 s) = false) :
    (x.print ++ s).drop (countNumbers (x.print ++ s)) = if x.negative then x.print ++ s else s := by
  rw [x.countNumbers_print stops]
  cases x.negative with
  | true => rfl
  | false => exact List.drop_left

theorem inspect_print {x : Number} (positive : x.negative = false) {s : Chars}
    (stops : isCharNumber (at0 s) = false) : inspectVertexDefinition (x.print ++ s) =
      ⟨slashNumber s, decide (at0 s = slash) && slashNumber ((s.drop 1).drop (countNumbers (s.drop 1)))⟩ := by
  have some_digit := x.length_print
  have count := x.countNumbers_print stops
  rw [positive, if_neg (by decide)] at count
  rw [inspectVertexDefinition_eq, x.drop_countNumbers stops, count, if_neg some_digit.ne', positive]
  rfl

theorem inspect_second (x : Number) {s : Chars} (stops : isCharNumber (at0 s) = false) :
    slashNumber (((slash :: (x.print ++ s)).drop 1).drop (countNumbers ((slash :: (x.print ++ s)).drop 1))) =
      (!x.negative && slashNumber s) := by
  rw [List.drop_one, List.tail_cons, x.drop_countNumbers stops]
  cases sign : x.negative with
  | true => exact slashNumber_minus sign s
  | false => rfl

end Number

structure Vertex where
  v : Number
  t : Number
  n : Number
  deriving DecidableEq

inductive Form where
  | v
  | vt
  | vn
  | vtn
  | vtSlash
  | vSlashes
  deriving DecidableEq

namespace Form

def has : Form → Components
  | v => ⟨false, false⟩
  | vt => ⟨true, false⟩
  | vn => ⟨false, true⟩
  | vtn => ⟨true, true⟩
  | vtSlash => ⟨true, false⟩
  | vSlashes => ⟨false, false⟩

/-- `v`, `v/t`, `v//n`, `v/t/n`, `v/t/` and `v//`. -/
def print : Form → Vertex → Chars
  | v, x => x.v.print
  | vt, x => x.v.print ++ slash :: x.t.print
  | vn, x => x.v.print ++ slash :: slash :: x.n.print
  | vtn, x => x.v.print ++ slash :: (x.t.print ++ slash :: x.n.print)
  | vtSlash, x => x.v.print ++ slash :: (x.t.print ++ [slash])
  | vSlashes, x => x.v.print ++ [slash, slash]

def tail : Form → Vertex → Chars
  | v, _ => []
  | vt, x => slash :: x.t.print
  | vn, x => slash :: slash :: x.n.print
  | vtn, x => slash :: (x.t.print ++ slash :: x.n.print)
  | vtSlash, x => slash :: (x.t.print ++ [slash])
  | vSlashes, _ => [slash, slash]

theorem print_eq (form : Form) (x : Vertex) : form.print x = x.v.print ++ form.tail x := by
  cases form
  case v => exact (List.append_nil _).symm
  all_goals rfl

theorem mem_tail {form : Form} {x : Vertex} {c : UInt8} (member : c ∈ form.tail x) :
    c = slash ∨ c ∈ x.t.print ∨ c ∈ x.n.print := by
  cases form <;> simp only [tail, List.mem_cons, List.mem_append, List.not_mem_nil] at member <;> tauto

theorem space_print (form : Form) (x : Vertex) : space ∉ form.print x := by
  rw [print_eq]
  intro member
  rcases List.mem_append.mp member with first | second
  · exact x.v.space_print first
  rcases mem_tail second with same | coord | normal
  · exact absurd same (by decide)
  · exact x.t.space_print coord
  · exact x.n.space_print normal

theorem nul_print (form : Form) (x : Vertex) : 0 ∉ form.print x := by
  rw [print_eq]
  intro member
  rcases List.mem_append.mp member with first | second
  · exact x.v.nul_print first
  rcases mem_tail second with same | coord | normal
  · exact absurd same (by decide)
  · exact x.t.nul_print coord
  · exact x.n.nul_print normal

theorem print_cons (form : Form) (x : Vertex) : ∃ c s, form.print x = c :: s := by
  obtain ⟨c, s, same, -⟩ := x.v.print_cons
  rw [print_eq, same]
  exact ⟨c, _, rfl⟩

theorem isVertex_print (form : Form) (x : Vertex) : isVertex (form.print x) = !x.v.negative := by
  obtain ⟨c, s, same, digit⟩ := x.v.print_cons
  rw [print_eq, same]
  exact digit

/-- The components that `InspectVertexDefinition` sees: a number that is negative is none to it. -/
def inspected (form : Form) (x : Vertex) : Components where
  hasTexCoords := form.has.hasTexCoords && !x.t.negative
  hasNormals := form.has.hasNormals && !x.n.negative && !(form.has.hasTexCoords && x.t.negative)

theorem inspect_print (form : Form) {x : Vertex} (positive : x.v.negative = false) :
    inspectVertexDefinition (form.print x) = form.inspected x := by
  rw [print_eq, Number.inspect_print positive (by cases form <;> rfl)]
  have coord := x.t.slashNumber_slash (s := []) rfl
  have normal := x.n.slashNumber_slash (s := []) rfl
  have second := x.t.inspect_second (s := []) rfl
  rw [List.append_nil] at coord normal second
  unfold tail inspected has
  cases form with
  | v => rfl
  | vSlashes => rfl
  | vn =>
    have hidden : slashNumber (slash :: x.n.print) = (!x.n.negative && true) := by rw [normal, Bool.and_true]
    exact congrArg (Components.mk false) hidden
  | vt =>
    dsimp only
    rw [coord, second]
    cases x.t.negative <;> rfl
  | vtn =>
    dsimp only
    rw [x.t.slashNumber_slash rfl, x.t.inspect_second rfl, normal]
    cases x.t.negative <;> cases x.n.negative <;> rfl
  | vtSlash =>
    dsimp only
    rw [x.t.slashNumber_slash rfl, x.t.inspect_second rfl]
    cases x.t.negative <;> rfl

/-- Components that may be looked for in a row of such vertices. -/
structure Sees (form : Form) (has : Components) : Prop where
  coord : has.hasTexCoords = true → form.has.hasTexCoords = true
  normal : has.hasNormals = true → form.has.hasNormals = true
  both : form = vtn → has.hasNormals = true → has.hasTexCoords = true

theorem sees_has (form : Form) : form.Sees form.has := by
  refine ⟨id, id, ?_⟩
  rintro rfl _
  rfl

theorem sees_inspected (form : Form) (x : Vertex) : form.Sees (form.inspected x) := by
  unfold inspected
  refine ⟨?_, ?_, ?_⟩
  · intro coord
    exact (Bool.and_eq_true _ _ ▸ coord).1
  · intro normal
    simp only [Bool.and_eq_true] at normal
    exact normal.1.1
  · rintro rfl normal
    cases sign : x.t.negative with
    | true => simp [has, sign] at normal
    | false => rfl

/-- What the face loop reads of a vertex. A slash before the normal hides it if no coordinates are read. -/
def corner (form : Form) (has : Components) (x : Vertex) : Corner where
  vertIndex := toIndex 1 x.v.value
  uvIndex := if has.hasTexCoords then toIndex 2 x.t.value else -1
  normalIndex := if has.hasNormals then if form = .vn then -1 else toIndex 2 x.n.value else -1

/-- What of a vertex the loop leaves behind it. -/
def left (form : Form) (has : Components) (x : Vertex) : Chars := (behind (slashes has) (form.print x)).getD []

theorem space_left (form : Form) (has : Components) (x : Vertex) : space ∉ form.left has x := by
  unfold left
  cases found : behind (slashes has) (form.print x) with
  | none => exact List.not_mem_nil
  | some y => exact fun member => form.space_print x ((behind_suffix found).mem member)

theorem pointers_print {form : Form} {has : Components} (sees : form.Sees has) (x : Vertex) {q : Chars}
    (free : space ∉ q) {c : UInt8} (stop : isDigit c = false) (r : Chars) :
    ∃ p, pointers has (q ++ space :: (form.print x ++ c :: r)) = some p ∧
      p.read has = some (form.corner has x) ∧ p.n = form.left has x ++ c :: r := by
  have walk : ∀ s, skipTo space (q ++ space :: s) = some s := skipTo_append free
  have first : ∀ s, skipTo slash (x.v.print ++ slash :: s) = some s := skipTo_append x.v.slash_print
  have second : ∀ s, skipTo slash (x.t.print ++ slash :: s) = some s := skipTo_append x.t.slash_print
  have read_v : ∀ s, atoi (x.v.print ++ slash :: s) = some x.v.value := x.v.atoi_print rfl
  have read_t : ∀ s, atoi (x.t.print ++ slash :: s) = some x.t.value := x.t.atoi_print rfl
  have end_v := x.v.atoi_print stop r
  have end_t := x.t.atoi_print stop r
  have end_n := x.n.atoi_print stop r
  have none : ∀ s, atoi (slash :: s) = some 0 := atoi_other rfl rfl (by decide)
  obtain ⟨coord, normal, both⟩ := sees
  unfold pointers
  rw [walk]
  rcases has with ⟨_ | _, _ | _⟩ <;> cases form <;>
    simp [Form.has] at coord normal both <;>
    simp [print, left, behind, slashes, corner, behindSlash, Pointers.read, readComponent, first, second, read_v,
      read_t, end_v, end_t, end_n, none, toIndex]

end Form

/-! ### Rows of vertices -/

def row (form : Form) (xs : List Vertex) : Chars := xs.flatMap fun x => space :: form.print x

def faceLine (form : Form) (xs : List Vertex) : Chars := 102 :: row form xs

theorem row_cons (form : Form) (x : Vertex) (xs : List Vertex) (s : Chars) :
    row form (x :: xs) ++ s = space :: (form.print x ++ (row form xs ++ s)) := by
  rw [row, List.flatMap_cons, List.append_assoc, List.cons_append]
  rfl

theorem row_append (form : Form) (xs ys : List Vertex) : row form (xs ++ ys) = row form xs ++ row form ys :=
  List.flatMap_append

section Reading
variable {has : Components} {form : Form} {q : Chars}

theorem readCorners_succ {s : Chars} {p : Pointers} (h : pointers has s = some p) (m : Nat) :
    readCorners has (m + 1) s = (p.read has).bind fun c => (readCorners has m p.n).map (c :: ·) := by
  have walk : rounds has (m + 1) s = (rounds has m p.n).map (p :: ·) := by
    rw [rounds, h]
    change (rounds has m p.n).bind (fun ps => some (p :: ps)) = _
    cases rounds has m p.n <;> rfl
  unfold readCorners
  rw [walk]
  cases rounds has m p.n with
  | none => cases p.read has <;> rfl
  | some ps =>
    cases read : p.read has with
    | none => simp [List.mapM_cons, read]
    | some c => cases rest : ps.mapM (Pointers.read has) <;> simp [List.mapM_cons, read, rest]

theorem readCorners_free (free : space ∉ q) (m : Nat) (s : Chars) :
    readCorners has m (q ++ s) = readCorners has m s := by
  unfold readCorners
  rw [rounds_free free]

theorem row_stop (form : Form) (xs : List Vertex) {c : UInt8} (stop : isDigit c = false) (r : Chars) :
    ∃ c' r', row form xs ++ c :: r = c' :: r' ∧ isDigit c' = false := by
  cases xs with
  | nil => exact ⟨c, r, rfl, stop⟩
  | cons x xs => exact ⟨space, _, row_cons form x xs _, rfl⟩

theorem readCorners_row (sees : form.Sees has) (xs : List Vertex) (free : space ∉ q) {c : UInt8}
    (stop : isDigit c = false) (r : Chars) (m : Nat) :
    readCorners has (xs.length + m) (q ++ (row form xs ++ c :: r)) =
      (readCorners has m (c :: r)).map (xs.map (form.corner has) ++ ·) := by
  induction xs generalizing q with
  | nil =>
    rw [List.length_nil, Nat.zero_add, readCorners_free free]
    exact (Option.map_id' ..).symm
  | cons x xs ih =>
    obtain ⟨c', r', next, stop'⟩ := row_stop form xs stop r
    obtain ⟨p, here, read, further⟩ := Form.pointers_print sees x free stop' r'
    rw [row_cons, next, List.length_cons, Nat.add_right_comm, readCorners_succ here, read, further, Option.bind_some,
      ← next, ih (form.space_left has x), Option.map_map]
    rfl

theorem counted_row (form : Form) (xs : List Vertex) (free : space ∉ q) (noNul : 0 ∉ q) (s : Chars) :
    (counted (q ++ (row form xs ++ s))).length = xs.countP (fun x => !x.v.negative) + (counted s).length := by
  induction xs generalizing q with
  | nil =>
    rw [row, List.flatMap_nil, List.nil_append, counted_free free noNul]
    exact (Nat.zero_add _).symm
  | cons x xs ih =>
    have first : isCharNumber (at0 (form.print x ++ (row form xs ++ s))) = isVertex (form.print x) := by
      obtain ⟨c, t, same⟩ := form.print_cons x
      rw [same]
      rfl
    rw [row_cons, counted_word free noNul (form.space_print x) (form.nul_print x) first, form.isVertex_print,
      List.countP_cons]
    have rest := ih (q := []) List.not_mem_nil List.not_mem_nil
    rw [List.nil_append] at rest
    cases x.v.negative with
    | true => exact rest
    | false =>
      rw [if_pos (by rfl), if_pos (by rfl), List.length_cons, rest]
      exact Nat.add_right_comm _ _ _

theorem head_counted_row (form : Form) (xs : List Vertex) {s : Chars} (none : counted s = []) (stops : Stops s) :
    (counted (row form xs ++ s)).head?.map inspectVertexDefinition =
      (xs.find? fun x => !x.v.negative).map form.inspected := by
  induction xs with
  | nil =>
    rw [row, List.flatMap_nil, List.nil_append, none]
    rfl
  | cons x xs ih =>
    have next : Stops (row form xs ++ s) := by
      cases xs with
      | nil => exact stops
      | cons y ys =>
        rw [row_cons]
        exact stops_space _
    have first : isCharNumber (at0 (form.print x ++ (row form xs ++ s))) = isVertex (form.print x) := by
      obtain ⟨c, t, same⟩ := form.print_cons x
      rw [same]
      rfl
    have step := counted_word (q := []) List.not_mem_nil List.not_mem_nil (form.space_print x) (form.nul_print x) first
    rw [List.nil_append, form.isVertex_print] at step
    rw [row_cons, step]
    cases sign : x.v.negative with
    | true =>
      rw [List.find?_cons_of_neg (by simp [sign])]
      exact ih
    | false =>
      rw [List.find?_cons_of_pos (by simp [sign]), if_pos (by rfl), List.head?_cons, Option.map_some, Option.map_some,
        inspectVertexDefinition_append next, form.inspect_print sign]

end Reading

end ModelPublish.Obj
