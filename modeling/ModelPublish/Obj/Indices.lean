import ModelPublish.Obj.Steps
import ModelPublish.Obj.Tokens

/-!
# The indices of a face statement

Which face a statement adds whose vertices are all of one documented form. A statement that does not fit
into the buffer is cut off there, and what is left of it is no statement.
-/

namespace ModelPublish.Obj
open Text Packed

/-- A text without its last `n` characters. -/
def without (n : Nat) (s : Chars) : Chars := s.take (s.length - n)

theorem without_zero (s : Chars) : without 0 s = s := List.take_length

theorem without_all {n : Nat} {s : Chars} (h : s.length ≤ n) : without n s = [] := by
  rw [without, Nat.sub_eq_zero_of_le h, List.take_zero]

theorem without_append {n : Nat} (a : Chars) {b : Chars} (h : n ≤ b.length) :
    without n (a ++ b) = a ++ without n b := by
  have inside : (a ++ b).length - n = a.length + (b.length - n) := by
    rw [List.length_append]
    omega
  rw [without, inside, List.take_length_add_append]
  rfl

theorem without_slash {n : Nat} (a : Chars) {b : Chars} (h : n ≤ b.length) :
    without n (a ++ slash :: b) = a ++ slash :: without n b := by
  have := without_append (a ++ [slash]) h
  rwa [List.append_assoc, List.append_assoc] at this

theorem without_back {n : Nat} (a : Chars) {b : Chars} (h : b.length ≤ n) :
    without n (a ++ b) = without (n - b.length) a := by
  have front : (a ++ b).length - n = a.length - (n - b.length) := by
    rw [List.length_append]
    omega
  rw [without, front, List.take_append_of_le_length (Nat.sub_le _ _)]
  rfl

theorem without_past {n : Nat} (a : Chars) {b : Chars} (h : b.length < n) :
    without n (a ++ slash :: b) = without (n - b.length - 1) a :=
  without_back (b := slash :: b) a h

namespace Number

/-- The index that is meant, when `count` of its kind have been read. -/
def resolve (count : Nat) (x : Number) : Int :=
  if x.negative then (count : Int) - (numeral x.digits : Nat) else ((numeral x.digits : Nat) : Int) - 1

/-- A negative index reaches back no further than to the first that has been read. -/
def Within (count : Nat) (x : Number) : Prop := x.negative = true → numeral x.digits ≤ count

/-- What is left of the number, after the last `cut` characters are gone, leads to the same index. Only from the
last of its kind does the loader go back right, that is from the first if there is just one. -/
def Kept (x : Number) (cut count : Nat) : Prop :=
  if x.negative then numeral (without cut x.digits) = 1 ∧ numeral x.digits = count else cut = 0

theorem resolve_nonneg {x : Number} {count : Nat} (h : x.Within count) : 0 ≤ x.resolve count := by
  have positive := x.positive
  unfold resolve
  split
  · have := h (by assumption)
    omega
  · omega

theorem digits_without (x : Number) (cut : Nat) : ∀ c ∈ without cut x.digits, isDigit c = true :=
  fun c member => x.all c (List.mem_of_mem_take member)

theorem numeral_without_lt (x : Number) {cut : Nat} (some_cut : 0 < cut) :
    numeral (without cut x.digits) < numeral x.digits := by
  obtain ⟨d, ds, same⟩ := x.digits_cons
  have positive := x.positive
  have gone : x.digits.drop (x.digits.length - cut) ≠ [] := by
    rw [ne_eq, List.drop_eq_nil_iff, same, List.length_cons]
    omega
  rw [← List.take_append_drop (x.digits.length - cut) x.digits] at positive
  have less := numeral_lt_append gone positive
  rwa [List.take_append_drop] at less

theorem numeral_without_le (x : Number) (cut : Nat) : numeral (without cut x.digits) ≤ numeral x.digits := by
  rcases Nat.eq_zero_or_pos cut with rfl | some_cut
  · rw [without_zero]
  · exact Nat.le_of_lt (x.numeral_without_lt some_cut)

theorem reads_positive {x : Number} (sign : x.negative = false) (up : Int) (count cut : Nat) {c : UInt8}
    (stop : isDigit c = false) {r : Chars} (whole : cut = 0 ∨ c :: r = [0]) :
    ∃ y, atoi (without cut x.print ++ c :: r) = some y ∧ (toIndex up y = x.resolve count ↔ cut = 0) := by
  have index : ∀ n : Nat, toIndex up n = (n : Int) - 1 := by
    intro n
    rw [toIndex, if_neg (by omega)]
  have meant : x.resolve count = ((numeral x.digits : Nat) : Int) - 1 := by
    rw [resolve, sign]
    rfl
  refine ⟨((numeral (without cut x.digits) : Nat) : Int), ?_, ?_⟩
  · rw [print_of_positive sign]
    rcases whole with rfl | last
    · have all := x.atoi_print stop r
      rw [print_of_positive sign, value, sign] at all
      rw [without_zero]
      exact all
    · rw [last]
      exact atoi_front (x.digits_without cut) (Nat.lt_of_le_of_lt (x.numeral_without_le cut) (x.small sign))
  · rw [index, meant]
    constructor
    · intro same
      by_contra some_cut
      have := x.numeral_without_lt (Nat.pos_of_ne_zero some_cut)
      omega
    · rintro rfl
      rw [without_zero]

theorem reads_negative {x : Number} (sign : x.negative = true) {count : Nat} (within : x.Within count) (cut : Nat)
    {c : UInt8} (stop : isDigit c = false) {r : Chars} (whole : cut = 0 ∨ c :: r = [0]) :
    ∃ y, atoi (without cut x.print ++ c :: r) = some y ∧ (toIndex 2 y = x.resolve count ↔
      numeral (without cut x.digits) = 1 ∧ numeral x.digits = count) := by
  have bound := within sign
  have less := x.numeral_without_le cut
  have meant : x.resolve count = (count : Int) - (numeral x.digits : Nat) := by
    rw [resolve, sign]
    rfl
  rw [print_of_negative sign, meant]
  by_cases inside : cut ≤ x.digits.length
  · refine ⟨saturate (-(numeral (without cut x.digits) : Nat)), ?_, ?_⟩
    · rw [← List.singleton_append, without_append _ inside]
      exact atoi_minus (x.digits_without cut) stop r
    · generalize numeral (without cut x.digits) = m at less
      unfold toIndex saturate
      split <;> omega
  · have gone : without cut (45 :: x.digits) = [] := without_all (by rw [List.length_cons]; omega)
    have none : without cut x.digits = [] := without_all (by omega)
    have last : c :: r = [0] := whole.resolve_left (by omega)
    refine ⟨0, by rw [gone, last]; rfl, ?_⟩
    have zero : toIndex 2 0 = -1 := rfl
    have empty : numeral [] = 0 := rfl
    rw [none, zero, empty]
    omega

theorem reads_iff {x : Number} {count : Nat} (within : x.Within count) (cut : Nat) {c : UInt8}
    (stop : isDigit c = false) {r : Chars} (whole : cut = 0 ∨ c :: r = [0]) :
    ∃ y, atoi (without cut x.print ++ c :: r) = some y ∧ (toIndex 2 y = x.resolve count ↔ x.Kept cut count) := by
  unfold Kept
  cases sign : x.negative with
  | true => exact reads_negative sign within cut stop whole
  | false => exact reads_positive sign 2 count cut stop whole

theorem not_kept (x : Number) (count : Nat) {cut : Nat} (h : x.print.length ≤ cut) : ¬ x.Kept cut count := by
  unfold Kept
  cases sign : x.negative with
  | true =>
    rw [print_of_negative sign, List.length_cons] at h
    rw [if_pos rfl, without_all (by omega)]
    exact fun both => absurd both.1 (by decide)
  | false =>
    have some_char := x.length_print
    rw [if_neg (by decide)]
    omega

end Number

/-- How many of each kind have been read. -/
structure Counts where
  v : Nat
  t : Nat
  n : Nat

namespace Form

theorem print_vtn (x : Vertex) : vtn.print x = vt.print x ++ slash :: x.n.print := by
  rw [print, print, List.append_assoc]
  rfl

theorem print_vtSlash (x : Vertex) : vtSlash.print x = vt.print x ++ slash :: [] := by
  rw [print, print, List.append_assoc]
  rfl

/-- The indices that a vertex is written for. -/
def meant (form : Form) (counts : Counts) (x : Vertex) : Corner where
  vertIndex := x.v.resolve counts.v
  uvIndex := if form.has.hasTexCoords then x.t.resolve counts.t else -1
  normalIndex := if form.has.hasNormals then x.n.resolve counts.n else -1

structure Within (form : Form) (counts : Counts) (x : Vertex) : Prop where
  v : x.v.Within counts.v
  t : form.has.hasTexCoords = true → x.t.Within counts.t
  n : form.has.hasNormals = true → x.n.Within counts.n

/-- What is left of a vertex without its last `cut` characters leads to the same indices. -/
def Keeps (form : Form) (counts : Counts) (x : Vertex) (cut : Nat) : Prop :=
  match form with
  | v => cut = 0
  | vt => x.t.Kept cut counts.t
  | vn => False
  | vtn => x.t.Kept 0 counts.t ∧ x.n.Kept cut counts.n
  | vtSlash => x.t.Kept (cut - 1) counts.t
  | vSlashes => cut ≤ 2

end Form

section Last
variable {form : Form} {counts : Counts} {x : Vertex} {q : Chars} (cut : Nat) {c : UInt8} {r : Chars}

theorem readCorners_one {has : Components} {s : Chars} :
    readCorners has 1 s = (pointers has s).bind fun p => (p.read has).map fun c => [c] := by
  cases found : pointers has s with
  | none =>
    unfold readCorners rounds
    rw [found]
    rfl
  | some p =>
    rw [readCorners_succ found, Option.bind_some]
    cases p.read has <;> rfl

/-- `Reads form counts x s` says that the last round reads from `s` what `x` is written for. -/
def Reads (form : Form) (counts : Counts) (x : Vertex) (s : Chars) : Prop :=
  readCorners form.has 1 s = some [form.meant counts x]

theorem reads_v (sign : x.v.negative = false) (free : space ∉ q) (stop : isDigit c = false)
    (whole : cut = 0 ∨ c :: r = [0]) :
    Reads .v counts x (q ++ space :: (without cut x.v.print ++ c :: r)) ↔ cut = 0 := by
  obtain ⟨y, read, index⟩ := Number.reads_positive sign 1 counts.v cut stop whole
  rw [Reads, readCorners_one, pointers, skipTo_append free]
  simp [Form.has, Form.meant, behindSlash, Pointers.read, readComponent, read, index]

theorem slash_without {s : Chars} (free : slash ∉ s) (cut : Nat) : slash ∉ without cut s ++ [0] := by
  intro member
  rcases List.mem_append.mp member with inside | last
  · exact free (List.mem_of_mem_take inside)
  · exact absurd (List.mem_singleton.mp last) (by decide)

theorem reads_vt (sign : x.v.negative = false) (within : x.t.Within counts.t) (free : space ∉ q)
    (stop : isDigit c = false) (whole : cut = 0 ∨ c :: r = [0]) :
    Reads .vt counts x (q ++ space :: (without cut (Form.vt.print x) ++ c :: r)) ↔ x.t.Kept cut counts.t := by
  rw [Reads, readCorners_one, pointers, skipTo_append free, Form.print]
  by_cases inside : cut ≤ x.t.print.length
  · obtain ⟨y, read, index⟩ := Number.reads_positive sign 1 counts.v 0 (c := slash) rfl
      (r := without cut x.t.print ++ c :: r) (.inl rfl)
    obtain ⟨z, read', index'⟩ := Number.reads_iff within cut stop whole
    have walk := skipTo_append x.v.slash_print (without cut x.t.print ++ c :: r)
    rw [without_zero] at read
    rw [without_slash _ inside, List.append_assoc, List.cons_append]
    simp [Form.has, Form.meant, behindSlash, Pointers.read, readComponent, walk, read, read', index, index']
  · have none := skipTo_none (slash_without x.v.slash_print (cut - x.t.print.length - 1))
    rw [without_past _ (Nat.lt_of_not_le inside), whole.resolve_left (by omega)]
    simp [Form.has, behindSlash, none, x.t.not_kept _ (Nat.le_of_not_le inside)]

theorem reads_vtSlash (sign : x.v.negative = false) (within : x.t.Within counts.t) (free : space ∉ q)
    (stop : isDigit c = false) (whole : cut = 0 ∨ c :: r = [0]) :
    Reads .vtSlash counts x (q ++ space :: (without cut (Form.vtSlash.print x) ++ c :: r)) ↔
      x.t.Kept (cut - 1) counts.t := by
  rw [Form.print_vtSlash]
  cases cut with
  | zero =>
    have behind := reads_vt 0 (c := slash) (r := c :: r) sign within free rfl (.inl rfl)
    rw [without_zero] at behind ⊢
    rw [List.append_assoc]
    exact behind
  | succ cut =>
    rw [without_past _ (Nat.succ_pos cut)]
    exact reads_vt cut sign within free stop (.inr (whole.resolve_left (Nat.succ_ne_zero cut)))

theorem reads_vSlashes (sign : x.v.negative = false) (free : space ∉ q) (stop : isDigit c = false)
    (whole : cut = 0 ∨ c :: r = [0]) :
    Reads .vSlashes counts x (q ++ space :: (without cut (Form.vSlashes.print x) ++ c :: r)) ↔ cut ≤ 2 := by
  by_cases inside : cut ≤ [slash, slash].length
  · obtain ⟨c', r', next, stop'⟩ : ∃ c' r', without cut [slash, slash] ++ c :: r = c' :: r' ∧ isDigit c' = false := by
      rcases cut with _ | _ | _ | cut
      · exact ⟨slash, slash :: c :: r, rfl, rfl⟩
      · exact ⟨slash, c :: r, rfl, rfl⟩
      · exact ⟨c, r, rfl, stop⟩
      · exact absurd inside (by simp)
    have whole' : Reads .v counts x (q ++ space :: (without 0 x.v.print ++ c' :: r')) ↔ 0 = 0 :=
      reads_v 0 sign free stop' (.inl rfl)
    rw [without_zero] at whole'
    rw [Form.print, without_append _ inside, List.append_assoc, next]
    exact whole'.trans (iff_of_true rfl inside)
  · rw [Form.print, without_back _ (Nat.le_of_not_le inside)]
    rw [List.length_cons, List.length_singleton] at inside ⊢
    have last := whole.resolve_left (by omega)
    exact (reads_v (cut - 2) sign free stop (.inr last)).trans (iff_of_false (by omega) inside)

theorem reads_vtn (sign : x.v.negative = false) (within : x.t.Within counts.t) (within' : x.n.Within counts.n)
    (free : space ∉ q) (stop : isDigit c = false) (whole : cut = 0 ∨ c :: r = [0]) :
    Reads .vtn counts x (q ++ space :: (without cut (Form.vtn.print x) ++ c :: r)) ↔
      x.t.Kept 0 counts.t ∧ x.n.Kept cut counts.n := by
  rw [Reads, readCorners_one, pointers, skipTo_append free, Form.print_vtn]
  by_cases inside : cut ≤ x.n.print.length
  · have text : without cut (Form.vt.print x ++ slash :: x.n.print) ++ c :: r =
        x.v.print ++ slash :: (x.t.print ++ slash :: (without cut x.n.print ++ c :: r)) := by
      rw [without_slash _ inside, Form.print]
      simp only [List.append_assoc, List.cons_append]
    obtain ⟨y, read, index⟩ := Number.reads_positive sign 1 counts.v 0 (c := slash) rfl
      (r := x.t.print ++ slash :: (without cut x.n.print ++ c :: r)) (.inl rfl)
    obtain ⟨z, read', index'⟩ := Number.reads_iff within 0 (c := slash) rfl
      (r := without cut x.n.print ++ c :: r) (.inl rfl)
    obtain ⟨w, read'', index''⟩ := Number.reads_iff within' cut stop whole
    have walk := skipTo_append x.v.slash_print (x.t.print ++ slash :: (without cut x.n.print ++ c :: r))
    have walk' := skipTo_append x.t.slash_print (without cut x.n.print ++ c :: r)
    rw [without_zero] at read read'
    rw [text]
    simp [Form.has, Form.meant, behindSlash, Pointers.read, readComponent, walk, walk', read, read', read'', index,
      index', index'']
  · have last := whole.resolve_left (by omega)
    rw [without_past _ (Nat.lt_of_not_le inside), last]
    generalize cut - x.n.print.length - 1 = cut'
    simp only [x.n.not_kept _ (Nat.le_of_not_le inside), and_false, iff_false]
    rw [Form.print]
    by_cases one : cut' ≤ x.t.print.length
    · have walk := skipTo_append x.v.slash_print (without cut' x.t.print ++ [0])
      have none := skipTo_none (slash_without x.t.slash_print cut')
      rw [without_slash _ one, List.append_assoc, List.cons_append]
      simp [Form.has, behindSlash, walk, none]
    · have none := skipTo_none (slash_without x.v.slash_print (cut' - x.t.print.length - 1))
      rw [without_past _ (Nat.lt_of_not_le one)]
      simp [Form.has, behindSlash, none]

theorem not_reads_vn (within : x.n.Within counts.n) (free : space ∉ q) (whole : cut = 0 ∨ c :: r = [0]) :
    ¬ Reads .vn counts x (q ++ space :: (without cut (Form.vn.print x) ++ c :: r)) := by
  have meant := Number.resolve_nonneg within
  have hidden : toIndex 2 0 ≠ x.n.resolve counts.n := by
    rw [show toIndex 2 0 = -1 from rfl]
    omega
  rw [Reads, readCorners_one, pointers, skipTo_append free, Form.print]
  by_cases inside : cut ≤ (slash :: x.n.print).length
  · have walk := skipTo_append x.v.slash_print (without cut (slash :: x.n.print) ++ c :: r)
    have zero : atoi (without cut (slash :: x.n.print) ++ c :: r) = some 0 := by
      by_cases second : cut ≤ x.n.print.length
      · have front := without_slash [] second
        rw [List.nil_append] at front
        rw [front]
        exact atoi_other rfl rfl (by decide) _
      · rw [without_all (Nat.lt_of_not_le second), whole.resolve_left (by omega)]
        rfl
    rw [without_slash _ inside, List.append_assoc, List.cons_append]
    cases read : atoi (x.v.print ++ slash :: (without cut (slash :: x.n.print) ++ c :: r)) <;>
      simp [Form.has, Form.meant, behindSlash, Pointers.read, readComponent, walk, zero, read, hidden]
  · have none := skipTo_none (slash_without x.v.slash_print (cut - (slash :: x.n.print).length - 1))
    rw [without_past _ (Nat.lt_of_not_le inside), whole.resolve_left (by omega)]
    generalize cut - (slash :: x.n.print).length - 1 = cut' at none
    simp [Form.has, behindSlash, none]

/-- A vertex that may be cut off is read as it is meant if and only if what is left of it says the same. -/
theorem reads_iff (sign : x.v.negative = false) (within : form.Within counts x) (free : space ∉ q)
    (stop : isDigit c = false) (whole : cut = 0 ∨ c :: r = [0]) :
    Reads form counts x (q ++ space :: (without cut (form.print x) ++ c :: r)) ↔ form.Keeps counts x cut := by
  cases form with
  | v => exact reads_v cut sign free stop whole
  | vt => exact reads_vt cut sign (within.t rfl) free stop whole
  | vn => exact iff_of_false (not_reads_vn cut (within.n rfl) free whole) not_false
  | vtn => exact reads_vtn cut sign (within.t rfl) (within.n rfl) free stop whole
  | vtSlash => exact reads_vtSlash cut sign (within.t rfl) free stop whole
  | vSlashes => exact reads_vSlashes cut sign free stop whole

end Last

/-! ### A whole line -/

/-- The numbers behind the slashes of a vertex are written without a sign. -/
def Unsigned (form : Form) (x : Vertex) : Prop :=
  (form.has.hasTexCoords = true → x.t.negative = false) ∧ (form.has.hasNormals = true → x.n.negative = false)

theorem inspected_unsigned {form : Form} {x : Vertex} (h : Unsigned form x) : form.inspected x = form.has := by
  obtain ⟨coord, normal⟩ := h
  cases form <;> simp_all [Form.inspected, Form.has]

theorem unsigned_of_inspected {form : Form} {x : Vertex}
    (coord : form.has.hasTexCoords = true → (form.inspected x).hasTexCoords = true)
    (normal : form.has.hasNormals = true → (form.inspected x).hasNormals = true) : Unsigned form x := by
  unfold Form.inspected at coord normal
  constructor
  · intro h
    simpa [h] using coord h
  · intro h
    simp only [h, Bool.true_and, Bool.and_eq_true] at normal
    simpa using (normal trivial).1

/-- What is in the buffer of a face line. The last vertex may be cut off, but not all of it. -/
structure FaceText (form : Form) where
  init : List Vertex
  last : Vertex
  cut : Nat
  some_char : cut < (form.print last).length
  stop : Chars
  stops : ∃ rest, stop = 0 :: rest ∨ stop = newline :: 0 :: rest
  whole : cut = 0 ∨ stop = [0]

namespace FaceText
variable {form : Form} (line : FaceText form)

def vertices : List Vertex := line.init ++ [line.last]

def lastText : Chars := space :: (without line.cut (form.print line.last) ++ line.stop)

def text : Chars := 102 :: (row form line.init ++ line.lastText)

def first : Vertex := line.init.headD line.last

theorem stop_cons : ∃ c r, line.stop = c :: r ∧ isDigit c = false ∧ Stops (c :: r) ∧ counted (c :: r) = [] := by
  obtain ⟨rest, same | same⟩ := line.stops
  · exact ⟨0, rest, same, rfl, stops_nul rest, rfl⟩
  · refine ⟨newline, 0 :: rest, same, rfl, ⟨rfl, ?_⟩, rfl⟩
    exact (by decide : newline ≠ slash)

theorem left_cons : ∃ c s, without line.cut (form.print line.last) = c :: s ∧
    isCharNumber c = !line.last.v.negative := by
  obtain ⟨c, s, same⟩ := form.print_cons line.last
  have vertex := form.isVertex_print line.last
  have some_char := line.some_char
  rw [same] at vertex some_char ⊢
  rw [List.length_cons] at some_char
  refine ⟨c, s.take (s.length - line.cut), ?_, vertex⟩
  rw [without, List.length_cons, Nat.sub_add_comm (Nat.le_of_lt_succ some_char), List.take_succ_cons]

theorem counted_last : counted line.lastText =
    if !line.last.v.negative then [without line.cut (form.print line.last) ++ line.stop] else [] := by
  obtain ⟨c, s, left, digit⟩ := line.left_cons
  obtain ⟨c', r, stop, -, -, none⟩ := line.stop_cons
  have free : space ∉ without line.cut (form.print line.last) :=
    fun member => form.space_print line.last (List.mem_of_mem_take member)
  have noNul : 0 ∉ without line.cut (form.print line.last) :=
    fun member => form.nul_print line.last (List.mem_of_mem_take member)
  have step := counted_word (q := []) (s := line.stop) List.not_mem_nil List.not_mem_nil free noNul (by rw [left]; rfl)
  have vertex : isVertex (without line.cut (form.print line.last)) = !line.last.v.negative := by
    rw [left]
    exact digit
  rw [vertex, stop, none] at step
  rw [lastText, stop]
  exact step

theorem vCount : (inspectFaceLine line.text).1 = line.vertices.countP fun x => !x.v.negative := by
  have row := counted_row form (q := []) line.init List.not_mem_nil List.not_mem_nil line.lastText
  rw [List.nil_append] at row
  rw [inspectFaceLine_eq, text, List.drop_one, List.tail_cons]
  dsimp only
  rw [row, counted_last, vertices, List.countP_append, List.countP_singleton]
  split <;> rfl

theorem stops_lastText : Stops line.lastText := stops_space _

theorem first_mem : line.first ∈ line.vertices := by
  unfold first vertices
  cases line.init with
  | nil => exact List.mem_cons_self
  | cons x xs => exact List.mem_cons_self

/-- What the first scanner sees of the first vertex. -/
def firstLeft : Chars := if line.init = [] then without line.cut (form.print line.last) else form.print line.first

theorem first_found (positive : ∀ x ∈ line.vertices, x.v.negative = false) :
    (inspectFaceLine line.text).2 = some (inspectVertexDefinition line.firstLeft) := by
  rw [inspectFaceLine_eq, text, List.drop_one, List.tail_cons, firstLeft, first]
  dsimp only
  cases same : line.init with
  | nil =>
    obtain ⟨c, r, stop, -, stops, -⟩ := line.stop_cons
    have sign := positive line.last (List.mem_append_right _ List.mem_cons_self)
    rw [row, List.flatMap_nil, List.nil_append, counted_last, sign, stop, if_pos rfl, if_pos (by rfl)]
    exact congrArg some (inspectVertexDefinition_append stops _)
  | cons x xs =>
    have sign := positive x (List.mem_append_left _ (same ▸ List.mem_cons_self))
    have vertex := form.isVertex_print x
    rw [sign] at vertex
    have next : Stops (row form xs ++ line.lastText) := by
      cases xs with
      | nil => exact line.stops_lastText
      | cons y ys =>
        rw [row_cons]
        exact stops_space _
    have head : isCharNumber (at0 (form.print x ++ (row form xs ++ line.lastText))) = isVertex (form.print x) := by
      obtain ⟨c, s, same⟩ := form.print_cons x
      rw [same]
      rfl
    have step := counted_word (q := []) List.not_mem_nil List.not_mem_nil (form.space_print x) (form.nul_print x) head
    rw [List.nil_append, vertex, if_pos (by rfl)] at step
    rw [row_cons, step, if_neg (by simp)]
    exact congrArg some (inspectVertexDefinition_append next _)

theorem firstLeft_le (positive : ∀ x ∈ line.vertices, x.v.negative = false) :
    ((inspectVertexDefinition line.firstLeft).hasTexCoords = true →
        (form.inspected line.first).hasTexCoords = true) ∧
      ((inspectVertexDefinition line.firstLeft).hasNormals = true → (form.inspected line.first).hasNormals = true) := by
  have sign : line.first.v.negative = false := positive _ line.first_mem
  rw [← form.inspect_print sign]
  unfold firstLeft
  split
  · rename_i alone
    have longer := inspectVertexDefinition_longer (without line.cut (form.print line.last))
      ((form.print line.last).drop ((form.print line.last).length - line.cut))
    rw [without, List.take_append_drop] at longer
    rw [first, alone]
    exact longer
  · exact ⟨id, id⟩

theorem firstLeft_has {counts : Counts} (positive : ∀ x ∈ line.vertices, x.v.negative = false)
    (unsigned : Unsigned form line.first) (kept : form.Keeps counts line.last line.cut) :
    inspectVertexDefinition line.firstLeft = form.has := by
  have sign : line.last.v.negative = false := positive line.last (List.mem_append_right _ List.mem_cons_self)
  have whole := line.firstLeft_le positive
  rw [inspected_unsigned unsigned] at whole
  by_cases alone : line.init = []
  swap
  · rw [firstLeft, if_neg alone, form.inspect_print (positive _ line.first_mem), inspected_unsigned unsigned]
  have same : line.first = line.last := by
    rw [first, alone]
    rfl
  rw [same] at unsigned
  have zero : line.cut = 0 → inspectVertexDefinition line.firstLeft = form.has := by
    intro none
    rw [firstLeft, if_pos alone, none, without_zero, form.inspect_print sign, inspected_unsigned unsigned]
  cases form with
  | v => exact zero kept
  | vn => exact kept.elim
  | vt =>
    unfold Form.Keeps Number.Kept at kept
    rw [unsigned.1 rfl] at kept
    exact zero kept
  | vtn =>
    unfold Form.Keeps Number.Kept at kept
    rw [unsigned.2 rfl] at kept
    exact zero kept.2
  | vtSlash =>
    unfold Form.Keeps Number.Kept at kept
    rw [unsigned.1 rfl] at kept
    have one : line.cut - 1 = 0 := kept
    cases cut : line.cut with
    | zero => exact zero cut
    | succ n =>
      have none : n + 1 - List.length ([] : Chars) - 1 = 0 := by
        rw [List.length_nil]
        omega
      rw [firstLeft, if_pos alone, cut, Form.print_vtSlash, without_past _ (Nat.succ_pos n), none, without_zero,
        Form.vt.inspect_print sign]
      exact inspected_unsigned unsigned
  | vSlashes =>
    generalize inspectVertexDefinition line.firstLeft = found at whole
    obtain ⟨coord, normal⟩ := whole
    rcases found with ⟨_ | _, _ | _⟩
    · rfl
    · exact absurd (normal rfl) (by decide)
    · exact absurd (coord rfl) (by decide)
    · exact absurd (normal rfl) (by decide)

/-- The whole line is read as it is meant. -/
structure Keeps (counts : Counts) : Prop where
  positive : ∀ x ∈ line.vertices, x.v.negative = false
  unsigned : Unsigned form line.first
  init : ∀ x ∈ line.init, form.Keeps counts x 0
  last : form.Keeps counts line.last line.cut

end FaceText

theorem corner_iff {form : Form} {counts : Counts} {x : Vertex} (sign : x.v.negative = false)
    (within : form.Within counts x) : form.corner form.has x = form.meant counts x ↔ form.Keeps counts x 0 := by
  have read := readCorners_row form.sees_has (q := []) [x] List.not_mem_nil (c := 0) rfl [] 0
  have one := reads_iff 0 (q := []) (c := 0) (r := []) sign within List.not_mem_nil rfl (.inl rfl)
  rw [without_zero] at one
  rw [row_cons] at read
  rw [← one, Reads, show readCorners form.has 1 ([] ++ space :: (form.print x ++ [0])) =
    some [form.corner form.has x] from read]
  simp

theorem readCorners_some {has : Components} {m : Nat} {s : Chars} {cs : List Corner}
    (h : readCorners has m s = some cs) : cs.length = m ∧ ∀ c ∈ cs, ∃ p : Pointers, p.read has = some c := by
  induction m generalizing s cs with
  | zero =>
    cases h
    exact ⟨rfl, fun c member => absurd member List.not_mem_nil⟩
  | succ m ih =>
    cases found : pointers has s with
    | none =>
      unfold readCorners rounds at h
      rw [found] at h
      cases h
    | some p =>
      rw [readCorners_succ found] at h
      obtain ⟨c, read, next⟩ := Option.bind_eq_some_iff.mp h
      obtain ⟨cs', rest, rfl⟩ := Option.map_eq_some_iff.mp next
      obtain ⟨length, reads⟩ := ih rest
      refine ⟨by rw [List.length_cons, length], ?_⟩
      intro c' member
      rcases List.mem_cons.mp member with rfl | later
      · exact ⟨p, read⟩
      · exact reads c' later

theorem absent_of_read {has : Components} {p : Pointers} {c : Corner} (h : p.read has = some c) :
    (has.hasTexCoords = false → c.uvIndex = -1) ∧ (has.hasNormals = false → c.normalIndex = -1) := by
  unfold Pointers.read at h
  obtain ⟨v, -, h⟩ := Option.bind_eq_some_iff.mp h
  obtain ⟨t, coord, h⟩ := Option.bind_eq_some_iff.mp h
  obtain ⟨n, normal, h⟩ := Option.bind_eq_some_iff.mp h
  cases h
  constructor <;> intro absent
  · rw [readComponent, absent] at coord
    cases coord
    rfl
  · rw [readComponent, absent] at normal
    cases normal
    rfl

namespace FaceText
variable {form : Form} (line : FaceText form) {counts : Counts}

/-- The walk over a line whose components have all been seen. -/
theorem walk (within : ∀ x ∈ line.vertices, form.Within counts x)
    (positive : ∀ x ∈ line.vertices, x.v.negative = false) :
    readCorners form.has line.vertices.length line.text = some (line.vertices.map (form.meant counts)) ↔
      (∀ x ∈ line.init, form.Keeps counts x 0) ∧ form.Keeps counts line.last line.cut := by
  obtain ⟨c, r, stop, other, -, -⟩ := line.stop_cons
  have whole := line.whole
  rw [stop] at whole
  have member : line.last ∈ line.vertices := List.mem_append_right _ List.mem_cons_self
  have last := reads_iff line.cut (q := []) (positive _ member) (within _ member) List.not_mem_nil other whole
  rw [List.nil_append] at last
  have corners : (∀ x ∈ line.init, form.Keeps counts x 0) ↔
      line.init.map (form.corner form.has) = line.init.map (form.meant counts) := by
    rw [List.map_inj_left]
    have among : ∀ x ∈ line.init, x ∈ line.vertices := fun x member => List.mem_append_left _ member
    exact ⟨fun h x member => (corner_iff (positive x (among x member)) (within x (among x member))).mpr (h x member),
      fun h x member => (corner_iff (positive x (among x member)) (within x (among x member))).mp (h x member)⟩
  have read := readCorners_row form.sees_has (q := [102]) line.init (by decide) (c := space) rfl
    (without line.cut (form.print line.last) ++ c :: r) 1
  rw [corners, ← last, Reads, text, lastText, stop, vertices, List.length_append, List.length_singleton]
  rw [show (102 : UInt8) :: (row form line.init ++ space :: (without line.cut (form.print line.last) ++ c :: r)) =
    [102] ++ (row form line.init ++ space :: (without line.cut (form.print line.last) ++ c :: r)) from rfl, read]
  cases one : readCorners form.has 1 (space :: (without line.cut (form.print line.last) ++ c :: r)) with
  | none => simp
  | some cs =>
    have single := (readCorners_some one).1
    simp only [Option.map_some, Option.some.injEq, List.map_append, List.map_cons, List.map_nil]
    constructor
    · intro same
      exact List.append_inj same (by simp)
    · intro ⟨front, back⟩
      rw [front, back]

theorem corners_iff (within : ∀ x ∈ line.vertices, form.Within counts x) (stale : Components) :
    readCorners ((inspectFaceLine line.text).2.getD stale) (inspectFaceLine line.text).1 line.text =
      some (line.vertices.map (form.meant counts)) ↔ line.Keeps counts := by
  constructor
  · intro read
    obtain ⟨length, reads⟩ := readCorners_some read
    rw [vCount, List.length_map] at length
    have positive : ∀ x ∈ line.vertices, x.v.negative = false := by
      intro x member
      have := List.countP_eq_length.mp length.symm x member
      simpa using this
    rw [line.first_found positive, Option.getD_some, vCount, ← length] at read
    have member := line.first_mem
    obtain ⟨p, here⟩ := (readCorners_some read).2 _ (List.mem_map_of_mem member)
    obtain ⟨noCoord, noNormal⟩ := absent_of_read here
    have coord : form.has.hasTexCoords = true → (inspectVertexDefinition line.firstLeft).hasTexCoords = true := by
      intro has
      by_contra absent
      have := Number.resolve_nonneg ((within _ member).t has)
      have minus := noCoord (Bool.not_eq_true _ |>.mp absent)
      rw [Form.meant, if_pos has] at minus
      dsimp only at minus
      omega
    have normal : form.has.hasNormals = true → (inspectVertexDefinition line.firstLeft).hasNormals = true := by
      intro has
      by_contra absent
      have := Number.resolve_nonneg ((within _ member).n has)
      have minus := noNormal (Bool.not_eq_true _ |>.mp absent)
      rw [Form.meant, if_pos has] at minus
      dsimp only at minus
      omega
    obtain ⟨coord', normal'⟩ := line.firstLeft_le positive
    have unsigned := unsigned_of_inspected (fun has => coord' (coord has)) fun has => normal' (normal has)
    rw [inspected_unsigned unsigned] at coord' normal'
    have seen : inspectVertexDefinition line.firstLeft = form.has := by
      generalize inspectVertexDefinition line.firstLeft = found at coord normal coord' normal'
      generalize form.has = has at coord normal coord' normal'
      rcases found with ⟨t, n⟩
      rcases has with ⟨t', n'⟩
      exact congrArg₂ Components.mk (Bool.eq_iff_iff.mpr ⟨coord', coord⟩) (Bool.eq_iff_iff.mpr ⟨normal', normal⟩)
    rw [seen] at read
    obtain ⟨init, last⟩ := (line.walk within positive).mp read
    exact ⟨positive, unsigned, init, last⟩
  · intro ⟨positive, unsigned, init, last⟩
    have seen := line.firstLeft_has positive unsigned last
    have all : line.vertices.countP (fun x => !x.v.negative) = line.vertices.length := by
      rw [List.countP_eq_length]
      intro x member
      rw [positive x member]
      rfl
    rw [line.first_found positive, Option.getD_some, vCount, all, seen]
    exact (line.walk within positive).mpr ⟨init, last⟩

end FaceText

/-! ### In the loader -/

/-- All vertices are read as they are meant when the statement loses its last `cut` characters. -/
structure KeepsAll (form : Form) (counts : Counts) (xs : List Vertex) (cut : Nat) : Prop where
  positive : ∀ x ∈ xs, x.v.negative = false
  unsigned : ∀ x ∈ xs.head?, Unsigned form x
  init : ∀ x ∈ xs.dropLast, form.Keeps counts x 0
  last : ∀ x ∈ xs.getLast?, form.Keeps counts x cut

namespace Loading

def counts (st : Loading) : Counts := ⟨st.vertices.length, st.uvs.length, st.normals.length⟩

/-- One more face in the current subset, and other flags there. -/
def withFace (st : Loading) (buffer : Chars) (has : Components) (face : MyFace) : Loading :=
  { st with
    buffer := buffer
    curSubset := { st.curSubset with
      faces := st.curSubset.faces ++ [face]
      bHasUv := some has.hasTexCoords
      bHasNormal := some has.hasNormals } }

end Loading

section Line
open Loading
variable {form : Form}

theorem faceLine_concat (init : List Vertex) (last : Vertex) :
    faceLine form (init ++ [last]) = (102 :: row form init ++ [space]) ++ form.print last := by
  rw [faceLine, row_append, row, row, List.flatMap_singleton]
  simp

theorem take_eq_without (n : Nat) (s : Chars) : s.take n = without (s.length - n) s := by
  unfold without
  by_cases long : n ≤ s.length
  · rw [Nat.sub_sub_self long]
  · rw [Nat.sub_eq_zero_of_le (Nat.le_of_not_le long), List.take_of_length_le (Nat.le_of_not_le long), Nat.sub_zero,
      List.take_length]

theorem mem_row {xs : List Vertex} {c : UInt8} (member : c ∈ row form xs) :
    c = space ∨ c = slash ∨ c = 45 ∨ isDigit c = true := by
  obtain ⟨x, -, among⟩ := List.mem_flatMap.mp member
  rcases List.mem_cons.mp among with same | inside
  · exact .inl same
  rw [Form.print_eq] at inside
  rcases List.mem_append.mp inside with first | second
  · exact .inr (.inr (Number.mem_print first))
  rcases Form.mem_tail second with same | coord | normal
  · exact .inr (.inl same)
  · exact .inr (.inr (Number.mem_print coord))
  · exact .inr (.inr (Number.mem_print normal))

theorem idle_row {xs : List Vertex} {c : UInt8} (member : c ∈ row form xs) : Loading.Idle c := by
  rcases mem_row member with rfl | rfl | rfl | digit
  · decide
  · decide
  · decide
  · intro among
    have none : (chars "vfogumUM").all (fun b => !isDigit b) = true := by decide
    have := List.all_eq_true.mp none c among
    rw [digit] at this
    cases this

theorem not_keeps {counts : Counts} {x : Vertex} {cut : Nat} (h : (form.print x).length ≤ cut) :
    ¬ form.Keeps counts x cut := by
  have v := x.v.length_print
  have t : _ → ¬ x.t.Kept cut _ := x.t.not_kept counts.t
  have t' : _ → ¬ x.t.Kept (cut - 1) _ := x.t.not_kept counts.t
  have n : _ → ¬ x.n.Kept cut _ := x.n.not_kept counts.n
  cases form <;> simp only [Form.print, List.length_append, List.length_cons, List.length_nil] at h <;>
    unfold Form.Keeps
  case v => omega
  case vt => exact t (by omega)
  case vn => exact not_false
  case vtn => exact fun both => n (by omega) both.2
  case vtSlash => exact t' (by omega)
  case vSlashes => omega

theorem counted_le {p : Chars} (noNul : 0 ∉ p) (s : Chars) : (counted p).length ≤ (counted (p ++ s)).length := by
  induction p with
  | nil => exact Nat.zero_le _
  | cons c p ih =>
    have tail := ih fun member => noNul (List.mem_cons_of_mem c member)
    have char : c ≠ 0 := fun same => noNul (same ▸ List.mem_cons_self)
    rw [List.cons_append, counted, counted, if_neg char, if_neg char]
    by_cases here : c = space ∧ isCharNumber (at0 p) = true
    · have there : c = space ∧ isCharNumber (at0 (p ++ s)) = true := by
        cases p with
        | nil => exact absurd here.2 (by decide)
        | cons d p => exact here
      rw [if_pos here, if_pos there]
      exact Nat.succ_le_succ tail
    · rw [if_neg here]
      split
      · exact Nat.le_succ_of_le tail
      · exact tail

theorem nul_row (xs : List Vertex) : 0 ∉ row form xs := fun member => by
  rcases mem_row member with same | same | same | digit
  · exact absurd same (by decide)
  · exact absurd same (by decide)
  · exact absurd same (by decide)
  · exact absurd digit (by decide)

theorem few_counted (init : List Vertex) (m : Nat) :
    (counted ((row form init ++ [space]).take m ++ [0])).length ≤ init.length := by
  have noNul : 0 ∉ (row form init ++ [space]).take m := by
    intro member
    rcases List.mem_append.mp (List.mem_of_mem_take member) with inside | last
    · exact nul_row init inside
    · exact absurd (List.mem_singleton.mp last) (by decide)
  have whole := counted_row form (q := []) init List.not_mem_nil List.not_mem_nil [space, 0]
  have less := counted_le noNul ((row form init ++ [space]).drop m ++ [0])
  rw [← List.append_assoc, List.take_append_drop, List.append_assoc] at less
  rw [List.nil_append] at whole
  rw [counted_nul _ [] noNul, List.length_map]
  have none : (counted [space, 0]).length = 0 := rfl
  rw [none, Nat.add_zero] at whole
  exact Nat.le_trans less (Nat.le_trans (Nat.le_of_eq whole) List.countP_le_length)

variable {floats : Floats} {st : Loading}

theorem load_face (form : Form) (floats : Floats) (room : st.buffer.length = lineBuffSize) {xs : List Vertex}
    (some_vertex : xs ≠ []) {eol : Chars} (ending : eol = [] ∨ eol = [newline]) : ∃ eol' buffer,
      (eol' = [] ∨ eol' = [newline] ∧ (faceLine form xs).length < lineBuffSize - 1) ∧
      ((faceLine form xs).take (lineBuffSize - 1) ++ eol').length < lineBuffSize ∧
      st.loadLines floats (lines (lineBuffSize - 1) (faceLine form xs ++ eol)) =
        ((st.fill ((faceLine form xs).take (lineBuffSize - 1) ++ eol')).readFace).map fun st' =>
          { st' with buffer := buffer } := by
  have free : newline ∉ faceLine form xs := by
    intro member
    rcases List.mem_cons.mp member with same | among
    · exact absurd same (by decide)
    · rcases mem_row among with same | same | same | digit
      · exact absurd same (by decide)
      · exact absurd same (by decide)
      · exact absurd same (by decide)
      · exact absurd digit (by decide)
  obtain ⟨eol', later, split, short, fits, pieces⟩ :=
    lines_line (n := lineBuffSize - 2) (List.cons_ne_nil 102 (row form xs)) free ending
  have short' : ((faceLine form xs).take (lineBuffSize - 1) ++ eol').length < lineBuffSize := Nat.lt_succ_of_le short
  refine ⟨eol', leave (st.fill ((faceLine form xs).take (lineBuffSize - 1) ++ eol')).buffer later, ?_, short', ?_⟩
  · exact fits.imp id fun both => ⟨both.1, Nat.lt_succ_of_le both.2⟩
  have begins : ∃ s, (st.fill ((faceLine form xs).take (lineBuffSize - 1) ++ eol')).buffer = chars "f " ++ s := by
    obtain ⟨x, xs, rfl⟩ := List.exists_cons_of_ne_nil some_vertex
    rw [fill_eq room short']
    exact ⟨_, rfl⟩
  obtain ⟨s, begins⟩ := begins
  have step : st.loadLines floats (lines (lineBuffSize - 1) (faceLine form xs ++ eol)) =
      (st.fill ((faceLine form xs).take (lineBuffSize - 1) ++ eol')).readFace.bind fun st' =>
        st'.loadLines floats later := by
    have first : Loading.statement floats _ = _ := statement_face begins
    have split : lines (lineBuffSize - 1) (faceLine form xs ++ eol) =
      ((faceLine form xs).take (lineBuffSize - 1) ++ eol') :: later := split
    rw [split, loadLines, List.foldlM_cons, loadLine, first]
    rfl
  rw [step]
  cases read : (st.fill ((faceLine form xs).take (lineBuffSize - 1) ++ eol')).readFace with
  | none => rfl
  | some st' =>
    have same := readFace_buffer read
    rw [Option.bind_some, Option.map_some, ← same]
    apply loadLines_idle
    · rw [same, length_fill, room]
    · exact fun line member => Nat.lt_succ_of_le (pieces line member).1
    · intro line member c among
      rcases (pieces line member).2 c among with inside | rfl
      · exact idle_row (List.mem_of_mem_drop inside)
      · decide

theorem FaceText.keeps_iff (line : FaceText form) {counts : Counts} :
    line.Keeps counts ↔ KeepsAll form counts line.vertices line.cut := by
  have first : line.vertices.head? = some line.first := by
    unfold vertices FaceText.first
    cases line.init <;> rfl
  constructor
  · intro ⟨positive, unsigned, init, last⟩
    refine ⟨positive, ?_, ?_, ?_⟩
    · rw [first]
      intro x same
      cases same
      exact unsigned
    · rwa [vertices, List.dropLast_concat]
    · rw [vertices, List.getLast?_concat]
      intro x same
      cases same
      exact last
  · intro ⟨positive, unsigned, init, last⟩
    rw [vertices, List.dropLast_concat] at init
    rw [vertices, List.getLast?_concat] at last
    rw [first] at unsigned
    exact ⟨positive, unsigned _ rfl, init, last _ rfl⟩

theorem exists_faceText {init : List Vertex} {last : Vertex} {n : Nat} {eol' rest : Chars}
    (inside : (faceLine form (init ++ [last])).length - n < (form.print last).length)
    (ending : eol' = [] ∨ eol' = [newline] ∧ (faceLine form (init ++ [last])).length < n)
    (full : n ≤ (faceLine form (init ++ [last])).length → rest = []) :
    ∃ line : FaceText form, line.init = init ∧ line.last = last ∧
      line.cut = (faceLine form (init ++ [last])).length - n ∧
      line.text = (faceLine form (init ++ [last])).take n ++ eol' ++ 0 :: rest := by
  obtain ⟨cut, same⟩ : ∃ cut, cut = (faceLine form (init ++ [last])).length - n := ⟨_, rfl⟩
  rw [← same] at inside
  have left : (faceLine form (init ++ [last])).take n =
      (102 :: row form init ++ [space]) ++ without cut (form.print last) := by
    rw [take_eq_without, ← same, faceLine_concat, without_append _ (Nat.le_of_lt inside)]
  refine ⟨⟨init, last, cut, inside, eol' ++ 0 :: rest, ⟨rest, ?_⟩, ?_⟩, rfl, rfl, same, ?_⟩
  · exact ending.imp (fun none => by rw [none]; rfl) fun both => by rw [both.1]; rfl
  · rw [or_iff_not_imp_left]
    intro some_cut
    have long : n ≤ (faceLine form (init ++ [last])).length := by omega
    rw [full long, ending.resolve_right (fun both => absurd both.2 (Nat.not_lt_of_le long))]
    rfl
  · rw [left]
    simp [FaceText.text, FaceText.lastText]

theorem vCount_cut {init : List Vertex} {last : Vertex} {n : Nat} (some_char : 0 < n)
    (outside : (form.print last).length ≤ (faceLine form (init ++ [last])).length - n) :
    (inspectFaceLine ((faceLine form (init ++ [last])).take n ++ [0])).1 < (init ++ [last]).length := by
  have front : (faceLine form (init ++ [last])).take n = 102 :: (row form init ++ [space]).take (n - 1) := by
    rw [faceLine_concat] at outside ⊢
    obtain ⟨m, rfl⟩ := Nat.exists_eq_add_of_lt some_char
    obtain ⟨c, s, same⟩ := form.print_cons last
    rw [List.length_append, same, List.length_cons] at outside
    rw [List.take_append_of_le_length (by omega)]
    simp
  rw [inspectFaceLine_eq, front, List.cons_append, List.drop_one, List.tail_cons, List.length_append,
    List.length_singleton]
  exact Nat.lt_succ_of_le (few_counted init _)

/-- What the buffer holds is read as it is meant if and only if all that matters is left in it. -/
theorem buffer_iff {counts : Counts} {xs : List Vertex} (some_vertex : xs ≠ [])
    (within : ∀ x ∈ xs, form.Within counts x) {n : Nat} (some_char : 0 < n) {eol' rest : Chars}
    (ending : eol' = [] ∨ eol' = [newline] ∧ (faceLine form xs).length < n)
    (full : n ≤ (faceLine form xs).length → rest = []) (stale : Components) {B : Chars}
    (same : B = (faceLine form xs).take n ++ eol' ++ 0 :: rest) :
    (readCorners ((inspectFaceLine B).2.getD stale) (inspectFaceLine B).1 B = some (xs.map (form.meant counts)) ↔
      KeepsAll form counts xs ((faceLine form xs).length - n)) ∧
    (KeepsAll form counts xs ((faceLine form xs).length - n) → (inspectFaceLine B).2 = some form.has) := by
  obtain ⟨init, last, rfl⟩ : ∃ init last, xs = init ++ [last] :=
    ⟨_, _, (List.dropLast_append_getLast some_vertex).symm⟩
  by_cases inside : (faceLine form (init ++ [last])).length - n < (form.print last).length
  · obtain ⟨line, rfl, rfl, cut, text⟩ := exists_faceText inside ending full
    rw [same, ← text, ← cut, show line.init ++ [line.last] = line.vertices from rfl, ← line.keeps_iff]
    refine ⟨line.corners_iff within stale, ?_⟩
    intro keeps
    rw [line.first_found keeps.positive, line.firstLeft_has keeps.positive keeps.unsigned keeps.last]
  · have outside := Nat.le_of_not_lt inside
    have none : ¬ KeepsAll form counts (init ++ [last]) ((faceLine form (init ++ [last])).length - n) := by
      intro keeps
      have kept := keeps.last last (by rw [List.getLast?_concat]; rfl)
      exact not_keeps outside kept
    have long : n ≤ (faceLine form (init ++ [last])).length := by
      obtain ⟨c, s, print⟩ := form.print_cons last
      rw [print, List.length_cons] at outside
      omega
    have few := vCount_cut some_char outside
    rw [full long, ending.resolve_right (fun both => absurd both.2 (Nat.not_lt_of_le long)), List.append_nil] at same
    refine ⟨⟨?_, fun keeps => absurd keeps none⟩, fun keeps => absurd keeps none⟩
    intro read
    have length := (readCorners_some read).1
    rw [same, List.length_map] at length
    omega

/-- What a face statement adds to what has been loaded, and what of it matters. -/
theorem face_iff (form : Form) (floats : Floats) (room : st.buffer.length = lineBuffSize) {xs : List Vertex}
    (some_vertex : xs ≠ []) (within : ∀ x ∈ xs, form.Within st.counts x) {eol : Chars}
    (ending : eol = [] ∨ eol = [newline]) :
    (KeepsAll form st.counts xs ((faceLine form xs).length - (lineBuffSize - 1)) →
      ∃ buffer, st.loadLines floats (lines (lineBuffSize - 1) (faceLine form xs ++ eol)) =
        some (st.withFace buffer form.has (.ofCorners (xs.map (form.meant st.counts))))) ∧
    ((∃ buffer has, st.loadLines floats (lines (lineBuffSize - 1) (faceLine form xs ++ eol)) =
        some (st.withFace buffer has (.ofCorners (xs.map (form.meant st.counts))))) →
      KeepsAll form st.counts xs ((faceLine form xs).length - (lineBuffSize - 1))) := by
  obtain ⟨eol', buffer, fits, short, loads⟩ := load_face form floats room some_vertex ending
  have text := fill_eq room short
  have full : lineBuffSize - 1 ≤ (faceLine form xs).length →
      st.buffer.drop (((faceLine form xs).take (lineBuffSize - 1) ++ eol').length + 1) = [] := by
    intro long
    rw [List.drop_eq_nil_iff, room, List.length_append, List.length_take]
    omega
  obtain ⟨reads, found⟩ := buffer_iff some_vertex within (by decide) fits full st.curSubset.has text
  rw [loads, readFace_eq]
  constructor
  · intro keeps
    refine ⟨buffer, ?_⟩
    have read := reads.mpr keeps
    rw [show (st.fill ((faceLine form xs).take (lineBuffSize - 1) ++ eol')).curSubset = st.curSubset from rfl, read,
      found keeps]
    rfl
  · rintro ⟨buffer', has, loaded⟩
    apply reads.mp
    obtain ⟨st', read, same⟩ := Option.map_eq_some_iff.mp loaded
    obtain ⟨corners, walked, rfl⟩ := Option.map_eq_some_iff.mp read
    have faces := congrArg (fun st : Loading => st.curSubset.faces) same
    dsimp only at faces
    rw [pushFace_faces] at faces
    have face := List.singleton_inj.mp (List.append_cancel_left faces)
    rw [← MyFace.ofCorners_injective face]
    exact walked

/-- The statement is cut off in its last vertex, behind all its numbers, or not at all. -/
def FitsBut (form : Form) (xs : List Vertex) : Prop := ∀ c ∈ (faceLine form xs).drop (lineBuffSize - 1), c = slash

/-- How many slashes there are behind the last number. -/
def Form.trailing : Form → Nat
  | vtSlash => 1
  | vSlashes => 2
  | _ => 0

theorem print_ends (form : Form) (x : Vertex) :
    ∃ s d, form.print x = s ++ d :: List.replicate form.trailing slash ∧ d ≠ slash := by
  have number : ∀ y : Number, ∃ s d, y.print = s ++ [d] ∧ d ≠ slash := by
    intro y
    obtain ⟨s, d, same, digit⟩ := y.print_concat
    refine ⟨s, d, same, ?_⟩
    rintro rfl
    exact absurd digit (by decide)
  obtain ⟨v, d, v_ends, d_other⟩ := number x.v
  obtain ⟨t, e, t_ends, e_other⟩ := number x.t
  obtain ⟨n, f, n_ends, f_other⟩ := number x.n
  cases form <;> simp only [Form.print, Form.trailing, v_ends, t_ends, n_ends]
  case v => exact ⟨v, d, rfl, d_other⟩
  case vt => exact ⟨v ++ d :: slash :: t, e, by simp, e_other⟩
  case vn => exact ⟨v ++ d :: slash :: slash :: n, f, by simp, f_other⟩
  case vtn => exact ⟨v ++ d :: slash :: (t ++ e :: slash :: n), f, by simp, f_other⟩
  case vtSlash => exact ⟨v ++ d :: slash :: t, e, by simp, e_other⟩
  case vSlashes => exact ⟨v, d, by simp, d_other⟩

theorem fitsBut_iff {init : List Vertex} {last : Vertex} : FitsBut form (init ++ [last]) ↔
    (faceLine form (init ++ [last])).length - (lineBuffSize - 1) ≤ form.trailing := by
  obtain ⟨s, d, ends, other⟩ := print_ends form last
  unfold FitsBut
  generalize lineBuffSize - 1 = n
  rw [faceLine_concat, ends, ← List.append_assoc]
  generalize 102 :: row form init ++ [space] ++ s = p
  rw [List.length_append, List.length_cons, List.length_replicate]
  constructor
  · intro slashes
    by_contra more
    apply other
    apply slashes
    rw [List.drop_append_of_le_length (by omega)]
    exact List.mem_append_right _ List.mem_cons_self
  · intro fits c member
    have behind : p.length + 1 ≤ n := by omega
    rw [show p ++ d :: List.replicate form.trailing slash = (p ++ [d]) ++ List.replicate form.trailing slash by simp,
      List.drop_append, List.drop_eq_nil_of_le (by rw [List.length_append]; exact behind), List.nil_append] at member
    exact List.eq_of_mem_replicate (List.mem_of_mem_drop member)

theorem keeps_unsigned (counts : Counts) {x : Vertex} (t : x.t.negative = false) (n : x.n.negative = false)
    (cut : Nat) : form.Keeps counts x cut ↔ form ≠ .vn ∧ cut ≤ form.trailing := by
  unfold Form.Keeps Number.Kept Form.trailing
  cases form <;> simp [t, n]
  omega

theorem keepsAll_unsigned {counts : Counts} {xs : List Vertex} (some_vertex : xs ≠ [])
    (unsigned : ∀ x ∈ xs, x.v.negative = false ∧ x.t.negative = false ∧ x.n.negative = false) :
    KeepsAll form counts xs ((faceLine form xs).length - (lineBuffSize - 1)) ↔ form ≠ .vn ∧ FitsBut form xs := by
  obtain ⟨init, last, rfl⟩ : ∃ init last, xs = init ++ [last] :=
    ⟨_, _, (List.dropLast_append_getLast some_vertex).symm⟩
  obtain ⟨-, t, n⟩ := unsigned last (List.mem_append_right _ List.mem_cons_self)
  rw [fitsBut_iff, ← keeps_unsigned counts t n]
  constructor
  · intro keeps
    exact keeps.last last (by rw [List.getLast?_concat]; rfl)
  · intro kept
    have form' := ((keeps_unsigned counts t n _).mp kept).1
    refine ⟨fun x member => (unsigned x member).1, ?_, ?_, ?_⟩
    · intro x head
      obtain ⟨-, t, n⟩ := unsigned x (List.mem_of_mem_head? head)
      exact ⟨fun _ => t, fun _ => n⟩
    · rw [List.dropLast_concat]
      intro x member
      obtain ⟨-, t, n⟩ := unsigned x (List.mem_append_left _ member)
      exact (keeps_unsigned counts t n 0).mpr ⟨form', Nat.zero_le _⟩
    · rw [List.getLast?_concat]
      intro x same
      cases same
      exact kept

end Line

/-- The indices that are written, with 0 for the first. -/
def Form.written (form : Form) (x : Vertex) : Corner where
  vertIndex := (numeral x.v.digits : Nat) - 1
  uvIndex := if form.has.hasTexCoords then (numeral x.t.digits : Nat) - 1 else -1
  normalIndex := if form.has.hasNormals then (numeral x.n.digits : Nat) - 1 else -1

theorem meant_unsigned {form : Form} {counts : Counts} {x : Vertex} (v : x.v.negative = false)
    (t : x.t.negative = false) (n : x.n.negative = false) : form.meant counts x = form.written x := by
  unfold Form.meant Form.written Number.resolve
  rw [v, t, n]
  rfl

theorem within_unsigned {form : Form} {counts : Counts} {x : Vertex} (v : x.v.negative = false)
    (t : x.t.negative = false) (n : x.n.negative = false) : form.Within counts x := by
  have none : ∀ y : Number, y.negative = false → ∀ count, y.Within count := by
    intro y sign count minus
    rw [sign] at minus
    cases minus
  exact ⟨none _ v _, fun _ => none _ t _, fun _ => none _ n _⟩

/-- A face statement with positive indices adds the face that is written, with its flags, if and only if it is not
of the form `v//n` and all of it but slashes at its end fits into the buffer. -/
theorem face_appended_iff (floats : Floats) {st : Loading} (room : st.buffer.length = lineBuffSize) (form : Form)
    {xs : List Vertex} (some_vertex : xs ≠ [])
    (unsigned : ∀ x ∈ xs, x.v.negative = false ∧ x.t.negative = false ∧ x.n.negative = false) {eol : Chars}
    (ending : eol = [] ∨ eol = [newline]) :
    (∃ buffer, st.loadLines floats (lines (lineBuffSize - 1) (faceLine form xs ++ eol)) =
      some (st.withFace buffer form.has (.ofCorners (xs.map form.written)))) ↔ form ≠ .vn ∧ FitsBut form xs := by
  have within : ∀ x ∈ xs, form.Within st.counts x := by
    intro x member
    obtain ⟨v, t, n⟩ := unsigned x member
    exact within_unsigned v t n
  have same : xs.map form.written = xs.map (form.meant st.counts) := by
    rw [List.map_inj_left]
    intro x member
    obtain ⟨v, t, n⟩ := unsigned x member
    exact (meant_unsigned v t n).symm
  obtain ⟨kept, keeps⟩ := face_iff form floats room some_vertex within ending
  rw [← keepsAll_unsigned some_vertex unsigned, same]
  exact ⟨fun ⟨buffer, loaded⟩ => keeps ⟨buffer, form.has, loaded⟩, kept⟩

/-- Indices of either sign lead where they are meant to if and only if the statement is not of the form `v//n`, only
numbers behind a slash are negative, none of them in the first vertex, and each of these goes back to the only one
that has been read of its kind. -/
theorem face_resolved_iff (floats : Floats) {st : Loading} (room : st.buffer.length = lineBuffSize) (form : Form)
    {xs : List Vertex} (some_vertex : xs ≠ []) (within : ∀ x ∈ xs, form.Within st.counts x) {eol : Chars}
    (ending : eol = [] ∨ eol = [newline]) :
    (∃ buffer has, st.loadLines floats (lines (lineBuffSize - 1) (faceLine form xs ++ eol)) =
      some (st.withFace buffer has (.ofCorners (xs.map (form.meant st.counts))))) ↔
        KeepsAll form st.counts xs ((faceLine form xs).length - (lineBuffSize - 1)) := by
  obtain ⟨kept, keeps⟩ := face_iff form floats room some_vertex within ending
  refine ⟨keeps, ?_⟩
  intro all
  obtain ⟨buffer, loaded⟩ := kept all
  exact ⟨buffer, form.has, loaded⟩

namespace Sample

def floats : Floats := ⟨fun _ => [], fun _ => ⟨0⟩, id, id⟩

def one : Number := .one

def back : Number := { Number.one with negative := true, small := nofun }

def start : Loading := .initial (cells (fun _ => 0) lineBuffSize)

def point : Loading := { start with vertices := [⟨⟨0⟩, ⟨0⟩, ⟨0⟩⟩] }

theorem room_start : start.buffer.length = lineBuffSize := by
  unfold start Loading.initial
  rw [length_cells]

theorem room_point : point.buffer.length = lineBuffSize := by
  unfold point start Loading.initial
  rw [length_cells]

theorem triangle_appended : ∃ buffer,
    start.loadLines floats (lines (lineBuffSize - 1) (faceLine .vtn [⟨one, one, one⟩] ++ [newline])) =
      some (start.withFace buffer ⟨true, true⟩ ⟨[0], [0], [0]⟩) := by
  have face : MyFace.ofCorners ([⟨one, one, one⟩].map Form.vtn.written) = ⟨[0], [0], [0]⟩ := by decide
  have has : Form.vtn.has = ⟨true, true⟩ := rfl
  have fits : Form.vtn ≠ .vn ∧ FitsBut .vtn [⟨one, one, one⟩] := by
    refine ⟨by decide, ?_⟩
    rw [FitsBut, List.drop_eq_nil_of_le (by decide)]
    exact fun c member => absurd member List.not_mem_nil
  rw [← face, ← has]
  apply (face_appended_iff floats room_start .vtn (List.cons_ne_nil _ _) _ (.inr rfl)).mpr fits
  intro x member
  cases List.mem_singleton.mp member
  exact ⟨rfl, rfl, rfl⟩

/-- `f 1//1`: the normal is -1. -/
theorem normal_lost : ¬ ∃ buffer,
    start.loadLines floats (lines (lineBuffSize - 1) (faceLine .vn [⟨one, one, one⟩] ++ [newline])) =
      some (start.withFace buffer ⟨false, true⟩ ⟨[0], [0], [-1]⟩) := by
  have within : ∀ x ∈ [(⟨one, one, one⟩ : Vertex)], Form.vn.Within start.counts x := by
    intro x member
    cases List.mem_singleton.mp member
    exact within_unsigned rfl rfl rfl
  have face : MyFace.ofCorners ([⟨one, one, one⟩].map (Form.vn.meant start.counts)) = ⟨[0], [0], [-1]⟩ := rfl
  have keeps := (face_iff .vn floats room_start (List.cons_ne_nil ⟨one, one, one⟩ []) within (.inr rfl)).2
  rw [face] at keeps
  rintro ⟨buffer, loaded⟩
  exact (keeps ⟨buffer, _, loaded⟩).last _ rfl

def coordinate : Loading := { start with uvs := [⟨⟨0⟩, ⟨0⟩⟩] }

/-- The second vertex goes back to the only texture coordinate. -/
theorem coordinate_resolved : ∃ buffer has,
    coordinate.loadLines floats (lines (lineBuffSize - 1)
      (faceLine .vt [⟨one, one, one⟩, ⟨one, back, one⟩] ++ [newline])) =
      some (coordinate.withFace buffer has ⟨[0, 0], [-1, -1], [0, 0]⟩) := by
  have room : coordinate.buffer.length = lineBuffSize := by
    unfold coordinate start Loading.initial
    rw [length_cells]
  have within : ∀ x ∈ [(⟨one, one, one⟩ : Vertex), ⟨one, back, one⟩], Form.vt.Within coordinate.counts x := by
    intro x member
    rcases List.mem_cons.mp member with rfl | last
    · exact within_unsigned rfl rfl rfl
    · cases List.mem_singleton.mp last
      exact ⟨nofun, fun _ _ => Nat.le_refl 1, nofun⟩
  have face : MyFace.ofCorners ([(⟨one, one, one⟩ : Vertex), ⟨one, back, one⟩].map
    (Form.vt.meant coordinate.counts)) = ⟨[0, 0], [-1, -1], [0, 0]⟩ := rfl
  rw [← face]
  apply (face_resolved_iff floats room .vt (List.cons_ne_nil _ _) within (.inr rfl)).mpr
  refine ⟨?_, ?_, ?_, ?_⟩
  · intro x member
    rcases List.mem_cons.mp member with rfl | last
    · rfl
    · cases List.mem_singleton.mp last
      rfl
  · intro x head
    cases head
    exact ⟨fun _ => rfl, fun _ => rfl⟩
  · intro x member
    cases List.mem_singleton.mp member
    exact (rfl : 0 = 0)
  · intro x last
    cases last
    exact ⟨rfl, rfl⟩

/-- `f -1` after one position: no vertex is counted. -/
theorem position_lost : ¬ ∃ buffer has,
    point.loadLines floats (lines (lineBuffSize - 1) (faceLine .v [⟨back, one, one⟩] ++ [newline])) =
      some (point.withFace buffer has ⟨[0], [-1], [-1]⟩) := by
  have within : ∀ x ∈ [(⟨back, one, one⟩ : Vertex)], Form.v.Within point.counts x := by
    intro x member
    cases List.mem_singleton.mp member
    exact ⟨fun _ => by decide, nofun, nofun⟩
  have face : MyFace.ofCorners ([⟨back, one, one⟩].map (Form.v.meant point.counts)) = ⟨[0], [-1], [-1]⟩ := rfl
  have keeps := (face_iff .v floats room_point (List.cons_ne_nil ⟨back, one, one⟩ []) within (.inr rfl)).2
  rw [face] at keeps
  rintro ⟨buffer, has, loaded⟩
  exact absurd ((keeps ⟨buffer, has, loaded⟩).positive _ List.mem_cons_self) (by decide)

end Sample

end ModelPublish.Obj
