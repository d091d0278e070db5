import ModelPublish.Obj.Steps
import ModelPublish.Obj.Tokens

/-!
# Well-formed statements

The statements that the importer handles, each on a line of its own, and what `LoadObj2` makes of a text
that is made up of them.
-/

namespace ModelPublish.Obj
open Text Packed

/-- A name that fits into the importer's `char [ MAX_PATH ]`, between blanks before it and what comes behind it. -/
structure Named where
  pad : Chars
  name : Chars
  rest : Chars
  blank : pad.all isSpace = true
  some_char : name ≠ []
  solid : name.all (fun c => !isSpace c) = true
  short : name.length < maxPath
  apart : rest.head?.all isSpace = true
  deriving DecidableEq

/-- The name `red`, and nothing else on its line. -/
def Named.red : Named := ⟨[], chars "red", [], rfl, by decide, rfl, by decide, rfl⟩

def Named.text (x : Named) : Chars := x.pad ++ (x.name ++ x.rest)

inductive Statement where
  | v (numbers : Chars)
  | vn (numbers : Chars)
  | vt (numbers : Chars)
  /-- There may be blanks at the end of the line. -/
  | f (form : Form) (xs : List Vertex) (blanks : Nat)
  | o (part : Named)
  | g (group : Option Named)
  | usemtl (mtl : Named)
  | mtllib (file : Named)
  /-- Comments, empty lines, and statements that are not handled. -/
  | other (line : Chars)
  deriving DecidableEq

namespace Statement

def line : Statement → Chars
  | v numbers => chars "v " ++ numbers
  | vn numbers => chars "vn " ++ numbers
  | vt numbers => chars "vt " ++ numbers
  | f form xs blanks => faceLine form xs ++ List.replicate blanks space
  | o part => chars "o " ++ part.text
  | g group => chars "g " ++ (group.map Named.text).getD []
  | usemtl mtl => chars "usemtl " ++ mtl.text
  | mtllib file => chars "mtllib " ++ file.text
  | other line => line

/-- One line of text, which fits into the buffer with its newline. -/
structure WellFormed (s : Statement) : Prop where
  newline : newline ∉ s.line
  noNul : 0 ∉ s.line
  short : s.line.length + 1 < lineBuffSize
  face : ∀ form xs blanks, s = .f form xs blanks → xs ≠ []
  unknown : ∀ line, s = .other line → Loading.NoStatement line

end Statement

/-- The components of the first vertex that is counted. -/
def Form.first (form : Form) (xs : List Vertex) : Option Components :=
  (xs.find? fun x => !x.v.negative).map form.inspected

/-- The face that is read of a statement: as many vertices as are counted, from the first one on. -/
def Form.face (form : Form) (xs : List Vertex) : MyFace :=
  .ofCorners ((xs.take (xs.countP fun x => !x.v.negative)).map (form.corner ((form.first xs).getD ⟨false, false⟩)))

/-- What a statement does, apart from the buffer. `eol` is what ends its line. -/
def Statement.load (floats : Floats) (eol : Chars) : Statement → Loading → Loading
  | v numbers, st => { st with vertices := st.vertices ++ [scan3 floats (numbers ++ eol)] }
  | vn numbers, st => { st with normals := st.normals ++ [scan3 floats (numbers ++ eol)] }
  | vt numbers, st => { st with uvs := st.uvs ++ [scanUv floats (space :: (numbers ++ eol))] }
  | f form xs _, st => (st.inspect (form.first xs)).pushFace (form.face xs)
  | o part, st => st.pushPart part.name
  | g _, st => st.pushSubset st.sCurMtl
  | usemtl mtl, st => { st with sCurMtl := mtl.name }.pushSubset mtl.name
  | mtllib file, st => { st with sMtrlFilename := file.name }
  | other _, st => st

/-- Lines one after the other. The last of them may lack its newline. -/
def textOf (eol : Chars) : List Statement → Chars
  | [] => []
  | [s] => s.line ++ eol
  | s :: s' :: rest => s.line ++ newline :: textOf eol (s' :: rest)

def loadAll (floats : Floats) (eol : Chars) : List Statement → Loading → Loading
  | [], st => st
  | [s], st => s.load floats eol st
  | s :: s' :: rest, st => loadAll floats eol (s' :: rest) (s.load floats [newline] st)

section Line
variable {floats : Floats} {st : Loading} {eol rest : Chars}

theorem word_named (x : Named) (ending : eol = [] ∨ eol = [newline]) : word (x.text ++ eol) = some x.name := by
  have solid : ∀ c ∈ x.name, isSpace c = false := by
    intro c member
    have := List.all_eq_true.mp x.solid c member
    simpa using this
  unfold Named.text
  rw [List.append_assoc, List.append_assoc, word_pad (List.all_eq_true.mp x.blank)]
  cases same : x.rest with
  | nil =>
    rcases ending with rfl | rfl
    · rw [List.append_nil, List.append_nil]
      exact word_self x.some_char solid
    · exact word_append x.some_char solid rfl []
  | cons c rest =>
    have apart := x.apart
    rw [same] at apart
    exact word_append x.some_char solid apart _

theorem cstr_line {s : Chars} (noNul : 0 ∉ s) (ending : eol = [] ∨ eol = [newline]) (rest : Chars) :
    cstr (s ++ (eol ++ 0 :: rest)) = s ++ eol := by
  have free : NulFree (s ++ eol) := by
    intro member
    rcases List.mem_append.mp member with inside | last
    · exact noNul inside
    · rcases ending with rfl | rfl
      · cases last
      · exact absurd (List.mem_singleton.mp last) (by decide)
  have whole := cstr_append free (0 :: rest)
  rw [cstr_zero, List.append_nil, List.append_assoc] at whole
  exact whole

theorem scanName_named (x : Named) (ending : eol = [] ∨ eol = [newline]) (noNul : 0 ∉ x.text) :
    scanName (x.text ++ (eol ++ 0 :: rest)) = some x.name := by
  rw [scanName, cstr_line noNul ending, word_named x ending]
  exact if_pos x.short

theorem scan3_line {s : Chars} (noNul : 0 ∉ s) (ending : eol = [] ∨ eol = [newline]) :
    scan3 floats (s ++ (eol ++ 0 :: rest)) = scan3 floats (s ++ eol) := by
  have whole : cstr (s ++ eol) = s ++ eol := by
    apply cstr_of_nulFree
    rw [← cstr_line noNul ending rest]
    exact cstr_nulFree _
  unfold scan3
  rw [cstr_line noNul ending, whole]

theorem stop_line (ending : eol = [] ∨ eol = [newline]) (blanks : Nat) (rest : Chars) :
    ∃ c r, List.replicate blanks space ++ (eol ++ 0 :: rest) = c :: r ∧
      isDigit c = false ∧ Stops (c :: r) ∧ counted (c :: r) = [] := by
  induction blanks with
  | zero =>
    rcases ending with rfl | rfl
    · exact ⟨0, rest, rfl, rfl, stops_nul rest, rfl⟩
    · exact ⟨newline, 0 :: rest, rfl, rfl, ⟨rfl, (by decide : newline ≠ slash)⟩, rfl⟩
  | succ blanks ih =>
    obtain ⟨c, r, same, other, -, none⟩ := ih
    refine ⟨space, c :: r, ?_, rfl, stops_space _, ?_⟩
    · rw [List.replicate_succ, List.cons_append, same]
    · have blank : ¬(space = space ∧ isCharNumber (at0 (c :: r)) = true) := fun h => by
        have digit : isDigit c = true := h.2
        rw [other] at digit
        cases digit
      rw [counted, if_neg (by decide), if_neg blank, none]

theorem inspectFaceLine_line (form : Form) (xs : List Vertex) (blanks : Nat) (ending : eol = [] ∨ eol = [newline])
    (rest : Chars) : inspectFaceLine (faceLine form xs ++ (List.replicate blanks space ++ (eol ++ 0 :: rest))) =
      (xs.countP (fun x => !x.v.negative), form.first xs) := by
  obtain ⟨c, r, stop, -, stops, none⟩ := stop_line ending blanks rest
  rw [stop]
  have line : (faceLine form xs ++ c :: r).drop 1 = row form xs ++ c :: r := rfl
  have count := counted_row form (q := []) xs List.not_mem_nil List.not_mem_nil (c :: r)
  rw [List.nil_append, none, List.length_nil, Nat.add_zero] at count
  rw [inspectFaceLine_eq, line, count, head_counted_row form xs none stops]
  rfl

/-- A reader of rows of vertices reads as many of a face statement as are counted in it. -/
theorem corners_line {form : Form} {xs : List Vertex} {blanks : Nat} (ending : eol = [] ∨ eol = [newline])
    {buffer : Chars} (line : buffer = faceLine form xs ++ (List.replicate blanks space ++ (eol ++ 0 :: rest)))
    {reader : Components → Nat → Chars → Option (List Corner)} {corner : Components → Vertex → Corner}
    (none : ∀ has s, reader has 0 s = some [])
    (some_row : ∀ x (ys : List Vertex) (c : UInt8) (r : Chars), isDigit c = false →
      reader (form.inspected x) ys.length (102 :: (row form ys ++ c :: r)) =
        some (ys.map (corner (form.inspected x)))) (has : Components) :
    reader ((form.first xs).getD has) (xs.countP fun x => !x.v.negative) buffer =
      some ((xs.take (xs.countP fun x => !x.v.negative)).map (corner ((form.first xs).getD ⟨false, false⟩))) := by
  obtain ⟨c, r, stop, other, -, -⟩ := stop_line ending blanks rest
  rw [stop] at line
  have bound : xs.countP (fun x => !x.v.negative) ≤ xs.length := List.countP_le_length
  cases first : form.first xs with
  | none =>
    have nothing : xs.countP (fun x => !x.v.negative) = 0 := by
      rw [List.countP_eq_zero]
      exact List.find?_eq_none.mp (Option.map_eq_none_iff.mp first)
    rw [nothing]
    exact none _ _
  | some seen =>
    obtain ⟨x, -, rfl⟩ := Option.map_eq_some_iff.mp first
    generalize xs.countP (fun x => !x.v.negative) = m at bound
    obtain ⟨c', r', next, stop'⟩ := row_stop form (xs.drop m) other r
    have read := some_row x (xs.take m) c' r' stop'
    have whole : row form xs = row form (xs.take m) ++ row form (xs.drop m) := by
      rw [← row_append, List.take_append_drop]
    rw [← next, List.length_take, Nat.min_eq_left bound] at read
    rw [line, Option.getD_some, Option.getD_some, faceLine, whole, List.cons_append, List.append_assoc]
    exact read

/-- A face statement is read up to as many vertices as are counted in it. -/
theorem readFace_line {form : Form} {xs : List Vertex} {blanks : Nat} (ending : eol = [] ∨ eol = [newline])
    (buffer : st.buffer = faceLine form xs ++ (List.replicate blanks space ++ (eol ++ 0 :: rest))) :
    st.readFace = some ((st.inspect (form.first xs)).pushFace (form.face xs)) := by
  have found := inspectFaceLine_line form xs blanks ending rest
  rw [← buffer] at found
  have some_row (x : Vertex) (ys : List Vertex) (c : UInt8) (r : Chars) (stop : isDigit c = false) :
      readCorners (form.inspected x) ys.length (102 :: (row form ys ++ c :: r)) =
        some (ys.map (form.corner (form.inspected x))) := by
    apply Eq.trans (readCorners_row (form.sees_inspected x) (q := [102]) ys (by decide) stop r 0)
    simp [readCorners, rounds]
  have read := corners_line ending buffer (fun _ _ => rfl) some_row st.curSubset.has
  rw [Loading.readFace_eq, found, read]
  rfl

theorem statement_load {s : Statement} (wf : s.WellFormed) (ending : eol = [] ∨ eol = [newline])
    (buffer : st.buffer = s.line ++ (eol ++ 0 :: rest)) : st.statement floats = some (s.load floats eol st) := by
  have noNul := wf.noNul
  cases s with
  | v numbers =>
    rw [Loading.statement_v (by rw [buffer, Statement.line, List.append_assoc]), scan3_line _ ending]
    · rfl
    · exact fun member => noNul (List.mem_append_right _ member)
  | vn numbers =>
    rw [Loading.statement_vn (by rw [buffer, Statement.line, List.append_assoc]), scan3_line _ ending]
    · rfl
    · exact fun member => noNul (List.mem_append_right _ member)
  | vt numbers =>
    have free : 0 ∉ space :: numbers := by
      intro member
      rcases List.mem_cons.mp member with same | among
      · exact absurd same (by decide)
      · exact noNul (List.mem_append_right _ among)
    rw [Loading.statement_vt (by rw [buffer, Statement.line, List.append_assoc]), scanUv, ← List.cons_append,
      scan3_line free ending]
    rfl
  | f form xs blanks =>
    obtain ⟨x, xs, rfl⟩ := List.exists_cons_of_ne_nil (wf.face form xs blanks rfl)
    rw [Statement.line, List.append_assoc] at buffer
    rw [Loading.statement_face (by rw [buffer]; rfl), readFace_line ending buffer]
    rfl
  | o part =>
    have free : 0 ∉ part.text := fun member => noNul (List.mem_append_right _ member)
    rw [Loading.statement_o (by rw [buffer, Statement.line, List.append_assoc]), scanName_named part ending free]
    rfl
  | g group =>
    rw [Loading.statement_g (by rw [buffer, Statement.line, List.append_assoc])]
    cases group with
    | none =>
      have found : word (cstr ([] ++ (eol ++ 0 :: rest))) = none := by
        rw [cstr_line List.not_mem_nil ending]
        rcases ending with rfl | rfl <;> rfl
      rw [Option.map_none, Option.getD_none, found]
      exact if_pos (by decide)
    | some group =>
      have free : 0 ∉ group.text := fun member => noNul (List.mem_append_right _ member)
      have found : word (cstr (group.text ++ (eol ++ 0 :: rest))) = some group.name := by
        rw [cstr_line free ending, word_named group ending]
      rw [Option.map_some, Option.getD_some, found]
      exact if_pos group.short
  | usemtl mtl =>
    have free : 0 ∉ mtl.text := fun member => noNul (List.mem_append_right _ member)
    rw [Loading.statement_usemtl (by rw [buffer, Statement.line, List.append_assoc]), scanName_named mtl ending free]
    rfl
  | mtllib file =>
    have free : 0 ∉ file.text := fun member => noNul (List.mem_append_right _ member)
    rw [Loading.statement_mtllib (by rw [buffer, Statement.line, List.append_assoc]), scanName_named file ending free]
    rfl
  | other line =>
    have still : Loading.NoStatement st.buffer := by
      rw [buffer]
      rcases ending with rfl | rfl
      · exact (wf.unknown line rfl).append (.inr rfl) rest
      · exact (wf.unknown line rfl).append (.inl rfl) (0 :: rest)
    exact Loading.statement_none still

theorem load_buffer (s : Statement) (eol : Chars) (st : Loading) (buffer : Chars) :
    s.load floats eol { st with buffer := buffer } = { s.load floats eol st with buffer := buffer } := by
  cases s with
  | f form xs blanks => cases h : form.first xs <;> simp [Statement.load, h, Loading.inspect, Loading.pushFace]
  | _ => rfl

theorem loadAll_buffer (stmts : List Statement) (eol : Chars) (st : Loading) (buffer : Chars) :
    loadAll floats eol stmts { st with buffer := buffer } = { loadAll floats eol stmts st with buffer := buffer } := by
  induction stmts generalizing st with
  | nil => rfl
  | cons s rest ih =>
    cases rest with
    | nil => exact load_buffer s eol st buffer
    | cons s' rest =>
      rw [loadAll, load_buffer, ih]
      rfl

theorem line_inBuffer {s : Statement} (wf : s.WellFormed) (ending : eol = [] ∨ eol = [newline]) :
    (s.line ++ eol).length < lineBuffSize := by
  have short := wf.short
  rw [List.length_append]
  rcases ending with rfl | rfl
  · exact Nat.lt_of_succ_lt short
  · exact short

theorem line_fits {s : Statement} (wf : s.WellFormed) : s.line.length ≤ lineBuffSize - 2 := by
  have short := wf.short
  unfold lineBuffSize at short ⊢
  omega

theorem lines_textOf_one {s : Statement} (wf : s.WellFormed) (ending : eol = [] ∨ eol = [newline])
    (some_char : s.line ++ eol ≠ []) : lines (lineBuffSize - 1) (textOf eol [s]) = [s.line ++ eol] :=
  lines_single some_char wf.newline (line_fits wf) ending

theorem lines_textOf_cons {s : Statement} (wf : s.WellFormed) (s' : Statement) (stmts : List Statement) :
    lines (lineBuffSize - 1) (textOf eol (s :: s' :: stmts)) =
      (s.line ++ [newline]) :: lines (lineBuffSize - 1) (textOf eol (s' :: stmts)) :=
  lines_whole wf.newline (line_fits wf) (textOf eol (s' :: stmts))

theorem loadLine_statement (floats : Floats) (room : st.buffer.length = lineBuffSize) {s : Statement}
    (wf : s.WellFormed) (ending : eol = [] ∨ eol = [newline]) :
    ∃ buffer, buffer.length = lineBuffSize ∧
      st.loadLine floats (s.line ++ eol) = some { s.load floats eol st with buffer := buffer } := by
  refine ⟨(st.fill (s.line ++ eol)).buffer, by rw [Loading.length_fill, room], ?_⟩
  have buffer := Loading.fill_eq room (line_inBuffer wf ending)
  rw [List.append_assoc] at buffer
  rw [Loading.loadLine, statement_load wf ending buffer]
  exact congrArg some (load_buffer s eol st _)

/-- A text of well-formed statements is loaded statement by statement. -/
theorem loadLines_textOf (room : st.buffer.length = lineBuffSize) (ending : eol = [] ∨ eol = [newline])
    {stmts : List Statement} (wf : ∀ s ∈ stmts, s.WellFormed) :
    ∃ buffer, buffer.length = lineBuffSize ∧ st.loadLines floats (lines (lineBuffSize - 1) (textOf eol stmts)) =
      some { loadAll floats eol stmts st with buffer := buffer } := by
  induction stmts generalizing st with
  | nil => exact ⟨st.buffer, room, rfl⟩
  | cons s stmts ih =>
    have here := wf s List.mem_cons_self
    cases stmts with
    | nil =>
      by_cases empty : s.line ++ eol = []
      · obtain ⟨noLine, noEol⟩ := List.append_eq_nil_iff.mp empty
        refine ⟨st.buffer, room, ?_⟩
        rw [textOf, empty, lines_nil]
        cases s with
        | other line => rfl
        | _ => cases noLine
      · obtain ⟨buffer, length, loaded⟩ := loadLine_statement floats room here ending
        refine ⟨buffer, length, ?_⟩
        rw [lines_textOf_one here ending empty, Loading.loadLines, List.foldlM_cons, loaded]
        rfl
    | cons s' stmts =>
      obtain ⟨buffer, length, loaded⟩ := loadLine_statement floats room here (.inr rfl)
      have room' : { s.load floats [newline] st with buffer := buffer }.buffer.length = lineBuffSize := length
      obtain ⟨buffer', length', rest⟩ := ih room' fun t member => wf t (List.mem_cons_of_mem s member)
      refine ⟨buffer', length', ?_⟩
      rw [lines_textOf_cons here, Loading.loadLines, List.foldlM_cons, loaded]
      apply Eq.trans rest
      rw [loadAll_buffer]
      rfl

theorem loadText_textOf (floats : Floats) (stack : Nat → UInt8) (ending : eol = [] ∨ eol = [newline])
    {stmts : List Statement}
    (wf : ∀ s ∈ stmts, s.WellFormed) : ∃ buffer, loadText floats stack (textOf eol stmts) =
      some { loadAll floats eol stmts (.initial []) with buffer := buffer } := by
  have room : (Loading.initial (cells stack lineBuffSize)).buffer.length = lineBuffSize := by
    rw [Loading.initial, length_cells]
  obtain ⟨buffer, -, loaded⟩ := loadLines_textOf room ending wf
  refine ⟨buffer, loaded.trans ?_⟩
  have same : loadAll floats eol stmts _ = _ := loadAll_buffer stmts eol (.initial []) (cells stack lineBuffSize)
  exact congrArg (fun st : Loading => some { st with buffer := buffer }) same

end Line

end ModelPublish.Obj
