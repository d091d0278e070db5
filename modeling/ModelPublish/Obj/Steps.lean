import ModelPublish.Obj.Loader

/-!
# One statement after the other

What each statement of an OBJ text does to what has been loaded, when it fits into the buffer.
-/

namespace ModelPublish.Obj
open Text Packed

theorem overlay_front {buf bytes : List UInt8} (fits : bytes.length ≤ buf.length) :
    overlay buf bytes = bytes ++ buf.drop bytes.length := by
  unfold overlay
  apply List.take_of_length_le
  rw [List.length_append, List.length_drop]
  omega

namespace Loading
variable {floats : Floats} {st : Loading}

theorem fill_eq (room : st.buffer.length = lineBuffSize) {line : Chars} (short : line.length < lineBuffSize) :
    (st.fill line).buffer = line ++ 0 :: st.buffer.drop (line.length + 1) := by
  unfold fill
  rw [overlay_front (by rw [room, List.length_append]; exact short), List.length_append, List.append_assoc]
  rfl

@[simp] theorem length_fill (st : Loading) (line : Chars) : (st.fill line).buffer.length = st.buffer.length :=
  length_overlay _ _

theorem inspect_has (st : Loading) (first : Option Components) :
    (st.inspect first).curSubset.has = first.getD st.curSubset.has := by
  cases first <;> rfl

theorem readFace_eq (st : Loading) : st.readFace =
    (readCorners ((inspectFaceLine st.buffer).2.getD st.curSubset.has) (inspectFaceLine st.buffer).1 st.buffer).map
      fun corners => (st.inspect (inspectFaceLine st.buffer).2).pushFace (.ofCorners corners) := by
  unfold readFace
  dsimp only
  rw [inspect_has]
  have same : (st.inspect (inspectFaceLine st.buffer).2).buffer = st.buffer := by
    cases (inspectFaceLine st.buffer).2 <;> rfl
  rw [same]
  cases readCorners ((inspectFaceLine st.buffer).2.getD st.curSubset.has) (inspectFaceLine st.buffer).1 st.buffer <;> rfl

theorem pushFace_faces (st : Loading) (first : Option Components) (face : MyFace) :
    ((st.inspect first).pushFace face).curSubset.faces = st.curSubset.faces ++ [face] := by
  cases first <;> rfl

theorem readFace_buffer {st' : Loading} (h : st.readFace = some st') : st'.buffer = st.buffer := by
  rw [readFace_eq] at h
  obtain ⟨corners, -, rfl⟩ := Option.map_eq_some_iff.mp h
  cases (inspectFaceLine st.buffer).2 <;> rfl

theorem statement_v {s : Chars} (h : st.buffer = chars "v " ++ s) :
    st.statement floats = some { st with vertices := st.vertices ++ [scan3 floats s] } := by
  unfold statement
  rw [h]
  rfl

theorem statement_vn {s : Chars} (h : st.buffer = chars "vn " ++ s) :
    st.statement floats = some { st with normals := st.normals ++ [scan3 floats s] } := by
  unfold statement
  rw [h]
  rfl

theorem statement_vt {s : Chars} (h : st.buffer = chars "vt " ++ s) :
    st.statement floats = some { st with uvs := st.uvs ++ [scanUv floats (space :: s)] } := by
  unfold statement
  rw [h]
  rfl

theorem statement_o {s : Chars} (h : st.buffer = chars "o " ++ s) :
    st.statement floats = (scanName s).map st.pushPart := by
  unfold statement
  rw [h, Option.map_eq_bind]
  rfl

theorem statement_g {s : Chars} (h : st.buffer = chars "g " ++ s) :
    st.statement floats =
      if ((word (cstr s)).getD []).length < maxPath then some (st.pushSubset st.sCurMtl) else none := by
  unfold statement
  rw [h]
  rfl

theorem statement_usemtl {s : Chars} (h : st.buffer = chars "usemtl " ++ s) :
    st.statement floats = (scanName s).map fun name => { st with sCurMtl := name }.pushSubset name := by
  unfold statement
  rw [h, Option.map_eq_bind]
  rfl

theorem statement_mtllib {s : Chars} (h : st.buffer = chars "mtllib " ++ s) :
    st.statement floats = (scanName s).map fun name => { st with sMtrlFilename := name } := by
  unfold statement
  rw [h, Option.map_eq_bind]
  rfl

theorem statement_face {s : Chars} (h : st.buffer = chars "f " ++ s) : st.statement floats = st.readFace := by
  unfold statement
  rw [h]
  rfl

theorem isPrefixOf_apart {literal : Chars} {c : UInt8} (apart : c ∉ literal) (line rest : Chars) :
    literal.isPrefixOf (line ++ c :: rest) = literal.isPrefixOf line := by
  induction literal generalizing line with
  | nil => rw [List.isPrefixOf_nil_left, List.isPrefixOf_nil_left]
  | cons a literal ih =>
    obtain ⟨other, apart⟩ := List.ne_and_not_mem_of_not_mem_cons apart
    cases line with
    | nil =>
      rw [List.nil_append, List.isPrefixOf_cons_cons, beq_eq_false_iff_ne.mpr other.symm]
      rfl
    | cons b line => rw [List.cons_append, List.isPrefixOf_cons_cons, List.isPrefixOf_cons_cons, ih apart]

def keywords : List String := ["v ", "vn ", "vt ", "f ", "o ", "g "]
def keywordsAnyCase : List String := ["usemtl ", "mtllib "]

/-- A line that begins with none of the statements. -/
structure NoStatement (line : Chars) : Prop where
  exact : ∀ literal ∈ keywords, startsWith literal line = false
  anyCase : ∀ literal ∈ keywordsAnyCase, startsWithAnyCase literal line = false

theorem apart_keyword {c : UInt8} (ending : c = newline ∨ c = 0) :
    ∀ literal ∈ keywords ++ keywordsAnyCase, c ∉ chars literal := by
  have apart : (keywords ++ keywordsAnyCase).all (fun literal => !(chars literal).contains c) = true := by
    rcases ending with rfl | rfl <;> decide
  intro literal member
  have := List.all_eq_true.mp apart literal member
  simpa using this

theorem NoStatement.append {line : Chars} (h : NoStatement line) {c : UInt8} (ending : c = newline ∨ c = 0)
    (rest : Chars) : NoStatement (line ++ c :: rest) := by
  have lower : toLower c = c := by rcases ending with rfl | rfl <;> rfl
  refine ⟨fun literal member => ?_, fun literal member => ?_⟩
  · rw [startsWith, isPrefixOf_apart (apart_keyword ending literal (List.mem_append_left _ member))]
    exact h.exact literal member
  · rw [startsWithAnyCase, List.map_append, List.map_cons, lower,
      isPrefixOf_apart (apart_keyword ending literal (List.mem_append_right _ member))]
    exact h.anyCase literal member

inductive Keyword where
  | v | vn | vt | f | o | g | usemtl | mtllib | other

/-- The keyword in front of a line, in the order in which they are tried. -/
def keyword (line : Chars) : Keyword :=
  if startsWith "v " line then .v
  else if startsWith "vn " line then .vn
  else if startsWith "vt " line then .vt
  else if startsWith "f " line then .f
  else if startsWith "o " line then .o
  else if startsWith "g " line then .g
  else if startsWithAnyCase "usemtl " line then .usemtl
  else if startsWithAnyCase "mtllib " line then .mtllib
  else .other

theorem NoStatement.keyword {line : Chars} (h : NoStatement line) : keyword line = .other := by
  have begins := h.exact
  have beginsAny := h.anyCase
  unfold Loading.keyword
  rw [begins "v " (by decide), begins "vn " (by decide), begins "vt " (by decide), begins "f " (by decide),
    begins "o " (by decide), begins "g " (by decide), beginsAny "usemtl " (by decide), beginsAny "mtllib " (by decide)]
  rfl

theorem statement_eq (floats : Floats) (st : Loading) : st.statement floats =
    match keyword st.buffer with
    | .v => some { st with vertices := st.vertices ++ [scan3 floats (st.buffer.drop 2)] }
    | .vn => some { st with normals := st.normals ++ [scan3 floats (st.buffer.drop 3)] }
    | .vt => some { st with uvs := st.uvs ++ [scanUv floats (st.buffer.drop 2)] }
    | .f => st.readFace
    | .o => (scanName (st.buffer.drop 2)).map st.pushPart
    | .g =>
      if ((word (cstr (st.buffer.drop 2))).getD []).length < maxPath then some (st.pushSubset st.sCurMtl) else none
    | .usemtl => (scanName (st.buffer.drop 7)).map fun name => { st with sCurMtl := name }.pushSubset name
    | .mtllib => (scanName (st.buffer.drop 7)).map fun file => { st with sMtrlFilename := file }
    | .other => some st := by
  simp only [Option.map_eq_bind]
  unfold statement keyword
  split_ifs <;> rfl

theorem statement_none (h : NoStatement st.buffer) : st.statement floats = some st := by
  rw [statement_eq, h.keyword]

/-- A character that no statement begins with. -/
def Idle (c : UInt8) : Prop := c ∉ chars "vfogumUM"

instance (c : UInt8) : Decidable (Idle c) := inferInstanceAs (Decidable (_ ∉ _))

theorem startsWith_other {literal : String} {a c : UInt8} {as : Chars} (begins : chars literal = a :: as)
    (other : c ≠ a) (s : Chars) : startsWith literal (c :: s) = false := by
  rw [startsWith, begins, List.isPrefixOf_cons_cons, beq_eq_false_iff_ne.mpr other.symm]
  rfl

theorem toLower_eq {a c : UInt8} (h : toLower c = a) : c = a ∨ c = a - 32 := by
  unfold toLower at h
  split at h
  · right
    rw [← h, UInt8.add_sub_cancel]
  · exact .inl h

theorem startsWithAnyCase_other {literal : String} {a c : UInt8} {as : Chars} (begins : chars literal = a :: as)
    (other : c ≠ a) (other' : c ≠ a - 32) (s : Chars) : startsWithAnyCase literal (c :: s) = false := by
  have lower : a ≠ toLower c := fun same => (toLower_eq same.symm).elim other other'
  rw [startsWithAnyCase, begins, List.map_cons, List.isPrefixOf_cons_cons, beq_eq_false_iff_ne.mpr lower]
  rfl

theorem noStatement_idle {line : Chars} (idle : ∀ c ∈ line, Idle c) : NoStatement line := by
  cases line with
  | nil => exact ⟨by decide, by decide⟩
  | cons c line =>
    have other : ∀ a ∈ chars "vfogumUM", c ≠ a := fun a member same => idle c List.mem_cons_self (same ▸ member)
    have v := other 118 (by decide)
    constructor
    · intro literal member
      simp only [keywords, List.mem_cons, List.not_mem_nil, or_false] at member
      rcases member with rfl | rfl | rfl | rfl | rfl | rfl
      · exact startsWith_other (a := 118) rfl v line
      · exact startsWith_other (a := 118) rfl v line
      · exact startsWith_other (a := 118) rfl v line
      · exact startsWith_other (a := 102) rfl (other 102 (by decide)) line
      · exact startsWith_other (a := 111) rfl (other 111 (by decide)) line
      · exact startsWith_other (a := 103) rfl (other 103 (by decide)) line
    · intro literal member
      simp only [keywordsAnyCase, List.mem_cons, List.not_mem_nil, or_false] at member
      rcases member with rfl | rfl
      · exact startsWithAnyCase_other (a := 117) rfl (other 117 (by decide)) (other 85 (by decide)) line
      · exact startsWithAnyCase_other (a := 109) rfl (other 109 (by decide)) (other 77 (by decide)) line

/-- What is in the buffer after lines have been read. -/
def leave (buffer : Chars) (read : List Chars) : Chars :=
  read.foldl (fun buffer line => overlay buffer (line ++ [0])) buffer

theorem loadLines_none (room : st.buffer.length = lineBuffSize) {read : List Chars}
    (short : ∀ line ∈ read, line.length < lineBuffSize) (none : ∀ line ∈ read, NoStatement line) :
    st.loadLines floats read = some { st with buffer := leave st.buffer read } := by
  induction read generalizing st with
  | nil => rfl
  | cons line read ih =>
    have fill := fill_eq room (short line List.mem_cons_self)
    have still : (st.fill line).statement floats = some (st.fill line) := by
      apply statement_none
      rw [fill]
      exact (none line List.mem_cons_self).append (.inr rfl) _
    have room' : (st.fill line).buffer.length = lineBuffSize := by rw [length_fill, room]
    have rest := ih room' (fun l member => short l (List.mem_cons_of_mem _ member))
      fun l member => none l (List.mem_cons_of_mem _ member)
    rw [loadLines, List.foldlM_cons, loadLine, still]
    exact rest

theorem loadLines_idle (room : st.buffer.length = lineBuffSize) {read : List Chars}
    (short : ∀ line ∈ read, line.length < lineBuffSize) (idle : ∀ line ∈ read, ∀ c ∈ line, Idle c) :
    st.loadLines floats read = some { st with buffer := leave st.buffer read } := by
  apply loadLines_none room short
  intro line member
  exact noStatement_idle (idle line member)

end Loading

end ModelPublish.Obj
