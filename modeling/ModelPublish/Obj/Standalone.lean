import ModelPublish.Obj.Placement

/-!
# LoadObj2 of 3DModelViewer

The viewer that stands alone has a loader of its own. It looks for a slash before the normals too, `g` opens a part as
`o` does, and `usemtl` names the subset that is there already.
-/

namespace ModelPublish.Obj
open Text Packed

/-- `szPartName`, which is as it was in memory when there is no name. -/
def partName (stale s : Chars) : Option Chars :=
  match word (cstr s) with
  | some w => if w.length < maxPath then some w else none
  | none => some stale

/-- What is walked behind: `bHasNormal || bHasUv` is for the first slash, `bHasNormal` for the second. -/
def Components.slashed (has : Components) : Components := ⟨has.hasNormals || has.hasTexCoords, has.hasNormals⟩

def readCornersAlone (has : Components) (vCount : Nat) (s : Chars) : Option (List Corner) := do
  let ps ← rounds has.slashed vCount s
  ps.mapM (Pointers.read has)

namespace Form

/-- What is read of a vertex: all that is written and seen. -/
def cornerAlone (has : Components) (x : Vertex) : Corner where
  vertIndex := toIndex 1 x.v.value
  uvIndex := if has.hasTexCoords then toIndex 2 x.t.value else -1
  normalIndex := if has.hasNormals then toIndex 2 x.n.value else -1

/-- What of a vertex is left behind. -/
def leftAlone (form : Form) (has : Components) (x : Vertex) : Chars :=
  if has.hasNormals then x.n.print
  else if has.hasTexCoords then ((skipTo slash (form.print x)).getD []) else form.print x

theorem space_leftAlone (form : Form) (has : Components) (x : Vertex) : space ∉ form.leftAlone has x := by
  unfold leftAlone
  split
  · exact x.n.space_print
  split
  · intro member
    cases found : skipTo slash (form.print x) with
    | none =>
      rw [found] at member
      exact absurd member List.not_mem_nil
    | some y =>
      rw [found] at member
      have suffix : y <:+ form.print x := behind_suffix (k := 1) (by rw [behind, found]; rfl)
      exact form.space_print x (suffix.mem member)
  · exact form.space_print x

theorem pointers_alone {form : Form} {has : Components} (sees : form.Sees has) (x : Vertex) {q : Chars}
    (free : space ∉ q) {c : UInt8} (stop : isDigit c = false) (r : Chars) :
    ∃ p, pointers has.slashed (q ++ space :: (form.print x ++ c :: r)) = some p ∧
      p.read has = some (cornerAlone has x) ∧ p.n = form.leftAlone has x ++ c :: r := by
  have walk : ∀ s, skipTo space (q ++ space :: s) = some s := skipTo_append free
  have first : ∀ s, skipTo slash (x.v.print ++ slash :: s) = some s := skipTo_append x.v.slash_print
  have second : ∀ s, skipTo slash (x.t.print ++ slash :: s) = some s := skipTo_append x.t.slash_print
  have third : ∀ s, skipTo slash (slash :: s) = some s := skipTo_append (p := []) List.not_mem_nil
  have read_v : ∀ s, atoi (x.v.print ++ slash :: s) = some x.v.value := x.v.atoi_print rfl
  have read_t : ∀ s, atoi (x.t.print ++ slash :: s) = some x.t.value := x.t.atoi_print rfl
  have end_v := x.v.atoi_print stop r
  have end_t := x.t.atoi_print stop r
  have end_n := x.n.atoi_print stop r
  obtain ⟨coord, normal, both⟩ := sees
  unfold pointers
  rw [walk]
  rcases has with ⟨_ | _, _ | _⟩ <;> cases form <;>
    simp [Form.has] at coord normal both <;>
    simp [print, leftAlone, Components.slashed, cornerAlone, behindSlash, Pointers.read, readComponent, first, second,
      third, read_v, read_t, end_v, end_t, end_n]

/-- The face that is read of a statement. -/
def faceAlone (form : Form) (xs : List Vertex) : MyFace :=
  .ofCorners ((xs.take (xs.countP fun x => !x.v.negative)).map (cornerAlone ((form.first xs).getD ⟨false, false⟩)))

end Form

theorem readCornersAlone_row {form : Form} {has : Components} {q : Chars} (sees : form.Sees has) (xs : List Vertex)
    (free : space ∉ q) {c : UInt8} (stop : isDigit c = false) (r : Chars) :
    readCornersAlone has xs.length (q ++ (row form xs ++ c :: r)) = some (xs.map (Form.cornerAlone has)) := by
  induction xs generalizing q with
  | nil => rfl
  | cons x xs ih =>
    obtain ⟨c', r', next, stop'⟩ := row_stop form xs stop r
    obtain ⟨p, here, read, further⟩ := Form.pointers_alone sees x free stop' r'
    have later := ih (form.space_leftAlone has x)
    rw [next, ← further] at later
    obtain ⟨ps, walked, corners⟩ := Option.bind_eq_some_iff.mp later
    have walk : rounds has.slashed (xs.length + 1) (q ++ space :: (form.print x ++ c' :: r')) = some (p :: ps) := by
      rw [rounds, here]
      change (rounds has.slashed xs.length p.n).bind (fun ps => some (p :: ps)) = _
      rw [walked]
      rfl
    rw [row_cons, next, List.length_cons, readCornersAlone, walk]
    change (p :: ps).mapM (Pointers.read has) = _
    rw [List.mapM_cons, read, corners]
    rfl

section Statements
variable (floats : Floats) (stale : Chars)

namespace Loading

def readFaceAlone (st : Loading) : Option Loading := do
  let (vCount, first) := inspectFaceLine st.buffer
  let st := st.inspect first
  let corners ← readCornersAlone st.curSubset.has vCount st.buffer
  pure (st.pushFace (.ofCorners corners))

/-- What is done with a line in the buffer. `usemtl` does the same for the first material and for all others. -/
def statementAlone (st : Loading) : Option Loading :=
  if startsWith "v " st.buffer then
    some { st with vertices := st.vertices ++ [scan3 floats (st.buffer.drop 2)] }
  else if startsWith "vn " st.buffer then
    some { st with normals := st.normals ++ [scan3 floats (st.buffer.drop 3)] }
  else if startsWith "vt " st.buffer then
    some { st with uvs := st.uvs ++ [scanUv floats (st.buffer.drop 2)] }
  else if startsWith "f " st.buffer then st.readFaceAlone
  else if startsWith "o " st.buffer || startsWith "g " st.buffer then do
    let szPartName ← partName stale (st.buffer.drop 2)
    pure (st.pushPart szPartName)
  else if startsWithAnyCase "usemtl " st.buffer then do
    let szMtlName ← scanName (st.buffer.drop 7)
    pure { st with sCurMtl := szMtlName, curSubset := { st.curSubset with sMatName := szMtlName } }
  else if startsWithAnyCase "mtllib " st.buffer then do
    let szMtlLibFile ← scanName (st.buffer.drop 7)
    pure { st with sMtrlFilename := szMtlLibFile }
  else some st

def loadLineAlone (st : Loading) (line : Chars) : Option Loading := (st.fill line).statementAlone floats stale

end Loading

def loadTextAlone (stack : Nat → UInt8) (text : Chars) : Option Loading :=
  (lines (lineBuffSize - 1) text).foldlM (Loading.loadLineAlone floats stale)
    (Loading.initial (cells stack lineBuffSize))

end Statements

/-! ### Faces and materials -/

/-- All faces, each with the material of its subset. -/
def MyObj.painted (obj : MyObj) : List (Chars × MyFace) :=
  obj.subParts.flatMap fun part => part.subSets.flatMap fun subset =>
    subset.faces.map fun face => (subset.sMatName, face)

namespace Statement

def faceAlone? : Statement → Option MyFace
  | f form xs _ => some (form.faceAlone xs)
  | _ => none

def mtl? : Statement → Option Chars
  | usemtl mtl => some mtl.name
  | _ => none

def parts : Statement → Bool
  | o _ => true
  | g _ => true
  | _ => false

end Statement

/-- The name in the last `usemtl` statement. -/
def lastMtl (stmts : List Statement) : Option Chars := (stmts.filterMap Statement.mtl?).getLast?

/-- The faces of a text, each with the name in the last `usemtl` statement before it. -/
def mentioned : Option Chars → List Statement → List (Option Chars × MyFace)
  | _, [] => []
  | m, s :: rest => (s.faceAlone?.toList.map fun face => (m, face)) ++ mentioned (s.mtl?.or m) rest

/-- A face has the material that it is to have, if there is one. -/
def Has (found : Chars × MyFace) (wanted : Option Chars × MyFace) : Prop :=
  found.2 = wanted.2 ∧ ∀ mtl ∈ wanted.1, found.1 = mtl

/-- No `usemtl` statement that follows a face in the same part has the last word with another name. There is a name `m`
before all statements. -/
def LastingFrom (m : Option Chars) (stmts : List Statement) : Prop :=
  ∀ before s after, stmts = before ++ s :: after → s.faceAlone?.isSome = true → ∀ mtl ∈ (lastMtl before).or m,
    ∀ later ∈ lastMtl (after.takeWhile fun s => !s.parts), later = mtl

def Lasting (stmts : List Statement) : Prop := LastingFrom none stmts

/-! ### What is painted how -/

/-- The faces of all earlier subsets, and the current subset. -/
structure Painting where
  settled : List (Chars × MyFace)
  faces : List MyFace
  sMatName : Chars
  sCurMtl : Chars

namespace Painting

def all (p : Painting) : List (Chars × MyFace) := p.settled ++ p.faces.map fun face => (p.sMatName, face)

/-- The current subset is left as it is. -/
def next (p : Painting) : Painting := ⟨p.all, [], p.sCurMtl, p.sCurMtl⟩

end Painting

def Statement.paint : Statement → Painting → Painting
  | f form xs _, p => { p with faces := p.faces ++ [form.faceAlone xs] }
  | o _, p => p.next
  | g _, p => p.next
  | usemtl mtl, p => { p with sMatName := mtl.name, sCurMtl := mtl.name }
  | _, p => p

def Loading.painting (st : Loading) : Painting where
  settled := (st.subParts ++ [st.curPart]).flatMap fun part => part.subSets.flatMap fun subset =>
    subset.faces.map fun face => (subset.sMatName, face)
  faces := st.curSubset.faces
  sMatName := st.curSubset.sMatName
  sCurMtl := st.sCurMtl

theorem painting_all (st : Loading) : st.painting.all = st.obj.painted := by
  simp [Painting.all, Loading.painting, MyObj.painted, Loading.obj, Loading.lastPart, List.flatMap_append]

namespace Loading
variable {floats : Floats} {stale : Chars} {st : Loading} {eol rest : Chars}

theorem painting_pushPart (st : Loading) (sName : Chars) : (st.pushPart sName).painting = st.painting.next := by
  simp [pushPart, painting, Painting.next, Painting.all, lastPart, List.flatMap_append]

theorem painting_pushFace (st : Loading) (first : Option Components) (face : MyFace) :
    ((st.inspect first).pushFace face).painting =
      { st.painting with faces := st.painting.faces ++ [face] } := by
  cases first <;> rfl

theorem pushFace_buffer (st : Loading) (first : Option Components) (face : MyFace) :
    ((st.inspect first).pushFace face).buffer = st.buffer := by
  cases first <;> rfl

theorem readFaceAlone_eq (st : Loading) : st.readFaceAlone =
    (readCornersAlone ((inspectFaceLine st.buffer).2.getD st.curSubset.has) (inspectFaceLine st.buffer).1 st.buffer).map
      fun corners => (st.inspect (inspectFaceLine st.buffer).2).pushFace (.ofCorners corners) := by
  have same : (st.inspect (inspectFaceLine st.buffer).2).buffer = st.buffer := by
    cases (inspectFaceLine st.buffer).2 <;> rfl
  unfold readFaceAlone
  dsimp only
  rw [inspect_has, same, Option.map_eq_bind]
  rfl

theorem readFaceAlone_line {form : Form} {xs : List Vertex} {blanks : Nat} (ending : eol = [] ∨ eol = [newline])
    (buffer : st.buffer = faceLine form xs ++ (List.replicate blanks space ++ (eol ++ 0 :: rest))) :
    st.readFaceAlone = some ((st.inspect (form.first xs)).pushFace (form.faceAlone xs)) := by
  have found := inspectFaceLine_line form xs blanks ending rest
  rw [← buffer] at found
  have read := corners_line ending buffer (fun _ _ => rfl)
    (fun x ys c r stop => readCornersAlone_row (form.sees_inspected x) (q := [102]) ys (by decide) stop r)
    st.curSubset.has
  rw [readFaceAlone_eq, found, read]
  rfl

theorem partName_named {part : Named} (free : 0 ∉ part.text) (ending : eol = [] ∨ eol = [newline]) :
    partName stale (part.text ++ (eol ++ 0 :: rest)) = some part.name := by
  rw [partName, cstr_line free ending, word_named part ending]
  exact if_pos part.short

theorem statementAlone_parts {keyword s : Chars} (either : keyword = chars "o " ∨ keyword = chars "g ")
    (h : st.buffer = keyword ++ s) : st.statementAlone floats stale = (partName stale s).map st.pushPart := by
  unfold statementAlone
  rw [h, Option.map_eq_bind]
  rcases either with rfl | rfl <;> rfl

theorem statementAlone_usemtl {s : Chars} (h : st.buffer = chars "usemtl " ++ s) :
    st.statementAlone floats stale = (scanName s).map fun name =>
      { st with sCurMtl := name, curSubset := { st.curSubset with sMatName := name } } := by
  unfold statementAlone
  rw [h, Option.map_eq_bind]
  rfl

theorem statementAlone_mtllib {s : Chars} (h : st.buffer = chars "mtllib " ++ s) :
    st.statementAlone floats stale = (scanName s).map fun name => { st with sMtrlFilename := name } := by
  unfold statementAlone
  rw [h, Option.map_eq_bind]
  rfl

theorem statementAlone_face {s : Chars} (h : st.buffer = chars "f " ++ s) :
    st.statementAlone floats stale = st.readFaceAlone := by
  unfold statementAlone
  rw [h]
  rfl

theorem statementAlone_none (h : NoStatement st.buffer) : st.statementAlone floats stale = some st := by
  have begins := h.exact
  have beginsAny := h.anyCase
  unfold statementAlone
  rw [begins "v " (by decide), begins "vn " (by decide), begins "vt " (by decide), begins "f " (by decide),
    begins "o " (by decide), begins "g " (by decide), beginsAny "usemtl " (by decide), beginsAny "mtllib " (by decide)]
  rfl

/-- A statement changes the painting as it says, and nothing of the buffer. -/
theorem statementAlone_painting (floats : Floats) (stale : Chars) {s : Statement} (wf : s.WellFormed)
    (ending : eol = [] ∨ eol = [newline]) (buffer : st.buffer = s.line ++ (eol ++ 0 :: rest)) :
    ∃ st', st.statementAlone floats stale = some st' ∧ st'.painting = s.paint st.painting ∧ st'.buffer = st.buffer := by
  have noNul := wf.noNul
  cases s with
  | v numbers =>
    rw [Statement.line, List.append_assoc] at buffer
    have reads : st.statementAlone floats stale =
        some { st with vertices := st.vertices ++ [scan3 floats (numbers ++ (eol ++ 0 :: rest))] } := by
      unfold statementAlone
      rw [buffer]
      rfl
    exact ⟨_, reads, rfl, rfl⟩
  | vn numbers =>
    rw [Statement.line, List.append_assoc] at buffer
    have reads : st.statementAlone floats stale =
        some { st with normals := st.normals ++ [scan3 floats (numbers ++ (eol ++ 0 :: rest))] } := by
      unfold statementAlone
      rw [buffer]
      rfl
    exact ⟨_, reads, rfl, rfl⟩
  | vt numbers =>
    rw [Statement.line, List.append_assoc] at buffer
    have reads : st.statementAlone floats stale =
        some { st with uvs := st.uvs ++ [scanUv floats (space :: (numbers ++ (eol ++ 0 :: rest)))] } := by
      unfold statementAlone
      rw [buffer]
      rfl
    exact ⟨_, reads, rfl, rfl⟩
  | f form xs blanks =>
    obtain ⟨x, xs, rfl⟩ := List.exists_cons_of_ne_nil (wf.face form xs blanks rfl)
    rw [Statement.line, List.append_assoc] at buffer
    rw [statementAlone_face (by rw [buffer]; rfl), readFaceAlone_line ending buffer]
    exact ⟨_, rfl, painting_pushFace st _ _, pushFace_buffer st _ _⟩
  | o part =>
    have free : 0 ∉ part.text := fun member => noNul (List.mem_append_right _ member)
    rw [Statement.line, List.append_assoc] at buffer
    rw [statementAlone_parts (.inl rfl) buffer, partName_named free ending]
    exact ⟨_, rfl, painting_pushPart _ _, rfl⟩
  | g group =>
    rw [Statement.line, List.append_assoc] at buffer
    rw [statementAlone_parts (.inr rfl) buffer]
    cases group with
    | none =>
      have found : partName stale ([] ++ (eol ++ 0 :: rest)) = some stale := by
        rw [partName, cstr_line List.not_mem_nil ending]
        rcases ending with rfl | rfl <;> rfl
      rw [Option.map_none, Option.getD_none, found]
      exact ⟨_, rfl, painting_pushPart _ _, rfl⟩
    | some group =>
      have free : 0 ∉ group.text := fun member => noNul (List.mem_append_right _ member)
      rw [Option.map_some, Option.getD_some, partName_named free ending]
      exact ⟨_, rfl, painting_pushPart _ _, rfl⟩
  | usemtl mtl =>
    have free : 0 ∉ mtl.text := fun member => noNul (List.mem_append_right _ member)
    rw [Statement.line, List.append_assoc] at buffer
    rw [statementAlone_usemtl buffer, scanName_named mtl ending free]
    exact ⟨_, rfl, rfl, rfl⟩
  | mtllib file =>
    have free : 0 ∉ file.text := fun member => noNul (List.mem_append_right _ member)
    rw [Statement.line, List.append_assoc] at buffer
    rw [statementAlone_mtllib buffer, scanName_named file ending free]
    exact ⟨_, rfl, rfl, rfl⟩
  | other line =>
    have still : NoStatement st.buffer := by
      rw [buffer]
      rcases ending with rfl | rfl
      · exact (wf.unknown line rfl).append (.inr rfl) rest
      · exact (wf.unknown line rfl).append (.inl rfl) (0 :: rest)
    exact ⟨st, statementAlone_none still, rfl, rfl⟩

theorem loadLineAlone_painting (floats : Floats) (stale : Chars) (room : st.buffer.length = lineBuffSize)
    {s : Statement} (wf : s.WellFormed)
    (ending : eol = [] ∨ eol = [newline]) : ∃ st', st.loadLineAlone floats stale (s.line ++ eol) = some st' ∧
      st'.painting = s.paint st.painting ∧ st'.buffer.length = lineBuffSize := by
  have buffer := fill_eq room (line_inBuffer wf ending)
  rw [List.append_assoc] at buffer
  obtain ⟨st', loaded, painting, same⟩ := statementAlone_painting floats stale wf ending buffer
  refine ⟨st', loaded, painting, ?_⟩
  rw [same, length_fill, room]

/-- All lines of a text. -/
theorem loadLinesAlone_painting (floats : Floats) (stale : Chars) (room : st.buffer.length = lineBuffSize)
    (ending : eol = [] ∨ eol = [newline])
    {stmts : List Statement} (wf : ∀ s ∈ stmts, s.WellFormed) : ∃ st',
      (lines (lineBuffSize - 1) (textOf eol stmts)).foldlM (loadLineAlone floats stale) st = some st' ∧
        st'.painting = stmts.foldl (fun p s => s.paint p) st.painting := by
  induction stmts generalizing st with
  | nil => exact ⟨st, rfl, rfl⟩
  | cons s stmts ih =>
    have here := wf s List.mem_cons_self
    cases stmts with
    | nil =>
      by_cases empty : s.line ++ eol = []
      · obtain ⟨noLine, noEol⟩ := List.append_eq_nil_iff.mp empty
        refine ⟨st, ?_, ?_⟩
        · rw [textOf, empty, lines_nil]
          rfl
        · cases s with
          | other line => rfl
          | _ => cases noLine
      · obtain ⟨st', loaded, painting, -⟩ := loadLineAlone_painting floats stale room here ending
        refine ⟨st', ?_, painting⟩
        rw [lines_textOf_one here ending empty, List.foldlM_cons, loaded]
        rfl
    | cons s' stmts =>
      obtain ⟨st', loaded, painting, room'⟩ :=
        loadLineAlone_painting floats stale room here (.inr rfl)
      obtain ⟨st'', rest, painting'⟩ := ih room' fun t member => wf t (List.mem_cons_of_mem s member)
      refine ⟨st'', ?_, ?_⟩
      · rw [lines_textOf_cons here, List.foldlM_cons, loaded]
        exact rest
      · rw [painting', painting]
        rfl

end Loading

/-! ### Which name a face has in the end -/

/-- What becomes of a current subset with the name `q`. -/
def lastName (q : Chars) (stmts : List Statement) : Chars :=
  (lastMtl (stmts.takeWhile fun s => !s.parts)).getD q

/-- The names of the current subset and of `sCurMtl` behind a statement. -/
def Statement.names : Statement → Chars × Chars → Chars × Chars
  | o _, (_, c) => (c, c)
  | g _, (_, c) => (c, c)
  | usemtl mtl, _ => (mtl.name, mtl.name)
  | _, names => names

/-- The faces of a text, each with the name that its subset has in the end. -/
def paints : Chars × Chars → List Statement → List (Chars × MyFace)
  | _, [] => []
  | names, s :: rest =>
    (s.faceAlone?.toList.map fun face => (lastName names.1 rest, face)) ++ paints (s.names names) rest

theorem lastMtl_cons (s : Statement) (stmts : List Statement) : lastMtl (s :: stmts) = (lastMtl stmts).or s.mtl? := by
  unfold lastMtl
  rw [List.filterMap_cons]
  cases s.mtl? with
  | none => rw [Option.or_none]
  | some name => rw [List.getLast?_cons, Option.or_some]

theorem lastName_cons (names : Chars × Chars) (s : Statement) (rest : List Statement) :
    lastName names.1 (s :: rest) = if s.parts then names.1 else lastName (s.names names).1 rest := by
  unfold lastName
  rw [List.takeWhile_cons]
  cases s with
  | o part => rfl
  | g group => rfl
  | usemtl mtl =>
    change (lastMtl (.usemtl mtl :: _)).getD _ = (lastMtl _).getD mtl.name
    rw [lastMtl_cons]
    cases lastMtl (rest.takeWhile fun s => !s.parts) <;> rfl
  | _ =>
    change (lastMtl (_ :: _)).getD _ = (lastMtl _).getD names.1
    rw [lastMtl_cons]
    exact congrArg (Option.getD · names.1) (Option.or_none ..)

theorem all_foldl (p : Painting) (stmts : List Statement) : (stmts.foldl (fun p s => s.paint p) p).all =
    p.settled ++ (p.faces.map fun face => (lastName p.sMatName stmts, face)) ++
      paints (p.sMatName, p.sCurMtl) stmts := by
  induction stmts generalizing p with
  | nil => exact (List.append_nil _).symm
  | cons s rest ih =>
    have name := lastName_cons (p.sMatName, p.sCurMtl) s rest
    rw [List.foldl_cons, ih, name, paints]
    cases s with
    | f form xs blanks => simp [Statement.paint, Statement.faceAlone?, Statement.names, Statement.parts]
    | o part => simp [Statement.paint, Statement.faceAlone?, Statement.names, Statement.parts, Painting.next, Painting.all]
    | g group => simp [Statement.paint, Statement.faceAlone?, Statement.names, Statement.parts, Painting.next, Painting.all]
    | _ => rfl

/-- A name that is to be the last one is that of the current subset, and of the next ones too. -/
def Current (m : Option Chars) (names : Chars × Chars) : Prop := ∀ mtl ∈ m, names = (mtl, mtl)

theorem Current.names {m : Option Chars} {names : Chars × Chars} (current : Current m names) (s : Statement) :
    Current (s.mtl?.or m) (s.names names) := by
  intro mtl member
  cases s with
  | usemtl new =>
    cases member
    rfl
  | o part =>
    rw [current mtl member]
    rfl
  | g group =>
    rw [current mtl member]
    rfl
  | _ => exact current mtl member

theorem lastingFrom_cons (m : Option Chars) (s : Statement) (rest : List Statement) : LastingFrom m (s :: rest) ↔
    (s.faceAlone?.isSome = true → ∀ mtl ∈ m, ∀ later ∈ lastMtl (rest.takeWhile fun s => !s.parts), later = mtl) ∧
      LastingFrom (s.mtl?.or m) rest := by
  constructor
  · intro lasting
    refine ⟨lasting [] s rest rfl, ?_⟩
    intro before s' after same isFace mtl member
    apply lasting (s :: before) s' after (congrArg (s :: ·) same) isFace mtl
    rw [lastMtl_cons, Option.or_assoc]
    exact member
  · rintro ⟨here, later⟩ before s' after same isFace mtl member
    cases before with
    | nil =>
      obtain ⟨rfl, rfl⟩ := List.cons.inj same
      exact here isFace mtl member
    | cons t before =>
      obtain ⟨rfl, rfl⟩ := List.cons.inj same
      rw [lastMtl_cons, Option.or_assoc] at member
      exact later before s' after rfl isFace mtl member

theorem paints_has_iff {m : Option Chars} {names : Chars × Chars} (current : Current m names) (stmts : List Statement) :
    List.Forall₂ Has (paints names stmts) (mentioned m stmts) ↔ LastingFrom m stmts := by
  induction stmts generalizing m names with
  | nil =>
    apply iff_of_true .nil
    intro before s after same
    exact absurd same (by simp)
  | cons s rest ih =>
    rw [lastingFrom_cons, paints, mentioned, ← ih (current.names s)]
    cases face : s.faceAlone? with
    | none => simp
    | some face =>
      rw [Option.toList_some, List.map_singleton, List.map_singleton, List.singleton_append, List.singleton_append,
        List.forall₂_cons]
      refine and_congr ?_ Iff.rfl
      constructor
      · rintro ⟨-, has⟩ - mtl member later last
        have named := has mtl member
        rw [lastName, last] at named
        exact named
      · intro lasting
        refine ⟨rfl, fun mtl member => ?_⟩
        have last := lasting rfl mtl member
        have name : names.1 = mtl := congrArg Prod.fst (current mtl member)
        rw [lastName, name]
        cases found : lastMtl (rest.takeWhile fun s => !s.parts) with
        | none => rfl
        | some later => exact last later found

section Text
variable (floats : Floats) (stale : Chars) (stack : Nat → UInt8)

theorem painted_paints {eol : Chars} (ending : eol = [] ∨ eol = [newline]) {stmts : List Statement}
    (wf : ∀ s ∈ stmts, s.WellFormed) : ∃ st, loadTextAlone floats stale stack (textOf eol stmts) = some st ∧
      st.obj.painted = paints ([], defaultMtrl) stmts := by
  have room : (Loading.initial (cells stack lineBuffSize)).buffer.length = lineBuffSize := by
    rw [Loading.initial, length_cells]
  obtain ⟨st, loaded, painting⟩ := Loading.loadLinesAlone_painting floats stale room ending wf
  refine ⟨st, loaded, ?_⟩
  rw [← painting_all, painting, all_foldl]
  rfl

/-- The text is loaded, and the faces have the names that are mentioned before them when no later statement has the last
word. -/
theorem painted_iff {eol : Chars} (ending : eol = [] ∨ eol = [newline]) {stmts : List Statement}
    (wf : ∀ s ∈ stmts, s.WellFormed) : ∃ st, loadTextAlone floats stale stack (textOf eol stmts) = some st ∧
      (List.Forall₂ Has st.obj.painted (mentioned none stmts) ↔ Lasting stmts) := by
  obtain ⟨st, loaded, painted⟩ := painted_paints floats stale stack ending wf
  refine ⟨st, loaded, ?_⟩
  rw [painted]
  apply paints_has_iff
  intro mtl member
  cases member

end Text

namespace Placed

def blue : Statement :=
  .usemtl { Named.red with name := chars "blue", some_char := by decide, solid := rfl, short := by decide }

theorem wellFormed_blue : blue.WellFormed := ⟨by decide, by decide, by decide, nofun, nofun⟩

/-- The text `usemtl red` and `f 1`. -/
theorem face_red_alone : ∃ st, loadTextAlone floats [] (fun _ => 0) (textOf [] [red, face]) = some st ∧
    List.Forall₂ Has st.obj.painted (mentioned none [red, face]) := by
  obtain ⟨st, loaded, painted⟩ := painted_iff floats [] (fun _ => 0) (.inl (rfl : [] = [])) fun s => wellFormed
  refine ⟨st, loaded, painted.mpr ?_⟩
  have last : LastingFrom (some (chars "red")) [] := by
    intro before s after same
    exact absurd same (by simp)
  have single : LastingFrom (some (chars "red")) [face] := by
    rw [lastingFrom_cons]
    refine ⟨?_, last⟩
    intro _ _ _ _ later
    cases later
  rw [Lasting, lastingFrom_cons]
  exact ⟨nofun, single⟩

/-- The text `usemtl red`, `f 1` and `usemtl blue`: the face is blue in the end. -/
theorem red_face_blue : (∀ s ∈ [red, face, blue], s.WellFormed) ∧
    ∃ st, loadTextAlone floats [] (fun _ => 0) (textOf [] [red, face, blue]) = some st ∧
      ¬List.Forall₂ Has st.obj.painted (mentioned none [red, face, blue]) := by
  have wf : ∀ s ∈ [red, face, blue], s.WellFormed := by
    intro s member
    rcases List.mem_append.mp (show s ∈ [red, face] ++ [blue] from member) with first | last
    · exact wellFormed first
    · rw [List.mem_singleton.mp last]
      exact wellFormed_blue
  refine ⟨wf, ?_⟩
  obtain ⟨st, loaded, painted⟩ := painted_paints floats [] (fun _ => 0) (.inl (rfl : [] = [])) wf
  refine ⟨st, loaded, ?_⟩
  have found : paints ([], defaultMtrl) [red, face, blue] = [(chars "blue", Form.v.faceAlone [⟨one, one, one⟩])] := rfl
  have wanted : mentioned none [red, face, blue] = [(some (chars "red"), Form.v.faceAlone [⟨one, one, one⟩])] := rfl
  rw [painted, found, wanted, List.forall₂_cons]
  rintro ⟨⟨-, named⟩, -⟩
  exact absurd (named _ rfl) (by decide)

end Placed

end ModelPublish.Obj
