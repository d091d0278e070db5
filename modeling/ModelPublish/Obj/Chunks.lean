import ModelPublish.Obj.Scanners
import ModelPublish.Obj.Statements
import ModelPublish.Text.Lines

/-!
# Lines that do not fit into the buffer

`LoadObj2` takes what `fgets` reads for a line. A line that there is no room for is taken for several lines.
-/

namespace ModelPublish.Obj
open Text Packed
open Scan (Float3)

/-- Whether a piece of text begins with a statement. -/
def begins (piece : Chars) : Bool :=
  Loading.keywords.any (startsWith · piece) || Loading.keywordsAnyCase.any (startsWithAnyCase · piece)

section Lines
variable (floats : Floats)

namespace Loading

/-- A line that is interpreted as a whole. In memory behind it is what the reads leave there. -/
def loadWhole (st : Loading) (line : Chars) : Option Loading :=
  let left := leave st.buffer (lines (lineBuffSize - 1) line)
  let whole := { st with buffer := line ++ 0 :: left.drop (line.length + 1) }
  (whole.statement floats).map fun st => { st with buffer := left }

end Loading

/-- Every line of a text once, however long it is. -/
def loadWholeText (stack : Nat → UInt8) (text : Chars) : Option Loading :=
  (wholeLines text).foldlM (Loading.loadWhole floats) (Loading.initial (cells stack lineBuffSize))

/-- A text is loaded line by line: the MY_OBJ is the one of the whole lines, with every face of any number of
vertices in it, and no tail of a line begins with a statement. -/
structure LineWise (stack : Nat → UInt8) (text : Chars) : Prop where
  same : (loadText floats stack text).map Loading.obj = (loadWholeText floats stack text).map Loading.obj
  once : ∀ line ∈ wholeLines text, ∀ piece ∈ (lines (lineBuffSize - 1) line).tail, begins piece = false

end Lines

/-! ### What a statement says -/

/-- What a line says on its own. Where something that should be read is not there, or there is no room for it,
nothing is said of it. -/
inductive Said where
  | vertex (p : Float3)
  | normal (p : Float3)
  | uv (p : Uv)
  | face (first : Option Components) (corners : Option (List Corner))
  | part (name : Option Chars)
  | group (fits : Bool)
  | material (name : Option Chars)
  | library (name : Option Chars)
  | nothing
  deriving DecidableEq

section Told
variable (floats : Floats)

/-- What is read of a line with a keyword. -/
def readAs : Loading.Keyword → Chars → Said
  | .v, s => .vertex (scan3 floats (s.drop 2))
  | .vn, s => .normal (scan3 floats (s.drop 3))
  | .vt, s => .uv (scanUv floats (s.drop 2))
  | .f, s =>
    let face := inspectFaceLine s
    .face face.2 (readCorners (face.2.getD ⟨false, false⟩) face.1 s)
  | .o, s => .part (scanName (s.drop 2))
  | .g, s => .group (decide (((word (cstr (s.drop 2))).getD []).length < maxPath))
  | .usemtl, s => .material (scanName (s.drop 7))
  | .mtllib, s => .library (scanName (s.drop 7))
  | .other, _ => .nothing

def told (s : Chars) : Said := readAs floats (Loading.keyword s) s

end Told

namespace Said

/-- What is done with what a line says. -/
def act (st : Loading) : Said → Option Loading
  | vertex p => some { st with vertices := st.vertices ++ [p] }
  | normal p => some { st with normals := st.normals ++ [p] }
  | uv p => some { st with uvs := st.uvs ++ [p] }
  | face first corners => corners.map fun corners => (st.inspect first).pushFace (.ofCorners corners)
  | part name => name.map st.pushPart
  | group fits => if fits then some (st.pushSubset st.sCurMtl) else none
  | material name => name.map fun name => { st with sCurMtl := name }.pushSubset name
  | library name => name.map fun file => { st with sMtrlFilename := file }
  | nothing => some st

/-- What stays for good in the MY_OBJ. The components of a subset and the name of the library are set anew by
later lines. -/
def lasting : Said → Said
  | face _ corners => face none corners
  | library _ => library none
  | said => said

theorem act_buffer (said : Said) (st : Loading) (buffer : Chars) :
    said.act { st with buffer := buffer } = (said.act st).map fun next => { next with buffer := buffer } := by
  cases said with
  | vertex p | normal p | uv p | nothing => rfl
  | face first corners =>
    cases corners with
    | none => rfl
    | some corners => cases first <;> rfl
  | part name | material name | library name => cases name <;> rfl
  | group fits => cases fits <;> rfl

end Said

theorem statement_told (floats : Floats) (st : Loading) :
    st.statement floats = (told floats st.buffer).act st := by
  rw [Loading.statement_eq, told]
  cases Loading.keyword st.buffer with
  | f =>
    rw [readAs, Said.act]
    dsimp only
    rw [Loading.readFace_eq, inspectFaceLine, inspectFrom_zero]
    cases counted (st.buffer.drop 1) <;> rfl
  | g =>
    rw [readAs, Said.act]
    by_cases fits : ((word (cstr (st.buffer.drop 2))).getD []).length < maxPath
    · rw [if_pos fits, if_pos (decide_eq_true fits)]
    · rw [if_neg fits, if_neg (by simpa using fits)]
  | v | vn | vt | o | usemtl | mtllib | other => rfl

/-! ### Pieces of a line -/

theorem begins_eq_false {piece : Chars} : begins piece = false ↔ Loading.NoStatement piece := by
  unfold begins
  rw [Bool.or_eq_false_iff, List.any_eq_false, List.any_eq_false]
  constructor
  · intro none
    refine ⟨fun literal member => ?_, fun literal member => ?_⟩
    · exact Bool.eq_false_iff.mpr (none.1 literal member)
    · exact Bool.eq_false_iff.mpr (none.2 literal member)
  · intro none
    refine ⟨fun literal member => ?_, fun literal member => ?_⟩
    · exact Bool.eq_false_iff.mp (none.exact literal member)
    · exact Bool.eq_false_iff.mp (none.anyCase literal member)

theorem isPrefixOf_take {literal line : Chars} {n : Nat} (fits : literal.length ≤ n) :
    literal.isPrefixOf (line.take n) = literal.isPrefixOf line := by
  rw [Bool.eq_iff_iff, List.isPrefixOf_iff_prefix, List.isPrefixOf_iff_prefix, List.prefix_take_iff]
  exact and_iff_left fits

/-- No keyword is longer than 7 characters. -/
theorem keyword_take (line : Chars) : Loading.keyword (line.take 7) = Loading.keyword line := by
  have exact (literal : String) (short : (chars literal).length ≤ 7) :
      startsWith literal (line.take 7) = startsWith literal line := isPrefixOf_take short
  have anyCase (literal : String) (short : (chars literal).length ≤ 7) :
      startsWithAnyCase literal (line.take 7) = startsWithAnyCase literal line := by
    rw [startsWithAnyCase, List.map_take, isPrefixOf_take short]
    rfl
  unfold Loading.keyword
  rw [exact "v " (by decide), exact "vn " (by decide), exact "vt " (by decide), exact "f " (by decide),
    exact "o " (by decide), exact "g " (by decide), anyCase "usemtl " (by decide), anyCase "mtllib " (by decide)]

/-- The first piece of a long line begins as the line does. -/
theorem keyword_front {line : Chars} (long : ¬line.length < lineBuffSize) (rest rest' : Chars) :
    Loading.keyword (line.take (lineBuffSize - 1) ++ rest) = Loading.keyword (line ++ rest') := by
  have length : 7 ≤ line.length := by
    unfold lineBuffSize at long
    omega
  have front : 7 ≤ (line.take (lineBuffSize - 1)).length := by
    rw [List.length_take]
    exact Nat.le_min.mpr ⟨by decide, length⟩
  rw [← keyword_take, ← keyword_take (line ++ rest'), List.take_append_of_le_length front,
    List.take_append_of_le_length length, List.take_take]
  rfl

/-- A line that is read at once, or whose first piece says what the line says, and of which no other piece begins
with a statement. -/
def Uncut (floats : Floats) (line : Chars) : Prop :=
  line.length < lineBuffSize ∨
    (told floats (line.take (lineBuffSize - 1) ++ [0]) = told floats (line ++ [0]) ∧
      ∀ piece ∈ (lines (lineBuffSize - 1) line).tail, begins piece = false)

section Whole
variable {floats : Floats} {st : Loading} {text line : Chars}

theorem length_leave (buffer : Chars) (read : List Chars) : (Loading.leave buffer read).length = buffer.length := by
  induction read generalizing buffer with
  | nil => rfl
  | cons line read ih =>
    change (Loading.leave (overlay buffer (line ++ [0])) read).length = buffer.length
    rw [ih, length_overlay]

/-- What stands in the buffer when a line is interpreted. -/
def seen (buffer line : Chars) : Chars :=
  if line.length < lineBuffSize then line ++ 0 :: buffer.drop (line.length + 1)
  else line.take (lineBuffSize - 1) ++ [0]

/-- What would stand there if there were room for the line. -/
def meant (buffer line : Chars) : Chars :=
  if line.length < lineBuffSize then line ++ 0 :: buffer.drop (line.length + 1) else line ++ [0]

theorem keyword_seen (buffer line : Chars) :
    Loading.keyword (seen buffer line) = Loading.keyword (meant buffer line) := by
  unfold seen meant
  split
  · rfl
  · rename_i long
    exact keyword_front long [0] [0]

theorem lines_of_short (member : line ∈ wholeLines text) (short : line.length < lineBuffSize) :
    lines (lineBuffSize - 1) line = [line] :=
  lines_short member (Nat.le_of_lt_succ short)

theorem take_of_short (short : line.length < lineBuffSize) : line.take (lineBuffSize - 1) = line :=
  List.take_of_length_le (Nat.le_of_lt_succ short)

theorem pieces_cons (member : line ∈ wholeLines text) :
    ∃ rest, lines (lineBuffSize - 1) line = line.take (lineBuffSize - 1) :: rest := by
  by_cases short : line.length < lineBuffSize
  · refine ⟨[], ?_⟩
    rw [lines_of_short member short, take_of_short short]
  · exact lines_long (n := lineBuffSize - 2) member (by unfold lineBuffSize at short ⊢; omega)

/-- The first piece is interpreted, and the others leave nothing but themselves. -/
theorem loadLines_pieces (floats : Floats) (room : st.buffer.length = lineBuffSize) (member : line ∈ wholeLines text)
    (once : ∀ piece ∈ (lines (lineBuffSize - 1) line).tail, begins piece = false) :
    st.loadLines floats (lines (lineBuffSize - 1) line) = ((told floats (seen st.buffer line)).act st).map fun next =>
      { next with buffer := Loading.leave st.buffer (lines (lineBuffSize - 1) line) } := by
  obtain ⟨rest, pieces⟩ := pieces_cons member
  have short : ∀ piece ∈ rest, piece.length < lineBuffSize := by
    intro piece among
    have among : piece ∈ lines (lineBuffSize - 1) line := pieces ▸ List.mem_cons_of_mem _ among
    exact Nat.lt_succ_of_le (length_lines among)
  have first : (line.take (lineBuffSize - 1)).length < lineBuffSize := by
    rw [List.length_take]
    exact Nat.lt_of_le_of_lt (Nat.min_le_left _ _) (by decide)
  rw [pieces, List.tail_cons] at once
  have filled : (st.fill (line.take (lineBuffSize - 1))).buffer = seen st.buffer line := by
    rw [Loading.fill_eq room first, seen]
    split
    · rename_i all
      rw [take_of_short all]
    · rename_i long
      have length : (line.take (lineBuffSize - 1)).length = lineBuffSize - 1 := by
        rw [List.length_take]
        unfold lineBuffSize at long ⊢
        omega
      have full : st.buffer.drop (lineBuffSize - 1 + 1) = [] := List.drop_of_length_le (Nat.le_of_eq room)
      rw [length, full]
  have acted : (st.fill (line.take (lineBuffSize - 1))).statement floats =
      ((told floats (seen st.buffer line)).act st).map fun next => { next with buffer := seen st.buffer line } := by
    rw [statement_told, filled, ← Said.act_buffer, ← filled]
    rfl
  rw [pieces, Loading.loadLines, List.foldlM_cons, Loading.loadLine, acted]
  cases (told floats (seen st.buffer line)).act st with
  | none => rfl
  | some next =>
    have room' : (seen st.buffer line).length = lineBuffSize := by rw [← filled, Loading.length_fill, room]
    have behind := @Loading.loadLines_none floats { next with buffer := seen st.buffer line } room' _
      short fun piece among => begins_eq_false.mp (once piece among)
    refine behind.trans ?_
    rw [← filled]
    rfl

theorem loadWhole_told (floats : Floats) (room : st.buffer.length = lineBuffSize) (member : line ∈ wholeLines text) :
    st.loadWhole floats line = ((told floats (meant st.buffer line)).act st).map fun next =>
      { next with buffer := Loading.leave st.buffer (lines (lineBuffSize - 1) line) } := by
  have whole : line ++ 0 :: (Loading.leave st.buffer (lines (lineBuffSize - 1) line)).drop (line.length + 1) =
      meant st.buffer line := by
    rw [meant]
    split
    · rename_i short
      rw [lines_of_short member short]
      have left : Loading.leave st.buffer [line] = (st.fill line).buffer := rfl
      rw [left, Loading.fill_eq room short]
      simp [List.drop_append]
    · rename_i long
      rw [List.drop_of_length_le]
      rw [length_leave, room]
      exact Nat.le_trans (Nat.le_of_not_lt long) (Nat.le_succ _)
  rw [Loading.loadWhole, statement_told]
  dsimp only
  rw [whole, Said.act_buffer, Option.map_map]
  rfl

theorem loadWhole_uncut (room : st.buffer.length = lineBuffSize) (member : line ∈ wholeLines text)
    (uncut : Uncut floats line) :
    st.loadWhole floats line = st.loadLines floats (lines (lineBuffSize - 1) line) := by
  rcases uncut with short | ⟨same, once⟩
  · have one : (lines (lineBuffSize - 1) line).tail = [] := by
      rw [lines_of_short member short]
      rfl
    rw [loadWhole_told floats room member, loadLines_pieces floats room member (by simp [one]), seen, meant,
      if_pos short, if_pos short]
  · by_cases short : line.length < lineBuffSize
    · rw [loadWhole_told floats room member, loadLines_pieces floats room member once, seen, meant, if_pos short,
        if_pos short]
    · rw [loadWhole_told floats room member, loadLines_pieces floats room member once, seen, meant, if_neg short,
        if_neg short, same]

theorem loadWhole_room {st' : Loading} (room : st.buffer.length = lineBuffSize)
    (h : st.loadWhole floats line = some st') :
    st'.buffer.length = lineBuffSize := by
  obtain ⟨next, -, rfl⟩ := Option.map_eq_some_iff.mp h
  exact (length_leave _ _).trans room

theorem loadLines_cons (floats : Floats) (st : Loading) (line : Chars) (whole : List Chars) :
    st.loadLines floats ((line :: whole).flatMap (lines (lineBuffSize - 1))) =
      (st.loadLines floats (lines (lineBuffSize - 1) line)).bind fun next =>
        next.loadLines floats (whole.flatMap (lines (lineBuffSize - 1))) := by
  rw [List.flatMap_cons, Loading.loadLines, List.foldlM_append]
  rfl

/-- Lines that are not cut are loaded as they are read. -/
theorem loadWhole_lines {whole : List Chars} (room : st.buffer.length = lineBuffSize)
    (among : ∀ line ∈ whole, line ∈ wholeLines text) (uncut : ∀ line ∈ whole, Uncut floats line) :
    whole.foldlM (Loading.loadWhole floats) st =
      st.loadLines floats (whole.flatMap (lines (lineBuffSize - 1))) := by
  induction whole generalizing st with
  | nil => rfl
  | cons line whole ih =>
    have here := loadWhole_uncut room (among line List.mem_cons_self) (uncut line List.mem_cons_self)
    rw [loadLines_cons, List.foldlM_cons, here]
    cases loaded : st.loadLines floats (lines (lineBuffSize - 1) line) with
    | none => rfl
    | some st' =>
      rw [loaded] at here
      exact ih (loadWhole_room room here) (fun l later => among l (List.mem_cons_of_mem _ later))
        fun l later => uncut l (List.mem_cons_of_mem _ later)

end Whole

/-! ### What the MY_OBJ tells of the lines -/

/-- A subset without its components. -/
def MyDrawBatch.bare (subset : MyDrawBatch) : MyDrawBatch := { subset with bHasNormal := none, bHasUv := none }

def MyObjPart.bare (part : MyObjPart) : MyObjPart := { part with subSets := part.subSets.map MyDrawBatch.bare }

namespace Loading

/-- What has been loaded for good. -/
def lasting (st : Loading) : Loading :=
  { st with
    buffer := []
    subParts := st.subParts.map MyObjPart.bare
    curPart := st.curPart.bare
    curSubset := st.curSubset.bare
    sCurMtl := []
    sMtrlFilename := [] }

section Lasting
variable {st st' next next' : Loading}

theorem lasting_iff : st.lasting = st'.lasting ↔
    st.subParts.map MyObjPart.bare = st'.subParts.map MyObjPart.bare ∧ st.curPart.bare = st'.curPart.bare ∧
      st.curSubset.bare = st'.curSubset.bare ∧ st.vertices = st'.vertices ∧ st.normals = st'.normals ∧
      st.uvs = st'.uvs := by
  simp only [lasting, Loading.mk.injEq, true_and, and_true]

theorem lastPart_bare_iff : st.lastPart.bare = st'.lastPart.bare ↔
    st.curPart.bare = st'.curPart.bare ∧ st.curSubset.bare = st'.curSubset.bare := by
  simp only [lastPart, MyObjPart.bare, MyObjPart.mk.injEq, List.map_append, List.map_cons, List.map_nil,
    List.append_singleton_inj, and_assoc]

theorem lasting_of_obj (same : st.obj = st'.obj) : st.lasting = st'.lasting := by
  obtain ⟨parts, vertices, normals, uvs, -⟩ := (MyObj.mk.injEq ..).mp same
  obtain ⟨before, last⟩ := List.append_singleton_inj.mp parts
  obtain ⟨part, subset⟩ := lastPart_bare_iff.mp (congrArg MyObjPart.bare last)
  exact lasting_iff.mpr ⟨congrArg _ before, part, subset, vertices, normals, uvs⟩

theorem inspect_pushFace_iff {first first' : Option Components} {face face' : MyFace} :
    ((st.inspect first).pushFace face).lasting = ((st'.inspect first').pushFace face').lasting ↔
      st.lasting = st'.lasting ∧ face = face' := by
  have bare (st : Loading) (first : Option Components) (face : MyFace) :
      ((st.inspect first).pushFace face).lasting =
        { st.lasting with curSubset := { st.curSubset.bare with faces := st.curSubset.faces ++ [face] } } := by
    cases first <;> rfl
  rw [bare, bare]
  simp only [lasting, MyDrawBatch.bare, Loading.mk.injEq, MyDrawBatch.mk.injEq, List.append_singleton_inj, true_and,
    and_true]
  tauto

theorem pushSubset_lasting_iff {sMatName sMatName' : Chars} :
    (st.pushSubset sMatName).lasting = (st'.pushSubset sMatName').lasting ↔
      st.lasting = st'.lasting ∧ sMatName = sMatName' := by
  rw [lasting_iff, lasting_iff]
  change _ ∧ st.lastPart.bare = st'.lastPart.bare ∧ _ ↔ _
  rw [lastPart_bare_iff]
  simp only [pushSubset, MyDrawBatch.bare, MyDrawBatch.mk.injEq, true_and, and_true]
  tauto

theorem pushPart_lasting_iff {sName sName' : Chars} (same : (st.pushPart sName).lasting = (st'.pushPart sName').lasting) :
    st.lasting = st'.lasting ∧ sName = sName' := by
  obtain ⟨parts, part, -, rest⟩ := lasting_iff.mp same
  have parts : st.subParts.map MyObjPart.bare ++ [st.lastPart.bare] =
      st'.subParts.map MyObjPart.bare ++ [st'.lastPart.bare] := by
    simpa only [pushPart, List.map_append, List.map_cons, List.map_nil] using parts
  obtain ⟨before, last⟩ := List.append_singleton_inj.mp parts
  obtain ⟨last, subset⟩ := lastPart_bare_iff.mp last
  exact ⟨lasting_iff.mpr ⟨before, last, subset, rest⟩, congrArg MyObjPart.sName part⟩

/-- Two lines with the same keyword leave the same for good only if the same was there before, and they say the
same. -/
theorem lasting_back {floats : Floats} {k : Keyword} {s s' : Chars} (acted : (readAs floats k s).act st = some next)
    (acted' : (readAs floats k s').act st' = some next') (same : next.lasting = next'.lasting) :
    st.lasting = st'.lasting ∧ (readAs floats k s).lasting = (readAs floats k s').lasting := by
  cases k with
  | v =>
    cases acted
    cases acted'
    obtain ⟨parts, part, subset, vertices, rest⟩ := lasting_iff.mp same
    obtain ⟨before, last⟩ := List.append_singleton_inj.mp vertices
    exact ⟨lasting_iff.mpr ⟨parts, part, subset, before, rest⟩, congrArg Said.vertex last⟩
  | vn =>
    cases acted
    cases acted'
    obtain ⟨parts, part, subset, vertices, normals, uvs⟩ := lasting_iff.mp same
    obtain ⟨before, last⟩ := List.append_singleton_inj.mp normals
    exact ⟨lasting_iff.mpr ⟨parts, part, subset, vertices, before, uvs⟩, congrArg Said.normal last⟩
  | vt =>
    cases acted
    cases acted'
    obtain ⟨parts, part, subset, vertices, normals, uvs⟩ := lasting_iff.mp same
    obtain ⟨before, last⟩ := List.append_singleton_inj.mp uvs
    exact ⟨lasting_iff.mpr ⟨parts, part, subset, vertices, normals, before⟩, congrArg Said.uv last⟩
  | f =>
    obtain ⟨corners, read, rfl⟩ := Option.map_eq_some_iff.mp acted
    obtain ⟨corners', read', rfl⟩ := Option.map_eq_some_iff.mp acted'
    obtain ⟨before, face⟩ := inspect_pushFace_iff.mp same
    refine ⟨before, ?_⟩
    rw [readAs, readAs, Said.lasting, Said.lasting, read, read', MyFace.ofCorners_injective face]
  | o =>
    obtain ⟨name, read, rfl⟩ := Option.map_eq_some_iff.mp acted
    obtain ⟨name', read', rfl⟩ := Option.map_eq_some_iff.mp acted'
    obtain ⟨before, names⟩ := pushPart_lasting_iff same
    refine ⟨before, ?_⟩
    rw [readAs, readAs, read, read', names]
  | g =>
    obtain ⟨fits, made⟩ := Option.ite_none_right_eq_some.mp acted
    obtain ⟨fits', made'⟩ := Option.ite_none_right_eq_some.mp acted'
    cases made
    cases made'
    refine ⟨(pushSubset_lasting_iff.mp same).1, ?_⟩
    rw [readAs, readAs, fits, fits']
  | usemtl =>
    obtain ⟨name, read, rfl⟩ := Option.map_eq_some_iff.mp acted
    obtain ⟨name', read', rfl⟩ := Option.map_eq_some_iff.mp acted'
    obtain ⟨before, names⟩ := pushSubset_lasting_iff.mp same
    refine ⟨before, ?_⟩
    rw [readAs, readAs, read, read', names]
  | mtllib =>
    obtain ⟨file, -, rfl⟩ := Option.map_eq_some_iff.mp acted
    obtain ⟨file', -, rfl⟩ := Option.map_eq_some_iff.mp acted'
    exact ⟨same, rfl⟩
  | other =>
    cases acted
    cases acted'
    exact ⟨same, rfl⟩

end Lasting

end Loading

/-- Lines that leave the same for good, read in pieces and whole, say the same for good. -/
theorem lasting_lines {floats : Floats} {text : Chars} {whole : List Chars} {st st' next next' : Loading}
    (room : st.buffer.length = lineBuffSize) (buffer : st'.buffer = st.buffer)
    (among : ∀ line ∈ whole, line ∈ wholeLines text)
    (once : ∀ line ∈ whole, ∀ piece ∈ (lines (lineBuffSize - 1) line).tail, begins piece = false)
    (pieces : st.loadLines floats (whole.flatMap (lines (lineBuffSize - 1))) = some next)
    (loaded : whole.foldlM (Loading.loadWhole floats) st' = some next') (same : next.lasting = next'.lasting) :
    st.lasting = st'.lasting ∧ ∀ line ∈ whole, line.length < lineBuffSize ∨
      (told floats (line.take (lineBuffSize - 1) ++ [0])).lasting = (told floats (line ++ [0])).lasting := by
  induction whole generalizing st st' with
  | nil =>
    cases pieces
    cases loaded
    exact ⟨same, fun _ member => absurd member List.not_mem_nil⟩
  | cons line whole ih =>
    rw [loadLines_cons] at pieces
    rw [List.foldlM_cons] at loaded
    obtain ⟨mid, first, pieces⟩ := Option.bind_eq_some_iff.mp pieces
    obtain ⟨mid', first', loaded⟩ := Option.bind_eq_some_iff.mp loaded
    have member := among line List.mem_cons_self
    rw [loadLines_pieces floats room member (once line List.mem_cons_self)] at first
    rw [loadWhole_told floats (by rw [buffer, room]) member, buffer] at first'
    obtain ⟨did, acted, rfl⟩ := Option.map_eq_some_iff.mp first
    obtain ⟨did', acted', rfl⟩ := Option.map_eq_some_iff.mp first'
    have left (next : Loading) : { next with
        buffer := Loading.leave st.buffer (lines (lineBuffSize - 1) line) }.buffer =
          Loading.leave st.buffer (lines (lineBuffSize - 1) line) := rfl
    obtain ⟨between, rest⟩ := ih ((length_leave _ _).trans room) ((left did').trans (left did).symm)
      (fun l later => among l (List.mem_cons_of_mem _ later)) (fun l later => once l (List.mem_cons_of_mem _ later))
      pieces loaded
    have between : did.lasting = did'.lasting := between
    rw [told, keyword_seen] at acted
    obtain ⟨before, here⟩ := Loading.lasting_back acted acted' between
    refine ⟨before, List.forall_mem_cons.mpr ⟨?_, rest⟩⟩
    by_cases short : line.length < lineBuffSize
    · exact .inl short
    · right
      rw [← keyword_seen, ← told, keyword_seen, ← told, seen, meant, if_neg short, if_neg short] at here
      exact here

namespace Comment

def front : Chars := List.replicate 4095 35

def text : Chars := front ++ chars "v 0 0 0\n"

theorem free : newline ∉ front := fun member => absurd (List.eq_of_mem_replicate member) (by decide)

theorem idle : Loading.NoStatement front :=
  Loading.noStatement_idle fun c member => by
    rw [List.eq_of_mem_replicate member]
    decide

theorem lines_text : lines (lineBuffSize - 1) text = [front, chars "v 0 0 0\n"] := by
  have read : readLine (lineBuffSize - 1) text = (front, chars "v 0 0 0\n") := by
    have long : lineBuffSize - 1 = front.length := List.length_replicate.symm
    rw [text, readLine_front free (Nat.le_of_eq long), long, List.take_length, List.drop_length]
    rfl
  have last : lines (lineBuffSize - 1) (chars "v 0 0 0" ++ [newline]) = [chars "v 0 0 0" ++ [newline]] :=
    lines_single (by decide) (by decide) (by decide) (.inr rfl)
  have some_char : text ≠ [] := List.append_ne_nil_of_right_ne_nil _ (by decide)
  have split : lines (lineBuffSize - 1) text = _ := lines_cons (lineBuffSize - 2) some_char
  rw [split]
  change (readLine (lineBuffSize - 1) text).1 :: lines _ (readLine (lineBuffSize - 1) text).2 = _
  rw [read]
  exact congrArg (front :: ·) last

theorem wholeLines_text : wholeLines text = [text] := by
  have noNewline : newline ∉ front ++ chars "v 0 0 0" := by
    intro member
    rcases List.mem_append.mp member with first | last
    · exact free first
    · exact absurd last (by decide)
  have whole := wholeLines_append noNewline []
  have same : front ++ chars "v 0 0 0" ++ [newline] = text := by
    rw [List.append_assoc]
    rfl
  rw [same] at whole
  exact whole

/-- One line is a comment, and no vertex is to be loaded. -/
theorem loadWholeText_comment (floats : Floats) (stack : Nat → UInt8) :
    (loadWholeText floats stack text).map (fun st => st.obj.vertices) = some [] := by
  have still (rest : Chars) : told floats (text ++ rest) = .nothing := by
    have other : Loading.keyword (text ++ rest) = .other := by
      rw [← keyword_take]
      rfl
    rw [told, other]
    rfl
  rw [loadWholeText, wholeLines_text, List.foldlM_cons, Loading.loadWhole, statement_told, still]
  rfl

theorem loadLine_vertex (floats : Floats) {st : Loading} (room : st.buffer.length = lineBuffSize) :
    ∃ vertex, (st.loadLine floats (chars "v 0 0 0\n")).map Loading.vertices = some (st.vertices ++ [vertex]) := by
  have short : (chars "v 0 0 0\n").length < lineBuffSize := by decide
  have buffer := Loading.fill_eq room short
  have split : (st.fill (chars "v 0 0 0\n")).buffer = chars "v " ++ (chars "0 0 0\n" ++ 0 :: st.buffer.drop 9) := buffer
  rw [Loading.loadLine, Loading.statement_v split]
  exact ⟨_, rfl⟩

theorem loadText_comment (floats : Floats) (stack : Nat → UInt8) :
    ∃ vertex, (loadText floats stack text).map (fun st => st.obj.vertices) = some [vertex] := by
  have room : (Loading.initial (cells stack lineBuffSize)).buffer.length = lineBuffSize := by
    rw [Loading.initial, length_cells]
  have first : (Loading.initial (cells stack lineBuffSize)).loadLine floats front =
      some ((Loading.initial (cells stack lineBuffSize)).fill front) := by
    apply Loading.statement_none
    rw [Loading.fill_eq room (by rw [front, List.length_replicate]; decide)]
    exact idle.append (.inr rfl) _
  have room' : ((Loading.initial (cells stack lineBuffSize)).fill front).buffer.length = lineBuffSize := by
    rw [Loading.length_fill, room]
  obtain ⟨vertex, second⟩ := loadLine_vertex floats room'
  refine ⟨vertex, ?_⟩
  rw [loadText, lines_text, Loading.loadLines, List.foldlM_cons, first]
  have none : ((Loading.initial (cells stack lineBuffSize)).fill front).vertices = [] := rfl
  generalize (Loading.initial (cells stack lineBuffSize)).fill front = st at second none
  obtain ⟨st', loaded, vertices⟩ := Option.map_eq_some_iff.mp second
  rw [none] at vertices
  change ([chars "v 0 0 0\n"].foldlM (Loading.loadLine floats) st).map _ = _
  rw [List.foldlM_cons, loaded]
  exact congrArg some vertices

def floats : Floats := ⟨fun _ => [], fun _ => ⟨0⟩, id, id⟩

end Comment

end ModelPublish.Obj
