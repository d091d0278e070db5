import ModelPublish.Obj.Statements

/-!
# Where faces are put

Each face goes into the part of the last `o` statement, and its material is that of the last `usemtl` statement.
The initial subset is made without a material, so that this is not true of faces before the first statement
that opens another subset.
-/

namespace ModelPublish.Obj
open Text Packed

/-- A part, by its place among the parts and its name, and a material. -/
structure Place where
  part : Nat
  sName : Chars
  sMatName : Chars
  deriving DecidableEq

/-- All faces in the order of the parts and their subsets. -/
def MyObj.placed (obj : MyObj) : List (Place × MyFace) :=
  obj.subParts.zipIdx.flatMap fun (part, i) =>
    part.subSets.flatMap fun subset => subset.faces.map fun face => (⟨i, part.sName, subset.sMatName⟩, face)

namespace Statement

/-- Where the next face belongs. -/
def moves : Statement → Place → Place
  | o part, p => ⟨p.part + 1, part.name, p.sMatName⟩
  | usemtl mtl, p => { p with sMatName := mtl.name }
  | _, p => p

def face? : Statement → Option MyFace
  | f form xs _ => some (form.face xs)
  | _ => none

def opens : Statement → Bool
  | o _ => true
  | g _ => true
  | usemtl _ => true
  | _ => false

end Statement

/-- The faces of a text with the places where they belong. -/
def placements : Place → List Statement → List (Place × MyFace)
  | _, [] => []
  | p, s :: rest => (s.face?.toList.map fun face => (p, face)) ++ placements (s.moves p) rest

namespace Loading
variable {floats : Floats} {eol : Chars}

def place (st : Loading) : Place := ⟨st.subParts.length, st.curPart.sName, st.curSubset.sMatName⟩

def partFaces (i : Nat) (part : MyObjPart) : List (Place × MyFace) :=
  part.subSets.flatMap fun subset => subset.faces.map fun face => (⟨i, part.sName, subset.sMatName⟩, face)

theorem placed_obj (st : Loading) : st.obj.placed =
    (st.subParts.zipIdx.flatMap fun (part, i) => partFaces i part) ++ partFaces st.subParts.length st.lastPart := by
  unfold MyObj.placed obj
  rw [List.zipIdx_append, List.flatMap_append]
  simp [partFaces]

theorem partFaces_last (st : Loading) : partFaces st.subParts.length st.lastPart =
    partFaces st.subParts.length st.curPart ++ st.curSubset.faces.map fun face => (st.place, face) := by
  unfold partFaces lastPart place
  rw [List.flatMap_append, List.flatMap_singleton]

theorem placed_split (st : Loading) : st.obj.placed =
    (st.subParts.zipIdx.flatMap fun (part, i) => partFaces i part) ++ partFaces st.subParts.length st.curPart ++
      st.curSubset.faces.map fun face => (st.place, face) := by
  rw [placed_obj, partFaces_last, List.append_assoc]

theorem placed_pushFace (st : Loading) (first : Option Components) (face : MyFace) :
    ((st.inspect first).pushFace face).obj.placed = st.obj.placed ++ [(st.place, face)] := by
  have parts : ((st.inspect first).pushFace face).subParts = st.subParts := by cases first <;> rfl
  have part : ((st.inspect first).pushFace face).curPart = st.curPart := by cases first <;> rfl
  have place : ((st.inspect first).pushFace face).place = st.place := by cases first <;> rfl
  rw [placed_split, placed_split, parts, part, place, pushFace_faces, List.map_append, ← List.append_assoc]
  rfl

theorem placed_pushSubset (st : Loading) (sMatName : Chars) : (st.pushSubset sMatName).obj.placed = st.obj.placed := by
  rw [placed_split, placed_obj]
  exact List.append_nil _

theorem placed_pushPart (st : Loading) (sName : Chars) : (st.pushPart sName).obj.placed = st.obj.placed := by
  rw [placed_split, placed_obj, pushPart, List.zipIdx_append, List.flatMap_append, List.zipIdx_singleton,
    List.flatMap_singleton, Nat.zero_add]
  exact (List.append_nil _).trans (List.append_nil _)

theorem placed_load (s : Statement) (st : Loading) :
    (s.load floats eol st).obj.placed = st.obj.placed ++ s.face?.toList.map fun face => (st.place, face) := by
  cases s with
  | f form xs blanks => exact placed_pushFace st (form.first xs) (form.face xs)
  | o part => exact (placed_pushPart st part.name).trans (List.append_nil _).symm
  | g group => exact (placed_pushSubset st st.sCurMtl).trans (List.append_nil _).symm
  | usemtl mtl => exact (placed_pushSubset _ mtl.name).trans (List.append_nil _).symm
  | _ => exact (List.append_nil _).symm

theorem place_inspect (st : Loading) (first : Option Components) (face : MyFace) :
    ((st.inspect first).pushFace face).place = st.place ∧ ((st.inspect first).pushFace face).sCurMtl = st.sCurMtl := by
  cases first <;> exact ⟨rfl, rfl⟩

/-- The current material is always that of the next face, the current subset has it only when it is opened. -/
theorem place_load (floats : Floats) (eol : Chars) (s : Statement) {st : Loading} {p : Place} (sMatName : Chars)
    (place : st.place = { p with sMatName := sMatName }) (current : st.sCurMtl = p.sMatName) :
    (s.load floats eol st).place = (if s.opens then s.moves p else st.place) ∧
      (s.load floats eol st).sCurMtl = (s.moves p).sMatName := by
  obtain ⟨part, name⟩ : st.subParts.length = p.part ∧ st.curPart.sName = p.sName := by
    exact ⟨congrArg Place.part place, congrArg Place.sName place⟩
  cases s with
  | f form xs blanks =>
    obtain ⟨still, mtl⟩ := place_inspect st (form.first xs) (form.face xs)
    exact ⟨still, mtl.trans current⟩
  | o new =>
    refine ⟨?_, current⟩
    simp [Statement.load, Statement.opens, Statement.moves, Loading.place, pushPart, part, current]
  | g group =>
    refine ⟨?_, current⟩
    simp [Statement.load, Statement.opens, Statement.moves, Loading.place, pushSubset, lastPart, part, name, current]
  | usemtl mtl =>
    refine ⟨?_, rfl⟩
    simp [Statement.load, Statement.opens, Statement.moves, Loading.place, pushSubset, lastPart, part, name]
  | _ => exact ⟨rfl, current⟩

end Loading

theorem Statement.moves_of_not_opens {s : Statement} (h : s.opens = false) (p : Place) : s.moves p = p := by
  cases s with
  | o part => cases h
  | usemtl mtl => cases h
  | _ => rfl

theorem Statement.face?_of_opens {s : Statement} (h : s.opens = true) : s.face? = none := by
  cases s with
  | o part => rfl
  | g group => rfl
  | usemtl mtl => rfl
  | _ => cases h

/-- What the importer makes of a text. Its current subset is at `q`, where `p` is the place of the next face. -/
def puts : Place → Place → List Statement → List (Place × MyFace)
  | _, _, [] => []
  | q, p, s :: rest =>
    (s.face?.toList.map fun face => (q, face)) ++ puts (if s.opens then s.moves p else q) (s.moves p) rest

theorem puts_self (p : Place) (stmts : List Statement) : puts p p stmts = placements p stmts := by
  induction stmts generalizing p with
  | nil => rfl
  | cons s rest ih =>
    have next : (if s.opens then s.moves p else p) = s.moves p := by
      cases opens : s.opens with
      | true => exact if_pos rfl
      | false => exact (if_neg Bool.false_ne_true).trans (Statement.moves_of_not_opens opens p).symm
    rw [puts, placements, next, ih]

/-- A current subset that has another material is noticed by the faces before the next subset is opened. -/
theorem puts_eq_iff {q p : Place} (other : q ≠ p) (stmts : List Statement) :
    puts q p stmts = placements p stmts ↔ ∀ s ∈ stmts.takeWhile (fun s => !s.opens), s.face? = none := by
  induction stmts with
  | nil => simp [puts, placements]
  | cons s rest ih =>
    rw [puts, placements, List.takeWhile_cons]
    cases opens : s.opens with
    | true =>
      rw [if_pos rfl, puts_self, Statement.face?_of_opens opens]
      simp
    | false =>
      rw [if_neg Bool.false_ne_true, Statement.moves_of_not_opens opens, Bool.not_false, if_pos rfl,
        List.forall_mem_cons]
      cases face : s.face? with
      | none =>
        refine Iff.trans ?_ (ih.trans (and_iff_right rfl).symm)
        rfl
      | some face =>
        constructor
        · intro same
          exact absurd (congrArg Prod.fst (List.head_eq_of_cons_eq same)) other
        · intro h
          cases h.1

section Text
variable {floats : Floats} {eol : Chars}

theorem placed_step (floats : Floats) (eol : Chars) (s : Statement) (rest : List Statement) {st : Loading}
    {p : Place} (sMatName : Chars)
    (place : st.place = { p with sMatName := sMatName }) (current : st.sCurMtl = p.sMatName) :
    (s.load floats eol st).obj.placed ++ puts (s.load floats eol st).place (s.moves p) rest =
      st.obj.placed ++ puts st.place p (s :: rest) := by
  obtain ⟨next, -⟩ := Loading.place_load floats eol s sMatName place current
  rw [Loading.placed_load, next, puts, List.append_assoc]

theorem place_step (floats : Floats) (eol : Chars) (s : Statement) {st : Loading} {p : Place} (sMatName : Chars)
    (place : st.place = { p with sMatName := sMatName }) (current : st.sCurMtl = p.sMatName) :
    ∃ sMatName', (s.load floats eol st).place = { s.moves p with sMatName := sMatName' } := by
  obtain ⟨next, -⟩ := Loading.place_load floats eol s sMatName place current
  cases opens : s.opens with
  | true =>
    rw [opens, if_pos rfl] at next
    exact ⟨_, next⟩
  | false =>
    rw [opens, if_neg Bool.false_ne_true] at next
    rw [Statement.moves_of_not_opens opens]
    exact ⟨sMatName, next.trans place⟩

theorem placed_loadAll (stmts : List Statement) {st : Loading} {p : Place} (sMatName : Chars)
    (place : st.place = { p with sMatName := sMatName }) (current : st.sCurMtl = p.sMatName) :
    (loadAll floats eol stmts st).obj.placed = st.obj.placed ++ puts st.place p stmts := by
  induction stmts generalizing st p sMatName with
  | nil => exact (List.append_nil _).symm
  | cons s rest ih =>
    cases rest with
    | nil =>
      rw [← placed_step floats eol s [] sMatName place current]
      exact (List.append_nil _).symm
    | cons s' rest =>
      obtain ⟨sMatName', place'⟩ := place_step floats [newline] s sMatName place current
      obtain ⟨-, current'⟩ := Loading.place_load floats [newline] s sMatName place current
      rw [loadAll, ih sMatName' place' current']
      exact placed_step floats [newline] s (s' :: rest) sMatName place current

end Text

/-- Where the faces come before all other statements. -/
def startPlace : Place := ⟨0, chars "All", defaultMtrl⟩

/-- All faces are found in the order of the file, each in the part and with the material of the last statements
before it, when no face comes before all statements that open a subset. -/
theorem faces_placed_iff (floats : Floats) (stack : Nat → UInt8) {eol : Chars} (ending : eol = [] ∨ eol = [newline])
    {stmts : List Statement} (wf : ∀ s ∈ stmts, s.WellFormed) :
    (loadText floats stack (textOf eol stmts)).map (fun st => st.obj.placed) = some (placements startPlace stmts) ↔
      ∀ s ∈ stmts.takeWhile (fun s => !s.opens), s.face? = none := by
  obtain ⟨buffer, loaded⟩ := loadText_textOf floats stack ending wf
  have other : (Loading.initial []).place ≠ startPlace := by decide
  have placed : (loadAll floats eol stmts (.initial [])).obj.placed =
      puts (Loading.initial []).place startPlace stmts :=
    placed_loadAll stmts [] rfl rfl
  rw [loaded, Option.map_some, ← puts_eq_iff other stmts, ← placed]
  exact Option.some_inj

namespace Placed

def floats : Floats := ⟨fun _ => [], fun _ => ⟨0⟩, id, id⟩

def one : Number := .one

def face : Statement := .f .v [⟨one, one, one⟩] 0

def red : Statement := .usemtl .red

theorem wellFormed {s : Statement} (member : s ∈ [red, face]) : s.WellFormed := by
  rcases List.mem_pair.mp member with rfl | rfl
  · exact ⟨by decide, by decide, by decide, nofun, nofun⟩
  · refine ⟨by decide, by decide, by decide, ?_, nofun⟩
    rintro _ _ _ ⟨⟩
    decide

/-- The text `usemtl red` and `f 1`. -/
theorem face_red : (loadText floats (fun _ => 0) (textOf [] [red, face])).map (fun st => st.obj.placed) =
    some (placements startPlace [red, face]) := by
  refine (faces_placed_iff floats (fun _ => 0) (.inl rfl) fun s member => wellFormed member).mpr ?_
  decide

/-- The text `f 1`. -/
theorem face_without_material :
    (∀ s ∈ [face], s.WellFormed) ∧
      (loadText floats (fun _ => 0) (textOf [] [face])).map (fun st => st.obj.placed) ≠
        some (placements startPlace [face]) := by
  have wf : ∀ s ∈ [face], s.WellFormed := by
    intro s member
    exact wellFormed (List.mem_cons_of_mem _ member)
  refine ⟨wf, ?_⟩
  obtain ⟨buffer, loaded⟩ := loadText_textOf floats (fun _ => 0) (.inl (rfl : [] = [])) wf
  have found : (loadAll floats [] [face] (.initial [])).obj.placed ≠ placements startPlace [face] := by decide
  rw [loaded]
  exact fun same => found (Option.some.inj same)

end Placed

end ModelPublish.Obj
