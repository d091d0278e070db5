import ModelPublish.Obj.Canonical
import ModelPublish.Obj.Mesh

/-!
# Import of canonical texts

What `LoadObj2` and `ConvertObjTo3DModel` make of a canonical text: the fans of its faces, part by part and material
by material, with the importer's change of hand.
-/

namespace ModelPublish.Obj
open Text Packed Scan Container

def importText (floats : Floats) (stack : Nat → UInt8) (text : Chars) : Option (List TdModelPart) :=
  (loadText floats stack text).bind fun st => convertParts floats st.obj

/-! ### What is written -/

/-- The number counts entries of a list from 1. -/
def Number.Counts {α : Type} (x : Number) (entries : List α) : Prop :=
  x.negative = false ∧ numeral x.digits ≤ entries.length

/-- The entry that a number leads to. -/
def Number.entry {α : Type} [Inhabited α] (x : Number) (entries : List α) : α :=
  entries.getD (numeral x.digits - 1) default

namespace Values

/-- All indices that are written are positive and in range. -/
structure Covers (values : Values) (form : Form) (x : Vertex) : Prop where
  v : x.v.Counts values.v
  t : form.has.hasTexCoords = true → x.t.Counts values.vt
  n : form.has.hasNormals = true → x.n.Counts values.vn

/-- A vertex with `-x` for `x`, in its normal too, and with `1 - v` for `v`. -/
def vertex (values : Values) (floats : Floats) (form : Form) (x : Vertex) : MeshVertex where
  position := { x.v.entry values.v with x := floats.neg (x.v.entry values.v).x }
  normal :=
    if form.has.hasNormals then some { x.n.entry values.vn with x := floats.neg (x.n.entry values.vn).x } else none
  uv :=
    if form.has.hasTexCoords then
      some { x.t.entry values.vt with v := floats.oneMinus (x.t.entry values.vt).v }
    else none

end Values

namespace Run

def form (run : Run) : Form := (run.faces.head?.map Prod.fst).getD .v

def triCount (run : Run) : Nat := (run.faces.map fun face => face.2.length - 2).sum

def triangles (run : Run) (values : Values) (floats : Floats) : List (MeshVertex × MeshVertex × MeshVertex) :=
  run.faces.flatMap fun face => fanOf (face.2.map (values.vertex floats face.1))

def mesh (run : Run) (values : Values) (floats : Floats) : MeshSubset :=
  ⟨run.mtl, vertexFmt run.form.has, run.triangles values floats⟩

end Run

/-- A part for a block, if it has faces, and a subset for each of its materials that has. -/
def meshes (blocks : List Block) (floats : Floats) : List MeshPart :=
  (blocks.map fun block => MeshPart.mk block.part.name
    ((block.runs.filter fun run => run.faces ≠ []).map fun run => run.mesh (valuesOf blocks) floats)).filter
      fun part => part.subsets ≠ []

/-- One form, at least three vertices in each face, indices in range and buffers of less than 2^31 bytes. -/
structure Run.Canonical (run : Run) (values : Values) : Prop where
  form : ∃ form, (form = .v ∨ form = .vt ∨ form = .vtn) ∧ ∀ face ∈ run.faces, face.1 = form
  polygons : ∀ face ∈ run.faces, 3 ≤ face.2.length
  covers : ∀ face ∈ run.faces, ∀ x ∈ face.2, values.Covers face.1 x
  small : run.triCount * 3 * (getVertexSize (vertexFmt run.form.has)).toNat < 2 ^ 31

structure Canonical (floats : Floats) (blocks : List Block) : Prop extends Loads floats blocks where
  runs : ∀ block ∈ blocks, ∀ run ∈ block.runs, run.Canonical (valuesOf blocks)

/-! ### Faces -/

section Faces
variable {floats : Floats} {values : Values} {form : Form} {x : Vertex} {xs : List Vertex}

theorem toIndex_counts {α : Type} [Inhabited α] {y : Number} {entries : List α} (counts : y.Counts entries) (up : Int) :
    (0 ≤ toIndex up y.value ∧ toIndex up y.value < entries.length) ∧
      entry entries (toIndex up y.value) = y.entry entries := by
  obtain ⟨sign, bound⟩ := counts
  have positive := y.positive
  have value : toIndex up y.value = (numeral y.digits - 1 : Nat) := by
    have unsigned : y.value = (numeral y.digits : Nat) := if_neg (by rw [sign]; decide)
    rw [unsigned, toIndex, if_neg (by omega)]
    omega
  refine ⟨by omega, ?_⟩
  rw [entry, Number.entry, value, Int.toNat_natCast]

theorem inspected_of_covers (covers : values.Covers form x) : form.inspected x = form.has := by
  obtain ⟨-, t, n⟩ := covers
  unfold Form.inspected
  cases coords : form.has.hasTexCoords with
  | true =>
    rw [(t coords).1]
    cases normals : form.has.hasNormals with
    | true =>
      rw [(n normals).1]
      exact congrArg₂ Components.mk coords.symm normals.symm
    | false => exact congrArg₂ Components.mk coords.symm normals.symm
  | false =>
    cases normals : form.has.hasNormals with
    | true =>
      rw [(n normals).1]
      exact congrArg₂ Components.mk coords.symm normals.symm
    | false => exact congrArg₂ Components.mk coords.symm normals.symm

theorem face_of_covers (some_vertex : xs ≠ []) (covers : ∀ x ∈ xs, values.Covers form x) :
    form.first xs = some form.has ∧ form.face xs = .ofCorners (xs.map (form.corner form.has)) := by
  have positive : ∀ x ∈ xs, (!x.v.negative) = true := by
    intro x member
    rw [(covers x member).v.1]
    rfl
  have first : form.first xs = some form.has := by
    obtain ⟨x, rest, rfl⟩ := List.exists_cons_of_ne_nil some_vertex
    have found : (x :: rest).find? (fun x => !x.v.negative) = some x :=
      List.find?_cons_of_pos (positive x List.mem_cons_self)
    rw [Form.first, found, Option.map_some, inspected_of_covers (covers x List.mem_cons_self)]
  refine ⟨first, ?_⟩
  rw [Form.face, first, List.countP_eq_length.mpr positive, List.take_length]
  rfl

/-- What is loaded of the values that are written. -/
structure Holds (obj : MyObj) (values : Values) (floats : Floats) : Prop where
  vertices : obj.vertices = values.v
  normals : obj.normals = values.vn
  uvs : obj.uvs = values.vt.map fun uv => ⟨uv.u, floats.oneMinus uv.v⟩

variable {obj : MyObj}

theorem corner_vertex (holds : Holds obj values floats) (other : form ≠ .vn) {i : Nat} (inside : i < xs.length)
    (covers : values.Covers form xs[i]) :
    CornerInRange obj form.has (.ofCorners (xs.map (form.corner form.has))) i ∧
      cornerAt floats obj form.has (.ofCorners (xs.map (form.corner form.has))) i =
        values.vertex floats form xs[i] := by
  have corner : (xs.map (form.corner form.has))[i]? = some (form.corner form.has xs[i]) := by
    rw [List.getElem?_map, List.getElem?_eq_getElem inside, Option.map_some]
  have vertIndex : toIndex 1 xs[i].v.value ∈ (MyFace.ofCorners (xs.map (form.corner form.has))).vertIndex[i]? := by
    show ((xs.map (form.corner form.has)).map Corner.vertIndex)[i]? = _
    rw [List.getElem?_map, corner]
    rfl
  have normalIndex : form.has.hasNormals = true →
      toIndex 2 xs[i].n.value ∈ (MyFace.ofCorners (xs.map (form.corner form.has))).normalIndex[i]? := by
    intro normals
    show ((xs.map (form.corner form.has)).map Corner.normalIndex)[i]? = _
    rw [List.getElem?_map, corner, Option.map_some]
    unfold Form.corner
    rw [normals, if_pos rfl, if_neg other]
  have uvIndex : form.has.hasTexCoords = true →
      toIndex 2 xs[i].t.value ∈ (MyFace.ofCorners (xs.map (form.corner form.has))).uvIndex[i]? := by
    intro coords
    show ((xs.map (form.corner form.has)).map Corner.uvIndex)[i]? = _
    rw [List.getElem?_map, corner, Option.map_some]
    unfold Form.corner
    rw [coords, if_pos rfl]
  obtain ⟨position, position_eq⟩ := toIndex_counts covers.v 1
  constructor
  · constructor
    · refine ⟨_, vertIndex, ?_⟩
      rw [holds.vertices]
      exact position
    · intro normals
      refine ⟨_, normalIndex normals, ?_⟩
      rw [holds.normals]
      exact (toIndex_counts (covers.n normals) 2).1
    · intro coords
      refine ⟨_, uvIndex coords, ?_⟩
      rw [holds.uvs, List.length_map]
      exact (toIndex_counts (covers.t coords) 2).1
  · unfold cornerAt Values.vertex
    rw [getD_of_mem vertIndex, holds.vertices, position_eq, mirror]
    congr 1
    · split
      · rename_i normals
        rw [getD_of_mem (normalIndex normals), holds.normals, (toIndex_counts (covers.n normals) 2).2]
        rfl
      · rfl
    · split
      · rename_i coords
        obtain ⟨inRange, found⟩ := toIndex_counts (covers.t coords) 2
        rw [getD_of_mem (uvIndex coords), holds.uvs, ← found, entry, entry, List.getD_eq_getElem?_getD,
          List.getD_eq_getElem?_getD, List.getElem?_map, List.getElem?_eq_getElem (by omega)]
        rfl
      · rfl

end Faces

/-! ### Runs -/

section Runs

theorem addAll_eq (subset : MyDrawBatch) (faces : List (Form × List Vertex)) :
    (subset.addAll faces).sMatName = subset.sMatName ∧
      (subset.addAll faces).faces = subset.faces ++ faces.map fun face => face.1.face face.2 := by
  induction faces generalizing subset with
  | nil => exact ⟨rfl, (List.append_nil _).symm⟩
  | cons face faces ih =>
    obtain ⟨name, rest⟩ := ih (subset.add face)
    refine ⟨name, rest.trans ?_⟩
    rw [MyDrawBatch.add, List.append_assoc]
    rfl

theorem addAll_has {has : Components} (subset : MyDrawBatch) {faces : List (Form × List Vertex)}
    (some_face : faces ≠ [])
    (all : ∀ face ∈ faces, face.1.first face.2 = some has) : (subset.addAll faces).has = has := by
  induction faces generalizing subset with
  | nil => exact absurd rfl some_face
  | cons face faces ih =>
    cases faces with
    | nil =>
      show (subset.add face).has = has
      unfold MyDrawBatch.add MyDrawBatch.has
      rw [all face List.mem_cons_self]
      rfl
    | cons face' faces =>
      exact ih _ (List.cons_ne_nil _ _) fun other member => all other (List.mem_cons_of_mem _ member)

variable {floats : Floats} {values : Values} {obj : MyObj} {run : Run}

theorem Run.Canonical.oneForm (canonical : run.Canonical values) (some_face : run.faces ≠ []) :
    run.form ≠ .vn ∧ ∀ face ∈ run.faces, face.1 = run.form := by
  obtain ⟨form, plain, all⟩ := canonical.form
  have same : run.form = form := by
    obtain ⟨face, rest, faces⟩ := List.exists_cons_of_ne_nil some_face
    rw [Run.form, faces]
    exact all face (faces ▸ List.mem_cons_self)
  refine ⟨?_, fun face member => (all face member).trans same.symm⟩
  rw [same]
  rcases plain with rfl | rfl | rfl <;> decide

theorem Run.Canonical.batch (canonical : run.Canonical values) (some_face : run.faces ≠ []) :
    run.batch.sMatName = run.mtl ∧ run.batch.has = run.form.has ∧
      run.batch.faces = run.faces.map (fun face => run.form.face face.2) ∧
        ∀ face ∈ run.faces, face.2 ≠ [] := by
  obtain ⟨-, all⟩ := canonical.oneForm some_face
  obtain ⟨name, faces⟩ := addAll_eq { sMatName := run.mtl } run.faces
  have some_vertex : ∀ face ∈ run.faces, face.2 ≠ [] := by
    intro face member none
    have long := canonical.polygons face member
    rw [none] at long
    exact absurd long (by decide)
  refine ⟨name, addAll_has _ some_face ?_, faces.trans ?_, some_vertex⟩
  · intro face member
    have covers := canonical.covers face member
    rw [all face member] at covers ⊢
    exact (face_of_covers (some_vertex face member) covers).1
  · refine (List.nil_append _).trans (List.map_congr_left fun face member => ?_)
    rw [all face member]

theorem Run.Canonical.isMesh (holds : Holds obj values floats) (canonical : run.Canonical values)
    (some_face : run.faces ≠ []) :
    run.batch.IsMesh obj ∧ batchMesh floats obj run.batch = run.mesh values floats := by
  obtain ⟨other, all⟩ := canonical.oneForm some_face
  obtain ⟨name, has, faces, some_vertex⟩ := canonical.batch some_face
  have corners : ∀ face ∈ run.faces,
      run.form.face face.2 = .ofCorners (face.2.map (run.form.corner run.form.has)) ∧
      ∀ (i : Nat) (inside : i < face.2.length),
        CornerInRange obj run.form.has (run.form.face face.2) i ∧
          cornerAt floats obj run.form.has (run.form.face face.2) i = values.vertex floats run.form face.2[i] := by
    intro face member
    have covers := canonical.covers face member
    rw [all face member] at covers
    have read := (face_of_covers (some_vertex face member) covers).2
    refine ⟨read, fun i inside => ?_⟩
    rw [read]
    exact corner_vertex holds other inside (covers _ (List.getElem_mem inside))
  have vertCount : ∀ face ∈ run.faces, (run.form.face face.2).vertIndex.length = face.2.length := by
    intro face member
    rw [(corners face member).1]
    simp [MyFace.ofCorners]
  have count : fanCount run.batch.faces = run.triCount := by
    rw [faces, fanCount, List.map_map, Run.triCount]
    refine congrArg List.sum (List.map_congr_left fun face member => ?_)
    show (run.form.face face.2).vertIndex.length - 2 = _
    rw [vertCount face member]
  constructor
  · constructor
    · intro face' member'
      rw [faces] at member'
      obtain ⟨face, member, rfl⟩ := List.mem_map.mp member'
      rw [has]
      refine ⟨?_, fun i inside => ?_⟩
      · rw [vertCount face member]
        exact canonical.polygons face member
      · rw [vertCount face member] at inside
        exact ((corners face member).2 i inside).1
    · rw [count, has]
      exact Nat.lt_trans canonical.small (by decide)
  · rw [batchMesh, Run.mesh, Run.triangles, name, has, faces, List.flatMap_map]
    refine congrArg (MeshSubset.mk run.mtl _) (List.flatMap_congr fun face member => ?_)
    have same : polygon floats obj run.form.has (run.form.face face.2) =
        face.2.map (values.vertex floats face.1) := by
      rw [polygon, vertCount face member, all face member]
      apply List.ext_getElem
      · rw [List.length_map, List.length_map, List.length_range]
      · intro i left right
        rw [List.length_map] at right
        rw [List.getElem_map, List.getElem_map, List.getElem_range]
        exact ((corners face member).2 i right).2
    rw [same]

theorem convertSubset_run (holds : Holds obj values floats) (canonical : run.Canonical values)
    (some_face : run.faces ≠ []) :
    ∃ s, convertSubset floats obj run.batch = some s ∧
      MeshSubset.mk s.sMatName s.uiVertexFmt s.triangles = run.mesh values floats := by
  obtain ⟨mesh, same⟩ := canonical.isMesh holds some_face
  obtain ⟨s, converted, -, image⟩ := convertSubset_fans floats mesh
  exact ⟨s, converted, image.trans same⟩

end Runs

section Text
variable {floats : Floats} {obj : MyObj} {blocks : List Block}

theorem convertPart_live (floats : Floats) (obj : MyObj) (part : MyObjPart) :
    convertPart floats obj part = convertPart floats obj part.live := by
  unfold convertPart MyObjPart.live
  rw [List.filter_filter]
  simp only [Bool.and_self]

theorem convertPart_kept {sName : Chars} {subSets : List MyDrawBatch} {subsets : List TdModelSubset}
    (kept : ∀ subset ∈ subSets, subset.faces ≠ [])
    (converted : subSets.mapM (convertSubset floats obj) = some subsets) :
    convertPart floats obj ⟨sName, subSets⟩ = some ⟨sName, subsets⟩ := by
  have all : (subSets.filter fun subset => subset.faces ≠ []) = subSets :=
    List.filter_eq_self.mpr fun subset member => decide_eq_true (kept subset member)
  unfold convertPart
  dsimp only
  rw [all, converted]
  rfl

theorem batch_faces (run : Run) : run.batch.faces = [] ↔ run.faces = [] := by
  rw [Run.batch, (addAll_eq _ _).2, List.nil_append, List.map_eq_nil_iff]

theorem live_block (block : Block) :
    block.live = ⟨block.part.name, (block.runs.filter fun run => run.faces ≠ []).map Run.batch⟩ := by
  unfold Block.live
  rw [List.filter_map]
  refine congrArg (fun subsets => MyObjPart.mk block.part.name (List.map Run.batch subsets)) ?_
  apply List.filter_congr
  intro run _
  simp [batch_faces]

theorem convertPart_block (holds : Holds obj (valuesOf blocks) floats) (canonical : Canonical floats blocks)
    {block : Block} (member : block ∈ blocks) :
    ∃ part, convertPart floats obj block.live = some part ∧
      meshOf part = ⟨block.part.name,
        (block.runs.filter fun run => run.faces ≠ []).map fun run => run.mesh (valuesOf blocks) floats⟩ := by
  have each : ∀ run ∈ block.runs.filter fun run => run.faces ≠ [], ∃ s, convertSubset floats obj run.batch = some s ∧
      MeshSubset.mk s.sMatName s.uiVertexFmt s.triangles = run.mesh (valuesOf blocks) floats := by
    intro run among
    obtain ⟨inside, some_face⟩ := List.mem_filter.mp among
    exact convertSubset_run holds (canonical.runs block member run inside) (of_decide_eq_true some_face)
  obtain ⟨subsets, converted, meshes⟩ := mapM_image each
  refine ⟨⟨block.part.name, subsets⟩, ?_, congrArg (MeshPart.mk _) meshes⟩
  rw [live_block]
  apply convertPart_kept
  · intro subset among none
    obtain ⟨run, inside, rfl⟩ := List.mem_map.mp among
    exact of_decide_eq_true (List.mem_filter.mp inside).2 ((batch_faces run).mp none)
  · rw [List.mapM_map]
    exact converted

theorem convertParts_blocks (holds : Holds obj (valuesOf blocks) floats) (canonical : Canonical floats blocks)
    (parts : obj.subParts.map MyObjPart.live = ⟨chars "All", []⟩ :: blocks.map Block.live) :
    (convertParts floats obj).map (List.map meshOf) = some (meshes blocks floats) := by
  obtain ⟨converted, walked, images⟩ := mapM_image fun block : Block => convertPart_block holds canonical
  have all : obj.subParts.mapM (convertPart floats obj) = some (⟨chars "All", []⟩ :: converted) := by
    have live : convertPart floats obj = fun part => convertPart floats obj part.live :=
      funext (convertPart_live floats obj)
    have moved := List.mapM_map (f := MyObjPart.live) (g := convertPart floats obj) (l := obj.subParts)
    rw [parts, List.mapM_cons, List.mapM_map] at moved
    rw [live, ← Function.comp_def, ← moved]
    show (do
      let first ← some (TdModelPart.mk (chars "All") [])
      let rest ← List.mapM (fun block : Block => convertPart floats obj block.live) blocks
      pure (first :: rest)) = _
    rw [walked]
    rfl
  have kept : (converted.filter fun part => part.Subsets ≠ []).map meshOf = meshes blocks floats := by
    rw [meshes, ← images, List.filter_map]
    refine congrArg (List.map meshOf) (List.filter_congr fun part _ => ?_)
    simp [meshOf]
  rw [convertParts, all]
  exact congrArg some kept

/-- A canonical text is imported as the fans of its faces, in order, with the names and components that are
written. -/
theorem importText_canonical (stack : Nat → UInt8) (canonical : Canonical floats blocks) :
    (importText floats stack (canonicalText blocks)).map (List.map meshOf) = some (meshes blocks floats) := by
  obtain ⟨obj, loaded, parts, vertices, normals, uvs⟩ := loadText_canonical stack canonical.toLoads
  obtain ⟨st, read, rfl⟩ := Option.map_eq_some_iff.mp loaded
  rw [importText, read]
  exact convertParts_blocks ⟨vertices, normals, uvs⟩ canonical parts

end Text

namespace Triangle

def f0 : F32 := ⟨0⟩
def f1 : F32 := ⟨0x3F800000⟩

def floats : Floats where
  sscanf s := s.filterMap fun c => if c = 48 then some f0 else if c = 49 then some f1 else none
  stale _ := f0
  oneMinus f := if f = f0 then f1 else f0
  neg f := ⟨f.bits ^^^ 0x80000000⟩

def number (s : String) (decimal : (chars s).all isDigit = true) (positive : 0 < numeral (chars s))
    (small : numeral (chars s) < 2 ^ 31) : Number :=
  ⟨false, chars s, decimal, positive, fun _ => small⟩

def one : Number := .one
def two : Number := number "2" rfl (by decide) (by decide)
def three : Number := number "3" rfl (by decide) (by decide)

def name (s : String) (some_char : chars s ≠ []) (solid : (chars s).all (fun c => !isSpace c) = true)
    (short : (chars s).length < maxPath) : Named :=
  { Named.red with name := chars s, some_char, solid, short }

def block : Block where
  part := name "a" (by decide) rfl (by decide)
  items := [.v (chars "0 0 0") ⟨f0, f0, f0⟩, .v (chars "1 0 0") ⟨f1, f0, f0⟩, .v (chars "0 1 0") ⟨f0, f1, f0⟩,
    .vt (chars "0 1") ⟨f0, f1⟩, .usemtl .red,
    .f .vt [⟨one, one, one⟩, ⟨two, one, one⟩, ⟨three, one, one⟩]]

def plain : Statement → Bool
  | .f _ xs _ => decide (xs ≠ [])
  | .other _ => false
  | _ => true

theorem wellFormed : ∀ s ∈ statementsOf [block], s.WellFormed := by
  have all : (statementsOf [block]).all (fun s => plain s &&
      decide (newline ∉ s.line ∧ 0 ∉ s.line ∧ s.line.length + 1 < lineBuffSize)) = true := by decide
  intro s member
  obtain ⟨kind, line⟩ := Bool.and_eq_true _ _ ▸ List.all_eq_true.mp all s member
  obtain ⟨newline, noNul, short⟩ := of_decide_eq_true line
  refine ⟨newline, noNul, short, ?_, ?_⟩
  · rintro form xs blanks rfl
    exact of_decide_eq_true kind
  · rintro line rfl
    cases kind

theorem covers (x : Vertex) (member : x ∈ [⟨one, one, one⟩, ⟨two, one, one⟩, (⟨three, one, one⟩ : Vertex)]) :
    (valuesOf [block]).Covers .vt x := by
  simp only [List.mem_cons, List.not_mem_nil, or_false] at member
  rcases member with rfl | rfl | rfl
  all_goals exact ⟨⟨rfl, by decide⟩, fun _ => ⟨rfl, by decide⟩, nofun⟩

theorem canonical : Canonical floats [block] := by
  refine ⟨⟨wellFormed, ?_, ?_⟩, ?_⟩
  · simp only [itemsOf, block, List.flatMap_cons, List.flatMap_nil, List.append_nil, List.forall_mem_cons]
    exact ⟨rfl, rfl, rfl, ⟨[], rfl⟩, trivial, trivial, nofun⟩
  · intro block member
    cases List.mem_singleton.mp member
    rfl
  · intro block member run among
    cases List.mem_singleton.mp member
    cases List.mem_singleton.mp among
    refine ⟨⟨.vt, .inr (.inl rfl), ?_⟩, ?_, ?_, by decide⟩
    · intro face inside
      cases List.mem_singleton.mp inside
      rfl
    · intro face inside
      cases List.mem_singleton.mp inside
      decide
    · intro face inside
      cases List.mem_singleton.mp inside
      exact covers

/-- Three points and one texture coordinate: `-1` for 1, and `-0` for 0, in the first place of each point. -/
theorem imported : (importText floats (fun _ => 0) (canonicalText [block])).map (List.map meshOf) =
    some [⟨chars "a", [⟨chars "red", 5, [
      (⟨⟨⟨0x80000000⟩, f0, f0⟩, none, some ⟨f0, f0⟩⟩, ⟨⟨⟨0xBF800000⟩, f0, f0⟩, none, some ⟨f0, f0⟩⟩,
        ⟨⟨⟨0x80000000⟩, f1, f0⟩, none, some ⟨f0, f0⟩⟩)]⟩]⟩] :=
  importText_canonical (fun _ => 0) canonical

end Triangle

end ModelPublish.Obj
