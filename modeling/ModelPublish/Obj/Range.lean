import ModelPublish.Obj.Convert
import ModelPublish.Obj.Statements

/-!
# Indices in range

When all indices of a loaded text are in range, for any text: the flags of a subset are those of its last face
statement, and neither function compares an index with the number of entries.
-/

namespace ModelPublish.Obj
open Text Packed Scan Container

/-- What a line is to the loader. -/
inductive Kind where
  | v
  | vn
  | vt
  | f
  /-- `o`, `g` and `usemtl`. -/
  | opens
  | other
  deriving DecidableEq

def kind (buffer : Chars) : Kind :=
  if startsWith "v " buffer then .v
  else if startsWith "vn " buffer then .vn
  else if startsWith "vt " buffer then .vt
  else if startsWith "f " buffer then .f
  else if startsWith "o " buffer then .opens
  else if startsWith "g " buffer then .opens
  else if startsWithAnyCase "usemtl " buffer then .opens
  else .other

/-- What lies in the buffer after each line that is read. -/
def buffers : Chars → List Chars → List Chars
  | _, [] => []
  | buffer, line :: read => overlay buffer (line ++ [0]) :: buffers (overlay buffer (line ++ [0])) read

/-- The face statements before the first line that opens a subset, and those of each of these. -/
def faceRuns : List Chars → List Chars × List (List Chars)
  | [] => ([], [])
  | b :: bs =>
    match kind b with
    | .f => (b :: (faceRuns bs).1, (faceRuns bs).2)
    | .opens => ([], (faceRuns bs).1 :: (faceRuns bs).2)
    | _ => faceRuns bs

/-- The components that the first vertex of a face statement has, if there is one. -/
def componentsOf (buffer : Chars) : Option Components := (inspectFaceLine buffer).2

/-- Where the numbers of a face statement are read. -/
def vertexPointers (buffer : Chars) : Option (List Pointers) :=
  rounds ((componentsOf buffer).getD ⟨false, false⟩) (inspectFaceLine buffer).1 buffer

/-- Numbers that lead to one of `count` entries. The loader takes -1 for the first one. -/
def Leads (count : Nat) (n : Int) : Prop := 1 ≤ n ∧ n ≤ count ∨ n = -1 ∧ 0 < count

/-- How many entries a text has. -/
structure Entries where
  v : Nat
  vn : Nat
  vt : Nat

def entriesOf (bs : List Chars) : Entries :=
  ⟨bs.countP (kind · = .v), bs.countP (kind · = .vn), bs.countP (kind · = .vt)⟩

/-- The numbers of one face statement. -/
structure LineInRange (entries : Entries) (flags has : Components) (b : Chars) : Prop where
  coords : flags.hasTexCoords = true → has.hasTexCoords = true
  normals : flags.hasNormals = true → has.hasNormals = true
  numbers : ∀ ps ∈ vertexPointers b, ∀ p ∈ ps,
    (∃ n ∈ atoi p.v, 1 ≤ n ∧ n ≤ entries.v) ∧
      (flags.hasTexCoords = true → ∃ n ∈ atoi p.t, Leads entries.vt n) ∧
      (flags.hasNormals = true → ∃ n ∈ atoi p.n, Leads entries.vn n)

/-- The flags that the face statements of a run leave behind. -/
def runFlags (run : List Chars) : Option Components := (run.filterMap componentsOf).getLast?

/-- All face statements of a run have at least the components of the last one with a vertex, and all their numbers
for these, and for positions, lead to an entry. -/
def RunInRange (entries : Entries) (run : List Chars) : Prop :=
  ∀ b ∈ run, ∀ has ∈ componentsOf b, LineInRange entries ((runFlags run).getD ⟨false, false⟩) has b

/-- An index of a vector with `count` entries. -/
def Index (count : Nat) (i : Int) : Prop := 0 ≤ i ∧ i < count

instance (count : Nat) (i : Int) : Decidable (Index count i) := inferInstanceAs (Decidable (_ ∧ _))

/-- All indices of a subset, as far as its flags say that there are any. -/
structure MyDrawBatch.InRange (obj : MyObj) (subset : MyDrawBatch) : Prop where
  vertIndex : ∀ face ∈ subset.faces, ∀ i ∈ face.vertIndex, Index obj.vertices.length i
  normalIndex : subset.bHasNormal = some true →
    ∀ face ∈ subset.faces, ∀ i ∈ face.normalIndex, Index obj.normals.length i
  uvIndex : subset.bHasUv = some true → ∀ face ∈ subset.faces, ∀ i ∈ face.uvIndex, Index obj.uvs.length i

def MyObj.subsets (obj : MyObj) : List MyDrawBatch := obj.subParts.flatMap MyObjPart.subSets

def MyObj.InRange (obj : MyObj) : Prop := ∀ subset ∈ obj.subsets, subset.InRange obj

/-- Every access that the converter makes finds an entry. -/
def MyObj.Accessible (floats : Floats) (obj : MyObj) : Prop :=
  ∀ subset ∈ obj.subsets, ∀ face ∈ subset.faces, ∀ i ∈ fanPlaces face.vertIndex.length,
    (convertVertex floats obj subset.has face i).isSome

/-! ### One face -/

section Face
variable {b : Chars} {face : MyFace} {has : Components}

/-- The face that is read of a line. -/
def faceOf (buffer : Chars) : Option MyFace :=
  (readCorners ((componentsOf buffer).getD ⟨false, false⟩) (inspectFaceLine buffer).1 buffer).map .ofCorners

theorem count_of_none (none : componentsOf b = none) : (inspectFaceLine b).1 = 0 := by
  rw [componentsOf, inspectFaceLine_eq, Option.map_eq_none_iff, List.head?_eq_none_iff] at none
  rw [inspectFaceLine_eq, none]
  rfl

theorem count_of_some (some_vertex : componentsOf b = some has) : 0 < (inspectFaceLine b).1 := by
  rw [componentsOf, inspectFaceLine_eq] at some_vertex
  obtain ⟨w, head, -⟩ := Option.map_eq_some_iff.mp some_vertex
  rw [inspectFaceLine_eq]
  exact List.length_pos_of_mem (List.mem_of_head? head)

theorem Loading.readFace_faceOf (st : Loading) : st.readFace =
    (faceOf st.buffer).map fun face => (st.inspect (componentsOf st.buffer)).pushFace face := by
  have same : ∀ has, readCorners ((componentsOf st.buffer).getD has) (inspectFaceLine st.buffer).1 st.buffer =
      readCorners ((componentsOf st.buffer).getD ⟨false, false⟩) (inspectFaceLine st.buffer).1 st.buffer := by
    intro has
    cases first : componentsOf st.buffer with
    | none =>
      rw [count_of_none first]
      rfl
    | some has => rfl
  rw [readFace_eq, show (inspectFaceLine st.buffer).2 = componentsOf st.buffer from rfl, same, faceOf, Option.map_map]
  rfl

theorem length_rounds {has : Components} {n : Nat} {s : Chars} {ps : List Pointers} (h : rounds has n s = some ps) :
    ps.length = n := by
  induction n generalizing s ps with
  | zero =>
    cases h
    rfl
  | succ n ih =>
    rw [rounds, Option.bind_eq_bind, Option.bind_eq_some_iff] at h
    obtain ⟨p, -, h⟩ := h
    obtain ⟨rest, walked, h⟩ := Option.bind_eq_some_iff.mp h
    cases h
    exact congrArg Nat.succ (ih walked)

theorem mapM_forall₂ {α β : Type} {f : α → Option β} {xs : List α} {ys : List β} (h : xs.mapM f = some ys) :
    List.Forall₂ (fun x y => f x = some y) xs ys := by
  induction xs generalizing ys with
  | nil =>
    cases h
    exact .nil
  | cons x xs ih =>
    rw [List.mapM_cons, Option.bind_eq_bind, Option.bind_eq_some_iff] at h
    obtain ⟨y, first, h⟩ := h
    obtain ⟨rest, walked, h⟩ := Option.bind_eq_some_iff.mp h
    cases h
    exact .cons first (ih walked)

theorem faceOf_some (read : faceOf b = some face) (some_vertex : componentsOf b = some has) :
    ∃ ps corners, vertexPointers b = some ps ∧ ps ≠ [] ∧ face = .ofCorners corners ∧
      List.Forall₂ (fun (p : Pointers) c => p.read has = some c) ps corners := by
  obtain ⟨corners, found, rfl⟩ := Option.map_eq_some_iff.mp read
  rw [some_vertex, Option.getD_some, readCorners, Option.bind_eq_bind, Option.bind_eq_some_iff] at found
  obtain ⟨ps, walked, found⟩ := found
  refine ⟨ps, corners, ?_, ?_, rfl, mapM_forall₂ found⟩
  · rw [vertexPointers, some_vertex]
    exact walked
  · intro none
    have length := length_rounds walked
    rw [none] at length
    exact absurd (count_of_some some_vertex) (by rw [← length]; exact Nat.lt_irrefl 0)

theorem forall₂_forall_iff {α β : Type} {R : α → β → Prop} {P : α → Prop} {Q : β → Prop} {xs : List α} {ys : List β}
    (related : List.Forall₂ R xs ys) (same : ∀ x y, R x y → (P x ↔ Q y)) : (∀ x ∈ xs, P x) ↔ ∀ y ∈ ys, Q y := by
  induction related with
  | nil => exact iff_of_true nofun nofun
  | cons here _ ih => rw [List.forall_mem_cons, List.forall_mem_cons, same _ _ here, ih]

theorem index_one {count : Nat} (n : Int) : Index count (toIndex 1 n) ↔ 1 ≤ n ∧ n ≤ count := by
  unfold Index toIndex
  split <;> omega

theorem index_two {count : Nat} (n : Int) : Index count (toIndex 2 n) ↔ Leads count n := by
  unfold Index toIndex Leads
  split <;> omega

theorem index_none {count : Nat} : ¬ Index count (-1) := fun h => absurd h.1 (by decide)

theorem index_component {count : Nat} {present : Bool} {s : Chars} {i : Int} (read : readComponent present s = some i) :
    Index count i ↔ present = true ∧ ∃ n ∈ atoi s, Leads count n := by
  unfold readComponent at read
  cases present with
  | false =>
    cases read
    exact iff_of_false index_none fun h => absurd h.1 (by decide)
  | true =>
    obtain ⟨n, number, rfl⟩ := Option.map_eq_some_iff.mp read
    rw [index_two, number]
    simp

theorem corner_index {p : Pointers} {c : Corner} (read : p.read has = some c) (entries : Entries) :
    (Index entries.v c.vertIndex ↔ ∃ n ∈ atoi p.v, 1 ≤ n ∧ n ≤ entries.v) ∧
      (Index entries.vt c.uvIndex ↔ has.hasTexCoords = true ∧ ∃ n ∈ atoi p.t, Leads entries.vt n) ∧
      (Index entries.vn c.normalIndex ↔ has.hasNormals = true ∧ ∃ n ∈ atoi p.n, Leads entries.vn n) := by
  rw [Pointers.read, Option.bind_eq_bind, Option.bind_eq_some_iff] at read
  obtain ⟨v, number, read⟩ := read
  obtain ⟨t, coord, read⟩ := Option.bind_eq_some_iff.mp read
  obtain ⟨n, normal, read⟩ := Option.bind_eq_some_iff.mp read
  cases read
  refine ⟨?_, index_component coord, index_component normal⟩
  rw [index_one, number]
  simp

/-- One face of a subset with the flags `flags`. -/
structure FaceInRange (entries : Entries) (flags : Components) (face : MyFace) : Prop where
  vertIndex : ∀ i ∈ face.vertIndex, Index entries.v i
  uvIndex : flags.hasTexCoords = true → ∀ i ∈ face.uvIndex, Index entries.vt i
  normalIndex : flags.hasNormals = true → ∀ i ∈ face.normalIndex, Index entries.vn i

theorem faceInRange_iff (entries : Entries) (flags : Components) (read : faceOf b = some face) :
    FaceInRange entries flags face ↔ ∀ has ∈ componentsOf b, LineInRange entries flags has b := by
  cases first : componentsOf b with
  | none =>
    have empty : face = .ofCorners [] := by
      rw [faceOf, count_of_none first] at read
      cases read
      rfl
    rw [empty]
    exact iff_of_true ⟨nofun, fun _ => nofun, fun _ => nofun⟩ nofun
  | some has =>
    obtain ⟨ps, corners, walked, some_pointer, rfl, reads⟩ := faceOf_some read first
    have each := fun p c (here : Pointers.read has p = some c) => corner_index here entries
    have v := forall₂_forall_iff reads fun p c here => (each p c here).1.symm
    have t := forall₂_forall_iff reads fun p c here => (each p c here).2.1.symm
    have n := forall₂_forall_iff reads fun p c here => (each p c here).2.2.symm
    obtain ⟨p₀, inside⟩ := List.exists_mem_of_ne_nil ps some_pointer
    constructor
    · rintro ⟨vertIndex, uvIndex, normalIndex⟩ _ ⟨⟩
      have v' := v.mpr (List.forall_mem_map.mp vertIndex)
      have t' := fun flag => t.mpr (List.forall_mem_map.mp (uvIndex flag))
      have n' := fun flag => n.mpr (List.forall_mem_map.mp (normalIndex flag))
      refine ⟨fun flag => (t' flag p₀ inside).1, fun flag => (n' flag p₀ inside).1, ?_⟩
      intro ps' found p member
      rw [walked] at found
      cases found
      exact ⟨v' p member, fun flag => (t' flag p member).2, fun flag => (n' flag p member).2⟩
    · intro h
      obtain ⟨coords, normals, numbers⟩ := h has rfl
      have all := numbers ps walked
      refine ⟨?_, ?_, ?_⟩
      · exact List.forall_mem_map.mpr (v.mp fun p member => (all p member).1)
      · intro flag
        exact List.forall_mem_map.mpr (t.mp fun p member => ⟨coords flag, (all p member).2.1 flag⟩)
      · intro flag
        exact List.forall_mem_map.mpr (n.mp fun p member => ⟨normals flag, (all p member).2.2 flag⟩)

end Face

/-! ### One subset -/

/-- A subset that is made of a run. -/
structure MadeOf (subset : MyDrawBatch) (run : List Chars) : Prop where
  faces : List.Forall₂ (fun face b => faceOf b = some face) subset.faces run
  bHasUv : subset.bHasUv = (runFlags run).map Components.hasTexCoords
  bHasNormal : subset.bHasNormal = (runFlags run).map Components.hasNormals

theorem MadeOf.inRange_iff {subset : MyDrawBatch} {run : List Chars} (made : MadeOf subset run) (obj : MyObj) :
    subset.InRange obj ↔ RunInRange ⟨obj.vertices.length, obj.normals.length, obj.uvs.length⟩ run := by
  obtain ⟨faces, bHasUv, bHasNormal⟩ := made
  have coords : subset.bHasUv = some true ↔ ((runFlags run).getD ⟨false, false⟩).hasTexCoords = true := by
    rw [bHasUv]
    cases runFlags run <;> simp
  have normals : subset.bHasNormal = some true ↔ ((runFlags run).getD ⟨false, false⟩).hasNormals = true := by
    rw [bHasNormal]
    cases runFlags run <;> simp
  refine Iff.trans ?_ (forall₂_forall_iff faces fun face b read => faceInRange_iff _ _ read)
  constructor
  · rintro ⟨vertIndex, normalIndex, uvIndex⟩ face member
    refine ⟨vertIndex face member, ?_, ?_⟩
    · exact fun flag => uvIndex (coords.mpr flag) face member
    · exact fun flag => normalIndex (normals.mpr flag) face member
  · intro all
    refine ⟨?_, ?_, ?_⟩
    · exact fun face member => (all face member).vertIndex
    · exact fun flag face member => (all face member).normalIndex (normals.mp flag)
    · exact fun flag face member => (all face member).uvIndex (coords.mp flag)

/-! ### All lines -/

namespace Loading
variable {floats : Floats} {st st' : Loading}

/-- All subsets but the current one. -/
def closed (st : Loading) : List MyDrawBatch := st.subParts.flatMap MyObjPart.subSets ++ st.curPart.subSets

theorem subsets_obj (st : Loading) : st.obj.subsets = st.closed ++ [st.curSubset] := by
  unfold MyObj.subsets obj lastPart closed
  rw [List.flatMap_append, List.flatMap_singleton, List.append_assoc]

/-- Another subset becomes the current one. -/
structure Opens (st st' : Loading) : Prop where
  closed : st'.closed = st.closed ++ [st.curSubset]
  empty : MadeOf st'.curSubset []
  buffer : st'.buffer = st.buffer
  vertices : st'.vertices = st.vertices
  normals : st'.normals = st.normals
  uvs : st'.uvs = st.uvs

theorem opens_pushSubset (st : Loading) (sMatName : Chars) : Opens st (st.pushSubset sMatName) := by
  refine ⟨?_, ⟨.nil, rfl, rfl⟩, rfl, rfl, rfl, rfl⟩
  exact (List.append_assoc ..).symm

theorem opens_pushPart (st : Loading) (sName : Chars) : Opens st (st.pushPart sName) := by
  refine ⟨?_, ⟨.nil, rfl, rfl⟩, rfl, rfl, rfl, rfl⟩
  show (st.subParts ++ [st.lastPart]).flatMap MyObjPart.subSets ++ [] = _
  rw [List.append_nil, List.flatMap_append, List.flatMap_singleton, closed, List.append_assoc]
  rfl

/-- What a statement of each kind does. -/
def Does (st : Loading) : Kind → Loading → Prop
  | .v, st' => ∃ value, st' = { st with vertices := st.vertices ++ [value] }
  | .vn, st' => ∃ value, st' = { st with normals := st.normals ++ [value] }
  | .vt, st' => ∃ value, st' = { st with uvs := st.uvs ++ [value] }
  | .f, st' => st.readFace = some st'
  | .opens, st' => Opens st st'
  | .other, st' => ∃ file, st' = { st with sMtrlFilename := file }

theorem kind_eq (buffer : Chars) : kind buffer =
    match keyword buffer with
    | .v => .v
    | .vn => .vn
    | .vt => .vt
    | .f => .f
    | .o | .g | .usemtl => .opens
    | .mtllib | .other => .other := by
  unfold kind keyword
  split_ifs <;> rfl

theorem statement_does (h : st.statement floats = some st') : st.Does (kind st.buffer) st' := by
  rw [statement_eq] at h
  rw [kind_eq]
  generalize keyword st.buffer = word at h ⊢
  cases word with
  | v =>
    cases h
    exact ⟨_, rfl⟩
  | vn =>
    cases h
    exact ⟨_, rfl⟩
  | vt =>
    cases h
    exact ⟨_, rfl⟩
  | f => exact h
  | o =>
    obtain ⟨name, -, rfl⟩ := Option.map_eq_some_iff.mp h
    exact opens_pushPart st name
  | g =>
    obtain ⟨-, pushed⟩ := Option.ite_none_right_eq_some.mp h
    cases pushed
    exact opens_pushSubset st _
  | usemtl =>
    obtain ⟨name, -, rfl⟩ := Option.map_eq_some_iff.mp h
    obtain ⟨closed, empty, buffer, vertices, normals, uvs⟩ := opens_pushSubset { st with sCurMtl := name } name
    exact ⟨closed, empty, buffer, vertices, normals, uvs⟩
  | mtllib =>
    obtain ⟨file, -, rfl⟩ := Option.map_eq_some_iff.mp h
    exact ⟨file, rfl⟩
  | other =>
    cases h
    exact ⟨st.sMtrlFilename, rfl⟩

end Loading

theorem MadeOf.push (st : Loading) {run : List Chars} (made : MadeOf st.curSubset run) {face : MyFace} {b : Chars}
    (read : faceOf b = some face) : MadeOf ((st.inspect (componentsOf b)).pushFace face).curSubset (run ++ [b]) := by
  obtain ⟨faces, bHasUv, bHasNormal⟩ := made
  have flags : runFlags (run ++ [b]) = (componentsOf b).or (runFlags run) := by
    unfold runFlags
    rw [List.filterMap_append, List.getLast?_append]
    cases first : componentsOf b <;> simp [first]
  have more : List.Forall₂ (fun face b => faceOf b = some face) (st.curSubset.faces ++ [face]) (run ++ [b]) :=
    List.rel_append faces (.cons read .nil)
  rw [← Loading.pushFace_faces st (componentsOf b) face] at more
  refine ⟨more, ?_, ?_⟩
  · rw [flags]
    cases first : componentsOf b with
    | none => exact bHasUv
    | some has => rfl
  · rw [flags]
    cases first : componentsOf b with
    | none => exact bHasNormal
    | some has => rfl

theorem faceRuns_entry {b : Chars} (bs : List Chars) (face : kind b ≠ .f) (opens : kind b ≠ .opens) :
    faceRuns (b :: bs) = faceRuns bs := by
  rw [faceRuns]
  cases what : kind b
  case f => exact absurd what face
  case opens => exact absurd what opens
  all_goals rfl

theorem faceRuns_face {b : Chars} (bs : List Chars) (what : kind b = .f) :
    faceRuns (b :: bs) = (b :: (faceRuns bs).1, (faceRuns bs).2) := by
  rw [faceRuns, what]

theorem faceRuns_opens {b : Chars} (bs : List Chars) (what : kind b = .opens) :
    faceRuns (b :: bs) = ([], (faceRuns bs).1 :: (faceRuns bs).2) := by
  rw [faceRuns, what]

theorem entriesOf_cons (b : Chars) (bs : List Chars) : entriesOf (b :: bs) =
    ⟨(if kind b = .v then 1 else 0) + (entriesOf bs).v, (if kind b = .vn then 1 else 0) + (entriesOf bs).vn,
      (if kind b = .vt then 1 else 0) + (entriesOf bs).vt⟩ := by
  simp only [entriesOf, List.countP_cons, decide_eq_true_eq, Nat.add_comm]

theorem does_entries {st next : Loading} {what : Kind} (does : st.Does what next) :
    next.buffer = st.buffer ∧ next.vertices.length = st.vertices.length + (if what = .v then 1 else 0) ∧
      next.normals.length = st.normals.length + (if what = .vn then 1 else 0) ∧
        next.uvs.length = st.uvs.length + (if what = .vt then 1 else 0) := by
  cases what with
  | v =>
    obtain ⟨value, rfl⟩ := does
    exact ⟨rfl, List.length_append, rfl, rfl⟩
  | vn =>
    obtain ⟨value, rfl⟩ := does
    exact ⟨rfl, rfl, List.length_append, rfl⟩
  | vt =>
    obtain ⟨value, rfl⟩ := does
    exact ⟨rfl, rfl, rfl, List.length_append⟩
  | f =>
    rw [Loading.Does, Loading.readFace_faceOf] at does
    obtain ⟨face, -, rfl⟩ := Option.map_eq_some_iff.mp does
    cases componentsOf st.buffer <;> exact ⟨rfl, rfl, rfl, rfl⟩
  | opens => exact ⟨does.buffer, congrArg _ does.vertices, congrArg _ does.normals, congrArg _ does.uvs⟩
  | other =>
    obtain ⟨file, rfl⟩ := does
    exact ⟨rfl, rfl, rfl, rfl⟩

theorem entries_loadLines {floats : Floats} {read : List Chars} {st st' : Loading}
    (h : st.loadLines floats read = some st') :
    st'.vertices.length = st.vertices.length + (entriesOf (buffers st.buffer read)).v ∧
      st'.normals.length = st.normals.length + (entriesOf (buffers st.buffer read)).vn ∧
        st'.uvs.length = st.uvs.length + (entriesOf (buffers st.buffer read)).vt := by
  induction read generalizing st with
  | nil =>
    obtain rfl : st = st' := Option.some.inj h
    exact ⟨rfl, rfl, rfl⟩
  | cons line read ih =>
    obtain ⟨next, here, rest⟩ := Option.bind_eq_some_iff.mp h
    obtain ⟨buffer, vertices, normals, uvs⟩ := does_entries (Loading.statement_does here)
    obtain ⟨vertices', normals', uvs'⟩ := ih rest
    rw [buffer] at vertices' normals' uvs'
    rw [buffers, entriesOf_cons]
    refine ⟨vertices'.trans ?_, normals'.trans ?_, uvs'.trans ?_⟩
    · rw [vertices]
      exact Nat.add_assoc ..
    · rw [normals]
      exact Nat.add_assoc ..
    · rw [uvs]
      exact Nat.add_assoc ..

theorem subsets_loadLines {floats : Floats} {read : List Chars} {st st' : Loading} {run : List Chars}
    (made : MadeOf st.curSubset run) (h : st.loadLines floats read = some st') :
    ∃ subsets, st'.obj.subsets = st.closed ++ subsets ∧
      List.Forall₂ MadeOf subsets ((run ++ (faceRuns (buffers st.buffer read)).1) ::
        (faceRuns (buffers st.buffer read)).2) := by
  induction read generalizing st run with
  | nil =>
    obtain rfl : st = st' := Option.some.inj h
    refine ⟨[st.curSubset], Loading.subsets_obj st, .cons ?_ .nil⟩
    rw [buffers, faceRuns, List.append_nil]
    exact made
  | cons line read ih =>
    obtain ⟨next, here, rest⟩ := Option.bind_eq_some_iff.mp h
    have does := Loading.statement_does here
    have buffer : next.buffer = overlay st.buffer (line ++ [0]) := (does_entries does).1
    have entry : next.curSubset = st.curSubset → next.closed = st.closed → kind next.buffer ≠ .f →
        kind next.buffer ≠ .opens → ∃ subsets, st'.obj.subsets = st.closed ++ subsets ∧
          List.Forall₂ MadeOf subsets ((run ++ (faceRuns (next.buffer :: buffers next.buffer read)).1) ::
            (faceRuns (next.buffer :: buffers next.buffer read)).2) := by
      intro same still face opens
      have after := ih (same ▸ made) rest
      rw [still] at after
      rw [faceRuns_entry _ face opens]
      exact after
    have filled : (st.fill line).buffer = next.buffer := buffer.symm
    rw [buffers, ← buffer]
    rw [filled] at does
    cases what : kind next.buffer with
    | v =>
      rw [what] at does
      obtain ⟨value, rfl⟩ := does
      exact entry rfl rfl (by rw [what]; decide) (by rw [what]; decide)
    | vn =>
      rw [what] at does
      obtain ⟨value, rfl⟩ := does
      exact entry rfl rfl (by rw [what]; decide) (by rw [what]; decide)
    | vt =>
      rw [what] at does
      obtain ⟨value, rfl⟩ := does
      exact entry rfl rfl (by rw [what]; decide) (by rw [what]; decide)
    | other =>
      rw [what] at does
      obtain ⟨file, rfl⟩ := does
      exact entry rfl rfl (by rw [what]; decide) (by rw [what]; decide)
    | f =>
      rw [what, Loading.Does, Loading.readFace_faceOf] at does
      obtain ⟨face, read', pushed⟩ := Option.map_eq_some_iff.mp does
      have more : MadeOf next.curSubset (run ++ [next.buffer]) := by
        rw [← filled, ← pushed]
        exact MadeOf.push (st.fill line) made read'
      have still : next.closed = st.closed := by
        rw [← pushed]
        cases componentsOf (st.fill line).buffer <;> rfl
      obtain ⟨subsets, whole, runs⟩ := ih more rest
      rw [still] at whole
      rw [List.append_assoc] at runs
      rw [faceRuns_face _ what]
      exact ⟨subsets, whole, runs⟩
    | opens =>
      rw [what] at does
      obtain ⟨subsets, whole, runs⟩ := ih does.empty rest
      rw [does.closed, List.append_assoc] at whole
      rw [faceRuns_opens _ what]
      exact ⟨st.curSubset :: subsets, whole, .cons (by rwa [List.append_nil]) runs⟩

/-! ### The conversion -/

theorem at?_of_index {α : Type} {xs : List α} {i : Int} (index : Index xs.length i) : ∃ x, at? xs i = some x := by
  obtain ⟨nonneg, inside⟩ := index
  have bound : i.toNat < xs.length := by omega
  refine ⟨xs[i.toNat], ?_⟩
  rw [at?, if_neg (by omega)]
  exact List.getElem?_eq_getElem bound

/-- A face whose lists are equally long, as those of all loaded faces are, is converted inside the vectors. -/
theorem convertVertex_of_inRange (floats : Floats) {obj : MyObj} {has : Components} {corners : List Corner}
    (inRange : FaceInRange ⟨obj.vertices.length, obj.normals.length, obj.uvs.length⟩ has (.ofCorners corners)) {i : Nat}
    (inside : i < corners.length) : (convertVertex floats obj has (.ofCorners corners) i).isSome := by
  obtain ⟨vertIndex, uvIndex, normalIndex⟩ := inRange
  have place : ∀ get : Corner → Int, (corners.map get)[i]? = some (get corners[i]) := by
    intro get
    rw [List.getElem?_map, List.getElem?_eq_getElem inside]
    rfl
  have among : ∀ get : Corner → Int, get corners[i] ∈ corners.map get := fun get =>
    List.mem_map_of_mem (List.getElem_mem inside)
  obtain ⟨v, position⟩ := at?_of_index (vertIndex _ (among Corner.vertIndex))
  have normal : ∃ ws, convertNormal floats obj has.hasNormals (.ofCorners corners) i = some ws := by
    unfold convertNormal
    cases normals : has.hasNormals with
    | false => exact ⟨[], rfl⟩
    | true =>
      obtain ⟨n, found⟩ := at?_of_index (normalIndex normals _ (among Corner.normalIndex))
      rw [if_pos rfl, show (MyFace.ofCorners corners).normalIndex[i]? = _ from place Corner.normalIndex]
      refine ⟨[floats.neg n.x, n.y, n.z], ?_⟩
      show (at? obj.normals _ >>= _) = _
      rw [found]
      rfl
  have coord : ∃ ws, convertUv obj has.hasTexCoords (.ofCorners corners) i = some ws := by
    unfold convertUv
    cases coords : has.hasTexCoords with
    | false => exact ⟨[], rfl⟩
    | true =>
      obtain ⟨uv, found⟩ := at?_of_index (uvIndex coords _ (among Corner.uvIndex))
      rw [if_pos rfl, show (MyFace.ofCorners corners).uvIndex[i]? = _ from place Corner.uvIndex]
      refine ⟨[uv.u, uv.v], ?_⟩
      show (at? obj.uvs _ >>= _) = _
      rw [found]
      rfl
  obtain ⟨ns, normal⟩ := normal
  obtain ⟨us, coord⟩ := coord
  unfold convertVertex
  rw [show (MyFace.ofCorners corners).vertIndex[i]? = _ from place Corner.vertIndex, normal, coord]
  show (at? obj.vertices _ >>= _).isSome
  rw [position]
  rfl

theorem MadeOf.accessible {subset : MyDrawBatch} {run : List Chars} (made : MadeOf subset run) (floats : Floats)
    {obj : MyObj} (inRange : subset.InRange obj) :
    ∀ face ∈ subset.faces, ∀ i ∈ fanPlaces face.vertIndex.length,
      (convertVertex floats obj subset.has face i).isSome := by
  intro face member i among
  have coords : subset.has.hasTexCoords = true → subset.bHasUv = some true := by
    unfold MyDrawBatch.has
    cases subset.bHasUv <;> simp
  have normals : subset.has.hasNormals = true → subset.bHasNormal = some true := by
    unfold MyDrawBatch.has
    cases subset.bHasNormal <;> simp
  obtain ⟨corners, rfl⟩ : ∃ corners, face = .ofCorners corners := by
    obtain ⟨j, place, rfl⟩ := List.getElem_of_mem member
    have read := List.Forall₂.get made.faces place (made.faces.length_eq ▸ place)
    obtain ⟨corners, -, same⟩ := Option.map_eq_some_iff.mp read
    exact ⟨corners, same.symm⟩
  have inside := lt_of_mem_fanPlaces among
  rw [show (MyFace.ofCorners corners).vertIndex.length = corners.length from List.length_map ..] at inside
  refine convertVertex_of_inRange floats ⟨?_, ?_, ?_⟩ inside
  · exact inRange.vertIndex _ member
  · exact fun flag => inRange.uvIndex (coords flag) _ member
  · exact fun flag => inRange.normalIndex (normals flag) _ member

theorem subsets_initial {floats : Floats} {read : List Chars} {buffer : Chars} {st : Loading}
    (h : (Loading.initial buffer).loadLines floats read = some st) :
    ∃ subsets, st.obj.subsets = subsets ∧
      List.Forall₂ MadeOf subsets ((faceRuns (buffers buffer read)).1 :: (faceRuns (buffers buffer read)).2) := by
  have none : MadeOf (Loading.initial buffer).curSubset [] := ⟨.nil, rfl, rfl⟩
  exact subsets_loadLines none h

theorem entries_initial {floats : Floats} {read : List Chars} {buffer : Chars} {st : Loading}
    (h : (Loading.initial buffer).loadLines floats read = some st) :
    entriesOf (buffers buffer read) = ⟨st.obj.vertices.length, st.obj.normals.length, st.obj.uvs.length⟩ := by
  obtain ⟨vertices, normals, uvs⟩ := entries_loadLines h
  rw [Loading.obj, vertices, normals, uvs]
  show _ = Entries.mk (0 + _) (0 + _) (0 + _)
  rw [Nat.zero_add, Nat.zero_add, Nat.zero_add]
  rfl

/-- What lies in the buffer after each line of a text. -/
def textBuffers (stack : Nat → UInt8) (text : Chars) : List Chars :=
  buffers (cells stack lineBuffSize) (lines (lineBuffSize - 1) text)

def textRuns (stack : Nat → UInt8) (text : Chars) : List (List Chars) :=
  (faceRuns (textBuffers stack text)).1 :: (faceRuns (textBuffers stack text)).2

/-- The converter stays inside the vectors, and all indices that it may look at are in range, if and only if the
numbers of each run are. -/
theorem import_inRange_iff {floats : Floats} {stack : Nat → UInt8} {text : Chars} {st : Loading}
    (loaded : loadText floats stack text = some st) :
    st.obj.Accessible floats ∧ st.obj.InRange ↔
      ∀ run ∈ textRuns stack text, RunInRange (entriesOf (textBuffers stack text)) run := by
  obtain ⟨subsets, whole, made⟩ : ∃ subsets, st.obj.subsets = subsets ∧
      List.Forall₂ MadeOf subsets (textRuns stack text) := subsets_initial loaded
  have entries : entriesOf (textBuffers stack text) = _ := entries_initial loaded
  have all : st.obj.InRange ↔ ∀ run ∈ textRuns stack text, RunInRange (entriesOf (textBuffers stack text)) run := by
    rw [MyObj.InRange, whole, entries]
    exact forall₂_forall_iff made fun subset run here => here.inRange_iff st.obj
  refine Iff.trans ⟨And.right, fun inRange => ⟨?_, inRange⟩⟩ all
  intro subset member
  have inside := inRange subset member
  rw [whole] at member
  obtain ⟨j, place, rfl⟩ := List.getElem_of_mem member
  exact MadeOf.accessible (List.Forall₂.get made place (made.length_eq ▸ place)) floats inside

namespace Mesh

def floats : Floats := ⟨fun _ => [], fun _ => default, id, id⟩

def one : Number := .one

def statements (form : Form) : List Statement :=
  [.v (chars "0 0 0"), .vn (chars "0 0 1"), .f form [⟨one, one, one⟩, ⟨one, one, one⟩, ⟨one, one, one⟩] 0]

theorem wellFormed {form : Form} (known : form = .v ∨ form = .vn) : ∀ s ∈ statements form, s.WellFormed := by
  intro s member
  simp only [statements, List.mem_cons, List.not_mem_nil, or_false] at member
  rcases member with rfl | rfl | rfl
  · exact ⟨by decide, by decide, by decide, nofun, nofun⟩
  · exact ⟨by decide, by decide, by decide, nofun, nofun⟩
  · refine ⟨?_, ?_, ?_, ?_, nofun⟩
    · rcases known with rfl | rfl <;> decide
    · rcases known with rfl | rfl <;> decide
    · rcases known with rfl | rfl <;> decide
    · rintro _ _ _ ⟨⟩
      exact List.cons_ne_nil _ _

def loaded (form : Form) : MyObj := (loadAll floats [] (statements form) (.initial [])).obj

/-- With `f 1 1 1` all is in range. -/
theorem numbers_lead : ∃ st, loadText floats (fun _ => 0) (textOf [] (statements .v)) = some st ∧
    ∀ run ∈ textRuns (fun _ => 0) (textOf [] (statements .v)),
      RunInRange (entriesOf (textBuffers (fun _ => 0) (textOf [] (statements .v)))) run := by
  obtain ⟨buffer, read⟩ := loadText_textOf floats (fun _ => 0) (.inl (rfl : [] = [])) (wellFormed (.inl rfl))
  have accesses : ∀ subset ∈ (loaded .v).subsets, ∀ face ∈ subset.faces, ∀ i ∈ fanPlaces face.vertIndex.length,
      (convertVertex floats (loaded .v) subset.has face i).isSome := by decide
  have vertIndex : ∀ subset ∈ (loaded .v).subsets, ∀ face ∈ subset.faces, ∀ i ∈ face.vertIndex,
      Index (loaded .v).vertices.length i := by decide
  have flags : ∀ subset ∈ (loaded .v).subsets, subset.bHasNormal ≠ some true ∧ subset.bHasUv ≠ some true := by decide
  refine ⟨_, read, (import_inRange_iff read).mp ⟨accesses, fun subset member => ⟨vertIndex subset member, ?_, ?_⟩⟩⟩
  · exact fun flag => absurd flag (flags subset member).1
  · exact fun flag => absurd flag (flags subset member).2

/-- With `f 1//1 1//1 1//1` the normals are looked for at -1. -/
theorem normals_out_of_range : ∃ st, loadText floats (fun _ => 0) (textOf [] (statements .vn)) = some st ∧
    ¬ (st.obj.Accessible floats ∧ st.obj.InRange) := by
  obtain ⟨buffer, read⟩ := loadText_textOf floats (fun _ => 0) (.inl (rfl : [] = [])) (wellFormed (.inr rfl))
  have outside : ¬ ∀ subset ∈ (loaded .vn).subsets, ∀ face ∈ subset.faces, ∀ i ∈ fanPlaces face.vertIndex.length,
      (convertVertex floats (loaded .vn) subset.has face i).isSome := by decide
  exact ⟨_, read, fun h => outside h.1⟩

end Mesh

end ModelPublish.Obj
