import ModelPublish.Obj.Mesh
import ModelPublish.Packed.Word

/-!
# CD3DMesh2

The mesh that the viewer makes of a loaded OBJ text by itself, in vertices of one format. It is compared with the
model that `ConvertObjTo3DModel` makes of the same text.
-/

namespace ModelPublish.Obj
open Text Packed Scan Container

/-- `MY_VERTEX`. -/
structure MyVertex where
  ptPos : Float3
  vNormal : Float3
  vUv : Uv
  deriving DecidableEq, Inhabited

def MyVertex.zero : MyVertex := ⟨⟨⟨0⟩, ⟨0⟩, ⟨0⟩⟩, ⟨⟨0⟩, ⟨0⟩, ⟨0⟩⟩, ⟨⟨0⟩, ⟨0⟩⟩⟩

/-- `D3D_DRAW_BATCH`, which is also called `D3D_SUBSET`. -/
structure D3dDrawBatch where
  pVB : List MyVertex
  iTriCount : Int32
  bNormal : Bool
  bUv : Bool
  sMatName : Chars
  deriving DecidableEq

structure D3dModelPart where
  sName : Chars
  Batches : List D3dDrawBatch
  deriving DecidableEq

section Create
variable (floats : Floats) (obj : MyObj)

/-- An assignment to a field of `pVB [ i ]`. Outside the buffer it has no value. -/
def assign (pVB : List MyVertex) (i : Nat) (field : MyVertex → MyVertex) : Option (List MyVertex) :=
  if i < pVB.length then some (pVB.modify i field) else none

/-- The three vertices of a triangle, with the places of their indices in the face. -/
def triangleAt (iVert : Nat) : List (Nat × Nat) := [(0, 0), (1, iVert - 1), (2, iVert)]

/-- One field of the three vertices from `iVbIndex` on, with what `look` finds for their places. -/
def assignTriangle {α : Type} (look : Nat → Option α) (field : α → MyVertex → MyVertex) (iVbIndex iVert : Nat)
    (pVB : List MyVertex) : Option (List MyVertex) :=
  (triangleAt iVert).foldlM (fun pVB (k, place) => do assign pVB (iVbIndex + k) (field (← look place))) pVB

def createPositions (face : MyFace) : Nat → Nat → List MyVertex → Option (List MyVertex) :=
  assignTriangle (fun place => do at? obj.vertices (← face.vertIndex[place]?))
    fun v x => { x with ptPos := ⟨floats.neg v.x, v.y, v.z⟩ }

def createNormals (face : MyFace) : Nat → Nat → List MyVertex → Option (List MyVertex) :=
  assignTriangle (fun place => do at? obj.normals (← face.normalIndex[place]?))
    fun n x => { x with vNormal := ⟨floats.neg n.x, n.y, n.z⟩ }

def createUvs (face : MyFace) : Nat → Nat → List MyVertex → Option (List MyVertex) :=
  assignTriangle (fun place => do at? obj.uvs (← face.uvIndex[place]?)) fun uv x => { x with vUv := ⟨uv.u, uv.v⟩ }

/-- One turn of the loop over `iVert`, on `pVB` and `iVbIndex`. -/
def createTriangle (has : Components) (face : MyFace) (st : List MyVertex × Nat) (iVert : Nat) :
    Option (List MyVertex × Nat) := do
  let (pVB, iVbIndex) := st
  let pVB ← createPositions floats obj face iVbIndex iVert pVB
  let pVB ← if has.hasNormals then createNormals floats obj face iVbIndex iVert pVB else some pVB
  let pVB ← if has.hasTexCoords then createUvs obj face iVbIndex iVert pVB else some pVB
  pure (pVB, iVbIndex + 3)

/-- The loop in which `iVert` is `k + 2`. -/
def createFace (has : Components) (st : List MyVertex × Nat) (face : MyFace) : Option (List MyVertex × Nat) :=
  (List.range (face.vertIndex.length - 2)).foldlM
    (fun st k => createTriangle floats obj has face st (k + 2)) st

/-- The count is the same sum, in an `int`. -/
def createBatch (db : MyDrawBatch) : Option D3dDrawBatch := do
  let iTriCount := (triCount db.faces).toInt32
  let pVB := List.replicate (iTriCount * 3).toInt.toNat MyVertex.zero
  let (pVB, _) ← db.faces.foldlM (createFace floats obj db.has) (pVB, 0)
  pure ⟨pVB, iTriCount, db.has.hasNormals, db.has.hasTexCoords, db.sMatName⟩

def createPart (part : MyObjPart) : Option D3dModelPart := do
  let batches ← (part.subSets.filter fun db => db.faces ≠ []).mapM (createBatch floats obj)
  pure ⟨part.sName, batches⟩

/-- `CD3DMesh2::CreateFromObj`, as far as the parts go. -/
def createFromObj : Option (List D3dModelPart) := do
  let parts ← obj.subParts.mapM (createPart floats obj)
  pure (parts.filter fun part => part.Batches ≠ [])

end Create

/-! ### What the mesh says -/

/-- A vertex as the flags of its batch tell to read it. -/
def MyVertex.read (bNormal bUv : Bool) (x : MyVertex) : MeshVertex :=
  ⟨x.ptPos, if bNormal then some x.vNormal else none, if bUv then some x.vUv else none⟩

def D3dDrawBatch.triangles (batch : D3dDrawBatch) : List (MeshVertex × MeshVertex × MeshVertex) :=
  triples ((batch.pVB.take (3 * batch.iTriCount.toInt.toNat)).map (MyVertex.read batch.bNormal batch.bUv))

def directMeshOf (part : D3dModelPart) : MeshPart :=
  ⟨part.sName, part.Batches.map fun b => ⟨b.sMatName, vertexFmt ⟨b.bUv, b.bNormal⟩, b.triangles⟩⟩

/-- A vertex in the one format, zero where it has no components. -/
def myVertex (x : MeshVertex) : MyVertex :=
  ⟨x.position, x.normal.getD MyVertex.zero.vNormal, x.uv.getD MyVertex.zero.vUv⟩

theorem read_myVertex (x : MeshVertex) : (myVertex x).read x.has.hasNormals x.has.hasTexCoords = x := by
  obtain ⟨position, normal, uv⟩ := x
  cases normal <;> cases uv <;> rfl

/-! ### The loops -/

section Loops
variable {floats : Floats} {obj : MyObj} {has : Components} {face : MyFace}

theorem modify_behind {α : Type} (done rest : List α) (k : Nat) (f : α → α) :
    (done ++ rest).modify (done.length + k) f = done ++ rest.modify k f := by
  induction done with
  | nil => rw [List.length_nil, Nat.zero_add, List.nil_append, List.nil_append]
  | cons x done ih =>
    rw [List.length_cons, Nat.add_right_comm, List.cons_append, List.modify_succ_cons, ih, List.cons_append]

theorem assignTriangle_behind {α : Type} {look : Nat → Option α} {f : α → MyVertex → MyVertex} {value : Nat → α}
    {iVert : Nat} (found : ∀ place ∈ [0, iVert - 1, iVert], look place = some (value place))
    (done rest : List MyVertex) (x y z : MyVertex) :
    assignTriangle look f done.length iVert (done ++ x :: y :: z :: rest) =
      some (done ++ f (value 0) x :: f (value (iVert - 1)) y :: f (value iVert) z :: rest) := by
  have first := found 0 (by simp)
  have second := found (iVert - 1) (by simp)
  have third := found iVert (by simp)
  have behind : ∀ (k : Nat) (tail : List MyVertex), k < 3 → 3 ≤ tail.length → ∀ g,
      assign (done ++ tail) (done.length + k) g = some (done ++ tail.modify k g) := by
    intro k tail small long g
    rw [assign, if_pos (by rw [List.length_append]; omega), modify_behind]
  have long : ∀ x y z : MyVertex, 3 ≤ (x :: y :: z :: rest).length := by
    intro x y z
    simp only [List.length_cons]
    omega
  simp only [assignTriangle, triangleAt, List.foldlM_cons, List.foldlM_nil, first, second, third, Option.bind_eq_bind,
    Option.bind_some, behind 0 _ (by decide) (long _ _ _), behind 1 _ (by decide) (long _ _ _),
    behind 2 _ (by decide) (long _ _ _), List.modify_zero_cons, List.modify_succ_cons]
  rfl

/-- Before a triangle is written, the buffer is zero from its place on. -/
def blank (done : List MyVertex) (count : Nat) : List MyVertex × Nat :=
  (done ++ List.replicate count MyVertex.zero, done.length)

def fanTriangle (floats : Floats) (obj : MyObj) (has : Components) (face : MyFace) (iVert : Nat) : List MyVertex :=
  [0, iVert - 1, iVert].map fun place => myVertex (cornerAt floats obj has face place)

theorem createTriangle_blank (inRange : ∀ i < face.vertIndex.length, CornerInRange obj has face i)
    (done : List MyVertex) (count : Nat) {iVert : Nat} (inside : iVert < face.vertIndex.length) :
    createTriangle floats obj has face (blank done (count + 3)) iVert =
      some (blank (done ++ fanTriangle floats obj has face iVert) count) := by
  have covered : ∀ place ∈ [0, iVert - 1, iVert], CornerInRange obj has face place := by
    intro place member
    simp only [List.mem_cons, List.not_mem_nil, or_false] at member
    exact inRange place (by omega)
  have positions := assignTriangle_behind (f := fun v x => { x with ptPos := ⟨floats.neg v.x, v.y, v.z⟩ })
    (fun place member => lookup_of (covered place member).vertIndex) done
  have normals := fun present : has.hasNormals = true => assignTriangle_behind
    (f := fun n x => { x with vNormal := ⟨floats.neg n.x, n.y, n.z⟩ })
    (fun place member => lookup_of ((covered place member).normalIndex present)) done
  have uvs := fun present : has.hasTexCoords = true => assignTriangle_behind
    (f := fun uv x => { x with vUv := ⟨uv.u, uv.v⟩ })
    (fun place member => lookup_of ((covered place member).uvIndex present)) done
  have length : done.length + 3 = (done ++ fanTriangle floats obj has face iVert).length := by
    rw [List.length_append]
    rfl
  rw [blank, blank, ← length, List.append_assoc, List.replicate_succ, List.replicate_succ, List.replicate_succ]
  unfold createTriangle
  show (createPositions floats obj face done.length iVert _ >>= _) = _
  rw [createPositions, positions]
  obtain ⟨hasTexCoords, hasNormals⟩ := has
  cases hasNormals with
  | false =>
    cases hasTexCoords with
    | false => rfl
    | true =>
      show (createUvs obj face done.length iVert _ >>= _) = _
      rw [createUvs, uvs rfl]
      rfl
  | true =>
    show (createNormals floats obj face done.length iVert _ >>= _) = _
    rw [createNormals, normals rfl]
    cases hasTexCoords with
    | false => rfl
    | true =>
      show (createUvs obj face done.length iVert _ >>= _) = _
      rw [createUvs, uvs rfl]
      rfl

theorem fanTriangles (floats : Floats) (obj : MyObj) (has : Components) (face : MyFace) :
    (List.range (face.vertIndex.length - 2)).flatMap (fun k => fanTriangle floats obj has face (k + 2)) =
      ((fanOf (polygon floats obj has face)).flatMap corners).map myVertex := by
  have length : (polygon floats obj has face).length = face.vertIndex.length := by
    rw [polygon, List.length_map, List.length_range]
  rw [← fanOf_places _ default, length, List.map_map, fanPlaces, List.map_flatMap]
  refine List.flatMap_congr fun k member => List.map_congr_left fun place among => ?_
  rw [List.mem_range] at member
  simp only [List.mem_cons, List.not_mem_nil, or_false] at among
  have inside : place < (polygon floats obj has face).length := by
    rw [length]
    omega
  show _ = myVertex ((polygon floats obj has face).getD place default)
  rw [List.getD_eq_getElem _ _ inside]
  simp only [polygon, List.getElem_map, List.getElem_range]

theorem createFace_blank (inRange : ∀ i < face.vertIndex.length, CornerInRange obj has face i)
    (done : List MyVertex) (count : Nat) :
    createFace floats obj has (blank done ((face.vertIndex.length - 2) * 3 + count)) face =
      some (blank (done ++ ((fanOf (polygon floats obj has face)).flatMap corners).map myVertex) count) := by
  have loop : ∀ (ks : List Nat) (done : List MyVertex), (∀ k ∈ ks, k + 2 < face.vertIndex.length) →
      ks.foldlM (fun st k => createTriangle floats obj has face st (k + 2)) (blank done (ks.length * 3 + count)) =
        some (blank (done ++ ks.flatMap fun k => fanTriangle floats obj has face (k + 2)) count) := by
    intro ks
    induction ks with
    | nil =>
      intro done _
      rw [List.flatMap_nil, List.append_nil, List.length_nil, Nat.zero_mul, Nat.zero_add]
      rfl
    | cons k ks ih =>
      intro done inside
      have room : (k :: ks).length * 3 + count = ks.length * 3 + count + 3 := by
        rw [List.length_cons]
        omega
      rw [List.foldlM_cons, room, createTriangle_blank inRange done _ (inside k List.mem_cons_self)]
      show ks.foldlM _ _ = _
      rw [ih _ fun j member => inside j (List.mem_cons_of_mem _ member), List.flatMap_cons, List.append_assoc]
  have all := loop (List.range (face.vertIndex.length - 2)) done (by
    intro k member
    rw [List.mem_range] at member
    omega)
  rw [List.length_range, fanTriangles] at all
  exact all

theorem createFaces_blank (floats : Floats) {faces : List MyFace}
    (inRange : ∀ face ∈ faces, ∀ i < face.vertIndex.length, CornerInRange obj has face i) (done : List MyVertex)
    (count : Nat) :
    faces.foldlM (createFace floats obj has) (blank done (fanCount faces * 3 + count)) =
      some (blank (done ++ ((faces.flatMap fun face => fanOf (polygon floats obj has face)).flatMap corners).map myVertex)
        count) := by
  induction faces generalizing done with
  | nil =>
    rw [List.flatMap_nil, List.flatMap_nil, List.map_nil, List.append_nil]
    show some (blank done (0 * 3 + count)) = _
    rw [Nat.zero_mul, Nat.zero_add]
  | cons face faces ih =>
    have room : fanCount (face :: faces) * 3 + count =
        (face.vertIndex.length - 2) * 3 + (fanCount faces * 3 + count) := by
      have fanCount_cons : fanCount (face :: faces) = face.vertIndex.length - 2 + fanCount faces := rfl
      rw [fanCount_cons]
      omega
    rw [List.foldlM_cons, room, createFace_blank (inRange face List.mem_cons_self)]
    show faces.foldlM _ _ = _
    rw [ih (fun other member => inRange other (List.mem_cons_of_mem _ member)), List.flatMap_cons,
      List.flatMap_append, List.map_append, List.append_assoc]

end Loops

/-! ### Both -/

section Both
variable {floats : Floats} {obj : MyObj}

theorem createBatch_fans {db : MyDrawBatch} (mesh : db.IsMesh obj) :
    ∃ b, createBatch floats obj db = some b ∧ b.iTriCount.toInt = b.triangles.length ∧
      MeshSubset.mk b.sMatName (vertexFmt ⟨b.bUv, b.bNormal⟩) b.triangles = batchMesh floats obj db := by
  have count := length_batchMesh floats obj db
  have format := batchMesh_has floats obj db
  have small := mesh.small
  have size : 12 ≤ (getVertexSize (vertexFmt db.has)).toNat := by
    rw [(MeshVertex.vertexFmt_flags _).2.2]
    omega
  have room : fanCount db.faces * 3 < 2 ^ 31 := by
    have stride := Nat.mul_le_mul_left (fanCount db.faces * 3) size
    omega
  have triCount : triCount db.faces = UInt32.ofNat (fanCount db.faces) :=
    triCount_eq fun face member => Nat.le_of_succ_le (mesh.faces face member).polygons
  have iTriCount : (UInt32.ofNat (fanCount db.faces)).toInt32.toInt = fanCount db.faces := toInt_ofNat (by omega)
  have indices : ((UInt32.ofNat (fanCount db.faces)).toInt32 * 3).toInt.toNat = fanCount db.faces * 3 := by
    have three : (3 : Int32).toInt = 3 := rfl
    rw [Int32.toInt_mul, iTriCount, three, Int.bmod_eq_of_le (by omega) (by omega)]
    omega
  have inRange := fun face member => (mesh.faces face member).inRange
  have filled := createFaces_blank floats inRange [] 0
  rw [List.nil_append, Nat.add_zero] at filled
  let b : D3dDrawBatch :=
    ⟨((batchMesh floats obj db).triangles.flatMap corners).map myVertex, (UInt32.ofNat (fanCount db.faces)).toInt32,
      db.has.hasNormals, db.has.hasTexCoords, db.sMatName⟩
  have created : createBatch floats obj db = some b := by
    unfold createBatch
    rw [triCount]
    dsimp only
    rw [indices]
    show (db.faces.foldlM _ (blank [] (fanCount db.faces * 3)) >>= _) = _
    rw [filled, blank, List.replicate_zero, List.append_nil]
    rfl
  have three : ∀ t ∈ (batchMesh floats obj db).triangles, (corners t).length = 3 := fun _ _ => rfl
  have all : b.pVB.take (3 * b.iTriCount.toInt.toNat) = b.pVB := by
    apply List.take_of_length_le
    rw [List.length_map, length_records three, count]
    show _ ≤ 3 * (UInt32.ofNat (fanCount db.faces)).toInt32.toInt.toNat
    omega
  have read : b.pVB.map (MyVertex.read b.bNormal b.bUv) = (batchMesh floats obj db).triangles.flatMap corners := by
    show (((batchMesh floats obj db).triangles.flatMap corners).map myVertex).map
      (MyVertex.read db.has.hasNormals db.has.hasTexCoords) = _
    rw [List.map_map]
    refine (List.map_congr_left fun x member => ?_).trans (List.map_id _)
    have flags := format x member
    show (myVertex x).read db.has.hasNormals db.has.hasTexCoords = x
    rw [← flags, read_myVertex]
  have triangles : b.triangles = (batchMesh floats obj db).triangles := by
    rw [D3dDrawBatch.triangles, all, read, triples_corners]
  refine ⟨b, created, ?_, ?_⟩
  · rw [triangles, count]
    exact iTriCount
  · rw [triangles]
    rfl

def MeshPart.lengths (part : MeshPart) : List Int := part.subsets.map fun s => (s.triangles.length : Int)

/-- The counts of the subsets, part by part. -/
def directCounts (part : D3dModelPart) : List Int := part.Batches.map fun b => b.iTriCount.toInt

def modelCounts (part : TdModelPart) : List Int := part.Subsets.map fun s => (s.uiTriCount.toNat : Int)

theorem createPart_fans {objpart : MyObjPart}
    (mesh : ∀ objsub ∈ objpart.subSets, objsub.faces ≠ [] → objsub.IsMesh obj) :
    ∃ part, createPart floats obj objpart = some part ∧
      (∀ b ∈ part.Batches, b.iTriCount.toInt = b.triangles.length) ∧
      directMeshOf part = ⟨objpart.sName, (objpart.subSets.filter fun objsub => objsub.faces ≠ []).map
        (batchMesh floats obj)⟩ := by
  have each : ∀ db ∈ objpart.subSets.filter fun db => db.faces ≠ [],
      ∃ b, createBatch floats obj db = some b ∧ b.iTriCount.toInt = b.triangles.length ∧
        MeshSubset.mk b.sMatName (vertexFmt ⟨b.bUv, b.bNormal⟩) b.triangles = batchMesh floats obj db := by
    intro db among
    obtain ⟨inside, some_face⟩ := List.mem_filter.mp among
    exact createBatch_fans (mesh db inside (of_decide_eq_true some_face))
  obtain ⟨batches, created, counted, meshes⟩ := mapM_image_all each
  refine ⟨⟨objpart.sName, batches⟩, ?_, counted, congrArg (MeshPart.mk _) meshes⟩
  rw [createPart, created]
  rfl

theorem createFromObj_fans (floats : Floats) (mesh : obj.IsMesh) :
    ∃ parts, createFromObj floats obj = some parts ∧
      (∀ part ∈ parts, ∀ b ∈ part.Batches, b.iTriCount.toInt = b.triangles.length) ∧
      parts.map directMeshOf = objMeshes floats obj := by
  have each : ∀ objpart ∈ obj.subParts, ∃ part, createPart floats obj objpart = some part ∧
      (∀ b ∈ part.Batches, b.iTriCount.toInt = b.triangles.length) ∧ directMeshOf part = ⟨objpart.sName,
        (objpart.subSets.filter fun objsub => objsub.faces ≠ []).map (batchMesh floats obj)⟩ :=
    fun objpart member => createPart_fans (mesh objpart member)
  obtain ⟨parts, walked, counted, images⟩ := mapM_image_all each
  refine ⟨parts.filter fun part => part.Batches ≠ [], ?_,
    fun part among => counted part (List.mem_filter.mp among).1, ?_⟩
  · rw [createFromObj, walked]
    rfl
  · rw [objMeshes, ← images, List.filter_map]
    refine congrArg (List.map directMeshOf) (List.filter_congr fun part _ => ?_)
    simp [directMeshOf]

/-- The viewer draws the same parts, subsets and triangles, whether it makes its mesh of the text or of the model. -/
theorem createFromObj_convertParts (floats : Floats) (mesh : obj.IsMesh) :
    ∃ d3dParts parts, createFromObj floats obj = some d3dParts ∧ convertParts floats obj = some parts ∧
      d3dParts.map directMeshOf = parts.map meshOf ∧ d3dParts.map directCounts = parts.map modelCounts := by
  obtain ⟨d3dParts, created, counted, direct⟩ := createFromObj_fans floats mesh
  obtain ⟨parts, converted, full, model⟩ := convertParts_fans floats mesh
  refine ⟨d3dParts, parts, created, converted, direct.trans model.symm, ?_⟩
  have directLengths : d3dParts.map directCounts = (d3dParts.map directMeshOf).map MeshPart.lengths := by
    rw [List.map_map]
    apply List.map_congr_left
    intro part member
    show part.Batches.map _ = (part.Batches.map _).map _
    rw [List.map_map]
    exact List.map_congr_left fun b among => counted part member b among
  have modelLengths : parts.map modelCounts = (parts.map meshOf).map MeshPart.lengths := by
    rw [List.map_map]
    apply List.map_congr_left
    intro part member
    show part.Subsets.map _ = (part.Subsets.map _).map _
    rw [List.map_map]
    exact List.map_congr_left fun s among => congrArg Nat.cast (full part member s among).uiTriCount
  rw [directLengths, modelLengths, direct, model]

end Both

namespace Square

theorem same_mesh : ∃ d3dParts parts, createFromObj floats obj = some d3dParts ∧ convertParts floats obj = some parts ∧
    d3dParts.map directMeshOf = parts.map meshOf ∧ d3dParts.map directCounts = parts.map modelCounts :=
  createFromObj_convertParts floats isMesh

end Square

end ModelPublish.Obj
