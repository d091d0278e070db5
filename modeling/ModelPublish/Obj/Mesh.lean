import ModelPublish.Obj.Convert

/-!
# The triangles of a model

What `ConvertObjTo3DModel` makes of any polygons: the fan of each face, vertex by vertex, in buffers that it fills
exactly.
-/

namespace ModelPublish.Obj
open Text Packed Scan Container

/-- Triangles with one material and one vertex format. -/
structure MeshSubset where
  sMatName : Chars
  uiVertexFmt : UInt32
  triangles : List (MeshVertex × MeshVertex × MeshVertex)

structure MeshPart where
  sName : Chars
  subsets : List MeshSubset

/-- What a part of a model says, apart from how it lies in its buffers. -/
def meshOf (part : TdModelPart) : MeshPart :=
  ⟨part.sName, part.Subsets.map fun s => ⟨s.sMatName, s.uiVertexFmt, s.triangles⟩⟩

/-! ### Polygons -/

/-- A number of triangles that does not go below zero. -/
def fanCount (faces : List MyFace) : Nat := (faces.map fun face => face.vertIndex.length - 2).sum

section Polygons
variable (floats : Floats) (obj : MyObj)

/-- The other hand. -/
def mirror (v : Float3) : Float3 := { v with x := floats.neg v.x }

def entry {α : Type} [Inhabited α] (xs : List α) (i : Int) : α := xs.getD i.toNat default

/-- The vertex that the `i`-th indices of a face lead to. -/
def cornerAt (has : Components) (face : MyFace) (i : Nat) : MeshVertex where
  position := mirror floats (entry obj.vertices (face.vertIndex.getD i 0))
  normal := if has.hasNormals then some (mirror floats (entry obj.normals (face.normalIndex.getD i 0))) else none
  uv := if has.hasTexCoords then some (entry obj.uvs (face.uvIndex.getD i 0)) else none

def polygon (has : Components) (face : MyFace) : List MeshVertex :=
  (List.range face.vertIndex.length).map (cornerAt floats obj has face)

def batchMesh (objsub : MyDrawBatch) : MeshSubset :=
  ⟨objsub.sMatName, vertexFmt objsub.has, objsub.faces.flatMap fun face => fanOf (polygon floats obj objsub.has face)⟩

/-- The parts that have a subset with faces, each with these subsets. -/
def objMeshes : List MeshPart :=
  (obj.subParts.map fun objpart => MeshPart.mk objpart.sName
    ((objpart.subSets.filter fun objsub => objsub.faces ≠ []).map (batchMesh floats obj))).filter
      fun part => part.subsets ≠ []

end Polygons

/-- The indices of a vertex are there, and lead to entries. -/
structure CornerInRange (obj : MyObj) (has : Components) (face : MyFace) (i : Nat) : Prop where
  vertIndex : ∃ k ∈ face.vertIndex[i]?, 0 ≤ k ∧ k < obj.vertices.length
  normalIndex : has.hasNormals = true → ∃ k ∈ face.normalIndex[i]?, 0 ≤ k ∧ k < obj.normals.length
  uvIndex : has.hasTexCoords = true → ∃ k ∈ face.uvIndex[i]?, 0 ≤ k ∧ k < obj.uvs.length

/-- At least three vertices, all of them in range. -/
structure MyFace.IsPolygon (obj : MyObj) (has : Components) (face : MyFace) : Prop where
  polygons : 3 ≤ face.vertIndex.length
  inRange : ∀ i < face.vertIndex.length, CornerInRange obj has face i

/-- Polygons whose triangles fit a buffer of less than 2^32 bytes. -/
structure MyDrawBatch.IsMesh (obj : MyObj) (objsub : MyDrawBatch) : Prop where
  faces : ∀ face ∈ objsub.faces, face.IsPolygon obj objsub.has
  small : fanCount objsub.faces * 3 * (getVertexSize (vertexFmt objsub.has)).toNat < 2 ^ 32

/-! ### What is written -/

section Written
variable {floats : Floats} {obj : MyObj} {has : Components} {face : MyFace}

theorem at?_entry_of {α : Type} [Inhabited α] {xs : List α} {k : Int} (inside : 0 ≤ k ∧ k < xs.length) :
    at? xs k = some (entry xs k) := by
  have place : k.toNat < xs.length := by omega
  rw [at?, if_neg (by omega), entry, List.getD_eq_getElem _ _ place, List.getElem?_eq_getElem place]

theorem getD_of_mem {α : Type} {xs : List α} {i : Nat} {x d : α} (found : x ∈ xs[i]?) : xs.getD i d = x := by
  rw [List.getD_eq_getElem?_getD, Option.mem_def.mp found]
  rfl

theorem lookup_of {α : Type} [Inhabited α] {xs : List α} {indices : List Int} {i : Nat}
    (inRange : ∃ k ∈ indices[i]?, 0 ≤ k ∧ k < xs.length) :
    (do at? xs (← indices[i]?)) = some (entry xs (indices.getD i 0)) := by
  obtain ⟨k, index, inside⟩ := inRange
  rw [getD_of_mem index, Option.mem_def.mp index]
  exact at?_entry_of inside

theorem convertVertex_corner {i : Nat} (inRange : CornerInRange obj has face i) :
    convertVertex floats obj has face i = some (cornerAt floats obj has face i).layout := by
  have normal : convertNormal floats obj has.hasNormals face i =
      some ((cornerAt floats obj has face i).normal.elim [] fun n => [n.x, n.y, n.z]) := by
    unfold convertNormal cornerAt
    cases normals : has.hasNormals with
    | false => rfl
    | true =>
      rw [if_pos rfl, ← bind_assoc, lookup_of (inRange.normalIndex normals)]
      rfl
  have uv : convertUv obj has.hasTexCoords face i =
      some ((cornerAt floats obj has face i).uv.elim [] fun uv => [uv.u, uv.v]) := by
    unfold convertUv cornerAt
    cases coords : has.hasTexCoords with
    | false => rfl
    | true =>
      rw [if_pos rfl, ← bind_assoc, lookup_of (inRange.uvIndex coords)]
      rfl
  unfold convertVertex
  rw [← bind_assoc, lookup_of inRange.vertIndex, normal, uv]
  rfl

theorem convertFace_fan (inRange : ∀ i < face.vertIndex.length, CornerInRange obj has face i) :
    convertFace floats obj has face =
      some (((fanOf (polygon floats obj has face)).flatMap corners).flatMap MeshVertex.layout) := by
  have length : face.vertIndex.length = (polygon floats obj has face).length := by
    rw [polygon, List.length_map, List.length_range]
  have each : ∀ i ∈ fanPlaces (polygon floats obj has face).length,
      convertVertex floats obj has face i = some ((polygon floats obj has face).getD i default).layout := by
    intro i member
    have inside := lt_of_mem_fanPlaces member
    have inside' : i < face.vertIndex.length := by rwa [length]
    rw [convertVertex_corner (inRange i inside'), List.getD_eq_getElem _ _ inside]
    simp only [polygon, List.getElem_map, List.getElem_range]
  rw [convertFace, length, mapM_some each, ← fanOf_places _ default, List.flatMap_map]
  rfl

end Written

/-- How many vertices the faces are short of two each. -/
def missing (faces : List MyFace) : Nat := (faces.map fun face => 2 - face.vertIndex.length).sum

theorem triCount_missing (faces : List MyFace) :
    triCount faces + UInt32.ofNat (missing faces) = UInt32.ofNat (fanCount faces) := by
  have one : ∀ n : Nat, UInt32.ofNat n - 2 + UInt32.ofNat (2 - n) = UInt32.ofNat (n - 2) := by
    intro n
    rcases Nat.lt_or_ge n 2 with short | long
    · have cases : n = 0 ∨ n = 1 := by omega
      rcases cases with rfl | rfl <;> rfl
    · have split : n = n - 2 + 2 := by omega
      rw [Nat.sub_eq_zero_of_le long, split, UInt32.ofNat_add, ← split]
      exact (UInt32.add_zero _).trans (UInt32.add_sub_cancel _ _)
  have from_ : ∀ start : UInt32, faces.foldl
      (fun uiTriCount face => uiTriCount + (UInt32.ofNat face.vertIndex.length - 2)) start +
        UInt32.ofNat (missing faces) = start + UInt32.ofNat (fanCount faces) := by
    induction faces with
    | nil => exact fun start => rfl
    | cons face faces ih =>
      intro start
      have rest := ih (start + (UInt32.ofNat face.vertIndex.length - 2))
      have here := one face.vertIndex.length
      have missing_cons : missing (face :: faces) = 2 - face.vertIndex.length + missing faces := rfl
      have fanCount_cons : fanCount (face :: faces) = face.vertIndex.length - 2 + fanCount faces := rfl
      rw [List.foldl_cons, missing_cons, fanCount_cons, UInt32.ofNat_add, UInt32.ofNat_add, ← here]
      calc _ = List.foldl _ (start + (UInt32.ofNat face.vertIndex.length - 2)) faces +
            UInt32.ofNat (missing faces) + UInt32.ofNat (2 - face.vertIndex.length) := by ac_rfl
        _ = _ := by
          rw [rest]
          ac_rfl
  have whole := from_ 0
  rw [UInt32.zero_add] at whole
  exact whole

theorem triCount_eq {faces : List MyFace} (long : ∀ face ∈ faces, 2 ≤ face.vertIndex.length) :
    triCount faces = UInt32.ofNat (fanCount faces) := by
  have none : missing faces = 0 := by
    rw [missing, List.sum_eq_zero_iff_forall_eq_nat]
    intro short member
    obtain ⟨face, inside, rfl⟩ := List.mem_map.mp member
    exact Nat.sub_eq_zero_of_le (long face inside)
  have balance := triCount_missing faces
  rw [none] at balance
  exact (UInt32.add_zero _).symm.trans balance

def MeshVertex.record (x : MeshVertex) : List UInt8 := F32.codec.encMany x.layout

theorem MeshVertex.length_record (x : MeshVertex) : x.record.length = (getVertexSize (vertexFmt x.has)).toNat := by
  rw [record, Codec.length_encMany, ← x.length_layout]
  rfl

theorem vertexAt_record {s : TdModelSubset} {xs : List MeshVertex} (pVB : s.pVB = xs.flatMap MeshVertex.record)
    (format : ∀ x ∈ xs, vertexFmt x.has = s.uiVertexFmt) {i : Nat} (inside : i < xs.length) (small : i < 2 ^ 32) :
    s.vertexAt (UInt32.ofNat i) = xs[i] := by
  have size : ∀ x ∈ xs, x.record.length = (getVertexSize s.uiVertexFmt).toNat := by
    intro x member
    rw [x.length_record, format x member]
  have here := format xs[i] (List.getElem_mem inside)
  have floats : (getVertexSize s.uiVertexFmt).toNat / 4 = xs[i].layout.length := by
    rw [← here, ← MeshVertex.length_layout]
    exact Nat.mul_div_cancel _ (by decide)
  have place : (UInt32.ofNat i).toNat = i := UInt32.toNat_ofNat_of_lt' small
  rw [TdModelSubset.vertexAt, pVB, place, drop_records size, List.drop_eq_getElem_cons inside, List.flatMap_cons]
  rw [floats, MeshVertex.record, Codec.decMany_encMany, ← here, MeshVertex.read_layout]

theorem triangles_records {s : TdModelSubset} {ts : List (MeshVertex × MeshVertex × MeshVertex)}
    (pVB : s.pVB = (ts.flatMap corners).flatMap MeshVertex.record)
    (pIB : s.pIB = (List.range (3 * ts.length)).map UInt32.ofNat) (uiTriCount : s.uiTriCount.toNat = ts.length)
    (format : ∀ x ∈ ts.flatMap corners, vertexFmt x.has = s.uiVertexFmt) (small : 3 * ts.length < 2 ^ 32) :
    s.triangles = ts := by
  have length : (ts.flatMap corners).length = 3 * ts.length := by
    have three : ∀ t ∈ ts, (corners t).length = 3 := fun _ _ => rfl
    rw [length_records three, Nat.mul_comm]
  have vertices : s.pIB.map s.vertexAt = ts.flatMap corners := by
    rw [pIB, List.map_map]
    apply List.ext_getElem
    · rw [List.length_map, List.length_range, length]
    · intro i left right
      rw [List.getElem_map, List.getElem_range]
      exact vertexAt_record pVB format right (by omega)
  have all : s.pIB.take (3 * s.uiTriCount.toNat) = s.pIB := by
    apply List.take_of_length_le
    rw [pIB, uiTriCount, List.length_map, List.length_range]
  rw [TdModelSubset.triangles, all, vertices, triples_corners]

/-! ### Buffers -/

section Buffers
variable {floats : Floats} {obj : MyObj} {objsub : MyDrawBatch}

theorem cornerAt_has (floats : Floats) (obj : MyObj) (has : Components) (face : MyFace) (i : Nat) :
    (cornerAt floats obj has face i).has = has := by
  obtain ⟨hasTexCoords, hasNormals⟩ := has
  cases hasTexCoords <;> cases hasNormals <;> rfl

theorem batchMesh_has (floats : Floats) (obj : MyObj) (objsub : MyDrawBatch) :
    ∀ x ∈ (batchMesh floats obj objsub).triangles.flatMap corners, x.has = objsub.has := by
  intro x member
  obtain ⟨t, among, corner⟩ := List.mem_flatMap.mp member
  obtain ⟨face, -, fan⟩ := List.mem_flatMap.mp among
  obtain ⟨i, -, rfl⟩ := List.mem_map.mp (mem_of_mem_fan (List.mem_flatMap.mpr ⟨t, fan, corner⟩))
  exact cornerAt_has floats obj objsub.has face i

theorem length_batchMesh (floats : Floats) (obj : MyObj) (objsub : MyDrawBatch) :
    (batchMesh floats obj objsub).triangles.length = fanCount objsub.faces := by
  rw [batchMesh, List.length_flatMap, fanCount]
  refine congrArg List.sum (List.map_congr_left fun face _ => ?_)
  rw [length_fanOf, polygon, List.length_map, List.length_range]

/-- The buffers are as long as the counts say. -/
structure Full (s : TdModelSubset) : Prop where
  pVB : s.pVB.length = s.uiVertCount.toNat * (getVertexSize s.uiVertexFmt).toNat
  pIB : s.pIB.length = s.uiVertCount.toNat
  uiVertCount : s.uiVertCount.toNat = 3 * s.uiTriCount.toNat
  uiTriCount : s.uiTriCount.toNat = s.triangles.length

/-- A subset is converted to the fans of its faces, and to nothing else. -/
theorem convertSubset_fans (floats : Floats) (mesh : objsub.IsMesh obj) :
    ∃ s, convertSubset floats obj objsub = some s ∧ Full s ∧
      MeshSubset.mk s.sMatName s.uiVertexFmt s.triangles = batchMesh floats obj objsub := by
  have count := length_batchMesh floats obj objsub
  have format := batchMesh_has floats obj objsub
  have small := mesh.small
  have size : 12 ≤ (getVertexSize (vertexFmt objsub.has)).toNat := by
    rw [(MeshVertex.vertexFmt_flags _).2.2]
    omega
  have room : fanCount objsub.faces * 3 < 2 ^ 32 := by
    have stride := Nat.le_mul_of_pos_right (fanCount objsub.faces * 3) (Nat.lt_of_lt_of_le (by decide) size)
    omega
  have triCount : triCount objsub.faces = UInt32.ofNat (fanCount objsub.faces) :=
    triCount_eq fun face member => Nat.le_of_succ_le (mesh.faces face member).polygons
  have uiTriCount : (UInt32.ofNat (fanCount objsub.faces)).toNat = fanCount objsub.faces :=
    UInt32.toNat_ofNat_of_lt' (Nat.lt_of_le_of_lt (Nat.le_mul_of_pos_right _ (by decide)) room)
  have written : objsub.faces.mapM (convertFace floats obj objsub.has) =
      some (objsub.faces.map fun face =>
        ((fanOf (polygon floats obj objsub.has face)).flatMap corners).flatMap MeshVertex.layout) :=
    mapM_some fun face member => convertFace_fan (mesh.faces face member).inRange
  have bytes : F32.codec.encMany (objsub.faces.map fun face =>
      ((fanOf (polygon floats obj objsub.has face)).flatMap corners).flatMap MeshVertex.layout).flatten =
        ((batchMesh floats obj objsub).triangles.flatMap corners).flatMap MeshVertex.record := by
    rw [← List.flatMap_def, batchMesh, List.flatMap_assoc, List.flatMap_assoc, Codec.encMany, List.flatMap_assoc]
    simp only [List.flatMap_assoc]
    rfl
  have stride : ∀ x ∈ (batchMesh floats obj objsub).triangles.flatMap corners,
      x.record.length = (getVertexSize (vertexFmt objsub.has)).toNat := by
    intro x member
    rw [x.length_record, format x member]
  have three : ∀ t ∈ (batchMesh floats obj objsub).triangles, (corners t).length = 3 := fun _ _ => rfl
  have indices : (UInt32.ofNat (fanCount objsub.faces) * 3).toNat = fanCount objsub.faces * 3 := by
    have value : (3 : UInt32).toNat = 3 := rfl
    rw [UInt32.toNat_mul, uiTriCount, value, Nat.mod_eq_of_lt room]
  have total : (UInt32.ofNat (fanCount objsub.faces) * 3 * getVertexSize (vertexFmt objsub.has)).toNat =
      fanCount objsub.faces * 3 * (getVertexSize (vertexFmt objsub.has)).toNat := by
    rw [UInt32.toNat_mul, indices, Nat.mod_eq_of_lt small]
  have length : (((batchMesh floats obj objsub).triangles.flatMap corners).flatMap MeshVertex.record).length =
      (List.replicate (UInt32.ofNat (fanCount objsub.faces) * 3 * getVertexSize (vertexFmt objsub.has)).toNat
        (0 : UInt8)).length := by
    rw [length_records stride, length_records three, count, List.length_replicate, total]
  let s : TdModelSubset :=
    { pVB := ((batchMesh floats obj objsub).triangles.flatMap corners).flatMap MeshVertex.record
      pIB := (List.range (UInt32.ofNat (fanCount objsub.faces) * 3).toNat).map UInt32.ofNat
      uiVertCount := UInt32.ofNat (fanCount objsub.faces) * 3
      uiTriCount := UInt32.ofNat (fanCount objsub.faces)
      sMatName := objsub.sMatName
      uiVertexFmt := vertexFmt objsub.has }
  have converted : convertSubset floats obj objsub = some s := by
    unfold convertSubset
    rw [written, triCount]
    show ite _ _ _ = _
    rw [bytes, overlay_full length, length, if_neg (Nat.lt_irrefl _)]
    rfl
  have triangles : s.triangles = (batchMesh floats obj objsub).triangles := by
    apply triangles_records rfl
    · rw [count, Nat.mul_comm, ← indices]
    · rw [count]
      exact uiTriCount
    · intro x member
      rw [format x member]
    · omega
  refine ⟨s, converted, ⟨?_, ?_, ?_, ?_⟩, ?_⟩
  · rw [length, List.length_replicate, total, ← indices]
  · rw [List.length_map, List.length_range]
  · rw [indices, uiTriCount, Nat.mul_comm]
  · rw [triangles, count]
    exact uiTriCount
  · rw [triangles]
    rfl

theorem convertPart_fans {objpart : MyObjPart}
    (mesh : ∀ objsub ∈ objpart.subSets, objsub.faces ≠ [] → objsub.IsMesh obj) :
    ∃ part, convertPart floats obj objpart = some part ∧ (∀ s ∈ part.Subsets, Full s) ∧
      meshOf part = ⟨objpart.sName, (objpart.subSets.filter fun objsub => objsub.faces ≠ []).map
        (batchMesh floats obj)⟩ := by
  have each : ∀ objsub ∈ objpart.subSets.filter fun objsub => objsub.faces ≠ [],
      ∃ s, convertSubset floats obj objsub = some s ∧ Full s ∧
        MeshSubset.mk s.sMatName s.uiVertexFmt s.triangles = batchMesh floats obj objsub := by
    intro objsub among
    obtain ⟨inside, some_face⟩ := List.mem_filter.mp among
    exact convertSubset_fans floats (mesh objsub inside (of_decide_eq_true some_face))
  obtain ⟨subsets, converted, full, meshes⟩ := mapM_image_all each
  refine ⟨⟨objpart.sName, subsets⟩, ?_, full, congrArg (MeshPart.mk _) meshes⟩
  rw [convertPart, converted]
  rfl

/-- All subsets with faces are made of polygons. -/
def MyObj.IsMesh (obj : MyObj) : Prop :=
  ∀ objpart ∈ obj.subParts, ∀ objsub ∈ objpart.subSets, objsub.faces ≠ [] → objsub.IsMesh obj

/-- The parts with faces are converted, each with the subsets that have faces and these with the fans of them. -/
theorem convertParts_fans (floats : Floats) (mesh : obj.IsMesh) :
    ∃ parts, convertParts floats obj = some parts ∧ (∀ part ∈ parts, ∀ s ∈ part.Subsets, Full s) ∧
      parts.map meshOf = objMeshes floats obj := by
  have each : ∀ objpart ∈ obj.subParts, ∃ part, convertPart floats obj objpart = some part ∧
      (∀ s ∈ part.Subsets, Full s) ∧ meshOf part = ⟨objpart.sName,
        (objpart.subSets.filter fun objsub => objsub.faces ≠ []).map (batchMesh floats obj)⟩ :=
    fun objpart member => convertPart_fans (mesh objpart member)
  obtain ⟨parts, walked, full, images⟩ := mapM_image_all each
  refine ⟨parts.filter fun part => part.Subsets ≠ [], ?_, fun part among => full part (List.mem_filter.mp among).1, ?_⟩
  · rw [convertParts, walked]
    rfl
  · rw [objMeshes, ← images, List.filter_map]
    refine congrArg (List.map meshOf) (List.filter_congr fun part _ => ?_)
    simp [meshOf]

end Buffers

/-! ### A square -/

namespace Square

def floats : Floats := ⟨fun _ => [], fun _ => default, id, fun f => ⟨f.bits ^^^ 0x80000000⟩⟩

def point (x y : UInt32) : Float3 := ⟨⟨x⟩, ⟨y⟩, ⟨0⟩⟩

def face : MyFace := ⟨[0, 1, 2, 3], [-1, -1, -1, -1], [0, 1, 1, 0]⟩

def batch : MyDrawBatch := ⟨[face], chars "red", some false, some true⟩

def obj : MyObj where
  subParts := [⟨chars "All", []⟩, ⟨chars "a", [{}, batch]⟩]
  vertices := [point 0 0, point 1 0, point 1 1, point 0 1]
  normals := []
  uvs := [⟨⟨0⟩, ⟨0⟩⟩, ⟨⟨1⟩, ⟨0⟩⟩]
  sMtrlFilename := []

theorem inRange {i : Nat} (inside : i < 4) : CornerInRange obj ⟨true, false⟩ face i := by
  have places : i = 0 ∨ i = 1 ∨ i = 2 ∨ i = 3 := by omega
  rcases places with rfl | rfl | rfl | rfl <;>
    exact ⟨⟨_, rfl, by decide⟩, nofun, fun _ => ⟨_, rfl, by decide⟩⟩

theorem isMesh : obj.IsMesh := by
  intro objpart part objsub subset some_face
  simp only [obj, List.mem_cons, List.not_mem_nil, or_false] at part
  rcases part with rfl | rfl
  · cases subset
  · simp only [List.mem_cons, List.not_mem_nil, or_false] at subset
    rcases subset with rfl | rfl
    · exact absurd rfl some_face
    · refine ⟨fun face member => ?_, by decide⟩
      rw [List.mem_singleton.mp member]
      exact ⟨by decide, fun i inside => inRange inside⟩

theorem fans : ∃ parts, convertParts floats obj = some parts ∧ (∀ part ∈ parts, ∀ s ∈ part.Subsets, Full s) ∧
    parts.map meshOf = objMeshes floats obj := convertParts_fans floats isMesh

end Square

end ModelPublish.Obj
