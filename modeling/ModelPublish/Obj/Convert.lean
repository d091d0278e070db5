import ModelPublish.Container.Fan
import ModelPublish.Obj.Loader
import ModelPublish.Scan.Model

/-!
# ConvertObjTo3DModel

The parts that are made of a loaded OBJ text. Each face becomes a fan of triangles, and each triangle has its
own three vertices in `pVB`.
-/

namespace ModelPublish.Obj
open Text Packed Scan Container

/-- `operator []` of a vector, at an `int`. Outside the vector there is no value. -/
def at? {α : Type} (xs : List α) (i : Int) : Option α := if i < 0 then none else xs[i.toNat]?

def vertexFmt (has : Components) : UInt32 :=
  vfPosition ||| (if has.hasNormals then vfNormal else 0) ||| (if has.hasTexCoords then vfUv else 0)

/-- The sum of `VertIndex.size () - 2`, which wraps around for faces with fewer than two vertices. -/
def triCount (faces : List MyFace) : UInt32 :=
  faces.foldl (fun uiTriCount face => uiTriCount + (UInt32.ofNat face.vertIndex.length - 2)) 0

section Convert
variable (floats : Floats) (obj : MyObj)

def convertNormal (present : Bool) (face : MyFace) (iVert : Nat) : Option (List F32) :=
  if present then do
    let n ← at? obj.normals (← face.normalIndex[iVert]?)
    pure [floats.neg n.x, n.y, n.z]
  else some []

def convertUv (present : Bool) (face : MyFace) (iVert : Nat) : Option (List F32) :=
  if present then do
    let uv ← at? obj.uvs (← face.uvIndex[iVert]?)
    pure [uv.u, uv.v]
  else some []

/-- What is written for one vertex of a triangle. -/
def convertVertex (has : Components) (face : MyFace) (iVert : Nat) : Option (List F32) := do
  let v ← at? obj.vertices (← face.vertIndex[iVert]?)
  let normal ← convertNormal floats obj has.hasNormals face iVert
  let uv ← convertUv obj has.hasTexCoords face iVert
  pure ([floats.neg v.x, v.y, v.z] ++ normal ++ uv)

/-- The loop in which `iVert` is `k + 2`. -/
def convertFace (has : Components) (face : MyFace) : Option (List F32) := do
  let vertices ← (fanPlaces face.vertIndex.length).mapM (convertVertex floats obj has face)
  pure vertices.flatten

/-- `none` when an index is out of range, or more is written than `pVB` has room for. -/
def convertSubset (objsub : MyDrawBatch) : Option TdModelSubset := do
  let uiVertexFmt := vertexFmt objsub.has
  let uiTriCount := triCount objsub.faces
  let uiVertSize := getVertexSize uiVertexFmt
  let pVB := List.replicate (uiTriCount * 3 * uiVertSize).toNat 0
  let written ← objsub.faces.mapM (convertFace floats obj objsub.has)
  let bytes := F32.codec.encMany written.flatten
  if pVB.length < bytes.length then none
  else
    pure
      { pVB := overlay pVB bytes
        pIB := (List.range (uiTriCount * 3).toNat).map UInt32.ofNat
        uiVertCount := uiTriCount * 3
        uiTriCount := uiTriCount
        sMatName := objsub.sMatName
        uiVertexFmt := uiVertexFmt }

/-- Subsets without faces are left out. -/
def convertPart (objpart : MyObjPart) : Option TdModelPart := do
  let subsets ← (objpart.subSets.filter fun objsub => objsub.faces ≠ []).mapM (convertSubset floats obj)
  pure ⟨objpart.sName, subsets⟩

/-- Parts without subsets are left out. -/
def convertParts : Option (List TdModelPart) := do
  let parts ← obj.subParts.mapM (convertPart floats obj)
  pure (parts.filter fun part => part.Subsets ≠ [])

end Convert

/-! ### What the buffers hold -/

/-- A vertex as a vertex buffer holds it. -/
structure MeshVertex where
  position : Float3
  normal : Option Float3
  uv : Option Uv
  deriving DecidableEq, Inhabited

namespace MeshVertex

def has (x : MeshVertex) : Components := ⟨x.uv.isSome, x.normal.isSome⟩

def layout (x : MeshVertex) : List F32 :=
  [x.position.x, x.position.y, x.position.z] ++ (x.normal.elim [] fun n => [n.x, n.y, n.z]) ++
    x.uv.elim [] fun uv => [uv.u, uv.v]

def float3 (words : List F32) : Float3 := ⟨words.getD 0 default, words.getD 1 default, words.getD 2 default⟩

/-- What the vertex format says of floats that lie one behind the other. -/
def read (uiVertexFmt : UInt32) (words : List F32) : MeshVertex :=
  let normal := if uiVertexFmt &&& vfNormal ≠ 0 then some (float3 (words.drop 3)) else none
  let rest := words.drop (if uiVertexFmt &&& vfNormal ≠ 0 then 6 else 3)
  let uv := if uiVertexFmt &&& vfUv ≠ 0 then some ⟨rest.getD 0 default, rest.getD 1 default⟩ else none
  ⟨float3 words, normal, uv⟩

theorem vertexFmt_flags (has : Components) :
    (vertexFmt has &&& vfNormal ≠ 0 ↔ has.hasNormals = true) ∧ (vertexFmt has &&& vfUv ≠ 0 ↔ has.hasTexCoords = true) ∧
      (getVertexSize (vertexFmt has)).toNat =
        12 + (if has.hasNormals then 12 else 0) + if has.hasTexCoords then 8 else 0 := by
  obtain ⟨hasTexCoords, hasNormals⟩ := has
  cases hasTexCoords <;> cases hasNormals <;> decide

theorem read_layout (x : MeshVertex) : read (vertexFmt x.has) x.layout = x := by
  obtain ⟨normals, coords, -⟩ := vertexFmt_flags x.has
  obtain ⟨position, normal, uv⟩ := x
  unfold read
  simp only [normals, coords]
  cases normal <;> cases uv <;> rfl

theorem length_layout (x : MeshVertex) : x.layout.length * 4 = (getVertexSize (vertexFmt x.has)).toNat := by
  obtain ⟨-, -, size⟩ := vertexFmt_flags x.has
  rw [size]
  obtain ⟨position, normal, uv⟩ := x
  cases normal <;> cases uv <;> rfl

end MeshVertex

end ModelPublish.Obj

namespace ModelPublish.Scan
open Packed Obj Container

/-- The vertex that an index leads to. -/
def TdModelSubset.vertexAt (s : TdModelSubset) (i : UInt32) : MeshVertex :=
  let uiVertSize := (getVertexSize s.uiVertexFmt).toNat
  .read s.uiVertexFmt (F32.codec.decMany (uiVertSize / 4) (s.pVB.drop (i.toNat * uiVertSize)))

def TdModelSubset.triangles (s : TdModelSubset) : List (MeshVertex × MeshVertex × MeshVertex) :=
  triples ((s.pIB.take (3 * s.uiTriCount.toNat)).map s.vertexAt)

end ModelPublish.Scan
