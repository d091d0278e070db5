import ModelPublish.Obj.Imported

/-!
# How far the vertex buffer is filled

One loop of `ConvertObjTo3DModel` counts triangles, for the size of `pVB`. Another moves a pointer through `pVB`, by
the vertices that the faces have.
-/

namespace ModelPublish.Obj
open Text Packed Scan Container

section Cursor
variable (has : Components) (faces : List MyFace)

/-- The bytes that the assignments for one vertex move the pointer on by. -/
def vertexSizes : List Nat :=
  12 :: ((if has.hasNormals then [12] else []) ++ if has.hasTexCoords then [8] else [])

/-- All assignments, in the order of the loops. -/
def writeSizes : List Nat :=
  faces.flatMap fun face => (fanPlaces face.vertIndex.length).flatMap fun _ => vertexSizes has

/-- Where the pointer stands after `k` assignments. -/
def cursor (k : Nat) : Nat := ((writeSizes has faces).take k).sum

end Cursor

/-- The size that is allocated, as it is computed. -/
def allocated (objsub : MyDrawBatch) : Nat :=
  (triCount objsub.faces * 3 * getVertexSize (vertexFmt objsub.has)).toNat

/-- The count is that of the triangles, the size does not wrap around, and the pointer stops at its end. -/
structure FilledExactly (objsub : MyDrawBatch) : Prop where
  count : (triCount objsub.faces).toNat = fanCount objsub.faces
  whole : allocated objsub = (triCount objsub.faces).toNat * 3 * (getVertexSize (vertexFmt objsub.has)).toNat
  inside : ∀ k, cursor objsub.has objsub.faces k ≤ allocated objsub
  ends : cursor objsub.has objsub.faces (writeSizes objsub.has objsub.faces).length = allocated objsub

theorem vertexSizes_sum (has : Components) : (vertexSizes has).sum = (getVertexSize (vertexFmt has)).toNat := by
  rw [(MeshVertex.vertexFmt_flags has).2.2]
  obtain ⟨hasTexCoords, hasNormals⟩ := has
  cases hasTexCoords <;> cases hasNormals <;> rfl

theorem length_fanPlaces (n : Nat) : (fanPlaces n).length = (n - 2) * 3 := by
  have three : ∀ k ∈ List.range (n - 2), [0, k + 1, k + 2].length = 3 := fun _ _ => rfl
  rw [fanPlaces, length_records three, List.length_range]

theorem writeSizes_sum (has : Components) (faces : List MyFace) :
    (writeSizes has faces).sum = fanCount faces * 3 * (getVertexSize (vertexFmt has)).toNat := by
  have places : ∀ ps : List Nat, (ps.flatMap fun _ => vertexSizes has).sum =
      ps.length * (getVertexSize (vertexFmt has)).toNat := by
    intro ps
    induction ps with
    | nil => exact (Nat.zero_mul _).symm
    | cons p ps ih => rw [List.flatMap_cons, List.sum_append, ih, vertexSizes_sum, List.length_cons,
        Nat.succ_mul, Nat.add_comm]
  induction faces with
  | nil => exact (by rw [fanCount, List.map_nil, List.sum_nil, Nat.zero_mul, Nat.zero_mul]; rfl)
  | cons face faces ih =>
    have fanCount_cons : fanCount (face :: faces) = face.vertIndex.length - 2 + fanCount faces := rfl
    have writeSizes_cons : writeSizes has (face :: faces) =
        ((fanPlaces face.vertIndex.length).flatMap fun _ => vertexSizes has) ++ writeSizes has faces := rfl
    rw [writeSizes_cons, List.sum_append, ih, places, length_fanPlaces, fanCount_cons, Nat.add_mul, Nat.add_mul]

theorem cursor_le (has : Components) (faces : List MyFace) (k : Nat) :
    cursor has faces k ≤ (writeSizes has faces).sum := by
  have parts := congrArg List.sum (List.take_append_drop k (writeSizes has faces))
  rw [List.sum_append] at parts
  rw [cursor]
  omega

theorem cursor_end (has : Components) (faces : List MyFace) :
    cursor has faces (writeSizes has faces).length = (writeSizes has faces).sum := by
  rw [cursor, List.take_length]

theorem convertVertex_length {floats : Floats} {obj : MyObj} {has : Components} {face : MyFace} {i : Nat}
    {words : List F32} (found : convertVertex floats obj has face i = some words) :
    words.length * 4 = (getVertexSize (vertexFmt has)).toNat := by
  obtain ⟨k, -, found⟩ := Option.bind_eq_some_iff.mp found
  obtain ⟨v, -, found⟩ := Option.bind_eq_some_iff.mp found
  obtain ⟨normal, normal_eq, found⟩ := Option.bind_eq_some_iff.mp found
  obtain ⟨uv, uv_eq, found⟩ := Option.bind_eq_some_iff.mp found
  have normals : normal.length = if has.hasNormals then 3 else 0 := by
    unfold convertNormal at normal_eq
    split at normal_eq
    · rename_i present
      obtain ⟨k, -, rest⟩ := Option.bind_eq_some_iff.mp normal_eq
      obtain ⟨n, -, rest⟩ := Option.bind_eq_some_iff.mp rest
      cases rest
      rw [if_pos present]
      rfl
    · rename_i absent
      cases normal_eq
      rw [if_neg absent]
      rfl
  have coords : uv.length = if has.hasTexCoords then 2 else 0 := by
    unfold convertUv at uv_eq
    split at uv_eq
    · rename_i present
      obtain ⟨k, -, rest⟩ := Option.bind_eq_some_iff.mp uv_eq
      obtain ⟨uv, -, rest⟩ := Option.bind_eq_some_iff.mp rest
      cases rest
      rw [if_pos present]
      rfl
    · rename_i absent
      cases uv_eq
      rw [if_neg absent]
      rfl
  cases found
  rw [List.length_append, List.length_append, normals, coords, (MeshVertex.vertexFmt_flags has).2.2]
  cases has.hasNormals <;> cases has.hasTexCoords <;> rfl

theorem fanCount_mul (faces : List MyFace) (k : Nat) :
    (faces.map fun face => (face.vertIndex.length - 2) * 3 * k).sum = fanCount faces * 3 * k := by
  induction faces with
  | nil => simp [fanCount]
  | cons face faces ih =>
    have fanCount_cons : fanCount (face :: faces) = face.vertIndex.length - 2 + fanCount faces := rfl
    rw [List.map_cons, List.sum_cons, ih, fanCount_cons, Nat.add_mul, Nat.add_mul]

theorem written_cursor {floats : Floats} {obj : MyObj} {has : Components} {faces : List MyFace}
    {written : List (List F32)} (converted : faces.mapM (convertFace floats obj has) = some written) :
    (F32.codec.encMany written.flatten).length = cursor has faces (writeSizes has faces).length := by
  have vertex : ∀ (face : MyFace) (i : Nat) words, convertVertex floats obj has face i = some words →
      words.length = (getVertexSize (vertexFmt has)).toNat / 4 := by
    intro face i words found
    have bytes := convertVertex_length found
    omega
  have each : ∀ face words, convertFace floats obj has face = some words →
      words.length = (face.vertIndex.length - 2) * 3 * ((getVertexSize (vertexFmt has)).toNat / 4) := by
    intro face words found
    obtain ⟨vertices, walked, rest⟩ := Option.bind_eq_some_iff.mp found
    cases rest
    rw [length_mapM_flatten (vertex face) walked, List.map_const', List.sum_replicate_nat, length_fanPlaces]
  have fours : (getVertexSize (vertexFmt has)).toNat / 4 * 4 = (getVertexSize (vertexFmt has)).toNat := by
    obtain ⟨hasTexCoords, hasNormals⟩ := has
    cases hasTexCoords <;> cases hasNormals <;> rfl
  have size : F32.codec.size = 4 := rfl
  rw [Codec.length_encMany, length_mapM_flatten each converted, size, fanCount_mul, cursor_end, writeSizes_sum,
    Nat.mul_assoc, fours]

theorem allocated_toNat (objsub : MyDrawBatch)
    (small : (triCount objsub.faces).toNat * 3 * (getVertexSize (vertexFmt objsub.has)).toNat < 2 ^ 32) :
    allocated objsub = (triCount objsub.faces).toNat * 3 * (getVertexSize (vertexFmt objsub.has)).toNat := by
  have size : 0 < (getVertexSize (vertexFmt objsub.has)).toNat := by
    rw [(MeshVertex.vertexFmt_flags _).2.2]
    omega
  have room := Nat.le_mul_of_pos_right ((triCount objsub.faces).toNat * 3) size
  have value : (3 : UInt32).toNat = 3 := rfl
  have indices : (triCount objsub.faces * 3).toNat = (triCount objsub.faces).toNat * 3 := by
    rw [UInt32.toNat_mul, value, Nat.mod_eq_of_lt (by omega)]
  rw [allocated, UInt32.toNat_mul, indices, Nat.mod_eq_of_lt small]

/-- The buffer is filled exactly when no face is short of two vertices, and the size is below 2^32. -/
theorem filledExactly_iff (objsub : MyDrawBatch) :
    FilledExactly objsub ↔ 2 ^ 32 ∣ missing objsub.faces ∧
      fanCount objsub.faces * 3 * (getVertexSize (vertexFmt objsub.has)).toNat < 2 ^ 32 := by
  have balance := triCount_missing objsub.faces
  have size : 0 < (getVertexSize (vertexFmt objsub.has)).toNat := by
    rw [(MeshVertex.vertexFmt_flags _).2.2]
    omega
  constructor
  · intro filled
    have small : fanCount objsub.faces * 3 * (getVertexSize (vertexFmt objsub.has)).toNat < 2 ^ 32 := by
      rw [← filled.count, ← filled.whole]
      exact UInt32.toNat_lt _
    refine ⟨?_, small⟩
    have count : triCount objsub.faces = UInt32.ofNat (fanCount objsub.faces) := by
      rw [← filled.count, UInt32.ofNat_toNat]
    have none : UInt32.ofNat (missing objsub.faces) = 0 := by
      rw [count] at balance
      simpa using balance
    have residue := congrArg UInt32.toNat none
    rw [UInt32.toNat_ofNat'] at residue
    exact Nat.dvd_of_mod_eq_zero residue
  · intro ⟨short, small⟩
    have none : UInt32.ofNat (missing objsub.faces) = 0 := by
      apply UInt32.toNat_inj.mp
      rw [UInt32.toNat_ofNat']
      exact Nat.mod_eq_zero_of_dvd short
    rw [none, UInt32.add_zero] at balance
    have room := Nat.le_mul_of_pos_right (fanCount objsub.faces * 3) size
    have count : (triCount objsub.faces).toNat = fanCount objsub.faces := by
      rw [balance]
      exact UInt32.toNat_ofNat_of_lt' (show _ < 2 ^ 32 by omega)
    have whole := allocated_toNat objsub (by rw [count]; exact small)
    have sizes : allocated objsub = (writeSizes objsub.has objsub.faces).sum := by
      rw [whole, writeSizes_sum, count]
    refine ⟨count, whole, fun k => ?_, ?_⟩
    · rw [sizes]
      exact cursor_le _ _ k
    · rw [sizes, cursor_end]

theorem FilledExactly.convertSubset {floats : Floats} {obj : MyObj} {objsub : MyDrawBatch}
    (filled : FilledExactly objsub)
    {written : List (List F32)} (converted : objsub.faces.mapM (convertFace floats obj objsub.has) = some written) :
    ∃ s, Obj.convertSubset floats obj objsub = some s ∧ s.pVB = F32.codec.encMany written.flatten := by
  have length : (F32.codec.encMany written.flatten).length =
      (List.replicate (triCount objsub.faces * 3 * getVertexSize (vertexFmt objsub.has)).toNat (0 : UInt8)).length := by
    rw [written_cursor converted, filled.ends, List.length_replicate, allocated]
  unfold Obj.convertSubset
  rw [converted]
  refine ⟨_, if_neg ?_, overlay_full length⟩
  rw [length]
  exact Nat.lt_irrefl _

/-! ### A face with one vertex -/

def onePoint : Chars := chars "f 1\n"

def onePointBatch : MyDrawBatch := ⟨[⟨[0], [-1], [-1]⟩], [], some false, some false⟩

theorem onePoint_loaded :
    (loadText Triangle.floats (fun _ => 0) onePoint).map (fun st => st.obj.subParts) =
      some [⟨chars "All", [onePointBatch]⟩] := by
  decide +kernel

/-- One point takes one triangle from a count of none. -/
theorem onePoint_overflows :
    (loadText Triangle.floats (fun _ => 0) onePoint).map (fun st => st.obj.subParts) =
      some [⟨chars "All", [onePointBatch]⟩] ∧ onePointBatch.faces ≠ [] ∧ ¬ FilledExactly onePointBatch := by
  refine ⟨onePoint_loaded, nofun, fun filled => ?_⟩
  have count := filled.count
  revert count
  decide

end ModelPublish.Obj
