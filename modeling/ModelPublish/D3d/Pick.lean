import ModelPublish.Container.Fan
import ModelPublish.Container.Pick
import ModelPublish.D3d.Model
import ModelPublish.Packed.Memory
import ModelPublish.Scan.Layout

/-!
# IntersectRay

The subset that a ray hits first, as against the triangles that are drawn.
-/

namespace ModelPublish.D3d
open Packed Scan Container

variable {Shader Texture : Type}

abbrev Triangle := Float3 × Float3 × Float3

/-- A subset where the loops come to it, in a part that is visible or not. -/
structure Owner (Shader : Type) where
  iPart : Nat
  iSubset : Nat
  bVisible : Bool
  subset : D3dModelSubset Shader
  deriving DecidableEq

def D3dModel.owners (d3dModel : D3dModel Shader Texture) : List (Owner Shader) :=
  d3dModel.Parts.zipIdx.flatMap fun (part, iPart) =>
    part.Subsets.zipIdx.map fun (subset, iSubset) => ⟨iPart, iSubset, part.bVisible, subset⟩

section Ray
variable (beyond : Nat → UInt8)

def iVertSize (mdlsub : TdModelSubset) : Nat := (getVertexSize mdlsub.uiVertexFmt).toNat / 4

/-- What is read as a position after `k` vertices, perhaps from behind the buffer. -/
def readPosition (mdlsub : TdModelSubset) (k : Nat) : Float3 :=
  Float3.codec.dec (fetch mdlsub.pVB beyond (4 * (k * iVertSize mdlsub)) 12)

/-- Three vertices a triangle, in the order of the buffer. -/
def readTriangles (mdlsub : TdModelSubset) : List Triangle :=
  (List.range mdlsub.uiTriCount.toNat).map fun iTri =>
    (readPosition beyond mdlsub (3 * iTri), readPosition beyond mdlsub (3 * iTri + 1),
      readPosition beyond mdlsub (3 * iTri + 2))

/-- What the ray hits, with the distances. -/
def hitlist (intersectTri : Triangle → Option F32) (model : D3dModel Shader Texture) :
    List (Option (Owner Shader) × F32) :=
  (hits (fun o => readTriangles beyond o.subset.pBase) intersectTri model.owners).map fun hit => (some hit.1, hit.2)

/-- The loop over the hits, from a null pointer at a distance of `FLT_MAX`. -/
def closest (hitlist : List (Option (Owner Shader) × F32)) : Option (Owner Shader) × F32 :=
  hitlist.foldl (fun closest hit => if hit.2.lt closest.2 then hit else closest) (none, .fltMax)

/-- What `*ppSubset` points to when the result is true. `D3DXIntersectTri` is given for one ray. -/
def intersectRay (intersectTri : Triangle → Option F32) (model : D3dModel Shader Texture) :
    Option (Option (Owner Shader)) :=
  let hitlist := hitlist beyond intersectTri model
  if hitlist.isEmpty then none else some (closest hitlist).1

end Ray

/-! ### What is drawn -/

/-- The position that an index leads to. -/
def positionAt (pVB : List UInt8) (uiVertSize : UInt32) (i : UInt32) : Float3 :=
  Float3.codec.dec ((pVB.drop (i.toNat * uiVertSize.toNat)).take 12)

/-- A triangle list with indices. -/
def indexed (pVB : List UInt8) (pIB : List UInt32) (uiVertSize uiTriCount : UInt32) : List Triangle :=
  triples ((pIB.take (3 * uiTriCount.toNat)).map (positionAt pVB uiVertSize))

def Draw.triangles (draw : Draw Shader Texture) : List Triangle :=
  indexed draw.vertexData draw.indexData draw.vertexSize draw.triangleCount

def D3dModelSubset.triangles (subset : D3dModelSubset Shader) : List Triangle :=
  indexed subset.pBase.pVB subset.pBase.pIB (getVertexSize subset.pBase.uiVertexFmt) subset.pBase.uiTriCount

def Owner.drawn (o : Owner Shader) : List Triangle :=
  if o.bVisible && o.subset.bVisible then o.subset.triangles else []

/-- The triangles that lie in the vertex buffer one behind the other. -/
def Owner.inBuffer (o : Owner Shader) : List Triangle :=
  readTriangles (fun _ => 0) o.subset.pBase

/-- All positions are read from inside the buffers. -/
def ReadsInside (model : D3dModel Shader Texture) : Prop :=
  ∀ o ∈ model.owners, ∀ k < 3 * o.subset.pBase.uiTriCount.toNat,
    4 * (k * iVertSize o.subset.pBase) + 12 ≤ o.subset.pBase.pVB.length

/-- What picking is to do with a model, a ray and a test. -/
structure PicksDrawn (beyond : Nat → UInt8) (intersectTri : Triangle → Option F32) (model : D3dModel Shader Texture) :
    Prop where
  inside : ReadsInside model
  hit : (intersectRay beyond intersectTri model).isSome = true ↔
    ∃ o ∈ model.owners, ∃ t ∈ o.drawn, ∃ d, intersectTri t = some d
  nearest : ∀ pSubset, intersectRay beyond intersectTri model = some pSubset → ∃ o ∈ model.owners, pSubset = some o ∧
    ∃ t ∈ o.drawn, ∃ d, intersectTri t = some d ∧ ∀ o' ∈ model.owners, ∀ t' ∈ o'.drawn, ∀ d',
      intersectTri t' = some d' → d.rank ≤ d'.rank

/-- All distances are numbers below `FLT_MAX`. -/
def Finite (intersectTri : Triangle → Option F32) : Prop :=
  ∀ t d, intersectTri t = some d → d.isNaN = false ∧ d.rank < F32.fltMax.rank

section Render
variable {double : F32 → F32} {device : Device Shader Texture} {textures : SortedMap Name (D3dModelTextureSlot Texture)}
  {draws : List (Draw Shader Texture)} {t : Triangle}

theorem renderSubset_triangles (passes : ∀ pShader, 0 < device.passes pShader) {subset : D3dModelSubset Shader}
    (rendered : renderSubset double device textures subset = some draws) :
    (∃ draw ∈ draws, t ∈ draw.triangles) ↔ subset.bVisible = true ∧ t ∈ subset.triangles := by
  unfold renderSubset at rendered
  split at rendered
  · rename_i visible
    obtain ⟨pShader, -, rfl⟩ := Option.map_eq_some_iff.mp rendered
    rw [and_iff_right visible]
    constructor
    · rintro ⟨draw, among, has⟩
      obtain rfl := List.eq_of_mem_replicate among
      exact has
    · intro has
      exact ⟨_, List.mem_replicate.mpr ⟨(passes pShader).ne', rfl⟩, has⟩
  · rename_i hidden
    cases rendered
    exact iff_of_false nofun fun both => hidden both.1

theorem renderPart_triangles (passes : ∀ pShader, 0 < device.passes pShader) {part : D3dModelPart Shader}
    (rendered : renderPart double device textures part = some draws) :
    (∃ draw ∈ draws, t ∈ draw.triangles) ↔
      part.bVisible = true ∧ ∃ subset ∈ part.Subsets, subset.bVisible = true ∧ t ∈ subset.triangles := by
  unfold renderPart at rendered
  split at rendered
  · rename_i visible
    rw [and_iff_right visible]
    exact exists_mapM_flatten (fun subset _ _ step => renderSubset_triangles passes step) rendered
  · rename_i hidden
    cases rendered
    exact iff_of_false nofun fun both => hidden both.1

theorem mem_drawn {o : Owner Shader} :
    t ∈ o.drawn ↔ o.bVisible = true ∧ o.subset.bVisible = true ∧ t ∈ o.subset.triangles := by
  unfold Owner.drawn
  split
  · rename_i visible
    obtain ⟨part, subset⟩ := Bool.and_eq_true_iff.mp visible
    rw [and_iff_right part, and_iff_right subset]
  · rename_i hidden
    apply iff_of_false List.not_mem_nil
    intro ⟨part, subset, _⟩
    exact hidden (Bool.and_eq_true_iff.mpr ⟨part, subset⟩)

theorem exists_drawn {d3dModel : D3dModel Shader Texture} :
    (∃ o ∈ d3dModel.owners, t ∈ o.drawn) ↔ ∃ part ∈ d3dModel.Parts,
      part.bVisible = true ∧ ∃ subset ∈ part.Subsets, subset.bVisible = true ∧ t ∈ subset.triangles := by
  constructor
  · intro ⟨o, among, has⟩
    obtain ⟨visible, here⟩ := mem_drawn.mp has
    obtain ⟨part, place, inside⟩ := List.mem_flatMap.mp among
    obtain ⟨subset, place', rfl⟩ := List.mem_map.mp inside
    exact ⟨part.1, List.fst_mem_of_mem_zipIdx place, visible, subset.1, List.fst_mem_of_mem_zipIdx place', here⟩
  · intro found
    obtain ⟨part, place, visible, among⟩ := exists_place found
    obtain ⟨subset, place', here⟩ := exists_place among
    refine ⟨⟨part.2, subset.2, part.1.bVisible, subset.1⟩, ?_, mem_drawn.mpr ⟨visible, here⟩⟩
    exact List.mem_flatMap.mpr ⟨part, place, List.mem_map.mpr ⟨subset, place', rfl⟩⟩

/-- The triangles that are drawn are those of the owners, if every shader has a pass. -/
theorem renderD3DModel_triangles (passes : ∀ pShader, 0 < device.passes pShader) {d3dModel : D3dModel Shader Texture}
    (rendered : renderD3DModel double device d3dModel = some draws) :
    (∃ draw ∈ draws, t ∈ draw.triangles) ↔ ∃ o ∈ d3dModel.owners, t ∈ o.drawn := by
  have walked := exists_mapM_flatten (P := fun draw => t ∈ draw.triangles)
    (fun part _ _ step => renderPart_triangles passes step) rendered
  rw [walked]
  exact exists_drawn.symm

end Render

/-! ### The loop over the hits -/

section Ray
variable {beyond : Nat → UInt8} {intersectTri : Triangle → Option F32} {model : D3dModel Shader Texture}

theorem readTriangles_inside (inside : ReadsInside model) {o : Owner Shader} (among : o ∈ model.owners) :
    readTriangles beyond o.subset.pBase = o.inBuffer := by
  have same : ∀ k < 3 * o.subset.pBase.uiTriCount.toNat,
      readPosition beyond o.subset.pBase k = readPosition (fun _ => 0) o.subset.pBase k := by
    intro k below
    have room := inside o among k below
    unfold readPosition
    rw [fetch_inside room, fetch_inside room]
  apply List.map_congr_left
  intro iTri member
  have below := List.mem_range.mp member
  rw [same _ (by omega), same _ (by omega), same _ (by omega)]

theorem hits_inside (inside : ReadsInside model) :
    hits (fun o => readTriangles beyond o.subset.pBase) intersectTri model.owners =
      hits Owner.inBuffer intersectTri model.owners := by
  apply List.flatMap_congr
  intro o among
  exact congrArg (List.filterMap _) (readTriangles_inside inside among)

theorem closest_eq {list : List (Option (Owner Shader) × F32)} {start : Option (Owner Shader) × F32}
    (number : start.2.isNaN = false) (numbers : ∀ hit ∈ list, hit.2.isNaN = false) :
    list.foldl (fun closest hit => if hit.2.lt closest.2 then hit else closest) start =
      runLeast (fun hit => hit.2.rank) start list := by
  induction list generalizing start with
  | nil => rfl
  | cons hit list ih =>
    obtain ⟨here, later⟩ := List.forall_mem_cons.mp numbers
    have less : hit.2.lt start.2 = decide (hit.2.rank < start.2.rank) := by
      rw [F32.lt, here, number]
      rfl
    rw [List.foldl_cons, less, runLeast_cons]
    simp only [decide_eq_true_eq]
    apply ih _ later
    split
    · exact here
    · exact number

theorem intersectRay_eq (finite : Finite intersectTri) (inside : ReadsInside model) :
    (intersectRay beyond intersectTri model = none ↔ hits Owner.inBuffer intersectTri model.owners = []) ∧
      ∀ pSubset, intersectRay beyond intersectTri model = some pSubset → ∃ o d, pSubset = some o ∧
        FirstLeast (fun hit => hit.2.rank) (o, d) (hits Owner.inBuffer intersectTri model.owners) := by
  have same : hitlist beyond intersectTri model =
      (hits Owner.inBuffer intersectTri model.owners).map fun hit => (some hit.1, hit.2) :=
    congrArg (List.map _) (hits_inside inside)
  have fine : ∀ hit ∈ hitlist beyond intersectTri model,
      hit.2.isNaN = false ∧ hit.2.rank < F32.fltMax.rank := by
    intro hit member
    rw [same] at member
    obtain ⟨⟨o, d⟩, found, rfl⟩ := List.mem_map.mp member
    obtain ⟨-, t, -, tested⟩ := mem_hits.mp found
    exact finite t d tested
  have empty : (hitlist beyond intersectTri model).isEmpty = true ↔
      hits Owner.inBuffer intersectTri model.owners = [] := by
    rw [List.isEmpty_iff, same]
    exact List.map_eq_nil_iff
  unfold intersectRay
  dsimp only
  by_cases missed : (hitlist beyond intersectTri model).isEmpty = true
  · rw [if_pos missed]
    exact ⟨iff_of_true rfl (empty.mp missed), nofun⟩
  · rw [if_neg missed]
    refine ⟨iff_of_false nofun (mt empty.mpr missed), ?_⟩
    intro pSubset result
    obtain ⟨hit, member⟩ := List.exists_mem_of_ne_nil _ (mt List.isEmpty_iff.mpr missed)
    have least := runLeast_first (r := fun hit : Option (Owner Shader) × F32 => hit.2.rank) (none, .fltMax)
      ⟨hit, member, (fine hit member).2⟩
    rw [← closest_eq rfl fun hit member => (fine hit member).1] at least
    change FirstLeast _ (closest (hitlist beyond intersectTri model)) _ at least
    rw [same] at least
    obtain ⟨⟨o, d⟩, found, least⟩ := least.of_map
    refine ⟨o, d, ?_, least⟩
    rw [← Option.some.inj result, same, found]

theorem picksDrawn_iff_picks (finite : Finite intersectTri) (inside : ReadsInside model) :
    PicksDrawn beyond intersectTri model ↔
      Picks F32.rank Owner.inBuffer Owner.drawn model.owners intersectTri := by
  obtain ⟨missed, picked⟩ := @intersectRay_eq _ _ beyond _ _ finite inside
  have found : (intersectRay beyond intersectTri model).isSome = true ↔
      hits Owner.inBuffer intersectTri model.owners ≠ [] := by
    rw [Option.isSome_iff_ne_none]
    exact not_congr missed
  constructor
  · intro h
    refine ⟨found.symm.trans h.hit, ?_⟩
    intro o d least
    obtain ⟨pSubset, result⟩ := Option.isSome_iff_exists.mp (found.mpr (List.ne_nil_of_mem least.mem))
    obtain ⟨o', d', same, least'⟩ := picked pSubset result
    obtain ⟨rfl, rfl⟩ := Prod.mk.inj (least.unique least')
    obtain ⟨o', -, same', nearest⟩ := h.nearest pSubset result
    obtain rfl := Option.some.inj (same.symm.trans same')
    exact nearest
  · intro h
    refine ⟨inside, found.trans h.hit, ?_⟩
    intro pSubset result
    obtain ⟨o, d, same, least⟩ := picked pSubset result
    exact ⟨o, (mem_hits.mp least.mem).1, same, h.nearest o d least⟩

/-- Picking is right for every test if and only if all is read inside the buffers, every triangle that is drawn lies in
some buffer, and the first subset with a triangle in its buffer draws it. -/
theorem picksDrawn_iff (beyond : Nat → UInt8) (model : D3dModel Shader Texture) :
    (∀ intersectTri, Finite intersectTri → PicksDrawn beyond intersectTri model) ↔
      ReadsInside model ∧ Pickable Owner.inBuffer Owner.drawn model.owners := by
  constructor
  · intro h
    have inside : ReadsInside model := (h (fun _ => none) nofun).inside
    refine ⟨inside, ?_⟩
    apply pickable_of_picks (r := F32.rank) (⟨0⟩ : F32)
    intro t
    have finite : Finite (hitsOnly t (⟨0⟩ : F32)) := by
      intro t' d tested
      obtain ⟨-, rfl⟩ := hitsOnly_eq_some.mp tested
      exact ⟨rfl, by decide⟩
    exact (picksDrawn_iff_picks finite inside).mp (h _ finite)
  · intro h intersectTri finite
    exact (picksDrawn_iff_picks finite h.1).mpr (h.2.picks intersectTri)

/-- The indices count from zero. -/
def InOrder (mdlsub : TdModelSubset) : Prop :=
  mdlsub.pIB.map UInt32.toNat = List.range (3 * mdlsub.uiTriCount.toNat)

theorem four_dvd_getVertexSize (uiVertexFmt : UInt32) : 4 ∣ (getVertexSize uiVertexFmt).toNat := by
  unfold getVertexSize
  split <;> split <;> split <;> decide

theorem triangles_inOrder (inside : ReadsInside model) {o : Owner Shader} (among : o ∈ model.owners)
    (inOrder : InOrder o.subset.pBase) : o.subset.triangles = o.inBuffer := by
  have long : o.subset.pBase.pIB.length = 3 * o.subset.pBase.uiTriCount.toNat := by
    have lengths := congrArg List.length inOrder
    rwa [List.length_map, List.length_range] at lengths
  have positions : o.subset.pBase.pIB.map (positionAt o.subset.pBase.pVB (getVertexSize o.subset.pBase.uiVertexFmt)) =
      (List.range (3 * o.subset.pBase.uiTriCount.toNat)).map (readPosition (fun _ => 0) o.subset.pBase) := by
    rw [← inOrder, List.map_map]
    apply List.map_congr_left
    intro i member
    have below : i.toNat < 3 * o.subset.pBase.uiTriCount.toNat := by
      apply List.mem_range.mp
      rw [← inOrder]
      exact List.mem_map_of_mem member
    have room := inside o among i.toNat below
    have stride : i.toNat * (getVertexSize o.subset.pBase.uiVertexFmt).toNat =
        4 * (i.toNat * iVertSize o.subset.pBase) := by
      obtain ⟨n, same⟩ := four_dvd_getVertexSize o.subset.pBase.uiVertexFmt
      rw [iVertSize, same, Nat.mul_div_cancel_left n (by omega), Nat.mul_left_comm]
    rw [positionAt, stride, Function.comp_apply, readPosition, fetch_inside room]
  rw [D3dModelSubset.triangles, indexed, List.take_of_length_le long.le, positions, map_range_corners, triples_corners]
  rfl

/-- A model of which all is visible is picked as it is drawn, if its indices count from zero. -/
theorem picksDrawn_of_inOrder (inside : ReadsInside model)
    (visible : ∀ o ∈ model.owners, o.bVisible = true ∧ o.subset.bVisible = true)
    (inOrder : ∀ o ∈ model.owners, InOrder o.subset.pBase) (finite : Finite intersectTri) :
    PicksDrawn beyond intersectTri model := by
  have same : ∀ o ∈ model.owners, o.drawn = o.inBuffer := by
    intro o among
    obtain ⟨part, subset⟩ := visible o among
    rw [Owner.drawn, part, subset, ← triangles_inOrder inside among (inOrder o among)]
    rfl
  refine (picksDrawn_iff beyond model).mpr ⟨inside, ?_, ?_⟩ intersectTri finite
  · intro o among t drawn
    exact ⟨o, among, same o among ▸ drawn⟩
  · intro before o after split t member _
    have among : o ∈ model.owners := by
      rw [split]
      exact List.mem_append_right _ List.mem_cons_self
    rw [same o among]
    exact member

end Ray

/-! ### A part that has been hidden -/

namespace Hidden

def device : Device Unit Unit := ⟨fun _ => some (), fun _ _ => none, fun _ => 1⟩

def zero : F32 := ⟨0⟩

def blank : D3dModelMaterial Unit :=
  ⟨none, none, default, default, zero, zero, zero, zero, [], [], [], [], [], 0, 0, 0, 0, 0⟩

def side : TdModelSubset := ⟨List.replicate 36 0, [0, 1, 2], 3, 1, ascii "red", vfPosition⟩

def shown : D3dModel Unit Unit := (createFromTDModel (fun _ => blank) (some device) triangle (.new default)).2

def hidden : D3dModel Unit Unit := { shown with Parts := shown.Parts.map fun part => { part with bVisible := false } }

def always (_ : Triangle) : Option F32 := some zero

/-- Nothing is drawn of the triangle, and it is hit. -/
theorem not_picksDrawn :
    Finite always ∧ (∀ s ∈ triangle.subsets, ∀ i ∈ s.pIB, i < s.uiVertCount) ∧ ReadsInside hidden ∧
      (renderD3DModel id device hidden).map List.length = some 0 ∧
      (intersectRay (fun _ => 0) always hidden).isSome = true ∧ ¬PicksDrawn (fun _ => 0) always hidden := by
  have nothing : ∀ o ∈ hidden.owners, o.drawn = [] := by decide
  have below : ∀ s ∈ triangle.subsets, ∀ i ∈ s.pIB, i < s.uiVertCount := by
    intro s member i among
    obtain rfl : s = side := List.mem_singleton.mp member
    have among : i ∈ [(0 : UInt32), 1, 2] := among
    simp only [List.mem_cons, List.not_mem_nil, or_false] at among
    rcases among with rfl | rfl | rfl <;> decide
  have hit : (intersectRay (fun _ => 0) always hidden).isSome = true := rfl
  refine ⟨?_, below, ?_, rfl, hit, ?_⟩
  · intro t d tested
    obtain rfl := Option.some.inj tested
    exact ⟨rfl, by decide⟩
  · unfold ReadsInside
    decide
  · intro picks
    obtain ⟨o, among, t, drawn, -⟩ := picks.hit.mp hit
    rw [nothing o among] at drawn
    exact absurd drawn List.not_mem_nil

end Hidden

end ModelPublish.D3d
