import ModelPublish.Container.Least
import ModelPublish.Scan.Named

/-!
# The bounding box

The box that a model has when it has been loaded, as against the box of its vertices.
-/

namespace ModelPublish.Scan
open Packed Container ModelPublish.Stream Machine

/-! ### Boxes -/

def axes : List (Float3 → F32) := [Float3.x, Float3.y, Float3.z]

/-- A box whose corners are the least and the greatest coordinates of some positions. -/
def IsBox (box : Float3 × Float3) (positions : List Float3) : Prop :=
  ∀ axis ∈ axes, LeastOf F32.rank (axis box.1) (positions.map axis) ∧
    LeastOf (OrderDual.toDual ∘ F32.rank) (axis box.2) (positions.map axis)

/-- On every axis some coordinate is not `+∞`, and some is not `-∞`. -/
def Bounded (positions : List Float3) : Prop :=
  ∀ axis ∈ axes, (∃ p ∈ positions, (axis p).rank ≤ F32.fltMax.rank) ∧
    ∃ p ∈ positions, F32.negFltMax.rank ≤ (axis p).rank

/-- All coordinates are in the order of the floats. -/
def Numbers (positions : List Float3) : Prop := ∀ p ∈ positions, ∀ axis ∈ axes, (axis p).isNaN = false

def startBox : Float3 × Float3 := (⟨.fltMax, .fltMax, .fltMax⟩, ⟨.negFltMax, .negFltMax, .negFltMax⟩)

def boxOf (positions : List Float3) : Float3 × Float3 := positions.foldl widen startBox

/-- What lies where the vertices of a subset begin. -/
def TdModelSubset.positions (s : TdModelSubset) : List Float3 :=
  (List.range s.uiVertCount.toNat).map fun i =>
    Float3.codec.dec ((s.pVB.drop (i * (getVertexSize s.uiVertexFmt).toNat)).take 12)

def TdScanModel.positions (m : TdScanModel) : List Float3 := m.subsets.flatMap TdModelSubset.positions

def TdScanModel.box (m : TdScanModel) : Float3 × Float3 := (m.ptMin, m.ptMax)

/-- A subset whose vertices have positions and lie in its buffer, all of them. -/
structure TdModelSubset.Positioned (s : TdModelSubset) : Prop where
  format : s.uiVertexFmt &&& vfPosition ≠ 0
  room : s.vertexBytes ≤ s.pVB.length

def TdScanModel.Positioned (m : TdScanModel) : Prop := ∀ s ∈ m.subsets, s.Positioned

/-! ### The loop -/

theorem rank_fltMax_alone : ∀ c : F32, c.rank = F32.fltMax.rank → c = .fltMax := by
  rintro ⟨bits⟩ same
  have value : F32.fltMax.rank = 0x7F7FFFFF := by decide
  rw [value] at same
  unfold F32.rank at same
  dsimp only at same
  split at same
  · have number : bits.toNat = 0x7F7FFFFF := by omega
    exact congrArg F32.mk (UInt32.toNat_inj.mp number)
  · omega

theorem rank_negFltMax_alone : ∀ c : F32, c.rank = F32.negFltMax.rank → c = .negFltMax := by
  rintro ⟨bits⟩ same
  have value : F32.negFltMax.rank = -0x7F7FFFFF := by decide
  rw [value] at same
  unfold F32.rank at same
  dsimp only at same
  split at same
  · omega
  · have number : bits.toNat = 0xFF7FFFFF := by omega
    exact congrArg F32.mk (UInt32.toNat_inj.mp number)

theorem lt_of_numbers {a b : F32} (left : a.isNaN = false) (right : b.isNaN = false) :
    a.lt b = decide (a.rank < b.rank) := by
  rw [F32.lt, left, right]
  rfl

theorem widen_axis {axis : Float3 → F32} (member : axis ∈ axes) (box : Float3 × Float3) (p : Float3) :
    axis (widen box p).1 = (if (axis p).lt (axis box.1) then axis p else axis box.1) ∧
      axis (widen box p).2 = if (axis box.2).lt (axis p) then axis p else axis box.2 := by
  simp only [axes, List.mem_cons, List.not_mem_nil, or_false] at member
  rcases member with rfl | rfl | rfl <;> exact ⟨rfl, rfl⟩

theorem foldl_widen_axis {axis : Float3 → F32} (member : axis ∈ axes) {positions : List Float3}
    (numbers : Numbers positions) {box : Float3 × Float3} (low : (axis box.1).isNaN = false)
    (high : (axis box.2).isNaN = false) :
    axis (positions.foldl widen box).1 = runLeast F32.rank (axis box.1) (positions.map axis) ∧
      axis (positions.foldl widen box).2 =
        runLeast (OrderDual.toDual ∘ F32.rank) (axis box.2) (positions.map axis) := by
  induction positions generalizing box with
  | nil => exact ⟨rfl, rfl⟩
  | cons p rest ih =>
    have number := numbers p List.mem_cons_self axis member
    obtain ⟨first, second⟩ := widen_axis member box p
    rw [lt_of_numbers number low] at first
    rw [lt_of_numbers high number] at second
    have low' : (axis (widen box p).1).isNaN = false := by
      rw [first]
      split
      · exact number
      · exact low
    have high' : (axis (widen box p).2).isNaN = false := by
      rw [second]
      split
      · exact number
      · exact high
    obtain ⟨least, greatest⟩ := ih (fun q later => numbers q (List.mem_cons_of_mem p later)) low' high'
    rw [List.foldl_cons, least, greatest, first, second]
    simp only [decide_eq_true_eq]
    exact ⟨rfl, rfl⟩

/-- The loop finds the box when no axis has only infinite coordinates of one sign. -/
theorem isBox_boxOf_iff {positions : List Float3} (numbers : Numbers positions) :
    IsBox (boxOf positions) positions ↔ Bounded positions := by
  unfold IsBox Bounded
  apply forall₂_congr
  intro axis member
  have constants : axis startBox.1 = .fltMax ∧ axis startBox.2 = .negFltMax := by
    simp only [axes, List.mem_cons, List.not_mem_nil, or_false] at member
    rcases member with rfl | rfl | rfl <;> exact ⟨rfl, rfl⟩
  obtain ⟨low, high⟩ := constants
  have number : F32.fltMax.isNaN = false ∧ F32.negFltMax.isNaN = false := by
    constructor <;> rfl
  rw [← low, ← high] at number
  obtain ⟨least, greatest⟩ := foldl_widen_axis member numbers number.1 number.2
  have dual : ∀ c : F32, (OrderDual.toDual ∘ F32.rank) c = (OrderDual.toDual ∘ F32.rank) .negFltMax →
      c = .negFltMax := by
    intro c same
    exact rank_negFltMax_alone c (OrderDual.toDual_inj.mp same)
  rw [boxOf, least, greatest, low, high, leastOf_runLeast_iff rank_fltMax_alone, leastOf_runLeast_iff dual]
  simp only [List.mem_map, exists_exists_and_eq_and, Function.comp_apply, OrderDual.toDual_le_toDual]

/-! ### The box of a loaded model -/

theorem TdModelSubset.Positioned.inside {s : TdModelSubset} (h : s.Positioned) {i : Nat}
    (below : i < s.uiVertCount.toNat) : i * (getVertexSize s.uiVertexFmt).toNat + 12 ≤ s.vertexBytes := by
  have stride := le_getVertexSize_of_position h.format
  have behind : (i + 1) * (getVertexSize s.uiVertexFmt).toNat ≤
      s.uiVertCount.toNat * (getVertexSize s.uiVertexFmt).toNat := Nat.mul_le_mul_right _ below
  rw [Nat.succ_mul, Nat.mul_comm s.uiVertCount.toNat] at behind
  unfold TdModelSubset.vertexBytes
  omega

theorem vertexPositions_of_positioned {s : TdModelSubset} (h : s.Positioned) (beyond : Nat → UInt8) :
    vertexPositions beyond s.pVB (getVertexSize s.uiVertexFmt).toNat s.uiVertCount.toNat = s.positions := by
  apply List.map_congr_left
  intro i member
  rw [fetch_inside ((h.inside (List.mem_range.mp member)).trans h.room)]

theorem box_push {m : TdScanModel} (some_part : m.Parts ≠ [])
    (before : m.Positioned → m.box = boxOf m.positions) (beyond : Nat → UInt8) (s : TdModelSubset) :
    let box := (vertexPositions beyond s.pVB (getVertexSize s.uiVertexFmt).toNat s.uiVertCount.toNat).foldl widen
      (m.ptMin, m.ptMax)
    let after := { m with Parts := pushSubset m.Parts s, ptMin := box.1, ptMax := box.2 }
    after.Positioned → after.box = boxOf after.positions := by
  intro box after positioned
  obtain ⟨pushed, -⟩ := pushSubset_subsets some_part s
  have subsets : after.subsets = m.subsets ++ [s] := pushed
  unfold TdScanModel.Positioned at positioned
  rw [subsets, List.forall_mem_append, List.forall_mem_singleton] at positioned
  obtain ⟨first, last⟩ := positioned
  have start : (m.ptMin, m.ptMax) = boxOf m.positions := before first
  have widened : box = s.positions.foldl widen (m.ptMin, m.ptMax) := by
    rw [← vertexPositions_of_positioned last beyond]
  have positions : after.positions = m.positions ++ s.positions := by
    unfold TdScanModel.positions
    rw [subsets, List.flatMap_append, List.flatMap_singleton]
  have whole : after.box = box := rfl
  rw [whole, widened, start, positions, boxOf, boxOf, List.foldl_append]

/-- The box of a model that is being loaded is that of the vertices so far. -/
structure Boxed (st : LoadState) : Prop where
  box : st.model.Positioned → st.model.box = boxOf st.model.positions
  inPart : ∀ ofs back, st.pc = .subset ofs back → st.model.Parts ≠ []

section Steps
variable {st : LoadState} (u : Uninit) (h : Boxed st)
include h

theorem Boxed.same {st' : LoadState} (parts : st'.model.Parts = st.model.Parts) (box : st'.model.box = st.model.box)
    (outside : ∀ ofs back, st'.pc ≠ .subset ofs back) : Boxed st' where
  box := by
    unfold TdScanModel.Positioned TdScanModel.positions TdScanModel.subsets
    rw [parts, box]
    exact h.box
  inPart ofs back inside := absurd inside (outside ofs back)

theorem Boxed.rejected (stream : BaseStream) (events : List LoadEvent) : Boxed (st.reject stream events) :=
  h.same rfl rfl nofun

theorem boxed_loadHeader : Boxed (loadHeader u st) := by
  unfold loadHeader
  dsimp only
  split
  · exact h.rejected _ _
  · split
    · exact h.rejected _ _
    · exact ⟨fun _ => rfl, nofun⟩

theorem boxed_loadPart (ofs : Int32) : Boxed (loadPart u ofs st) := by
  unfold loadPart
  dsimp only
  split
  · exact h.rejected _ _
  · refine ⟨?_, fun _ _ _ => List.append_ne_nil_of_right_ne_nil _ (List.cons_ne_nil _ _)⟩
    have same : ∀ sName : Name, (st.model.Parts ++ [TdModelPart.mk sName []]).flatMap TdModelPart.Subsets =
        st.model.subsets := by
      intro sName
      rw [List.flatMap_append]
      exact List.append_nil _
    unfold TdScanModel.Positioned TdScanModel.positions
    rw [TdScanModel.subsets, same]
    exact h.box

theorem boxed_loadSubset (target : Target) (ofs back : Int32) (pc : st.pc = .subset ofs back) :
    Boxed (loadSubset target u ofs back st) := by
  unfold loadSubset
  dsimp only
  split
  · exact h.rejected _ _
  · split
    · exact h.rejected _ _
    · split
      · exact h.same rfl rfl nofun
      · have some_part := h.inPart ofs back pc
        exact ⟨box_push some_part h.box u.beyond _, fun _ _ _ => (pushSubset_subsets some_part _).2⟩

theorem boxed_loadMaterial (ofs : Int32) : Boxed (loadMaterial u ofs st) := by
  unfold loadMaterial
  dsimp only
  split
  · exact h.rejected _ _
  · exact h.same rfl rfl nofun

theorem boxed_loadTexture (ofs : Int32) : Boxed (loadTexture u ofs st) := by
  unfold loadTexture
  dsimp only
  split
  · exact h.rejected _ _
  · exact h.same rfl rfl nofun

theorem boxed_loadStep (target : Target) : Boxed (loadStep target u st) := by
  unfold loadStep
  split
  · exact boxed_loadHeader u h
  · split
    · exact boxed_loadPart u h _
    · exact h.same rfl rfl nofun
  · rename_i pc
    split
    · exact boxed_loadSubset u h target _ _ pc
    · exact h.same rfl rfl nofun
  · split
    · exact boxed_loadMaterial u h _
    · exact h.same rfl rfl nofun
  · split
    · exact boxed_loadTexture u h _
    · exact h.same rfl rfl nofun
  · exact h
  · exact h

end Steps

/-- In every run the box is that of the vertices, wherever it stops. -/
theorem load_box (target : Target) (src : Source) (memory : List Uninit)
    (positioned : (load target src memory).model.Positioned) :
    (load target src memory).model.box = boxOf (load target src memory).model.positions := by
  have start : Boxed src.entry := ⟨fun _ => rfl, nofun⟩
  have keep : ∀ u st, Boxed st → Boxed (loadStep target u st) := fun u st h => boxed_loadStep u h target
  have ends : Boxed (load target src memory) :=
    run_invariant keep start memory
  exact ends.box positioned

end ModelPublish.Scan
