import ModelPublish.D3d.Model
import ModelPublish.Obj.Materials
import ModelPublish.Scan.Box
import ModelPublish.Scan.Linkage

/-!
# The box of an imported model

`ConvertObjTo3DModel` sets no box. A saved model gets one when it is loaded again.
-/

namespace ModelPublish.Scan
open Packed Container ModelPublish.Stream Machine SaveEnv

/-! ### Copies of positions -/

theorem positions_take {s t : TdModelSubset} (h : s.Positioned) (format : t.uiVertexFmt = s.uiVertexFmt)
    (count : t.uiVertCount = s.uiVertCount) (buffer : t.pVB = s.pVB.take s.vertexBytes) :
    t.Positioned ∧ t.positions = s.positions := by
  have bytes : t.vertexBytes = s.vertexBytes := by
    unfold TdModelSubset.vertexBytes
    rw [format, count]
  refine ⟨⟨by rw [format]; exact h.format, ?_⟩, ?_⟩
  · rw [bytes, buffer, List.length_take]
    exact Nat.le_min.mpr ⟨Nat.le_refl _, h.room⟩
  · unfold TdModelSubset.positions
    rw [format, count, buffer]
    apply List.map_congr_left
    intro i member
    have inside := h.inside (List.mem_range.mp member)
    rw [List.drop_take, List.take_take, Nat.min_eq_left (Nat.le_sub_of_add_le' inside)]

section Copies
variable {env : SaveEnv}

theorem positions_subsetCopy {s : TdModelSubset} (small : s.payloadSize < payloadLimit) (h : s.Positioned)
    (next : Int32) : (env.subsetCopy next s).Positioned ∧ (env.subsetCopy next s).positions = s.positions := by
  have vertices := SubsetHeader.vbSize small (env.store s.payload) next
  have front : s.payload.take s.vertexBytes = copyOut s.pVB s.vertexBytes :=
    List.take_left' (length_copyOut _ _)
  have inside : copyOut s.pVB s.vertexBytes = s.pVB.take s.vertexBytes :=
    List.take_append_of_le_length h.room
  have buffer : (env.subsetCopy next s).pVB = s.pVB.take s.vertexBytes := by
    rw [subsetCopy, subsetOf, vertices, front, inside]
  exact positions_take h rfl rfl buffer

theorem flatMap_linked {β γ : Type} {size : β → Nat} {f : Nat × Int32 × β → List γ} {g : β → List γ} {items : List β}
    (ofs : Nat) (same : ∀ x : Nat × Int32 × β, x.2.2 ∈ items → f x = g x.2.2) :
    (linked size ofs items).flatMap f = items.flatMap g := by
  have values := linked_values size ofs items
  have inside : ∀ x ∈ linked size ofs items, x.2.2 ∈ items := forall_linked fun b member => member
  calc (linked size ofs items).flatMap f = (linked size ofs items).flatMap fun x => g x.2.2 :=
        List.flatMap_congr fun x member => same x (inside x member)
    _ = ((linked size ofs items).map fun x => x.2.2).flatMap g := (List.flatMap_map ..).symm
    _ = items.flatMap g := by rw [values]

theorem partsCopied_positions {m : TdScanModel} (fits : FitsFormat env m) (h : m.Positioned) {tails : List UInt8 → Prop}
    {parts : List TdModelPart} (copied : env.PartsCopied m tails parts) :
    (∀ s ∈ parts.flatMap TdModelPart.Subsets, s.Positioned) ∧
      (parts.flatMap TdModelPart.Subsets).flatMap TdModelSubset.positions = m.positions := by
  have copies : ∀ s ∈ m.subsets, ∀ next, (env.subsetCopy next s).Positioned ∧
      (env.subsetCopy next s).positions = s.positions := by
    intro s member next
    exact positions_subsetCopy (fits.subsets s member) (h s member) next
  have among : ∀ p ∈ m.Parts, ∀ s ∈ p.Subsets, s ∈ m.subsets := by
    intro p part s member
    exact List.mem_flatMap.mpr ⟨p, part, member⟩
  rw [copied_subsets copied]
  constructor
  · intro s member
    obtain ⟨x, part, copy⟩ := List.mem_flatMap.mp member
    obtain ⟨y, subset, rfl⟩ := List.mem_map.mp copy
    have inPart : x.2.2 ∈ m.Parts := forall_linked (fun b member => member) x part
    have inSubsets : y.2.2 ∈ x.2.2.Subsets := forall_linked (fun b member => member) y subset
    exact (copies y.2.2 (among _ inPart _ inSubsets) y.2.1).1
  · rw [List.flatMap_assoc, TdScanModel.positions, TdScanModel.subsets, List.flatMap_assoc]
    apply flatMap_linked
    intro x inPart
    rw [subsetCopies, List.flatMap_map]
    apply flatMap_linked
    intro y inSubsets
    exact (copies y.2.2 (among _ inPart _ inSubsets) y.2.1).2

end Copies

/-- A model of vertices in their buffers is loaded again with its positions, and with their box. -/
theorem load_save_box {env : SaveEnv} (hc : Lz4.CompressHC env.compress) {m : TdScanModel} (fits : FitsFormat env m)
    (chains : m.NoEmptyChain) (positioned : m.Positioned) (target : Target) :
    ∃ st, env.save3DScanModel true m = some (true, st) ∧ ∀ src : Source, src.bytes = st.file.bytes →
      ∀ memory, (load target src memory).Ended → (load target src memory).Accepted ∧
        (load target src memory).model.positions = m.positions ∧
        (load target src memory).model.box = boxOf m.positions := by
  obtain ⟨st, written, image, -⟩ := writeModel_image hc fits
  refine ⟨st, by rw [save3DScanModel, if_pos rfl, written]; rfl, fun src same memory ended => ?_⟩
  obtain ⟨-, ends⟩ := image_outcome id target hc fits chains src (same.trans image)
  obtain ⟨parts, copied, stands⟩ := ends memory ended
  have view : (load target src memory).model.Parts = parts := congrArg View.parts stands.view
  obtain ⟨there, positions⟩ := partsCopied_positions fits positioned copied
  rw [← view] at there positions
  refine ⟨stands.pc, positions, ?_⟩
  rw [load_box target src memory there]
  exact congrArg boxOf positions

end ModelPublish.Scan

namespace ModelPublish.D3d
open Scan

def D3dModel.box {Shader Texture : Type} (d3dModel : D3dModel Shader Texture) : Float3 × Float3 :=
  (d3dModel.ptMin, d3dModel.ptMax)

/-- The box that `CreateFromTDModel` copies. -/
def createdBox {Shader Texture : Type} (device : Device Shader Texture) (memory : Name → D3dModelMaterial Shader)
    (model : TdScanModel) (d3dModel : D3dModel Shader Texture) : Float3 × Float3 :=
  (createFromTDModel memory (some device) model d3dModel).2.box

theorem createdBox_eq {Shader Texture : Type} (device : Device Shader Texture)
    (memory : Name → D3dModelMaterial Shader) (model : TdScanModel) (d3dModel : D3dModel Shader Texture) :
    createdBox device memory model d3dModel = model.box := rfl

end ModelPublish.D3d

namespace ModelPublish.Obj
open Text Packed Scan Container D3d

section Import
variable {disk : Disk} {floats : Floats} {memory : NewModel} {obj : LoadedObj} {m : TdScanModel}

theorem convert_box (imported : convertObjTo3DModel disk floats memory obj = some m) : m.box = memory.box := by
  obtain ⟨parts, -, rest⟩ := Option.bind_eq_some_iff.mp imported
  cases rest
  rfl

theorem convert_chains (imported : convertObjTo3DModel disk floats memory obj = some m)
    (some_vertex : m.positions ≠ []) : m.NoEmptyChain := by
  obtain ⟨parts, converted, rest⟩ := Option.bind_eq_some_iff.mp imported
  cases rest
  refine ⟨?_, ?_⟩
  · intro none
    apply some_vertex
    rw [TdScanModel.positions, TdScanModel.subsets, none]
    rfl
  · intro part member
    obtain ⟨all, -, kept⟩ := Option.bind_eq_some_iff.mp converted
    cases kept
    exact of_decide_eq_true (List.mem_filter.mp member).2

variable {Shader Texture : Type}

/-- What is to hold of an imported model, of the same model loaded from its file, and of the boxes that are copied from
both. -/
structure BoxesRight (imported reloaded : TdScanModel) (box box' : Float3 × Float3) : Prop where
  imported : IsBox imported.box imported.positions
  reloaded : IsBox reloaded.box reloaded.positions
  same : box = box'

/-- The loader finds the box where it is bounded. The importer has it only if it lay in memory already. -/
theorem boxes_right_iff {env : SaveEnv} (hc : Lz4.CompressHC env.compress)
    (imported : convertObjTo3DModel disk floats memory obj = some m) (fits : FitsFormat env m)
    (positioned : m.Positioned) (some_vertex : m.positions ≠ []) (numbers : Numbers m.positions) (target : Target)
    (device : Device Shader Texture) (mtrls : Name → D3dModelMaterial Shader) (d3dModel : D3dModel Shader Texture) :
    (∀ src uninit, (load target src uninit).model.Positioned → Numbers (load target src uninit).model.positions →
      (IsBox (load target src uninit).model.box (load target src uninit).model.positions ↔
        Bounded (load target src uninit).model.positions)) ∧
    ∃ st, env.save3DScanModel true m = some (true, st) ∧ ∀ src : Source, src.bytes = st.file.bytes →
      ∀ uninit, (load target src uninit).Ended → (load target src uninit).Accepted ∧
        (BoxesRight m (load target src uninit).model (createdBox device mtrls m d3dModel)
            (createdBox device mtrls (load target src uninit).model d3dModel) ↔
          memory.box = boxOf m.positions ∧ Bounded m.positions) := by
  constructor
  · intro src uninit there finite
    rw [load_box target src uninit there]
    exact isBox_boxOf_iff finite
  obtain ⟨st, saved, loads⟩ := load_save_box hc fits (convert_chains imported some_vertex) positioned target
  refine ⟨st, saved, ?_⟩
  intro src same uninit ended
  obtain ⟨accepted, positions, box⟩ := loads src same uninit ended
  refine ⟨accepted, ?_⟩
  have old := convert_box imported
  constructor
  · intro right
    have reloaded := right.reloaded
    rw [box, positions] at reloaded
    have copied : m.box = (load target src uninit).model.box := right.same
    rw [old, box] at copied
    exact ⟨copied, (isBox_boxOf_iff numbers).mp reloaded⟩
  · rintro ⟨lucky, bounded⟩
    have right := (isBox_boxOf_iff numbers).mpr bounded
    refine ⟨?_, ?_, ?_⟩
    · rw [old, lucky]
      exact right
    · rw [box, positions]
      exact right
    · rw [createdBox_eq, createdBox_eq, old, lucky, box]

end Import

/-! ### A triangle -/

namespace Slope

def floats : Floats := ⟨fun _ => [], fun _ => default, id, fun f => ⟨f.bits ^^^ 0x80000000⟩⟩

def one : F32 := ⟨0x3F800000⟩
def zero : F32 := ⟨0⟩

def batch : MyDrawBatch := ⟨[⟨[0, 1, 2], [-1, -1, -1], [-1, -1, -1]⟩], chars "red", some false, some false⟩

def obj : LoadedObj where
  subParts := [⟨chars "All", [batch]⟩]
  vertices := [⟨zero, zero, zero⟩, ⟨one, zero, one⟩, ⟨zero, one, one⟩]
  normals := []
  uvs := []
  sMtrlFilename := []

def disk : Disk := ⟨fun _ => none, fun _ => none⟩

def memory (box : Float3 × Float3) : NewModel := ⟨box, fun _ => default⟩

def negZero : F32 := ⟨0x80000000⟩
def negOne : F32 := ⟨0xBF800000⟩

def subset : TdModelSubset where
  pVB := F32.codec.encMany [negZero, zero, zero, negOne, zero, one, negZero, one, one]
  pIB := [0, 1, 2]
  uiVertCount := 3
  uiTriCount := 1
  sMatName := chars "red"
  uiVertexFmt := 1

def model (box : Float3 × Float3) : TdScanModel := ⟨[⟨chars "All", [subset]⟩], .empty, .empty, box.1, box.2⟩

theorem converts (box : Float3 × Float3) :
    convertObjTo3DModel disk floats (memory box) obj = some (model box) := by
  rfl

theorem positions (box : Float3 × Float3) :
    (model box).positions = [⟨negZero, zero, zero⟩, ⟨negOne, zero, one⟩, ⟨negZero, one, one⟩] := by
  rfl

theorem positioned (box : Float3 × Float3) : (model box).Positioned := by
  intro s member
  rw [List.mem_singleton.mp (member : s ∈ [subset])]
  exact ⟨by decide, by decide⟩

theorem numbers (box : Float3 × Float3) : Numbers (model box).positions := by
  rw [positions]
  unfold Numbers
  decide

theorem bounded (box : Float3 × Float3) : Bounded (model box).positions := by
  rw [positions]
  unfold Bounded
  decide

def origin : Float3 := ⟨zero, zero, zero⟩

theorem fits (box : Float3 × Float3) : FitsFormat literalEnv (model box) := by
  have at_origin : FitsFormat literalEnv (model (origin, origin)) := ⟨by decide, by decide, by decide +kernel⟩
  exact ⟨at_origin.subsets, at_origin.textures, at_origin.size⟩

/-- In memory that holds zeros the box of the triangle is a point. -/
theorem not_isBox : ∃ m, convertObjTo3DModel disk floats (memory (origin, origin)) obj = some m ∧
    m.Positioned ∧ Numbers m.positions ∧ m.positions ≠ [] ∧ ¬IsBox m.box m.positions := by
  refine ⟨model (origin, origin), converts _, positioned _, numbers _, ?_, ?_⟩
  · rw [positions]
    exact List.cons_ne_nil _ _
  · intro isBox
    have greatest := (isBox Float3.y (List.mem_cons_of_mem _ List.mem_cons_self)).2.2 one (by rw [positions]; decide)
    exact absurd (OrderDual.toDual_le_toDual.mp greatest) (by decide)

def device : Device Unit Unit := ⟨fun _ => none, fun _ _ => none, fun _ => 0⟩

def blank : D3dModelMaterial Unit :=
  ⟨none, none, default, default, zero, zero, zero, zero, [], [], [], [], [], 0, 0, 0, 0, 0⟩

def right : Float3 × Float3 := (⟨negOne, zero, zero⟩, ⟨negZero, one, one⟩)

/-- In memory that holds the box already it is right. -/
theorem boxes_right : ∃ st, literalEnv.save3DScanModel true (model right) = some (true, st) ∧
    ∀ src : Source, src.bytes = st.file.bytes → ∀ uninit, (load .x64 src uninit).Ended →
      BoxesRight (model right) (load .x64 src uninit).model
        (createdBox device (fun _ => blank) (model right) (.new right))
        (createdBox device (fun _ => blank) (load .x64 src uninit).model (.new right)) := by
  have some_vertex : (model right).positions ≠ [] := by
    rw [positions]
    exact List.cons_ne_nil _ _
  obtain ⟨-, st, saved, loads⟩ := boxes_right_iff Lz4.compressHC_lastLiterals (converts right) (fits right)
    (positioned right) some_vertex (numbers right) .x64 device (fun _ => blank) (.new right)
  refine ⟨st, saved, ?_⟩
  intro src same uninit ended
  have box : (memory right).box = boxOf (model right).positions := by
    rw [positions]
    rfl
  exact (loads src same uninit ended).2.mpr ⟨box, bounded right⟩

end Slope

end ModelPublish.Obj
