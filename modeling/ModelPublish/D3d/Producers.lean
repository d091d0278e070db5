import ModelPublish.Obj.Mentions
import ModelPublish.Scan.Named
import ModelPublish.Scan.RoundTrip

/-!
# Where models come from

The two producers of models, and when the materials of what they make resolve. Neither looks whether the materials
that are used are also given.
-/

namespace ModelPublish.D3d
open Text Packed Scan Obj Container Machine

/-- A model that was made, with the material names that its subsets use and those that came with it. -/
inductive Produced : TdScanModel → List Name → List Name → Prop
  | imported {disk : Disk} {floats : MtlFloats} {stack : Stacks} {memory : NewModel} {sFileName : Chars}
      {model : TdScanModel} (made : importObj disk floats stack memory sFileName = some model) :
      Produced model (objMentions disk stack sFileName).used (givenMaterials disk stack sFileName)
  | loaded {target : Target} {src : Source} {memory : List Uninit} (accepted : (load target src memory).Accepted) :
      Produced (load target src memory).model
        ((walk target src.stream entryNode memory).filterMap (Visit.usedMaterial target))
        ((walk target src.stream entryNode memory).filterMap Visit.givenMaterial)

theorem importObj_without_library {disk : Disk} {floats : MtlFloats} {stack : Stacks} (memory : NewModel)
    (sFileName : Chars) {text : Chars} {st : Loading} {parts : List TdModelPart}
    (opened : disk.text sFileName = some text)
    (read : loadText floats.toFloats stack.obj text = some st) (unnamed : st.obj.sMtrlFilename = [])
    (converted : convertParts floats.toFloats st.obj = some parts) :
    ∃ model, importObj disk floats stack memory sFileName = some model ∧ model.Parts = parts ∧
      model.Materials = .empty := by
  have obj : loadObj2 disk floats stack sFileName = some (1, { st.obj with }) := by
    unfold loadObj2 loadLibrary
    rw [opened]
    dsimp only
    rw [read]
    show (if st.obj.sMtrlFilename = [] then _ else _) = _
    rw [if_pos unnamed]
  unfold importObj convertObjTo3DModel
  rw [obj]
  show ∃ model, (convertParts floats.toFloats st.obj >>= _) = some model ∧ _
  rw [converted]
  exact ⟨_, rfl, rfl, rfl⟩

section Materials
variable {Shader Texture : Type} {device : Device Shader Texture} {memory : Name → D3dModelMaterial Shader}
  {model : TdScanModel} {used given : List Name}

theorem Produced.keyed (produced : Produced model used given) : model.Keyed := by
  cases produced with
  | imported made => exact (importObj_materials made).1
  | @loaded target src memory accepted => exact (load_named target src memory).keyed

/-- Whichever of the two it was, a model names no material but those that are used, and has the given ones of them. -/
theorem Produced.has_iff (produced : Produced model used given) :
    (∀ s ∈ model.subsets, model.HasMaterial s.sMatName) ↔ ∀ name ∈ used, name ∈ given := by
  cases produced with
  | imported made =>
    obtain ⟨-, subsets, materials⟩ := importObj_materials made
    constructor
    · intro has name member
      obtain ⟨s, inside, rfl⟩ := (subsets name).mpr member
      exact ((materials _).mp (has s inside)).1
    · intro there s inside
      have member := (subsets s.sMatName).mp ⟨s, inside, rfl⟩
      exact (materials _).mpr ⟨there _ member, member⟩
  | @loaded target src memory accepted =>
    have named := load_named target src memory
    rw [← named.subsets, List.forall_mem_map]
    exact forall₂_congr fun s _ => named.materials _

/-- The materials of a model resolve if and only if all that are used are given: by the library of the OBJ file, or by
a chunk of the 3D scan file. -/
theorem produced_resolves_iff (produced : Produced model used given)
    (compiled : ∀ iMat < model.Materials.size, (device.createEffect iMat).isSome) (box : Float3 × Float3) :
    Resolves device memory model box ↔ ∀ name ∈ used, name ∈ given :=
  (resolves_iff produced.keyed compiled box).trans produced.has_iff

end Materials

namespace Scene

def device : Device Unit Unit := ⟨fun _ => some (), fun _ _ => none, fun _ => 1⟩

def material : D3dModelMaterial Unit :=
  ⟨none, none, default, default, default, default, default, default, [], [], [], [], [], 0, 0, 0, 0, 0⟩

/-- A file whose only material is the one that its subset names. -/
theorem triangle_resolves : ∃ (src : Source) (memory : List Uninit), (load .x64 src memory).Accepted ∧
    Resolves device (fun _ => material) (load .x64 src memory).model default ∧
      ∀ name ∈ (walk .x64 src.stream entryNode memory).filterMap (Visit.usedMaterial .x64),
        name ∈ (walk .x64 src.stream entryNode memory).filterMap Visit.givenMaterial := by
  obtain ⟨st, -, reload⟩ := load_save_triangle
  obtain ⟨halts, ends⟩ := reload (.file st.file.bytes) rfl
  obtain ⟨n, ended⟩ := halts fun _ => default
  obtain ⟨accepted, parts, materials, -⟩ := ends _ ended
  have compiled : ∀ iMat < (load .x64 (.file st.file.bytes) (take n fun _ => default)).model.Materials.size,
      (device.createEffect iMat).isSome := fun _ _ => rfl
  have has : ∀ s ∈ triangle.subsets, triangle.HasMaterial s.sMatName := by
    intro s member
    obtain rfl := List.mem_singleton.mp member
    exact List.mem_cons_self
  have resolves : Resolves device (fun _ => material)
      (load .x64 (.file st.file.bytes) (take n fun _ => default)).model default := by
    apply (resolves_iff (Produced.loaded accepted).keyed compiled default).mpr
    unfold TdScanModel.HasMaterial TdScanModel.subsets
    rw [parts, materials]
    exact has
  exact ⟨_, _, accepted, resolves, (produced_resolves_iff (.loaded accepted) compiled default).mp resolves⟩

def disk : Disk := ⟨fun _ => some (textOf [] (Mesh.statements .v)), fun _ => none⟩

def floats : MtlFloats := { Mesh.floats with atof := fun _ => default }

def stack : Stacks := ⟨fun _ => 0, fun _ => 0, fun _ => 0⟩

def new : NewModel := ⟨default, fun _ => default⟩

def parts : List TdModelPart := (convertParts Mesh.floats (Mesh.loaded .v)).getD []

theorem convertParts_face :
    convertParts Mesh.floats (Mesh.loaded .v) = some parts ∧ parts.flatMap TdModelPart.Subsets ≠ [] := by
  decide +kernel

/-- Its subset names a material that there is not. -/
theorem face_unresolved : ∃ model, importObj disk floats stack new (chars "box.obj") = some model ∧
    ¬ Resolves device (fun _ => material) model default := by
  obtain ⟨buffer, read⟩ := loadText_textOf floats.toFloats stack.obj (.inl (rfl : [] = []))
    (Mesh.wellFormed (.inl (rfl : Form.v = .v)))
  have opened : disk.text (chars "box.obj") = some (textOf [] (Mesh.statements .v)) := rfl
  obtain ⟨converted, some_subset⟩ := convertParts_face
  obtain ⟨model, imported, same, materials⟩ := importObj_without_library new _ opened read rfl converted
  refine ⟨model, imported, fun resolves => ?_⟩
  obtain ⟨s, member⟩ := List.exists_mem_of_ne_nil _ some_subset
  rw [← same] at member
  have has := resolves.keys s member
  unfold TdScanModel.HasMaterial at has
  rw [materials] at has
  cases has

end Scene

end ModelPublish.D3d
