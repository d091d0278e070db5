import ModelPublish.Container.Fan
import ModelPublish.D3d.Model

/-!
# Materials that resolve

`CreateFromTDModel` finds a shader for a subset when the name of its material is a key. Otherwise `operator []`
makes an entry whose shader is NULL.
-/

namespace ModelPublish.D3d
open Scan Container

variable {Shader Texture : Type} {device : Device Shader Texture} {memory : Name → D3dModelMaterial Shader}
  {textures : SortedMap Name (D3dModelTextureSlot Texture)} {a b : SortedMap Name (D3dModelMaterial Shader)}

/-! ### The entries that `operator []` makes -/

/-- Maps that show the same under every name, also under those they make entries for. -/
def SameLookups (memory : Name → D3dModelMaterial Shader) (a b : SortedMap Name (D3dModelMaterial Shader)) : Prop :=
  ∀ sMatName, (materialAt memory a sMatName).1 = (materialAt memory b sMatName).1

theorem materialAt_same (a : SortedMap Name (D3dModelMaterial Shader)) (sMatName : Name) :
    SameLookups memory (materialAt memory a sMatName).2 a := by
  intro other
  cases found : a.find? sMatName with
  | some mtrl =>
    unfold materialAt
    rw [found]
  | none =>
    by_cases same : other = sMatName
    · unfold materialAt
      rw [same, found]
      dsimp only
      rw [SortedMap.find?_insert_self]
    · unfold materialAt
      rw [found]
      dsimp only
      rw [SortedMap.find?_insert_ne _ _ same]
      cases a.find? other <;> rfl

theorem createSubset_same (textures : SortedMap Name (D3dModelTextureSlot Texture)) (same : SameLookups memory a b)
    (mdlsub : TdModelSubset) :
    (createSubset memory textures a mdlsub).1 = (createSubset memory textures b mdlsub).1 ∧
      SameLookups memory (createSubset memory textures a mdlsub).2 b := by
  refine ⟨?_, fun other => (materialAt_same a mdlsub.sMatName other).trans (same other)⟩
  unfold createSubset
  dsimp only
  rw [same mdlsub.sMatName]

/-- No subset sees what another one leaves in the map. -/
theorem createSubsets_same (textures : SortedMap Name (D3dModelTextureSlot Texture)) (same : SameLookups memory a b)
    (subsets : List TdModelSubset) :
    (createSubsets memory textures a subsets).1 = subsets.map (fun s => (createSubset memory textures b s).1) ∧
      SameLookups memory (createSubsets memory textures a subsets).2 b := by
  induction subsets generalizing a with
  | nil => exact ⟨rfl, same⟩
  | cons s subsets ih =>
    obtain ⟨first, same'⟩ := createSubset_same textures same s
    obtain ⟨rest, same''⟩ := ih same'
    exact ⟨congrArg₂ List.cons first rest, same''⟩

theorem createParts_same (same : SameLookups memory a b) (parts : List TdModelPart) :
    (createParts memory textures a parts).1 = parts.map fun part =>
      ⟨part.sName, true, false, part.Subsets.map fun s => (createSubset memory textures b s).1⟩ := by
  induction parts generalizing a with
  | nil => rfl
  | cons part parts ih =>
    obtain ⟨first, same'⟩ := createSubsets_same textures same part.Subsets
    refine congrArg₂ List.cons ?_ (ih same')
    rw [first]

/-! ### A model that is created -/

section Created
variable (device memory) (model : TdScanModel) (box : Float3 × Float3)

def created : D3dModel Shader Texture := (createFromTDModel memory (some device) model (.new box)).2

/-- The materials before any subset has looked for one. -/
def ownMaterials : SortedMap Name (D3dModelMaterial Shader) := createMaterials device memory model .empty

def ownTextures : SortedMap Name (D3dModelTextureSlot Texture) := createTextures device model .empty

theorem created_parts : (created device memory model box).Parts = model.Parts.map fun part =>
    ⟨part.sName, true, false, part.Subsets.map fun s =>
      (createSubset memory (ownTextures device model) (ownMaterials device memory model) s).1⟩ :=
  (List.nil_append _).trans (createParts_same (fun _ => rfl) model.Parts)

theorem created_subsets : (created device memory model box).subsets = model.subsets.map fun s =>
    (createSubset memory (ownTextures device model) (ownMaterials device memory model) s).1 := by
  unfold D3dModel.subsets TdScanModel.subsets
  rw [created_parts, List.flatMap_map, List.map_flatMap]

end Created

variable {model : TdScanModel}

theorem ownMaterials_some {sMatName : Name} {mtrl : D3dModelMaterial Shader} (keyed : model.Keyed)
    (found : (ownMaterials device memory model).find? sMatName = some mtrl) :
    ∃ iMat mdlmtrl, iMat < model.Materials.size ∧ (sMatName, mdlmtrl) ∈ model.Materials.entries ∧
      mtrl = createMaterial device memory iMat sMatName mdlmtrl := by
  obtain none | made := SortedMap.mem_insertMany (SortedMap.mem_of_find? _ found)
  · cases none
  · obtain ⟨iMat, inside, same⟩ := List.mem_mapIdx.mp made
    have member := List.getElem_mem inside
    obtain ⟨name, rfl⟩ := Prod.mk.inj same
    rw [keyed _ member] at name
    subst name
    exact ⟨iMat, _, inside, member, rfl⟩

theorem ownMaterials_isSome (device : Device Shader Texture) (memory : Name → D3dModelMaterial Shader)
    (keyed : model.Keyed) (sMatName : Name) :
    ((ownMaterials device memory model).find? sMatName).isSome ↔ model.HasMaterial sMatName := by
  unfold ownMaterials createMaterials
  rw [SortedMap.find?_insertMany_isSome, SortedMap.find?_empty, List.mem_map]
  constructor
  · rintro (none | ⟨_, made, rfl⟩)
    · cases none
    · obtain ⟨iMat, inside, rfl⟩ := List.mem_mapIdx.mp made
      have member := List.getElem_mem inside
      exact List.mem_map.mpr ⟨_, member, (keyed _ member).symm⟩
  · intro has
    obtain ⟨e, member, rfl⟩ := List.mem_map.mp has
    obtain ⟨iMat, inside, rfl⟩ := List.mem_iff_getElem.mp member
    exact .inr ⟨_, List.mem_mapIdx.mpr ⟨iMat, inside, rfl⟩, keyed _ member⟩

theorem shader_iff (keyed : model.Keyed) (compiled : ∀ iMat < model.Materials.size, (device.createEffect iMat).isSome)
    (s : TdModelSubset) :
    (createSubset memory textures (ownMaterials device memory model) s).1.material.pShader.isSome ↔
      model.HasMaterial s.sMatName := by
  rw [← ownMaterials_isSome device memory keyed]
  unfold createSubset materialAt
  cases found : (ownMaterials device memory model).find? s.sMatName with
  | none => exact iff_of_false nofun nofun
  | some mtrl =>
    obtain ⟨iMat, mdlmtrl, inside, -, rfl⟩ := ownMaterials_some keyed found
    exact iff_of_true (compiled iMat inside) rfl

/-! ### Drawing -/

def shaders (d3dModel : D3dModel Shader Texture) : List (Option Shader) :=
  d3dModel.subsets.map fun subset => subset.material.pShader

theorem render_isSome (double : F32 → F32) {d3dModel : D3dModel Shader Texture}
    (there : ∀ pShader ∈ shaders d3dModel, pShader.isSome) : (renderD3DModel double device d3dModel).isSome := by
  have subsets := List.forall_mem_flatMap.mp (List.forall_mem_map.mp there)
  unfold renderD3DModel
  rw [Option.isSome_map, mapM_isSome]
  intro part member
  unfold renderPart
  split
  · rw [Option.isSome_map, mapM_isSome]
    intro subset inside
    unfold renderSubset
    split
    · rw [Option.isSome_map]
      exact subsets part member subset inside
    · rfl
  · rfl

/-- The first drawing of a model looks for every shader. -/
theorem render_created (keyed : model.Keyed)
    (compiled : ∀ iMat < model.Materials.size, (device.createEffect iMat).isSome)
    (double : F32 → F32) (box : Float3 × Float3) :
    (renderD3DModel double device (created device memory model box)).isSome ↔
      ∀ s ∈ model.subsets, model.HasMaterial s.sMatName := by
  have each (s : TdModelSubset) : (renderSubset double device (created device memory model box).Textures
      (createSubset memory (ownTextures device model) (ownMaterials device memory model) s).1).isSome ↔
        model.HasMaterial s.sMatName := Option.isSome_map.symm ▸ shader_iff keyed compiled s
  unfold renderD3DModel TdScanModel.subsets
  rw [Option.isSome_map, mapM_isSome, created_parts, List.forall_mem_map, List.forall_mem_flatMap]
  apply forall₂_congr
  intro part _
  rw [renderPart, if_pos rfl, Option.isSome_map, mapM_isSome, List.forall_mem_map]
  exact forall₂_congr fun s _ => each s

/-- Every subset of a model finds its material and its shader, and no drawing of it looks for another one, whatever
has been done to the rest of it since. -/
structure Resolves (device : Device Shader Texture) (memory : Name → D3dModelMaterial Shader) (model : TdScanModel)
    (box : Float3 × Float3) : Prop where
  keys : ∀ s ∈ model.subsets, model.HasMaterial s.sMatName
  shaders : ∀ subset ∈ (created device memory model box).subsets, subset.material.pShader.isSome
  drawn : ∀ (double : F32 → F32) (d3dModel : D3dModel Shader Texture),
    D3d.shaders d3dModel = D3d.shaders (created device memory model box) →
      (renderD3DModel double device d3dModel).isSome

theorem resolves_iff (keyed : model.Keyed)
    (compiled : ∀ iMat < model.Materials.size, (device.createEffect iMat).isSome) (box : Float3 × Float3) :
    Resolves device memory model box ↔ ∀ s ∈ model.subsets, model.HasMaterial s.sMatName := by
  constructor
  · exact Resolves.keys
  · intro keys
    have there : ∀ subset ∈ (created device memory model box).subsets, subset.material.pShader.isSome := by
      rw [created_subsets]
      exact List.forall_mem_map.mpr fun s member => (shader_iff keyed compiled s).mpr (keys s member)
    refine ⟨keys, there, fun double d3dModel same => render_isSome double ?_⟩
    rw [same]
    exact List.forall_mem_map.mpr there

end ModelPublish.D3d
