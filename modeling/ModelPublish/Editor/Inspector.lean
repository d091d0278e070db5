import ModelPublish.D3d.Resolve
import ModelPublish.Scan.Linkage
import ModelPublish.Scan.RoundTrip
import ModelPublish.Scan.WellFormed

/-!
# The Object Inspector

Editing the materials of a model that is shown, saving it and opening the file again. The inspector changes the
materials in the subsets of the Direct3D model. What is saved is the model that these were made of.
-/

namespace ModelPublish.D3d
open Scan Container

/-- What the inspector shows of a material. -/
structure MaterialValues where
  clrAmbient : Float4Rgba
  clrDiffuse : Float4Rgba
  fTransparency : F32
  fSpecIntensity : F32
  fGlossiness : F32
  fReflectionFactor : F32
  sDiffuseTextureName : Name
  sNormalTextureName : Name
  sSpecularTextureName : Name
  sAlphaTextureName : Name
  sReflectionTextureName : Name
  deriving DecidableEq

def valuesOf (mdlmtrl : TdModelMaterial) : MaterialValues where
  clrAmbient := mdlmtrl.clrAmbient
  clrDiffuse := mdlmtrl.clrDiffuse
  fTransparency := mdlmtrl.fTransparency
  fSpecIntensity := mdlmtrl.fSpecIntensity
  fGlossiness := mdlmtrl.fGlossiness
  fReflectionFactor := mdlmtrl.fReflectionFactor
  sDiffuseTextureName := mdlmtrl.sDiffuseTextureName
  sNormalTextureName := mdlmtrl.sNormalTextureName
  sSpecularTextureName := mdlmtrl.sSpecularTextureName
  sAlphaTextureName := mdlmtrl.sAlphaTextureName
  sReflectionTextureName := mdlmtrl.sReflectionTextureName

variable {Shader Texture : Type}

def D3dModelMaterial.values (mtrl : D3dModelMaterial Shader) : MaterialValues where
  clrAmbient := mtrl.clrAmbient
  clrDiffuse := mtrl.clrDiffuse
  fTransparency := mtrl.fTransparency
  fSpecIntensity := mtrl.fSpecIntensity
  fGlossiness := mtrl.fGlossiness
  fReflectionFactor := mtrl.fReflectionFactor
  sDiffuseTextureName := mtrl.sDiffuseTextureName
  sNormalTextureName := mtrl.sNormalTextureName
  sSpecularTextureName := mtrl.sSpecularTextureName
  sAlphaTextureName := mtrl.sAlphaTextureName
  sReflectionTextureName := mtrl.sReflectionTextureName

/-- The values of all subsets, part by part. -/
def D3dModel.values (d3dModel : D3dModel Shader Texture) : List (List MaterialValues) :=
  d3dModel.Parts.map fun part => part.Subsets.map fun subset => subset.material.values

end ModelPublish.D3d

namespace ModelPublish.Editor
open Scan D3d Container Packed Machine

variable {Shader Texture : Type}

/-! ### The editor -/

/-- `m_pModel1`, `m_pd3dModel1` and `m_ppszTextureNames`. -/
structure State (Shader Texture : Type) where
  model : TdScanModel
  d3dModel : D3dModel Shader Texture
  textureNames : List Name

/-- The names as C strings, with an empty one at the end. -/
def fillTextureList (textures : SortedMap Name (D3dModelTextureSlot Texture)) : List Name :=
  (textures.entries.map fun e => cstr e.2.pBase.2) ++ [[]]

/-- The editor after `Load3DScanFile`, or after an import. -/
def opened (device : Device Shader Texture) (memory : Name → D3dModelMaterial Shader) (box : Float3 × Float3)
    (model : TdScanModel) : State Shader Texture where
  model := model
  d3dModel := created device memory model box
  textureNames := fillTextureList (created device memory model box).Textures

inductive TextureChoice where
  | diffuse
  | alpha
  | normal
  | specular
  | reflection
  deriving DecidableEq

/-- What the user does to the widgets of one subset. -/
inductive Edit where
  /-- `ColorEdit3` leaves the alpha as it is. -/
  | diffuseColor (r g b : F32)
  | ambientColor (r g b : F32)
  | glossiness (x : F32)
  | specularIntensity (x : F32)
  | transparency (x : F32)
  | reflection (x : F32)
  /-- an entry of a combo box -/
  | texture (choice : TextureChoice) (i : Nat)
  deriving DecidableEq

def TextureChoice.set (choice : TextureChoice) (i : Int32) (sName : Name) (mtrl : D3dModelMaterial Shader) :
    D3dModelMaterial Shader :=
  match choice with
  | diffuse => { mtrl with iDiffuseTex := i, sDiffuseTextureName := sName }
  | alpha => { mtrl with iAlphaTex := i, sAlphaTextureName := sName }
  | normal => { mtrl with iNormalTex := i, sNormalTextureName := sName }
  | specular => { mtrl with iSpecTex := i, sSpecularTextureName := sName }
  | reflection => { mtrl with iReflTex := i, sReflectionTextureName := sName }

def Edit.apply (textureNames : List Name) (edit : Edit) (mtrl : D3dModelMaterial Shader) : D3dModelMaterial Shader :=
  match edit with
  | diffuseColor r g b => { mtrl with clrDiffuse := ⟨r, g, b, mtrl.clrDiffuse.a⟩ }
  | ambientColor r g b => { mtrl with clrAmbient := ⟨r, g, b, mtrl.clrAmbient.a⟩ }
  | glossiness x => { mtrl with fGlossiness := x }
  | specularIntensity x => { mtrl with fSpecIntensity := x }
  | transparency x => { mtrl with fTransparency := x }
  | reflection x => { mtrl with fReflectionFactor := x }
  | texture choice i =>
    match textureNames[i]? with
    | some sName => choice.set (Int32.ofNat i) sName mtrl
    | none => mtrl

/-- `Parts [ iPart ].Subsets [ iSubset ]`. -/
structure Place where
  iPart : Nat
  iSubset : Nat
  deriving DecidableEq

def State.edit (st : State Shader Texture) (place : Place) (edit : Edit) : State Shader Texture :=
  { st with d3dModel := { st.d3dModel with
      Parts := st.d3dModel.Parts.modify place.iPart fun part => { part with
        Subsets := part.Subsets.modify place.iSubset fun subset =>
          { subset with material := edit.apply st.textureNames subset.material } } } }

def State.edits (st : State Shader Texture) (edits : List (Place × Edit)) : State Shader Texture :=
  edits.foldl (fun st e => st.edit e.1 e.2) st

/-- What is known of the average color of a texture that can be decoded goes into the model. -/
def calcTextureAverages (average : List UInt8 → UInt32 → Option Float4Rgba) (st : State Shader Texture) :
    State Shader Texture :=
  { st with model := { st.model with
      Textures := st.d3dModel.Textures.entries.foldl (fun textures e =>
        match textures.find? e.2.pBase.1 with
        | some slot =>
          match average slot.pData slot.uiSize with
          | some clrAvgColor => textures.insert e.2.pBase.1 { slot with clrAvgColor }
          | none => textures
        | none => textures) st.model.Textures } }

/-- The averages are computed when a file name is asked for. -/
def State.save (average : List UInt8 → UInt32 → Option Float4Rgba) (asks : Bool) (st : State Shader Texture) :
    State Shader Texture :=
  if asks then calcTextureAverages average st else st

/-! ### What a file keeps of the materials -/

/-- The materials of a file, under the names that its fields hold. -/
def storedMaterials (env : SaveEnv) (m : TdScanModel) : SortedMap Name TdModelMaterial :=
  .insertMany .empty ((env.materialCopies m).map fun c => (c.sName, c))

/-- The values that the file of a model has for each of its subsets, if its material has a name in the file. -/
def storedValues (env : SaveEnv) (m : TdScanModel) : List (List (Option MaterialValues)) :=
  (linked env.partSize 46 m.Parts).map fun x => (env.subsetCopies x.1 x.2.2).map fun s =>
    ((storedMaterials env m).find? s.sMatName).map valuesOf

/-- The subsets have the values of the file. -/
def Stores (env : SaveEnv) (m : TdScanModel) (d3dModel : D3dModel Shader Texture) : Prop :=
  d3dModel.values.map (List.map some) = storedValues env m

/-- After the model has been saved and its file opened again, every subset has the material it had. -/
def Survives (env : SaveEnv) (target : Target) (device : Device Shader Texture) (st : State Shader Texture) : Prop :=
  ∃ saved, env.save3DScanModel true st.model = some (true, saved) ∧
    ∀ src : Source, src.bytes = saved.file.bytes →
      Halts (loadStep target) LoadState.Ended src.entry ∧
        ∀ uninit, (load target src uninit).Ended → (load target src uninit).Accepted ∧
          ∀ memory box, (created device memory (load target src uninit).model box).values = st.d3dModel.values

/-! ### Edits do not reach the model -/

theorem edits_model (st : State Shader Texture) (edits : List (Place × Edit)) :
    (st.edits edits).model = st.model := by
  induction edits generalizing st with
  | nil => rfl
  | cons e edits ih => exact ih (st.edit e.1 e.2)

theorem save_model (average : List UInt8 → UInt32 → Option Float4Rgba) (asks : Bool) (st : State Shader Texture) :
    (st.save average asks).model.Parts = st.model.Parts ∧ (st.save average asks).model.Materials = st.model.Materials ∧
      (st.save average asks).d3dModel = st.d3dModel := by
  cases asks <;> exact ⟨rfl, rfl, rfl⟩

theorem storedValues_congr (env : SaveEnv) {m m' : TdScanModel} (parts : m.Parts = m'.Parts)
    (materials : m.Materials = m'.Materials) : storedValues env m = storedValues env m' := by
  obtain ⟨_, _, textures, _, _⟩ := m
  obtain ⟨_, _, textures', _, _⟩ := m'
  subst parts materials
  rfl

/-! ### What is created of a model -/

section Created
variable {device : Device Shader Texture} {memory : Name → D3dModelMaterial Shader} {model : TdScanModel}

theorem createSubset_values {textures : SortedMap Name (D3dModelTextureSlot Texture)} (keyed : model.Keyed)
    (s : TdModelSubset) :
    (createSubset memory textures (ownMaterials device memory model) s).1.material.values =
      ((model.Materials.find? s.sMatName).map valuesOf).getD (memory s.sMatName).construct.values := by
  unfold createSubset materialAt
  have known := ownMaterials_isSome device memory keyed s.sMatName
  cases found : (ownMaterials device memory model).find? s.sMatName with
  | none =>
    have missing : model.Materials.find? s.sMatName = none := by
      rw [found] at known
      refine Option.not_isSome_iff_eq_none.mp fun there => absurd (known.mpr ?_) nofun
      exact (model.Materials.find?_isSome_iff s.sMatName).mp there
    rw [missing]
    rfl
  | some mtrl =>
    obtain ⟨iMat, mdlmtrl, -, member, rfl⟩ := ownMaterials_some keyed found
    rw [model.Materials.find?_of_mem member]
    rfl

theorem created_values (keyed : model.Keyed) (box : Float3 × Float3) : (created device memory model box).values =
    model.Parts.map fun part => part.Subsets.map fun s =>
      ((model.Materials.find? s.sMatName).map valuesOf).getD (memory s.sMatName).construct.values := by
  unfold D3dModel.values
  rw [created_parts, List.map_map]
  apply List.map_congr_left
  intro part _
  show (part.Subsets.map _).map _ = _
  rw [List.map_map]
  exact List.map_congr_left fun s _ => createSubset_values keyed s

end Created

section Filled
variable {ι κ α : Type} {xs : List ι} {g : ι → List κ} {f : κ → Option α} {ys : List (List α)}

theorem filled_of_there (there : ys.map (List.map some) = xs.map fun x => (g x).map f) (d : κ → α) :
    (xs.map fun x => (g x).map fun s => (f s).getD (d s)) = ys := by
  have each : ∀ x ∈ xs, ∀ s ∈ g x, some ((f s).getD (d s)) = f s := by
    intro x inside s member
    have row : (g x).map f ∈ ys.map (List.map some) := there ▸ List.mem_map_of_mem inside
    obtain ⟨l, -, same⟩ := List.mem_map.mp row
    have cell : f s ∈ l.map some := same ▸ List.mem_map_of_mem member
    obtain ⟨v, -, found⟩ := List.mem_map.mp cell
    rw [← found]
    rfl
  apply List.map_injective_iff.mpr (List.map_injective_iff.mpr (Option.some_injective α))
  rw [there, List.map_map]
  apply List.map_congr_left
  intro x inside
  show ((g x).map _).map some = _
  rw [List.map_map]
  exact List.map_congr_left (each x inside)

theorem there_of_filled {a b : α} (different : a ≠ b) (left : (xs.map fun x => (g x).map fun s => (f s).getD a) = ys)
    (right : (xs.map fun x => (g x).map fun s => (f s).getD b) = ys) :
    ys.map (List.map some) = xs.map fun x => (g x).map f := by
  have rows := List.map_inj_left.mp (left.trans right.symm)
  have each : ∀ x ∈ xs, ∀ s ∈ g x, some ((f s).getD a) = f s := by
    intro x inside s member
    have same := List.map_inj_left.mp (rows x inside) s member
    cases found : f s with
    | none =>
      rw [found] at same
      exact absurd same different
    | some v => rfl
  rw [← left, List.map_map]
  apply List.map_congr_left
  intro x inside
  show ((g x).map _).map some = _
  rw [List.map_map]
  exact List.map_congr_left (each x inside)

end Filled

/-! ### The file that is opened again -/

section Reopened
variable {env : SaveEnv} {target : Target} {device : Device Shader Texture} {m : TdScanModel}

theorem reopened_values (device : Device Shader Texture) {tails : List UInt8 → Prop} {parts : List TdModelPart}
    (copied : env.PartsCopied m tails parts) {model : TdScanModel} (same : model.Parts = parts)
    (materials : model.Materials = storedMaterials env m)
    (memory : Name → D3dModelMaterial Shader) (box : Float3 × Float3) :
    (created device memory model box).values =
      (linked env.partSize 46 m.Parts).map fun x => (env.subsetCopies x.1 x.2.2).map fun s =>
        (((storedMaterials env m).find? s.sMatName).map valuesOf).getD (memory s.sMatName).construct.values := by
  have keyed : model.Keyed := by
    unfold TdScanModel.Keyed
    rw [materials]
    intro e member
    obtain none | made := SortedMap.mem_insertMany member
    · cases none
    · obtain ⟨c, -, rfl⟩ := List.mem_map.mp made
      rfl
  rw [created_values keyed, same, materials]
  unfold SaveEnv.PartsCopied at copied
  generalize linked env.partSize 46 m.Parts = items at copied ⊢
  clear same
  induction copied with
  | nil => rfl
  | cons head tail ih =>
    obtain ⟨bytes, -, rfl⟩ := head
    exact congrArg₂ List.cons rfl ih

def lit (x : F32) : D3dModelMaterial Shader :=
  ⟨none, none, default, default, default, default, x, default, [], [], [], [], [], 0, 0, 0, 0, 0⟩

theorem survives_iff (hc : Lz4.CompressHC env.compress) {st : State Shader Texture} (fits : FitsFormat env st.model) :
    Survives env target device st ↔ st.model.NoEmptyChain ∧ Stores env st.model st.d3dModel := by
  obtain ⟨saved, written, image, -⟩ := SaveEnv.writeModel_image hc fits
  have save : env.save3DScanModel true st.model = some (true, saved) := by
    rw [SaveEnv.save3DScanModel, if_pos rfl, written]
    rfl
  constructor
  · rintro ⟨saved', save', reload⟩
    obtain rfl : saved = saved' := (Prod.mk.inj (Option.some.inj (save.symm.trans save'))).2
    obtain ⟨halts, ends⟩ := reload (.file saved.file.bytes) rfl
    have chains : st.model.NoEmptyChain := by
      by_contra empty
      apply not_accepted_image hc fits target (.file saved.file.bytes) image empty
      intro input
      obtain ⟨n, ended⟩ := halts input
      exact ⟨n, (ends _ ended).1⟩
    refine ⟨chains, ?_⟩
    obtain ⟨-, outcome⟩ := image_outcome id target hc fits chains (.file saved.file.bytes) image
    obtain ⟨n, ended⟩ := halts fun _ => default
    obtain ⟨parts, copied, stands⟩ := outcome _ ended
    have values := (ends _ ended).2
    have view : (load target (.file saved.file.bytes) (take n fun _ => default)).model.Parts = parts :=
      congrArg View.parts stands.view
    have with_memory (x : F32) := (reopened_values device copied view stands.materials
      (fun _ => lit x) default).symm.trans (values _ default)
    have different : (lit ⟨0⟩ : D3dModelMaterial Shader).construct.values ≠
        (lit ⟨1⟩ : D3dModelMaterial Shader).construct.values := by
      intro same
      have glossiness : (⟨0⟩ : F32) = ⟨1⟩ := congrArg MaterialValues.fGlossiness same
      exact absurd glossiness (by decide)
    exact there_of_filled different (with_memory ⟨0⟩) (with_memory ⟨1⟩)
  · rintro ⟨chains, stores⟩
    refine ⟨saved, save, fun src same => ?_⟩
    obtain ⟨halts, outcome⟩ := image_outcome id target hc fits chains src (same.trans image)
    refine ⟨halts, fun uninit ended => ?_⟩
    obtain ⟨parts, copied, stands⟩ := outcome _ ended
    refine ⟨stands.pc, fun memory box => ?_⟩
    have view : (load target src uninit).model.Parts = parts := congrArg View.parts stands.view
    rw [reopened_values device copied view stands.materials]
    exact filled_of_there stores fun s => (memory s.sMatName).construct.values

/-- Edits of the subsets of a model survive if and only if the file can be opened again and they leave every subset as
the file of the unedited model has it. -/
theorem edits_survive_iff (hc : Lz4.CompressHC env.compress) (memory : Name → D3dModelMaterial Shader)
    (box : Float3 × Float3) (model : TdScanModel) (edits : List (Place × Edit))
    (average : List UInt8 → UInt32 → Option Float4Rgba) (asks : Bool)
    (fits : FitsFormat env (((opened device memory box model).edits edits).save average asks).model) :
    Survives env target device (((opened device memory box model).edits edits).save average asks) ↔
      model.NoEmptyChain ∧ Stores env model ((opened device memory box model).edits edits).d3dModel := by
  obtain ⟨parts, materials, shown⟩ := save_model average asks ((opened device memory box model).edits edits)
  have unedited : ((opened device memory box model).edits edits).model = model := edits_model _ edits
  rw [unedited] at parts materials
  rw [survives_iff hc fits, TdScanModel.NoEmptyChain, parts, Stores, shown, storedValues_congr env parts materials]
  rfl

end Reopened

/-! ### Names that fit -/

/-- Materials lie under their names, and all names leave room for a terminator in their fields. -/
structure NamesFit (m : TdScanModel) : Prop where
  keyed : m.Keyed
  subsets : ∀ p ∈ m.Parts, ∀ s ∈ p.Subsets, ShortName s.sMatName
  materials : ∀ e ∈ m.Materials.entries, ShortName e.2.sName ∧ ∀ name ∈ e.2.textureNames, ShortName name

section Unchanged
variable {env : SaveEnv} {device : Device Shader Texture} {memory : Name → D3dModelMaterial Shader} {m : TdScanModel}

theorem storedMaterials_eq (fit : NamesFit m) : storedMaterials env m = m.Materials := by
  have copies : env.materialCopies m = m.materialList := by
    refine (map_linked (g := id) (fun next b member => ?_) _).trans (List.map_id _)
    obtain ⟨e, inside, rfl⟩ := List.mem_map.mp member
    exact materialCopy_short (fit.materials e inside).1 (fit.materials e inside).2 next
  unfold storedMaterials
  rw [copies]
  exact SortedMap.empty_insertMany_values fun e inside => (fit.keyed e inside).symm

theorem storedValues_eq (fit : NamesFit m) : storedValues env m =
    m.Parts.map fun part => part.Subsets.map fun s => (m.Materials.find? s.sMatName).map valuesOf := by
  have copies (ofs : Nat) (p : TdModelPart) (member : p ∈ m.Parts) :
      (env.subsetCopies ofs p).map TdModelSubset.sMatName = p.Subsets.map TdModelSubset.sMatName := by
    rw [SaveEnv.subsetCopies, List.map_map]
    refine map_linked (f := fun next s => (env.subsetCopy next s).sMatName) (fun next s inside => ?_) _
    exact nameAt_short FileSubset.matName_field (fit.subsets p member s inside) rfl []
  unfold storedValues
  rw [storedMaterials_eq fit]
  conv => rhs; rw [← linked_values env.partSize 46 m.Parts]
  rw [List.map_map]
  apply List.map_congr_left
  intro x member
  have inside : x.2.2 ∈ m.Parts := forall_linked (P := fun p => p ∈ m.Parts) (fun _ h => h) x member
  have names := congrArg (List.map fun name => (m.Materials.find? name).map valuesOf) (copies x.1 x.2.2 inside)
  rw [List.map_map, List.map_map] at names
  exact names

/-- When names fit and materials resolve, the file has the values that the subsets had when the model was opened. -/
theorem stores_iff_unchanged (device : Device Shader Texture) (memory : Name → D3dModelMaterial Shader)
    (fit : NamesFit m)
    (has : ∀ s ∈ m.subsets, m.HasMaterial s.sMatName) (box : Float3 × Float3) (d3dModel : D3dModel Shader Texture) :
    Stores env m d3dModel ↔ d3dModel.values = (created device memory m box).values := by
  have own : Stores env m (created device memory m box) := by
    unfold Stores
    rw [storedValues_eq fit, created_values fit.keyed, List.map_map]
    apply List.map_congr_left
    intro part member
    show (part.Subsets.map _).map some = _
    rw [List.map_map]
    apply List.map_congr_left
    intro s inside
    have key := has s (List.mem_flatMap.mpr ⟨part, member, inside⟩)
    obtain ⟨mdlmtrl, found⟩ := Option.isSome_iff_exists.mp ((m.Materials.find?_isSome_iff s.sMatName).mpr key)
    show some (((m.Materials.find? s.sMatName).map valuesOf).getD _) = _
    rw [found]
    rfl
  constructor
  · intro stores
    exact List.map_injective_iff.mpr (List.map_injective_iff.mpr (Option.some_injective _)) (stores.trans own.symm)
  · intro same
    unfold Stores
    rw [same]
    exact own

end Unchanged

namespace Session

def device : Device Unit Unit := ⟨fun _ => some (), fun _ _ => none, fun _ => 1⟩

def start : State Unit Unit := opened device (fun _ => lit ⟨0⟩) default triangle

def glossiness (x : UInt32) : Place × Edit := (⟨0, 0⟩, .glossiness ⟨x⟩)

theorem namesFit : NamesFit triangle where
  keyed := by
    intro e member
    obtain rfl := List.mem_singleton.mp member
    rfl
  subsets := by decide
  materials := by decide

theorem resolved : ∀ s ∈ triangle.subsets, triangle.HasMaterial s.sMatName := by
  intro s member
  obtain rfl := List.mem_singleton.mp member
  exact List.mem_cons_self

/-- An edit that is taken back survives. -/
theorem undone_edit_survives :
    Survives literalEnv .x64 device ((start.edits [glossiness 5, glossiness 0]).save (fun _ _ => none) false) := by
  refine (edits_survive_iff Lz4.compressHC_lastLiterals (fun _ => lit ⟨0⟩) default triangle _ _ _
    fitsFormat_triangle).mpr ⟨by decide, ?_⟩
  refine (stores_iff_unchanged device (fun _ => lit ⟨0⟩) namesFit resolved default _).mpr ?_
  decide +kernel

/-- Any other is lost. -/
theorem edit_lost : ¬ Survives literalEnv .x64 device ((start.edits [glossiness 5]).save (fun _ _ => none) false) := by
  intro survives
  obtain ⟨-, stores⟩ := (survives_iff Lz4.compressHC_lastLiterals fitsFormat_triangle).mp survives
  have same := (stores_iff_unchanged device (fun _ => lit ⟨0⟩) namesFit resolved default _).mp stores
  exact absurd same (by decide +kernel)

end Session

end ModelPublish.Editor
