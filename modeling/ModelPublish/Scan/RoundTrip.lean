import ModelPublish.Scan.Reread

/-!
# What is saved is loaded

For models whose names fit their fields, the copies the reader takes are the items themselves.
-/

namespace ModelPublish.Scan
open Packed Container ModelPublish.Stream Machine SaveEnv

/-- A name whose terminator still fits its field. -/
def ShortName (s : Name) : Prop := NulFree s ∧ s.length < 32

instance (s : Name) : Decidable (ShortName s) := inferInstanceAs (Decidable (_ ∧ _))

/-- A subset whose buffers have the sizes its counts ask for. -/
structure TdModelSubset.Exact (s : TdModelSubset) : Prop where
  position : s.uiVertexFmt &&& vfPosition ≠ 0
  vertices : s.pVB.length = s.vertexBytes
  indices : s.pIB.length = 3 * s.uiTriCount.toNat
  name : ShortName s.sMatName

/-- The models a file can hold without loss. -/
structure Lossless (env : SaveEnv) (m : TdScanModel) : Prop extends FitsFormat env m where
  chains : m.NoEmptyChain
  parts : ∀ p ∈ m.Parts, ShortName p.sName
  exact : ∀ p ∈ m.Parts, ∀ s ∈ p.Subsets, s.Exact
  materials : ∀ e ∈ m.Materials.entries, e.1 = e.2.sName ∧ ShortName e.2.sName ∧
    ∀ name ∈ e.2.textureNames, ShortName name
  textureSlots : ∀ e ∈ m.Textures.entries, e.1 = e.2.sName ∧ ShortName e.2.sName ∧
    e.2.pData.length = e.2.uiSize.toNat

theorem nameAt_short {α : Type} {c : Codec α} {ofs : Nat} {get : α → List.Vector UInt8 32}
    (field : c.HasField (Codec.bytes 32) ofs get) {h : α} {name : Name} (short : ShortName name)
    (saved : get h = strncpy 32 name) (tail : List UInt8) : nameAt c h ofs tail = name := by
  rw [nameAt_field field, saved, cstr_strncpy_short short.1 short.2]

theorem map_linked {β γ : Type} {size : β → Nat} {f : Int32 → β → γ} {g : β → γ} {items : List β}
    (h : ∀ next, ∀ b ∈ items, f next b = g b) (ofs : Nat) :
    (linked size ofs items).map (fun x => f x.2.1 x.2.2) = items.map g := by
  induction items generalizing ofs with
  | nil => rfl
  | cons b rest ih =>
    rw [linked, List.map_cons, List.map_cons, h _ b List.mem_cons_self,
      ih (fun next b member => h next b (List.mem_cons_of_mem _ member))]

section Copies
variable {env : SaveEnv}

theorem subsetCopy_exact {s : TdModelSubset} (fits : s.payloadSize < payloadLimit) (h : s.Exact)
    (next : Int32) : env.subsetCopy next s = s := by
  have vertices := SubsetHeader.vbSize fits (env.store s.payload) next
  have indices : (subsetHeader s (env.store s.payload) next).ibCount = s.pIB.length := by
    have words := SubsetHeader.ibCount fits (env.store s.payload) next
    rw [TdModelSubset.indexBytes] at words
    have := h.indices
    omega
  have bytes : (indexImage s.pIB).length = s.indexBytes := by
    rw [indexImage, Codec.length_encMany, h.indices, TdModelSubset.indexBytes, Codec.size_u32]
    omega
  have pVB : s.payload.take s.vertexBytes = s.pVB := by
    rw [TdModelSubset.payload, copyOut_exact h.vertices, ← h.vertices, List.take_left]
  have pIB : s.payload.drop s.vertexBytes = indexImage s.pIB ++ [] := by
    rw [TdModelSubset.payload, copyOut_exact h.vertices, ← h.vertices, List.drop_left,
      copyOut_exact bytes, List.append_nil]
  have name : nameAt FileSubset.codec (subsetHeader s (env.store s.payload) next) 10 [] = s.sMatName :=
    nameAt_short FileSubset.matName_field h.name rfl []
  rw [subsetCopy, subsetOf, vertices, indices, pVB, pIB, indexImage, Codec.decMany_encMany, name]
  rfl

theorem materialCopy_short {m : TdModelMaterial} (name : ShortName m.sName)
    (textures : ∀ name ∈ m.textureNames, ShortName name) (next : Int32) :
    materialCopy next m = m := by
  simp only [TdModelMaterial.textureNames, List.forall_mem_cons] at textures
  obtain ⟨diffuse, alpha, reflection, specular, normal, -⟩ := textures
  rw [materialCopy, materialOf, nameAt_short FileMaterial.name_field name rfl,
    nameAt_short FileMaterial.diffuse_field diffuse rfl,
    nameAt_short FileMaterial.alpha_field alpha rfl,
    nameAt_short FileMaterial.reflection_field reflection rfl,
    nameAt_short FileMaterial.specular_field specular rfl,
    nameAt_short FileMaterial.normal_field normal rfl]
  rfl

theorem textureCopy_exact {t : TdModelTextureSlot} (name : ShortName t.sName)
    (length : t.pData.length = t.uiSize.toNat) (next : Int32) : env.textureCopy next t = t := by
  rw [textureCopy, textureOf, nameAt_short FileTexture.name_field name rfl,
    TdModelTextureSlot.payload, copyOut_exact length]
  rfl

theorem partsCopied_exact {m : TdScanModel} (h : Lossless env m) {tails : List UInt8 → Prop}
    {parts : List TdModelPart} (copied : env.PartsCopied m tails parts) : parts = m.Parts := by
  have same : ∀ ofs next, ∀ p ∈ m.Parts, ∀ tail, env.partCopy tail ofs next p = p := by
    intro ofs next p member tail
    have subsets : env.subsetCopies ofs p = p.Subsets :=
      (map_linked (fun next s inside => subsetCopy_exact
        (List.forall_mem_flatMap.mp h.subsets p member s inside) (h.exact p member s inside) next)
        (ofs + 44)).trans (List.map_id' _)
    rw [partCopy, nameAt_short FilePart.name_field (h.parts p member) rfl, subsets]
  unfold SaveEnv.PartsCopied at copied
  generalize (46 : Nat) = ofs, m.Parts = items at copied same
  induction items generalizing ofs parts with
  | nil => exact List.forall₂_nil_left_iff.mp copied
  | cons p rest ih =>
    cases copied with
    | cons head tail =>
      obtain ⟨bytes, -, rfl⟩ := head
      rw [same _ _ p List.mem_cons_self,
        ih _ tail fun ofs next q member => same ofs next q (List.mem_cons_of_mem _ member)]

end Copies

/-- A model that a file can hold without loss is saved, and loading the file, from memory or from
disk, ends with a model of the same parts, materials and textures. -/
theorem load_save {env : SaveEnv} (hc : Lz4.CompressHC env.compress) {m : TdScanModel}
    (h : Lossless env m) (target : Target) :
    ∃ st, env.save3DScanModel true m = some (true, st) ∧
      ∀ src : Source, src.bytes = st.file.bytes →
        Halts (loadStep target) LoadState.Ended src.entry ∧
          ∀ memory, (load target src memory).Ended →
            (load target src memory).Accepted ∧
              (load target src memory).model.Parts = m.Parts ∧
              (load target src memory).model.Materials = m.Materials ∧
              (load target src memory).model.Textures = m.Textures := by
  obtain ⟨st, written, image, -⟩ := writeModel_image hc h.toFitsFormat
  refine ⟨st, by rw [save3DScanModel, if_pos rfl, written]; rfl, fun src same => ?_⟩
  have materials : env.materialCopies m = m.materialList :=
    (map_linked (g := id) (fun next b member => by
      obtain ⟨e, inside, rfl⟩ := List.mem_map.mp member
      exact materialCopy_short (h.materials e inside).2.1 (h.materials e inside).2.2 next) _).trans
      (List.map_id _)
  have textures : env.textureCopies m = m.textureList :=
    (map_linked (g := id) (fun next b member => by
      obtain ⟨e, inside, rfl⟩ := List.mem_map.mp member
      exact textureCopy_exact (h.textureSlots e inside).2.1 (h.textureSlots e inside).2.2 next) _).trans
      (List.map_id _)
  obtain ⟨halts, ends⟩ := image_outcome id target hc h.toFitsFormat h.chains src (same.trans image)
  refine ⟨halts, fun memory ended => ?_⟩
  obtain ⟨parts, copied, stands⟩ := ends memory ended
  obtain rfl := partsCopied_exact h copied
  refine ⟨stands.pc, congrArg View.parts stands.view, stands.materials.trans ?_,
    stands.textures.trans ?_⟩
  · rw [View.materialMap, materials]
    exact SortedMap.empty_insertMany_values fun e inside => (h.materials e inside).1
  · rw [View.textureMap, textures]
    exact SortedMap.empty_insertMany_values fun e inside => (h.textureSlots e inside).1

theorem lossless_triangle : Lossless literalEnv triangle where
  toFitsFormat := fitsFormat_triangle
  chains := by decide
  parts := by decide
  exact := by
    simp only [triangle, List.forall_mem_cons, List.not_mem_nil, false_imp_iff, implies_true, and_true]
    exact ⟨by decide, rfl, rfl, by decide⟩
  materials := by decide
  textureSlots := by decide

theorem load_save_triangle :
    ∃ st, literalEnv.save3DScanModel true triangle = some (true, st) ∧
      ∀ src : Source, src.bytes = st.file.bytes →
        Halts (loadStep .x64) LoadState.Ended src.entry ∧
          ∀ memory, (load .x64 src memory).Ended →
            (load .x64 src memory).Accepted ∧
              (load .x64 src memory).model.Parts = triangle.Parts ∧
              (load .x64 src memory).model.Materials = triangle.Materials ∧
              (load .x64 src memory).model.Textures = triangle.Textures :=
  load_save Lz4.compressHC_lastLiterals lossless_triangle .x64

end ModelPublish.Scan
