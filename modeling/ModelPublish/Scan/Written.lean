import ModelPublish.Scan.Fits

/-!
# The file that is written

For a model that fits the format the writer, with its provisional headers and its seeks, leaves
exactly the bytes of the layout.
-/

namespace ModelPublish.Scan
open Packed

/-- The models the format can hold: payloads below 2^28 bytes and a file below 2^31. -/
structure FitsFormat (env : SaveEnv) (m : TdScanModel) : Prop where
  subsets : ∀ s ∈ m.subsets, s.payloadSize < payloadLimit
  textures : ∀ t ∈ m.textureList, t.uiSize.toNat < payloadLimit
  size : env.fileSize m < 2 ^ 31

theorem fitsFormat_triangle : FitsFormat literalEnv triangle where
  subsets := by decide
  textures := by decide
  size := by decide +kernel

/-- The end of the file and the running offset are at `ofs`, and so is the cursor as far as `fseek`
reaches. -/
structure Settled (st : SaveState) (ofs : Nat) : Prop where
  cursor : ofs < 2 ^ 31 → st.file.pos = ofs
  length : st.file.bytes.length = ofs
  offset : st.uiFileOfs.toNat = ofs

/-- What a loop appends: the bytes of its chain and their places, and triangles to count. -/
structure Appended (st st' : SaveState) (bytes : List UInt8) (chunks : List (ChunkKind × Nat))
    (triangles : UInt32) : Prop where
  bytes : st'.file.bytes = st.file.bytes ++ bytes
  chunks : st'.chunks = st.chunks ++ chunks
  hdr : st'.hdr = { st.hdr with uiTotalTriCount := st.hdr.uiTotalTriCount + triangles }

theorem Appended.refl (st : SaveState) : Appended st st [] [] 0 :=
  ⟨by simp, by simp, by simp⟩

theorem Appended.trans {a b c : SaveState} {bytes bytes' : List UInt8}
    {chunks chunks' : List (ChunkKind × Nat)} {triangles triangles' : UInt32}
    (h : Appended a b bytes chunks triangles) (k : Appended b c bytes' chunks' triangles') :
    Appended a c (bytes ++ bytes') (chunks ++ chunks') (triangles + triangles') :=
  ⟨by rw [k.bytes, h.bytes, List.append_assoc], by rw [k.chunks, h.chunks, List.append_assoc],
    by rw [k.hdr, h.hdr, UInt32.add_assoc]⟩

/-- A loop body that writes the chunk of the layout, for items that fit where they lie. -/
structure WritesChunk {β : Type} (body : Bool → β → SaveState → Option SaveState) (size : β → Nat)
    (chunk : Nat → Int32 → β → List UInt8) (places : Nat → β → List (ChunkKind × Nat))
    (triangles : β → UInt32) (fits : Nat → Bool → β → Prop) : Prop where
  place : ∀ ofs last b, fits ofs last b → PlaceFits last (ofs + size b)
  writes : ∀ ofs last b st, Settled st ofs → ofs < 2 ^ 31 → fits ofs last b →
    ∃ st', body last b st = some st' ∧ Settled st' (ofs + size b) ∧
      Appended st st' (chunk ofs (linkTo last (ofs + size b)) b) (places ofs b) (triangles b)

def chainPlaces {β : Type} (size : β → Nat) (places : Nat → β → List (ChunkKind × Nat)) (ofs : Nat)
    (items : List β) : List (ChunkKind × Nat) :=
  (placed size ofs items).flatMap fun x => places x.1 x.2

theorem WritesChunk.each {β : Type} {body : Bool → β → SaveState → Option SaveState}
    {size : β → Nat} {chunk : Nat → Int32 → β → List UInt8}
    {places : Nat → β → List (ChunkKind × Nat)} {triangles : β → UInt32}
    {fits : Nat → Bool → β → Prop} (h : WritesChunk body size chunk places triangles fits) (ofs : Nat)
    (items : List β) (st : SaveState) (settled : Settled st ofs)
    (start : items.isEmpty = false → ofs < 2 ^ 31) (fit : ChainFits size fits ofs items) :
    ∃ st', saveEach body items st = some st' ∧ Settled st' (ofs + chainSize size items) ∧
      Appended st st' (chain size chunk ofs items) (chainPlaces size places ofs items)
        (items.map triangles).sum := by
  induction items generalizing ofs st with
  | nil => exact ⟨st, rfl, settled, Appended.refl st⟩
  | cons b rest ih =>
    obtain ⟨head, tail⟩ := fit
    obtain ⟨mid, first, settled', appended⟩ := h.writes ofs rest.isEmpty b st settled (start rfl) head
    obtain ⟨st', run, settled'', appended'⟩ := ih (ofs + size b) mid settled' (h.place _ _ _ head).1 tail
    refine ⟨st', by rw [saveEach, first]; exact run, ?_, ?_⟩
    · rwa [chainSize_cons, ← Nat.add_assoc]
    · exact appended.trans appended'

namespace SaveEnv
variable {env : SaveEnv}

theorem toNat_behind {st : SaveState} {ofs size : Nat} (settled : Settled st ofs)
    (bound : ofs + size < 2 ^ 32) : (UInt32.ofNat (st.uiFileOfs.toNat + size)).toNat = ofs + size := by
  rw [settled.offset]
  exact UInt32.toNat_ofNat_of_lt' bound

theorem Settled_fwrite {st : SaveState} {ofs : Nat} (settled : Settled st ofs) (small : ofs < 2 ^ 31)
    (data : List UInt8) : st.file.fwrite data = ⟨st.file.bytes ++ data, ofs + data.length⟩ := by
  rw [OutFile.fwrite_end (by rw [settled.cursor small, settled.length]), settled.cursor small]

theorem writes_subset (hc : Lz4.CompressHC env.compress) :
    WritesChunk env.saveSubset env.subsetSize env.subsetChunk (fun ofs _ => [(.subset, ofs)])
      TdModelSubset.uiTriCount env.SubsetFits := by
  refine ⟨fun ofs last s fits => fits.2, fun ofs last s st settled start fits => ?_⟩
  obtain ⟨small, place⟩ := fits
  have behind := toNat_behind settled place.2
  have written : (FileSubset.codec.enc (subsetHeader s (env.store s.payload)
      (linkTo last (ofs + env.subsetSize s))) ++ (env.store s.payload).bytes).length =
      env.subsetSize s := env.length_subsetChunk ofs _ s
  refine ⟨_, saveSubset_eq hc last small st, ⟨fun _ => ?_, ?_, behind⟩, ?_, ?_, rfl⟩
  all_goals simp only [settled.offset, Settled_fwrite settled start]
  · rw [written]
  · rw [List.length_append, settled.length, written]
  · rfl
  · rw [settled.cursor start]

theorem writes_material :
    WritesChunk (fun last m st => some (saveMaterial last m st)) materialSize materialChunk
      (fun ofs _ => [(.material, ofs)]) (fun _ => 0) MaterialFits := by
  refine ⟨fun ofs last m fits => fits, fun ofs last m st settled start fits => ?_⟩
  have behind := toNat_behind settled fits.2
  have written : (FileMaterial.codec.enc (materialHeader m
      (linkTo last (ofs + materialSize m)))).length = materialSize m := by simp [materialSize]
  refine ⟨_, rfl, ?_, ?_⟩
  all_goals rw [saveMaterial_eq]
  · refine ⟨fun _ => ?_, ?_, behind⟩
    all_goals simp only [settled.offset, Settled_fwrite settled start]
    · rw [written]
    · rw [List.length_append, settled.length, written]
  · refine ⟨?_, ?_, ?_⟩
    · simp only [settled.offset, Settled_fwrite settled start]
      rfl
    · simp only [settled.cursor start]
    · simp

theorem writes_texture (hc : Lz4.CompressHC env.compress) :
    WritesChunk env.saveTexture env.textureSize env.textureChunk (fun ofs _ => [(.texture, ofs)])
      (fun _ => 0) env.TextureFits := by
  refine ⟨fun ofs last t fits => fits.2, fun ofs last t st settled start fits => ?_⟩
  obtain ⟨small, place⟩ := fits
  have behind := toNat_behind settled place.2
  have written : (FileTexture.codec.enc (textureHeader t (env.store t.payload)
      (linkTo last (ofs + env.textureSize t))) ++ (env.store t.payload).bytes).length =
      env.textureSize t := env.length_textureChunk ofs _ t
  refine ⟨_, saveTexture_eq hc last small st, ⟨fun _ => ?_, ?_, behind⟩, ?_, ?_, by simp⟩
  all_goals simp only [settled.offset, Settled_fwrite settled start]
  · rw [written]
  · rw [List.length_append, settled.length, written]
  · rfl
  · rw [settled.cursor start]

def partPlaces (env : SaveEnv) (ofs : Nat) (p : TdModelPart) : List (ChunkKind × Nat) :=
  (.part, ofs) :: chainPlaces env.subsetSize (fun ofs _ => [(.subset, ofs)]) (ofs + 44) p.Subsets

theorem writes_part (hc : Lz4.CompressHC env.compress) :
    WritesChunk env.savePart env.partSize env.partChunk env.partPlaces
      (fun p => (p.Subsets.map TdModelSubset.uiTriCount).sum) env.PartFits := by
  refine ⟨fun ofs last p fits => fits.2.2, fun ofs last p st settled begins fits => ?_⟩
  obtain ⟨subsets, inside, place⟩ := fits
  have size : env.partSize p = 44 + chainSize env.subsetSize p.Subsets := rfl
  have header (next first : Int32) : (FilePart.codec.enc (partHeader p next first)).length = 44 := by
    simp
  have start : Settled (partStart p st) (ofs + 44) := by
    refine ⟨fun _ => ?_, ?_, toNat_behind settled (by omega)⟩
    all_goals simp only [partStart, Settled_fwrite settled begins, header]
    rw [List.length_append, settled.length, header]
  obtain ⟨behind, run, settled', appended⟩ := (writes_subset hc).each (ofs + 44) p.Subsets
    (partStart p st) start (fun _ => inside) subsets
  have finish : ofs + 44 + chainSize env.subsetSize p.Subsets = ofs + env.partSize p := by omega
  rw [finish] at settled'
  have next : (if last then -1 else behind.uiFileOfs.toInt32 : Int32) =
      linkTo last (ofs + env.partSize p) := by
    rw [linkTo, ← settled'.offset, UInt32.ofNat_toNat]
  -- the file before the header is written again
  have image : behind.file.bytes = st.file.bytes ++
      FilePart.codec.enc (partHeader p (-1) (firstSubset st)) ++
      chain env.subsetSize env.subsetChunk (ofs + 44) p.Subsets := by
    rw [appended.bytes, partStart, Settled_fwrite settled begins]
  have file : (partEnd last p st behind).file = (⟨st.file.bytes ++
      env.partChunk ofs (linkTo last (ofs + env.partSize p)) p, ofs + 44⟩ : OutFile).fseek
        behind.uiFileOfs := by
    have seek : behind.file.fseek st.uiFileOfs = ⟨behind.file.bytes, st.file.bytes.length⟩ := by
      rw [OutFile.fseek_of_lt _ (by rw [settled.offset]; omega), settled.offset, settled.length]
    have rewritten : (⟨behind.file.bytes, st.file.bytes.length⟩ : OutFile).fwrite
        (FilePart.codec.enc (partHeader p (linkTo last (ofs + env.partSize p)) (firstSubset st))) =
        ⟨st.file.bytes ++ FilePart.codec.enc (partHeader p (linkTo last (ofs + env.partSize p))
          (firstSubset st)) ++ chain env.subsetSize env.subsetChunk (ofs + 44) p.Subsets,
          st.file.bytes.length + 44⟩ := by
      rw [image, OutFile.fwrite_over _ _ (by rw [header, header]), header]
    simp only [partEnd, next, seek, rewritten]
    rw [partChunk, firstSubset, settled.offset, settled.length, List.append_assoc]
  refine ⟨partEnd last p st behind, ?_, ⟨fun small => ?_, ?_, settled'.offset⟩, ?_, ?_, ?_⟩
  · rw [savePart_eq]
    exact Option.map_eq_some_iff.mpr ⟨behind, run, rfl⟩
  · rw [file, OutFile.fseek_of_lt _ (by rw [settled'.offset]; exact small), settled'.offset]
  · rw [file, OutFile.fseek_bytes, List.length_append, settled.length, env.length_partChunk]
  · rw [file, OutFile.fseek_bytes]
  · show behind.chunks = _
    rw [appended.chunks, partStart, settled.cursor begins, partPlaces, List.append_assoc]
    rfl
  · exact appended.hdr

/-- The kind and place of every chunk of the file. -/
def places (env : SaveEnv) (m : TdScanModel) : List (ChunkKind × Nat) :=
  chainPlaces env.partSize env.partPlaces 46 m.Parts ++
    chainPlaces materialSize (fun ofs _ => [(.material, ofs)]) (env.materialsOfs m) m.materialList ++
    chainPlaces env.textureSize (fun ofs _ => [(.texture, ofs)]) (env.texturesOfs m) m.textureList

theorem initialState_settled : Settled initialState 46 := ⟨fun _ => rfl, rfl, rfl⟩

theorem initialState_bytes : initialState.file.bytes = FileHeader.codec.enc initialHeader := by
  rw [initialState, OutFile.fwrite_end rfl]
  rfl

theorem libLink_eq {β : Type} {items : List β} {st : SaveState} {ofs : Nat} (h : Settled st ofs) :
    libLink items st = linkTo items.isEmpty ofs := by
  rw [libLink, linkTo, ← h.offset, UInt32.ofNat_toNat]

theorem sum_zero {β : Type} (items : List β) : (items.map fun _ => (0 : UInt32)).sum = 0 := by
  induction items with
  | nil => rfl
  | cons b rest ih => rw [List.map_cons, List.sum_cons, ih, UInt32.add_zero]

theorem sum_triangles (parts : List TdModelPart) :
    (parts.map fun p => (p.Subsets.map TdModelSubset.uiTriCount).sum).sum =
      ((parts.flatMap TdModelPart.Subsets).map TdModelSubset.uiTriCount).sum := by
  induction parts with
  | nil => rfl
  | cons p rest ih =>
    rw [List.map_cons, List.sum_cons, ih, List.flatMap_cons, List.map_append]
    generalize (rest.flatMap TdModelPart.Subsets).map TdModelSubset.uiTriCount = more
    induction p.Subsets with
    | nil => simp
    | cons s subsets ih => simp only [List.map_cons, List.cons_append, List.sum_cons, ← ih,
        UInt32.add_assoc]

theorem header_eq (m : TdScanModel) {hdr : FileHeader}
    (counted : hdr = { initialHeader with
      uiTotalTriCount := (m.subsets.map TdModelSubset.uiTriCount).sum
      iMaterialLibOfs := linkTo m.materialList.isEmpty (env.materialsOfs m)
      iTexLibOfs := linkTo m.textureList.isEmpty (env.texturesOfs m) }) : hdr = env.fileHeader m :=
  counted

/-- The writer refines the layout, for every model whose numbers its words can hold. -/
theorem writeModel_words (hc : Lz4.CompressHC env.compress) {m : TdScanModel}
    (fits : env.FitsWords m) :
    ∃ st, env.writeModel m = some st ∧ st.file.bytes = env.image m ∧ st.chunks = env.places m := by
  obtain ⟨fits₁, materialLink, fits₂, textureLink, fits₃⟩ := (chainsFit_iff m).mpr fits
  obtain ⟨st₁, parts, settled₁, appended₁⟩ := (writes_part hc).each 46 m.Parts initialState
    initialState_settled (fun _ => by decide) fits₁
  obtain ⟨st₂, materials, settled₂, appended₂⟩ := writes_material.each (env.materialsOfs m)
    m.materialList (linkMaterials m st₁) ⟨settled₁.cursor, settled₁.length, settled₁.offset⟩
    materialLink fits₂
  obtain ⟨st₃, textures, settled₃, appended₃⟩ := (writes_texture hc).each (env.texturesOfs m)
    m.textureList (linkTextures m st₂) ⟨settled₂.cursor, settled₂.length, settled₂.offset⟩
    textureLink fits₃
  have hdr : st₃.hdr = env.fileHeader m := by
    apply header_eq
    rw [appended₃.hdr, linkTextures, appended₂.hdr, linkMaterials, appended₁.hdr,
      libLink_eq settled₁, libLink_eq settled₂, sum_zero, sum_zero, sum_triangles]
    have none : initialState.hdr.uiTotalTriCount = 0 := rfl
    simp only [UInt32.add_zero, none, UInt32.zero_add]
    rfl
  have bytes : st₃.file.bytes = FileHeader.codec.enc initialHeader ++
      (chain env.partSize env.partChunk 46 m.Parts ++
        chain materialSize materialChunk (env.materialsOfs m) m.materialList ++
        chain env.textureSize env.textureChunk (env.texturesOfs m) m.textureList) := by
    simp only [appended₃.bytes, linkTextures, appended₂.bytes, linkMaterials, appended₁.bytes,
      initialState_bytes, List.append_assoc]
  refine ⟨finish st₃, ?_, ?_, ?_⟩
  · rw [writeModel, saveParts, parts, Option.bind_some, saveMaterials, materials, Option.bind_some,
      saveTextures, textures]
    rfl
  · show ((st₃.file.fseek 0).fwrite (FileHeader.codec.enc st₃.hdr)).bytes = _
    have rewritten := OutFile.fwrite_over [] (chain env.partSize env.partChunk 46 m.Parts ++
        chain materialSize materialChunk (env.materialsOfs m) m.materialList ++
        chain env.textureSize env.textureChunk (env.texturesOfs m) m.textureList)
      (show (FileHeader.codec.enc st₃.hdr).length = (FileHeader.codec.enc initialHeader).length by simp)
    rw [List.nil_append, ← bytes] at rewritten
    rw [OutFile.fseek_of_lt _ (by decide)]
    show ((⟨st₃.file.bytes, ([] : List UInt8).length⟩ : OutFile).fwrite _).bytes = _
    rw [rewritten, hdr, image]
    simp only [List.nil_append, List.append_assoc]
  · show st₃.chunks = _
    rw [appended₃.chunks, linkTextures, appended₂.chunks, linkMaterials, appended₁.chunks, places]
    rfl

theorem links_le (m : TdScanModel) : ∀ ofs ∈ env.links m, ofs ≤ env.fileSize m := by
  have sizes : env.fileSize m = env.texturesOfs m + chainSize env.textureSize m.textureList ∧
      env.texturesOfs m = env.materialsOfs m + chainSize materialSize m.materialList ∧
      env.materialsOfs m = 46 + chainSize env.partSize m.Parts := ⟨rfl, rfl, rfl⟩
  intro ofs member
  simp only [links, List.mem_append, List.mem_map, List.mem_flatMap, List.mem_cons] at member
  rcases member with ((⟨x, part, rfl⟩ | ⟨x, part, rfl | ⟨y, subset, rfl⟩⟩) | ⟨x, material, rfl⟩) |
    ⟨x, texture, rfl⟩
  · have := (placed_inside (List.mem_of_mem_tail part)).2
    omega
  · have inside := (placed_inside part).2
    have size : env.partSize x.2 = 44 + chainSize env.subsetSize x.2.Subsets := rfl
    omega
  · have inside := (placed_inside part).2
    have nested := (placed_inside (List.mem_of_mem_tail subset)).2
    have size : env.partSize x.2 = 44 + chainSize env.subsetSize x.2.Subsets := rfl
    omega
  · have := (placed_inside material).2
    omega
  · have := (placed_inside texture).2
    omega

end SaveEnv

theorem FitsFormat.words {env : SaveEnv} {m : TdScanModel} (fits : FitsFormat env m) :
    env.FitsWords m where
  subsets := fits.subsets
  textures := fits.textures
  links ofs member := Nat.lt_of_le_of_lt (SaveEnv.links_le m ofs member) fits.size
  size := Nat.lt_trans fits.size (by decide)

theorem SaveEnv.writeModel_image {env : SaveEnv} (hc : Lz4.CompressHC env.compress) {m : TdScanModel}
    (fits : FitsFormat env m) :
    ∃ st, env.writeModel m = some st ∧ st.file.bytes = env.image m ∧ st.chunks = env.places m :=
  writeModel_words hc fits.words

end ModelPublish.Scan
