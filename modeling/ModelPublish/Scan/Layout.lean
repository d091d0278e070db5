import ModelPublish.Lz4.Block
import ModelPublish.Scan.Model

/-!
# The file as it is meant

What a saved model is, in unbounded arithmetic: four kinds of chunks, each linked to the next of
its kind by position. The writer is compared with this, and the reader is shown to invert it.
-/

namespace ModelPublish.Scan
open Packed

/-- What a save depends on besides the model. `compress` is `LZ4_compress_HC` at
`LZ4HC_CLEVEL_MAX`, applied to a source and a capacity. -/
structure SaveEnv where
  target : Target
  compress : List UInt8 → Nat → List UInt8
  uiFlags : UInt32

def SaveEnv.noCompression (env : SaveEnv) : Bool := decide (env.uiFlags &&& tdSaveFlagNoCompression ≠ 0)

/-- A payload as it lies in the file. -/
structure Stored where
  compressed : Bool
  bytes : List UInt8
  deriving DecidableEq

/-- A payload is stored compressed when that saves a fifth of it. -/
def SaveEnv.store (env : SaveEnv) (payload : List UInt8) : Stored :=
  let block := env.compress payload (Lz4.compressBound payload.length)
  if !env.noCompression && decide (block.length < payload.length * 8 / 10) then ⟨true, block⟩
  else ⟨false, payload⟩

inductive ChunkKind where
  | part
  | subset
  | material
  | texture
  deriving DecidableEq, Repr

/-! ### Chains -/

section Chains
variable {β : Type}

/-- The link behind an item that ends at `ofs`. -/
def linkTo (last : Bool) (ofs : Nat) : Int32 := if last then -1 else (UInt32.ofNat ofs).toInt32

/-- The bytes of linked chunks from position `ofs` on. `chunk` is told where the item lies and what
to link to. -/
def chain (size : β → Nat) (chunk : Nat → Int32 → β → List UInt8) : Nat → List β → List UInt8
  | _, [] => []
  | ofs, b :: rest =>
    chunk ofs (linkTo rest.isEmpty (ofs + size b)) b ++ chain size chunk (ofs + size b) rest

def chainSize (size : β → Nat) (items : List β) : Nat := (items.map size).sum

@[simp] theorem chainSize_nil (size : β → Nat) : chainSize size [] = 0 := rfl

@[simp] theorem chainSize_cons (size : β → Nat) (b : β) (rest : List β) :
    chainSize size (b :: rest) = size b + chainSize size rest := by
  simp [chainSize]

theorem length_chain {size : β → Nat} {chunk : Nat → Int32 → β → List UInt8}
    (length : ∀ ofs next b, (chunk ofs next b).length = size b) (ofs : Nat) (items : List β) :
    (chain size chunk ofs items).length = chainSize size items := by
  induction items generalizing ofs with
  | nil => rfl
  | cons b rest ih => rw [chain, List.length_append, length, ih, chainSize_cons]

/-- The items of a chain with the positions they lie at. -/
def placed (size : β → Nat) : Nat → List β → List (Nat × β)
  | _, [] => []
  | ofs, b :: rest => (ofs, b) :: placed size (ofs + size b) rest

theorem placed_map_snd (size : β → Nat) (ofs : Nat) (items : List β) :
    (placed size ofs items).map Prod.snd = items := by
  induction items generalizing ofs with
  | nil => rfl
  | cons b rest ih => rw [placed, List.map_cons, ih]

theorem forall_placed (size : β → Nat) (ofs : Nat) {items : List β} {P : β → Prop} :
    (∀ x ∈ placed size ofs items, P x.2) ↔ ∀ b ∈ items, P b := by
  conv => rhs; rw [← placed_map_snd size ofs items]
  simp only [List.forall_mem_map]

theorem placed_inside {size : β → Nat} {ofs : Nat} {items : List β} {x : Nat × β}
    (member : x ∈ placed size ofs items) :
    ofs ≤ x.1 ∧ x.1 + size x.2 ≤ ofs + chainSize size items := by
  induction items generalizing ofs with
  | nil => cases member
  | cons b rest ih =>
    rw [chainSize_cons]
    rcases List.mem_cons.mp member with rfl | member
    · exact ⟨Nat.le_refl _, by simp only; omega⟩
    · have inside := ih member
      omega

end Chains

/-! ### Chunks -/

/-- The vertices and the indices, one after the other. -/
def TdModelSubset.payload (s : TdModelSubset) : List UInt8 :=
  copyOut s.pVB s.vertexBytes ++ copyOut (indexImage s.pIB) s.indexBytes

@[simp] theorem TdModelSubset.length_payload (s : TdModelSubset) : s.payload.length = s.payloadSize := by
  simp [payload, payloadSize]

def TdModelTextureSlot.payload (t : TdModelTextureSlot) : List UInt8 := copyOut t.pData t.uiSize.toNat

@[simp] theorem TdModelTextureSlot.length_payload (t : TdModelTextureSlot) :
    t.payload.length = t.uiSize.toNat := by
  simp [payload]

def Stored.flags (stored : Stored) : UInt32 := if stored.compressed then tdsFlagCompressed else 0

def subsetHeader (s : TdModelSubset) (stored : Stored) (next : Int32) : FileSubset :=
  { blank FileSubset.codec "SUBSET" with
    iNextSubsetOfs := next
    szMatName := strncpy 32 s.sMatName
    uiVertexCount := s.uiVertCount
    uiTriCount := s.uiTriCount
    uiVertexFormat := s.uiVertexFmt
    uiDataSize := UInt32.ofNat s.payloadSize
    uiCompressedSize := UInt32.ofNat stored.bytes.length
    uiFlags := stored.flags }

def partHeader (p : TdModelPart) (next first : Int32) : FilePart :=
  { blank FilePart.codec "PART" with
    szName := strncpy 32 p.sName
    iNextPartOfs := next
    iFirstSubset := first }

def materialHeader (m : TdModelMaterial) (next : Int32) : FileMaterial :=
  { blank FileMaterial.codec "MATERIAL" with
    szName := strncpy 32 m.sName
    iNextMaterialOfs := next
    f4Diffuse := m.clrDiffuse
    f4Ambient := m.clrAmbient
    fGlossiness := m.fGlossiness
    fSpecIntensity := m.fSpecIntensity
    fAlpha := m.fTransparency
    fReflectionFactor := m.fReflectionFactor
    szDiffuseTex := strncpy 32 m.sDiffuseTextureName
    szAlphaTex := strncpy 32 m.sAlphaTextureName
    szReflectionTex := strncpy 32 m.sReflectionTextureName
    szSpecularTex := strncpy 32 m.sSpecularTextureName
    szNormalTex := strncpy 32 m.sNormalTextureName }

def textureHeader (t : TdModelTextureSlot) (stored : Stored) (next : Int32) : FileTexture :=
  { blank FileTexture.codec "TEX" with
    szName := strncpy 32 t.sName
    iNextTexOfs := next
    eTexFormat := t.eFormat
    uiDataSize := t.uiSize
    uiCompressedSize := UInt32.ofNat stored.bytes.length
    uiFlags := stored.flags
    clrAvgColor := t.clrAvgColor }

namespace SaveEnv
variable (env : SaveEnv)

def subsetSize (s : TdModelSubset) : Nat := 76 + (env.store s.payload).bytes.length

def subsetChunk (_ : Nat) (next : Int32) (s : TdModelSubset) : List UInt8 :=
  FileSubset.codec.enc (subsetHeader s (env.store s.payload) next) ++ (env.store s.payload).bytes

def partSize (p : TdModelPart) : Nat := 44 + chainSize env.subsetSize p.Subsets

def partChunk (ofs : Nat) (next : Int32) (p : TdModelPart) : List UInt8 :=
  FilePart.codec.enc (partHeader p next (UInt32.ofNat (ofs + 44)).toInt32) ++
    chain env.subsetSize env.subsetChunk (ofs + 44) p.Subsets

def materialSize (_ : TdModelMaterial) : Nat := 320

def materialChunk (_ : Nat) (next : Int32) (m : TdModelMaterial) : List UInt8 :=
  FileMaterial.codec.enc (materialHeader m next)

def textureSize (t : TdModelTextureSlot) : Nat := 76 + (env.store t.payload).bytes.length

def textureChunk (_ : Nat) (next : Int32) (t : TdModelTextureSlot) : List UInt8 :=
  FileTexture.codec.enc (textureHeader t (env.store t.payload) next) ++ (env.store t.payload).bytes

@[simp] theorem length_subsetChunk (ofs : Nat) (next : Int32) (s : TdModelSubset) :
    (env.subsetChunk ofs next s).length = env.subsetSize s := by
  simp [subsetChunk, subsetSize]

@[simp] theorem length_partChunk (ofs : Nat) (next : Int32) (p : TdModelPart) :
    (env.partChunk ofs next p).length = env.partSize p := by
  rw [partChunk, List.length_append, Codec.length_enc, FilePart.size,
    length_chain env.length_subsetChunk, partSize]

@[simp] theorem length_materialChunk (ofs : Nat) (next : Int32) (m : TdModelMaterial) :
    (materialChunk ofs next m).length = materialSize m := by
  simp [materialChunk, materialSize]

@[simp] theorem length_textureChunk (ofs : Nat) (next : Int32) (t : TdModelTextureSlot) :
    (env.textureChunk ofs next t).length = env.textureSize t := by
  simp [textureChunk, textureSize]

end SaveEnv

/-! ### The file -/

def TdScanModel.materialList (m : TdScanModel) : List TdModelMaterial := m.Materials.entries.map Prod.snd

def TdScanModel.textureList (m : TdScanModel) : List TdModelTextureSlot := m.Textures.entries.map Prod.snd

namespace SaveEnv
variable (env : SaveEnv) (m : TdScanModel)

def materialsOfs : Nat := 46 + chainSize env.partSize m.Parts

def texturesOfs : Nat := env.materialsOfs m + chainSize materialSize m.materialList

def fileSize : Nat := env.texturesOfs m + chainSize env.textureSize m.textureList

def fileHeader : FileHeader :=
  { blank FileHeader.codec "SEYEDOF 3D FORMAT" with
    uiVersion := formatVersion
    uiTotalTriCount := (m.subsets.map TdModelSubset.uiTriCount).sum
    iFirstPartOfs := 46
    iMaterialLibOfs := linkTo m.materialList.isEmpty (env.materialsOfs m)
    iTexLibOfs := linkTo m.textureList.isEmpty (env.texturesOfs m) }

def image : List UInt8 :=
  FileHeader.codec.enc (env.fileHeader m) ++ chain env.partSize env.partChunk 46 m.Parts ++
    chain materialSize materialChunk (env.materialsOfs m) m.materialList ++
    chain env.textureSize env.textureChunk (env.texturesOfs m) m.textureList

theorem length_image : (env.image m).length = env.fileSize m := by
  simp only [image, List.length_append, Codec.length_enc, FileHeader.size, fileSize, texturesOfs,
    materialsOfs, length_chain env.length_partChunk, length_chain length_materialChunk,
    length_chain env.length_textureChunk]

theorem image_header : env.image m = FileHeader.codec.enc (env.fileHeader m) ++
    (chain env.partSize env.partChunk 46 m.Parts ++
      (chain materialSize materialChunk (env.materialsOfs m) m.materialList ++
        chain env.textureSize env.textureChunk (env.texturesOfs m) m.textureList)) := by
  rw [image, List.append_assoc, List.append_assoc]

theorem image_parts : (env.image m).drop 46 = chain env.partSize env.partChunk 46 m.Parts ++
    (chain materialSize materialChunk (env.materialsOfs m) m.materialList ++
      chain env.textureSize env.textureChunk (env.texturesOfs m) m.textureList) := by
  rw [image_header]
  exact List.drop_left' (FileHeader.codec.length_enc _)

theorem image_materials : (env.image m).drop (env.materialsOfs m) =
    chain materialSize materialChunk (env.materialsOfs m) m.materialList ++
      chain env.textureSize env.textureChunk (env.texturesOfs m) m.textureList := by
  conv => lhs; rw [materialsOfs, ← List.drop_drop, image_parts]
  exact List.drop_left' (length_chain env.length_partChunk ..)

theorem image_textures : (env.image m).drop (env.texturesOfs m) =
    chain env.textureSize env.textureChunk (env.texturesOfs m) m.textureList := by
  conv => lhs; rw [texturesOfs, ← List.drop_drop, image_materials]
  exact List.drop_left' (length_chain length_materialChunk ..)

def placedParts : List (Nat × TdModelPart) := placed env.partSize 46 m.Parts

def placedSubsets (ofs : Nat) (p : TdModelPart) : List (Nat × TdModelSubset) :=
  placed env.subsetSize (ofs + 44) p.Subsets

def placedMaterials : List (Nat × TdModelMaterial) :=
  placed materialSize (env.materialsOfs m) m.materialList

def placedTextures : List (Nat × TdModelTextureSlot) :=
  placed env.textureSize (env.texturesOfs m) m.textureList

/-- Every position that a link of the file names. -/
def links : List Nat :=
  (env.placedParts m).tail.map Prod.fst ++
    (env.placedParts m).flatMap (fun x => (x.1 + 44) :: (env.placedSubsets x.1 x.2).tail.map Prod.fst) ++
    (env.placedMaterials m).map Prod.fst ++ (env.placedTextures m).map Prod.fst

end SaveEnv
/-! ### A small model -/

def literalEnv : SaveEnv where
  target := .win32
  compress src _ := Lz4.lastLiterals src
  uiFlags := 0

def redMaterial : TdModelMaterial where
  sName := ascii "red"
  clrAmbient := ⟨⟨0⟩, ⟨0⟩, ⟨0⟩, ⟨0⟩⟩
  clrDiffuse := ⟨⟨0x3F800000⟩, ⟨0⟩, ⟨0⟩, ⟨0x3F800000⟩⟩
  fTransparency := ⟨0x3F800000⟩
  fSpecIntensity := ⟨0⟩
  fGlossiness := ⟨0⟩
  fReflectionFactor := ⟨0⟩
  sDiffuseTextureName := ascii "wood.dds"
  sNormalTextureName := []
  sSpecularTextureName := []
  sAlphaTextureName := []
  sReflectionTextureName := []

def triangle : TdScanModel where
  Parts := [{
    sName := ascii "hull"
    Subsets := [{
      pVB := List.replicate 36 0
      pIB := [0, 1, 2]
      uiVertCount := 3
      uiTriCount := 1
      sMatName := ascii "red"
      uiVertexFmt := vfPosition }] }]
  Materials := ⟨[(ascii "red", redMaterial)], List.pairwise_singleton _ _⟩
  Textures := ⟨[(ascii "wood.dds", {
    sName := ascii "wood.dds"
    uiSize := 4
    pData := [1, 2, 3, 4]
    eFormat := 0
    clrAvgColor := ⟨⟨0⟩, ⟨0⟩, ⟨0⟩, ⟨0⟩⟩ })], List.pairwise_singleton _ _⟩
  ptMin := ⟨⟨0⟩, ⟨0⟩, ⟨0⟩⟩
  ptMax := ⟨⟨0⟩, ⟨0⟩, ⟨0⟩⟩

end ModelPublish.Scan
