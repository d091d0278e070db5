import ModelPublish.Packed.Word
import ModelPublish.Scan.Layout

/-!
# Save3DScanModel

The writer in the arithmetic it uses: `uint32_t` and `int32_t` offsets, `size_t` sums, and a file
whose headers are written again once their links are known.
-/

namespace ModelPublish.Scan
open Packed

/-! ### The output file -/

/-- A `FILE*` opened with "wb". -/
structure OutFile where
  bytes : List UInt8
  pos : Nat
  deriving DecidableEq, Inhabited

namespace OutFile

def fwrite (f : OutFile) (data : List UInt8) : OutFile where
  bytes := (f.bytes ++ List.replicate (f.pos - f.bytes.length) 0).take f.pos ++ data ++
    f.bytes.drop (f.pos + data.length)
  pos := f.pos + data.length

/-- `fwrite ( buf, size, count, f )`, refused when the byte count is no `size_t`. -/
def fwriteItems (f : OutFile) (target : Target) (buf : List UInt8) (size count : Nat) : OutFile :=
  if target.sizeMod ≤ size * count then f else f.fwrite (copyOut buf (size * count))

/-- `fseek` takes a `long`; a negative one fails and leaves the cursor. -/
def fseek (f : OutFile) (ofs : UInt32) : OutFile :=
  if ofs.toInt32 < 0 then f else { f with pos := ofs.toNat }

theorem fwrite_eq (f : OutFile) (data : List UInt8) :
    f.fwrite data = ⟨patch f.bytes f.pos data, f.pos + data.length⟩ := rfl

theorem fwrite_append (f : OutFile) (a b : List UInt8) : (f.fwrite a).fwrite b = f.fwrite (a ++ b) := by
  rw [fwrite_eq, fwrite_eq, fwrite_eq, patch_append, List.length_append, Nat.add_assoc]

theorem fwrite_end {f : OutFile} (h : f.pos = f.bytes.length) (data : List UInt8) :
    f.fwrite data = ⟨f.bytes ++ data, f.pos + data.length⟩ := by
  rw [fwrite_eq, h, patch_end]

theorem fwrite_over (before : List UInt8) {old : List UInt8} (after : List UInt8) {data : List UInt8}
    (same : data.length = old.length) :
    (⟨before ++ old ++ after, before.length⟩ : OutFile).fwrite data =
      ⟨before ++ data ++ after, before.length + data.length⟩ := by
  rw [fwrite_eq, patch_inside before after same]

@[simp] theorem fseek_bytes (f : OutFile) (ofs : UInt32) : (f.fseek ofs).bytes = f.bytes := by
  unfold fseek
  split <;> rfl

theorem fseek_of_lt (f : OutFile) {ofs : UInt32} (h : ofs.toNat < 2 ^ 31) :
    f.fseek ofs = { f with pos := ofs.toNat } := by
  apply if_neg
  intro negative
  rw [int32_neg_iff, toInt_toInt32_small h] at negative
  omega

end OutFile

/-! ### What a save computes -/

/-- The numbers behind a payload, as integers: its size, the signed size, that times 8 and the
threshold it gives, the size stored, the link and the running offset behind it. -/
structure PayloadNumbers where
  uiDataSize : Int
  iSize : Int
  scaled : Int
  threshold : Int
  uiCompressedSize : Int
  iNextOfs : Int
  uiFileOfs : Int
  deriving DecidableEq

/-- Every size and offset a save computed or stored, in order. -/
inductive SaveEvent where
  | subset (n : PayloadNumbers)
  | part (iFirstSubset iNextPartOfs uiFileOfs : Int)
  | material (iNextMaterialOfs uiFileOfs : Int)
  | texture (n : PayloadNumbers)
  | libs (iMaterialLibOfs iTexLibOfs : Int)
  deriving DecidableEq

structure SaveState where
  file : OutFile
  uiFileOfs : UInt32
  hdr : FileHeader
  /-- kind and position of every chunk, in the order written -/
  chunks : List (ChunkKind × Nat)
  log : List SaveEvent

/-- A loop over the chunks of one list. The body is told whether its chunk is the last. -/
def saveEach {β : Type} (body : Bool → β → SaveState → Option SaveState) :
    List β → SaveState → Option SaveState
  | [], st => some st
  | b :: rest, st => (body rest.isEmpty b st).bind (saveEach body rest)

namespace SaveEnv
variable (env : SaveEnv)

def sizeT (n : Nat) : Nat := n % env.target.sizeMod

/-- `LZ4_compress_HC` on `size` bytes. A negative size is outside its contract and has no result. -/
def compressHC (src : List UInt8) (size : Int32) : Option (List UInt8) :=
  if size < 0 then none else some (env.compress src (Lz4.compressBound size.toInt.toNat))

/-- `iCompressedSize < iSize * 8 / 10`, unless compression is off. -/
def useCompressed (iCompressedSize iSize : Int32) : Bool :=
  !env.noCompression && decide (iCompressedSize < iSize * 8 / 10)

/-- The body of the subset loop. No result means that `new` threw. -/
def saveSubset (last : Bool) (s : TdModelSubset) (st : SaveState) : Option SaveState :=
  let uiVertexSize := getVertexSize s.uiVertexFmt
  let uiDataSize := UInt32.ofNat (env.sizeT
    ((s.uiVertCount * uiVertexSize).toNat + (s.uiTriCount * 3).toNat * 4))
  let iVbIbSize := (UInt32.ofNat (env.sizeT
    ((uiVertexSize * s.uiVertCount).toNat + 4 * s.uiTriCount.toNat * 3))).toInt32
  if iVbIbSize < 0 then none
  else
    let pSrc := (copyOut s.pVB (uiVertexSize * s.uiVertCount).toNat ++
      copyOut (indexImage s.pIB) (env.sizeT (4 * s.uiTriCount.toNat * 3))).take iVbIbSize.toInt.toNat
    let pDest := if env.noCompression then [] else
      env.compress pSrc (Lz4.compressBound iVbIbSize.toInt.toNat)
    let iCompressedSize := (UInt32.ofNat pDest.length).toInt32
    let bUseCompressed := env.useCompressed iCompressedSize iVbIbSize
    let uiCompressedSize := if bUseCompressed then iCompressedSize.toUInt32 else uiDataSize
    let iNextSubsetOfs :=
      if last then -1 else (st.uiFileOfs + uiCompressedSize + sizeOf FileSubset.codec).toInt32
    let hdr : FileSubset := blank FileSubset.codec "SUBSET"
    let sub_hdr := { hdr with
      szMatName := strncpy 32 s.sMatName
      uiVertexFormat := s.uiVertexFmt
      uiVertexCount := s.uiVertCount
      uiTriCount := s.uiTriCount
      uiDataSize
      uiCompressedSize
      uiFlags := if bUseCompressed then hdr.uiFlags ||| tdsFlagCompressed else hdr.uiFlags
      iNextSubsetOfs }
    let file := st.file.fwrite (FileSubset.codec.enc sub_hdr)
    let file :=
      if bUseCompressed then file.fwrite (pDest.take iCompressedSize.toInt.toNat)
      else
        (file.fwriteItems env.target s.pVB uiVertexSize.toNat s.uiVertCount.toNat).fwriteItems
          env.target (indexImage s.pIB) 4 (s.uiTriCount * 3).toNat
    let uiFileOfs := st.uiFileOfs + (uiCompressedSize + sizeOf FileSubset.codec)
    some {
      file
      uiFileOfs
      hdr := { st.hdr with uiTotalTriCount := st.hdr.uiTotalTriCount + s.uiTriCount }
      chunks := st.chunks ++ [(.subset, st.file.pos)]
      log := st.log ++ [.subset ⟨uiDataSize.toNat, iVbIbSize.toInt, (iVbIbSize * 8).toInt,
        (iVbIbSize * 8 / 10).toInt, uiCompressedSize.toNat, iNextSubsetOfs.toInt, uiFileOfs.toNat⟩] }

def saveSubsets : List TdModelSubset → SaveState → Option SaveState := saveEach env.saveSubset

/-- The body of the part loop: the header goes out with a provisional link, and again when the
subsets behind it have been written. -/
def savePart (last : Bool) (p : TdModelPart) (st : SaveState) : Option SaveState :=
  let part_hdr : FilePart := { blank FilePart.codec "PART" with
    szName := strncpy 32 p.sName
    iFirstSubset := (st.uiFileOfs + sizeOf FilePart.codec).toInt32
    iNextPartOfs := -1 }
  let uiPartOfs := st.uiFileOfs
  (env.saveSubsets p.Subsets { st with
    file := st.file.fwrite (FilePart.codec.enc part_hdr)
    uiFileOfs := st.uiFileOfs + sizeOf FilePart.codec
    chunks := st.chunks ++ [(.part, st.file.pos)] }).map fun st =>
  let part_hdr := { part_hdr with iNextPartOfs := if last then -1 else st.uiFileOfs.toInt32 }
  { st with
    file := ((st.file.fseek uiPartOfs).fwrite (FilePart.codec.enc part_hdr)).fseek st.uiFileOfs
    log := st.log ++
      [.part part_hdr.iFirstSubset.toInt part_hdr.iNextPartOfs.toInt st.uiFileOfs.toNat] }

def saveParts : List TdModelPart → SaveState → Option SaveState := saveEach env.savePart

def saveMaterial (last : Bool) (m : TdModelMaterial) (st : SaveState) : SaveState :=
  let mtl_hdr : FileMaterial := { blank FileMaterial.codec "MATERIAL" with
    szName := strncpy 32 m.sName
    f4Diffuse := m.clrDiffuse
    f4Ambient := m.clrAmbient
    fAlpha := m.fTransparency
    fGlossiness := m.fGlossiness
    fSpecIntensity := m.fSpecIntensity
    fReflectionFactor := m.fReflectionFactor
    szDiffuseTex := strncpy 32 m.sDiffuseTextureName
    szAlphaTex := strncpy 32 m.sAlphaTextureName
    szNormalTex := strncpy 32 m.sNormalTextureName
    szSpecularTex := strncpy 32 m.sSpecularTextureName
    szReflectionTex := strncpy 32 m.sReflectionTextureName
    iNextMaterialOfs := if last then -1 else (st.uiFileOfs + sizeOf FileMaterial.codec).toInt32 }
  let uiFileOfs := st.uiFileOfs + sizeOf FileMaterial.codec
  { st with
    file := st.file.fwrite (FileMaterial.codec.enc mtl_hdr)
    uiFileOfs
    chunks := st.chunks ++ [(.material, st.file.pos)]
    log := st.log ++ [.material mtl_hdr.iNextMaterialOfs.toInt uiFileOfs.toNat] }

def saveMaterials : List TdModelMaterial → SaveState → Option SaveState :=
  saveEach fun last m st => some (saveMaterial last m st)

/-- The body of the texture loop. A negative `iTexSize` is handed to the compressor as it is. -/
def saveTexture (last : Bool) (t : TdModelTextureSlot) (st : SaveState) : Option SaveState :=
  let iTexSize := t.uiSize.toInt32
  (if env.noCompression then some [] else
    env.compressHC (copyOut t.pData t.uiSize.toNat) iTexSize).map fun pDest =>
  let iCompressedSize := (UInt32.ofNat pDest.length).toInt32
  let bUseCompressed := env.useCompressed iCompressedSize iTexSize
  let uiCompressedSize := if bUseCompressed then iCompressedSize.toUInt32 else t.uiSize
  let iNextTexOfs :=
    if last then -1 else (st.uiFileOfs + sizeOf FileTexture.codec + uiCompressedSize).toInt32
  let hdr : FileTexture := blank FileTexture.codec "TEX"
  let tex_hdr := { hdr with
    szName := strncpy 32 t.sName
    clrAvgColor := t.clrAvgColor
    eTexFormat := t.eFormat
    uiDataSize := t.uiSize
    uiCompressedSize
    uiFlags := if bUseCompressed then hdr.uiFlags ||| tdsFlagCompressed else hdr.uiFlags
    iNextTexOfs }
  let data :=
    if bUseCompressed then pDest.take iCompressedSize.toInt.toNat
    else copyOut t.pData uiCompressedSize.toNat
  let uiFileOfs := st.uiFileOfs + sizeOf FileTexture.codec + uiCompressedSize
  { st with
    file := (st.file.fwrite (FileTexture.codec.enc tex_hdr)).fwrite data
    uiFileOfs
    chunks := st.chunks ++ [(.texture, st.file.pos)]
    log := st.log ++ [.texture ⟨t.uiSize.toNat, iTexSize.toInt, (iTexSize * 8).toInt,
      (iTexSize * 8 / 10).toInt, uiCompressedSize.toNat, iNextTexOfs.toInt, uiFileOfs.toNat⟩] }

def saveTextures : List TdModelTextureSlot → SaveState → Option SaveState := saveEach env.saveTexture

/-- The header as it is written first. -/
def initialHeader : FileHeader :=
  { blank FileHeader.codec "SEYEDOF 3D FORMAT" with
    uiVersion := formatVersion
    iFirstPartOfs := (sizeOf FileHeader.codec).toInt32 }

def initialState : SaveState where
  file := (⟨[], 0⟩ : OutFile).fwrite (FileHeader.codec.enc initialHeader)
  uiFileOfs := sizeOf FileHeader.codec
  hdr := initialHeader
  chunks := []
  log := []

/-- The first link to a library that starts at the running offset. -/
def libLink {β : Type} (items : List β) (st : SaveState) : Int32 :=
  if items.isEmpty then -1 else st.uiFileOfs.toInt32

/-- The last steps: the header goes out again with the links to the libraries. -/
def finish (st : SaveState) : SaveState :=
  { st with
    file := (st.file.fseek 0).fwrite (FileHeader.codec.enc st.hdr)
    log := st.log ++ [.libs st.hdr.iMaterialLibOfs.toInt st.hdr.iTexLibOfs.toInt] }

def linkMaterials (m : TdScanModel) (st : SaveState) : SaveState :=
  { st with hdr := { st.hdr with iMaterialLibOfs := libLink m.materialList st } }

def linkTextures (m : TdScanModel) (st : SaveState) : SaveState :=
  { st with hdr := { st.hdr with iTexLibOfs := libLink m.textureList st } }

/-- `Save3DScanModel` once the file is open. -/
def writeModel (m : TdScanModel) : Option SaveState :=
  (env.saveParts m.Parts initialState).bind fun st =>
  (saveMaterials m.materialList (linkMaterials m st)).bind fun st =>
  (env.saveTextures m.textureList (linkTextures m st)).map finish

/-- `Save3DScanModel`: the return value and, when the file could be opened, what was written. It
returns false only for a file that does not open. -/
def save3DScanModel (opened : Bool) (m : TdScanModel) : Option (Bool × SaveState) :=
  if opened then (env.writeModel m).map fun st => (true, st) else some (false, initialState)

/-! ### Buffers -/

/-- A null `pData` will do only where nothing looks at it. `LZ4_compress_HC` looks, also at a source
of no bytes: it takes its search to end 12 bytes before the end of the source, and from a null
source the search runs on. -/
def TextureBacked (null : Bool) (t : TdModelTextureSlot) : Prop :=
  t.uiSize.toNat ≤ t.pData.length ∧ (null = true → env.noCompression = true ∧ t.uiSize = 0)

instance (null : Bool) (t : TdModelTextureSlot) : Decidable (env.TextureBacked null t) :=
  inferInstanceAs (Decidable (_ ∧ _))

/-- The buffers hold what the sizes of the model say. `null` tells by their keys the textures whose
`pData` is a null pointer. -/
def Backed (null : Name → Bool) (m : TdScanModel) : Prop :=
  (∀ s ∈ m.subsets, s.vertexBytes ≤ s.pVB.length ∧ s.indexBytes ≤ (indexImage s.pIB).length) ∧
    ∀ e ∈ m.Textures.entries, env.TextureBacked (null e.1) e.2

instance (null : Name → Bool) (m : TdScanModel) : Decidable (env.Backed null m) :=
  inferInstanceAs (Decidable (_ ∧ _))

/-- `Save3DScanModel` with the pointers of the model looked at. A save that reads where there is no
buffer has no result. -/
def saveFrom (null : Name → Bool) (opened : Bool) (m : TdScanModel) : Option (Bool × SaveState) :=
  if opened = true ∧ ¬ env.Backed null m then none else env.save3DScanModel opened m

end SaveEnv
end ModelPublish.Scan
