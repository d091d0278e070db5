import ModelPublish.Scan.Layout
import ModelPublish.Scan.Load

/-!
# The steps of the reader

What each round of `Load3DScanModel` does when the link it follows leads to a chunk of the right
kind, and what the log says about the model at any time.
-/

namespace ModelPublish.Scan
open Packed Container ModelPublish.Stream

/-! ### Structures at the cursor -/

section Reads
variable {s : BaseStream} {bytes rest : List UInt8} {pos : Nat} (h : s.At bytes pos)
include h

theorem read_found {data : List UInt8} {uiSize : UInt32} (size : uiSize.toNat = data.length)
    (inside : pos ≤ bytes.length) (found : bytes.drop pos = data ++ rest) (beyond : Nat → UInt8) :
    (s.read beyond uiSize).1.bytes = data ∧
      (s.read beyond uiSize).2.At bytes (pos + data.length) := by
  have length := congrArg List.length found
  rw [List.length_drop, List.length_append] at length
  obtain ⟨got, -, behind⟩ := h.read beyond uiSize (by omega)
  rw [size, found, List.take_left] at got
  rw [size] at behind
  exact ⟨got, behind⟩

theorem readStruct_found {α : Type} {c : Codec α} (fits : c.size < 2 ^ 32) {a : α}
    (inside : pos ≤ bytes.length) (found : bytes.drop pos = c.enc a ++ rest) (u : Uninit) :
    (readStruct c s u).1 = a ∧ (readStruct c s u).2.2.At bytes (pos + c.size) := by
  have size : (sizeOf c).toNat = (c.enc a).length := by
    rw [c.length_enc]
    exact UInt32.toNat_ofNat_of_lt' fits
  obtain ⟨got, behind⟩ := read_found h size inside found u.beyond
  rw [c.length_enc] at behind
  refine ⟨?_, behind⟩
  simp only [readStruct]
  rw [got, overlay_cells (c.length_enc a), c.dec_enc]

end Reads

/-! ### What the steps leave -/

def LoadEvent.material? : LoadEvent → Option TdModelMaterial
  | .material m => some m
  | _ => none

def LoadEvent.texture? : LoadEvent → Option TdModelTextureSlot
  | .texture t => some t
  | _ => none

/-- The chunks read so far, in the order they were read. -/
structure View where
  parts : List TdModelPart
  materials : List TdModelMaterial
  textures : List TdModelTextureSlot
  iMaterialLibOfs : Int32
  iTexLibOfs : Int32

def LoadState.view (st : LoadState) : View where
  parts := st.model.Parts
  materials := st.log.filterMap LoadEvent.material?
  textures := st.log.filterMap LoadEvent.texture?
  iMaterialLibOfs := st.iMaterialLibOfs
  iTexLibOfs := st.iTexLibOfs

/-- The maps those chunks make. -/
def View.materialMap (v : View) : SortedMap Name TdModelMaterial :=
  .insertMany .empty (v.materials.map fun m => (m.sName, m))

def View.textureMap (v : View) : SortedMap Name TdModelTextureSlot :=
  .insertMany .empty (v.textures.map fun t => (t.sName, t))

/-- The loader is at `pc`, `pos` bytes into `bytes`, and has read `view`. -/
structure Stands (bytes : List UInt8) (pos : Nat) (pc : LoadPc) (v : View) (st : LoadState) : Prop where
  stream : st.stream.At bytes pos
  pc : st.pc = pc
  view : st.view = v
  materials : st.model.Materials = v.materialMap
  textures : st.model.Textures = v.textureMap

theorem Stands.follow {bytes rest : List UInt8} {pos : Nat} {pc : LoadPc} {v : View} {st : LoadState}
    (h : Stands bytes pos pc v st) (small : bytes.length < 2 ^ 31) {ofs : Nat} {front : List UInt8}
    (found : bytes.drop ofs = front ++ rest) (nonempty : 0 < front.length) :
    (st.stream.seekTo (UInt32.ofNat ofs).toInt32).At bytes ofs ∧ ofs ≤ bytes.length := by
  have stream := h.stream
  have length := congrArg List.length found
  rw [List.length_drop, List.length_append] at length
  have value : (UInt32.ofNat ofs).toInt32.toInt = ofs := toInt_ofNat (by omega)
  have arrived := stream.seekTo small (UInt32.ofNat ofs).toInt32 (by omega) (by omega)
  rw [value] at arrived
  exact ⟨arrived, by omega⟩

theorem link_pos {ofs : Nat} (positive : 0 < ofs) (small : ofs < 2 ^ 31) :
    0 < (UInt32.ofNat ofs).toInt32 := by
  rw [int32_pos_iff, toInt_ofNat small]
  omega

section Rounds
variable {target : Target} {bytes rest : List UInt8} {st : LoadState} {v : View}
  {pos ofs : Nat} (u : Uninit)

theorem header_found (target : Target) {hdr : FileHeader} (entry : st.stream.At bytes 0) (pc : st.pc = .start)
    (log : st.log = []) (found : bytes = FileHeader.codec.enc hdr ++ rest)
    (sign : hdr.szSign.toList = ascii "SEYEDOF 3D FORMAT") (version : hdr.uiVersion = formatVersion) :
    Stands bytes 46 (.part hdr.iFirstPartOfs) ⟨[], [], [], hdr.iMaterialLibOfs, hdr.iTexLibOfs⟩
      (loadStep target u st) := by
  have read := readStruct_found entry (show FileHeader.codec.size < 2 ^ 32 by decide) (a := hdr)
    (Nat.zero_le _) found u
  simp only [loadStep, pc]
  unfold loadHeader
  generalize readStruct FileHeader.codec st.stream u = r at read
  obtain ⟨hdr', got, stream⟩ := r
  obtain ⟨rfl, behind⟩ := read
  simp only at sign version
  simp only [sign, version, ne_eq, not_true_eq_false, if_false, log]
  exact ⟨behind, rfl, rfl, rfl, rfl⟩

variable (small : bytes.length < 2 ^ 31)
include small

theorem part_found (target : Target) {hdr : FilePart}
    (at_link : Stands bytes pos (.part (UInt32.ofNat ofs).toInt32) v st) (positive : 0 < ofs)
    (found : bytes.drop ofs = FilePart.codec.enc hdr ++ rest)
    (sign : hdr.szSign.toList = ascii "PART") :
    Stands bytes (ofs + 44) (.subset hdr.iFirstSubset hdr.iNextPartOfs)
      { v with parts := v.parts ++ [⟨nameAt FilePart.codec hdr 4 u.tail, []⟩] }
      (loadStep target u st) := by
  obtain ⟨arrived, inside⟩ := at_link.follow small found (by simp)
  have read := readStruct_found arrived (by decide) inside found u
  simp only [loadStep, at_link.pc, if_pos (link_pos positive (by omega))]
  unfold loadPart
  generalize readStruct FilePart.codec (st.stream.seekTo (UInt32.ofNat ofs).toInt32) u = r at read
  obtain ⟨hdr', got, stream⟩ := r
  obtain ⟨rfl, behind⟩ := read
  simp only [sign, ne_eq, not_true_eq_false, if_false]
  refine ⟨behind, rfl, ?_, at_link.materials, at_link.textures⟩
  simp [LoadState.view, ← at_link.view, LoadEvent.material?, LoadEvent.texture?]

theorem material_found (target : Target) (hdr : FileMaterial)
    (at_link : Stands bytes pos (.material (UInt32.ofNat ofs).toInt32) v st) (positive : 0 < ofs)
    (found : bytes.drop ofs = FileMaterial.codec.enc hdr ++ rest)
    (sign : hdr.szSign.toList = ascii "MATERIAL") :
    Stands bytes (ofs + 320) (.material hdr.iNextMaterialOfs)
      { v with materials := v.materials ++ [materialOf hdr u.tail] } (loadStep target u st) := by
  obtain ⟨arrived, inside⟩ := at_link.follow small found (by simp)
  have read := readStruct_found arrived (by decide) inside found u
  simp only [loadStep, at_link.pc, if_pos (link_pos positive (by omega))]
  unfold loadMaterial
  generalize readStruct FileMaterial.codec (st.stream.seekTo (UInt32.ofNat ofs).toInt32) u = r at read
  obtain ⟨hdr', got, stream⟩ := r
  obtain ⟨rfl, behind⟩ := read
  simp only [sign, ne_eq, not_true_eq_false, if_false]
  refine ⟨behind, rfl, ?_, ?_, at_link.textures⟩
  · simp [LoadState.view, ← at_link.view, List.filterMap_cons, LoadEvent.material?,
      LoadEvent.texture?]
  · simp only [at_link.materials, View.materialMap, List.map_append, SortedMap.insertMany_append]
    rfl

end Rounds

/-! ### Payloads -/

/-- How a payload may lie in the file. -/
def StoredAs (compressed : Bool) (stored payload : List UInt8) : Prop :=
  if compressed then ∃ consumed, Lz4.decompressFast stored payload.length = .done consumed payload
  else stored = payload

theorem unpack_stored {stored payload : List UInt8} {size : UInt32} (fill : Nat → UInt8)
    (length : size.toNat = payload.length) (small : payload.length < 2 ^ 31)
    (h : StoredAs true stored payload) : (unpack fill stored size).2 = payload := by
  obtain ⟨consumed, done⟩ := h
  have value : size.toInt32.toInt = payload.length := by
    rw [toInt_toInt32_small (by omega), length]
  simp only [unpack, value, done]

section Payloads
variable {target : Target} {bytes rest : List UInt8} {s : BaseStream} {pos : Nat} (u : Uninit)
  {stored payload : List UInt8} (h : s.At bytes pos)
  (inside : pos ≤ bytes.length) (found : bytes.drop pos = stored ++ rest)
include h inside found

theorem readCompressed_found {hdr : FileSubset} (held : StoredAs true stored payload)
    (size : hdr.uiCompressedSize.toNat = stored.length)
    (length : hdr.uiDataSize.toNat = payload.length) (range : payload.length < 2 ^ 31)
    (parts : payload.length = hdr.vbSize.toNat + 4 * hdr.ibCount)
    (indices : hdr.ibSize target = 4 * hdr.ibCount) :
    (readCompressed target u hdr s).pVB = payload.take hdr.vbSize.toNat ∧
      (readCompressed target u hdr s).pIB = payload.drop hdr.vbSize.toNat ∧
      (readCompressed target u hdr s).stream.At bytes (pos + stored.length) := by
  obtain ⟨got, behind⟩ := read_found h size inside found u.beyond
  have unpacked := unpack_stored u.pDest length range held
  simp only [readCompressed, got, overlay_cells size.symm, unpacked, indices]
  refine ⟨?_, ?_, behind⟩
  · rw [fetch_inside (by omega), overlay_cells (by simp; omega), List.drop_zero]
  · rw [fetch_inside (by omega), overlay_cells (by simp; omega), List.take_of_length_le (by simp; omega)]

theorem readRaw_found {hdr : FileSubset} (held : StoredAs false stored payload)
    (range : payload.length < 2 ^ 31) (parts : payload.length = hdr.vbSize.toNat + 4 * hdr.ibCount)
    (indices : hdr.ibSize target = 4 * hdr.ibCount) :
    (readRaw target u hdr s).pVB = payload.take hdr.vbSize.toNat ∧
      (readRaw target u hdr s).pIB = payload.drop hdr.vbSize.toNat ∧
      (readRaw target u hdr s).stream.At bytes (pos + stored.length) := by
  obtain rfl : stored = payload := held
  have vertices : hdr.vbSize.toNat = (stored.take hdr.vbSize.toNat).length := by
    rw [List.length_take]
    omega
  have rest_size : (UInt32.ofNat (hdr.ibSize target)).toNat = (stored.drop hdr.vbSize.toNat).length := by
    rw [UInt32.toNat_ofNat_of_lt' (by simp only [UInt32.size]; omega), indices, List.length_drop]
    omega
  rw [← List.take_append_drop hdr.vbSize.toNat stored, List.append_assoc] at found
  obtain ⟨got, behind⟩ := read_found h vertices inside found u.beyond
  have length := congrArg List.length found
  simp only [List.length_append, List.length_drop] at length
  have next : bytes.drop (pos + (stored.take hdr.vbSize.toNat).length) =
      stored.drop hdr.vbSize.toNat ++ rest := by
    rw [← List.drop_drop, found, List.drop_left]
  obtain ⟨got', behind'⟩ := read_found behind rest_size (by omega) next u.beyond
  simp only [readRaw, got, got']
  have total : (stored.take hdr.vbSize.toNat).length + (stored.drop hdr.vbSize.toNat).length =
      stored.length := by
    rw [List.length_take, List.length_drop]
    omega
  refine ⟨overlay_cells vertices.symm, overlay_cells ?_, ?_⟩
  · rw [List.length_drop]
    omega
  · rw [← total, ← Nat.add_assoc]
    exact behind'

theorem readTexture_found {hdr : FileTexture}
    (held : StoredAs (decide (hdr.uiFlags = tdsFlagCompressed)) stored payload)
    (size : hdr.uiFlags = tdsFlagCompressed → hdr.uiCompressedSize.toNat = stored.length)
    (length : hdr.uiDataSize.toNat = payload.length) (range : payload.length < 2 ^ 31) :
    (readTexture u hdr s).1 = payload ∧ (readTexture u hdr s).2.1.At bytes (pos + stored.length) ∧
      (readTexture u hdr s).2.2.filterMap LoadEvent.material? = [] ∧
      (readTexture u hdr s).2.2.filterMap LoadEvent.texture? = [] := by
  unfold readTexture
  split
  · rename_i compressed
    rw [decide_eq_true compressed] at held
    obtain ⟨got, behind⟩ := read_found h (size compressed) inside found u.beyond
    have unpacked := unpack_stored u.pDest length range held
    simp only [got, overlay_cells (size compressed).symm, unpacked]
    exact ⟨trivial, behind, rfl, rfl⟩
  · rename_i raw
    rw [decide_eq_false raw] at held
    obtain rfl : stored = payload := held
    obtain ⟨got, behind⟩ := read_found h length inside found u.beyond
    simp only [got, overlay_cells length.symm]
    exact ⟨trivial, behind, rfl, rfl⟩

end Payloads

theorem filterMap_payload {target : Target} {u : Uninit} {hdr : FileSubset} {s : BaseStream} {α : Type}
    (f : LoadEvent → Option α) (read : ∀ p w r t, f (.read p w r t) = none)
    (unpack : ∀ a b r, f (.unpack a b r) = none) (copy : ∀ a b c d, f (.copy a b c d) = none) :
    (if hdr.isCompressed then readCompressed target u hdr s
      else readRaw target u hdr s).events.filterMap f = [] := by
  split <;> simp [readCompressed, readRaw, read, unpack, copy]

/-- What a subset chunk is loaded as, given its payload. -/
def subsetOf (hdr : FileSubset) (payload tail : List UInt8) : TdModelSubset where
  pVB := payload.take hdr.vbSize.toNat
  pIB := Codec.u32.decMany hdr.ibCount (payload.drop hdr.vbSize.toNat)
  uiVertCount := hdr.uiVertexCount
  uiTriCount := hdr.uiTriCount
  sMatName := nameAt FileSubset.codec hdr 10 tail
  uiVertexFmt := hdr.uiVertexFormat

/-- What a texture chunk is loaded as, given its payload. -/
def textureOf (hdr : FileTexture) (payload tail : List UInt8) : TdModelTextureSlot where
  sName := nameAt FileTexture.codec hdr 3 tail
  uiSize := hdr.uiDataSize
  pData := payload
  eFormat := hdr.eTexFormat
  clrAvgColor := hdr.clrAvgColor

section Rounds
variable {target : Target} {bytes rest : List UInt8} {st : LoadState} {v : View}
  {pos ofs : Nat} (u : Uninit) (small : bytes.length < 2 ^ 31) {stored : List UInt8}
include small

theorem subset_found (target : Target) (hdr : FileSubset) (payload : List UInt8) {back : Int32}
    (at_link : Stands bytes pos (.subset (UInt32.ofNat ofs).toInt32 back) v st) (positive : 0 < ofs)
    (found : bytes.drop ofs = FileSubset.codec.enc hdr ++ (stored ++ rest))
    (sign : hdr.szSign.toList = ascii "SUBSET")
    (checked : hdr.uiDataSize.toNat = hdr.checkedSize target)
    (held : StoredAs hdr.isCompressed stored payload)
    (size : hdr.isCompressed = true → hdr.uiCompressedSize.toNat = stored.length)
    (length : hdr.uiDataSize.toNat = payload.length) (range : payload.length < 2 ^ 31)
    (parts : payload.length = hdr.vbSize.toNat + 4 * hdr.ibCount)
    (indices : hdr.ibSize target = 4 * hdr.ibCount) :
    Stands bytes (ofs + 76 + stored.length) (.subset hdr.iNextSubsetOfs back)
      { v with parts := pushSubset v.parts (subsetOf hdr payload u.tail) }
      (loadStep target u st) := by
  obtain ⟨arrived, inside⟩ := at_link.follow small found (by simp)
  have read := readStruct_found arrived (by decide) inside found u
  simp only [loadStep, at_link.pc, if_pos (link_pos positive (by omega))]
  unfold loadSubset
  generalize readStruct FileSubset.codec (st.stream.seekTo (UInt32.ofNat ofs).toInt32) u = r at read
  obtain ⟨hdr', got, stream⟩ := r
  obtain ⟨rfl, behind⟩ := read
  simp only at sign checked held size length parts indices behind
  have next : bytes.drop (ofs + FileSubset.codec.size) = stored ++ rest := by
    rw [← List.drop_drop, found, List.drop_left' (FileSubset.codec.length_enc _)]
  have behind_inside : ofs + FileSubset.codec.size ≤ bytes.length := by
    have length := congrArg List.length found
    simp only [List.length_drop, List.length_append, Codec.length_enc, FileSubset.size] at length ⊢
    omega
  have alloc : ¬ target.sizeMod ≤ 4 * hdr'.ibCount := by
    have := target.le_sizeMod
    omega
  have buffers : ∀ b, b = (if hdr'.isCompressed then readCompressed target u hdr' stream
      else readRaw target u hdr' stream) → b.pVB = payload.take hdr'.vbSize.toNat ∧
        b.pIB = payload.drop hdr'.vbSize.toNat ∧ b.stream.At bytes (ofs + 76 + stored.length) := by
    rintro b rfl
    cases compressed : hdr'.isCompressed with
    | true =>
      rw [compressed] at held
      exact readCompressed_found u behind behind_inside next held (size compressed) length range
        parts indices
    | false =>
      rw [compressed] at held
      exact readRaw_found u behind behind_inside next held range parts indices
  simp only [sign, checked, ne_eq, not_true_eq_false, if_false, alloc]
  obtain ⟨pVB, pIB, stream'⟩ := buffers _ rfl
  refine ⟨stream', rfl, ?_, at_link.materials, at_link.textures⟩
  simp only [LoadState.view, ← at_link.view, pVB, pIB, List.filterMap_append,
    filterMap_payload LoadEvent.material? (fun _ _ _ _ => rfl) (fun _ _ _ => rfl) (fun _ _ _ _ => rfl),
    filterMap_payload LoadEvent.texture? (fun _ _ _ _ => rfl) (fun _ _ _ => rfl) (fun _ _ _ _ => rfl)]
  simp [subsetOf, LoadEvent.material?, LoadEvent.texture?]

theorem texture_found (target : Target) (hdr : FileTexture) (payload : List UInt8)
    (at_link : Stands bytes pos (.texture (UInt32.ofNat ofs).toInt32) v st) (positive : 0 < ofs)
    (found : bytes.drop ofs = FileTexture.codec.enc hdr ++ (stored ++ rest))
    (sign : hdr.szSign.toList = ascii "TEX")
    (held : StoredAs (decide (hdr.uiFlags = tdsFlagCompressed)) stored payload)
    (size : hdr.uiFlags = tdsFlagCompressed → hdr.uiCompressedSize.toNat = stored.length)
    (length : hdr.uiDataSize.toNat = payload.length) (range : payload.length < 2 ^ 31) :
    Stands bytes (ofs + 76 + stored.length) (.texture hdr.iNextTexOfs)
      { v with textures := v.textures ++ [textureOf hdr payload u.tail] }
      (loadStep target u st) := by
  obtain ⟨arrived, inside⟩ := at_link.follow small found (by simp)
  have read := readStruct_found arrived (by decide) inside found u
  simp only [loadStep, at_link.pc, if_pos (link_pos positive (by omega))]
  unfold loadTexture
  generalize readStruct FileTexture.codec (st.stream.seekTo (UInt32.ofNat ofs).toInt32) u = r at read
  obtain ⟨hdr', got, stream⟩ := r
  obtain ⟨rfl, behind⟩ := read
  simp only at sign held size length behind
  have next : bytes.drop (ofs + FileTexture.codec.size) = stored ++ rest := by
    rw [← List.drop_drop, found, List.drop_left' (FileTexture.codec.length_enc _)]
  have behind_inside : ofs + FileTexture.codec.size ≤ bytes.length := by
    have length := congrArg List.length found
    simp only [List.length_drop, List.length_append, Codec.length_enc, FileTexture.size] at length ⊢
    omega
  obtain ⟨pData, stream', noMaterial, noTexture⟩ := readTexture_found u behind behind_inside next
    held size length range
  simp only [sign, ne_eq, not_true_eq_false, if_false]
  refine ⟨stream', rfl, ?_, at_link.materials, ?_⟩
  · simp only [LoadState.view, ← at_link.view, List.filterMap_append, noMaterial, noTexture, pData]
    simp [textureOf, List.filterMap_cons, LoadEvent.material?, LoadEvent.texture?]
  · simp only [at_link.textures, View.textureMap, List.map_append, SortedMap.insertMany_append, pData]
    rfl

end Rounds

end ModelPublish.Scan
