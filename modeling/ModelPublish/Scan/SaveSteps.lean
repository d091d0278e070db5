import ModelPublish.Scan.Save

/-!
# The steps of the writer

Each loop body of `Save3DScanModel` in closed form, for payloads whose size times 8 is an
`int32_t`: the header it writes is the one the layout asks for.
-/

namespace ModelPublish.Scan
open Packed

/-! ### Sizes -/

/-- The largest payload whose size the writer can multiply by 8. -/
def payloadLimit : Nat := 2 ^ 28

namespace TdModelSubset
variable {s : TdModelSubset} (small : s.payloadSize < payloadLimit)
include small

theorem vertexBytes_toNat :
    (getVertexSize s.uiVertexFmt * s.uiVertCount).toNat = s.vertexBytes := by
  simp only [payloadSize, payloadLimit] at small
  rw [UInt32.toNat_mul]
  exact Nat.mod_eq_of_lt (by unfold vertexBytes at small; omega)

theorem triples_toNat : (s.uiTriCount * 3).toNat = 3 * s.uiTriCount.toNat := by
  simp only [payloadSize, payloadLimit, indexBytes] at small
  have three : (3 : UInt32).toNat = 3 := rfl
  rw [UInt32.toNat_mul, three, Nat.mul_comm]
  exact Nat.mod_eq_of_lt (by omega)

end TdModelSubset

namespace SaveEnv
variable {env : SaveEnv}

theorem sizeT_small {n : Nat} (h : n < 2 ^ 32) : env.sizeT n = n :=
  Nat.mod_eq_of_lt (Nat.lt_of_lt_of_le h env.target.le_sizeMod)

theorem dataSize_eq {s : TdModelSubset} (small : s.payloadSize < payloadLimit) :
    env.sizeT ((s.uiVertCount * getVertexSize s.uiVertexFmt).toNat + (s.uiTriCount * 3).toNat * 4) =
      s.payloadSize := by
  have vertices := TdModelSubset.vertexBytes_toNat small
  have triples := TdModelSubset.triples_toNat small
  rw [UInt32.mul_comm, vertices, triples]
  simp only [TdModelSubset.payloadSize, payloadLimit, TdModelSubset.indexBytes] at small ⊢
  rw [sizeT_small (by omega)]
  omega

theorem vbIbSize_eq {s : TdModelSubset} (small : s.payloadSize < payloadLimit) :
    env.sizeT ((getVertexSize s.uiVertexFmt * s.uiVertCount).toNat + 4 * s.uiTriCount.toNat * 3) =
      s.payloadSize := by
  rw [TdModelSubset.vertexBytes_toNat small]
  simp only [TdModelSubset.payloadSize, payloadLimit, TdModelSubset.indexBytes] at small ⊢
  rw [sizeT_small (by omega)]
  omega

theorem source_eq {s : TdModelSubset} (small : s.payloadSize < payloadLimit) :
    (copyOut s.pVB (getVertexSize s.uiVertexFmt * s.uiVertCount).toNat ++
      copyOut (indexImage s.pIB) (env.sizeT (4 * s.uiTriCount.toNat * 3))).take s.payloadSize =
      s.payload := by
  have indices : env.sizeT (4 * s.uiTriCount.toNat * 3) = s.indexBytes := by
    simp only [TdModelSubset.payloadSize, payloadLimit, TdModelSubset.indexBytes] at small ⊢
    rw [sizeT_small (by omega)]
    omega
  rw [TdModelSubset.vertexBytes_toNat small, indices]
  exact List.take_of_length_le (by simp [TdModelSubset.payloadSize])

theorem compressBound_small {n : Nat} (h : n < payloadLimit) :
    Lz4.compressBound n = n + n / 255 + 16 := by
  apply if_neg
  simp only [Lz4.maxInputSize, payloadLimit] at h ⊢
  omega

variable (hc : Lz4.CompressHC env.compress)
include hc

theorem block_length {payload : List UInt8} (small : payload.length < payloadLimit) :
    0 < (env.compress payload (Lz4.compressBound payload.length)).length ∧
      (env.compress payload (Lz4.compressBound payload.length)).length < 2 ^ 30 := by
  have bound := compressBound_small small
  have written := hc.written payload (Lz4.compressBound payload.length)
    (by simp only [Lz4.maxInputSize, payloadLimit] at small ⊢; omega) (Nat.le_refl _)
  simp only [payloadLimit] at small
  omega

theorem store_length {payload : List UInt8} (small : payload.length < payloadLimit) :
    (env.store payload).bytes.length < 2 ^ 30 := by
  have block := block_length hc small
  simp only [payloadLimit] at small
  simp only [store]
  split
  · exact block.2
  · exact Nat.lt_trans small (by decide)

theorem useCompressed_eq {payload : List UInt8} {iSize : Int32}
    (small : payload.length < payloadLimit) (size : iSize.toInt = payload.length) :
    env.useCompressed (UInt32.ofNat (if env.noCompression then [] else
        env.compress payload (Lz4.compressBound payload.length)).length).toInt32 iSize =
      (env.store payload).compressed := by
  have block := block_length hc small
  have threshold : (iSize * 8 / 10).toInt = (payload.length : Int) * 8 / 10 := by
    simp only [payloadLimit] at small
    have product := toInt_mul_eight (i := iSize) (by omega) (by omega)
    rw [toInt_div_ten (by omega), product, size]
  have smaller : (UInt32.ofNat (env.compress payload
      (Lz4.compressBound payload.length)).length).toInt32 < iSize * 8 / 10 ↔
      (env.compress payload (Lz4.compressBound payload.length)).length < payload.length * 8 / 10 := by
    rw [Int32.lt_iff_toInt_lt, threshold, toInt_ofNat (Nat.lt_trans block.2 (by decide))]
    omega
  unfold useCompressed store
  cases env.noCompression with
  | true => rfl
  | false =>
    simp only [Bool.not_false, Bool.true_and, Bool.false_eq_true, if_false, smaller,
      decide_eq_true_eq]
    split <;> rename_i h <;> simp [h]

end SaveEnv

/-! ### Loop bodies -/

namespace SaveEnv
variable {env : SaveEnv} (hc : Lz4.CompressHC env.compress)

def payloadNumbers (size : Nat) (stored : Stored) (next : Int) (uiFileOfs : Int) : PayloadNumbers :=
  ⟨size, size, size * 8, size * 8 / 10, stored.bytes.length, next, uiFileOfs⟩

/-- What the compressor left in its buffer. -/
def destination (env : SaveEnv) (payload : List UInt8) : List UInt8 :=
  if env.noCompression then [] else env.compress payload (Lz4.compressBound payload.length)

theorem store_compressed {payload : List UInt8} (h : (env.store payload).compressed = true) :
    env.destination payload = (env.store payload).bytes := by
  unfold store at h ⊢
  simp only at h ⊢
  split at h
  · rename_i used
    simp only [Bool.and_eq_true, Bool.not_eq_true'] at used
    simp [destination, used]
  · cases h

theorem store_raw {payload : List UInt8} (h : (env.store payload).compressed = false) :
    (env.store payload).bytes = payload := by
  unfold store at h ⊢
  simp only at h ⊢
  split at h
  · cases h
  · rename_i unused
    rw [if_neg unused]

theorem stored_size (env : SaveEnv) (payload : List UInt8) {uiDataSize : UInt32}
    (size : uiDataSize = UInt32.ofNat payload.length) :
    (if (env.store payload).compressed then
        (UInt32.ofNat (env.destination payload).length).toInt32.toUInt32 else uiDataSize) =
      UInt32.ofNat (env.store payload).bytes.length := by
  cases h : (env.store payload).compressed with
  | true => simp only [if_true, store_compressed h, UInt32.toUInt32_toInt32]
  | false => simp only [Bool.false_eq_true, if_false, store_raw h, size]

theorem destination_take {payload : List UInt8} (hc : Lz4.CompressHC env.compress)
    (small : payload.length < payloadLimit) (h : (env.store payload).compressed = true) :
    (env.destination payload).take
      (UInt32.ofNat (env.destination payload).length).toInt32.toInt.toNat =
      (env.store payload).bytes := by
  have length := store_length hc small
  rw [store_compressed h, toInt_ofNat (Nat.lt_trans length (by decide))]
  exact List.take_length

theorem toNat_stored {payload : List UInt8} (hc : Lz4.CompressHC env.compress)
    (small : payload.length < payloadLimit) :
    (UInt32.ofNat (env.store payload).bytes.length).toNat = (env.store payload).bytes.length :=
  UInt32.toNat_ofNat_of_lt' (Nat.lt_trans (store_length hc small) (by decide))

theorem write_stored {payload : List UInt8} (hc : Lz4.CompressHC env.compress)
    (small : payload.length < payloadLimit) (f : OutFile) :
    (if (env.store payload).compressed then f.fwrite ((env.destination payload).take
        (UInt32.ofNat (env.destination payload).length).toInt32.toInt.toNat) else f.fwrite payload) =
      f.fwrite (env.store payload).bytes := by
  cases h : (env.store payload).compressed with
  | true => rw [if_pos rfl, destination_take hc small h]
  | false => rw [if_neg (by decide), store_raw h]

theorem fwriteItems_payload {s : TdModelSubset} (small : s.payloadSize < payloadLimit)
    (f : OutFile) :
    (f.fwriteItems env.target s.pVB (getVertexSize s.uiVertexFmt).toNat
      s.uiVertCount.toNat).fwriteItems env.target (indexImage s.pIB) 4 (s.uiTriCount * 3).toNat =
      f.fwrite s.payload := by
  have range := env.target.le_sizeMod
  have indices : 4 * (s.uiTriCount * 3).toNat = s.indexBytes := by
    rw [TdModelSubset.triples_toNat small, TdModelSubset.indexBytes]
    omega
  simp only [TdModelSubset.payloadSize, payloadLimit] at small
  have vertices : (getVertexSize s.uiVertexFmt).toNat * s.uiVertCount.toNat = s.vertexBytes := rfl
  rw [OutFile.fwriteItems, OutFile.fwriteItems, vertices, indices, if_neg (by omega),
    if_neg (by omega), OutFile.fwrite_append, TdModelSubset.payload]

theorem linkTo_eq (last : Bool) (ofs : UInt32) (size : UInt32) (n : Nat) (h : size = UInt32.ofNat n) :
    (if last then -1 else (ofs + size).toInt32) = linkTo last (ofs.toNat + n) ∧
      ofs + size = UInt32.ofNat (ofs.toNat + n) := by
  have sum : ofs + size = UInt32.ofNat (ofs.toNat + n) := by
    rw [UInt32.ofNat_add, UInt32.ofNat_toNat, h]
  exact ⟨by rw [linkTo, sum], sum⟩

include hc in
theorem saveSubset_eq (last : Bool) {s : TdModelSubset} (small : s.payloadSize < payloadLimit)
    (st : SaveState) :
    env.saveSubset last s st =
      let stored := env.store s.payload
      let uiFileOfs := UInt32.ofNat (st.uiFileOfs.toNat + env.subsetSize s)
      let next := linkTo last (st.uiFileOfs.toNat + env.subsetSize s)
      some {
        file := st.file.fwrite (FileSubset.codec.enc (subsetHeader s stored next) ++ stored.bytes)
        uiFileOfs
        hdr := { st.hdr with uiTotalTriCount := st.hdr.uiTotalTriCount + s.uiTriCount }
        chunks := st.chunks ++ [(.subset, st.file.pos)]
        log := st.log ++ [.subset (payloadNumbers s.payloadSize stored next.toInt uiFileOfs.toNat)] } := by
  have payloadSmall : s.payload.length < payloadLimit := by simpa using small
  have limit : s.payloadSize < 2 ^ 28 := small
  have value : (UInt32.ofNat s.payloadSize).toInt32.toInt = s.payloadSize :=
    toInt_ofNat (Nat.lt_trans limit (by decide))
  have nonneg : ¬ (UInt32.ofNat s.payloadSize).toInt32 < 0 := by
    rw [int32_neg_iff, value]
    omega
  have dest : (if env.noCompression then [] else
      env.compress s.payload (Lz4.compressBound s.payloadSize)) = env.destination s.payload := by
    rw [destination, TdModelSubset.length_payload]
  have used : env.useCompressed (UInt32.ofNat (env.destination s.payload).length).toInt32
      (UInt32.ofNat s.payloadSize).toInt32 = (env.store s.payload).compressed :=
    useCompressed_eq hc payloadSmall (by rw [value, TdModelSubset.length_payload])
  have size := stored_size env s.payload
    (show UInt32.ofNat s.payloadSize = _ by rw [TdModelSubset.length_payload])
  have flags : (if (env.store s.payload).compressed = true then
      (blank FileSubset.codec "SUBSET").uiFlags ||| tdsFlagCompressed
      else (blank FileSubset.codec "SUBSET").uiFlags) = (env.store s.payload).flags := rfl
  have chunk : UInt32.ofNat (env.store s.payload).bytes.length + sizeOf FileSubset.codec =
      UInt32.ofNat (env.subsetSize s) := by
    rw [subsetSize, UInt32.ofNat_add, UInt32.add_comm]
    rfl
  obtain ⟨link, offset⟩ := linkTo_eq last st.uiFileOfs _ _ chunk
  have scaled : ((UInt32.ofNat s.payloadSize).toInt32 * 8).toInt = s.payloadSize * 8 := by
    rw [toInt_mul_eight (by omega) (by omega), value]
  have threshold : ((UInt32.ofNat s.payloadSize).toInt32 * 8 / 10).toInt = s.payloadSize * 8 / 10 := by
    rw [toInt_div_ten (by omega), scaled]
  have sizeNat : (UInt32.ofNat s.payloadSize).toNat = s.payloadSize :=
    UInt32.toNat_ofNat_of_lt' (Nat.lt_trans limit (by decide))
  have storedNat := toNat_stored hc payloadSmall
  unfold saveSubset
  simp only [dataSize_eq small, vbIbSize_eq small, if_neg nonneg, value, Int.toNat_natCast,
    source_eq small, dest, used, size, flags, scaled, threshold, sizeNat, storedNat]
  rw [UInt32.add_assoc, link, offset, fwriteItems_payload small, write_stored hc payloadSmall,
    OutFile.fwrite_append]
  rfl

theorem saveMaterial_eq (last : Bool) (m : TdModelMaterial) (st : SaveState) :
    saveMaterial last m st =
      let uiFileOfs := UInt32.ofNat (st.uiFileOfs.toNat + materialSize m)
      let next := linkTo last (st.uiFileOfs.toNat + materialSize m)
      { st with
        file := st.file.fwrite (FileMaterial.codec.enc (materialHeader m next))
        uiFileOfs
        chunks := st.chunks ++ [(.material, st.file.pos)]
        log := st.log ++ [.material next.toInt uiFileOfs.toNat] } := by
  obtain ⟨link, offset⟩ := linkTo_eq last st.uiFileOfs (sizeOf FileMaterial.codec) (materialSize m) rfl
  unfold saveMaterial
  simp only [offset, ← link]
  rfl

include hc in
theorem saveTexture_eq (last : Bool) {t : TdModelTextureSlot} (small : t.uiSize.toNat < payloadLimit)
    (st : SaveState) :
    env.saveTexture last t st =
      let stored := env.store t.payload
      let uiFileOfs := UInt32.ofNat (st.uiFileOfs.toNat + env.textureSize t)
      let next := linkTo last (st.uiFileOfs.toNat + env.textureSize t)
      some { st with
        file := st.file.fwrite (FileTexture.codec.enc (textureHeader t stored next) ++ stored.bytes)
        uiFileOfs
        chunks := st.chunks ++ [(.texture, st.file.pos)]
        log := st.log ++
          [.texture (payloadNumbers t.uiSize.toNat stored next.toInt uiFileOfs.toNat)] } := by
  have payloadSmall : t.payload.length < payloadLimit := by simpa using small
  have limit : t.uiSize.toNat < 2 ^ 28 := small
  have value : t.uiSize.toInt32.toInt = t.uiSize.toNat :=
    toInt_toInt32_small (Nat.lt_trans limit (by decide))
  have nonneg : ¬ t.uiSize.toInt32 < 0 := by
    rw [int32_neg_iff, value]
    omega
  have dest : (if env.noCompression then some [] else
      env.compressHC (copyOut t.pData t.uiSize.toNat) t.uiSize.toInt32) =
        some (env.destination t.payload) := by
    rw [destination, TdModelTextureSlot.length_payload, compressHC, if_neg nonneg, value]
    split <;> rfl
  have used : env.useCompressed (UInt32.ofNat (env.destination t.payload).length).toInt32
      t.uiSize.toInt32 = (env.store t.payload).compressed :=
    useCompressed_eq hc payloadSmall (by rw [value, TdModelTextureSlot.length_payload])
  have size := stored_size env t.payload
    (show t.uiSize = _ by rw [TdModelTextureSlot.length_payload, UInt32.ofNat_toNat])
  have flags : (if (env.store t.payload).compressed = true then
      (blank FileTexture.codec "TEX").uiFlags ||| tdsFlagCompressed
      else (blank FileTexture.codec "TEX").uiFlags) = (env.store t.payload).flags := rfl
  have chunk : sizeOf FileTexture.codec + UInt32.ofNat (env.store t.payload).bytes.length =
      UInt32.ofNat (env.textureSize t) := by
    rw [textureSize, UInt32.ofNat_add]
    rfl
  obtain ⟨link, offset⟩ := linkTo_eq last st.uiFileOfs _ _ chunk
  have scaled : (t.uiSize.toInt32 * 8).toInt = t.uiSize.toNat * 8 := by
    rw [toInt_mul_eight (by omega) (by omega), value]
  have threshold : (t.uiSize.toInt32 * 8 / 10).toInt = t.uiSize.toNat * 8 / 10 := by
    rw [toInt_div_ten (by omega), scaled]
  have storedNat := toNat_stored hc payloadSmall
  -- the raw bytes are as many as the header says
  have data : (if (env.store t.payload).compressed then (env.destination t.payload).take
        (UInt32.ofNat (env.destination t.payload).length).toInt32.toInt.toNat
      else copyOut t.pData (env.store t.payload).bytes.length) = (env.store t.payload).bytes := by
    cases h : (env.store t.payload).compressed with
    | true => rw [if_pos rfl, destination_take hc payloadSmall h]
    | false =>
      rw [if_neg (by decide), store_raw h, TdModelTextureSlot.length_payload]
      rfl
  unfold saveTexture
  simp only [dest, Option.map_some, used, size, flags, scaled, threshold, storedNat, value, data]
  rw [UInt32.add_assoc, link, offset, OutFile.fwrite_append]
  rfl

def firstSubset (st : SaveState) : Int32 := (UInt32.ofNat (st.uiFileOfs.toNat + 44)).toInt32

/-- The state in which the subsets of a part are written. -/
def partStart (p : TdModelPart) (st : SaveState) : SaveState :=
  { st with
    file := st.file.fwrite (FilePart.codec.enc (partHeader p (-1) (firstSubset st)))
    uiFileOfs := UInt32.ofNat (st.uiFileOfs.toNat + 44)
    chunks := st.chunks ++ [(.part, st.file.pos)] }

/-- The state after a part, which was begun in `st`, when its subsets left `behind`. -/
def partEnd (last : Bool) (p : TdModelPart) (st behind : SaveState) : SaveState :=
  let next := if last then -1 else behind.uiFileOfs.toInt32
  { behind with
    file := ((behind.file.fseek st.uiFileOfs).fwrite
      (FilePart.codec.enc (partHeader p next (firstSubset st)))).fseek behind.uiFileOfs
    log := behind.log ++
      [.part (firstSubset st).toInt next.toInt behind.uiFileOfs.toNat] }

theorem savePart_eq (last : Bool) (p : TdModelPart) (st : SaveState) :
    env.savePart last p st = (env.saveSubsets p.Subsets (partStart p st)).map (partEnd last p st) := by
  obtain ⟨-, offset⟩ := linkTo_eq last st.uiFileOfs (sizeOf FilePart.codec) 44 rfl
  unfold savePart
  simp only [offset]
  rfl

end SaveEnv
end ModelPublish.Scan
