import ModelPublish.Scan.Written

/-!
# Exactness of the writer

The sizes and offsets a save computes, and the file it leaves, against the same numbers in unbounded
arithmetic. They agree exactly for the models whose payloads and positions fit the writer's words.
-/

namespace ModelPublish.Scan
open Packed

/-! ### The numbers as they are meant -/

def linkNumber (last : Bool) (ofs : Nat) : Int := if last then -1 else ofs

/-- The numbers of a chain, given those of one item. -/
def chainEntries {β : Type} (size : β → Nat) (entry : Nat → Bool → β → List SaveEvent) :
    Nat → List β → List SaveEvent
  | _, [] => []
  | ofs, b :: rest => entry ofs rest.isEmpty b ++ chainEntries size entry (ofs + size b) rest

namespace SaveEnv
variable (env : SaveEnv)

def subsetEntry (ofs : Nat) (last : Bool) (s : TdModelSubset) : List SaveEvent :=
  [.subset (payloadNumbers s.payloadSize (env.store s.payload)
    (linkNumber last (ofs + env.subsetSize s)) (ofs + env.subsetSize s : Nat))]

def partEntry (ofs : Nat) (last : Bool) (p : TdModelPart) : List SaveEvent :=
  chainEntries env.subsetSize env.subsetEntry (ofs + 44) p.Subsets ++
    [.part (ofs + 44 : Nat) (linkNumber last (ofs + env.partSize p)) (ofs + env.partSize p : Nat)]

def materialEntry (ofs : Nat) (last : Bool) (m : TdModelMaterial) : List SaveEvent :=
  [.material (linkNumber last (ofs + materialSize m)) (ofs + materialSize m : Nat)]

def textureEntry (ofs : Nat) (last : Bool) (t : TdModelTextureSlot) : List SaveEvent :=
  [.texture (payloadNumbers t.uiSize.toNat (env.store t.payload)
    (linkNumber last (ofs + env.textureSize t)) (ofs + env.textureSize t : Nat))]

/-- Every size and offset of a save, in unbounded arithmetic. -/
def exactLog (m : TdScanModel) : List SaveEvent :=
  chainEntries env.partSize env.partEntry 46 m.Parts ++
    chainEntries materialSize materialEntry (env.materialsOfs m) m.materialList ++
    chainEntries env.textureSize env.textureEntry (env.texturesOfs m) m.textureList ++
    [.libs (linkNumber m.materialList.isEmpty (env.materialsOfs m))
      (linkNumber m.textureList.isEmpty (env.texturesOfs m))]

end SaveEnv

/-! ### One loop -/

/-- A loop body next to its numbers: it logs as many as are meant, they are the ones meant when the
item fits, and if they are the item does fit. -/
structure Measured {β : Type} (body : Bool → β → SaveState → Option SaveState) (size : β → Nat)
    (entry : Nat → Bool → β → List SaveEvent) (fits : Nat → Bool → β → Prop) : Prop where
  logs : ∀ ofs last b st st', body last b st = some st' →
    (∃ ev, st'.log = st.log ++ ev ∧ ev.length = (entry ofs last b).length) ∧
      st'.hdr.iMaterialLibOfs = st.hdr.iMaterialLibOfs ∧ st'.hdr.iTexLibOfs = st.hdr.iTexLibOfs
  exact : ∀ ofs last b st, st.uiFileOfs.toNat = ofs → fits ofs last b →
    ∃ st', body last b st = some st' ∧ st'.log = st.log ++ entry ofs last b ∧
      st'.uiFileOfs.toNat = ofs + size b
  forced : ∀ ofs last b st st', st.uiFileOfs.toNat = ofs → body last b st = some st' →
    st'.log = st.log ++ entry ofs last b → fits ofs last b ∧ st'.uiFileOfs.toNat = ofs + size b

namespace Measured
variable {β : Type} {body : Bool → β → SaveState → Option SaveState} {size : β → Nat}
  {entry : Nat → Bool → β → List SaveEvent} {fits : Nat → Bool → β → Prop}
  (h : Measured body size entry fits)
include h

theorem each_logs (ofs : Nat) (items : List β) (st st' : SaveState)
    (run : saveEach body items st = some st') :
    (∃ ev, st'.log = st.log ++ ev ∧ ev.length = (chainEntries size entry ofs items).length) ∧
      st'.hdr.iMaterialLibOfs = st.hdr.iMaterialLibOfs ∧ st'.hdr.iTexLibOfs = st.hdr.iTexLibOfs := by
  induction items generalizing ofs st with
  | nil =>
    obtain rfl := Option.some.inj run
    exact ⟨⟨[], by simp, rfl⟩, rfl, rfl⟩
  | cons b rest ih =>
    obtain ⟨mid, first, run⟩ := Option.bind_eq_some_iff.mp run
    obtain ⟨⟨ev, log, length⟩, materials, textures⟩ := h.logs ofs _ b st mid first
    obtain ⟨⟨more, log', length'⟩, materials', textures'⟩ := ih (ofs + size b) mid run
    refine ⟨⟨ev ++ more, by rw [log', log, List.append_assoc], ?_⟩, materials'.trans materials,
      textures'.trans textures⟩
    rw [chainEntries, List.length_append, List.length_append, length, length']

theorem each_exact (ofs : Nat) (items : List β) (st : SaveState) (position : st.uiFileOfs.toNat = ofs)
    (fit : ChainFits size fits ofs items) :
    ∃ st', saveEach body items st = some st' ∧
      st'.log = st.log ++ chainEntries size entry ofs items ∧
      st'.uiFileOfs.toNat = ofs + chainSize size items := by
  induction items generalizing ofs st with
  | nil => exact ⟨st, rfl, by simp [chainEntries], by simpa using position⟩
  | cons b rest ih =>
    obtain ⟨mid, first, log, position'⟩ := h.exact ofs _ b st position fit.1
    obtain ⟨st', run, log', position''⟩ := ih _ mid position' fit.2
    refine ⟨st', by rw [saveEach, first]; exact run, ?_, ?_⟩
    · rw [log', log, chainEntries, List.append_assoc]
    · rw [position'', chainSize_cons, Nat.add_assoc]

theorem each_forced (ofs : Nat) (items : List β) (st st' : SaveState)
    (position : st.uiFileOfs.toNat = ofs) (run : saveEach body items st = some st')
    (log : st'.log = st.log ++ chainEntries size entry ofs items) :
    ChainFits size fits ofs items ∧ st'.uiFileOfs.toNat = ofs + chainSize size items := by
  induction items generalizing ofs st with
  | nil =>
    obtain rfl := Option.some.inj run
    exact ⟨trivial, by simpa using position⟩
  | cons b rest ih =>
    obtain ⟨mid, first, run⟩ := Option.bind_eq_some_iff.mp run
    obtain ⟨⟨ev, logged, length⟩, -⟩ := h.logs ofs _ b st mid first
    obtain ⟨⟨more, logged', -⟩, -⟩ := h.each_logs (ofs + size b) rest mid st' run
    rw [logged', logged, List.append_assoc, chainEntries] at log
    obtain ⟨same, rest_same⟩ := List.append_inj (List.append_cancel_left log) length
    obtain ⟨fit, position'⟩ := h.forced ofs _ b st mid position first (by rw [logged, same])
    obtain ⟨fits', position''⟩ := ih _ mid position' run (by rw [logged', rest_same])
    exact ⟨⟨fit, fits'⟩, by rw [position'', chainSize_cons, Nat.add_assoc]⟩

end Measured

/-! ### The four loops -/

theorem linkTo_toInt {last : Bool} {ofs : Nat} (fits : last = false → ofs < 2 ^ 31) :
    (linkTo last ofs).toInt = linkNumber last ofs := by
  cases last with
  | true => rfl
  | false => exact toInt_ofNat (fits rfl)

theorem placeFits_of_link {last : Bool} {ofs : Nat} {next : Int} (range : next < 2 ^ 31)
    (same : next = linkNumber last ofs) : last = false → ofs < 2 ^ 31 := by
  rintro rfl
  simp only [linkNumber, Bool.false_eq_true, if_false] at same
  omega

namespace SaveEnv
variable {env : SaveEnv}

theorem saveSubset_log {last : Bool} {s : TdModelSubset} {st st' : SaveState}
    (run : env.saveSubset last s st = some st') :
    ∃ n : PayloadNumbers, st'.log = st.log ++ [.subset n] ∧ n.scaled < 2 ^ 31 ∧ n.iNextOfs < 2 ^ 31 ∧
      n.uiFileOfs = st'.uiFileOfs.toNat ∧ st'.hdr.iMaterialLibOfs = st.hdr.iMaterialLibOfs ∧
      st'.hdr.iTexLibOfs = st.hdr.iTexLibOfs := by
  unfold saveSubset at run
  simp only at run
  split at run
  · cases run
  · obtain rfl := Option.some.inj run
    exact ⟨_, rfl, Int32.toInt_lt _, Int32.toInt_lt _, rfl, rfl, rfl⟩

theorem saveTexture_log {last : Bool} {t : TdModelTextureSlot} {st st' : SaveState}
    (run : env.saveTexture last t st = some st') :
    ∃ n : PayloadNumbers, st'.log = st.log ++ [.texture n] ∧ n.scaled < 2 ^ 31 ∧ n.iNextOfs < 2 ^ 31 ∧
      n.uiFileOfs = st'.uiFileOfs.toNat ∧ st'.hdr.iMaterialLibOfs = st.hdr.iMaterialLibOfs ∧
      st'.hdr.iTexLibOfs = st.hdr.iTexLibOfs := by
  unfold saveTexture at run
  simp only at run
  obtain ⟨pDest, -, rfl⟩ := Option.map_eq_some_iff.mp run
  exact ⟨_, rfl, Int32.toInt_lt _, Int32.toInt_lt _, rfl, rfl, rfl⟩

theorem measured_subset (hc : Lz4.CompressHC env.compress) :
    Measured env.saveSubset env.subsetSize env.subsetEntry env.SubsetFits where
  logs ofs last s st st' run := by
    obtain ⟨n, log, -, -, -, materials, textures⟩ := saveSubset_log run
    exact ⟨⟨_, log, rfl⟩, materials, textures⟩
  exact ofs last s st position fits := by
    obtain ⟨small, link, range⟩ := fits
    subst position
    have offset : (UInt32.ofNat (st.uiFileOfs.toNat + env.subsetSize s)).toNat =
        st.uiFileOfs.toNat + env.subsetSize s := UInt32.toNat_ofNat_of_lt' range
    refine ⟨_, saveSubset_eq hc last small st, ?_, offset⟩
    simp only [offset, subsetEntry, linkTo_toInt link]
  forced ofs last s st st' position run log := by
    obtain ⟨n, logged, scaled, next, offset, -⟩ := saveSubset_log run
    rw [logged] at log
    have same : n = _ := SaveEvent.subset.inj (List.singleton_inj.mp (List.append_cancel_left log))
    subst same
    simp only [payloadNumbers] at scaled offset
    have bound := st'.uiFileOfs.toNat_lt
    exact ⟨⟨by simp only [payloadLimit]; omega, placeFits_of_link next rfl, by omega⟩, by omega⟩

theorem measured_texture (hc : Lz4.CompressHC env.compress) :
    Measured env.saveTexture env.textureSize env.textureEntry env.TextureFits where
  logs ofs last t st st' run := by
    obtain ⟨n, log, -, -, -, materials, textures⟩ := saveTexture_log run
    exact ⟨⟨_, log, rfl⟩, materials, textures⟩
  exact ofs last t st position fits := by
    obtain ⟨small, link, range⟩ := fits
    subst position
    have offset : (UInt32.ofNat (st.uiFileOfs.toNat + env.textureSize t)).toNat =
        st.uiFileOfs.toNat + env.textureSize t := UInt32.toNat_ofNat_of_lt' range
    refine ⟨_, saveTexture_eq hc last small st, ?_, offset⟩
    simp only [offset, textureEntry, linkTo_toInt link]
  forced ofs last t st st' position run log := by
    obtain ⟨n, logged, scaled, next, offset, -⟩ := saveTexture_log run
    rw [logged] at log
    have same : n = _ := SaveEvent.texture.inj (List.singleton_inj.mp (List.append_cancel_left log))
    subst same
    simp only [payloadNumbers] at scaled offset
    have bound := st'.uiFileOfs.toNat_lt
    exact ⟨⟨by simp only [payloadLimit]; omega, placeFits_of_link next rfl, by omega⟩, by omega⟩

theorem measured_material :
    Measured (fun last m st => some (saveMaterial last m st)) materialSize materialEntry
      MaterialFits where
  logs ofs last m st st' run := by
    obtain rfl := Option.some.inj run
    exact ⟨⟨_, rfl, rfl⟩, rfl, rfl⟩
  exact ofs last m st position fits := by
    obtain ⟨link, range⟩ := fits
    subst position
    have offset : (UInt32.ofNat (st.uiFileOfs.toNat + materialSize m)).toNat =
        st.uiFileOfs.toNat + materialSize m := UInt32.toNat_ofNat_of_lt' range
    refine ⟨_, rfl, ?_, ?_⟩
    · rw [saveMaterial_eq]
      simp only [offset, materialEntry, linkTo_toInt link]
    · rw [saveMaterial_eq]
      exact offset
  forced ofs last m st st' position run log := by
    obtain rfl := Option.some.inj run
    have bound := (saveMaterial last m st).uiFileOfs.toNat_lt
    have same := List.singleton_inj.mp (List.append_cancel_left log)
    obtain ⟨next, offset⟩ := SaveEvent.material.inj same
    have offset' : ((saveMaterial last m st).uiFileOfs.toNat : Int) = (ofs + materialSize m : Nat) :=
      offset
    exact ⟨⟨placeFits_of_link (Int32.toInt_lt _) next, by omega⟩, by omega⟩

theorem measured_part (hc : Lz4.CompressHC env.compress) :
    Measured env.savePart env.partSize env.partEntry env.PartFits where
  logs ofs last p st st' run := by
    rw [savePart_eq] at run
    obtain ⟨behind, subsets, rfl⟩ := Option.map_eq_some_iff.mp run
    obtain ⟨⟨ev, log, length⟩, materials, textures⟩ :=
      (measured_subset hc).each_logs (ofs + 44) p.Subsets _ behind subsets
    refine ⟨⟨ev ++ [.part (firstSubset st).toInt
      (if last then -1 else behind.uiFileOfs.toInt32 : Int32).toInt behind.uiFileOfs.toNat], ?_, ?_⟩,
      materials, textures⟩
    · simp only [partEnd, log, partStart, List.append_assoc]
    · rw [partEntry, List.length_append, List.length_append, length]
      rfl
  exact ofs last p st position fits := by
    obtain ⟨subsets, first, link, range⟩ := fits
    subst position
    have start : (partStart p st).uiFileOfs.toNat = st.uiFileOfs.toNat + 44 :=
      UInt32.toNat_ofNat_of_lt' (Nat.lt_trans first (by decide))
    obtain ⟨behind, run, log, position⟩ :=
      (measured_subset hc).each_exact _ p.Subsets (partStart p st) start subsets
    have finish : behind.uiFileOfs.toNat = st.uiFileOfs.toNat + env.partSize p := by
      rw [position, partSize, Nat.add_assoc]
    have next : (if last then -1 else behind.uiFileOfs.toInt32 : Int32).toInt =
        linkNumber last (st.uiFileOfs.toNat + env.partSize p) := by
      rw [← linkTo_toInt link, linkTo, ← finish, UInt32.ofNat_toNat]
    refine ⟨partEnd last p st behind, ?_, ?_, finish⟩
    · rw [savePart_eq]
      exact Option.map_eq_some_iff.mpr ⟨behind, run, rfl⟩
    · simp only [partEnd, next, firstSubset, toInt_ofNat first, finish, log, partStart, partEntry,
        List.append_assoc]
  forced ofs last p st st' position run log := by
    subst position
    rw [savePart_eq] at run
    obtain ⟨behind, subsets, rfl⟩ := Option.map_eq_some_iff.mp run
    obtain ⟨⟨ev, logged, length⟩, -⟩ :=
      (measured_subset hc).each_logs (st.uiFileOfs.toNat + 44) p.Subsets _ behind subsets
    simp only [partEnd, logged, partStart, partEntry, List.append_assoc] at log
    obtain ⟨same, last_same⟩ := List.append_inj (List.append_cancel_left log) length
    obtain ⟨first, next, offset⟩ := SaveEvent.part.inj (List.singleton_inj.mp last_same)
    have bound := behind.uiFileOfs.toNat_lt
    have start : st.uiFileOfs.toNat + 44 < 2 ^ 31 := by
      have upper := Int32.toInt_lt (firstSubset st)
      omega
    have position : (partStart p st).uiFileOfs.toNat = st.uiFileOfs.toNat + 44 :=
      UInt32.toNat_ofNat_of_lt' (Nat.lt_trans start (by decide))
    obtain ⟨fits, -⟩ := (measured_subset hc).each_forced _ p.Subsets _ behind position subsets
      (by rw [logged, same])
    have finish : behind.uiFileOfs.toNat = st.uiFileOfs.toNat + env.partSize p := by omega
    exact ⟨⟨fits, start, placeFits_of_link (Int32.toInt_lt _) next, by omega⟩, finish⟩

/-! ### The whole save -/

theorem libLink_toInt {β : Type} {items : List β} {st : SaveState} {ofs : Nat}
    (position : st.uiFileOfs.toNat = ofs) (fits : items.isEmpty = false → ofs < 2 ^ 31) :
    (libLink items st).toInt = linkNumber items.isEmpty ofs := by
  rw [← linkTo_toInt fits, libLink, linkTo, ← position, UInt32.ofNat_toNat]

theorem initialState_position : initialState.uiFileOfs.toNat = 46 := rfl

theorem chainsFit_of_log (hc : Lz4.CompressHC env.compress) {m : TdScanModel} {st : SaveState}
    (run : env.writeModel m = some st) (log : st.log = env.exactLog m) : env.ChainsFit m := by
  obtain ⟨st₁, parts, run⟩ := Option.bind_eq_some_iff.mp run
  obtain ⟨st₂, materials, run⟩ := Option.bind_eq_some_iff.mp run
  obtain ⟨st₃, textures, rfl⟩ := Option.map_eq_some_iff.mp run
  obtain ⟨⟨ev₁, log₁, length₁⟩, -⟩ := (measured_part hc).each_logs 46 m.Parts _ st₁ parts
  obtain ⟨⟨ev₂, log₂, length₂⟩, -⟩ :=
    measured_material.each_logs (env.materialsOfs m) m.materialList _ st₂ materials
  obtain ⟨⟨ev₃, log₃, length₃⟩, -⟩ :=
    (measured_texture hc).each_logs (env.texturesOfs m) m.textureList _ st₃ textures
  simp only [finish, log₃, linkTextures, log₂, linkMaterials, log₁, exactLog,
    List.append_assoc] at log
  obtain ⟨same₁, log⟩ := List.append_inj (List.append_cancel_left log) length₁
  obtain ⟨same₂, log⟩ := List.append_inj log length₂
  obtain ⟨same₃, log⟩ := List.append_inj log length₃
  obtain ⟨materialLink, textureLink⟩ := SaveEvent.libs.inj (List.singleton_inj.mp log)
  obtain ⟨fits₁, position₁⟩ := (measured_part hc).each_forced 46 m.Parts _ st₁
    initialState_position parts (by rw [log₁, same₁])
  obtain ⟨fits₂, position₂⟩ := measured_material.each_forced (env.materialsOfs m) m.materialList
    (linkMaterials m st₁) st₂ position₁ materials (by rw [log₂, same₂])
  obtain ⟨fits₃, -⟩ := (measured_texture hc).each_forced (env.texturesOfs m) m.textureList
    (linkTextures m st₂) st₃ position₂ textures (by rw [log₃, same₃])
  exact ⟨fits₁, placeFits_of_link (Int32.toInt_lt _) materialLink, fits₂,
    placeFits_of_link (Int32.toInt_lt _) textureLink, fits₃⟩

theorem log_of_chainsFit (hc : Lz4.CompressHC env.compress) {m : TdScanModel}
    (fit : env.ChainsFit m) : ∃ st, env.writeModel m = some st ∧ st.log = env.exactLog m := by
  obtain ⟨fits₁, materialLink, fits₂, textureLink, fits₃⟩ := fit
  obtain ⟨st₁, parts, log₁, position₁⟩ := (measured_part hc).each_exact 46 m.Parts
    initialState initialState_position fits₁
  obtain ⟨st₂, materials, log₂, position₂⟩ := measured_material.each_exact
    (env.materialsOfs m) m.materialList (linkMaterials m st₁) position₁ fits₂
  obtain ⟨-, materials₂, -⟩ := measured_material.each_logs (env.materialsOfs m) m.materialList
    (linkMaterials m st₁) st₂ materials
  obtain ⟨st₃, textures, log₃, -⟩ := (measured_texture hc).each_exact
    (env.texturesOfs m) m.textureList (linkTextures m st₂) position₂ fits₃
  obtain ⟨-, materials₃, textures₃⟩ := (measured_texture hc).each_logs (env.texturesOfs m)
    m.textureList (linkTextures m st₂) st₃ textures
  have first : st₃.hdr.iMaterialLibOfs.toInt =
      linkNumber m.materialList.isEmpty (env.materialsOfs m) := by
    rw [materials₃]
    exact (congrArg Int32.toInt materials₂).trans (libLink_toInt position₁ materialLink)
  have second : st₃.hdr.iTexLibOfs.toInt =
      linkNumber m.textureList.isEmpty (env.texturesOfs m) := by
    rw [textures₃]
    exact libLink_toInt position₂ textureLink
  refine ⟨finish st₃, ?_, ?_⟩
  · rw [writeModel, saveParts, parts, Option.bind_some, saveMaterials, materials, Option.bind_some,
      saveTextures, textures]
    rfl
  · simp only [finish, exactLog, log₃, linkTextures, log₂, linkMaterials, log₁, first, second]
    rfl

end SaveEnv

/-! ### The bytes of the file -/

/-- Behind a header lies the payload: as many bytes as the header says, and flagged as compressed
only if they are a whole block that restores it. -/
def PayloadAt (bytes : List UInt8) (ofs : Nat) (uiDataSize uiCompressedSize uiFlags : UInt32)
    (payload : List UInt8) : Prop :=
  let stored := (bytes.drop ofs).take uiCompressedSize.toNat
  uiDataSize.toNat = payload.length ∧ stored.length = uiCompressedSize.toNat ∧
    if uiFlags &&& tdsFlagCompressed ≠ 0 then
      0 < stored.length ∧ Lz4.decompressFast stored payload.length = .done stored.length payload
    else stored = payload

/-- Chunks that lie one behind the other, from one position to another. `item` relates where a chunk
lies to where it ends. -/
def ChainAt {β : Type} (item : Nat → Bool → β → Nat → Prop) : Nat → List β → Nat → Prop
  | ofs, [], behind => behind = ofs
  | ofs, b :: rest, behind => ∃ next, item ofs rest.isEmpty b next ∧ ChainAt item next rest behind

section Bytes
variable (bytes : List UInt8)

/-- The chunk that lies at `ofs` ends where its own size says, and its link names that position. -/
def SubsetAt (ofs : Nat) (last : Bool) (s : TdModelSubset) (behind : Nat) : Prop :=
  let hdr := FileSubset.codec.dec (bytes.drop ofs)
  PayloadAt bytes (ofs + 76) hdr.uiDataSize hdr.uiCompressedSize hdr.uiFlags s.payload ∧
    behind = ofs + 76 + hdr.uiCompressedSize.toNat ∧
    hdr.iNextSubsetOfs.toInt = linkNumber last behind

def PartAt (ofs : Nat) (last : Bool) (p : TdModelPart) (behind : Nat) : Prop :=
  let hdr := FilePart.codec.dec (bytes.drop ofs)
  hdr.iFirstSubset.toInt = (ofs + 44 : Nat) ∧ ChainAt (SubsetAt bytes) (ofs + 44) p.Subsets behind ∧
    hdr.iNextPartOfs.toInt = linkNumber last behind

def MaterialAt (ofs : Nat) (last : Bool) (_ : TdModelMaterial) (behind : Nat) : Prop :=
  behind = ofs + 320 ∧
    (FileMaterial.codec.dec (bytes.drop ofs)).iNextMaterialOfs.toInt = linkNumber last behind

def TextureAt (ofs : Nat) (last : Bool) (t : TdModelTextureSlot) (behind : Nat) : Prop :=
  let hdr := FileTexture.codec.dec (bytes.drop ofs)
  PayloadAt bytes (ofs + 76) hdr.uiDataSize hdr.uiCompressedSize hdr.uiFlags t.payload ∧
    behind = ofs + 76 + hdr.uiCompressedSize.toNat ∧ hdr.iNextTexOfs.toInt = linkNumber last behind

/-- The file holds the chunks of the model and nothing else, and every size and offset in it is the
mathematical value. -/
def ExactFile (m : TdScanModel) : Prop :=
  let hdr := FileHeader.codec.dec bytes
  hdr.iFirstPartOfs.toInt = 46 ∧ ∃ materials textures,
    ChainAt (PartAt bytes) 46 m.Parts materials ∧
    hdr.iMaterialLibOfs.toInt = linkNumber m.materialList.isEmpty materials ∧
    ChainAt (MaterialAt bytes) materials m.materialList textures ∧
    hdr.iTexLibOfs.toInt = linkNumber m.textureList.isEmpty textures ∧
    ChainAt (TextureAt bytes) textures m.textureList bytes.length

end Bytes

/-- A chain of the layout, found in the bytes, is read back item by item. -/
theorem chainAt_layout {β : Type} {bytes : List UInt8} {size : β → Nat}
    {chunk : Nat → Int32 → β → List UInt8} {fits : Nat → Bool → β → Prop}
    {item : Nat → Bool → β → Nat → Prop} (length : ∀ ofs next b, (chunk ofs next b).length = size b)
    (each : ∀ ofs last b rest, fits ofs last b →
      bytes.drop ofs = chunk ofs (linkTo last (ofs + size b)) b ++ rest → item ofs last b (ofs + size b))
    {ofs : Nat} {items : List β} (fit : ChainFits size fits ofs items) {rest : List UInt8}
    (found : bytes.drop ofs = chain size chunk ofs items ++ rest) :
    ChainAt item ofs items (ofs + chainSize size items) := by
  induction items generalizing ofs with
  | nil => rfl
  | cons b items ih =>
    rw [chain, List.append_assoc] at found
    have behind : bytes.drop (ofs + size b) = chain size chunk (ofs + size b) items ++ rest := by
      rw [← List.drop_drop, found, List.drop_left' (length ..)]
    rw [chainSize_cons, ← Nat.add_assoc]
    exact ⟨ofs + size b, each ofs _ b _ fit.1 found, ih fit.2 behind⟩

namespace SaveEnv
variable {env : SaveEnv} {bytes rest : List UInt8} {ofs : Nat} {last : Bool}

theorem payloadAt_store (hc : Lz4.CompressHC env.compress) {payload : List UInt8}
    (small : payload.length < payloadLimit)
    (found : bytes.drop ofs = (env.store payload).bytes ++ rest) :
    PayloadAt bytes ofs (UInt32.ofNat payload.length) (UInt32.ofNat (env.store payload).bytes.length)
      (env.store payload).flags payload := by
  have size : (UInt32.ofNat payload.length).toNat = payload.length := by
    apply UInt32.toNat_ofNat_of_lt'
    exact Nat.lt_trans small (by decide)
  have stored : (bytes.drop ofs).take (env.store payload).bytes.length = (env.store payload).bytes := by
    rw [found]
    exact List.take_left
  refine ⟨size, ?_, ?_⟩
  all_goals rw [toNat_stored hc small, stored]
  cases compressed : (env.store payload).compressed with
  | false =>
    rw [Stored.flags, compressed, if_neg (by decide)]
    exact store_raw compressed
  | true =>
    have range : payload.length ≤ Lz4.maxInputSize := by
      simp only [payloadLimit, Lz4.maxInputSize] at small ⊢
      omega
    have block : (env.store payload).bytes =
        env.compress payload (Lz4.compressBound payload.length) := by
      rw [← store_compressed compressed, destination]
      unfold store at compressed
      simp only at compressed
      split at compressed
      · rename_i used
        simp only [Bool.and_eq_true, Bool.not_eq_true'] at used
        rw [used.1, if_neg (by decide)]
      · cases compressed
    rw [Stored.flags, compressed, if_pos (by decide), block]
    exact ⟨(hc.written payload _ range (Nat.le_refl _)).1, hc.restores payload _ range (Nat.le_refl _)⟩

theorem subsetAt_chunk (hc : Lz4.CompressHC env.compress) {s : TdModelSubset}
    (fits : env.SubsetFits ofs last s)
    (found : bytes.drop ofs = env.subsetChunk ofs (linkTo last (ofs + env.subsetSize s)) s ++ rest) :
    SubsetAt bytes ofs last s (ofs + env.subsetSize s) := by
  have small : s.payload.length < payloadLimit := by simpa using fits.1
  rw [subsetChunk, List.append_assoc] at found
  have behind : bytes.drop (ofs + 76) = (env.store s.payload).bytes ++ rest := by
    rw [← List.drop_drop, found]
    exact List.drop_left' (FileSubset.codec.length_enc _)
  have payload := payloadAt_store hc small behind
  rw [TdModelSubset.length_payload] at payload
  rw [SubsetAt, found, Codec.dec_append]
  refine ⟨payload, ?_, linkTo_toInt fits.2.1⟩
  simp only [subsetHeader, toNat_stored hc small, subsetSize, Nat.add_assoc]

theorem partAt_chunk (hc : Lz4.CompressHC env.compress) {p : TdModelPart}
    (fits : env.PartFits ofs last p)
    (found : bytes.drop ofs = env.partChunk ofs (linkTo last (ofs + env.partSize p)) p ++ rest) :
    PartAt bytes ofs last p (ofs + env.partSize p) := by
  obtain ⟨subsets, first, place⟩ := fits
  rw [partChunk, List.append_assoc] at found
  have inside : bytes.drop (ofs + 44) =
      chain env.subsetSize env.subsetChunk (ofs + 44) p.Subsets ++ rest := by
    rw [← List.drop_drop, found]
    exact List.drop_left' (FilePart.codec.length_enc _)
  have read := chainAt_layout env.length_subsetChunk
    (fun ofs last s rest fits found => subsetAt_chunk hc fits found) subsets inside
  rw [PartAt, found, Codec.dec_append]
  refine ⟨toInt_ofNat first, ?_, linkTo_toInt place.1⟩
  rwa [partSize, ← Nat.add_assoc]

theorem materialAt_chunk {m : TdModelMaterial} (fits : MaterialFits ofs last m)
    (found : bytes.drop ofs = materialChunk ofs (linkTo last (ofs + materialSize m)) m ++ rest) :
    MaterialAt bytes ofs last m (ofs + materialSize m) := by
  rw [MaterialAt, found, materialChunk, Codec.dec_append]
  exact ⟨rfl, linkTo_toInt fits.1⟩

theorem textureAt_chunk (hc : Lz4.CompressHC env.compress) {t : TdModelTextureSlot}
    (fits : env.TextureFits ofs last t)
    (found : bytes.drop ofs = env.textureChunk ofs (linkTo last (ofs + env.textureSize t)) t ++ rest) :
    TextureAt bytes ofs last t (ofs + env.textureSize t) := by
  have small : t.payload.length < payloadLimit := by simpa using fits.1
  rw [textureChunk, List.append_assoc] at found
  have behind : bytes.drop (ofs + 76) = (env.store t.payload).bytes ++ rest := by
    rw [← List.drop_drop, found]
    exact List.drop_left' (FileTexture.codec.length_enc _)
  have payload := payloadAt_store hc small behind
  rw [TdModelTextureSlot.length_payload, UInt32.ofNat_toNat] at payload
  rw [TextureAt, found, Codec.dec_append]
  refine ⟨payload, ?_, linkTo_toInt fits.2.1⟩
  simp only [textureHeader, toNat_stored hc small, textureSize, Nat.add_assoc]

/-- The layout of a model that fits is the file that is meant. -/
theorem exactFile_image (hc : Lz4.CompressHC env.compress) {m : TdScanModel} (fit : env.ChainsFit m) :
    ExactFile (env.image m) m := by
  obtain ⟨parts, materialLink, materials, textureLink, textures⟩ := fit
  have header : FileHeader.codec.dec (env.image m) = env.fileHeader m := by
    rw [env.image_header m, Codec.dec_append]
  have read_parts := chainAt_layout env.length_partChunk
    (fun ofs last p rest fits found => partAt_chunk hc fits found) parts (env.image_parts m)
  have read_materials := chainAt_layout length_materialChunk
    (fun ofs last p rest fits found => materialAt_chunk fits found) materials (env.image_materials m)
  have read_textures := chainAt_layout env.length_textureChunk
    (fun ofs last p rest fits found => textureAt_chunk hc fits found) textures
    ((env.image_textures m).trans (List.append_nil _).symm)
  rw [ExactFile, header, env.length_image m]
  exact ⟨rfl, env.materialsOfs m, env.texturesOfs m, read_parts, linkTo_toInt materialLink,
    read_materials, linkTo_toInt textureLink, read_textures⟩

/-! ### Exactness -/

/-- What a save may come to: true with every size and offset that it computed, and every one in the
file, at its mathematical value, or false. A throw or a crash is neither. -/
def ExactOrFails (env : SaveEnv) (m : TdScanModel) : Option (Bool × SaveState) → Prop
  | some (true, st) => st.log = env.exactLog m ∧ ExactFile st.file.bytes m
  | some (false, _) => True
  | none => False

/-- `Save3DScanModel` is exact or fails when the file does not open, and otherwise exactly for the
models that fit its words and have their buffers. -/
theorem save3DScanModel_exact_iff (hc : Lz4.CompressHC env.compress) (null : Name → Bool)
    (opened : Bool) (m : TdScanModel) :
    env.ExactOrFails m (env.saveFrom null opened m) ↔
      (opened = true → env.Backed null m ∧ env.FitsWords m) := by
  cases opened with
  | false => simp [saveFrom, save3DScanModel, ExactOrFails]
  | true =>
    by_cases backed : env.Backed null m
    · have saved : env.saveFrom null true m = (env.writeModel m).map fun st => (true, st) := by
        rw [saveFrom, if_neg (fun h => h.2 backed), save3DScanModel, if_pos rfl]
      rw [saved]
      constructor
      · intro exact _
        cases written : env.writeModel m with
        | none => rw [written] at exact; exact exact.elim
        | some st =>
          rw [written] at exact
          exact ⟨backed, (chainsFit_iff m).mp (chainsFit_of_log hc written exact.1)⟩
      · intro fits
        obtain ⟨-, fits⟩ := fits rfl
        have fit := (chainsFit_iff m).mpr fits
        obtain ⟨st, written, log⟩ := log_of_chainsFit hc fit
        obtain ⟨st', written', image, -⟩ := writeModel_words hc fits
        obtain rfl : st = st' := Option.some.inj (written.symm.trans written')
        rw [written]
        exact ⟨log, by rw [image]; exact exactFile_image hc fit⟩
    · rw [saveFrom, if_pos ⟨rfl, backed⟩]
      exact ⟨False.elim, fun h => backed (h rfl).1⟩

theorem save3DScanModel_exact_triangle :
    literalEnv.FitsWords triangle ∧
      literalEnv.ExactOrFails triangle (literalEnv.saveFrom (fun _ => false) true triangle) :=
  ⟨fitsWords_triangle, (save3DScanModel_exact_iff Lz4.compressHC_lastLiterals (fun _ => false) true
    triangle).mpr fun _ => ⟨by decide, fitsWords_triangle⟩⟩

def largeData : List UInt8 := List.replicate (2 ^ 28) 0

def largeTexture : TdScanModel where
  Parts := []
  Materials := .empty
  Textures := ⟨[([], {
    sName := []
    uiSize := 0x10000000
    pData := largeData
    eFormat := 0
    clrAvgColor := ⟨⟨0⟩, ⟨0⟩, ⟨0⟩, ⟨0⟩⟩ })], List.pairwise_singleton _ _⟩
  ptMin := ⟨⟨0⟩, ⟨0⟩, ⟨0⟩⟩
  ptMax := ⟨⟨0⟩, ⟨0⟩, ⟨0⟩⟩

theorem length_largeData : largeData.length = 2 ^ 28 := List.length_replicate

theorem largeTexture_backed (env : SaveEnv) : env.Backed (fun _ => false) largeTexture := by
  refine ⟨by simp [largeTexture, TdScanModel.subsets], List.forall_mem_singleton.mpr ⟨?_, nofun⟩⟩
  exact Nat.le_of_eq length_largeData.symm

/-- Eight times the size of the texture is no `int32_t`, and the save returns true. -/
theorem save3DScanModel_largeTexture :
    let env : SaveEnv := { literalEnv with uiFlags := tdSaveFlagNoCompression }
    (∃ st, env.saveFrom (fun _ => false) true largeTexture = some (true, st)) ∧
      ¬ env.ExactOrFails largeTexture (env.saveFrom (fun _ => false) true largeTexture) := by
  intro env
  have raw : env.noCompression = true := by decide
  obtain ⟨st, written⟩ : ∃ st, env.writeModel largeTexture = some st := by
    simp [writeModel, saveParts, saveMaterials, saveTextures, saveEach, saveTexture, raw, largeTexture,
      TdScanModel.materialList, TdScanModel.textureList, Container.SortedMap.empty]
  have returned : env.saveFrom (fun _ => false) true largeTexture = some (true, st) := by
    rw [saveFrom, if_neg (fun h => h.2 (largeTexture_backed env)), save3DScanModel, if_pos rfl, written]
    rfl
  refine ⟨⟨st, returned⟩, ?_⟩
  rw [returned]
  rintro ⟨log, -⟩
  have fits := (chainsFit_iff largeTexture).mp
    (chainsFit_of_log Lz4.compressHC_lastLiterals written log)
  have limit := fits.textures _ List.mem_cons_self
  exact absurd limit (by decide)

end SaveEnv
end ModelPublish.Scan
