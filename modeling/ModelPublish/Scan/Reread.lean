import ModelPublish.Scan.LoadSteps
import ModelPublish.Scan.SaveSteps
import ModelPublish.Scan.Written

/-!
# The reader on a written file

The reader follows the chains of a layout in the order in which they were written and takes a copy
of every item. Only the names of a copy depend on more than the item.
-/

namespace ModelPublish.Scan
open Packed Container ModelPublish.Stream Machine SaveEnv

/-! ### Copies -/

/-- The items of a chain with the position and the link of each. -/
def linked {β : Type} (size : β → Nat) : Nat → List β → List (Nat × Int32 × β)
  | _, [] => []
  | ofs, b :: rest => (ofs, linkTo rest.isEmpty (ofs + size b), b) :: linked size (ofs + size b) rest

namespace SaveEnv
variable (env : SaveEnv)

/-- What a subset is loaded as, when its chunk links to `next`. -/
def subsetCopy (next : Int32) (s : TdModelSubset) : TdModelSubset :=
  subsetOf (subsetHeader s (env.store s.payload) next) s.payload []

def subsetCopies (ofs : Nat) (p : TdModelPart) : List TdModelSubset :=
  (linked env.subsetSize (ofs + 44) p.Subsets).map fun x => env.subsetCopy x.2.1 x.2.2

/-- A part name may run past the end of its header, into `tail`. -/
def partCopy (tail : List UInt8) (ofs : Nat) (next : Int32) (p : TdModelPart) : TdModelPart where
  sName := nameAt FilePart.codec (partHeader p next (UInt32.ofNat (ofs + 44)).toInt32) 4 tail
  Subsets := env.subsetCopies ofs p

def materialCopy (next : Int32) (m : TdModelMaterial) : TdModelMaterial :=
  materialOf (materialHeader m next) []

def textureCopy (next : Int32) (t : TdModelTextureSlot) : TdModelTextureSlot :=
  textureOf (textureHeader t (env.store t.payload) next) t.payload []

end SaveEnv

namespace SaveEnv
variable (env : SaveEnv) (m : TdScanModel)

def materialCopies : List TdModelMaterial :=
  (linked materialSize (env.materialsOfs m) m.materialList).map fun x => materialCopy x.2.1 x.2.2

def textureCopies : List TdModelTextureSlot :=
  (linked env.textureSize (env.texturesOfs m) m.textureList).map fun x => env.textureCopy x.2.1 x.2.2

/-- The parts of a model and copies of them, each read over some of the bytes in `tails`. -/
def PartsCopied (tails : List UInt8 → Prop) (parts : List TdModelPart) : Prop :=
  List.Forall₂ (fun x p => ∃ tail, tails tail ∧ p = env.partCopy tail x.1 x.2.1 x.2.2)
    (linked env.partSize 46 m.Parts) parts

end SaveEnv

/-- The writer links to the first part and to the first subset of a part whether there is one or
not. -/
def TdScanModel.NoEmptyChain (m : TdScanModel) : Prop := m.Parts ≠ [] ∧ ∀ p ∈ m.Parts, p.Subsets ≠ []

instance (m : TdScanModel) : Decidable m.NoEmptyChain := inferInstanceAs (Decidable (_ ∧ _))

/-! ### Payloads in range -/

section Headers
variable {env : SaveEnv} (hc : Lz4.CompressHC env.compress)
include hc

theorem storedAs_store {payload : List UInt8} (small : payload.length < payloadLimit) :
    StoredAs (env.store payload).compressed (env.store payload).bytes payload := by
  have range : payload.length ≤ Lz4.maxInputSize := by
    simp only [payloadLimit, Lz4.maxInputSize] at small ⊢
    omega
  cases compressed : (env.store payload).compressed with
  | false => exact SaveEnv.store_raw compressed
  | true =>
    have block : (env.store payload).bytes =
        env.compress payload (Lz4.compressBound payload.length) := by
      have on : env.noCompression = false := by
        simp only [SaveEnv.store] at compressed
        split at compressed
        · rename_i used
          simp_all
        · cases compressed
      rw [← SaveEnv.store_compressed compressed, SaveEnv.destination, on]
      rfl
    rw [block]
    exact ⟨_, hc.restores payload _ range (Nat.le_refl _)⟩

end Headers

theorem flags_compressed (stored : Stored) :
    decide (stored.flags = tdsFlagCompressed) = stored.compressed ∧
      decide (stored.flags &&& tdsFlagCompressed ≠ 0) = stored.compressed := by
  unfold Stored.flags
  cases stored.compressed <;> decide

namespace SubsetHeader
variable {env : SaveEnv} {s : TdModelSubset} (small : s.payloadSize < payloadLimit) (stored : Stored)
  (next : Int32)
include small

theorem dataSize : (subsetHeader s stored next).uiDataSize.toNat = s.payloadSize := by
  simp only [payloadLimit] at small
  exact UInt32.toNat_ofNat_of_lt' (Nat.lt_trans small (by decide))

theorem vbSize : (subsetHeader s stored next).vbSize.toNat = s.vertexBytes :=
  TdModelSubset.vertexBytes_toNat small

theorem ibCount : 4 * (subsetHeader s stored next).ibCount = s.indexBytes := by
  have triples : (subsetHeader s stored next).ibCount = 3 * s.uiTriCount.toNat :=
    TdModelSubset.triples_toNat small
  rw [triples, TdModelSubset.indexBytes]
  omega

theorem ibSize (target : Target) : (subsetHeader s stored next).ibSize target = s.indexBytes := by
  have range := target.le_sizeMod
  have value : 4 * s.uiTriCount.toNat * 3 = s.indexBytes := by
    rw [TdModelSubset.indexBytes]
    omega
  simp only [TdModelSubset.payloadSize, payloadLimit] at small
  show 4 * s.uiTriCount.toNat * 3 % target.sizeMod = _
  rw [value, Nat.mod_eq_of_lt (by omega)]

theorem checkedSize (target : Target) :
    (subsetHeader s stored next).checkedSize target = s.payloadSize := by
  have range := target.le_sizeMod
  have vertices := vbSize small stored next
  have indices := ibCount small stored next
  have limit := small
  simp only [TdModelSubset.payloadSize, payloadLimit] at limit
  have value : (subsetHeader s stored next).checkedSize target =
      ((subsetHeader s stored next).vbSize.toNat + (subsetHeader s stored next).ibCount * 4) %
        target.sizeMod := rfl
  rw [value, vertices, Nat.mul_comm, indices, Nat.mod_eq_of_lt (by omega)]
  rfl

end SubsetHeader

/-! ### Rounds over a layout -/

theorem blank_material : (blank FileMaterial.codec "MATERIAL").szSign.toList = ascii "MATERIAL" ∧
    0 ∈ (blank FileMaterial.codec "MATERIAL").uiPadding.toList := by decide +kernel

section Rounds
variable {env : SaveEnv} {target : Target} {bytes rest : List UInt8} {st : LoadState} {v : View}
  {pos ofs : Nat} {next : Int32} (u : Uninit) (small : bytes.length < 2 ^ 31) (positive : 0 < ofs)
include small positive

theorem subset_round (hc : Lz4.CompressHC env.compress) {s : TdModelSubset} {back : Int32}
    (fits : s.payloadSize < payloadLimit)
    (at_link : Stands bytes pos (.subset (UInt32.ofNat ofs).toInt32 back) v st)
    (found : bytes.drop ofs = env.subsetChunk ofs next s ++ rest) :
    Stands bytes (ofs + env.subsetSize s) (.subset next back)
      { v with parts := pushSubset v.parts (env.subsetCopy next s) }
      (loadStep target u st) := by
  have limit : s.payload.length < payloadLimit := by simpa using fits
  have stored := SaveEnv.store_length hc limit
  have padding : 0 ∈ (subsetHeader s (env.store s.payload) next).uiPadding.toList := by
    show 0 ∈ (blank FileSubset.codec "SUBSET").uiPadding.toList
    decide
  have compressed : (subsetHeader s (env.store s.payload) next).isCompressed =
      (env.store s.payload).compressed := (flags_compressed (env.store s.payload)).2
  have copied := subset_found u small target (subsetHeader s (env.store s.payload) next) s.payload
    at_link positive (by rw [found, SaveEnv.subsetChunk, List.append_assoc]) rfl
    (by rw [SubsetHeader.dataSize fits, SubsetHeader.checkedSize fits])
    (by rw [compressed]; exact storedAs_store hc limit)
    (fun _ => UInt32.toNat_ofNat_of_lt' (Nat.lt_trans stored (by decide)))
    (by rw [SubsetHeader.dataSize fits, TdModelSubset.length_payload])
    (Nat.lt_trans limit (by decide))
    (by rw [SubsetHeader.vbSize fits, SubsetHeader.ibCount fits, TdModelSubset.length_payload]; rfl)
    (by rw [SubsetHeader.ibSize fits, SubsetHeader.ibCount fits])
  have name := nameAt_tail FileSubset.padding_field (show 10 ≤ 66 by decide) padding u.tail
  rw [show subsetOf (subsetHeader s (env.store s.payload) next) s.payload u.tail =
    env.subsetCopy next s by simp only [SaveEnv.subsetCopy, subsetOf, name], Nat.add_assoc] at copied
  exact copied

theorem material_round {m : TdModelMaterial}
    (at_link : Stands bytes pos (.material (UInt32.ofNat ofs).toInt32) v st)
    (found : bytes.drop ofs = SaveEnv.materialChunk ofs next m ++ rest) :
    Stands bytes (ofs + SaveEnv.materialSize m) (.material next)
      { v with materials := v.materials ++ [SaveEnv.materialCopy next m] } (loadStep target u st) := by
  have padding : 0 ∈ (materialHeader m next).uiPadding.toList := blank_material.2
  have copied := material_found u small target (materialHeader m next) at_link positive found
    blank_material.1
  have name (ofs : Nat) (before : ofs ≤ 256) :=
    nameAt_tail FileMaterial.padding_field before padding u.tail
  rwa [show materialOf (materialHeader m next) u.tail = SaveEnv.materialCopy next m by
    simp only [SaveEnv.materialCopy, materialOf, name 8 (by decide), name 96 (by decide),
      name 224 (by decide), name 192 (by decide), name 128 (by decide), name 160 (by decide)]] at copied

theorem texture_round (hc : Lz4.CompressHC env.compress) {t : TdModelTextureSlot}
    (fits : t.uiSize.toNat < payloadLimit)
    (at_link : Stands bytes pos (.texture (UInt32.ofNat ofs).toInt32) v st)
    (found : bytes.drop ofs = env.textureChunk ofs next t ++ rest) :
    Stands bytes (ofs + env.textureSize t) (.texture next)
      { v with textures := v.textures ++ [env.textureCopy next t] } (loadStep target u st) := by
  have limit : t.payload.length < payloadLimit := by simpa using fits
  have stored := SaveEnv.store_length hc limit
  have padding : 0 ∈ (textureHeader t (env.store t.payload) next).uiPadding.toList := by
    show 0 ∈ (blank FileTexture.codec "TEX").uiPadding.toList
    decide
  have compressed := (flags_compressed (env.store t.payload)).1
  have copied := texture_found u small target (textureHeader t (env.store t.payload) next) t.payload
    at_link positive (by rw [found, SaveEnv.textureChunk, List.append_assoc]) rfl
    (compressed ▸ storedAs_store hc limit)
    (fun _ => UInt32.toNat_ofNat_of_lt' (Nat.lt_trans stored (by decide)))
    (TdModelTextureSlot.length_payload t).symm (Nat.lt_trans limit (by decide))
  have name := nameAt_tail FileTexture.padding_field (show 3 ≤ 71 by decide) padding u.tail
  rw [show textureOf (textureHeader t (env.store t.payload) next) t.payload u.tail =
    env.textureCopy next t by simp only [SaveEnv.textureCopy, textureOf, name], Nat.add_assoc] at copied
  exact copied

end Rounds

/-! ### Whole chains -/

/-- The states before and after a list of items, one step `R` each. -/
def Folds {α σ : Type} (R : α → σ → σ → Prop) : List α → σ → σ → Prop
  | [], v, w => w = v
  | a :: rest, v, w => ∃ x, R a v x ∧ Folds R rest x w

/-- From the link to a chain the loader comes to the link behind it, when each round takes it from
one item to the next. -/
theorem chain_run {ι β : Type} (step : ι → LoadState → LoadState) {bytes : List UInt8}
    {size : β → Nat} {chunk : Nat → Int32 → β → List UInt8} (pc : Int32 → LoadPc)
    (push : Nat × Int32 × β → View → View → Prop) (ok : β → Prop)
    (length : ∀ ofs next b, (chunk ofs next b).length = size b)
    (round : ∀ ofs next b rest v st, 0 < ofs → ok b →
      Stands bytes ofs (pc (UInt32.ofNat ofs).toInt32) v st → bytes.drop ofs = chunk ofs next b ++ rest →
      Eventually step
        (fun st => ∃ w, push (ofs, next, b) v w ∧ Stands bytes (ofs + size b) (pc next) w st) st)
    {ofs : Nat} (positive : 0 < ofs) {items : List β} (fits : ∀ b ∈ items, ok b) {rest : List UInt8}
    {v : View} {st : LoadState} (at_link : Stands bytes ofs (pc (linkTo items.isEmpty ofs)) v st)
    (found : bytes.drop ofs = chain size chunk ofs items ++ rest) :
    Eventually step
      (fun st => ∃ w, Folds push (linked size ofs items) v w ∧
        Stands bytes (ofs + chainSize size items) (pc (-1)) w st) st := by
  induction items generalizing ofs v st with
  | nil => exact .now ⟨v, rfl, at_link⟩
  | cons b items ih =>
    obtain ⟨head, tail⟩ := List.forall_mem_cons.mp fits
    rw [chain, List.append_assoc] at found
    have behind : bytes.drop (ofs + size b) = chain size chunk (ofs + size b) items ++ rest := by
      rw [← List.drop_drop, found, List.drop_left' (length ..)]
    apply (round ofs _ b _ v st positive head at_link found).trans
    rintro st' ⟨x, first, at_next⟩
    apply (ih (by omega) tail at_next behind).trans
    rintro st'' ⟨w, others, at_end⟩
    rw [Nat.add_assoc, ← chainSize_cons] at at_end
    exact .now ⟨w, ⟨x, first, others⟩, at_end⟩

theorem Folds.eq_foldl {α σ : Type} {f : σ → α → σ} {l : List α} {v w : σ}
    (h : Folds (fun a v w => w = f v a) l v w) : w = l.foldl f v := by
  induction l generalizing v with
  | nil => exact h
  | cons a l ih =>
    obtain ⟨x, rfl, h⟩ := h
    exact ih h

theorem foldl_pushSubset {α : Type} (f : α → TdModelSubset) (l : List α) (v : View)
    (parts : List TdModelPart) (p : TdModelPart) (h : v.parts = parts ++ [p]) :
    l.foldl (fun v x => { v with parts := pushSubset v.parts (f x) }) v =
      { v with parts := parts ++ [{ p with Subsets := p.Subsets ++ l.map f }] } := by
  induction l generalizing v p with
  | nil =>
    rw [List.map_nil, List.append_nil, ← h]
    rfl
  | cons a l ih =>
    have pushed : pushSubset v.parts (f a) = parts ++ [{ p with Subsets := p.Subsets ++ [f a] }] := by
      rw [h, pushSubset, List.modifyLast_concat]
    rw [List.foldl_cons, ih { v with parts := pushSubset v.parts (f a) } _ pushed]
    simp only [List.map_cons, List.append_assoc, List.singleton_append]

theorem foldl_materials (f : Nat × Int32 × TdModelMaterial → TdModelMaterial)
    (l : List (Nat × Int32 × TdModelMaterial)) (v : View) :
    l.foldl (fun v x => { v with materials := v.materials ++ [f x] }) v =
      { v with materials := v.materials ++ l.map f } := by
  induction l generalizing v with
  | nil => simp
  | cons a l ih => simp [ih]

theorem foldl_textures (f : Nat × Int32 × TdModelTextureSlot → TdModelTextureSlot)
    (l : List (Nat × Int32 × TdModelTextureSlot)) (v : View) :
    l.foldl (fun v x => { v with textures := v.textures ++ [f x] }) v =
      { v with textures := v.textures ++ l.map f } := by
  induction l generalizing v with
  | nil => simp
  | cons a l ih => simp [ih]

/-! ### The whole file -/

section Leaving
variable {target : Target} {bytes : List UInt8} {pos : Nat} {st : LoadState} {v : View} (u : Uninit)

theorem leave_subsets {back : Int32} (h : Stands bytes pos (.subset (-1) back) v st) :
    Stands bytes pos (.part back) v (loadStep target u st) := by
  simp only [loadStep, h.pc]
  exact ⟨h.stream, rfl, h.view, h.materials, h.textures⟩

theorem leave_parts (h : Stands bytes pos (.part (-1)) v st) :
    Stands bytes pos (.material v.iMaterialLibOfs) v (loadStep target u st) := by
  simp only [loadStep, h.pc]
  exact ⟨h.stream, congrArg LoadPc.material (congrArg View.iMaterialLibOfs h.view), h.view,
    h.materials, h.textures⟩

theorem leave_materials (h : Stands bytes pos (.material (-1)) v st) :
    Stands bytes pos (.texture v.iTexLibOfs) v (loadStep target u st) := by
  simp only [loadStep, h.pc]
  exact ⟨h.stream, congrArg LoadPc.texture (congrArg View.iTexLibOfs h.view), h.view, h.materials,
    h.textures⟩

theorem leave_textures (h : Stands bytes pos (.texture (-1)) v st) :
    Stands bytes pos (.returned true) v (loadStep target u st) := by
  simp only [loadStep, h.pc]
  exact ⟨h.stream, rfl, h.view, h.materials, h.textures⟩

end Leaving

section Runs
variable {ι : Type} (memory : ι → Uninit) {env : SaveEnv} {target : Target} {bytes rest : List UInt8}
  {st : LoadState} {v : View} {pos ofs : Nat} {next : Int32}

/-- What a part chunk adds to a view, whatever lay behind its header. -/
def PartPush (env : SaveEnv) (x : Nat × Int32 × TdModelPart) (v w : View) : Prop :=
  ∃ i, w = { v with parts := v.parts ++ [env.partCopy (memory i).tail x.1 x.2.1 x.2.2] }

theorem part_round (hc : Lz4.CompressHC env.compress) (small : bytes.length < 2 ^ 31)
    (positive : 0 < ofs) {p : TdModelPart} (nonempty : p.Subsets ≠ [])
    (fits : ∀ s ∈ p.Subsets, s.payloadSize < payloadLimit)
    (at_link : Stands bytes pos (.part (UInt32.ofNat ofs).toInt32) v st)
    (found : bytes.drop ofs = env.partChunk ofs next p ++ rest) :
    Eventually (fun i => loadStep target (memory i))
      (fun st => ∃ w, PartPush memory env (ofs, next, p) v w ∧
        Stands bytes (ofs + env.partSize p) (.part next) w st) st := by
  refine .later fun i => ?_
  rw [SaveEnv.partChunk, List.append_assoc] at found
  have started := part_found (memory i) small target at_link positive found rfl
  let begun : TdModelPart :=
    ⟨nameAt FilePart.codec (partHeader p next (UInt32.ofNat (ofs + 44)).toInt32) 4 (memory i).tail, []⟩
  have first : (UInt32.ofNat (ofs + 44)).toInt32 = linkTo p.Subsets.isEmpty (ofs + 44) := by
    rw [linkTo, List.isEmpty_eq_false_iff.mpr nonempty]
    rfl
  have behind : bytes.drop (ofs + 44) =
      chain env.subsetSize env.subsetChunk (ofs + 44) p.Subsets ++ rest := by
    rw [← List.drop_drop, found]
    exact List.drop_left' (FilePart.codec.length_enc _)
  have inside := Stands.mk started.stream
    (started.pc.trans (congrArg (LoadPc.subset · next) first)) started.view started.materials
    started.textures
  have subsets := chain_run (fun i => loadStep target (memory i)) (fun ofs => .subset ofs next)
    (fun x v w => w = { v with parts := pushSubset v.parts (env.subsetCopy x.2.1 x.2.2) }) _
    env.length_subsetChunk
    (fun ofs link s rest v st positive small' at_link found =>
      .later fun i => .now ⟨_, rfl, subset_round (memory i) small positive hc small' at_link found⟩)
    (by omega) fits inside behind
  apply subsets.trans
  rintro st' ⟨w, folded, at_end⟩
  refine .later fun j => .now ⟨w, ⟨i, ?_⟩, ?_⟩
  · have pushed := foldl_pushSubset
      (fun x : Nat × Int32 × TdModelSubset => env.subsetCopy x.2.1 x.2.2)
      (linked env.subsetSize (ofs + 44) p.Subsets) { v with parts := v.parts ++ [begun] } v.parts begun rfl
    rw [List.nil_append] at pushed
    rw [folded.eq_foldl]
    exact pushed
  · rw [SaveEnv.partSize, ← Nat.add_assoc]
    exact leave_subsets (memory j) at_end

theorem parts_folded {env : SaveEnv} {l : List (Nat × Int32 × TdModelPart)} {v w : View}
    (h : Folds (PartPush memory env) l v w) :
    ∃ ps, w = { v with parts := v.parts ++ ps } ∧
      List.Forall₂ (fun x p => ∃ tail, (∃ i, (memory i).tail = tail) ∧
        p = env.partCopy tail x.1 x.2.1 x.2.2) l ps := by
  induction l generalizing v with
  | nil => exact ⟨[], by rw [List.append_nil]; exact h, .nil⟩
  | cons x l ih =>
    obtain ⟨_, ⟨i, rfl⟩, h⟩ := h
    obtain ⟨ps, rfl, copied⟩ := ih h
    exact ⟨_ :: ps, by simp, .cons ⟨_, ⟨i, rfl⟩, rfl⟩ copied⟩

/-- The reader takes a copy of every chunk of a written file and accepts it, whatever its
uninitialised memory holds. -/
theorem image_run (target : Target) (hc : Lz4.CompressHC env.compress) {m : TdScanModel}
    (fits : FitsFormat env m) (chains : m.NoEmptyChain) (src : Source) (same : src.bytes = env.image m) :
    Eventually (fun i => loadStep target (memory i))
      (fun st => ∃ parts, env.PartsCopied m (fun tail => ∃ i, (memory i).tail = tail) parts ∧
        Stands src.bytes src.bytes.length (.returned true) ⟨parts, env.materialCopies m, env.textureCopies m,
          (env.fileHeader m).iMaterialLibOfs, (env.fileHeader m).iTexLibOfs⟩ st) src.entry := by
  have small : src.bytes.length < 2 ^ 31 := by rw [same, env.length_image]; exact fits.size
  obtain ⟨parts_nonempty, subsets_nonempty⟩ := chains
  have materialsPositive : 0 < env.materialsOfs m := by unfold SaveEnv.materialsOfs; omega
  have texturesPositive : 0 < env.texturesOfs m := by unfold SaveEnv.texturesOfs; omega
  rw [same] at small ⊢
  refine .later fun i => ?_
  have entry : src.entry.stream.At (env.image m) 0 := same ▸ src.stream_at
  have header := header_found (memory i) target entry rfl rfl (env.image_header m) rfl rfl
  have first : (46 : Int32) = linkTo m.Parts.isEmpty 46 := by
    rw [linkTo, List.isEmpty_eq_false_iff.mpr parts_nonempty]
    rfl
  have at_parts := Stands.mk header.stream (header.pc.trans (congrArg LoadPc.part first)) header.view
    header.materials header.textures
  apply (chain_run (fun i => loadStep target (memory i)) LoadPc.part (PartPush memory env)
    (fun p : TdModelPart => p.Subsets ≠ [] ∧ ∀ s ∈ p.Subsets, s.payloadSize < payloadLimit) env.length_partChunk
    (fun ofs next p rest v st positive fits at_link found =>
      part_round memory hc small positive fits.1 fits.2 at_link found) (by decide)
    (fun p member => ⟨subsets_nonempty p member, List.forall_mem_flatMap.mp fits.subsets p member⟩)
    at_parts (env.image_parts m)).trans
  rintro st₁ ⟨v₁, folded₁, at_end₁⟩
  refine .later fun i => ?_
  obtain ⟨parts, rfl, copied⟩ := parts_folded memory folded₁
  apply (chain_run (fun i => loadStep target (memory i)) LoadPc.material
    (fun x v w => w = { v with materials := v.materials ++ [materialCopy x.2.1 x.2.2] })
    (fun _ => True) length_materialChunk
    (fun ofs next m rest v st positive _ at_link found =>
      .later fun i => .now ⟨_, rfl, material_round (memory i) small positive at_link found⟩)
    materialsPositive (fun _ _ => trivial) (leave_parts (memory i) at_end₁)
    (env.image_materials m)).trans
  rintro st₂ ⟨v₂, folded₂, at_end₂⟩
  refine .later fun i => ?_
  obtain rfl := folded₂.eq_foldl.trans (foldl_materials (fun x => materialCopy x.2.1 x.2.2) _ _)
  apply (chain_run (fun i => loadStep target (memory i)) LoadPc.texture
    (fun x v w => w = { v with textures := v.textures ++ [env.textureCopy x.2.1 x.2.2] })
    (fun t : TdModelTextureSlot => t.uiSize.toNat < payloadLimit) env.length_textureChunk
    (fun ofs next t rest v st positive fits at_link found =>
      .later fun i => .now ⟨_, rfl, texture_round (memory i) small positive hc fits at_link found⟩)
    texturesPositive fits.textures (leave_materials (memory i) at_end₂)
    ((env.image_textures m).trans (List.append_nil _).symm)).trans
  rintro st₃ ⟨v₃, folded₃, at_end₃⟩
  refine .later fun i => .now ⟨parts, copied, ?_⟩
  obtain rfl := folded₃.eq_foldl.trans (foldl_textures (fun x => env.textureCopy x.2.1 x.2.2) _ _)
  rw [env.length_image]
  exact leave_textures (memory i) at_end₃

/-- On a written file the reader ends, and wherever it ends it has read all of the file. -/
theorem image_outcome [Inhabited ι] (target : Target) (hc : Lz4.CompressHC env.compress) {m : TdScanModel}
    (fits : FitsFormat env m) (chains : m.NoEmptyChain) (src : Source) (same : src.bytes = env.image m) :
    Halts (fun i => loadStep target (memory i)) LoadState.Ended src.entry ∧
      ∀ is, LoadState.Ended (run (fun i => loadStep target (memory i)) src.entry is) →
        ∃ parts, env.PartsCopied m (fun tail => ∃ i, (memory i).tail = tail) parts ∧
          Stands src.bytes src.bytes.length (.returned true) ⟨parts, env.materialCopies m, env.textureCopies m,
            (env.fileHeader m).iMaterialLibOfs, (env.fileHeader m).iTexLibOfs⟩
            (run (fun i => loadStep target (memory i)) src.entry is) := by
  apply (image_run memory target hc fits chains src same).outcome
  · exact fun i st ended => loadStep_ended ended (memory i)
  · rintro st ⟨parts, copied, stands⟩
    exact Or.inl ⟨true, stands.pc⟩

end Runs

end ModelPublish.Scan
