import ModelPublish.Scan.Reread

/-!
# Is every written file well formed?

The chains of a file, read off its bytes. The writer keeps them whole except where a chain of parts
or of subsets is empty: there it still writes a link, and the reader follows it into another chunk.
-/

namespace ModelPublish.Scan
open Packed ModelPublish.Stream Machine SaveEnv

/-! ### Chains in the bytes -/

/-- The links in a chunk, each with the kind of chunk it should lead to. -/
def linkFields (bytes : List UInt8) (x : ChunkKind × Nat) : List (ChunkKind × Int32) :=
  let bs := bytes.drop x.2
  match x.1 with
  | .part => [(.part, (FilePart.codec.dec bs).iNextPartOfs), (.subset, (FilePart.codec.dec bs).iFirstSubset)]
  | .subset => [(.subset, (FileSubset.codec.dec bs).iNextSubsetOfs)]
  | .material => [(.material, (FileMaterial.codec.dec bs).iNextMaterialOfs)]
  | .texture => [(.texture, (FileTexture.codec.dec bs).iNextTexOfs)]

def headerFields (bytes : List UInt8) : List (ChunkKind × Int32) :=
  let hdr := FileHeader.codec.dec bytes
  [(.part, hdr.iFirstPartOfs), (.material, hdr.iMaterialLibOfs), (.texture, hdr.iTexLibOfs)]

/-- Following the links of one chain from `ofs` on, and from each part those of its subsets, one
comes by these chunks. -/
inductive Visits (bytes : List UInt8) : ChunkKind → Int32 → List (ChunkKind × Nat) → Prop
  | stop {kind : ChunkKind} {ofs : Int32} (h : ¬ 0 < ofs) : Visits bytes kind ofs []
  | part {ofs : Int32} {inner rest : List (ChunkKind × Nat)} (h : 0 < ofs)
    (subsets : Visits bytes .subset (FilePart.codec.dec (bytes.drop ofs.toInt.toNat)).iFirstSubset inner)
    (next : Visits bytes .part (FilePart.codec.dec (bytes.drop ofs.toInt.toNat)).iNextPartOfs rest) :
    Visits bytes .part ofs ((.part, ofs.toInt.toNat) :: (inner ++ rest))
  | subset {ofs : Int32} {rest : List (ChunkKind × Nat)} (h : 0 < ofs)
    (next : Visits bytes .subset (FileSubset.codec.dec (bytes.drop ofs.toInt.toNat)).iNextSubsetOfs rest) :
    Visits bytes .subset ofs ((.subset, ofs.toInt.toNat) :: rest)
  | material {ofs : Int32} {rest : List (ChunkKind × Nat)} (h : 0 < ofs)
    (next : Visits bytes .material
      (FileMaterial.codec.dec (bytes.drop ofs.toInt.toNat)).iNextMaterialOfs rest) :
    Visits bytes .material ofs ((.material, ofs.toInt.toNat) :: rest)
  | texture {ofs : Int32} {rest : List (ChunkKind × Nat)} (h : 0 < ofs)
    (next : Visits bytes .texture (FileTexture.codec.dec (bytes.drop ofs.toInt.toNat)).iNextTexOfs rest) :
    Visits bytes .texture ofs ((.texture, ofs.toInt.toNat) :: rest)

/-- A file whose links all lead to chunks of the right kind and whose chains come by every chunk
written exactly once. -/
structure WellFormed (bytes : List UInt8) (chunks : List (ChunkKind × Nat)) : Prop where
  links : ∀ f ∈ headerFields bytes ++ chunks.flatMap (linkFields bytes), 0 < f.2 →
    (f.1, f.2.toInt.toNat) ∈ chunks
  visits : ∃ parts materials textures,
    Visits bytes .part (FileHeader.codec.dec bytes).iFirstPartOfs parts ∧
    Visits bytes .material (FileHeader.codec.dec bytes).iMaterialLibOfs materials ∧
    Visits bytes .texture (FileHeader.codec.dec bytes).iTexLibOfs textures ∧
    (parts ++ materials ++ textures).Perm chunks ∧ chunks.Nodup

theorem Visits.closed {bytes : List UInt8} {kind : ChunkKind} {ofs : Int32}
    {chunks : List (ChunkKind × Nat)} (h : Visits bytes kind ofs chunks) :
    (0 < ofs → (kind, ofs.toInt.toNat) ∈ chunks) ∧
      ∀ x ∈ chunks, ∀ f ∈ linkFields bytes x, 0 < f.2 → (f.1, f.2.toInt.toNat) ∈ chunks := by
  induction h with
  | stop h => exact ⟨fun positive => absurd positive h, by simp⟩
  | part h subsets next ihSubsets ihNext =>
    refine ⟨fun _ => List.mem_cons_self, fun x member f field positive => ?_⟩
    rcases List.mem_cons.mp member with rfl | member
    · rcases List.mem_pair.mp field with rfl | rfl
      · exact List.mem_cons_of_mem _ (List.mem_append_right _ (ihNext.1 positive))
      · exact List.mem_cons_of_mem _ (List.mem_append_left _ (ihSubsets.1 positive))
    · rcases List.mem_append.mp member with member | member
      · exact List.mem_cons_of_mem _ (List.mem_append_left _ (ihSubsets.2 x member f field positive))
      · exact List.mem_cons_of_mem _ (List.mem_append_right _ (ihNext.2 x member f field positive))
  | subset h next ih | material h next ih | texture h next ih =>
    refine ⟨fun _ => List.mem_cons_self, fun x member f field positive => ?_⟩
    rcases List.mem_cons.mp member with rfl | member
    · obtain rfl := List.mem_singleton.mp field
      exact List.mem_cons_of_mem _ (ih.1 positive)
    · exact List.mem_cons_of_mem _ (ih.2 x member f field positive)

/-- Three walks that together come by every chunk once leave no link astray. -/
theorem wellFormed_of_visits {bytes : List UInt8} {chunks parts materials textures : List (ChunkKind × Nat)}
    (parts_walk : Visits bytes .part (FileHeader.codec.dec bytes).iFirstPartOfs parts)
    (materials_walk : Visits bytes .material (FileHeader.codec.dec bytes).iMaterialLibOfs materials)
    (textures_walk : Visits bytes .texture (FileHeader.codec.dec bytes).iTexLibOfs textures)
    (all : parts ++ materials ++ textures = chunks) (once : chunks.Nodup) : WellFormed bytes chunks := by
  subst all
  refine ⟨?_, _, _, _, parts_walk, materials_walk, textures_walk, .refl _, once⟩
  intro f field positive
  simp only [headerFields, List.mem_append, List.mem_flatMap, List.mem_cons, List.not_mem_nil,
    or_false] at field ⊢
  rcases field with (rfl | rfl | rfl) | ⟨x, (member | member) | member, field⟩
  · exact Or.inl (Or.inl (parts_walk.closed.1 positive))
  · exact Or.inl (Or.inr (materials_walk.closed.1 positive))
  · exact Or.inr (textures_walk.closed.1 positive)
  · exact Or.inl (Or.inl (parts_walk.closed.2 x member f field positive))
  · exact Or.inl (Or.inr (materials_walk.closed.2 x member f field positive))
  · exact Or.inr (textures_walk.closed.2 x member f field positive)

/-! ### The chains of a layout -/

theorem visits_chain {β : Type} {bytes : List UInt8} (kind : ChunkKind) {size : β → Nat}
    {chunk : Nat → Int32 → β → List UInt8} (places : Nat → β → List (ChunkKind × Nat))
    (ok : β → Prop) (length : ∀ ofs next b, (chunk ofs next b).length = size b)
    (step : ∀ ofs next b rest chunks, 0 < ofs → ofs + size b < 2 ^ 31 → ok b →
      bytes.drop ofs = chunk ofs next b ++ rest → Visits bytes kind next chunks →
      Visits bytes kind (UInt32.ofNat ofs).toInt32 (places ofs b ++ chunks))
    {ofs : Nat} (positive : 0 < ofs) {items : List β} (fits : ∀ b ∈ items, ok b)
    (bound : ofs + chainSize size items < 2 ^ 31) {rest : List UInt8}
    (found : bytes.drop ofs = chain size chunk ofs items ++ rest) :
    Visits bytes kind (linkTo items.isEmpty ofs) (chainPlaces size places ofs items) := by
  induction items generalizing ofs with
  | nil => exact .stop (show ¬ (0 : Int32) < -1 by decide)
  | cons b items ih =>
    obtain ⟨head, tail⟩ := List.forall_mem_cons.mp fits
    rw [chain, List.append_assoc] at found
    rw [chainSize_cons, ← Nat.add_assoc] at bound
    have behind : bytes.drop (ofs + size b) = chain size chunk (ofs + size b) items ++ rest := by
      rw [← List.drop_drop, found, List.drop_left' (length ..)]
    exact step ofs _ b _ _ positive (by omega) head found (ih (by omega) tail bound behind)

/-- A list of chunks in the order of their places, which lie between two bounds. -/
def Within (lower upper : Nat) (chunks : List (ChunkKind × Nat)) : Prop :=
  chunks.Pairwise (fun x y => x.2 < y.2) ∧ ∀ x ∈ chunks, lower ≤ x.2 ∧ x.2 < upper

theorem Within.append {a b c : Nat} {l₁ l₂ : List (ChunkKind × Nat)} (h : Within a b l₁)
    (k : Within b c l₂) (ab : a ≤ b) (bc : b ≤ c) : Within a c (l₁ ++ l₂) := by
  refine ⟨List.pairwise_append.mpr ⟨h.1, k.1, fun x left y right => ?_⟩, fun x member => ?_⟩
  · have := h.2 x left
    have := k.2 y right
    omega
  · rcases List.mem_append.mp member with left | right
    · have := h.2 x left
      omega
    · have := k.2 x right
      omega

theorem within_chain {β : Type} {size : β → Nat} (places : Nat → β → List (ChunkKind × Nat))
    (each : ∀ ofs b, Within ofs (ofs + size b) (places ofs b)) (ofs : Nat) (items : List β) :
    Within ofs (ofs + chainSize size items) (chainPlaces size places ofs items) := by
  induction items generalizing ofs with
  | nil => exact ⟨List.Pairwise.nil, by simp [chainPlaces, placed]⟩
  | cons b rest ih =>
    have behind := ih (ofs + size b)
    rw [Nat.add_assoc] at behind
    rw [chainSize_cons]
    exact (each ofs b).append behind (by omega) (by omega)

theorem within_single (kind : ChunkKind) (ofs size : Nat) (positive : 0 < size) :
    Within ofs (ofs + size) [(kind, ofs)] :=
  ⟨List.pairwise_singleton _ _, by simp [positive]⟩

theorem within_part (env : SaveEnv) (ofs : Nat) (p : TdModelPart) :
    Within ofs (ofs + env.partSize p) (env.partPlaces ofs p) := by
  have size : env.partSize p = 44 + chainSize env.subsetSize p.Subsets := rfl
  have subsets := within_chain (fun ofs _ => [(ChunkKind.subset, ofs)])
    (fun ofs s => within_single .subset ofs (env.subsetSize s) (by unfold subsetSize; omega))
    (ofs + 44) p.Subsets
  rw [size, ← Nat.add_assoc]
  exact (within_single .part ofs 44 (by decide)).append subsets (by omega) (by omega)

theorem places_nodup (env : SaveEnv) (m : TdScanModel) : (env.places m).Nodup := by
  have parts := within_chain env.partPlaces (within_part env) 46 m.Parts
  have materials := within_chain (fun ofs _ => [(ChunkKind.material, ofs)])
    (fun ofs s => within_single .material ofs (materialSize s) (Nat.succ_pos _)) (env.materialsOfs m)
    m.materialList
  have textures := within_chain (fun ofs _ => [(ChunkKind.texture, ofs)])
    (fun ofs s => within_single .texture ofs (env.textureSize s) (by unfold textureSize; omega))
    (env.texturesOfs m) m.textureList
  have all := (parts.append materials (Nat.le_add_right _ _) (Nat.le_add_right _ _)).append textures
    (Nat.le_trans (Nat.le_add_right _ _) (Nat.le_add_right _ _)) (Nat.le_add_right _ _)
  exact all.1.imp fun below same => absurd (congrArg Prod.snd same) (Nat.ne_of_lt below)

section Walks
variable {env : SaveEnv} {bytes rest : List UInt8} {ofs : Nat} {next : Int32}
  {chunks : List (ChunkKind × Nat)} (positive : 0 < ofs) (small : ofs < 2 ^ 31)
include positive small

theorem visits_subset {s : TdModelSubset} (found : bytes.drop ofs = env.subsetChunk ofs next s ++ rest)
    (behind : Visits bytes .subset next chunks) :
    Visits bytes .subset (UInt32.ofNat ofs).toInt32 ((.subset, ofs) :: chunks) := by
  have value : (UInt32.ofNat ofs).toInt32.toInt.toNat = ofs := by rw [toInt_ofNat small]; rfl
  have walk := @Visits.subset bytes _ chunks (link_pos positive small)
  rw [value, found, subsetChunk, List.append_assoc, Codec.dec_append] at walk
  exact walk behind

theorem visits_material {m : TdModelMaterial}
    (found : bytes.drop ofs = materialChunk ofs next m ++ rest)
    (behind : Visits bytes .material next chunks) :
    Visits bytes .material (UInt32.ofNat ofs).toInt32 ((.material, ofs) :: chunks) := by
  have value : (UInt32.ofNat ofs).toInt32.toInt.toNat = ofs := by rw [toInt_ofNat small]; rfl
  have walk := @Visits.material bytes _ chunks (link_pos positive small)
  rw [value, found, materialChunk, Codec.dec_append] at walk
  exact walk behind

theorem visits_texture {t : TdModelTextureSlot}
    (found : bytes.drop ofs = env.textureChunk ofs next t ++ rest)
    (behind : Visits bytes .texture next chunks) :
    Visits bytes .texture (UInt32.ofNat ofs).toInt32 ((.texture, ofs) :: chunks) := by
  have value : (UInt32.ofNat ofs).toInt32.toInt.toNat = ofs := by rw [toInt_ofNat small]; rfl
  have walk := @Visits.texture bytes _ chunks (link_pos positive small)
  rw [value, found, textureChunk, List.append_assoc, Codec.dec_append] at walk
  exact walk behind

theorem visits_part {p : TdModelPart} (nonempty : p.Subsets ≠ [])
    (bound : ofs + env.partSize p < 2 ^ 31)
    (found : bytes.drop ofs = env.partChunk ofs next p ++ rest)
    (behind : Visits bytes .part next chunks) :
    Visits bytes .part (UInt32.ofNat ofs).toInt32 (env.partPlaces ofs p ++ chunks) := by
  have value : (UInt32.ofNat ofs).toInt32.toInt.toNat = ofs := by rw [toInt_ofNat small]; rfl
  have size : env.partSize p = 44 + chainSize env.subsetSize p.Subsets := rfl
  rw [partChunk, List.append_assoc] at found
  have inside : bytes.drop (ofs + 44) =
      chain env.subsetSize env.subsetChunk (ofs + 44) p.Subsets ++ rest := by
    rw [← List.drop_drop, found]
    exact List.drop_left' (FilePart.codec.length_enc _)
  have subsets := visits_chain .subset (fun ofs _ => [(ChunkKind.subset, ofs)]) (fun _ => True)
    env.length_subsetChunk
    (fun ofs next s rest chunks positive bound _ found behind =>
      visits_subset positive (by omega) found behind)
    (by omega) (fun _ _ => trivial) (by omega) inside
  have first : (UInt32.ofNat (ofs + 44)).toInt32 = linkTo p.Subsets.isEmpty (ofs + 44) := by
    rw [linkTo, List.isEmpty_eq_false_iff.mpr nonempty]
    rfl
  rw [← first] at subsets
  have walk := @Visits.part bytes _
    (chainPlaces env.subsetSize (fun ofs _ => [(.subset, ofs)]) (ofs + 44) p.Subsets) chunks
    (link_pos positive small)
  rw [value, found, Codec.dec_append] at walk
  exact walk subsets behind

end Walks

/-- When no chain of parts or subsets is empty, the file is well formed. -/
theorem wellFormed_image {env : SaveEnv} {m : TdScanModel} (fits : FitsFormat env m)
    (chains : m.NoEmptyChain) : WellFormed (env.image m) (env.places m) := by
  have size := fits.size
  have sizes : env.fileSize m = env.texturesOfs m + chainSize env.textureSize m.textureList ∧
      env.texturesOfs m = env.materialsOfs m + chainSize materialSize m.materialList ∧
      env.materialsOfs m = 46 + chainSize env.partSize m.Parts := ⟨rfl, rfl, rfl⟩
  have header : FileHeader.codec.dec (env.image m) = env.fileHeader m := by
    rw [env.image_header m, Codec.dec_append]
  have parts := visits_chain .part env.partPlaces (fun p => p.Subsets ≠ [])
    env.length_partChunk
    (fun ofs next p rest chunks positive bound nonempty found behind =>
      visits_part positive (by omega) nonempty bound found behind)
    (by decide) chains.2 (by omega) (env.image_parts m)
  have materials := visits_chain .material (fun ofs _ => [(ChunkKind.material, ofs)]) (fun _ => True)
    length_materialChunk
    (fun ofs next p rest chunks positive bound _ found behind =>
      visits_material positive (by omega) found behind)
    (by omega) (fun _ _ => trivial) (by omega) (env.image_materials m)
  have textures := visits_chain .texture (fun ofs _ => [(ChunkKind.texture, ofs)]) (fun _ => True)
    env.length_textureChunk
    (fun ofs next p rest chunks positive bound _ found behind =>
      visits_texture positive (by omega) found behind)
    (by omega) (fun _ _ => trivial) (by omega) ((env.image_textures m).trans (List.append_nil _).symm)
  have first : linkTo m.Parts.isEmpty 46 = (env.fileHeader m).iFirstPartOfs := by
    rw [linkTo, List.isEmpty_eq_false_iff.mpr chains.1]
    rfl
  rw [first] at parts
  exact wellFormed_of_visits (by rw [header]; exact parts) (by rw [header]; exact materials)
    (by rw [header]; exact textures) rfl (places_nodup env m)

/-! ### Empty chains -/

theorem readStruct_foreign {α : Type} {c : Codec α} (two : 2 ≤ c.size) (fits : c.size < 2 ^ 30)
    {s : BaseStream} {bytes : List UInt8} {pos : Nat} (stream : s.At bytes pos)
    (small : bytes.length < 2 ^ 31) {ofs : Nat} (inside : ofs ≤ bytes.length) (positive : 0 < ofs)
    {first second : UInt8} (foreign : (bytes.drop ofs).head? ≠ some first) (nonzero : second ≠ 0)
    (tail : List UInt8) :
    (c.enc (readStruct c (s.seekTo (UInt32.ofNat ofs).toInt32) default).1) ≠ first :: second :: tail := by
  have value : (UInt32.ofNat ofs).toInt32.toInt = ofs := toInt_ofNat (by omega)
  have size : (sizeOf c).toNat = c.size := UInt32.toNat_ofNat_of_lt' (Nat.lt_trans fits (by decide))
  have read (pos : Nat) (h : (s.seekTo (UInt32.ofNat ofs).toInt32).At bytes pos)
      (position : pos ≤ bytes.length) : c.enc (readStruct c (s.seekTo (UInt32.ofNat ofs).toInt32)
        default).1 = overlay (List.replicate c.size 0) ((bytes.drop pos).take c.size) := by
    have got := h.read_bytes position (fun _ => 0) (sizeOf c) (by omega)
    have zeros : cells (default : Uninit).header c.size = List.replicate c.size 0 := by
      simp [cells, default, List.map_const']
    rw [← size, ← got, size, ← zeros]
    exact c.enc_dec_of_length (by simp)
  intro same
  rcases Nat.lt_or_ge ofs bytes.length with before | past
  · have arrived := stream.seekTo small (UInt32.ofNat ofs).toInt32 (by omega) (by omega)
    rw [value] at arrived
    rw [read ofs arrived inside] at same
    cases front : bytes.drop ofs with
    | nil =>
      have := congrArg List.length front
      rw [List.length_drop, List.length_nil] at this
      omega
    | cons b rest =>
      rw [front] at same foreign
      obtain ⟨n, two⟩ : ∃ n, c.size = n + 2 := ⟨c.size - 2, by omega⟩
      rw [two] at same
      simp [overlay, List.take_succ_cons] at same foreign
      exact foreign same.1
  · obtain ⟨pos, arrived, position, last⟩ := stream.seekTo_end small (by omega)
      (UInt32.ofNat ofs).toInt32 (by omega)
    rw [read pos arrived position] at same
    have short : ((bytes.drop pos).take c.size).length ≤ 1 := by
      rw [List.length_take, List.length_drop]
      omega
    obtain ⟨n, two⟩ : ∃ n, c.size = n + 2 := ⟨c.size - 2, by omega⟩
    generalize (bytes.drop pos).take c.size = front at same short
    rw [two] at same
    rcases front with _ | ⟨b, _ | ⟨b', front⟩⟩
    · simp [overlay, List.replicate_succ] at same
      exact nonzero same.2.1.symm
    · simp [overlay, List.replicate_succ] at same
      exact nonzero same.2.1.symm
    · simp at short

section Rejected
variable {target : Target} {bytes : List UInt8} {st : LoadState} {v : View}
  {pos ofs : Nat} (small : bytes.length < 2 ^ 31) (inside : ofs ≤ bytes.length) (positive : 0 < ofs)
include small inside positive

theorem part_rejected (at_link : Stands bytes pos (.part (UInt32.ofNat ofs).toInt32) v st)
    (foreign : (bytes.drop ofs).head? ≠ some 80) :
    (loadStep target default st).pc = .returned false := by
  have stream := at_link.stream
  have other := readStruct_foreign (c := FilePart.codec) (by decide) (by decide) stream small inside
    positive foreign (show (65 : UInt8) ≠ 0 by decide)
  simp only [loadStep, at_link.pc, if_pos (link_pos positive (by omega))]
  unfold loadPart
  generalize readStruct FilePart.codec (st.stream.seekTo (UInt32.ofNat ofs).toInt32) default = r at other
  obtain ⟨hdr, got, stream⟩ := r
  have sign : hdr.szSign.toList ≠ ascii "PART" := by
    intro sign
    have front : FilePart.codec.enc hdr = hdr.szSign.toList ++ (FilePart.codec.enc hdr).drop (0 + 4) :=
      (Codec.HasField.head _ _).equiv _ hdr
    rw [sign] at front
    exact other _ front
  simp only [sign, ne_eq, not_false_eq_true, if_true]
  rfl

theorem subset_rejected {back : Int32}
    (at_link : Stands bytes pos (.subset (UInt32.ofNat ofs).toInt32 back) v st)
    (foreign : (bytes.drop ofs).head? ≠ some 83) :
    (loadStep target default st).pc = .returned false := by
  have stream := at_link.stream
  have other := readStruct_foreign (c := FileSubset.codec) (by decide) (by decide) stream small inside
    positive foreign (show (85 : UInt8) ≠ 0 by decide)
  simp only [loadStep, at_link.pc, if_pos (link_pos positive (by omega))]
  unfold loadSubset
  generalize readStruct FileSubset.codec (st.stream.seekTo (UInt32.ofNat ofs).toInt32) default = r
    at other
  obtain ⟨hdr, got, stream⟩ := r
  have sign : hdr.szSign.toList ≠ ascii "SUBSET" := by
    intro sign
    have front : FileSubset.codec.enc hdr =
        hdr.szSign.toList ++ (FileSubset.codec.enc hdr).drop (0 + 6) :=
      (Codec.HasField.head _ _).equiv _ hdr
    rw [sign] at front
    exact other _ front
  simp only [sign, ne_eq, not_false_eq_true, if_true]
  rfl

end Rejected

/-- What follows the parts of a file starts with neither `P` nor `S`. -/
def NoPartOrSubset (rest : List UInt8) : Prop := rest.head? ≠ some 80 ∧ rest.head? ≠ some 83

theorem noPartOrSubset_libs (env : SaveEnv) (ofs ofs' : Nat) (materials : List TdModelMaterial)
    (textures : List TdModelTextureSlot) :
    NoPartOrSubset (chain materialSize materialChunk ofs materials ++
      chain env.textureSize env.textureChunk ofs' textures) := by
  cases materials with
  | cons m materials =>
    have front (next : Int32) : (FileMaterial.codec.enc (materialHeader m next)).head? = some 77 := by
      have sign : (materialHeader m next).szSign.toList = ascii "MATERIAL" := blank_material.1
      have first (h : FileMaterial) : FileMaterial.codec.enc h = h.szSign.toList ++
          (FileMaterial.codec.enc h).drop (0 + 8) := (Codec.HasField.head _ _).equiv _ h
      rw [first, sign]
      rfl
    simp [NoPartOrSubset, chain, materialChunk, List.head?_append, front]
  | nil =>
    cases textures with
    | cons t textures =>
      have front (stored : Stored) (next : Int32) :
          (FileTexture.codec.enc (textureHeader t stored next)).head? = some 84 := rfl
      simp [NoPartOrSubset, chain, textureChunk, List.head?_append, front]
    | nil => simp [NoPartOrSubset, chain]

theorem parts_rejected {env : SaveEnv} (hc : Lz4.CompressHC env.compress) {target : Target}
    {bytes rest : List UInt8} (small : bytes.length < 2 ^ 31) {parts : List TdModelPart}
    (fits : ∀ p ∈ parts, ∀ s ∈ p.Subsets, s.payloadSize < payloadLimit)
    (empty : ∃ p ∈ parts, p.Subsets = []) {ofs : Nat} (positive : 0 < ofs) {v : View} {st : LoadState}
    (at_link : Stands bytes ofs (.part (linkTo parts.isEmpty ofs)) v st)
    (found : bytes.drop ofs = chain env.partSize env.partChunk ofs parts ++ rest)
    (behind : NoPartOrSubset rest) :
    Eventually (fun _ : Unit => loadStep target default) (fun st => st.pc = .returned false) st := by
  induction parts generalizing ofs v st with
  | nil => simp at empty
  | cons p parts ih =>
    obtain ⟨head, tail⟩ := List.forall_mem_cons.mp fits
    rw [chain, List.append_assoc] at found
    have next_found : bytes.drop (ofs + env.partSize p) =
        chain env.partSize env.partChunk (ofs + env.partSize p) parts ++ rest := by
      rw [← List.drop_drop, found, List.drop_left' (env.length_partChunk ..)]
    by_cases none : p.Subsets = []
    · have size : env.partSize p = 44 := by simp [partSize, none]
      have bare (next : Int32) : env.partChunk ofs next p =
          FilePart.codec.enc (partHeader p next (UInt32.ofNat (ofs + 44)).toInt32) := by
        simp [partChunk, none, chain]
      rw [bare] at found
      have started := part_found default small target at_link positive found rfl
      rw [size] at next_found
      have foreign : (bytes.drop (ofs + 44)).head? ≠ some 83 := by
        rw [next_found]
        cases parts with
        | nil => exact behind.2
        | cons q parts =>
          have front (next first : Int32) :
              (FilePart.codec.enc (partHeader q next first)).head? = some 80 := rfl
          simp [chain, partChunk, List.head?_append, front]
      have length := congrArg List.length found
      simp only [List.length_drop, List.length_append, Codec.length_enc, FilePart.size] at length
      exact .later fun _ => .later fun _ => .now
        (subset_rejected small (by omega) (by omega) started foreign)
    · have more : ∃ p ∈ parts, p.Subsets = [] := by simpa [none] using empty
      apply (part_round (fun _ : Unit => default) hc small positive none head at_link found).trans
      rintro st' ⟨w, -, at_next⟩
      exact ih tail more (by omega) at_next next_found

/-- With an empty chain the reader, over a stack of zeros, rejects the file. -/
theorem image_rejected {env : SaveEnv} (hc : Lz4.CompressHC env.compress) {m : TdScanModel}
    (fits : FitsFormat env m) (target : Target) (src : Source) (same : src.bytes = env.image m)
    (chains : ¬ m.NoEmptyChain) :
    Eventually (fun _ : Unit => loadStep target default) (fun st => st.pc = .returned false)
      src.entry := by
  have small : src.bytes.length < 2 ^ 31 := by rw [same, env.length_image]; exact fits.size
  have length : src.bytes.length = env.fileSize m := by rw [same, env.length_image]
  have size : 46 ≤ env.fileSize m := by
    simp only [fileSize, texturesOfs, materialsOfs]
    omega
  have libs := noPartOrSubset_libs env (env.materialsOfs m) (env.texturesOfs m) m.materialList
    m.textureList
  have header := header_found default target (show src.entry.stream.At _ 0 from src.stream_at) rfl rfl
    (same.trans (env.image_header m)) rfl rfl
  refine .later fun _ => ?_
  by_cases none : m.Parts = []
  · have found := env.image_parts m
    rw [none, chain, List.nil_append] at found
    have at_first : Stands src.bytes 46 (.part (UInt32.ofNat 46).toInt32) _ _ := header
    exact .later fun _ => .now (part_rejected small (by omega) (by decide) at_first
      (by rw [same, found]; exact libs.1))
  · have empty : ∃ p ∈ m.Parts, p.Subsets = [] := by
      simpa [TdScanModel.NoEmptyChain, none] using chains
    have first : (46 : Int32) = linkTo m.Parts.isEmpty 46 := by
      rw [linkTo, List.isEmpty_eq_false_iff.mpr none]
      rfl
    have at_parts := Stands.mk header.stream (header.pc.trans (congrArg LoadPc.part first)) header.view
      header.materials header.textures
    exact parts_rejected hc small (List.forall_mem_flatMap.mp fits.subsets) empty (by decide) at_parts
      (by rw [same]; exact env.image_parts m) libs

theorem not_accepted_image {env : SaveEnv} (hc : Lz4.CompressHC env.compress) {m : TdScanModel}
    (fits : FitsFormat env m) (target : Target) (src : Source) (same : src.bytes = env.image m)
    (chains : ¬ m.NoEmptyChain) : ¬ Halts (loadStep target) LoadState.Accepted src.entry := by
  intro accepted
  obtain ⟨n, no⟩ := (image_rejected hc fits target src same chains).halts fun _ => ()
  obtain ⟨k, yes⟩ := accepted fun _ => default
  rw [run_map (fun _ : Unit => (default : Uninit)), take_map] at no
  have fixed {n : Nat} {accepted : Bool}
      (h : (run (loadStep target) src.entry (take n fun _ => default)).pc = .returned accepted)
      (u : Uninit) : loadStep target u _ = _ := loadStep_ended (Or.inl ⟨accepted, h⟩) u
  have same := run_take_eq (fixed yes) (fixed no)
  have yes : LoadState.pc _ = .returned true := yes
  rw [same] at yes
  exact absurd (yes.symm.trans no) (by decide)

/-- `Save3DScanModel` leaves a well-formed file, which `Load3DScanModel` accepts from memory and from
disk, exactly for the models without an empty chain of parts or of subsets. -/
theorem save_wellFormed_iff {env : SaveEnv} (hc : Lz4.CompressHC env.compress) {m : TdScanModel}
    (fits : FitsFormat env m) (target : Target) :
    (∃ st, env.save3DScanModel true m = some (true, st) ∧ WellFormed st.file.bytes st.chunks ∧
        ∀ src : Source, src.bytes = st.file.bytes →
          Halts (loadStep target) LoadState.Accepted src.entry) ↔
      m.NoEmptyChain := by
  obtain ⟨st, written, image, chunks⟩ := writeModel_image hc fits
  have saved : env.save3DScanModel true m = some (true, st) := by
    rw [save3DScanModel, if_pos rfl, written]
    rfl
  constructor
  · rintro ⟨st', saved', -, accepted⟩
    obtain rfl : st = st' := by
      rw [saved] at saved'
      exact (Prod.mk.inj (Option.some.inj saved')).2
    by_contra chains
    exact not_accepted_image hc fits target (.file st.file.bytes) image chains
      (accepted _ rfl)
  · intro chains
    refine ⟨st, saved, ?_, fun src same => ?_⟩
    · rw [image, chunks]
      exact wellFormed_image fits chains
    · have run := image_run id target hc fits chains src (same.trans image)
      exact (run.trans fun st ⟨_, _, stands⟩ => .now (Q := LoadState.Accepted) stands.pc).halts

theorem save_wellFormed_triangle :
    ∃ st, literalEnv.save3DScanModel true triangle = some (true, st) ∧
      WellFormed st.file.bytes st.chunks ∧
      ∀ src : Source, src.bytes = st.file.bytes →
        Halts (loadStep .x64) LoadState.Accepted src.entry :=
  (save_wellFormed_iff Lz4.compressHC_lastLiterals fitsFormat_triangle .x64).mpr (by decide)

/-- A model of nothing: the header links to a first part behind the end of the file. -/
theorem save_emptyModel :
    ∃ st, literalEnv.save3DScanModel true emptyModel = some (true, st) ∧
      ¬ WellFormed st.file.bytes st.chunks ∧
      ¬ Halts (loadStep .x64) LoadState.Accepted (Source.file st.file.bytes).entry := by
  have fits : FitsFormat literalEnv emptyModel := ⟨by decide, by decide, by decide⟩
  obtain ⟨st, written, image, chunks⟩ := writeModel_image Lz4.compressHC_lastLiterals fits
  refine ⟨st, by rw [save3DScanModel, if_pos rfl, written]; rfl, fun formed => ?_, ?_⟩
  · have first : (FileHeader.codec.dec st.file.bytes).iFirstPartOfs = 46 := by
      rw [image, literalEnv.image_header, Codec.dec_append]
      rfl
    have none : st.chunks = [] := chunks
    have lands := formed.links (.part, 46) (by simp [headerFields, first]) (by decide)
    rw [none] at lands
    cases lands
  · exact not_accepted_image Lz4.compressHC_lastLiterals fits .x64 (.file st.file.bytes) image
      (by decide)

end ModelPublish.Scan
