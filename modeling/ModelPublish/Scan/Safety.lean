import ModelPublish.Scan.Trace

/-!
# Is every accepted model consistent?

The sizes of a subset are checked, allocated and copied in words of 32 bits or as a `size_t`. They are
the sizes they stand for exactly when the true size of the payload is a 32-bit number, and the
bounding box loop reads positions that are there exactly when a vertex is large enough to hold one.
-/

namespace ModelPublish.Scan
open Packed ModelPublish.Stream Machine

namespace FileSubset

def vertexBytes (hdr : FileSubset) : Nat :=
  (getVertexSize hdr.uiVertexFormat).toNat * hdr.uiVertexCount.toNat

def indexBytes (hdr : FileSubset) : Nat := 12 * hdr.uiTriCount.toNat

theorem vbSize_toNat (hdr : FileSubset) : hdr.vbSize.toNat = hdr.vertexBytes % 2 ^ 32 :=
  UInt32.toNat_mul _ _

theorem ibCount_eq (hdr : FileSubset) : hdr.ibCount = 3 * hdr.uiTriCount.toNat % 2 ^ 32 := by
  have three : (3 : UInt32).toNat = 3 := rfl
  rw [ibCount, UInt32.toNat_mul, three, Nat.mul_comm]

theorem checkedSize_eq (hdr : FileSubset) (target : Target) :
    hdr.checkedSize target = (hdr.vbSize.toNat + 4 * hdr.ibCount) % target.sizeMod := by
  rw [checkedSize, Nat.mul_comm (hdr.uiTriCount * 3).toNat]
  rfl

theorem sizes_exact {hdr : FileSubset} (target : Target) (small : hdr.vertexBytes + hdr.indexBytes < 2 ^ 32) :
    hdr.vbSize.toNat = hdr.vertexBytes ∧ 4 * hdr.ibCount = hdr.indexBytes ∧
      hdr.ibSize target = hdr.indexBytes ∧
      hdr.checkedSize target = hdr.vertexBytes + hdr.indexBytes := by
  have modulus := target.le_sizeMod
  have vb := hdr.vbSize_toNat
  have ib := hdr.ibCount_eq
  unfold indexBytes at small ⊢
  rw [Nat.mod_eq_of_lt (by omega)] at vb ib
  refine ⟨vb, by omega, ?_, ?_⟩
  · rw [ibSize, Nat.mod_eq_of_lt (by omega)]
    omega
  · rw [checkedSize_eq, Nat.mod_eq_of_lt (by omega)]
    omega

/-- What a subset in memory owes to the header it was read from. -/
structure Describes (hdr : FileSubset) (s : TdModelSubset) : Prop where
  vertices : s.pVB.length = s.vertexBytes
  indices : s.pIB.length = 3 * s.uiTriCount.toNat
  size : hdr.uiDataSize.toNat = s.payloadSize

instance (hdr : FileSubset) (s : TdModelSubset) : Decidable (hdr.Describes s) :=
  decidable_of_iff (s.pVB.length = s.vertexBytes ∧ s.pIB.length = 3 * s.uiTriCount.toNat ∧
    hdr.uiDataSize.toNat = s.payloadSize) ⟨fun ⟨a, b, c⟩ => ⟨a, b, c⟩, fun ⟨a, b, c⟩ => ⟨a, b, c⟩⟩

theorem describes_loaded_iff {hdr : FileSubset} {target : Target} (passes : hdr.Passes target) {b : Buffers}
    (allocated : b.pVB.length = hdr.vbSize.toNat) (tail : List UInt8) :
    hdr.Describes (hdr.loaded b tail) ↔ hdr.vertexBytes + hdr.indexBytes < 2 ^ 32 := by
  have words : (hdr.loaded b tail).pIB.length = hdr.ibCount := Codec.length_decMany _ _ _
  constructor
  · rintro ⟨-, -, size⟩
    have bound := hdr.uiDataSize.toNat_lt
    rw [size] at bound
    exact bound
  · intro small
    obtain ⟨vb, ib, -, checked⟩ := sizes_exact target small
    refine ⟨allocated.trans vb, words.trans ?_, ?_⟩
    · unfold indexBytes at ib
      show hdr.ibCount = 3 * hdr.uiTriCount.toNat
      omega
    · rw [passes.2.1, checked]
      rfl

/-- The payload behind `s` can be taken into buffers of its own size, and every vertex has a
position. -/
structure Fits (target : Target) (hdr : FileSubset) (s : BaseStream) : Prop where
  size : hdr.vertexBytes + hdr.indexBytes < 2 ^ 32
  positions : hdr.uiVertexCount = 0 ∨ 12 ≤ (getVertexSize hdr.uiVertexFormat).toNat
  payload : if hdr.isCompressed then s.Room hdr.uiCompressedSize
    else s.Room hdr.vbSize ∧
      (s.read (fun _ => 0) hdr.vbSize).2.Room (UInt32.ofNat (hdr.ibSize target))

end FileSubset

def FileTexture.Fits (hdr : FileTexture) (s : BaseStream) : Prop :=
  s.Room (if hdr.uiFlags = tdsFlagCompressed then hdr.uiCompressedSize else hdr.uiDataSize)

/-! ### What must not happen on the way -/

/-- Payload reads, copies and position reads that stay inside their buffers. -/
def LoadEvent.Inside : LoadEvent → Prop
  | .read true _ room r => r.within = true ∧ r.bytes.length ≤ room
  | .copy dstSize srcSize srcOfs len => len ≤ dstSize ∧ srcOfs + len ≤ srcSize
  | .positions size stride count => ∀ i < count, i * stride + 12 ≤ size
  | _ => True

/-- With it, that the subset pushed is the one its header describes. -/
def LoadEvent.Sound : LoadEvent → Prop
  | .subset hdr s => hdr.Describes s
  | e => e.Inside

theorem length_readPayload (target : Target) (u : Uninit) (hdr : FileSubset) (s : BaseStream) :
    (readPayload target u hdr s).pVB.length = hdr.vbSize.toNat := by
  unfold readPayload
  split <;> simp [readCompressed, readRaw]

theorem positions_inside_iff {stride count : Nat} :
    (∀ i < count, i * stride + 12 ≤ stride * count) ↔ count = 0 ∨ 12 ≤ stride := by
  constructor
  · intro inside
    rcases Nat.eq_zero_or_pos count with none | some
    · exact Or.inl none
    · have last := inside (count - 1) (by omega)
      obtain ⟨n, rfl⟩ := Nat.exists_eq_add_of_lt some
      right
      simp only [Nat.zero_add, Nat.add_sub_cancel, Nat.mul_add, Nat.mul_one, Nat.mul_comm n] at last
      omega
  · rintro (none | wide) i below
    · omega
    · have next : (i + 1) * stride ≤ count * stride := Nat.mul_le_mul_right stride below
      rw [Nat.add_mul, Nat.one_mul] at next
      rw [Nat.mul_comm stride]
      omega

theorem payload_sound_iff {target : Target} (u : Uninit) {hdr : FileSubset} (s : BaseStream)
    (passes : hdr.Passes target) (small : hdr.vertexBytes + hdr.indexBytes < 2 ^ 32) :
    (∀ e ∈ (readPayload target u hdr s).events, e.Sound) ↔
      if hdr.isCompressed then s.Room hdr.uiCompressedSize
      else s.Room hdr.vbSize ∧
        (s.read (fun _ => 0) hdr.vbSize).2.Room (UInt32.ofNat (hdr.ibSize target)) := by
  obtain ⟨vb, ib, bytes, checked⟩ := FileSubset.sizes_exact target small
  have size := passes.2.1
  unfold readPayload
  split
  · simp only [readCompressed, List.forall_mem_cons, List.not_mem_nil, false_imp_iff, implies_true,
      and_true, true_and, LoadEvent.Sound, LoadEvent.Inside, BaseStream.read_inside_iff]
    exact and_iff_left ⟨by omega, by omega⟩
  · have room : (UInt32.ofNat (hdr.ibSize target)).toNat = 4 * hdr.ibCount := by
      rw [bytes, ib]
      exact UInt32.toNat_ofNat_of_lt' (by simp only [UInt32.size]; omega)
    have behind := (BaseStream.read_congr s u.beyond (fun _ => 0) hdr.vbSize).2.2
    simp only [readRaw, List.forall_mem_cons, List.not_mem_nil, false_imp_iff, implies_true, and_true,
      LoadEvent.Sound, LoadEvent.Inside, ← room, BaseStream.read_inside_iff, behind]

theorem subset_sound_iff {target : Target} (u : Uninit) {hdr : FileSubset} (s : BaseStream)
    (passes : hdr.Passes target) :
    (∀ e ∈ subsetEvents target u hdr s, e.Sound) ↔ hdr.Fits target s := by
  have allocated := length_readPayload target u hdr s
  have described := FileSubset.describes_loaded_iff passes allocated u.tail
  have empty : hdr.uiVertexCount = 0 ↔ hdr.uiVertexCount.toNat = 0 := UInt32.toNat_inj.symm
  have positions (small : hdr.vertexBytes + hdr.indexBytes < 2 ^ 32) :
      (LoadEvent.positions (readPayload target u hdr s).pVB.length
        (getVertexSize hdr.uiVertexFormat).toNat hdr.uiVertexCount.toNat).Sound ↔
      hdr.uiVertexCount = 0 ∨ 12 ≤ (getVertexSize hdr.uiVertexFormat).toNat := by
    rw [allocated, (FileSubset.sizes_exact target small).1, empty]
    exact positions_inside_iff
  simp only [subsetEvents, if_pos passes, List.forall_mem_append, List.forall_mem_cons,
    List.not_mem_nil, false_imp_iff, implies_true, and_true]
  constructor
  · rintro ⟨payload, reads, describes⟩
    have small := described.mp describes
    exact ⟨small, (positions small).mp reads, (payload_sound_iff u s passes small).mp payload⟩
  · rintro ⟨small, reads, payload⟩
    exact ⟨(payload_sound_iff u s passes small).mpr payload, (positions small).mpr reads,
      described.mpr small⟩

theorem texture_sound_iff (u : Uninit) {hdr : FileTexture} (s : BaseStream)
    (sign : hdr.szSign.toList = ascii "TEX") :
    (∀ e ∈ textureEvents u hdr s, e.Sound) ↔ hdr.Fits s := by
  simp only [textureEvents, if_pos sign, List.forall_mem_append, List.forall_mem_cons,
    List.not_mem_nil, false_imp_iff, implies_true, LoadEvent.Sound, LoadEvent.Inside, and_true]
  unfold readTexture FileTexture.Fits
  split <;> simp [BaseStream.read_inside_iff]

/-- The conditions that keep a load inside its buffers. -/
def inBounds (target : Target) : Judge where
  structured _ _ := True
  subset hdr s := hdr.Fits target s
  texture hdr s := hdr.Fits s

theorem inBounds_decides (target : Target) : (inBounds target).Decides target LoadEvent.Sound where
  structured _ _ _ := Iff.rfl
  part _ := trivial
  material _ := trivial
  subset u _ s passes := subset_sound_iff u s passes
  texture u _ s sign := texture_sound_iff u s sign

/-! ### What the model holds -/

def LoadEvent.subset? : LoadEvent → Option (FileSubset × TdModelSubset)
  | .subset hdr s => some (hdr, s)
  | _ => none

/-- The subsets read so far, with their headers. -/
def LoadState.subsetsRead (st : LoadState) : List (FileSubset × TdModelSubset) :=
  st.log.filterMap LoadEvent.subset?

/-- The model holds the subsets that were read, in the order they were read. -/
structure Recorded (st : LoadState) : Prop where
  subsets : st.model.subsets = st.subsetsRead.map Prod.snd
  fresh : st.pc = .start → st.subsetsRead = []
  inPart : ∀ ofs back, st.pc = .subset ofs back → st.model.Parts ≠ []

theorem subsets_pushSubset {parts : List TdModelPart} (nonempty : parts ≠ []) (s : TdModelSubset) :
    (pushSubset parts s).flatMap TdModelPart.Subsets = parts.flatMap TdModelPart.Subsets ++ [s] ∧
      pushSubset parts s ≠ [] := by
  obtain ⟨init, p, rfl⟩ := (List.eq_nil_or_concat parts).resolve_left nonempty
  rw [pushSubset, List.concat_eq_append, List.modifyLast_concat]
  simp

theorem filterMap_payload_subset (target : Target) (u : Uninit) (hdr : FileSubset) (s : BaseStream) :
    (readPayload target u hdr s).events.filterMap LoadEvent.subset? = [] := by
  unfold readPayload
  split <;> rfl

theorem Recorded.keep {st st' : LoadState} (h : Recorded st)
    (subsets : st'.model.subsets = st.model.subsets) (read : st'.subsetsRead = st.subsetsRead)
    (start : st'.pc ≠ .start) (inPart : ∀ ofs back, st'.pc = .subset ofs back → st'.model.Parts ≠ []) :
    Recorded st' :=
  ⟨by rw [subsets, read, h.subsets], fun pc => absurd pc start, inPart⟩

theorem filterMap_texture_subset (u : Uninit) (hdr : FileTexture) (s : BaseStream) :
    (readTexture u hdr s).2.2.filterMap LoadEvent.subset? = [] := by
  unfold readTexture
  split <;> rfl

section Steps
variable {target : Target} {st : LoadState} (u : Uninit) (h : Recorded st) (ofs : Int32)
include h

theorem recorded_reject (stream : BaseStream) (x : Nat) (r : Transfer) :
    Recorded (st.reject stream [.read false x x r]) :=
  h.keep rfl (by simp [LoadState.reject, LoadState.subsetsRead, LoadEvent.subset?])
    (by simp [LoadState.reject]) (by simp [LoadState.reject])

theorem recorded_loadHeader (pc : st.pc = .start) : Recorded (loadHeader u st) := by
  unfold loadHeader
  simp only
  split
  · exact recorded_reject h _ _ _
  split
  · exact recorded_reject h _ _ _
  refine h.keep ?_ ?_ (by simp) (by simp)
  · rw [h.subsets, h.fresh pc]
    rfl
  · simp [LoadState.subsetsRead, LoadEvent.subset?]

theorem recorded_loadPart : Recorded (loadPart u ofs st) := by
  unfold loadPart
  simp only
  split
  · exact recorded_reject h _ _ _
  refine h.keep ?_ ?_ (by simp) (by simp)
  · simp [TdScanModel.subsets]
  · simp [LoadState.subsetsRead, LoadEvent.subset?]

theorem recorded_loadSubset (back : Int32) (pc : st.pc = .subset ofs back) :
    Recorded (loadSubset target u ofs back st) := by
  unfold loadSubset
  simp only
  split
  · exact recorded_reject h _ _ _
  split
  · exact recorded_reject h _ _ _
  split
  · exact h.keep rfl (by simp [LoadState.subsetsRead, LoadEvent.subset?]) (by simp) (by simp)
  · refine ⟨?_, by simp, fun _ _ _ => (subsets_pushSubset (h.inPart ofs back pc) _).2⟩
    have payload := filterMap_payload_subset target u
    unfold readPayload at payload
    simp only [TdScanModel.subsets, (subsets_pushSubset (h.inPart ofs back pc) _).1,
      LoadState.subsetsRead, List.filterMap_append, payload, List.map_append]
    rw [← TdScanModel.subsets, h.subsets]
    simp only [LoadState.subsetsRead, List.map_nil, List.append_nil, List.append_assoc]
    rfl

theorem recorded_loadMaterial : Recorded (loadMaterial u ofs st) := by
  unfold loadMaterial
  simp only
  split
  · exact recorded_reject h _ _ _
  · exact h.keep rfl (by simp [LoadState.subsetsRead, LoadEvent.subset?]) (by simp) (by simp)

theorem recorded_loadTexture : Recorded (loadTexture u ofs st) := by
  unfold loadTexture
  simp only
  split
  · exact recorded_reject h _ _ _
  · refine h.keep rfl ?_ (by simp) (by simp)
    simp only [LoadState.subsetsRead, List.filterMap_append, filterMap_texture_subset]
    simp [LoadEvent.subset?]

theorem recorded_loadStep : Recorded (loadStep target u st) := by
  unfold loadStep
  split
  · exact recorded_loadHeader u h ‹_›
  · split
    · exact recorded_loadPart u h _
    · exact h.keep rfl rfl (by simp) (by simp)
  · split
    · exact recorded_loadSubset u h _ _ ‹_›
    · exact h.keep rfl rfl (by simp) (by simp)
  · split
    · exact recorded_loadMaterial u h _
    · exact h.keep rfl rfl (by simp) (by simp)
  · split
    · exact recorded_loadTexture u h _
    · exact h.keep rfl rfl (by simp) (by simp)
  · exact h
  · exact h

end Steps

theorem recorded_load (target : Target) (src : Source) (memory : List Uninit) :
    Recorded (load target src memory) :=
  run_invariant (fun u _ h => recorded_loadStep u h) ⟨rfl, fun _ => rfl, by simp [Source.entry]⟩ memory

/-! ### Accepted models -/

/-- The subsets of the model are those their headers describe, and nothing that was copied or looked
at on the way lay outside its buffer. -/
structure BuiltInside (st : LoadState) : Prop where
  consistent : List.Forall₂ FileSubset.Describes (st.subsetsRead.map Prod.fst) st.model.subsets
  inside : ∀ e ∈ st.log, e.Inside

theorem builtInside_iff {st : LoadState} (h : Recorded st) :
    BuiltInside st ↔ ∀ e ∈ st.log, e.Sound := by
  have consistent : List.Forall₂ FileSubset.Describes (st.subsetsRead.map Prod.fst) st.model.subsets ↔
      ∀ x ∈ st.subsetsRead, x.1.Describes x.2 := by
    rw [h.subsets, List.forall₂_map_left_iff, List.forall₂_map_right_iff, List.forall₂_same]
  constructor
  · rintro ⟨described, inside⟩ e member
    cases e with
    | subset hdr s =>
      exact consistent.mp described (hdr, s) (List.mem_filterMap.mpr ⟨_, member, rfl⟩)
    | _ => exact inside _ member
  · intro sound
    refine ⟨consistent.mpr ?_, fun e member => ?_⟩
    · rintro ⟨hdr, s⟩ member
      obtain ⟨e, logged, same⟩ := List.mem_filterMap.mp member
      cases e with
      | subset hdr' s' =>
        cases same
        exact sound _ logged
      | _ => cases same
    · cases e with
      | subset hdr s => trivial
      | _ => exact sound _ member

/-- Whatever its uninitialised memory holds, `Load3DScanModel` builds every model it returns inside
its buffers, exactly when on every walk along the links that ends in acceptance the payloads fit. -/
theorem load_inside_iff (target : Target) (src : Source) :
    (∀ memory, (load target src memory).Accepted → BuiltInside (load target src memory)) ↔
      AcceptingGood (Link target src.stream) Node.Accepting
        ((inBounds target).Good target src.stream) entryNode := by
  rw [← (inBounds_decides target).accepted_iff src]
  exact forall_congr' fun memory => imp_congr_right fun _ =>
    builtInside_iff (recorded_load target src memory)

/-- A file with one subset of 0x55555556 triangles: three times as many indices are 2 in 32 bits. -/
def wrappedFile : List UInt8 :=
  FileHeader.codec.enc { blank FileHeader.codec "SEYEDOF 3D FORMAT" with
    uiVersion := formatVersion
    iFirstPartOfs := 46 } ++
  FilePart.codec.enc { blank FilePart.codec "PART" with iFirstSubset := 90 } ++
  FileSubset.codec.enc { blank FileSubset.codec "SUBSET" with
    uiTriCount := 0x55555556
    uiDataSize := 8 } ++
  List.replicate 8 0

/-- It is accepted, with an index buffer of two words. -/
theorem load_wrappedFile : ¬ ∀ memory,
    (load .x64 (.file wrappedFile) memory).Accepted → BuiltInside (load .x64 (.file wrappedFile) memory) := by
  intro all
  have inside := all (List.replicate 7 default) (by
    show (load .x64 (.file wrappedFile) _).pc = _
    decide +kernel)
  have sound := (builtInside_iff (recorded_load _ _ _)).mp inside
  have short : ∃ x ∈ (load .x64 (.file wrappedFile) (List.replicate 7 default)).subsetsRead,
      ¬ x.1.Describes x.2 := by decide +kernel
  obtain ⟨⟨hdr, s⟩, member, bad⟩ := short
  obtain ⟨e, logged, same⟩ := List.mem_filterMap.mp member
  cases e with
  | subset hdr' s' =>
    cases same
    exact bad (sound _ logged)
  | _ => cases same

end ModelPublish.Scan
