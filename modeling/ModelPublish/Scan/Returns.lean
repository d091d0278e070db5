import ModelPublish.Scan.Safety

/-!
# Does every load return?

The loops follow the links, so a load comes to an end unless the links run in a circle. On the way it asks for
buffers of sizes that the file gives, and copies and unpacks into them. A buffer that cannot be had ends it with
an exception, and once a copy has left its buffer nothing is promised any more.
-/

namespace ModelPublish.Scan
open Packed ModelPublish.Stream Machine

/-- Reads, copies and decoding that keep to their buffers. -/
def LoadEvent.Contained : LoadEvent → Prop
  | .read _ _ room r => r.within = true ∧ r.bytes.length ≤ room
  | .unpack _ _ result => result ≠ .overrun
  | e => e.Inside

/-- The sizes of the buffers a step asks for. -/
def LoadEvent.buffers : LoadEvent → List Nat
  | .read true _ room _ => [room]
  | .unpack _ wanted _ => [wanted]
  | .copy dstSize _ _ _ => [dstSize]
  | _ => []

def LoadState.buffers (st : LoadState) : List Nat := st.log.flatMap LoadEvent.buffers

/-- `Load3DScanModel` is back, with a model or without one. It was given every buffer it asked for, where `heap`
says which can be had in one load, and kept to them. -/
structure Returned (heap : List Nat → Prop) (st : LoadState) : Prop where
  back : ∃ accepted, st.pc = .returned accepted
  had : heap st.buffers
  contained : ∀ e ∈ st.log, e.Contained

/-! ### What the headers ask for -/

/-- The vertices, the indices and, for a compressed payload, the block before and after it is unpacked. -/
def FileSubset.buffers (hdr : FileSubset) : List Nat :=
  if hdr.isCompressed then
    [hdr.uiCompressedSize.toNat, hdr.uiDataSize.toNat, hdr.vbSize.toNat, 4 * hdr.ibCount]
  else [hdr.vbSize.toNat, 4 * hdr.ibCount]

def FileTexture.buffers (hdr : FileTexture) : List Nat :=
  if hdr.uiFlags = tdsFlagCompressed then [hdr.uiCompressedSize.toNat, hdr.uiDataSize.toNat]
  else [hdr.uiDataSize.toNat]

/-- The buffers asked for at a link, where the structure reads as `bytes`. -/
def LoadPc.buffers (target : Target) (bytes : List UInt8) : LoadPc → List Nat
  | .subset _ _ =>
    if (FileSubset.codec.dec bytes).Passes target then (FileSubset.codec.dec bytes).buffers else []
  | .texture _ =>
    if (FileTexture.codec.dec bytes).szSign.toList = ascii "TEX" then (FileTexture.codec.dec bytes).buffers else []
  | _ => []

def Node.buffers (target : Target) (v : Node) : Option (List UInt8) → List Nat
  | none => []
  | some bytes => v.pc.buffers target bytes

theorem buffers_subset (target : Target) (u : Uninit) (hdr : FileSubset) (s : BaseStream) :
    (subsetEvents target u hdr s).flatMap LoadEvent.buffers = if hdr.Passes target then hdr.buffers else [] := by
  unfold subsetEvents readPayload FileSubset.buffers
  split
  · split <;> rfl
  · rfl

theorem buffers_texture (u : Uninit) (hdr : FileTexture) (s : BaseStream) :
    (textureEvents u hdr s).flatMap LoadEvent.buffers =
      if hdr.szSign.toList = ascii "TEX" then hdr.buffers else [] := by
  unfold textureEvents readTexture FileTexture.buffers
  split
  · split <;> rfl
  · rfl

theorem buffers_events (target : Target) (v : Node) (x : BaseStream × Nat) (u : Uninit) :
    (v.events target x u).flatMap LoadEvent.buffers = v.pc.buffers target (image x u) := by
  rw [Node.events, List.flatMap_cons]
  cases v.pc with
  | subset ofs back => exact buffers_subset target u _ _
  | texture ofs => exact buffers_texture u _ _
  | part ofs | material ofs =>
    dsimp only
    split <;> rfl
  | start | returned accepted | threw => rfl

theorem buffers_loadStep {target : Target} {str : BaseStream} {st : LoadState} (u : Uninit) (inv : OnImage str st) :
    (loadStep target u st).buffers = st.buffers ++ st.node.buffers target (st.found str u) := by
  rw [LoadState.buffers, log_loadStep u inv, List.flatMap_append]
  unfold LoadState.emitted LoadState.found
  congr 1
  cases st.node.chunk str with
  | none => rfl
  | some x => exact buffers_events target st.node x u

/-! ### What keeps to its buffers -/

/-- `n` bytes at the cursor, with `fill` for those that are missing, are unpacked without leaving them. -/
def KeepsBlock (s : BaseStream) (n size : UInt32) (fill : Nat → UInt8) : Prop :=
  s.Room n ∧ Lz4.decompressFast (overlay (cells fill n.toNat) (s.read (fun _ => 0) n).1.bytes) size.toInt32.toInt ≠
    .overrun

/-- The payload behind `s` is read and copied inside the buffers, and so are the positions. -/
structure FileSubset.Keeps (target : Target) (hdr : FileSubset) (s : BaseStream) (fill : Nat → UInt8) : Prop where
  payload : if hdr.isCompressed then KeepsBlock s hdr.uiCompressedSize hdr.uiDataSize fill
    else s.Room hdr.vbSize ∧ (s.read (fun _ => 0) hdr.vbSize).2.Room (UInt32.ofNat (hdr.ibSize target))
  copies : hdr.isCompressed = true →
    hdr.vbSize.toNat + hdr.ibSize target ≤ hdr.uiDataSize.toNat ∧ hdr.ibSize target ≤ 4 * hdr.ibCount
  positions : ∀ i < hdr.uiVertexCount.toNat,
    i * (getVertexSize hdr.uiVertexFormat).toNat + 12 ≤ hdr.vbSize.toNat

def FileTexture.Keeps (hdr : FileTexture) (s : BaseStream) (fill : Nat → UInt8) : Prop :=
  if hdr.uiFlags = tdsFlagCompressed then KeepsBlock s hdr.uiCompressedSize hdr.uiDataSize fill
  else s.Room hdr.uiDataSize

/-- Whatever the missing bytes are, nothing is touched outside a buffer. -/
def keeping (target : Target) : Judge where
  structured s n := s.Room n
  subset hdr s := ∀ fill, hdr.Keeps target s fill
  texture hdr s := ∀ fill, hdr.Keeps s fill

theorem read_contained_iff {p : Bool} (s : BaseStream) (beyond : Nat → UInt8) {n : UInt32} {wanted room : Nat}
    (fits : n.toNat ≤ room) : (LoadEvent.read p wanted room (s.read beyond n).1).Contained ↔ s.Room n := by
  refine ⟨fun inside => BaseStream.room_of_within inside.1, fun inside => ?_⟩
  obtain ⟨within, short⟩ := (BaseStream.read_inside_iff s beyond n).mpr inside
  exact ⟨within, short.trans fits⟩

theorem block_contained_iff (u : Uninit) (fill : Nat → UInt8) (s : BaseStream) (n size : UInt32) :
    (LoadEvent.read true n.toNat n.toNat (s.read u.beyond n).1).Contained ∧
      (LoadEvent.unpack n.toNat size.toNat
        (unpack fill (overlay (cells u.pSrc n.toNat) (s.read u.beyond n).1.bytes) size).1).Contained ↔
      KeepsBlock s n size u.pSrc := by
  rw [read_contained_iff s u.beyond (Nat.le_refl _), KeepsBlock]
  refine and_congr_right fun room => ?_
  rw [BaseStream.read_room room u.beyond fun _ => 0]
  rfl

/-- The second read of a payload asks for no more than its buffer holds. -/
theorem ibSize_room (target : Target) (hdr : FileSubset) :
    (UInt32.ofNat (hdr.ibSize target)).toNat ≤ 4 * hdr.ibCount := by
  rw [UInt32.toNat_ofNat', FileSubset.ibSize, FileSubset.ibCount_eq]
  cases target <;> simp only [Target.sizeMod] <;> omega

theorem subset_contained_iff {target : Target} (u : Uninit) {hdr : FileSubset} (s : BaseStream)
    (passes : hdr.Passes target) :
    (∀ e ∈ subsetEvents target u hdr s, e.Contained) ↔ hdr.Keeps target s u.pSrc := by
  have allocated := length_readPayload target u hdr s
  have positions : (LoadEvent.positions (readPayload target u hdr s).pVB.length
      (getVertexSize hdr.uiVertexFormat).toNat hdr.uiVertexCount.toNat).Contained ↔
      ∀ i < hdr.uiVertexCount.toNat, i * (getVertexSize hdr.uiVertexFormat).toNat + 12 ≤ hdr.vbSize.toNat := by
    rw [allocated]
    exact Iff.rfl
  simp only [subsetEvents, if_pos passes, List.forall_mem_append, List.forall_mem_cons, List.not_mem_nil,
    false_imp_iff, implies_true, and_true, positions]
  have pushed : (LoadEvent.subset hdr (hdr.loaded (readPayload target u hdr s) u.tail)).Contained := trivial
  simp only [pushed, and_true]
  by_cases compressed : hdr.isCompressed = true
  · have payload : (∀ e ∈ (readPayload target u hdr s).events, e.Contained) ↔
        KeepsBlock s hdr.uiCompressedSize hdr.uiDataSize u.pSrc ∧
          hdr.vbSize.toNat + hdr.ibSize target ≤ hdr.uiDataSize.toNat ∧ hdr.ibSize target ≤ 4 * hdr.ibCount := by
      rw [← block_contained_iff u u.pDest, readPayload, if_pos compressed]
      simp only [readCompressed, List.forall_mem_cons, List.not_mem_nil, false_imp_iff, implies_true, and_true,
        LoadEvent.Contained, LoadEvent.Inside]
      constructor
      · rintro ⟨read, unpacked, -, fits, inside⟩
        exact ⟨⟨read, unpacked⟩, inside, fits⟩
      · rintro ⟨⟨read, unpacked⟩, inside, fits⟩
        exact ⟨read, unpacked, ⟨Nat.le_refl _, by omega⟩, fits, inside⟩
    rw [payload]
    constructor
    · rintro ⟨⟨block, copies⟩, positions⟩
      exact ⟨by rwa [if_pos compressed], fun _ => copies, positions⟩
    · rintro ⟨block, copies, positions⟩
      rw [if_pos compressed] at block
      exact ⟨⟨block, copies compressed⟩, positions⟩
  · have payload : (∀ e ∈ (readPayload target u hdr s).events, e.Contained) ↔
        s.Room hdr.vbSize ∧ (s.read (fun _ => 0) hdr.vbSize).2.Room (UInt32.ofNat (hdr.ibSize target)) := by
      have behind := (BaseStream.read_congr s u.beyond (fun _ => 0) hdr.vbSize).2.2
      rw [readPayload, if_neg compressed]
      simp only [readRaw, List.forall_mem_cons, List.not_mem_nil, false_imp_iff, implies_true, and_true]
      rw [read_contained_iff s u.beyond (Nat.le_refl _), read_contained_iff _ u.beyond (ibSize_room target hdr),
        behind]
    rw [payload]
    constructor
    · rintro ⟨rooms, positions⟩
      exact ⟨by rwa [if_neg compressed], fun yes => absurd yes compressed, positions⟩
    · rintro ⟨rooms, -, positions⟩
      rw [if_neg compressed] at rooms
      exact ⟨rooms, positions⟩

theorem texture_contained_iff (u : Uninit) {hdr : FileTexture} (s : BaseStream)
    (sign : hdr.szSign.toList = ascii "TEX") :
    (∀ e ∈ textureEvents u hdr s, e.Contained) ↔ hdr.Keeps s u.pSrc := by
  have made (t : TdModelTextureSlot) : (LoadEvent.texture t).Contained := trivial
  simp only [textureEvents, if_pos sign, List.forall_mem_append, List.forall_mem_cons, List.not_mem_nil,
    false_imp_iff, implies_true, and_true, made]
  unfold readTexture FileTexture.Keeps
  split
  · rw [← block_contained_iff u u.pDest]
    simp only [List.forall_mem_cons, List.not_mem_nil, false_imp_iff, implies_true, and_true]
  · simp only [List.forall_mem_cons, List.not_mem_nil, false_imp_iff, implies_true, and_true]
    exact read_contained_iff s u.beyond (Nat.le_refl _)

/-- What a structure that reads as it does may lead to, whatever else lies in memory. -/
theorem events_contained_iff {target : Target} {v : Node} {str : BaseStream} {x : BaseStream × Nat} (u : Uninit)
    (chunk : v.chunk str = some x) :
    (keeping target).Good target str v (some (image x u)) ↔
      ∀ u', image x u' = image x u → ∀ e ∈ v.events target x u', e.Contained := by
  have value : (UInt32.ofNat x.2).toNat = x.2 := UInt32.toNat_ofNat_of_lt' (chunk_size chunk)
  have read (u' : Uninit) :
      (LoadEvent.read false x.2 x.2 (x.1.read u'.beyond (UInt32.ofNat x.2)).1).Contained ↔
        x.1.Room (UInt32.ofNat x.2) := read_contained_iff x.1 u'.beyond (Nat.le_of_eq value)
  unfold Judge.Good Node.events
  rw [chunk]
  simp only [List.forall_mem_cons, read]
  -- the reading of the structure itself, then what comes of it for every memory in which it reads so
  have apart {rest : Uninit → Prop} {after : Prop}
      (iff : after ↔ ∀ u', image x u' = image x u → rest u') :
      x.1.Room (UInt32.ofNat x.2) ∧ after ↔
        ∀ u', image x u' = image x u → x.1.Room (UInt32.ofNat x.2) ∧ rest u' := by
    rw [iff]
    exact ⟨fun h u' same => ⟨h.1, h.2 u' same⟩, fun h => ⟨(h u rfl).1, fun u' same => (h u' same).2⟩⟩
  refine apart ?_
  cases v.pc with
  | subset ofs back =>
    constructor
    · intro keeps u' same
      rw [same, behind_default]
      by_cases passes : (FileSubset.codec.dec (image x u)).Passes target
      · exact (subset_contained_iff u' _ passes).mpr (keeps passes u'.pSrc)
      · rw [subsetEvents, if_neg passes]
        exact List.forall_mem_nil _
    · intro all passes fill
      have events := all { u with pSrc := fill } rfl
      rw [behind_default] at events
      exact (subset_contained_iff { u with pSrc := fill } _ passes).mp events
  | texture ofs =>
    constructor
    · intro keeps u' same
      rw [same, behind_default]
      by_cases sign : (FileTexture.codec.dec (image x u)).szSign.toList = ascii "TEX"
      · exact (texture_contained_iff u' _ sign).mpr (keeps sign u'.pSrc)
      · rw [textureEvents, if_neg sign]
        exact List.forall_mem_nil _
    · intro all sign fill
      have events := all { u with pSrc := fill } rfl
      rw [behind_default] at events
      exact (texture_contained_iff { u with pSrc := fill } _ sign).mp events
  | part ofs | material ofs =>
    refine iff_of_true trivial fun u' _ => ?_
    dsimp only
    split
    · exact List.forall_mem_singleton.mpr trivial
    · exact List.forall_mem_nil _
  | start | returned accepted | threw => exact iff_of_true trivial fun u' _ => List.forall_mem_nil _

/-! ### Every load -/

theorem load_contained_iff (target : Target) (src : Source) :
    (∀ memory, ∀ e ∈ (load target src memory).log, e.Contained) ↔
      ReachedGood (Link target src.stream) ((keeping target).Good target src.stream) entryNode := by
  refine (load_projects target src.stream).log_good_iff (onImage_entry src)
    (fun u st inv => log_loadStep u inv) (List.forall_mem_nil _) fun st u inv running => ?_
  unfold LoadState.emitted LoadState.found
  cases chunk : st.node.chunk src.stream with
  | none =>
    unfold Judge.Good
    rw [chunk]
    exact iff_of_true trivial fun _ _ => List.forall_mem_nil _
  | some x =>
    simp only [Option.map_some, Option.some.injEq]
    exact events_contained_iff u chunk

/-- What the bytes must be like for every load of them to return: the links reach no cycle and no buffer without
a `size_t` size, what is asked for along any walk to an end can be had, and no header leads outside a buffer. -/
structure Returns (target : Target) (heap : List Nat → Prop) (src : Source) : Prop where
  acyclic : ¬ ReachesCycle (Link target src.stream) entryNode
  sized : ¬ ReachesThrow target src.stream entryNode
  had : ∀ es w, Walk (Link target src.stream) entryNode es w → w.Ended →
    heap (es.flatMap fun e => e.1.buffers target e.2)
  contained : ReachedGood (Link target src.stream) ((keeping target).Good target src.stream) entryNode

theorem log_run_grows (target : Target) (src : Source) (before after : List Uninit) :
    (load target src before).log <+: (load target src (before ++ after)).log := by
  induction after using List.reverseRecOn with
  | nil => rw [List.append_nil]
  | append_singleton after u ih =>
    have inv := run_invariant (load_projects target src.stream).keep (onImage_entry src) (before ++ after)
    have step : (loadStep target u _).log = _ := log_loadStep u inv
    refine ih.trans ?_
    rw [← List.append_assoc]
    unfold load
    rw [run_append (before ++ after), run_cons, run_nil, step]
    exact List.prefix_append _ _

end ModelPublish.Scan
