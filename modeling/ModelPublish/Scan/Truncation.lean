import ModelPublish.Scan.Trace
import ModelPublish.Scan.WellFormed

/-!
# Is every accepted model read in full?

No result of a read or of a decompression is looked at. An accepted load was served in full exactly when every
structure and every payload on the way lies in the byte string; then what it reads does not depend on
uninitialised memory, and the same load of a longer stream reads the same. What a shorter file lacks, the
memory may supply.
-/

namespace ModelPublish.Scan
open Packed ModelPublish.Stream Machine

/-! ### What should have been checked -/

/-- Reads that brought all they were asked for, and blocks that were decoded. -/
def LoadEvent.Delivered : LoadEvent → Prop
  | .read _ wanted _ r => r.bytes.length = wanted ∧ r.within = true
  | .unpack srcSize wanted result =>
    ∃ consumed out, result = .done consumed out ∧ consumed ≤ srcSize ∧ out.length = wanted
  | _ => True

/-- `n` bytes lie at the cursor and are a block that decodes to `size` bytes. -/
def HoldsBlock (s : BaseStream) (n size : UInt32) : Prop :=
  s.Serves n ∧ Lz4.Decodes (s.read (fun _ => 0) n).1.bytes size.toInt32.toInt

/-- The payload of a subset lies behind `s`. -/
def FileSubset.Whole (target : Target) (hdr : FileSubset) (s : BaseStream) : Prop :=
  if hdr.isCompressed then HoldsBlock s hdr.uiCompressedSize hdr.uiDataSize
  else s.Serves hdr.vbSize ∧
    (s.read (fun _ => 0) hdr.vbSize).2.Serves (UInt32.ofNat (hdr.ibSize target))

def FileTexture.Whole (hdr : FileTexture) (s : BaseStream) : Prop :=
  if hdr.uiFlags = tdsFlagCompressed then HoldsBlock s hdr.uiCompressedSize hdr.uiDataSize
  else s.Serves hdr.uiDataSize

/-- The streams that serve a load in full. -/
def inFull (target : Target) : Judge where
  structured s n := s.Serves n
  subset hdr s := hdr.Whole target s
  texture hdr s := hdr.Whole s

theorem unpack_delivered_iff (fill : Nat → UInt8) {src : List UInt8} {n : Nat} (size : UInt32)
    (length : src.length = n) :
    (LoadEvent.unpack n size.toNat (unpack fill src size).1).Delivered ↔
      Lz4.Decodes src size.toInt32.toInt := by
  constructor
  · rintro ⟨consumed, out, done, -, -⟩
    exact ⟨consumed, out, done⟩
  · rintro ⟨consumed, out, done⟩
    obtain ⟨produced, used⟩ := Lz4.decompressFast_done done
    have value := toInt_toInt32 size
    have bound := size.toNat_lt
    refine ⟨consumed, out, done, length ▸ used, ?_⟩
    split at value <;> omega

theorem block_delivered_iff (u : Uninit) (fill : Nat → UInt8) (s : BaseStream) (n size : UInt32) :
    (LoadEvent.read true n.toNat n.toNat (s.read u.beyond n).1).Delivered ∧
      (LoadEvent.unpack n.toNat size.toNat
        (unpack fill (overlay (cells u.pSrc n.toNat) (s.read u.beyond n).1.bytes) size).1).Delivered ↔
      HoldsBlock s n size := by
  have full : (LoadEvent.read true n.toNat n.toNat (s.read u.beyond n).1).Delivered ↔ s.Serves n :=
    BaseStream.read_full_iff s u.beyond n
  rw [full, HoldsBlock]
  apply and_congr_right
  intro served
  have got := ((BaseStream.read_full_iff s u.beyond n).mpr served).1
  rw [overlay_cells got, unpack_delivered_iff fill size got, BaseStream.read_served served]

theorem subset_delivered_iff {target : Target} (u : Uninit) {hdr : FileSubset} (s : BaseStream)
    (passes : hdr.Passes target) :
    (∀ e ∈ subsetEvents target u hdr s, e.Delivered) ↔ hdr.Whole target s := by
  simp only [subsetEvents, if_pos passes, List.forall_mem_append, List.forall_mem_cons,
    List.not_mem_nil, false_imp_iff, implies_true, LoadEvent.Delivered, and_true]
  unfold readPayload FileSubset.Whole
  split
  · rw [← block_delivered_iff u u.pDest]
    simp only [readCompressed, List.forall_mem_cons, List.not_mem_nil, false_imp_iff, implies_true,
      and_true, LoadEvent.Delivered]
  · have behind := (BaseStream.read_congr s u.beyond (fun _ => 0) hdr.vbSize).2.2
    simp only [readRaw, List.forall_mem_cons, List.not_mem_nil, false_imp_iff, implies_true, and_true,
      BaseStream.read_full_iff, behind]

theorem texture_delivered_iff (u : Uninit) {hdr : FileTexture} (s : BaseStream)
    (sign : hdr.szSign.toList = ascii "TEX") :
    (∀ e ∈ textureEvents u hdr s, e.Delivered) ↔ hdr.Whole s := by
  simp only [textureEvents, if_pos sign, List.forall_mem_append, List.forall_mem_cons,
    List.not_mem_nil, false_imp_iff, implies_true, LoadEvent.Delivered, and_true]
  unfold readTexture FileTexture.Whole
  split
  · rw [← block_delivered_iff u u.pDest]
    simp only [List.forall_mem_cons, List.not_mem_nil, false_imp_iff, implies_true, and_true,
      LoadEvent.Delivered]
  · simp only [List.forall_mem_cons, List.not_mem_nil, false_imp_iff, implies_true, and_true,
      BaseStream.read_full_iff]

theorem inFull_decides (target : Target) : (inFull target).Decides target LoadEvent.Delivered where
  structured s beyond n := BaseStream.read_full_iff s beyond n
  part _ := trivial
  material _ := trivial
  subset u _ s passes := subset_delivered_iff u s passes
  texture u _ s sign := texture_delivered_iff u s sign

/-! ### In the byte string -/

namespace Source

/-- `CMemStream::Seek` takes the size for an `int32_t`. -/
def Seeks : Source → Prop
  | .memory bytes _ => bytes.length < 2 ^ 31
  | .file _ => True

instance : (src : Source) → Decidable src.Seeks
  | .memory bytes _ => inferInstanceAs (Decidable (bytes.length < 2 ^ 31))
  | .file _ => inferInstanceAs (Decidable True)

/-- There are `n` bytes from `pos` on. -/
def Holds (src : Source) (pos n : Nat) : Prop := pos + n ≤ src.bytes.length

/-- There are `n` bytes where a link leads. -/
def HoldsAt (src : Source) (iOfs : Int32) (n : Nat) : Prop := src.Seeks ∧ src.Holds iOfs.toInt.toNat n

/-- From `pos` on there is a block of `n` bytes that decodes to `size` bytes. -/
def HoldsBlockAt (src : Source) (pos : Nat) (n size : UInt32) : Prop :=
  src.Holds pos n.toNat ∧ Lz4.Decodes ((src.bytes.drop pos).take n.toNat) size.toInt32.toInt

instance (src : Source) (pos n : Nat) : Decidable (src.Holds pos n) := inferInstanceAs (Decidable (_ ≤ _))

instance (src : Source) (iOfs : Int32) (n : Nat) : Decidable (src.HoldsAt iOfs n) :=
  inferInstanceAs (Decidable (_ ∧ _))

instance (src : Source) (pos : Nat) (n size : UInt32) : Decidable (src.HoldsBlockAt pos n size) :=
  inferInstanceAs (Decidable (_ ∧ _))

end Source

/-- The payload of a subset lies at `pos`. -/
def FileSubset.LiesAt (target : Target) (src : Source) (hdr : FileSubset) (pos : Nat) : Prop :=
  if hdr.isCompressed then src.HoldsBlockAt pos hdr.uiCompressedSize hdr.uiDataSize
  else src.Holds pos (hdr.vbSize.toNat + hdr.ibSize target % 2 ^ 32)

def FileTexture.LiesAt (src : Source) (hdr : FileTexture) (pos : Nat) : Prop :=
  if hdr.uiFlags = tdsFlagCompressed then src.HoldsBlockAt pos hdr.uiCompressedSize hdr.uiDataSize
  else src.Holds pos hdr.uiDataSize.toNat

instance (target : Target) (src : Source) (hdr : FileSubset) (pos : Nat) : Decidable (hdr.LiesAt target src pos) :=
  inferInstanceAs (Decidable (ite _ _ _))

instance (src : Source) (hdr : FileTexture) (pos : Nat) : Decidable (hdr.LiesAt src pos) :=
  inferInstanceAs (Decidable (ite _ _ _))

/-- The structure at a link, which reads as `bytes`, and behind it the payload unless the header is turned away,
lie in the byte string. -/
def LoadPc.Whole (target : Target) (src : Source) (bytes : List UInt8) : LoadPc → Prop
  | .start => src.Holds 0 FileHeader.codec.size
  | .part ofs => src.HoldsAt ofs FilePart.codec.size
  | .subset ofs _ => src.HoldsAt ofs FileSubset.codec.size ∧ ((FileSubset.codec.dec bytes).Passes target →
    (FileSubset.codec.dec bytes).LiesAt target src (ofs.toInt.toNat + FileSubset.codec.size))
  | .material ofs => src.HoldsAt ofs FileMaterial.codec.size
  | .texture ofs => src.HoldsAt ofs FileTexture.codec.size ∧
    ((FileTexture.codec.dec bytes).szSign.toList = ascii "TEX" →
      (FileTexture.codec.dec bytes).LiesAt src (ofs.toInt.toNat + FileTexture.codec.size))
  | .returned _ => True
  | .threw => True

instance (target : Target) (src : Source) (bytes : List UInt8) : (pc : LoadPc) → Decidable (pc.Whole target src bytes)
  | .start => inferInstanceAs (Decidable (src.Holds _ _))
  | .part _ => inferInstanceAs (Decidable (src.HoldsAt _ _))
  | .subset _ _ => inferInstanceAs (Decidable (_ ∧ (_ → _)))
  | .material _ => inferInstanceAs (Decidable (src.HoldsAt _ _))
  | .texture _ => inferInstanceAs (Decidable (_ ∧ (_ → _)))
  | .returned _ => isTrue trivial
  | .threw => isTrue trivial

def Node.Whole (target : Target) (src : Source) (v : Node) : Option (List UInt8) → Prop
  | none => True
  | some bytes => v.pc.Whole target src bytes

section InBytes
variable {src : Source}

theorem seeks_stream : src.stream.Seeks ↔ src.Seeks := by
  cases src with
  | memory bytes small =>
    show (UInt32.ofNat bytes.length).toNat < 2 ^ 31 ↔ bytes.length < 2 ^ 31
    rw [UInt32.toNat_ofNat_of_lt' small]
  | file bytes => exact Iff.rfl

/-- The structure at a positive link is served exactly when it lies in the byte string, and what follows it
lies behind. -/
theorem link_served_iff {ofs : Int32} (positive : 0 < ofs) {n : UInt32} (wanted : 2 ≤ n.toNat) :
    (src.stream.seekTo ofs).Serves n ↔ src.HoldsAt ofs n.toNat := by
  rw [src.stream_at.seek_serves_iff positive wanted, seeks_stream]
  rfl

theorem link_behind {ofs : Int32} (positive : 0 < ofs) {n : UInt32} (held : src.HoldsAt ofs n.toNat)
    (wanted : 2 ≤ n.toNat) (beyond : Nat → UInt8) :
    ((src.stream.seekTo ofs).read beyond n).2.At src.bytes (ofs.toInt.toNat + n.toNat) := by
  obtain ⟨seeks, inside⟩ := held
  unfold Source.Holds at inside
  rw [int32_pos_iff] at positive
  have sought := src.stream_at.sought (seeks_stream.mpr seeks) ofs (by omega) (by omega)
  exact (sought.read beyond n inside).2.2

theorem holdsBlock_iff {s : BaseStream} {pos : Nat} (h : s.At src.bytes pos) (inside : pos ≤ src.bytes.length)
    (n size : UInt32) : HoldsBlock s n size ↔ src.HoldsBlockAt pos n size := by
  rw [HoldsBlock, Source.HoldsBlockAt, Source.Holds, h.serves_iff inside]
  refine and_congr_right fun served => ?_
  rw [(h.read (fun _ => 0) n served).1]

theorem subset_whole_iff {target : Target} {s : BaseStream} {pos : Nat} (h : s.At src.bytes pos)
    (inside : pos ≤ src.bytes.length) (hdr : FileSubset) : hdr.Whole target s ↔ hdr.LiesAt target src pos := by
  rw [FileSubset.Whole, FileSubset.LiesAt]
  split
  · exact holdsBlock_iff h inside _ _
  · rw [h.serves_iff inside, Source.Holds]
    constructor
    · rintro ⟨vertices, indices⟩
      have behind := (h.read (fun _ => 0) hdr.vbSize vertices).2.2
      rw [behind.serves_iff vertices, UInt32.toNat_ofNat'] at indices
      omega
    · intro both
      have vertices : pos + hdr.vbSize.toNat ≤ src.bytes.length := by omega
      have behind := (h.read (fun _ => 0) hdr.vbSize vertices).2.2
      refine ⟨vertices, ?_⟩
      rw [behind.serves_iff vertices, UInt32.toNat_ofNat']
      omega

theorem texture_whole_iff {s : BaseStream} {pos : Nat} (h : s.At src.bytes pos)
    (inside : pos ≤ src.bytes.length) (hdr : FileTexture) : hdr.Whole s ↔ hdr.LiesAt src pos := by
  rw [FileTexture.Whole, FileTexture.LiesAt]
  split
  · exact holdsBlock_iff h inside _ _
  · exact h.serves_iff inside

/-- To be served in full is to lie in the byte string. -/
theorem good_iff_whole {target : Target} {v : Node} {x : BaseStream × Nat} (found : v.chunk src.stream = some x)
    (bytes : List UInt8) :
    (inFull target).Good target src.stream v (some bytes) ↔ v.Whole target src (some bytes) := by
  unfold Judge.Good
  rw [found, Node.Whole]
  unfold Node.chunk at found
  cases pc : v.pc with
  | start =>
    rw [pc] at found
    cases found
    exact (and_iff_left trivial).trans (src.stream_at.serves_iff (Nat.zero_le _))
  | part ofs =>
    rw [pc] at found
    obtain ⟨positive, here⟩ := Option.ite_none_right_eq_some.mp found
    cases here
    exact (and_iff_left trivial).trans (link_served_iff positive (by simp))
  | material ofs =>
    rw [pc] at found
    obtain ⟨positive, here⟩ := Option.ite_none_right_eq_some.mp found
    cases here
    exact (and_iff_left trivial).trans (link_served_iff positive (by simp))
  | subset ofs back =>
    rw [pc] at found
    obtain ⟨positive, here⟩ := Option.ite_none_right_eq_some.mp found
    cases here
    refine (and_congr_left' (link_served_iff positive (by simp))).trans (and_congr_right fun held => ?_)
    refine imp_congr_right fun _ => ?_
    exact subset_whole_iff (link_behind positive held (by simp) _) held.2 _
  | texture ofs =>
    rw [pc] at found
    obtain ⟨positive, here⟩ := Option.ite_none_right_eq_some.mp found
    cases here
    refine (and_congr_left' (link_served_iff positive (by simp))).trans (and_congr_right fun held => ?_)
    refine imp_congr_right fun _ => ?_
    exact texture_whole_iff (link_behind positive held (by simp) _) held.2 _
  | returned accepted =>
    rw [pc] at found
    cases found
  | threw =>
    rw [pc] at found
    cases found

/-- Of an edge it says the same. -/
theorem edge_good_iff {target : Target} {v w : Node} {found : Option (List UInt8)}
    (link : Link target src.stream v found w) :
    (inFull target).Good target src.stream v found ↔ v.Whole target src found := by
  rw [Link] at link
  cases chunk : v.chunk src.stream with
  | some x =>
    rw [chunk] at link
    obtain ⟨u, rfl, -⟩ := link
    exact good_iff_whole chunk _
  | none =>
    rw [chunk] at link
    obtain ⟨-, rfl, -⟩ := link
    unfold Judge.Good
    rw [chunk]
    exact Iff.rfl

end InBytes

/-! ### The same load of a longer stream -/

/-- Two streams at one position, the first over a prefix of what the second is over. -/
def Mirror (p f : List UInt8) (s t : BaseStream) : Prop :=
  ∃ pos ≤ p.length, s.At p pos ∧ t.At f pos

section Mirrors
variable {p f : List UInt8} (pre : p <+: f) (small : f.length < 2 ^ 31) {s t : BaseStream}
include pre small

theorem Mirror.read (h : Mirror p f s t) {n : UInt32} (served : s.Serves n) (b b' : Nat → UInt8) :
    (t.read b' n).1.bytes = (s.read b n).1.bytes ∧ (s.read b n).1.bytes.length = n.toNat ∧
      Mirror p f (s.read b n).2 (t.read b' n).2 := by
  obtain ⟨pos, position, left, right⟩ := h
  have inside := (left.serves_iff position).mp served
  have shorter := pre.length_le
  obtain ⟨got, -, behind⟩ := left.read b n inside
  obtain ⟨got', -, behind'⟩ := right.read b' n (by omega)
  refine ⟨?_, ?_, _, inside, behind, behind'⟩
  · obtain ⟨rest, rfl⟩ := pre
    rw [got, got', List.drop_append_of_le_length position, List.take_append_of_le_length]
    rw [List.length_drop]
    omega
  · rw [got, List.length_take, List.length_drop]
    omega

theorem Mirror.seekTo (h : Mirror p f s t) {iOfs : Int32} {n : UInt32} (positive : 0 < iOfs)
    (wanted : 2 ≤ n.toNat) (served : (s.seekTo iOfs).Serves n) :
    Mirror p f (s.seekTo iOfs) (t.seekTo iOfs) := by
  obtain ⟨pos, position, left, right⟩ := h
  have shorter := pre.length_le
  obtain ⟨-, inside⟩ := (left.seek_serves_iff positive wanted).mp served
  have nonneg : 0 ≤ iOfs.toInt := Int.le_of_lt (int32_pos_iff.mp positive)
  exact ⟨iOfs.toInt.toNat, by omega, left.seekTo (by omega) iOfs nonneg (by omega),
    right.seekTo small iOfs nonneg (by omega)⟩

theorem Mirror.image (h : Mirror p f s t) {size : Nat} (range : size < 2 ^ 32)
    (served : s.Serves (UInt32.ofNat size)) (u u' : Uninit) :
    image (t, size) u' = image (s, size) u ∧
      Mirror p f (behind (s, size) u) (behind (t, size) u') := by
  obtain ⟨same, length, behind⟩ := h.read pre small served u.beyond u'.beyond
  rw [UInt32.toNat_ofNat_of_lt' range] at length
  refine ⟨?_, behind⟩
  unfold Scan.image
  rw [same, overlay_cells length, overlay_cells length]

theorem Mirror.payload (h : Mirror p f s t) {target : Target} {hdr : FileSubset}
    (whole : hdr.Whole target s) (u u' : Uninit) :
    Mirror p f (readPayload target u hdr s).stream (readPayload target u' hdr t).stream := by
  unfold FileSubset.Whole at whole
  unfold readPayload
  split at whole
  · rename_i compressed
    rw [if_pos compressed, if_pos compressed]
    exact (h.read pre small whole.1 u.beyond u'.beyond).2.2
  · rename_i raw
    rw [if_neg raw, if_neg raw]
    obtain ⟨vertices, indices⟩ := whole
    have behind := (BaseStream.read_congr s (fun _ => 0) u.beyond hdr.vbSize).2.2
    rw [behind] at indices
    exact ((h.read pre small vertices u.beyond u'.beyond).2.2.read pre small indices _ _).2.2

theorem Mirror.texture (h : Mirror p f s t) {hdr : FileTexture} (whole : hdr.Whole s)
    (u u' : Uninit) : Mirror p f (readTexture u hdr s).2.1 (readTexture u' hdr t).2.1 := by
  unfold FileTexture.Whole at whole
  unfold readTexture
  split at whole
  · rename_i compressed
    rw [if_pos compressed, if_pos compressed]
    exact (h.read pre small whole.1 u.beyond u'.beyond).2.2
  · rename_i raw
    rw [if_neg raw, if_neg raw]
    exact (h.read pre small whole u.beyond u'.beyond).2.2

theorem Mirror.chunk {str str' : BaseStream} (h : Mirror p f str str') (v : Node) {x : BaseStream × Nat}
    (found : v.chunk str = some x) (served : x.1.Serves (UInt32.ofNat x.2)) :
    ∃ t, v.chunk str' = some (t, x.2) ∧ Mirror p f x.1 t := by
  unfold Node.chunk at found ⊢
  cases pc : v.pc with
  | start =>
    rw [pc] at found
    cases found
    exact ⟨_, rfl, h⟩
  | part ofs | subset ofs back | material ofs | texture ofs =>
    rw [pc] at found
    simp only at found ⊢
    split at found
    · rename_i positive
      cases found
      exact ⟨_, by rw [if_pos positive], h.seekTo pre small positive (by simp) served⟩
    · cases found
  | returned accepted =>
    rw [pc] at found
    cases found
  | threw =>
    rw [pc] at found
    cases found

/-- Two loads at one node and one position. -/
structure Abreast (p f : List UInt8) (st st' : LoadState) : Prop where
  node : st'.node = st.node
  stream : Mirror p f st.stream st'.stream

theorem abreast_loadStep {target : Target} {str str' : BaseStream} {st st' : LoadState} (u u' : Uninit)
    (strs : Mirror p f str str') (inv : OnImage str st) (inv' : OnImage str' st')
    (h : Abreast p f st st') (delivered : ∀ e ∈ st.emitted target str u, e.Delivered) :
    Abreast p f (loadStep target u st) (loadStep target u' st') := by
  have node := node_loadStep u target inv
  have node' := node_loadStep u' target inv'
  have stream := stream_loadStep target u inv
  have stream' := stream_loadStep target u' inv'
  rw [h.node] at node' stream'
  unfold LoadState.emitted at delivered
  cases found : st.node.chunk str with
  | none =>
    have none' : st.node.chunk str' = none := by
      unfold Node.chunk at found ⊢
      cases pc : st.node.pc <;> rw [pc] at found <;> simp_all
    rw [found] at node stream
    rw [none'] at node' stream'
    exact ⟨node'.trans node.symm, by rw [stream, stream']; exact h.stream⟩
  | some x =>
    rw [found] at delivered node stream
    have good := ((inFull_decides target).events_iff u found).mp delivered
    unfold Judge.Good at good
    rw [found] at good
    obtain ⟨served, payload⟩ := good
    obtain ⟨t, found', at_chunk⟩ := strs.chunk pre small st.node found served
    rw [found'] at node' stream'
    obtain ⟨same, behind⟩ := at_chunk.image pre small (chunk_size found) served u u'
    simp only at node node' stream stream'
    refine ⟨by rw [node', node, same], ?_⟩
    rw [stream, stream']
    unfold Node.streamBehind
    rw [same]
    cases pc : st.node.pc with
    | subset ofs back =>
      rw [pc] at payload
      simp only
      split
      · rename_i passes
        have whole : FileSubset.Whole target (FileSubset.codec.dec (image x u)) (Scan.behind x u) := by
          rw [behind_default]
          exact payload passes
        exact behind.payload pre small whole u u'
      · exact behind
    | texture ofs =>
      rw [pc] at payload
      simp only
      split
      · rename_i sign
        have whole : FileTexture.Whole (FileTexture.codec.dec (image x u)) (Scan.behind x u) := by
          rw [behind_default]
          exact payload sign
        exact behind.texture pre small whole u u'
      · exact behind
    | start | part ofs | material ofs | returned accepted | threw => exact behind

theorem abreast_run {target : Target} {str str' : BaseStream} (strs : Mirror p f str str')
    {st st' : LoadState} (inv : OnImage str st) (inv' : OnImage str' st') (h : Abreast p f st st')
    {memory : List Uninit} (u' : Uninit)
    (delivered : GoodRun (loadStep target) (fun u st => ∀ e ∈ st.emitted target str u, e.Delivered) st
      memory) :
    Abreast p f (run (loadStep target) st memory)
      (run (loadStep target) st' (List.replicate memory.length u')) := by
  have keep := (load_projects target str).keep
  have keep' := (load_projects target str').keep
  induction memory generalizing st st' with
  | nil => exact h
  | cons u memory ih =>
    obtain ⟨now, later⟩ := delivered
    exact ih (keep u st inv) (keep' u' st' inv')
      (abreast_loadStep pre small u u' strs inv inv' h now) later

end Mirrors

/-! ### Prefixes of written files -/

theorem mem_log_run {target : Target} {src : Source} {memory : List Uninit}
    (delivered : ∀ e ∈ (load target src memory).log, e.Delivered) :
    GoodRun (loadStep target) (fun u st => ∀ e ∈ st.emitted target src.stream u, e.Delivered) src.entry
      memory :=
  ((goodRun_iff_log (load_projects target src.stream).keep LoadState.log _ _
    (fun u _ inv => log_loadStep u inv) (onImage_entry src) memory).mp delivered).2

/-- No load of a proper prefix of a written file is accepted and served in full: it would be the load of
the whole file, and that reads the last byte or rejects. -/
theorem prefix_not_delivered {env : SaveEnv} (hc : Lz4.CompressHC env.compress) {m : TdScanModel}
    (fits : FitsFormat env m) {target : Target} {src : Source} (pre : src.bytes <+: env.image m)
    (proper : src.bytes ≠ env.image m) {memory : List Uninit}
    (accepted : (load target src memory).Accepted) :
    ¬ ∀ e ∈ (load target src memory).log, e.Delivered := by
  intro delivered
  have small : (env.image m).length < 2 ^ 31 := by rw [env.length_image]; exact fits.size
  let whole : Source := .file (env.image m)
  have start : Mirror src.bytes (env.image m) src.stream whole.stream :=
    ⟨0, Nat.zero_le _, src.stream_at, whole.stream_at⟩
  have abreast := abreast_run pre small start (onImage_entry src) (onImage_entry whole)
    ⟨rfl, start⟩ default (mem_log_run delivered)
  have accepted' : (run (loadStep target) whole.entry (List.replicate memory.length default)).pc =
      .returned true := (congrArg Node.pc abreast.node).trans accepted
  obtain ⟨pos, position, left, right⟩ := abreast.stream
  have runs : List.replicate memory.length (default : Uninit) =
      (List.replicate memory.length ()).map fun _ => default := by rw [List.map_replicate]
  rw [runs, ← run_map] at accepted' right
  by_cases chains : m.NoEmptyChain
  · have ends := image_outcome (fun _ : Unit => default) target hc fits chains whole rfl
    obtain ⟨_, _, stands⟩ := ends.2 _ (Or.inl ⟨true, accepted'⟩)
    have last : pos = (env.image m).length := right.pos_eq stands.stream
    exact proper (pre.eq_of_length_le (last ▸ position))
  · have ends := (image_rejected hc fits target whole rfl chains).outcome LoadState.Ended
      (fun _ st ended => loadStep_ended ended default) fun st rejected => Or.inl ⟨false, rejected⟩
    have rejected := ends.2 _ (Or.inl ⟨true, accepted'⟩)
    rw [accepted'] at rejected
    cases rejected

/-! ### What the memory supplies -/

theorem seekTo_file (bytes : List UInt8) {ofs : Int32} (positive : 0 < ofs) :
    (Source.file bytes).stream.seekTo ofs = .file ⟨some (bytes, ofs.toInt.toNat)⟩ := by
  rw [int32_pos_iff] at positive
  have forward : ¬ ofs.toInt < 0 := by omega
  simp [Source.stream, BaseStream.seekTo, BaseStream.seek, CFileStream.openFile, CFileStream.seek,
    CFileStream.target, forward]

/-- In any two files a node reads a structure of the same size at the same place. -/
theorem chunk_files (p f : List UInt8) (v : Node) :
    (v.chunk (Source.file p).stream = none ∧ v.chunk (Source.file f).stream = none) ∨
      ∃ pos n, v.chunk (Source.file p).stream = some (.file ⟨some (p, pos)⟩, n) ∧
        v.chunk (Source.file f).stream = some (.file ⟨some (f, pos)⟩, n) := by
  unfold Node.chunk
  cases v.pc with
  | start => exact Or.inr ⟨0, _, rfl, rfl⟩
  | part ofs | subset ofs back | material ofs | texture ofs =>
    dsimp only
    by_cases positive : 0 < ofs
    · rw [if_pos positive, if_pos positive, seekTo_file p positive, seekTo_file f positive]
      exact Or.inr ⟨_, _, rfl, rfl⟩
    · rw [if_neg positive, if_neg positive]
      exact Or.inl ⟨rfl, rfl⟩
  | returned accepted => exact Or.inl ⟨rfl, rfl⟩
  | threw => exact Or.inl ⟨rfl, rfl⟩

theorem overlay_supplied {bytes part : List UInt8} (pre : part <+: bytes) :
    overlay (cells (fun i => bytes.getD i 0) bytes.length) part = bytes := by
  have all : cells (fun i => bytes.getD i 0) bytes.length = bytes :=
    Machine.take_getD bytes 0
  obtain ⟨rest, rfl⟩ := pre
  rw [all, overlay, List.drop_left, List.take_length]

/-- The bytes that the shorter file lacks may lie in the header already. -/
theorem image_supplied {p f : List UInt8} (pre : p <+: f) (pos n : Nat) (u : Uninit) :
    ∃ u', image (.file ⟨some (p, pos)⟩, n) u' = image (.file ⟨some (f, pos)⟩, n) u := by
  let whole := image (.file ⟨some (f, pos)⟩, n) u
  have size : whole.length = n := by simp [whole, image]
  refine ⟨{ u with header := fun i => whole.getD i 0 }, ?_⟩
  have part : ((p.drop pos).take (UInt32.ofNat n).toNat) <+: whole := by
    have longer : (f.drop pos).take (UInt32.ofNat n).toNat <+: whole := by
      show _ <+: overlay (cells u.header n) ((f.drop pos).take (UInt32.ofNat n).toNat)
      rw [overlay]
      have fits : ((f.drop pos).take (UInt32.ofNat n).toNat).length ≤ n := by
        rw [List.length_take, UInt32.toNat_ofNat']
        exact (Nat.min_le_left _ _).trans (Nat.mod_le _ _)
      rw [length_cells, List.take_append, List.take_of_length_le fits]
      exact List.prefix_append _ _
    exact ((pre.drop pos).take _).trans longer
  have supplied := overlay_supplied part
  rw [size] at supplied
  exact supplied

/-- A load of a file can be repeated on any of its prefixes. -/
theorem file_prefix_follows {p f : List UInt8} (pre : p <+: f) (target : Target) (memory : List Uninit) :
    ∃ memory', (load target (.file p) memory').node = (load target (.file f) memory).node := by
  have follow : ∀ (st st' : LoadState), OnImage (Source.file p).stream st → OnImage (Source.file f).stream st' →
      st.node = st'.node → ∃ memory',
        (run (loadStep target) st memory').node = (run (loadStep target) st' memory).node := by
    induction memory with
    | nil => exact fun st st' _ _ same => ⟨[], same⟩
    | cons u memory ih =>
      intro st st' inv inv' same
      have next : ∃ u', (loadStep target u' st).node = (loadStep target u st').node := by
        have after (u : Uninit) := node_loadStep u target inv
        have after' := node_loadStep u target inv'
        obtain ⟨none, none'⟩ | ⟨pos, n, found, found'⟩ := chunk_files p f st'.node
        · rw [none'] at after'
          refine ⟨u, ?_⟩
          rw [after, after', same, none]
        · rw [found'] at after'
          obtain ⟨u', supplied⟩ := image_supplied pre pos n u
          refine ⟨u', ?_⟩
          rw [after, after', same, found]
          exact congrArg (st'.node.next target) supplied
      obtain ⟨u', next⟩ := next
      obtain ⟨memory', ends⟩ := ih _ _ ((load_projects target _).keep u' st inv)
        ((load_projects target _).keep u st' inv') next
      exact ⟨u' :: memory', ends⟩
  exact follow _ _ (onImage_entry _) (onImage_entry _) rfl

def cutTriangle : List UInt8 := (literalEnv.image triangle).dropLast

theorem cutTriangle_prefix : cutTriangle <+: literalEnv.image triangle := List.dropLast_prefix _

theorem cutTriangle_proper : cutTriangle ≠ literalEnv.image triangle := by
  intro same
  have shorter := congrArg List.length same
  rw [cutTriangle, List.length_dropLast, SaveEnv.length_image] at shorter
  have size : 46 ≤ literalEnv.fileSize triangle := by
    simp only [SaveEnv.fileSize, SaveEnv.texturesOfs, SaveEnv.materialsOfs]
    omega
  omega

/-- The node behind `v`, where its structure lies in the byte string. -/
def Node.follow (target : Target) (src : Source) (v : Node) : Node :=
  match v.chunk src.stream with
  | some x => v.next target (image x default)
  | none => v.leave

def Node.Held (target : Target) (src : Source) (v : Node) : Prop :=
  ∀ x ∈ v.chunk src.stream, v.pc.Whole target src (image x default)

instance (target : Target) (src : Source) (v : Node) : Decidable (v.Held target src) :=
  inferInstanceAs (Decidable (∀ _ ∈ _, _))

theorem image_served {x : BaseStream × Nat} (range : x.2 < 2 ^ 32) (served : x.1.Serves (UInt32.ofNat x.2))
    (u : Uninit) : image x u = image x default := by
  have full := ((BaseStream.read_full_iff x.1 u.beyond _).mpr served).1
  have full' := ((BaseStream.read_full_iff x.1 (default : Uninit).beyond _).mpr served).1
  rw [UInt32.toNat_ofNat_of_lt' range] at full full'
  rw [image, image, overlay_cells full, overlay_cells full']
  exact BaseStream.read_served served _ _

/-- From nodes that hold what they read, the links lead nowhere else. -/
theorem held_edge {target : Target} {src : Source} {v w : Node} {found : Option (List UInt8)}
    (held : v.Held target src) (link : Link target src.stream v found w) :
    v.Whole target src found ∧ w = v.follow target src := by
  rw [Link] at link
  rw [Node.follow]
  unfold Node.Held at held
  cases chunk : v.chunk src.stream with
  | none =>
    rw [chunk] at link
    obtain ⟨-, rfl, rfl⟩ := link
    exact ⟨trivial, rfl⟩
  | some x =>
    rw [chunk] at link
    obtain ⟨u, rfl, rfl⟩ := link
    have whole := held x chunk
    have good := (good_iff_whole chunk _).mpr whole
    unfold Judge.Good at good
    rw [chunk] at good
    rw [image_served (chunk_size chunk) good.1 u]
    exact ⟨whole, rfl⟩

def wholeTriangle : Source := .file (literalEnv.image triangle)

/-- The links of the file, from the header to the end. -/
def triangleNodes : List Node := (List.range 10).map fun k => (Node.follow .x64 wholeTriangle)^[k] entryNode

end ModelPublish.Scan
