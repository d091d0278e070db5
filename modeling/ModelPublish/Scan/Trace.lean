import ModelPublish.Scan.Links

/-!
# What a load does on its way

The events of a step, as a function of the node it leaves and of what it finds there. Questions about
every accepted load are so turned into questions about the edges of the link graph.
-/

namespace ModelPublish.Scan
open Packed ModelPublish.Stream Machine

/-- The subset headers that are not turned away. -/
def FileSubset.Passes (target : Target) (hdr : FileSubset) : Prop :=
  hdr.szSign.toList = ascii "SUBSET" ∧ hdr.uiDataSize.toNat = hdr.checkedSize target ∧
    4 * hdr.ibCount < target.sizeMod

instance (target : Target) (hdr : FileSubset) : Decidable (hdr.Passes target) :=
  inferInstanceAs (Decidable (_ ∧ _ ∧ _))

/-- The payload of a subset in its buffers. -/
def readPayload (target : Target) (u : Uninit) (hdr : FileSubset) (s : BaseStream) : Buffers :=
  if hdr.isCompressed then readCompressed target u hdr s else readRaw target u hdr s

/-- What is pushed for a subset. -/
def FileSubset.loaded (hdr : FileSubset) (b : Buffers) (tail : List UInt8) : TdModelSubset where
  pVB := b.pVB
  pIB := Codec.u32.decMany hdr.ibCount b.pIB
  uiVertCount := hdr.uiVertexCount
  uiTriCount := hdr.uiTriCount
  sMatName := nameAt FileSubset.codec hdr 10 tail
  uiVertexFmt := hdr.uiVertexFormat

def subsetEvents (target : Target) (u : Uninit) (hdr : FileSubset) (s : BaseStream) : List LoadEvent :=
  if hdr.Passes target then
    (readPayload target u hdr s).events ++
      [.positions (readPayload target u hdr s).pVB.length (getVertexSize hdr.uiVertexFormat).toNat
        hdr.uiVertexCount.toNat, .subset hdr (hdr.loaded (readPayload target u hdr s) u.tail)]
  else []

def textureEvents (u : Uninit) (hdr : FileTexture) (s : BaseStream) : List LoadEvent :=
  if hdr.szSign.toList = ascii "TEX" then
    (readTexture u hdr s).2.2 ++ [.texture {
      sName := nameAt FileTexture.codec hdr 3 u.tail
      uiSize := hdr.uiDataSize
      pData := (readTexture u hdr s).1
      eFormat := hdr.eTexFormat
      clrAvgColor := hdr.clrAvgColor }]
  else []

/-- The stream behind the structure of a node. -/
def behind (x : BaseStream × Nat) (u : Uninit) : BaseStream := (x.1.read u.beyond (UInt32.ofNat x.2)).2

/-- The events of a step that reads the structure `x`: the read itself and what it leads to. -/
def Node.events (target : Target) (v : Node) (x : BaseStream × Nat) (u : Uninit) : List LoadEvent :=
  .read false x.2 x.2 (x.1.read u.beyond (UInt32.ofNat x.2)).1 ::
  match v.pc with
  | .part _ =>
    let hdr := FilePart.codec.dec (image x u)
    if hdr.szSign.toList = ascii "PART" then [.part (nameAt FilePart.codec hdr 4 u.tail)] else []
  | .subset _ _ => subsetEvents target u (FileSubset.codec.dec (image x u)) (behind x u)
  | .material _ =>
    let hdr := FileMaterial.codec.dec (image x u)
    if hdr.szSign.toList = ascii "MATERIAL" then [.material (materialOf hdr u.tail)] else []
  | .texture _ => textureEvents u (FileTexture.codec.dec (image x u)) (behind x u)
  | _ => []

section Logs
variable {target : Target} (u : Uninit) (st : LoadState) (ofs : Int32)

theorem log_loadHeader (pc : st.pc = .start) : (loadHeader u st).log =
    st.log ++ st.node.events target (st.stream, FileHeader.codec.size) u := by
  have at_pc : st.node.pc = _ := pc
  simp only [loadHeader, apply_ite LoadState.log, LoadState.reject, Node.events, at_pc]
  repeat' split
  all_goals rfl

theorem log_loadPart (pc : st.pc = .part ofs) : (loadPart u ofs st).log =
    st.log ++ st.node.events target (st.stream.seekTo ofs, FilePart.codec.size) u := by
  have at_pc : st.node.pc = _ := pc
  simp only [loadPart, apply_ite LoadState.log, LoadState.reject, Node.events, at_pc, ite_not]
  split
  · rename_i sign
    have same : (FilePart.codec.dec (image (st.stream.seekTo ofs, FilePart.codec.size) u)).szSign.toList =
        ascii "PART" := sign
    rw [if_pos same, List.append_assoc]
    rfl
  · rename_i sign
    have same : ¬ (FilePart.codec.dec (image (st.stream.seekTo ofs, FilePart.codec.size)
        u)).szSign.toList = ascii "PART" := sign
    rw [if_neg same]
    rfl

theorem log_loadMaterial (pc : st.pc = .material ofs) : (loadMaterial u ofs st).log =
    st.log ++ st.node.events target (st.stream.seekTo ofs, FileMaterial.codec.size) u := by
  have at_pc : st.node.pc = _ := pc
  simp only [loadMaterial, apply_ite LoadState.log, LoadState.reject, Node.events, at_pc, ite_not]
  split
  · rename_i sign
    have same : (FileMaterial.codec.dec (image (st.stream.seekTo ofs,
        FileMaterial.codec.size) u)).szSign.toList = ascii "MATERIAL" := sign
    rw [if_pos same, List.append_assoc]
    rfl
  · rename_i sign
    have same : ¬ (FileMaterial.codec.dec (image (st.stream.seekTo ofs,
        FileMaterial.codec.size) u)).szSign.toList = ascii "MATERIAL" := sign
    rw [if_neg same]
    rfl

theorem log_loadTexture (pc : st.pc = .texture ofs) : (loadTexture u ofs st).log =
    st.log ++ st.node.events target (st.stream.seekTo ofs, FileTexture.codec.size) u := by
  have at_pc : st.node.pc = _ := pc
  simp only [loadTexture, apply_ite LoadState.log, LoadState.reject, Node.events, at_pc, ite_not,
    textureEvents]
  split
  · rename_i sign
    have same : (FileTexture.codec.dec (image (st.stream.seekTo ofs,
        FileTexture.codec.size) u)).szSign.toList = ascii "TEX" := sign
    rw [if_pos same, List.append_assoc, List.append_assoc]
    rfl
  · rename_i sign
    have same : ¬ (FileTexture.codec.dec (image (st.stream.seekTo ofs,
        FileTexture.codec.size) u)).szSign.toList = ascii "TEX" := sign
    rw [if_neg same]
    rfl

theorem log_loadSubset (back : Int32) (pc : st.pc = .subset ofs back) :
    (loadSubset target u ofs back st).log =
      st.log ++ st.node.events target (st.stream.seekTo ofs, FileSubset.codec.size) u := by
  have at_pc : st.node.pc = _ := pc
  simp only [loadSubset, apply_ite LoadState.log, LoadState.reject, Node.events, at_pc, ite_not,
    subsetEvents]
  have hdr_eq : (readStruct FileSubset.codec (st.stream.seekTo ofs) u).1 =
      FileSubset.codec.dec (image (st.stream.seekTo ofs, FileSubset.codec.size) u) := rfl
  by_cases passes : (FileSubset.codec.dec (image (st.stream.seekTo ofs,
      FileSubset.codec.size) u)).Passes target
  · rw [if_pos passes, hdr_eq, if_pos passes.1, if_pos passes.2.1, if_neg (Nat.not_le.mpr passes.2.2)]
    simp only [List.append_assoc]
    rfl
  · rw [if_neg passes, hdr_eq]
    simp only [FileSubset.Passes, not_and] at passes
    split
    · rename_i sign
      split
      · rename_i checked
        rw [if_pos (Nat.le_of_not_lt (passes sign checked))]
        rfl
      · rfl
    · rfl

end Logs

def LoadState.emitted (target : Target) (str : BaseStream) (u : Uninit) (st : LoadState) :
    List LoadEvent :=
  match st.node.chunk str with
  | some x => st.node.events target x u
  | none => []

theorem log_loadStep {target : Target} {str : BaseStream} {st : LoadState} (u : Uninit)
    (inv : OnImage str st) :
    (loadStep target u st).log = st.log ++ st.emitted target str u := by
  have seek {ofs : Int32} (positive : 0 < ofs) : st.stream.seekTo ofs = str.seekTo ofs :=
    BaseStream.seekTo_congr inv.same positive
  have at_pc : st.node.pc = st.pc := rfl
  unfold loadStep LoadState.emitted
  cases pc : st.pc with
  | start =>
    rw [pc] at at_pc
    simp only [Node.chunk, at_pc]
    rw [← inv.start pc]
    exact log_loadHeader u st pc
  | part ofs =>
    rw [pc] at at_pc
    simp only [Node.chunk, at_pc]
    split
    · rename_i positive
      rw [← seek positive]
      exact log_loadPart u st ofs pc
    · exact (List.append_nil _).symm
  | subset ofs back =>
    rw [pc] at at_pc
    simp only [Node.chunk, at_pc]
    split
    · rename_i positive
      rw [← seek positive]
      exact log_loadSubset u st ofs back pc
    · exact (List.append_nil _).symm
  | material ofs =>
    rw [pc] at at_pc
    simp only [Node.chunk, at_pc]
    split
    · rename_i positive
      rw [← seek positive]
      exact log_loadMaterial u st ofs pc
    · exact (List.append_nil _).symm
  | texture ofs =>
    rw [pc] at at_pc
    simp only [Node.chunk, at_pc]
    split
    · rename_i positive
      rw [← seek positive]
      exact log_loadTexture u st ofs pc
    · exact (List.append_nil _).symm
  | returned accepted =>
    rw [pc] at at_pc
    simp only [Node.chunk, at_pc, List.append_nil]
  | threw =>
    rw [pc] at at_pc
    simp only [Node.chunk, at_pc, List.append_nil]

/-! ### Where a step leaves the stream -/

/-- The stream after a step that reads the structure `x`. -/
def Node.streamBehind (target : Target) (v : Node) (x : BaseStream × Nat) (u : Uninit) : BaseStream :=
  match v.pc with
  | .subset _ _ =>
    let hdr := FileSubset.codec.dec (image x u)
    if hdr.Passes target then (readPayload target u hdr (behind x u)).stream else behind x u
  | .texture _ =>
    let hdr := FileTexture.codec.dec (image x u)
    if hdr.szSign.toList = ascii "TEX" then (readTexture u hdr (behind x u)).2.1 else behind x u
  | _ => behind x u

theorem stream_loadSubset {target : Target} (u : Uninit) (st : LoadState) (ofs back : Int32)
    (pc : st.pc = .subset ofs back) : (loadSubset target u ofs back st).stream =
      st.node.streamBehind target (st.stream.seekTo ofs, FileSubset.codec.size) u := by
  have at_pc : st.node.pc = _ := pc
  simp only [loadSubset, apply_ite LoadState.stream, LoadState.reject, Node.streamBehind, at_pc, ite_not]
  have hdr_eq : (readStruct FileSubset.codec (st.stream.seekTo ofs) u).1 =
      FileSubset.codec.dec (image (st.stream.seekTo ofs, FileSubset.codec.size) u) := rfl
  by_cases passes : (FileSubset.codec.dec (image (st.stream.seekTo ofs,
      FileSubset.codec.size) u)).Passes target
  · rw [if_pos passes, hdr_eq, if_pos passes.1, if_pos passes.2.1, if_neg (Nat.not_le.mpr passes.2.2)]
    rfl
  · rw [if_neg passes, hdr_eq]
    simp only [FileSubset.Passes, not_and] at passes
    split
    · rename_i sign
      split
      · rename_i checked
        rw [if_pos (Nat.le_of_not_lt (passes sign checked))]
        rfl
      · rfl
    · rfl

theorem stream_loadTexture {target : Target} (u : Uninit) (st : LoadState) (ofs : Int32)
    (pc : st.pc = .texture ofs) : (loadTexture u ofs st).stream =
      st.node.streamBehind target (st.stream.seekTo ofs, FileTexture.codec.size) u := by
  have at_pc : st.node.pc = _ := pc
  simp only [loadTexture, apply_ite LoadState.stream, LoadState.reject, Node.streamBehind, at_pc, ite_not]
  rfl

theorem stream_loadStep (target : Target) {str : BaseStream} {st : LoadState} (u : Uninit)
    (inv : OnImage str st) :
    (loadStep target u st).stream =
      match st.node.chunk str with
      | some x => st.node.streamBehind target x u
      | none => st.stream := by
  have seek {ofs : Int32} (positive : 0 < ofs) : st.stream.seekTo ofs = str.seekTo ofs :=
    BaseStream.seekTo_congr inv.same positive
  have at_pc : st.node.pc = st.pc := rfl
  unfold loadStep
  cases pc : st.pc with
  | start =>
    rw [pc] at at_pc
    simp only [Node.chunk, Node.streamBehind, at_pc]
    rw [← inv.start pc]
    simp only [loadHeader, apply_ite LoadState.stream, LoadState.reject, ite_self]
    rfl
  | part ofs =>
    rw [pc] at at_pc
    simp only [Node.chunk, at_pc]
    split
    · rename_i positive
      rw [← seek positive]
      simp only [loadPart, apply_ite LoadState.stream, LoadState.reject, ite_self, Node.streamBehind,
        at_pc]
      rfl
    · rfl
  | subset ofs back =>
    rw [pc] at at_pc
    simp only [Node.chunk, at_pc]
    split
    · rename_i positive
      rw [← seek positive]
      exact stream_loadSubset u st ofs back pc
    · rfl
  | material ofs =>
    rw [pc] at at_pc
    simp only [Node.chunk, at_pc]
    split
    · rename_i positive
      rw [← seek positive]
      simp only [loadMaterial, apply_ite LoadState.stream, LoadState.reject, ite_self, Node.streamBehind,
        at_pc]
      rfl
    · rfl
  | texture ofs =>
    rw [pc] at at_pc
    simp only [Node.chunk, at_pc]
    split
    · rename_i positive
      rw [← seek positive]
      exact stream_loadTexture u st ofs pc
    · rfl
  | returned accepted =>
    rw [pc] at at_pc
    simp only [Node.chunk, at_pc]
  | threw =>
    rw [pc] at at_pc
    simp only [Node.chunk, at_pc]

/-! ### Judging every accepted load -/

/-- Conditions on what a node finds: on the stream and the size of its structure, and on a chunk
header that is not turned away together with the stream behind it. -/
structure Judge where
  structured : BaseStream → UInt32 → Prop
  subset : FileSubset → BaseStream → Prop
  texture : FileTexture → BaseStream → Prop

/-- The node at which a model is returned. -/
def Node.Accepting (v : Node) : Prop := v.pc = .returned true

/-- The conditions at one edge of the link graph. -/
def Judge.Good (j : Judge) (target : Target) (str : BaseStream) (v : Node) (found : Option (List UInt8)) :
    Prop :=
  match v.chunk str, found with
  | some x, some bytes =>
    j.structured x.1 (UInt32.ofNat x.2) ∧
      match v.pc with
      | .subset _ _ => (FileSubset.codec.dec bytes).Passes target →
        j.subset (FileSubset.codec.dec bytes) (behind x default)
      | .texture _ => (FileTexture.codec.dec bytes).szSign.toList = ascii "TEX" →
        j.texture (FileTexture.codec.dec bytes) (behind x default)
      | _ => True
  | _, _ => True

/-- The conditions say of every step whether its events satisfy `p`. -/
structure Judge.Decides (j : Judge) (target : Target) (p : LoadEvent → Prop) : Prop where
  structured : ∀ (s : BaseStream) (beyond : Nat → UInt8) (n : UInt32),
    p (.read false n.toNat n.toNat (s.read beyond n).1) ↔ j.structured s n
  part : ∀ name, p (.part name)
  material : ∀ m, p (.material m)
  subset : ∀ (u : Uninit) (hdr : FileSubset) (s : BaseStream), hdr.Passes target →
    ((∀ e ∈ subsetEvents target u hdr s, p e) ↔ j.subset hdr s)
  texture : ∀ (u : Uninit) (hdr : FileTexture) (s : BaseStream), hdr.szSign.toList = ascii "TEX" →
    ((∀ e ∈ textureEvents u hdr s, p e) ↔ j.texture hdr s)

theorem chunk_size {v : Node} {str : BaseStream} {x : BaseStream × Nat} (h : v.chunk str = some x) :
    x.2 < 2 ^ 32 := by
  unfold Node.chunk at h
  repeat' split at h
  all_goals cases h
  all_goals simp

theorem behind_default (x : BaseStream × Nat) (u : Uninit) : behind x u = behind x default :=
  (BaseStream.read_congr x.1 u.beyond _ (UInt32.ofNat x.2)).2.2

section Judging
variable {j : Judge} {target : Target} {p : LoadEvent → Prop} (d : j.Decides target p)
include d

theorem Judge.Decides.events_iff {v : Node} {str : BaseStream} {x : BaseStream × Nat} (u : Uninit)
    (at_chunk : v.chunk str = some x) :
    (∀ e ∈ v.events target x u, p e) ↔ j.Good target str v (some (image x u)) := by
  have read : p (.read false x.2 x.2 (x.1.read u.beyond (UInt32.ofNat x.2)).1) ↔
      j.structured x.1 (UInt32.ofNat x.2) := by
    have value : (UInt32.ofNat x.2).toNat = x.2 := UInt32.toNat_ofNat_of_lt' (chunk_size at_chunk)
    have decided := d.structured x.1 u.beyond (UInt32.ofNat x.2)
    rwa [value] at decided
  simp only [Node.events, Judge.Good, at_chunk, List.forall_mem_cons, read]
  apply and_congr_right
  intro _
  cases v.pc with
  | part ofs => simp only; split <;> simp [d.part]
  | subset ofs back =>
    by_cases passes : (FileSubset.codec.dec (image x u)).Passes target
    · simp only
      rw [d.subset u _ _ passes, behind_default]
      exact (imp_iff_right passes).symm
    · simp [subsetEvents, passes]
  | material ofs => simp only; split <;> simp [d.material]
  | texture ofs =>
    by_cases sign : (FileTexture.codec.dec (image x u)).szSign.toList = ascii "TEX"
    · simp only
      rw [d.texture u _ _ sign, behind_default]
      exact (imp_iff_right sign).symm
    · simp [textureEvents, sign]
  | start => simp
  | returned accepted => simp
  | threw => simp

/-- What holds of every event of every accepted load is a matter of the edges of the link graph. -/
theorem Judge.Decides.accepted_iff (src : Source) :
    (∀ memory, (load target src memory).Accepted → ∀ e ∈ (load target src memory).log, p e) ↔
      AcceptingGood (Link target src.stream) Node.Accepting (j.Good target src.stream) entryNode := by
  change (∀ memory, (run (loadStep target) src.entry memory).node.Accepting →
    ∀ e ∈ LoadState.log (run (loadStep target) src.entry memory), p e) ↔ _
  refine (load_projects target src.stream).accepted_log_iff (onImage_entry src)
    (fun u st inv => log_loadStep u inv) (List.forall_mem_nil p) fun u st inv => ?_
  have ended : st.Ended → st.node.chunk src.stream = none := by
    rintro (⟨accepted, pc⟩ | pc) <;> simp only [Node.chunk, LoadState.node, pc]
  unfold LoadState.emitted LoadState.found
  cases chunk : st.node.chunk src.stream with
  | some x =>
    have running : ¬ st.Ended := fun stop => by rw [ended stop] at chunk; cases chunk
    rw [Option.map_some, ← d.events_iff u chunk]
    exact (imp_iff_right running).symm
  | none => simp [Judge.Good, chunk]

end Judging

end ModelPublish.Scan
