import ModelPublish.Scan.Load

/-!
# The link graph of a file

Which link the loader tests next depends only on the link it is at and on the structure found
there. The bytes behind a stream therefore span a finite graph, and the runs of the loader are the
walks through it.
-/

namespace ModelPublish.Scan
open Packed ModelPublish.Stream Machine

/-- A link, with the library links that wait in the file header. -/
structure Node where
  pc : LoadPc
  iMaterialLibOfs : Int32
  iTexLibOfs : Int32
  deriving DecidableEq

def LoadState.node (st : LoadState) : Node := ⟨st.pc, st.iMaterialLibOfs, st.iTexLibOfs⟩

/-- The words a control state is made of. -/
def LoadPc.code (pc : LoadPc) : Fin 7 × Int32 × Int32 × Bool :=
  match pc with
  | .start => (0, 0, 0, false)
  | .part ofs => (1, ofs, 0, false)
  | .subset ofs back => (2, ofs, back, false)
  | .material ofs => (3, ofs, 0, false)
  | .texture ofs => (4, ofs, 0, false)
  | .returned accepted => (5, 0, 0, accepted)
  | .threw => (6, 0, 0, false)

theorem LoadPc.code_injective : Function.Injective LoadPc.code := by
  intro a b same
  cases a <;> cases b <;> simp_all [LoadPc.code]

instance : Finite Node :=
  Finite.of_injective (fun v : Node => (v.pc.code, v.iMaterialLibOfs, v.iTexLibOfs)) fun a b same => by
    obtain ⟨pc, libs⟩ := Prod.mk.inj same
    obtain ⟨materials, textures⟩ := Prod.mk.inj libs
    cases a; cases b
    simp_all [LoadPc.code_injective.eq_iff]

namespace Node

/-- The stream and the size of the structure a node reads, unless it leaves its loop. -/
def chunk (str : BaseStream) (v : Node) : Option (BaseStream × Nat) :=
  match v.pc with
  | .start => some (str, FileHeader.codec.size)
  | .part ofs => if 0 < ofs then some (str.seekTo ofs, FilePart.codec.size) else none
  | .subset ofs _ => if 0 < ofs then some (str.seekTo ofs, FileSubset.codec.size) else none
  | .material ofs => if 0 < ofs then some (str.seekTo ofs, FileMaterial.codec.size) else none
  | .texture ofs => if 0 < ofs then some (str.seekTo ofs, FileTexture.codec.size) else none
  | .returned _ => none
  | .threw => none

/-- Where the structure found at a node leads. -/
def next (target : Target) (v : Node) (bytes : List UInt8) : Node :=
  match v.pc with
  | .start =>
    let hdr := FileHeader.codec.dec bytes
    if hdr.szSign.toList ≠ ascii "SEYEDOF 3D FORMAT" then { v with pc := .returned false }
    else if hdr.uiVersion ≠ formatVersion then { v with pc := .returned false }
    else ⟨.part hdr.iFirstPartOfs, hdr.iMaterialLibOfs, hdr.iTexLibOfs⟩
  | .part _ =>
    let hdr := FilePart.codec.dec bytes
    if hdr.szSign.toList ≠ ascii "PART" then { v with pc := .returned false }
    else { v with pc := .subset hdr.iFirstSubset hdr.iNextPartOfs }
  | .subset _ part =>
    let hdr := FileSubset.codec.dec bytes
    if hdr.szSign.toList ≠ ascii "SUBSET" then { v with pc := .returned false }
    else if hdr.uiDataSize.toNat ≠ hdr.checkedSize target then { v with pc := .returned false }
    else if target.sizeMod ≤ 4 * hdr.ibCount then { v with pc := .threw }
    else { v with pc := .subset hdr.iNextSubsetOfs part }
  | .material _ =>
    let hdr := FileMaterial.codec.dec bytes
    if hdr.szSign.toList ≠ ascii "MATERIAL" then { v with pc := .returned false }
    else { v with pc := .material hdr.iNextMaterialOfs }
  | .texture _ =>
    let hdr := FileTexture.codec.dec bytes
    if hdr.szSign.toList ≠ ascii "TEX" then { v with pc := .returned false }
    else { v with pc := .texture hdr.iNextTexOfs }
  | .returned _ => v
  | .threw => v

/-- The node behind a loop whose link is not positive. -/
def leave (v : Node) : Node :=
  match v.pc with
  | .part _ => { v with pc := .material v.iMaterialLibOfs }
  | .subset _ part => { v with pc := .part part }
  | .material _ => { v with pc := .texture v.iTexLibOfs }
  | .texture _ => { v with pc := .returned true }
  | _ => v

def Ended (v : Node) : Prop := (∃ accepted, v.pc = .returned accepted) ∨ v.pc = .threw

end Node

/-- What a structure of `n` bytes may look like after it was read: what the stream delivers, over
whatever lay there. -/
def image (x : BaseStream × Nat) (u : Uninit) : List UInt8 :=
  overlay (cells u.header x.2) (x.1.read u.beyond (UInt32.ofNat x.2)).1.bytes

/-- The edges: the structure at a positive link, as it may be read, leads on. -/
def Link (target : Target) (str : BaseStream) (v : Node) (found : Option (List UInt8)) (w : Node) :
    Prop :=
  match v.chunk str with
  | some x => ∃ u, found = some (image x u) ∧ w = v.next target (image x u)
  | none => ¬ v.Ended ∧ found = none ∧ w = v.leave

def LoadState.found (str : BaseStream) (u : Uninit) (st : LoadState) : Option (List UInt8) :=
  (st.node.chunk str).map fun x => image x u

/-- The stream still shows the same bytes, and the file header is read from its start. -/
structure OnImage (str : BaseStream) (st : LoadState) : Prop where
  same : BaseStream.SameImage st.stream str
  start : st.pc = .start → st.stream = str

section Steps
variable {target : Target} {str : BaseStream} {st : LoadState} (u : Uninit)

theorem reject_node (st : LoadState) (stream : BaseStream) (events : List LoadEvent) :
    (st.reject stream events).node = { st.node with pc := .returned false } := rfl

theorem node_loadHeader (st : LoadState) (pc : st.pc = .start) :
    (loadHeader u st).node = st.node.next target (image (st.stream, FileHeader.codec.size) u) := by
  have at_pc : st.node.pc = _ := pc
  simp only [loadHeader, apply_ite LoadState.node, reject_node, Node.next, at_pc]
  rfl

theorem node_loadPart (st : LoadState) (ofs : Int32) (pc : st.pc = .part ofs) :
    (loadPart u ofs st).node =
      st.node.next target (image (st.stream.seekTo ofs, FilePart.codec.size) u) := by
  have at_pc : st.node.pc = _ := pc
  simp only [loadPart, apply_ite LoadState.node, reject_node, Node.next, at_pc]
  rfl

theorem node_loadSubset (st : LoadState) (ofs back : Int32) (pc : st.pc = .subset ofs back) :
    (loadSubset target u ofs back st).node =
      st.node.next target (image (st.stream.seekTo ofs, FileSubset.codec.size) u) := by
  have at_pc : st.node.pc = _ := pc
  simp only [loadSubset, apply_ite LoadState.node, reject_node, Node.next, at_pc]
  rfl

theorem node_loadMaterial (st : LoadState) (ofs : Int32) (pc : st.pc = .material ofs) :
    (loadMaterial u ofs st).node =
      st.node.next target (image (st.stream.seekTo ofs, FileMaterial.codec.size) u) := by
  have at_pc : st.node.pc = _ := pc
  simp only [loadMaterial, apply_ite LoadState.node, reject_node, Node.next, at_pc]
  rfl

theorem node_loadTexture (st : LoadState) (ofs : Int32) (pc : st.pc = .texture ofs) :
    (loadTexture u ofs st).node =
      st.node.next target (image (st.stream.seekTo ofs, FileTexture.codec.size) u) := by
  have at_pc : st.node.pc = _ := pc
  simp only [loadTexture, apply_ite LoadState.node, reject_node, Node.next, at_pc]
  rfl

theorem node_loadStep (target : Target) (inv : OnImage str st) :
    (loadStep target u st).node =
      match st.node.chunk str with
      | some x => st.node.next target (image x u)
      | none => st.node.leave := by
  have seek {ofs : Int32} (positive : 0 < ofs) : st.stream.seekTo ofs = str.seekTo ofs :=
    BaseStream.seekTo_congr inv.same positive
  have at_pc : st.node.pc = st.pc := rfl
  unfold loadStep
  cases pc : st.pc with
  | start =>
    rw [pc] at at_pc
    simp only [Node.chunk, at_pc]
    rw [← inv.start pc]
    exact node_loadHeader u st pc
  | part ofs =>
    rw [pc] at at_pc
    simp only [Node.chunk, at_pc]
    split
    · rename_i positive
      rw [← seek positive]
      exact node_loadPart u st ofs pc
    · simp only [Node.leave, at_pc]
      rfl
  | subset ofs back =>
    rw [pc] at at_pc
    simp only [Node.chunk, at_pc]
    split
    · rename_i positive
      rw [← seek positive]
      exact node_loadSubset u st ofs back pc
    · simp only [Node.leave, at_pc]
      rfl
  | material ofs =>
    rw [pc] at at_pc
    simp only [Node.chunk, at_pc]
    split
    · rename_i positive
      rw [← seek positive]
      exact node_loadMaterial u st ofs pc
    · simp only [Node.leave, at_pc]
      rfl
  | texture ofs =>
    rw [pc] at at_pc
    simp only [Node.chunk, at_pc]
    split
    · rename_i positive
      rw [← seek positive]
      exact node_loadTexture u st ofs pc
    · simp only [Node.leave, at_pc]
      rfl
  | returned accepted =>
    rw [pc] at at_pc
    simp only [Node.chunk, Node.leave, at_pc]
  | threw =>
    rw [pc] at at_pc
    simp only [Node.chunk, Node.leave, at_pc]

/-- Reading and seeking keep the image, whatever is read. -/
theorem sameImage_loadStep (same : BaseStream.SameImage st.stream str) :
    BaseStream.SameImage (loadStep target u st).stream str := by
  have read {s : BaseStream} (h : BaseStream.SameImage s str) (n : UInt32) :
      BaseStream.SameImage (s.read u.beyond n).2 str := BaseStream.read_sameImage h u.beyond n
  have seek (ofs : Int32) := BaseStream.seekTo_sameImage same ofs
  unfold loadStep
  split
  · simp only [loadHeader, apply_ite LoadState.stream, LoadState.reject, ite_self]
    exact read same _
  · split
    · simp only [loadPart, apply_ite LoadState.stream, LoadState.reject, ite_self]
      exact read (seek _) _
    · exact same
  · split
    · simp only [loadSubset, apply_ite LoadState.stream, LoadState.reject]
      repeat' split
      all_goals first
        | exact read (seek _) _
        | exact read (read (seek _) _) _
        | exact read (read (read (seek _) _) _) _
    · exact same
  · split
    · simp only [loadMaterial, apply_ite LoadState.stream, LoadState.reject, ite_self]
      exact read (seek _) _
    · exact same
  · split
    · simp only [loadTexture, apply_ite LoadState.stream, LoadState.reject, readTexture]
      repeat' split
      all_goals first
        | exact read (seek _) _
        | exact read (read (seek _) _) _
    · exact same
  · exact same
  · exact same

theorem loadStep_pc (inv : OnImage str st) : (loadStep target u st).pc ≠ .start := by
  have walk := node_loadStep u target inv
  have pc : (loadStep target u st).pc = (loadStep target u st).node.pc := rfl
  rw [pc, walk]
  have at_pc : st.node.pc = st.pc := rfl
  cases h : st.pc <;> rw [h] at at_pc <;> simp only [Node.chunk, Node.next, Node.leave, at_pc] <;>
    repeat' split
  all_goals simp_all

end Steps

/-- The loader walks the link graph of the bytes behind its stream. -/
theorem load_projects (target : Target) (str : BaseStream) :
    Projects (loadStep target) LoadState.Ended (Link target str) LoadState.node
      (LoadState.found str) (OnImage str) where
  keep u st inv :=
    ⟨sameImage_loadStep u inv.same, fun start => absurd start (loadStep_pc u inv)⟩
  stuck u st ended := loadStep_ended ended u
  sound u st inv running := by
    rw [Link, node_loadStep u target inv, LoadState.found]
    cases st.node.chunk str with
    | some x => exact ⟨u, rfl, rfl⟩
    | none => exact ⟨running, rfl, rfl⟩
  full st found w inv link := by
    have run (u : Uninit) := node_loadStep u target inv
    have ended : st.Ended → st.node.chunk str = none := by
      rintro (⟨accepted, pc⟩ | pc) <;> simp only [Node.chunk, LoadState.node, pc]
    unfold Link at link
    cases chunk : st.node.chunk str with
    | some x =>
      rw [chunk] at link
      obtain ⟨u, rfl, rfl⟩ := link
      refine ⟨fun stop => ?_, u, ?_, ?_⟩
      · rw [ended stop] at chunk
        cases chunk
      · rw [LoadState.found, chunk, Option.map_some]
      · rw [run, chunk]
    | none =>
      rw [chunk] at link
      obtain ⟨running, rfl, rfl⟩ := link
      exact ⟨running, default, by rw [LoadState.found, chunk, Option.map_none],
        by rw [run, chunk]⟩

/-! ### Termination -/

/-- The node at which a load begins. -/
def entryNode : Node := ⟨.start, 0, 0⟩

theorem onImage_entry (src : Source) : OnImage src.stream src.entry :=
  ⟨src.stream_at.sameImage, fun _ => rfl⟩

theorem load_ends_iff (target : Target) (src : Source) :
    Halts (loadStep target) LoadState.Ended src.entry ↔
      ¬ ReachesCycle (Link target src.stream) entryNode :=
  (load_projects target src.stream).halts_iff (onImage_entry src)

/-- A node at which an allocation has no `size_t` size. -/
def ReachesThrow (target : Target) (str : BaseStream) (v : Node) : Prop :=
  ∃ w, Relation.ReflTransGen (Edge (Link target str)) v w ∧ w.pc = .threw

/-- As far as its loops go, `Load3DScanModel` comes back, with a model or without one, whatever its
uninitialised memory holds, exactly when the links of the bytes reach no cycle and no allocation that throws. -/
theorem load_comes_back_iff (target : Target) (src : Source) :
    Halts (loadStep target) (fun st => ∃ accepted, st.pc = .returned accepted) src.entry ↔
      ¬ ReachesCycle (Link target src.stream) entryNode ∧
        ¬ ReachesThrow target src.stream entryNode := by
  have projects := load_projects target src.stream
  have inv := onImage_entry src
  have ends := load_ends_iff target src
  constructor
  · intro halts
    refine ⟨ends.mp fun input => ?_, ?_⟩
    · obtain ⟨n, returned⟩ := halts input
      exact ⟨n, Or.inl returned⟩
    · rintro ⟨w, path, threw⟩
      obtain ⟨memory, rfl⟩ := projects.exists_run inv path
      obtain ⟨n, accepted, returned⟩ := halts fun k => memory.getD k default
      have same := run_take_eq (m := n) (n := memory.length)
        (fun u => loadStep_ended (Or.inl ⟨accepted, returned⟩) u)
        (fun u => loadStep_ended (Or.inr (by rw [take_getD]; exact threw)) u)
      rw [same, take_getD] at returned
      have threw : (run (loadStep target) src.entry memory).pc = .threw := threw
      rw [threw] at returned
      cases returned
  · rintro ⟨acyclic, safe⟩ input
    obtain ⟨n, returned | threw⟩ := ends.mpr acyclic input
    · exact ⟨n, returned⟩
    · exact absurd ⟨_, projects.run_reaches inv _, threw⟩ safe

def loopFile : List UInt8 :=
  FileHeader.codec.enc { blank FileHeader.codec "SEYEDOF 3D FORMAT" with
    uiVersion := formatVersion
    iMaterialLibOfs := 46 } ++
  FileMaterial.codec.enc { blank FileMaterial.codec "MATERIAL" with iNextMaterialOfs := 46 }

theorem loopFile_length : loopFile.length = 366 := by decide +kernel

end ModelPublish.Scan
