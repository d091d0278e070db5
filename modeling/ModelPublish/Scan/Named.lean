import ModelPublish.Scan.Trace

/-!
# The materials that a file names

The links lead to the same structures whatever is made of them. The subsets of a loaded model are named as the
subset headers on the way say, and its materials are those of the material chunks.
-/

namespace ModelPublish.Scan
open Packed Container ModelPublish.Stream Machine

/-- A structure that a link led to: the node, its bytes as they were read, and what lies behind them. -/
structure Visit where
  node : Node
  bytes : List UInt8
  tail : List UInt8

/-- The structures on the way from a node. -/
def walk (target : Target) (str : BaseStream) : Node → List Uninit → List Visit
  | _, [] => []
  | v, u :: memory =>
    match v.chunk str with
    | some x => ⟨v, image x u, u.tail⟩ :: walk target str (v.next target (image x u)) memory
    | none => walk target str v.leave memory

/-- The material that a subset header names, unless it is turned away. -/
def Visit.usedMaterial (target : Target) (visit : Visit) : Option Name :=
  match visit.node.pc with
  | .subset _ _ =>
    let hdr := FileSubset.codec.dec visit.bytes
    if hdr.Passes target then some (nameAt FileSubset.codec hdr 10 visit.tail) else none
  | _ => none

/-- The name of a material chunk. -/
def Visit.givenMaterial (visit : Visit) : Option Name :=
  match visit.node.pc with
  | .material _ =>
    let hdr := FileMaterial.codec.dec visit.bytes
    if hdr.szSign.toList = ascii "MATERIAL" then some (nameAt FileMaterial.codec hdr 8 visit.tail) else none
  | _ => none

/-- The names in a model, and what the steps rely on. -/
structure Named (st : LoadState) (used given : List Name) : Prop where
  subsets : st.model.subsets.map TdModelSubset.sMatName = used
  materials : ∀ name, st.model.HasMaterial name ↔ name ∈ given
  keyed : st.model.Keyed
  fresh : st.pc = .start → used = [] ∧ given = []
  inPart : ∀ ofs back, st.pc = .subset ofs back → st.model.Parts ≠ []

theorem named_entry (src : Source) : Named src.entry [] [] where
  subsets := rfl
  materials _ := Iff.rfl
  keyed := nofun
  fresh _ := ⟨rfl, rfl⟩
  inPart := nofun

theorem pushSubset_subsets {parts : List TdModelPart} (some_part : parts ≠ []) (s : TdModelSubset) :
    (pushSubset parts s).flatMap TdModelPart.Subsets = parts.flatMap TdModelPart.Subsets ++ [s] ∧
      pushSubset parts s ≠ [] := by
  have whole := List.dropLast_append_getLast some_part
  rw [← whole, pushSubset, List.modifyLast_concat]
  refine ⟨?_, List.append_ne_nil_of_right_ne_nil _ (List.cons_ne_nil _ _)⟩
  simp only [List.flatMap_append, List.flatMap_singleton, List.append_assoc]

section Steps
variable {target : Target} {st : LoadState} {used given : List Name} (u : Uninit) (h : Named st used given)
include h

theorem Named.same {st' : LoadState} (model : st'.model = st.model) (begun : st'.pc ≠ .start)
    (outside : ∀ ofs back, st'.pc ≠ .subset ofs back) : Named st' used given where
  subsets := model ▸ h.subsets
  materials := model ▸ h.materials
  keyed := model ▸ h.keyed
  fresh start := absurd start begun
  inPart ofs back inside := absurd inside (outside ofs back)

theorem Named.reject (stream : BaseStream) (events : List LoadEvent) : Named (st.reject stream events) used given :=
  h.same rfl nofun nofun

theorem named_loadHeader (pc : st.pc = .start) : Named (loadHeader u st) used given := by
  obtain ⟨rfl, rfl⟩ := h.fresh pc
  unfold loadHeader
  dsimp only
  split
  · exact h.reject _ _
  · split
    · exact h.reject _ _
    · exact ⟨rfl, fun _ => Iff.rfl, nofun, nofun, nofun⟩

theorem named_loadPart (ofs : Int32) : Named (loadPart u ofs st) used given := by
  unfold loadPart
  dsimp only
  split
  · exact h.reject _ _
  · refine ⟨?_, h.materials, h.keyed, nofun, fun _ _ _ => List.append_ne_nil_of_right_ne_nil _ (List.cons_ne_nil _ _)⟩
    rw [← h.subsets, TdScanModel.subsets, TdScanModel.subsets, List.flatMap_append]
    exact congrArg _ (List.append_nil _)

theorem named_loadSubset (target : Target) (ofs back : Int32) (pc : st.pc = .subset ofs back) :
    Named (loadSubset target u ofs back st)
      (used ++ (Visit.usedMaterial target
        ⟨st.node, image (st.stream.seekTo ofs, FileSubset.codec.size) u, u.tail⟩).toList) given := by
  have at_pc : st.node.pc = _ := pc
  have hdr_eq : (readStruct FileSubset.codec (st.stream.seekTo ofs) u).1 =
      FileSubset.codec.dec (image (st.stream.seekTo ofs, FileSubset.codec.size) u) := rfl
  unfold Visit.usedMaterial loadSubset
  rw [at_pc]
  dsimp only
  rw [hdr_eq]
  split
  · rename_i sign
    rw [if_neg fun passes => sign passes.1]
    exact (List.append_nil used).symm ▸ h.reject _ _
  · rename_i sign
    split
    · rename_i checked
      rw [if_neg fun passes => checked passes.2.1]
      exact (List.append_nil used).symm ▸ h.reject _ _
    · rename_i checked
      split
      · rename_i large
        rw [if_neg fun passes => absurd passes.2.2 (Nat.not_lt.mpr large)]
        exact (List.append_nil used).symm ▸ h.same rfl nofun nofun
      · rename_i small
        have passes : (FileSubset.codec.dec (image (st.stream.seekTo ofs, FileSubset.codec.size) u)).Passes target :=
          ⟨not_not.mp sign, not_not.mp checked, Nat.not_le.mp small⟩
        rw [if_pos passes]
        obtain ⟨pushed, some_part⟩ := pushSubset_subsets (h.inPart ofs back pc) _
        refine ⟨?_, h.materials, h.keyed, nofun, fun _ _ _ => some_part⟩
        rw [← h.subsets, TdScanModel.subsets, pushed, List.map_append]
        rfl

theorem named_loadMaterial (ofs : Int32) (pc : st.pc = .material ofs) :
    Named (loadMaterial u ofs st) used
      (given ++ (Visit.givenMaterial
        ⟨st.node, image (st.stream.seekTo ofs, FileMaterial.codec.size) u, u.tail⟩).toList) := by
  have at_pc : st.node.pc = _ := pc
  have hdr_eq : (readStruct FileMaterial.codec (st.stream.seekTo ofs) u).1 =
      FileMaterial.codec.dec (image (st.stream.seekTo ofs, FileMaterial.codec.size) u) := rfl
  unfold Visit.givenMaterial loadMaterial
  rw [at_pc]
  dsimp only
  rw [hdr_eq, ite_not]
  by_cases sign : (FileMaterial.codec.dec (image (st.stream.seekTo ofs, FileMaterial.codec.size) u)).szSign.toList =
      ascii "MATERIAL"
  · rw [if_pos sign, if_pos sign]
    refine ⟨h.subsets, fun name => ?_, ?_, nofun, nofun⟩
    · have inserted := SortedMap.find?_insertMany_isSome st.model.Materials
        [((materialOf (FileMaterial.codec.dec (image (st.stream.seekTo ofs, FileMaterial.codec.size) u)) u.tail).sName,
          materialOf (FileMaterial.codec.dec (image (st.stream.seekTo ofs, FileMaterial.codec.size) u)) u.tail)] name
      rw [SortedMap.find?_isSome_iff, SortedMap.find?_isSome_iff] at inserted
      exact inserted.trans (by rw [List.mem_append, ← h.materials]; rfl)
    · intro e member
      obtain rfl | inside := SortedMap.insertEntry_subset _ _ _ e member
      · rfl
      · exact h.keyed e inside
  · rw [if_neg sign, if_neg sign]
    exact (List.append_nil given).symm ▸ h.reject _ _

theorem named_loadTexture (ofs : Int32) : Named (loadTexture u ofs st) used given := by
  unfold loadTexture
  dsimp only
  split
  · exact h.reject _ _
  · exact ⟨h.subsets, h.materials, h.keyed, nofun, nofun⟩

end Steps

/-! ### One step -/

/-- The structure that a step from a node reads. -/
def Node.visit (v : Node) (str : BaseStream) (u : Uninit) : Option Visit :=
  (v.chunk str).map fun x => ⟨v, image x u, u.tail⟩

/-- The names in a model once a structure has been read. -/
def Adds (target : Target) (visit : Option Visit) (used given : List Name) (st : LoadState) : Prop :=
  Named st (used ++ (visit.bind (Visit.usedMaterial target)).toList)
    (given ++ (visit.bind Visit.givenMaterial).toList)

section Adds
variable {target : Target} {st : LoadState} {used given : List Name}

theorem Named.adds_none (here : Named st used given) : Adds target none used given st := by
  rw [Adds, Option.bind_none, Option.bind_none, Option.toList_none, List.append_nil, List.append_nil]
  exact here

theorem Named.adds {visit : Visit} (here : Named st used given) (unused : visit.usedMaterial target = none)
    (missing : visit.givenMaterial = none) : Adds target (some visit) used given st := by
  rw [Adds, Option.bind_some, Option.bind_some, unused, missing, Option.toList_none, List.append_nil, List.append_nil]
  exact here

theorem adds_used {visit : Visit} (here : Named st (used ++ (visit.usedMaterial target).toList) given)
    (missing : visit.givenMaterial = none) : Adds target (some visit) used given st := by
  rw [Adds, Option.bind_some, Option.bind_some, missing, Option.toList_none, List.append_nil]
  exact here

theorem adds_given {visit : Visit} (here : Named st used (given ++ visit.givenMaterial.toList))
    (unused : visit.usedMaterial target = none) : Adds target (some visit) used given st := by
  rw [Adds, Option.bind_some, Option.bind_some, unused, Option.toList_none, List.append_nil]
  exact here

end Adds

section Nodes
variable (target : Target) {str : BaseStream} {st : LoadState} {used given : List Name} (u : Uninit)
  (inv : OnImage str st) (h : Named st used given) {ofs back : Int32}

theorem usedMaterial_of_pc {visit : Visit} (apart : ∀ ofs back, visit.node.pc ≠ .subset ofs back) :
    visit.usedMaterial target = none := by
  unfold Visit.usedMaterial
  split
  · rename_i ofs back pc
    exact absurd pc (apart ofs back)
  · rfl

theorem givenMaterial_of_pc {visit : Visit} (apart : ∀ ofs, visit.node.pc ≠ .material ofs) :
    visit.givenMaterial = none := by
  unfold Visit.givenMaterial
  split
  · rename_i ofs pc
    exact absurd pc (apart ofs)
  · rfl

include h

theorem adds_start (pc : st.pc = .start) :
    Adds target (st.node.visit str u) used given (loadStep target u st) := by
  have at_pc : st.node.pc = .start := pc
  rw [loadStep, pc, Node.visit, Node.chunk, at_pc]
  apply (named_loadHeader u h pc).adds
  · exact usedMaterial_of_pc target fun _ _ same => LoadPc.noConfusion (at_pc.symm.trans same)
  · exact givenMaterial_of_pc fun _ same => LoadPc.noConfusion (at_pc.symm.trans same)

theorem adds_part (pc : st.pc = .part ofs) :
    Adds target (st.node.visit str u) used given (loadStep target u st) := by
  have at_pc : st.node.pc = .part ofs := pc
  rw [loadStep, pc, Node.visit, Node.chunk, at_pc]
  dsimp only
  by_cases positive : 0 < ofs
  · rw [if_pos positive, if_pos positive, Option.map_some]
    apply (named_loadPart u h ofs).adds
    · exact usedMaterial_of_pc target fun _ _ same => LoadPc.noConfusion (at_pc.symm.trans same)
    · exact givenMaterial_of_pc fun _ same => LoadPc.noConfusion (at_pc.symm.trans same)
  · rw [if_neg positive, if_neg positive]
    apply Named.adds_none
    exact h.same rfl LoadPc.noConfusion fun _ _ => LoadPc.noConfusion

theorem adds_texture (pc : st.pc = .texture ofs) :
    Adds target (st.node.visit str u) used given (loadStep target u st) := by
  have at_pc : st.node.pc = .texture ofs := pc
  rw [loadStep, pc, Node.visit, Node.chunk, at_pc]
  dsimp only
  by_cases positive : 0 < ofs
  · rw [if_pos positive, if_pos positive, Option.map_some]
    apply (named_loadTexture u h ofs).adds
    · exact usedMaterial_of_pc target fun _ _ same => LoadPc.noConfusion (at_pc.symm.trans same)
    · exact givenMaterial_of_pc fun _ same => LoadPc.noConfusion (at_pc.symm.trans same)
  · rw [if_neg positive, if_neg positive]
    apply Named.adds_none
    exact h.same rfl LoadPc.noConfusion fun _ _ => LoadPc.noConfusion

include inv

theorem adds_subset (pc : st.pc = .subset ofs back) :
    Adds target (st.node.visit str u) used given (loadStep target u st) := by
  have at_pc : st.node.pc = .subset ofs back := pc
  rw [loadStep, pc, Node.visit, Node.chunk, at_pc]
  dsimp only
  by_cases positive : 0 < ofs
  · rw [if_pos positive, if_pos positive, Option.map_some]
    have here := named_loadSubset u h target ofs back pc
    rw [BaseStream.seekTo_congr inv.same positive] at here
    apply adds_used here
    exact givenMaterial_of_pc fun _ same => LoadPc.noConfusion (at_pc.symm.trans same)
  · rw [if_neg positive, if_neg positive]
    apply Named.adds_none
    exact h.same rfl LoadPc.noConfusion fun _ _ => LoadPc.noConfusion

theorem adds_material (pc : st.pc = .material ofs) :
    Adds target (st.node.visit str u) used given (loadStep target u st) := by
  have at_pc : st.node.pc = .material ofs := pc
  rw [loadStep, pc, Node.visit, Node.chunk, at_pc]
  dsimp only
  by_cases positive : 0 < ofs
  · rw [if_pos positive, if_pos positive, Option.map_some]
    have here := named_loadMaterial u h ofs pc
    rw [BaseStream.seekTo_congr inv.same positive] at here
    apply adds_given here
    exact usedMaterial_of_pc target fun _ _ same => LoadPc.noConfusion (at_pc.symm.trans same)
  · rw [if_neg positive, if_neg positive]
    apply Named.adds_none
    exact h.same rfl LoadPc.noConfusion fun _ _ => LoadPc.noConfusion

theorem named_loadStep : Adds target (st.node.visit str u) used given (loadStep target u st) := by
  cases pc : st.pc with
  | start => exact adds_start target u h pc
  | part ofs => exact adds_part target u h pc
  | subset ofs back => exact adds_subset target u inv h pc
  | material ofs => exact adds_material target u inv h pc
  | texture ofs => exact adds_texture target u h pc
  | returned accepted =>
    have at_pc : st.node.pc = .returned accepted := pc
    rw [loadStep, pc, Node.visit, Node.chunk, at_pc]
    exact h.adds_none
  | threw =>
    have at_pc : st.node.pc = .threw := pc
    rw [loadStep, pc, Node.visit, Node.chunk, at_pc]
    exact h.adds_none

end Nodes

theorem filterMap_cons_toList {α β : Type} (f : α → Option β) (a : α) (l : List α) :
    (a :: l).filterMap f = (f a).toList ++ l.filterMap f := by
  rw [List.filterMap_cons]
  cases f a <;> rfl

theorem named_run {target : Target} {str : BaseStream} {st : LoadState} {used given : List Name} (memory : List Uninit)
    (inv : OnImage str st) (h : Named st used given) :
    Named (run (loadStep target) st memory)
      (used ++ (walk target str st.node memory).filterMap (Visit.usedMaterial target))
      (given ++ (walk target str st.node memory).filterMap Visit.givenMaterial) := by
  induction memory generalizing st used given with
  | nil => simpa [walk] using h
  | cons u memory ih =>
    have next := node_loadStep u target inv
    have after := ih ((load_projects target str).keep u st inv) (named_loadStep target u inv h)
    rw [next] at after
    rw [walk]
    unfold Node.visit at after
    cases chunk : st.node.chunk str with
    | none =>
      rw [chunk] at after
      simpa using after
    | some x =>
      rw [chunk] at after
      simp only [Option.map_some, Option.bind_some, List.append_assoc] at after
      rw [filterMap_cons_toList, filterMap_cons_toList]
      exact after

theorem load_named (target : Target) (src : Source) (memory : List Uninit) :
    Named (load target src memory)
      ((walk target src.stream entryNode memory).filterMap (Visit.usedMaterial target))
      ((walk target src.stream entryNode memory).filterMap Visit.givenMaterial) :=
  named_run memory (onImage_entry src) (named_entry src)

end ModelPublish.Scan
