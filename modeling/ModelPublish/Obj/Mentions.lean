import ModelPublish.D3d.Resolve
import ModelPublish.Obj.Materials
import ModelPublish.Obj.Range

/-!
# Materials that a text mentions

The materials of the face statements of an OBJ text and those that its library has. The converter keeps what is
in both, and every subset it keeps has a face.
-/

namespace ModelPublish.Obj
open Text Packed Scan Container

/-! ### The texts -/

/-- What the lines read so far say about materials. -/
structure Mentions where
  /-- of the subset that the next face goes to -/
  current : Chars := []
  curMtl : Chars := defaultMtrl
  library : Chars := []
  /-- of the faces -/
  used : List Chars := []

/-- The word behind a keyword of seven characters. -/
def wordBehind (buffer : Chars) : Chars := (word (cstr (buffer.drop 7))).getD []

def Mentions.read (said : Mentions) (buffer : Chars) : Mentions :=
  if startsWith "v " buffer then said
  else if startsWith "vn " buffer then said
  else if startsWith "vt " buffer then said
  else if startsWith "f " buffer then { said with used := said.used ++ [said.current] }
  else if startsWith "o " buffer then { said with current := said.curMtl }
  else if startsWith "g " buffer then { said with current := said.curMtl }
  else if startsWithAnyCase "usemtl " buffer then
    { said with curMtl := wordBehind buffer, current := wordBehind buffer }
  else if startsWithAnyCase "mtllib " buffer then { said with library := wordBehind buffer }
  else said

def mentions (stack : Nat → UInt8) (text : Chars) : Mentions := (textBuffers stack text).foldl Mentions.read {}

/-- The materials that the lines of a library begin. -/
def newmtls : Chars → List Chars → List Chars
  | _, [] => []
  | buffer, line :: read =>
    let buffer := skipBlanks lineBuffSize (overlay buffer (line ++ [0]))
    if startsWith "newmtl " buffer then wordBehind buffer :: newmtls buffer read else newmtls buffer read

def libraryNames (stack : Nat → UInt8) (text : Option Chars) : List Chars :=
  match text with
  | some text => newmtls (cells stack lineBuffSize) (lines (lineBuffSize - 1) text)
  | none => []

def besides (sFileName library : Chars) : Option Chars :=
  let n := pathFromFileName sFileName
  if n < 0 then none else some (sFileName.take n.toNat ++ library.take (maxPath - n.toNat - 1))

section Disk
variable (disk : Disk) (stack : Stacks) (sFileName : Chars)

def objMentions : Mentions :=
  match disk.text sFileName with
  | some text => mentions stack.obj text
  | none => {}

/-- The materials of a library, which may lie next to the OBJ file. -/
def namesOf (library : Chars) : List Chars :=
  if library = [] then []
  else
    match disk.text library with
    | some text => libraryNames stack.mtl (some text)
    | none => libraryNames stack.mtl' ((besides sFileName library).bind disk.text)

/-- The materials of the library that an OBJ file names. -/
def givenMaterials : List Chars := namesOf disk stack sFileName (objMentions disk stack sFileName).library

end Disk

/-! ### The lines of an object -/

namespace Loading
variable {floats : Floats} {st st' : Loading} {said : Mentions}

/-- What has been loaded agrees with what the lines said. -/
structure Agrees (st : Loading) (said : Mentions) : Prop where
  current : said.current = st.curSubset.sMatName
  curMtl : said.curMtl = st.sCurMtl
  library : said.library = st.sMtrlFilename
  used : ∀ name, name ∈ said.used ↔ ∃ subset ∈ st.obj.subsets, subset.faces ≠ [] ∧ subset.sMatName = name

theorem scanName_eq {s w : Chars} (scanned : scanName s = some w) : (word (cstr s)).getD [] = w := by
  unfold scanName at scanned
  split at scanned
  · rename_i found
    split at scanned
    · cases scanned
      rw [found]
      rfl
    · cases scanned
  · cases scanned

theorem Agrees.opens (agrees : st.Agrees said) (opens : Opens st st') {current curMtl library : Chars}
    (same : current = st'.curSubset.sMatName) (same' : curMtl = st'.sCurMtl) (file : library = st'.sMtrlFilename) :
    st'.Agrees ⟨current, curMtl, library, said.used⟩ := by
  refine ⟨same, same', file, fun name => ?_⟩
  have empty : st'.curSubset.faces = [] := List.forall₂_nil_right_iff.mp opens.empty.faces
  rw [agrees.used, subsets_obj, subsets_obj, opens.closed]
  constructor
  · rintro ⟨subset, member, rest⟩
    exact ⟨subset, List.mem_append_left _ member, rest⟩
  · rintro ⟨subset, member, faces, rest⟩
    obtain inside | here := List.mem_append.mp member
    · exact ⟨subset, inside, faces, rest⟩
    · obtain rfl := List.mem_singleton.mp here
      exact absurd empty faces

theorem Agrees.face (agrees : st.Agrees said) (first : Option Components) (face : MyFace) :
    ((st.inspect first).pushFace face).Agrees { said with used := said.used ++ [said.current] } := by
  have closed : ((st.inspect first).pushFace face).closed = st.closed := by cases first <;> rfl
  have faces : ((st.inspect first).pushFace face).curSubset.faces ≠ [] := by
    rw [pushFace_faces]
    exact List.append_ne_nil_of_right_ne_nil _ (List.cons_ne_nil _ _)
  have name : ((st.inspect first).pushFace face).curSubset.sMatName = st.curSubset.sMatName := by cases first <;> rfl
  refine ⟨agrees.current.trans name.symm, ?_, ?_, fun other => ?_⟩
  · rw [agrees.curMtl]
    cases first <;> rfl
  · rw [agrees.library]
    cases first <;> rfl
  · have before := agrees.used other
    rw [subsets_obj] at before
    rw [subsets_obj, closed, List.mem_append, before, List.mem_singleton, agrees.current, ← name]
    constructor
    · rintro (⟨subset, member, some_face, same⟩ | rfl)
      · obtain inside | here := List.mem_append.mp member
        · exact ⟨subset, List.mem_append_left _ inside, some_face, same⟩
        · obtain rfl := List.mem_singleton.mp here
          exact ⟨_, List.mem_append_right _ List.mem_cons_self, faces, name.trans same⟩
      · exact ⟨_, List.mem_append_right _ List.mem_cons_self, faces, rfl⟩
    · rintro ⟨subset, member, some_face, same⟩
      obtain inside | here := List.mem_append.mp member
      · exact .inl ⟨subset, List.mem_append_left _ inside, some_face, same⟩
      · obtain rfl := List.mem_singleton.mp here
        exact .inr same.symm

theorem read_eq (said : Mentions) (buffer : Chars) : said.read buffer =
    match keyword buffer with
    | .f => { said with used := said.used ++ [said.current] }
    | .o | .g => { said with current := said.curMtl }
    | .usemtl => { said with curMtl := wordBehind buffer, current := wordBehind buffer }
    | .mtllib => { said with library := wordBehind buffer }
    | .v | .vn | .vt | .other => said := by
  unfold Mentions.read keyword
  split_ifs <;> rfl

theorem statement_agrees (h : st.statement floats = some st') (agrees : st.Agrees said) :
    st'.Agrees (said.read st.buffer) := by
  rw [statement_eq] at h
  rw [read_eq]
  generalize keyword st.buffer = word at h ⊢
  cases word with
  | v =>
    cases h
    exact ⟨agrees.current, agrees.curMtl, agrees.library, agrees.used⟩
  | vn =>
    cases h
    exact ⟨agrees.current, agrees.curMtl, agrees.library, agrees.used⟩
  | vt =>
    cases h
    exact ⟨agrees.current, agrees.curMtl, agrees.library, agrees.used⟩
  | f =>
    rw [readFace_eq] at h
    obtain ⟨corners, -, rfl⟩ := Option.map_eq_some_iff.mp h
    exact agrees.face _ _
  | o =>
    obtain ⟨name, -, rfl⟩ := Option.map_eq_some_iff.mp h
    exact agrees.opens (opens_pushPart st name) agrees.curMtl agrees.curMtl agrees.library
  | g =>
    obtain ⟨-, pushed⟩ := Option.ite_none_right_eq_some.mp h
    cases pushed
    exact agrees.opens (opens_pushSubset st _) agrees.curMtl agrees.curMtl agrees.library
  | usemtl =>
    obtain ⟨name, scanned, rfl⟩ := Option.map_eq_some_iff.mp h
    have here := scanName_eq scanned
    obtain ⟨closed, empty, buffer, vertices, normals, uvs⟩ := opens_pushSubset { st with sCurMtl := name } name
    exact agrees.opens ⟨closed, empty, buffer, vertices, normals, uvs⟩ here here agrees.library
  | mtllib =>
    obtain ⟨file, scanned, rfl⟩ := Option.map_eq_some_iff.mp h
    exact ⟨agrees.current, agrees.curMtl, scanName_eq scanned, agrees.used⟩
  | other =>
    cases h
    exact agrees

theorem loadLines_agrees {read : List Chars} (h : st.loadLines floats read = some st') (agrees : st.Agrees said) :
    st'.Agrees ((buffers st.buffer read).foldl Mentions.read said) := by
  induction read generalizing st said with
  | nil =>
    obtain rfl : st = st' := Option.some.inj h
    exact agrees
  | cons line read ih =>
    obtain ⟨next, here, rest⟩ := Option.bind_eq_some_iff.mp h
    have buffer : next.buffer = overlay st.buffer (line ++ [0]) := (does_entries (statement_does here)).1
    have filled : (st.fill line).Agrees said := ⟨agrees.current, agrees.curMtl, agrees.library, agrees.used⟩
    have after := ih rest (statement_agrees here filled)
    rw [buffer] at after
    exact after

theorem initial_agrees (buffer : Chars) : (Loading.initial buffer).Agrees {} := by
  refine ⟨rfl, rfl, rfl, fun name => iff_of_false List.not_mem_nil ?_⟩
  rintro ⟨subset, member, some_face, -⟩
  obtain rfl := List.mem_singleton.mp member
  exact some_face rfl

end Loading

theorem agrees_of_initial {floats : Floats} {buffer : Chars} {read : List Chars} {st : Loading}
    (h : (Loading.initial buffer).loadLines floats read = some st) :
    st.Agrees ((buffers buffer read).foldl Mentions.read {}) :=
  Loading.loadLines_agrees h (Loading.initial_agrees buffer)

theorem loadText_agrees {floats : Floats} {stack : Nat → UInt8} {text : Chars} {st : Loading}
    (loaded : loadText floats stack text = some st) : st.Agrees (mentions stack text) :=
  agrees_of_initial loaded

/-! ### The lines of a library -/

/-- A result that has kept its name, if there is one. -/
def KeepsName (sName : Chars) (result : Option MyMtl) : Prop := ∀ mtl ∈ result, mtl.sName = sName

theorem keepsName_ite {sName : Chars} {c : Prop} [Decidable c] {a b : Option MyMtl} (first : KeepsName sName a)
    (rest : KeepsName sName b) : KeepsName sName (if c then a else b) := by
  split
  · exact first
  · exact rest

theorem keepsName_some {sName : Chars} {mtl : MyMtl} (same : mtl.sName = sName) : KeepsName sName (some mtl) := by
  rintro _ ⟨⟩
  exact same

theorem keepsName_map {α : Type} {sName : Chars} {read : Option α} {set : α → MyMtl}
    (same : ∀ x, (set x).sName = sName) :
    KeepsName sName (read.map set) := by
  intro mtl made
  obtain ⟨x, -, rfl⟩ := Option.map_eq_some_iff.mp made
  exact same x

theorem property_sName (floats : MtlFloats) (buffer : Chars) (mtl : MyMtl) :
    KeepsName mtl.sName (property floats buffer mtl) := by
  unfold property mapStatement
  repeat' apply keepsName_ite
  all_goals first
    | exact keepsName_some rfl
    | exact keepsName_map fun _ => rfl
    | exact nofun

theorem settle_sName (mtl : MyMtl) : mtl.settle.sName = mtl.sName := by
  unfold MyMtl.settle
  split <;> rfl

namespace MtlLoading
variable {floats : MtlFloats} {st st' : MtlLoading}

def names (st : MtlLoading) : List Chars := st.all.map MyMtl.sName

theorem names_some {mtl : MyMtl} (buffer : Chars) (materials : List MyMtl) :
    names ⟨buffer, materials, some mtl⟩ = materials.map MyMtl.sName ++ [mtl.sName] := List.map_append

theorem statement_names (h : st.statement floats = some st') : st'.buffer = st.buffer ∧
    st'.names = st.names ++ if startsWith "newmtl " st.buffer then [wordBehind st.buffer] else [] := by
  unfold statement at h
  split at h
  · rename_i newmtl
    obtain ⟨name, scanned, h⟩ := Option.bind_eq_some_iff.mp h
    cases h
    refine ⟨rfl, ?_⟩
    rw [names_some, settle_sName, if_pos newmtl]
    exact congrArg (st.names ++ [·]) (Loading.scanName_eq scanned).symm
  · rename_i other
    rw [if_neg other, List.append_nil]
    obtain ⟨buffer, materials, pMat⟩ := st
    cases pMat with
    | none =>
      obtain rfl := Option.some.inj h
      exact ⟨rfl, rfl⟩
    | some mtl =>
      obtain ⟨mtl', changed, rfl⟩ := Option.map_eq_some_iff.mp h
      refine ⟨rfl, ?_⟩
      rw [names_some, names_some, settle_sName, property_sName floats buffer mtl mtl' changed]

theorem loadLines_names {read : List Chars} (h : st.loadLines floats read = some st') :
    st'.names = st.names ++ newmtls st.buffer read := by
  induction read generalizing st with
  | nil =>
    obtain rfl : st = st' := Option.some.inj h
    exact (List.append_nil _).symm
  | cons line read ih =>
    obtain ⟨next, here, rest⟩ := Option.bind_eq_some_iff.mp h
    obtain ⟨buffer, names⟩ := statement_names here
    have filled : (st.fill line).names = st.names := rfl
    have line' : (st.fill line).buffer = skipBlanks lineBuffSize (overlay st.buffer (line ++ [0])) := rfl
    rw [ih rest, names, buffer, filled, line', List.append_assoc, newmtls]
    split <;> rfl

end MtlLoading

section Library
variable {disk : Disk} {floats : MtlFloats}

theorem newmtls_of_lines {buffer : Chars} {read : List Chars} {st : MtlLoading}
    (h : MtlLoading.loadLines floats ⟨buffer, [], none⟩ read = some st) :
    st.all.map MyMtl.sName = newmtls buffer read := MtlLoading.loadLines_names h

theorem loadMtlLib2_names {stack : Nat → UInt8} {sFileName : Chars} {found : Int} {materials : List MyMtl}
    (h : loadMtlLib2 disk floats stack sFileName [] = some (found, materials)) :
    (0 < found ↔ (disk.text sFileName).isSome) ∧
      materials.map MyMtl.sName = libraryNames stack (disk.text sFileName) := by
  unfold loadMtlLib2 at h
  cases opened : disk.text sFileName with
  | none =>
    rw [opened] at h
    cases h
    exact ⟨iff_of_false (by decide) nofun, rfl⟩
  | some text =>
    rw [opened] at h
    obtain ⟨st, read, h⟩ := Option.bind_eq_some_iff.mp h
    cases h
    exact ⟨iff_of_true (by decide) rfl, newmtls_of_lines read⟩

theorem loadLibrary_names {stack : Stacks} {sFileName : Chars} {obj : MyObj} {result : Int × LoadedObj}
    (h : loadLibrary disk floats stack sFileName obj = some result) : result.2.toMyObj = obj ∧
      result.2.materials.map MyMtl.sName = namesOf disk stack sFileName obj.sMtrlFilename := by
  unfold loadLibrary at h
  unfold namesOf
  split at h
  · rename_i none
    cases h
    exact ⟨rfl, (if_pos none).symm⟩
  · rename_i named
    rw [if_neg named]
    obtain ⟨⟨found, materials⟩, first, h⟩ := Option.bind_eq_some_iff.mp h
    obtain ⟨opened, names⟩ := loadMtlLib2_names first
    cases there : disk.text obj.sMtrlFilename with
    | some text =>
      rw [there] at opened names
      have positive : 0 < found := opened.mpr rfl
      dsimp only at h
      rw [if_pos positive] at h
      cases h
      exact ⟨rfl, names⟩
    | none =>
      rw [there] at opened names
      have missing : ¬ 0 < found := fun positive => absurd (opened.mp positive) nofun
      have empty : materials = [] := List.map_eq_nil_iff.mp names
      dsimp only at h
      rw [if_neg missing, empty] at h
      unfold besides
      dsimp only
      split at h
      · rename_i noPath
        rw [if_pos noPath]
        cases h
        exact ⟨rfl, rfl⟩
      · rename_i path
        rw [if_neg path]
        split at h
        · cases h
        · obtain ⟨⟨found', materials'⟩, second, h⟩ := Option.bind_eq_some_iff.mp h
          obtain ⟨-, names'⟩ := loadMtlLib2_names second
          cases h
          exact ⟨rfl, names'⟩

end Library

/-! ### The conversion -/

theorem convertSubset_name {floats : Floats} {obj : MyObj} {objsub : MyDrawBatch} {subset : TdModelSubset}
    (h : convertSubset floats obj objsub = some subset) : subset.sMatName = objsub.sMatName := by
  unfold convertSubset at h
  obtain ⟨written, -, h⟩ := Option.bind_eq_some_iff.mp h
  dsimp only at h
  split at h
  · cases h
  · cases h
    rfl

theorem convertParts_names {floats : Floats} {obj : MyObj} {parts : List TdModelPart}
    (h : convertParts floats obj = some parts) (name : Chars) :
    (∃ part ∈ parts, ∃ s ∈ part.Subsets, s.sMatName = name) ↔
      ∃ subset ∈ obj.subsets, subset.faces ≠ [] ∧ subset.sMatName = name := by
  obtain ⟨converted, walked, h⟩ := Option.bind_eq_some_iff.mp h
  cases h
  have each : ∀ objpart (part : TdModelPart), convertPart floats obj objpart = some part →
      ((∃ subset ∈ objpart.subSets, subset.faces ≠ [] ∧ subset.sMatName = name) ↔
        ∃ s ∈ part.Subsets, s.sMatName = name) := by
    intro objpart part here
    obtain ⟨subsets, walked, here⟩ := Option.bind_eq_some_iff.mp here
    cases here
    have pairs := mapM_forall₂ walked
    have none := forall₂_forall_iff (P := fun subset : MyDrawBatch => subset.sMatName ≠ name)
      (Q := fun s : TdModelSubset => s.sMatName ≠ name) pairs fun subset s made => by
        rw [convertSubset_name made]
    have exist := not_congr none
    simp only [not_forall, not_not, exists_prop, List.mem_filter, decide_eq_true_eq] at exist
    rw [← exist]
    simp only [and_assoc]
  have pairs := mapM_forall₂ walked
  have none := not_congr (forall₂_forall_iff
    (P := fun objpart : MyObjPart => ¬ ∃ subset ∈ objpart.subSets, subset.faces ≠ [] ∧ subset.sMatName = name)
    (Q := fun part : TdModelPart => ¬ ∃ s ∈ part.Subsets, s.sMatName = name) pairs
    fun objpart part here => not_congr (each objpart part here))
  simp only [not_forall, not_not, exists_prop] at none
  have kept : (∃ part ∈ converted.filter fun part => part.Subsets ≠ [], ∃ s ∈ part.Subsets, s.sMatName = name) ↔
      ∃ part ∈ converted, ∃ s ∈ part.Subsets, s.sMatName = name := by
    constructor
    · rintro ⟨part, member, rest⟩
      exact ⟨part, (List.mem_filter.mp member).1, rest⟩
    · rintro ⟨part, member, s, inside, rest⟩
      have some_subset : part.Subsets ≠ [] := List.ne_nil_of_mem inside
      exact ⟨part, List.mem_filter.mpr ⟨member, decide_eq_true some_subset⟩, s, inside, rest⟩
  refine kept.trans (none.symm.trans ?_)
  unfold MyObj.subsets
  simp only [List.mem_flatMap]
  constructor
  · rintro ⟨part, member, subset, inside, rest⟩
    exact ⟨subset, ⟨part, member, inside⟩, rest⟩
  · rintro ⟨subset, ⟨part, member, inside⟩, rest⟩
    exact ⟨part, member, subset, inside, rest⟩

theorem bFound_iff (parts : List TdModelPart) (sName : Name) :
    bFound parts sName = true ↔ ∃ part ∈ parts, ∃ s ∈ part.Subsets, s.sMatName = sName := by
  unfold bFound
  simp only [List.any_eq_true, decide_eq_true_eq, eq_comm (a := sName)]

theorem mem_convertMaterials {floats : Floats} {parts : List TdModelPart} {materials : List MyMtl} (name : Name) :
    name ∈ (convertMaterials floats parts materials).entries.map Prod.fst ↔
      name ∈ materials.map MyMtl.sName ∧ bFound parts name = true := by
  unfold convertMaterials
  rw [← SortedMap.find?_isSome_iff, SortedMap.find?_insertMany_isSome, SortedMap.find?_empty]
  simp only [List.map_map, List.mem_map, List.mem_filter, Function.comp_apply]
  constructor
  · rintro (none | ⟨_, ⟨⟨mtl, member, rfl⟩, found⟩, rfl⟩)
    · cases none
    · exact ⟨⟨mtl, member, rfl⟩, found⟩
  · rintro ⟨⟨mtl, member, rfl⟩, found⟩
    exact .inr ⟨_, ⟨⟨mtl, member, rfl⟩, found⟩, rfl⟩

theorem convertMaterials_keyed {floats : Floats} {parts : List TdModelPart} {materials : List MyMtl} :
    ∀ e ∈ (convertMaterials floats parts materials).entries, e.2.sName = e.1 := by
  intro e member
  obtain none | made := SortedMap.mem_insertMany member
  · cases none
  · obtain ⟨mtrl, -, rfl⟩ := List.mem_map.mp made
    rfl

/-- The subsets of an imported model name the materials of the faces, and its materials are those of them that the
library has. -/
theorem importObj_materials {disk : Disk} {floats : MtlFloats} {stack : Stacks} {memory : NewModel} {sFileName : Chars}
    {model : TdScanModel} (imported : importObj disk floats stack memory sFileName = some model) :
    model.Keyed ∧ (∀ name, (∃ s ∈ model.subsets, s.sMatName = name) ↔ name ∈ (objMentions disk stack sFileName).used) ∧
      ∀ name, model.HasMaterial name ↔
        name ∈ givenMaterials disk stack sFileName ∧ name ∈ (objMentions disk stack sFileName).used := by
  obtain ⟨⟨result, obj⟩, loaded, converted⟩ := Option.bind_eq_some_iff.mp imported
  obtain ⟨parts, kept, converted⟩ := Option.bind_eq_some_iff.mp converted
  cases converted
  have agree : (∀ name, name ∈ (objMentions disk stack sFileName).used ↔
      ∃ subset ∈ obj.subsets, subset.faces ≠ [] ∧ subset.sMatName = name) ∧
        obj.materials.map MyMtl.sName = givenMaterials disk stack sFileName := by
    unfold loadObj2 at loaded
    unfold givenMaterials objMentions
    cases opened : disk.text sFileName with
    | none =>
      rw [opened] at loaded
      cases loaded
      exact ⟨fun name => iff_of_false List.not_mem_nil nofun, rfl⟩
    | some text =>
      rw [opened] at loaded
      obtain ⟨st, read, found⟩ := Option.bind_eq_some_iff.mp loaded
      obtain ⟨same, names⟩ := loadLibrary_names found
      have agrees := loadText_agrees read
      dsimp only at same names ⊢
      rw [agrees.library, names, same]
      exact ⟨agrees.used, rfl⟩
  obtain ⟨used, given⟩ := agree
  have subsets : ∀ name, (∃ s ∈ parts.flatMap TdModelPart.Subsets, s.sMatName = name) ↔
      name ∈ (objMentions disk stack sFileName).used := by
    intro name
    rw [used, ← convertParts_names kept]
    simp only [List.mem_flatMap]
    constructor
    · rintro ⟨s, ⟨part, member, inside⟩, same⟩
      exact ⟨part, member, s, inside, same⟩
    · rintro ⟨part, member, s, inside, same⟩
      exact ⟨s, ⟨part, member, inside⟩, same⟩
  refine ⟨convertMaterials_keyed, subsets, fun name => ?_⟩
  have parts_used := (bFound_iff parts name).trans ((convertParts_names kept name).trans (used name).symm)
  exact (mem_convertMaterials name).trans (and_congr (by rw [given]) parts_used)

end ModelPublish.Obj
