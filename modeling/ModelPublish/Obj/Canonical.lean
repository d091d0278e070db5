import ModelPublish.Obj.Statements

/-!
# Canonical texts

Blocks that begin with an `o` statement, and what is loaded of them: one part for each block, and in it a subset
for each `usemtl` statement.
-/

namespace ModelPublish.Obj
open Text Packed
open Scan (F32 Float3)

/-- A statement of a block, with the numbers that are written in it. -/
inductive Item where
  | v (numbers : Chars) (value : Float3)
  | vn (numbers : Chars) (value : Float3)
  | vt (numbers : Chars) (value : Uv)
  | usemtl (mtl : Named)
  | f (form : Form) (xs : List Vertex)
  deriving DecidableEq

/-- A `usemtl` statement with the faces up to the next one. -/
structure Run where
  mtl : Chars
  faces : List (Form × List Vertex)
  deriving DecidableEq

namespace Item

def statement : Item → Statement
  | v numbers _ => .v numbers
  | vn numbers _ => .vn numbers
  | vt numbers _ => .vt numbers
  | usemtl mtl => .usemtl mtl
  | f form xs => .f form xs 0

def face? : Item → Option (Form × List Vertex)
  | f form xs => some (form, xs)
  | _ => none

def isUsemtl : Item → Bool
  | usemtl _ => true
  | _ => false

/-- The faces before the first `usemtl` statement. -/
def facesBefore (items : List Item) : List (Form × List Vertex) :=
  (items.takeWhile fun item => !item.isUsemtl).filterMap face?

def runs : List Item → List Run
  | [] => []
  | usemtl mtl :: rest => ⟨mtl.name, facesBefore rest⟩ :: runs rest
  | _ :: rest => runs rest

/-- `sscanf` reads the numbers that are written. -/
def Reads (floats : Floats) : Item → Prop
  | v numbers value => floats.sscanf (numbers ++ [newline]) = [value.x, value.y, value.z]
  | vn numbers value => floats.sscanf (numbers ++ [newline]) = [value.x, value.y, value.z]
  | vt numbers value => ∃ more, floats.sscanf (space :: (numbers ++ [newline])) = value.u :: value.v :: more
  | _ => True

def position? : Item → Option Float3
  | v _ value => some value
  | _ => none

def normal? : Item → Option Float3
  | vn _ value => some value
  | _ => none

def coord? : Item → Option Uv
  | vt _ value => some value
  | _ => none

end Item

structure Block where
  part : Named
  items : List Item
  deriving DecidableEq

namespace Block

def statements (block : Block) : List Statement := .o block.part :: block.items.map Item.statement

def runs (block : Block) : List Run := Item.runs block.items

end Block

def statementsOf (blocks : List Block) : List Statement := blocks.flatMap Block.statements

def itemsOf (blocks : List Block) : List Item := blocks.flatMap Block.items

/-- Every line ends with a newline. -/
def canonicalText (blocks : List Block) : Chars := (statementsOf blocks).flatMap fun s => s.line ++ [newline]

theorem canonicalText_eq (blocks : List Block) : canonicalText blocks = textOf [newline] (statementsOf blocks) := by
  unfold canonicalText
  generalize statementsOf blocks = stmts
  induction stmts with
  | nil => rfl
  | cons s rest ih =>
    cases rest with
    | nil => exact List.append_nil _
    | cons s' rest =>
      rw [List.flatMap_cons, ih, textOf, List.append_assoc]
      rfl

theorem loadAll_newline (floats : Floats) (stmts : List Statement) (st : Loading) :
    loadAll floats [newline] stmts st = stmts.foldl (fun st s => s.load floats [newline] st) st := by
  induction stmts generalizing st with
  | nil => rfl
  | cons s rest ih =>
    cases rest with
    | nil => rfl
    | cons s' rest => exact ih _

/-! ### What is loaded -/

def MyDrawBatch.add (subset : MyDrawBatch) (face : Form × List Vertex) : MyDrawBatch :=
  { subset with
    faces := subset.faces ++ [face.1.face face.2]
    bHasUv := ((face.1.first face.2).map Components.hasTexCoords).or subset.bHasUv
    bHasNormal := ((face.1.first face.2).map Components.hasNormals).or subset.bHasNormal }

def MyDrawBatch.addAll (subset : MyDrawBatch) (faces : List (Form × List Vertex)) : MyDrawBatch :=
  faces.foldl MyDrawBatch.add subset

def Run.batch (run : Run) : MyDrawBatch := MyDrawBatch.addAll { sMatName := run.mtl } run.faces

namespace Loading
variable (floats : Floats)

def loadItems (items : List Item) (st : Loading) : Loading :=
  items.foldl (fun st item => item.statement.load floats [newline] st) st

/-- The parts that are made of parts with faces. -/
def parts (st : Loading) : List MyObjPart := st.subParts ++ [st.lastPart]

theorem load_f (form : Form) (xs : List Vertex) (blanks : Nat) (eol : Chars) (st : Loading) :
    (Statement.f form xs blanks).load floats eol st = { st with curSubset := st.curSubset.add (form, xs) } := by
  rw [Statement.load, MyDrawBatch.add]
  cases form.first xs with
  | none =>
    rw [Option.map_none, Option.none_or, Option.map_none, Option.none_or]
    rfl
  | some has => rfl

theorem lastPart_items (items : List Item) (st : Loading) :
    (loadItems floats items st).subParts = st.subParts ∧
      (loadItems floats items st).lastPart =
        { st.curPart with
          subSets := st.curPart.subSets ++ [st.curSubset.addAll (Item.facesBefore items)] ++
            (Item.runs items).map Run.batch } := by
  induction items generalizing st with
  | nil => exact ⟨rfl, congrArg (MyObjPart.mk _) (List.append_nil _).symm⟩
  | cons item rest ih =>
    obtain ⟨subParts, lastPart⟩ := ih (item.statement.load floats [newline] st)
    rw [loadItems, List.foldl_cons]
    refine ⟨subParts.trans ?_, lastPart.trans ?_⟩
    · cases item with
      | f form xs => rw [Item.statement, load_f]
      | _ => rfl
    · cases item with
      | f form xs =>
        rw [Item.statement, load_f]
        rfl
      | usemtl mtl =>
        apply congrArg (MyObjPart.mk _)
        show st.curPart.subSets ++ [st.curSubset] ++ [_] ++ _ = _
        rw [Item.runs, List.map_cons]
        simp only [List.append_assoc, List.cons_append, List.nil_append]
        rfl
      | _ => rfl

theorem cstr_item {s : Chars} (noNul : 0 ∉ s) : cstr (s ++ [newline]) = s ++ [newline] := by
  apply cstr_of_nulFree
  intro member
  rcases List.mem_append.mp member with inside | last
  · exact noNul inside
  · exact absurd (List.mem_singleton.mp last) (by decide)

theorem scan3_reads {numbers : Chars} {value : Float3} (noNul : 0 ∉ numbers)
    (reads : floats.sscanf (numbers ++ [newline]) = [value.x, value.y, value.z]) :
    scan3 floats (numbers ++ [newline]) = value := by
  rw [scan3, cstr_item noNul, reads]
  rfl

theorem scanUv_reads {numbers : Chars} {value : Uv} (noNul : 0 ∉ numbers)
    (reads : ∃ more, floats.sscanf (space :: (numbers ++ [newline])) = value.u :: value.v :: more) :
    scanUv floats (space :: (numbers ++ [newline])) = ⟨value.u, floats.oneMinus value.v⟩ := by
  obtain ⟨more, reads⟩ := reads
  have free : 0 ∉ space :: numbers := by
    intro member
    rcases List.mem_cons.mp member with same | among
    · exact absurd same (by decide)
    · exact noNul among
  have whole := cstr_item free
  rw [List.cons_append] at whole
  rw [scanUv, scan3, whole, reads]
  rfl

theorem lists_items {items : List Item} (wf : ∀ item ∈ items, item.statement.WellFormed)
    (reads : ∀ item ∈ items, item.Reads floats) (st : Loading) :
    (loadItems floats items st).vertices = st.vertices ++ items.filterMap Item.position? ∧
      (loadItems floats items st).normals = st.normals ++ items.filterMap Item.normal? ∧
      (loadItems floats items st).uvs =
        st.uvs ++ (items.filterMap Item.coord?).map fun uv => ⟨uv.u, floats.oneMinus uv.v⟩ := by
  induction items generalizing st with
  | nil => exact ⟨(List.append_nil _).symm, (List.append_nil _).symm, (List.append_nil _).symm⟩
  | cons item rest ih =>
    have noNul := (wf item List.mem_cons_self).noNul
    have read := reads item List.mem_cons_self
    obtain ⟨vertices, normals, uvs⟩ := ih (fun item member => wf item (List.mem_cons_of_mem _ member))
      (fun item member => reads item (List.mem_cons_of_mem _ member)) (item.statement.load floats [newline] st)
    rw [loadItems, List.foldl_cons]
    cases item with
    | v numbers value =>
      have same := scan3_reads floats (fun member => noNul (List.mem_append_right _ member)) read
      refine ⟨vertices.trans ?_, normals, uvs⟩
      show st.vertices ++ [scan3 floats (numbers ++ [newline])] ++ _ = _
      rw [same, List.append_assoc]
      rfl
    | vn numbers value =>
      have same := scan3_reads floats (fun member => noNul (List.mem_append_right _ member)) read
      refine ⟨vertices, normals.trans ?_, uvs⟩
      show st.normals ++ [scan3 floats (numbers ++ [newline])] ++ _ = _
      rw [same, List.append_assoc]
      rfl
    | vt numbers value =>
      have same := scanUv_reads floats (fun member => noNul (List.mem_append_right _ member)) read
      refine ⟨vertices, normals, uvs.trans ?_⟩
      show st.uvs ++ [scanUv floats (space :: (numbers ++ [newline]))] ++ _ = _
      rw [same, List.append_assoc]
      rfl
    | usemtl mtl => exact ⟨vertices, normals, uvs⟩
    | f form xs =>
      rw [Item.statement, load_f] at vertices normals uvs ⊢
      exact ⟨vertices, normals, uvs⟩

theorem block_loaded (block : Block) (st : Loading) :
    ∃ sMatName, (block.statements.foldl (fun st s => s.load floats [newline] st) st).parts =
      st.parts ++ [⟨block.part.name,
        MyDrawBatch.addAll { sMatName := sMatName } (Item.facesBefore block.items) :: block.runs.map Run.batch⟩] := by
  obtain ⟨subParts, lastPart⟩ := lastPart_items floats block.items (st.pushPart block.part.name)
  refine ⟨st.sCurMtl, ?_⟩
  rw [Block.statements, List.foldl_cons, List.foldl_map]
  show (loadItems floats block.items (st.pushPart block.part.name)).parts = _
  rw [parts, subParts, lastPart]
  rfl

end Loading

/-- The values of a text, as they are written. -/
structure Values where
  v : List Float3
  vn : List Float3
  vt : List Uv

def valuesOf (blocks : List Block) : Values where
  v := (itemsOf blocks).filterMap Item.position?
  vn := (itemsOf blocks).filterMap Item.normal?
  vt := (itemsOf blocks).filterMap Item.coord?

/-- A part of which only the subsets with faces are kept. -/
def MyObjPart.live (part : MyObjPart) : MyObjPart :=
  { part with subSets := part.subSets.filter fun subset => subset.faces ≠ [] }

def Block.live (block : Block) : MyObjPart :=
  ⟨block.part.name, (block.runs.map Run.batch).filter fun subset => subset.faces ≠ []⟩

/-- All statements of the text are well formed, and no face comes before the first material of its block. -/
structure Loads (floats : Floats) (blocks : List Block) : Prop where
  wellFormed : ∀ s ∈ statementsOf blocks, s.WellFormed
  reads : ∀ item ∈ itemsOf blocks, item.Reads floats
  material : ∀ block ∈ blocks, Item.facesBefore block.items = []

section Text
variable {floats : Floats}

theorem Loads.tail {block : Block} {blocks : List Block} (loads : Loads floats (block :: blocks)) :
    Loads floats blocks := by
  refine ⟨?_, ?_, ?_⟩
  · intro s member
    exact loads.wellFormed s (List.mem_append_right _ member)
  · intro item member
    exact loads.reads item (List.mem_append_right _ member)
  · intro other member
    exact loads.material other (List.mem_cons_of_mem _ member)

/-- What is loaded of the blocks, behind what there is before. -/
structure After (floats : Floats) (blocks : List Block) (st st' : Loading) : Prop where
  parts : st'.parts.map MyObjPart.live = st.parts.map MyObjPart.live ++ blocks.map Block.live
  vertices : st'.vertices = st.vertices ++ (valuesOf blocks).v
  normals : st'.normals = st.normals ++ (valuesOf blocks).vn
  uvs : st'.uvs = st.uvs ++ (valuesOf blocks).vt.map fun uv => ⟨uv.u, floats.oneMinus uv.v⟩

theorem after_blocks {blocks : List Block} (loads : Loads floats blocks) (st : Loading) :
    After floats blocks st ((statementsOf blocks).foldl (fun st s => s.load floats [newline] st) st) := by
  induction blocks generalizing st with
  | nil =>
    refine ⟨?_, ?_, ?_, ?_⟩
    all_goals exact (List.append_nil _).symm
  | cons block blocks ih =>
    have wf : ∀ item ∈ block.items, item.statement.WellFormed := by
      intro item member
      apply loads.wellFormed
      apply List.mem_append_left
      exact List.mem_cons_of_mem _ (List.mem_map_of_mem member)
    have reads : ∀ item ∈ block.items, item.Reads floats := by
      intro item member
      exact loads.reads item (List.mem_append_left _ member)
    obtain ⟨sMatName, parts⟩ := Loading.block_loaded floats block st
    obtain ⟨vertices, normals, uvs⟩ := Loading.lists_items floats wf reads (st.pushPart block.part.name)
    have lists : block.statements.foldl (fun st s => s.load floats [newline] st) st =
        Loading.loadItems floats block.items (st.pushPart block.part.name) := by
      rw [Block.statements, List.foldl_cons, List.foldl_map]
      rfl
    have rest := ih loads.tail (block.statements.foldl (fun st s => s.load floats [newline] st) st)
    rw [statementsOf, List.flatMap_cons, List.foldl_append]
    refine ⟨?_, ?_, ?_, ?_⟩
    · have none := loads.material block List.mem_cons_self
      apply rest.parts.trans
      rw [parts, none, List.map_append, List.append_assoc]
      rfl
    · apply rest.vertices.trans
      rw [lists, vertices, List.append_assoc]
      exact congrArg _ (List.filterMap_append ..).symm
    · apply rest.normals.trans
      rw [lists, normals, List.append_assoc]
      exact congrArg _ (List.filterMap_append ..).symm
    · apply rest.uvs.trans
      rw [lists, uvs, List.append_assoc, ← List.map_append]
      exact congrArg (fun coords => _ ++ List.map _ coords) (List.filterMap_append ..).symm

/-- A canonical text is loaded as it is written, but for subsets without faces. -/
theorem loadText_canonical (stack : Nat → UInt8) {blocks : List Block} (loads : Loads floats blocks) :
    ∃ obj, (loadText floats stack (canonicalText blocks)).map Loading.obj = some obj ∧
      obj.subParts.map MyObjPart.live = ⟨chars "All", []⟩ :: blocks.map Block.live ∧
      obj.vertices = (valuesOf blocks).v ∧ obj.normals = (valuesOf blocks).vn ∧
      obj.uvs = (valuesOf blocks).vt.map fun uv => ⟨uv.u, floats.oneMinus uv.v⟩ := by
  obtain ⟨buffer, loaded⟩ := loadText_textOf floats stack (.inr (rfl : [newline] = [newline])) loads.wellFormed
  have after := after_blocks loads (.initial [])
  rw [← loadAll_newline] at after
  rw [canonicalText_eq, loaded]
  exact ⟨_, rfl, after.parts, after.vertices, after.normals, after.uvs⟩

end Text

end ModelPublish.Obj
