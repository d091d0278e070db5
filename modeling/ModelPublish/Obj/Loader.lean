import ModelPublish.Obj.Face
import ModelPublish.Scan.Format

/-!
# LoadObj2

The statements of an OBJ text, one line of the buffer after the other. `cur_part` and `cur_subset`
point to the last part and to its last subset: both are set again after every `push_back`.
-/

namespace ModelPublish.Obj
open Text Packed
open Scan (F32 Float3)

structure Uv where
  u : F32
  v : F32
  deriving DecidableEq, Inhabited

/-- The constructor leaves the flags as they are in memory. -/
structure MyDrawBatch where
  faces : List MyFace := []
  sMatName : Chars := []
  bHasNormal : Option Bool := none
  bHasUv : Option Bool := none
  deriving DecidableEq

/-- What the flags say, as far as they have been set. -/
def MyDrawBatch.has (subset : MyDrawBatch) : Components :=
  ⟨subset.bHasUv.getD false, subset.bHasNormal.getD false⟩

structure MyObjPart where
  sName : Chars := chars "All"
  subSets : List MyDrawBatch := []
  deriving DecidableEq

structure MyObj where
  subParts : List MyObjPart
  vertices : List Float3
  normals : List Float3
  uvs : List Uv
  sMtrlFilename : Chars
  deriving DecidableEq

/-- Numbers in text, and the arithmetic on them. -/
structure Floats where
  /-- What `"%f %f %f"` reads of a text, at most three numbers. -/
  sscanf : Chars → List F32
  /-- What the variables hold that are not read. -/
  stale : Nat → F32
  oneMinus : F32 → F32
  neg : F32 → F32

/-- `subParts` without its last part, and that part without its last subset. -/
structure Loading where
  buffer : Chars
  subParts : List MyObjPart
  curPart : MyObjPart
  curSubset : MyDrawBatch
  sCurMtl : Chars
  vertices : List Float3
  normals : List Float3
  uvs : List Uv
  sMtrlFilename : Chars
  deriving DecidableEq

def defaultMtrl : Chars := chars "$ALI_DEFAULT_MTRL"

namespace Loading

def initial (buffer : Chars) : Loading where
  buffer := buffer
  subParts := []
  curPart := {}
  curSubset := {}
  sCurMtl := defaultMtrl
  vertices := []
  normals := []
  uvs := []
  sMtrlFilename := []

/-- The last part with all its subsets. -/
def lastPart (st : Loading) : MyObjPart := { st.curPart with subSets := st.curPart.subSets ++ [st.curSubset] }

def obj (st : Loading) : MyObj :=
  ⟨st.subParts ++ [st.lastPart], st.vertices, st.normals, st.uvs, st.sMtrlFilename⟩

end Loading

/-- `strncmp` with a literal, of which all characters are compared. -/
def startsWith (literal : String) (buffer : Chars) : Bool := (chars literal).isPrefixOf buffer

def toLower (c : UInt8) : UInt8 := if 65 ≤ c ∧ c ≤ 90 then c + 32 else c

/-- `_strnicmp`. -/
def startsWithAnyCase (literal : String) (buffer : Chars) : Bool :=
  (chars literal).isPrefixOf (buffer.map toLower)

def maxPath : Nat := 260

/-- A word in a `char [ MAX_PATH ]`. -/
def scanName (s : Chars) : Option Chars :=
  match word (cstr s) with
  | some w => if w.length < maxPath then some w else none
  | none => none

section Statements
variable (floats : Floats)

def scan3 (s : Chars) : Float3 :=
  let read := floats.sscanf (cstr s)
  ⟨read.getD 0 (floats.stale 0), read.getD 1 (floats.stale 1), read.getD 2 (floats.stale 2)⟩

def scanUv (s : Chars) : Uv :=
  let uv := scan3 floats s
  ⟨uv.x, floats.oneMinus uv.y⟩

namespace Loading

/-- The components of the subset are those of the first vertex, if there is one. -/
def inspect (st : Loading) (first : Option Components) : Loading :=
  match first with
  | none => st
  | some has =>
    { st with curSubset :=
      { st.curSubset with bHasUv := some has.hasTexCoords, bHasNormal := some has.hasNormals } }

def pushFace (st : Loading) (face : MyFace) : Loading :=
  { st with curSubset := { st.curSubset with faces := st.curSubset.faces ++ [face] } }

def readFace (st : Loading) : Option Loading := do
  let (vCount, first) := inspectFaceLine st.buffer
  let st := st.inspect first
  let corners ← readCorners st.curSubset.has vCount st.buffer
  pure (st.pushFace (.ofCorners corners))

/-- `new_subset` becomes the current one. -/
def pushSubset (st : Loading) (sMatName : Chars) : Loading :=
  { st with curPart := st.lastPart, curSubset := { sMatName := sMatName } }

def pushPart (st : Loading) (sName : Chars) : Loading :=
  { st with
    subParts := st.subParts ++ [st.lastPart]
    curPart := { sName := sName }
    curSubset := { sMatName := st.sCurMtl } }

/-- What is done with a line in the buffer. -/
def statement (st : Loading) : Option Loading :=
  if startsWith "v " st.buffer then
    some { st with vertices := st.vertices ++ [scan3 floats (st.buffer.drop 2)] }
  else if startsWith "vn " st.buffer then
    some { st with normals := st.normals ++ [scan3 floats (st.buffer.drop 3)] }
  else if startsWith "vt " st.buffer then
    some { st with uvs := st.uvs ++ [scanUv floats (st.buffer.drop 2)] }
  else if startsWith "f " st.buffer then st.readFace
  else if startsWith "o " st.buffer then do
    let szPartName ← scanName (st.buffer.drop 2)
    pure (st.pushPart szPartName)
  else if startsWith "g " st.buffer then
    -- the name is not used, so that it may be missing, but it must not be too long
    if ((word (cstr (st.buffer.drop 2))).getD []).length < maxPath then some (st.pushSubset st.sCurMtl) else none
  else if startsWithAnyCase "usemtl " st.buffer then do
    let szMtlName ← scanName (st.buffer.drop 7)
    pure ({ st with sCurMtl := szMtlName }.pushSubset szMtlName)
  else if startsWithAnyCase "mtllib " st.buffer then do
    let szMtlLibFile ← scanName (st.buffer.drop 7)
    pure { st with sMtrlFilename := szMtlLibFile }
  else some st

/-- `fgets` puts a line and a NUL over the front of the buffer. -/
def fill (st : Loading) (line : Chars) : Loading := { st with buffer := overlay st.buffer (line ++ [0]) }

def loadLine (st : Loading) (line : Chars) : Option Loading := (st.fill line).statement floats

def loadLines (st : Loading) (read : List Chars) : Option Loading := read.foldlM (loadLine floats) st

end Loading

/-- The loop of `LoadObj2` over a text, from what lies in the buffer before. -/
def loadText (stack : Nat → UInt8) (text : Chars) : Option Loading :=
  (Loading.initial (cells stack lineBuffSize)).loadLines floats (lines (lineBuffSize - 1) text)

end Statements
end ModelPublish.Obj
