import ModelPublish.Obj.Loader

/-!
# LoadMtlLib2

The statements of a material library, and how `LoadObj2` finds the library of an OBJ text.
-/

namespace ModelPublish.Obj
open Text Packed
open Scan (F32 Float3)

structure MyMtl where
  sName : Chars := defaultMtrl
  ka : Float3 := ⟨⟨0x3E4CCCCD⟩, ⟨0x3E4CCCCD⟩, ⟨0x3E4CCCCD⟩⟩
  ks : Float3 := ⟨⟨0x3F800000⟩, ⟨0x3F800000⟩, ⟨0x3F800000⟩⟩
  kd : Float3 := ⟨⟨0x3F4CCCCD⟩, ⟨0x3F4CCCCD⟩, ⟨0x3F4CCCCD⟩⟩
  tf : Float3 := ⟨⟨0x3F800000⟩, ⟨0x3F800000⟩, ⟨0x3F800000⟩⟩
  fTr : F32 := ⟨0xBF800000⟩
  fD : F32 := ⟨0x3F800000⟩
  fNs : F32 := ⟨0x3F800000⟩
  fNi : F32 := ⟨0x3F800000⟩
  iIllum : Int := 2
  sMapKa : Chars := []
  sMapKd : Chars := []
  sMapKs : Chars := []
  sMapNs : Chars := []
  sMapTr : Chars := []
  sMapDisp : Chars := []
  sMapBump : Chars := []
  sMapRefl : Chars := []
  deriving DecidableEq

/-- The arithmetic of a library too. -/
structure MtlFloats extends Floats where
  /-- `( float ) atof ( s )`. -/
  atof : Chars → F32

def tab : UInt8 := 9
def backslash : UInt8 := 92

/-- `strcpy ( buffer, buffer + 1 )` while there is a blank in front, `n` times at most. -/
def skipBlanks : Nat → Chars → Chars
  | 0, buffer => buffer
  | n + 1, buffer =>
    if at0 buffer = space ∨ at0 buffer = tab then skipBlanks n (overlay buffer (cstr (buffer.drop 1) ++ [0]))
    else buffer

/-- `LoadMtl_ReadKx`. What is not read keeps its value. -/
def readKx (floats : Floats) (line : Chars) (kx : Float3) : Float3 :=
  let text := cstr (line.drop 3)
  if text.map toLower = chars "spectral" then kx
  else if text.map toLower = chars "xyz" then kx
  else
    let read := floats.sscanf text
    let kx : Float3 := ⟨read.getD 0 kx.x, read.getD 1 kx.y, read.getD 2 kx.z⟩
    if read.length ≠ 3 then ⟨kx.x, kx.x, kx.x⟩ else kx

/-- A map statement reads a word it does not use into a `char [ MAX_PATH ]`. -/
def mapStatement (buffer : Chars) (mtl : MyMtl) : Option MyMtl :=
  if ((word (cstr (buffer.drop 7))).getD []).length < maxPath then some mtl else none

/-- What is done with a line for the current material, unless it begins one. -/
def property (floats : MtlFloats) (buffer : Chars) (mtl : MyMtl) : Option MyMtl :=
  if startsWithAnyCase "ka " buffer then some { mtl with ka := readKx floats.toFloats buffer mtl.ka }
  else if startsWithAnyCase "ks " buffer then some { mtl with ks := readKx floats.toFloats buffer mtl.ks }
  else if startsWithAnyCase "kd " buffer then some { mtl with kd := readKx floats.toFloats buffer mtl.kd }
  else if startsWithAnyCase "tf " buffer then some { mtl with tf := readKx floats.toFloats buffer mtl.tf }
  else if startsWithAnyCase "tr " buffer then some { mtl with fTr := floats.atof (cstr (buffer.drop 3)) }
  else if startsWithAnyCase "d " buffer then
    some { mtl with fTr := floats.oneMinus (floats.atof (cstr (buffer.drop 2))) }
  else if startsWithAnyCase "ns " buffer then some { mtl with fNs := floats.atof (cstr (buffer.drop 3)) }
  else if startsWithAnyCase "ni " buffer then some { mtl with fNi := floats.atof (cstr (buffer.drop 3)) }
  else if startsWithAnyCase "illum " buffer then (atoi (buffer.drop 6)).map fun n => { mtl with iIllum := n }
  else if startsWithAnyCase "map_ka " buffer then
    (scanName (buffer.drop 7)).map fun szMap => { mtl with sMapKa := szMap }
  else if startsWithAnyCase "map_kd " buffer then mapStatement buffer { mtl with sMapKd := cstr (buffer.drop 7) }
  else if startsWithAnyCase "map_ks " buffer then mapStatement buffer { mtl with sMapKs := cstr (buffer.drop 7) }
  else if startsWithAnyCase "map_ns " buffer then mapStatement buffer { mtl with sMapNs := cstr (buffer.drop 7) }
  else if startsWithAnyCase "map_tr " buffer then mapStatement buffer { mtl with sMapTr := cstr (buffer.drop 7) }
  -- seven characters are compared
  else if startsWithAnyCase "map_dis" buffer then mapStatement buffer { mtl with sMapDisp := cstr (buffer.drop 9) }
  else if startsWithAnyCase "map_bum" buffer then mapStatement buffer { mtl with sMapBump := cstr (buffer.drop 9) }
  else if startsWithAnyCase "map_ref" buffer then mapStatement buffer { mtl with sMapRefl := cstr (buffer.drop 9) }
  else some mtl

/-- -1 stands for no transparency. -/
def MyMtl.settle (mtl : MyMtl) : MyMtl := if mtl.fTr = ⟨0xBF800000⟩ then { mtl with fTr := ⟨0⟩ } else mtl

/-- `materials` without the one that `pMat` points to, the last one. -/
structure MtlLoading where
  buffer : Chars
  materials : List MyMtl
  pMat : Option MyMtl
  deriving DecidableEq

namespace MtlLoading

def all (st : MtlLoading) : List MyMtl := st.materials ++ st.pMat.toList

/-- What is done with a line in the buffer. -/
def statement (floats : MtlFloats) (st : MtlLoading) : Option MtlLoading :=
  if startsWith "newmtl " st.buffer then do
    let szName ← scanName (st.buffer.drop 7)
    pure { st with materials := st.all, pMat := some (MyMtl.settle { sName := szName }) }
  else
    match st.pMat with
    | none => some st
    | some mtl => (property floats st.buffer mtl).map fun mtl => { st with pMat := some mtl.settle }

/-- A line in the buffer, without the blanks in front of it. -/
def fill (st : MtlLoading) (line : Chars) : MtlLoading :=
  { st with buffer := skipBlanks lineBuffSize (overlay st.buffer (line ++ [0])) }

def loadLines (floats : MtlFloats) (st : MtlLoading) (read : List Chars) : Option MtlLoading :=
  read.foldlM (fun st line => (st.fill line).statement floats) st

end MtlLoading

/-- The files there are, as `fopen` and `fread` show them in either mode. -/
structure Disk where
  text : Chars → Option Chars
  binary : Chars → Option (List UInt8)

section Load
variable (disk : Disk) (floats : MtlFloats)

/-- The result, and the materials behind those there were. -/
def loadMtlLib2 (stack : Nat → UInt8) (sFileName : Chars) (materials : List MyMtl) : Option (Int × List MyMtl) :=
  match disk.text sFileName with
  | none => some (0, materials)
  | some text => do
    let st ← MtlLoading.loadLines floats ⟨cells stack lineBuffSize, materials, none⟩ (lines (lineBuffSize - 1) text)
    pure (1, st.all)

/-- The length of the path in front of a file name, -1 if there is none. -/
def pathFromFileName (sFileName : Chars) : Int :=
  (sFileName.mapIdx fun i c => (i, c)).foldl
    (fun ret e => if e.2 = backslash ∨ e.2 = slash then (e.1 : Int) else ret) (-2) + 1

/-- An object with its materials. -/
structure LoadedObj extends MyObj where
  materials : List MyMtl := []
  deriving DecidableEq

/-- The stack of the loader and that of the two calls for the library. -/
structure Stacks where
  obj : Nat → UInt8
  mtl : Nat → UInt8
  mtl' : Nat → UInt8

/-- The part of `LoadObj2` that looks for the library, next to the OBJ file if not where its name says. -/
def loadLibrary (stack : Stacks) (sFileName : Chars) (obj : MyObj) : Option (Int × LoadedObj) :=
  if obj.sMtrlFilename = [] then some (1, { obj with })
  else do
    let (found, materials) ← loadMtlLib2 disk floats stack.mtl obj.sMtrlFilename []
    if 0 < found then pure (1, { obj with materials })
    else
      let n := pathFromFileName sFileName
      if n < 0 then pure (2, { obj with materials })
      -- `lstrcpyn ( libFile, sFileName, n + 1 )` does not look at the size of `libFile`
      else if maxPath < n.toNat + 1 then none
      else
        let libFile := sFileName.take n.toNat ++ obj.sMtrlFilename.take (maxPath - n.toNat - 1)
        let (found, materials) ← loadMtlLib2 disk floats stack.mtl' libFile materials
        pure (if 0 < found then 1 else 2, { obj with materials })

/-- `LoadObj2` into a new `MY_OBJ`. -/
def loadObj2 (stack : Stacks) (sFileName : Chars) : Option (Int × LoadedObj) :=
  match disk.text sFileName with
  | none => some (0, { subParts := [], vertices := [], normals := [], uvs := [], sMtrlFilename := [] })
  | some text => do
    let st ← loadText floats.toFloats stack.obj text
    loadLibrary disk floats stack sFileName st.obj

end Load
end ModelPublish.Obj
