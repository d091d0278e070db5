import ModelPublish.Obj.Convert
import ModelPublish.Obj.Library

/-!
# The materials of an object

The second half of `ConvertObjTo3DModel`: materials that some subset names, and the texture files that they name.
-/

namespace ModelPublish.Obj
open Text Packed Scan Container

/-- `szName` and `szExt` as `_splitpath` leaves them, in buffers of `_MAX_FNAME` and `_MAX_EXT` characters. -/
def splitpath (path : Chars) : Chars × Chars :=
  let path := if at0 (path.drop 1) = 58 then path.drop 2 else path
  let file := path.rtakeWhile fun c => c ≠ backslash ∧ c ≠ slash
  let behind := file.rtakeWhile fun c => c ≠ 46
  if behind.length < file.length then
    ((file.take (file.length - behind.length - 1)).take 255, (46 :: behind).take 255)
  else (file.take 255, [])

/-- Everything from the first newline on is erased, then everything from the first carriage return on. -/
def removePath (str : Chars) : Chars :=
  let str := (str.takeWhile fun c => c ≠ newline).takeWhile fun c => c ≠ 13
  (splitpath str).1 ++ (splitpath str).2

/-- `ToLower` after `RemovePath`. -/
def textureName (sMap : Chars) : Chars := (removePath sMap).map toLower

def convertMaterial (floats : Floats) (objmtl : MyMtl) : TdModelMaterial where
  sName := objmtl.sName
  clrAmbient := ⟨objmtl.ka.x, objmtl.ka.y, objmtl.ka.z, ⟨0x3F800000⟩⟩
  clrDiffuse := ⟨objmtl.kd.x, objmtl.kd.y, objmtl.kd.z, ⟨0x3F800000⟩⟩
  fSpecIntensity := objmtl.ks.x
  fGlossiness := objmtl.fNs
  fTransparency := floats.oneMinus objmtl.fTr
  fReflectionFactor := ⟨0⟩
  sDiffuseTextureName := textureName objmtl.sMapKd
  sNormalTextureName := textureName objmtl.sMapBump
  sSpecularTextureName := textureName objmtl.sMapNs
  sAlphaTextureName := textureName objmtl.sMapTr
  sReflectionTextureName := textureName objmtl.sMapRefl

/-- Whether some subset names the material. -/
def bFound (parts : List TdModelPart) (sName : Name) : Bool :=
  parts.any fun part => part.Subsets.any fun subset => sName = subset.sMatName

def convertMaterials (floats : Floats) (parts : List TdModelPart) (materials : List MyMtl) :
    SortedMap Name TdModelMaterial :=
  SortedMap.insertMany .empty (((materials.map (convertMaterial floats)).filter fun mtrl => bFound parts mtrl.sName).map
    fun mtrl => (mtrl.sName, mtrl))

/-- What `clrAvgColor` holds in a new slot is not set. -/
def loadAndAddToTextures (disk : Disk) (memory : Name → Float4Rgba) (textures : SortedMap Name TdModelTextureSlot)
    (sTexName : Name) : SortedMap Name TdModelTextureSlot :=
  if sTexName = [] then textures
  else if (textures.find? sTexName).isSome then textures
  else
    match disk.binary sTexName with
    | none => textures
    | some content => textures.insert sTexName
      { sName := sTexName
        uiSize := UInt32.ofNat content.length
        pData := content
        eFormat := 0
        clrAvgColor := memory sTexName }

/-- The names in the order in which their files are loaded. -/
def texturesOf (mtrl : TdModelMaterial) : List Name :=
  [mtrl.sDiffuseTextureName, mtrl.sAlphaTextureName, mtrl.sNormalTextureName, mtrl.sSpecularTextureName,
    mtrl.sReflectionTextureName]

/-- What lies in the memory of a new model and of its new texture slots. -/
structure NewModel where
  box : Float3 × Float3
  clrAvgColor : Name → Float4Rgba

/-- `ConvertObjTo3DModel` into a new `TD_SCAN_MODEL`. -/
def convertObjTo3DModel (disk : Disk) (floats : Floats) (memory : NewModel) (obj : LoadedObj) : Option TdScanModel := do
  let parts ← convertParts floats obj.toMyObj
  let materials := convertMaterials floats parts obj.materials
  let names := materials.entries.flatMap fun e => texturesOf e.2
  pure
    { Parts := parts
      Materials := materials
      Textures := names.foldl (loadAndAddToTextures disk memory.clrAvgColor) .empty
      ptMin := memory.box.1
      ptMax := memory.box.2 }

/-- Importing an OBJ file. The result of `LoadObj2` is not looked at. -/
def importObj (disk : Disk) (floats : MtlFloats) (stack : Stacks) (memory : NewModel) (sFileName : Chars) :
    Option TdScanModel := do
  let (_, obj) ← loadObj2 disk floats stack sFileName
  convertObjTo3DModel disk floats.toFloats memory obj

end ModelPublish.Obj
