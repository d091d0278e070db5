import ModelPublish.Scan.Model

/-!
# CD3DModelUtils

The Direct3D copy of a model in memory, and how it is drawn. What a constructor leaves as it is in memory
is an argument.
-/

namespace ModelPublish.D3d
open Scan Container

variable {Shader Texture : Type}

structure D3dModelMaterial (Shader : Type) where
  /-- the key in `Materials` of the entry that is pointed to -/
  pBase : Option Name
  pShader : Option Shader
  clrAmbient : Float4Rgba
  clrDiffuse : Float4Rgba
  fTransparency : F32
  fSpecIntensity : F32
  fGlossiness : F32
  fReflectionFactor : F32
  sDiffuseTextureName : Name
  sNormalTextureName : Name
  sSpecularTextureName : Name
  sAlphaTextureName : Name
  sReflectionTextureName : Name
  iDiffuseTex : Int32
  iAlphaTex : Int32
  iNormalTex : Int32
  iSpecTex : Int32
  iReflTex : Int32
  deriving DecidableEq

structure D3dModelTextureSlot (Texture : Type) where
  /-- the key in `Textures` of the entry that is pointed to, and its `sName`, which nobody changes -/
  pBase : Name × Name
  pTexture : Option Texture
  deriving DecidableEq

structure D3dModelSubset (Shader : Type) where
  /-- the subset that is pointed to, which nobody changes -/
  pBase : TdModelSubset
  uiFVF : UInt32
  bOwnMaterial : Bool
  material : D3dModelMaterial Shader
  bVisible : Bool
  bSelected : Bool
  deriving DecidableEq

structure D3dModelPart (Shader : Type) where
  /-- the name of the part that is pointed to -/
  sName : Name
  bVisible : Bool
  bSelected : Bool
  Subsets : List (D3dModelSubset Shader)
  deriving DecidableEq

structure D3dModel (Shader Texture : Type) where
  Parts : List (D3dModelPart Shader)
  Materials : SortedMap Name (D3dModelMaterial Shader)
  Textures : SortedMap Name (D3dModelTextureSlot Texture)
  ptMin : Float3
  ptMax : Float3

/-- `new D3D_MODEL`. -/
def D3dModel.new (box : Float3 × Float3) : D3dModel Shader Texture := ⟨[], .empty, .empty, box.1, box.2⟩

def D3dModel.subsets (d3dModel : D3dModel Shader Texture) : List (D3dModelSubset Shader) :=
  d3dModel.Parts.flatMap D3dModelPart.Subsets

/-- What D3D makes of its inputs. -/
structure Device (Shader Texture : Type) where
  /-- `D3DXCreateEffectFromFileA`, for the material at each place. -/
  createEffect : Nat → Option Shader
  /-- `D3DXCreateTextureFromFileInMemory`. -/
  createTexture : List UInt8 → UInt32 → Option Texture
  /-- The number of passes that `Begin` returns. -/
  passes : Shader → Nat

/-- The constructor of `D3DMODEL_MATERIAL`, over what lies in memory. -/
def D3dModelMaterial.construct (memory : D3dModelMaterial Shader) : D3dModelMaterial Shader :=
  { memory with
    pBase := none
    pShader := none
    sDiffuseTextureName := []
    sNormalTextureName := []
    sSpecularTextureName := []
    sAlphaTextureName := []
    sReflectionTextureName := [] }

def vertexFormatToFvf (uiVertFmt : UInt32) : UInt32 :=
  (if uiVertFmt &&& vfPosition ≠ 0 then 0x002 else 0) ||| (if uiVertFmt &&& vfNormal ≠ 0 then 0x010 else 0) |||
    (if uiVertFmt &&& vfUv ≠ 0 then 0x200 else 0)

/-! ### CreateFromTDModel -/

section Create
variable (device : Device Shader Texture) (memory : Name → D3dModelMaterial Shader)

/-- The material at place `iMat`, under its key. -/
def createMaterial (iMat : Nat) (key : Name) (mdlmtrl : TdModelMaterial) : D3dModelMaterial Shader :=
  { (memory key).construct with
    clrAmbient := mdlmtrl.clrAmbient
    clrDiffuse := mdlmtrl.clrDiffuse
    fSpecIntensity := mdlmtrl.fSpecIntensity
    fGlossiness := mdlmtrl.fGlossiness
    fTransparency := mdlmtrl.fTransparency
    fReflectionFactor := mdlmtrl.fReflectionFactor
    sDiffuseTextureName := mdlmtrl.sDiffuseTextureName
    sAlphaTextureName := mdlmtrl.sAlphaTextureName
    sNormalTextureName := mdlmtrl.sNormalTextureName
    sSpecularTextureName := mdlmtrl.sSpecularTextureName
    sReflectionTextureName := mdlmtrl.sReflectionTextureName
    pBase := some key
    pShader := device.createEffect iMat }

def createMaterials (model : TdScanModel) (materials : SortedMap Name (D3dModelMaterial Shader)) :
    SortedMap Name (D3dModelMaterial Shader) :=
  materials.insertMany (model.Materials.entries.mapIdx fun iMat e =>
    (e.2.sName, createMaterial device memory iMat e.1 e.2))

def createTextures (model : TdScanModel) (textures : SortedMap Name (D3dModelTextureSlot Texture)) :
    SortedMap Name (D3dModelTextureSlot Texture) :=
  textures.insertMany (model.Textures.entries.map fun e =>
    (e.2.sName, ⟨(e.1, e.2.sName), device.createTexture e.2.pData e.2.uiSize⟩))

/-- The place of the last texture with this name, or the number of textures. -/
def setTextureNameIndex (textures : SortedMap Name (D3dModelTextureSlot Texture)) (sTexName : Name) : Int32 :=
  (textures.entries.mapIdx fun iTex e => (iTex, e.2.pBase.2)).foldl
    (fun iIndex e => if sTexName = e.2 then Int32.ofNat e.1 else iIndex) (Int32.ofNat textures.size)

/-- `d3dModel.Materials [ sMatName ]`, which makes an entry if there is none. -/
def materialAt (materials : SortedMap Name (D3dModelMaterial Shader)) (sMatName : Name) :
    D3dModelMaterial Shader × SortedMap Name (D3dModelMaterial Shader) :=
  match materials.find? sMatName with
  | some mtrl => (mtrl, materials)
  | none => ((memory sMatName).construct, materials.insert sMatName (memory sMatName).construct)

def createSubset (textures : SortedMap Name (D3dModelTextureSlot Texture))
    (materials : SortedMap Name (D3dModelMaterial Shader)) (mdlsub : TdModelSubset) :
    D3dModelSubset Shader × SortedMap Name (D3dModelMaterial Shader) :=
  let (mtrl, materials) := materialAt memory materials mdlsub.sMatName
  ({ pBase := mdlsub
     uiFVF := vertexFormatToFvf mdlsub.uiVertexFmt
     bOwnMaterial := false
     material := { mtrl with
      iDiffuseTex := setTextureNameIndex textures mtrl.sDiffuseTextureName
      iAlphaTex := setTextureNameIndex textures mtrl.sAlphaTextureName
      iNormalTex := setTextureNameIndex textures mtrl.sNormalTextureName
      iSpecTex := setTextureNameIndex textures mtrl.sSpecularTextureName
      iReflTex := setTextureNameIndex textures mtrl.sReflectionTextureName }
     bVisible := true
     bSelected := false }, materials)

def createSubsets (textures : SortedMap Name (D3dModelTextureSlot Texture)) :
    SortedMap Name (D3dModelMaterial Shader) → List TdModelSubset →
      List (D3dModelSubset Shader) × SortedMap Name (D3dModelMaterial Shader)
  | materials, [] => ([], materials)
  | materials, mdlsub :: rest =>
    let (subset, materials) := createSubset memory textures materials mdlsub
    let (subsets, materials) := createSubsets textures materials rest
    (subset :: subsets, materials)

def createParts (textures : SortedMap Name (D3dModelTextureSlot Texture)) :
    SortedMap Name (D3dModelMaterial Shader) → List TdModelPart →
      List (D3dModelPart Shader) × SortedMap Name (D3dModelMaterial Shader)
  | materials, [] => ([], materials)
  | materials, part :: rest =>
    let (subsets, materials) := createSubsets memory textures materials part.Subsets
    let (parts, materials) := createParts textures materials rest
    (⟨part.sName, true, false, subsets⟩ :: parts, materials)

/-- `CreateFromTDModel`, which returns false without a device. -/
def createFromTDModel (pDevice : Option (Device Shader Texture)) (model : TdScanModel)
    (d3dModel : D3dModel Shader Texture) : Bool × D3dModel Shader Texture :=
  match pDevice with
  | none => (false, d3dModel)
  | some device =>
    let materials := createMaterials device memory model d3dModel.Materials
    let textures := createTextures device model d3dModel.Textures
    let (parts, materials) := createParts memory textures materials model.Parts
    (true,
      { Parts := d3dModel.Parts ++ parts
        Materials := materials
        Textures := textures
        ptMin := model.ptMin
        ptMax := model.ptMax })

end Create

/-! ### RenderD3DModel -/

/-- The parameters of the shader for a subset, and what is drawn with them. -/
structure Draw (Shader Texture : Type) where
  pShader : Shader
  uiFVF : UInt32
  ambientColor : Float4Rgba
  diffuseColor : Float4Rgba
  transparency : F32
  glossiness : F32
  specularIntensity : F32
  hasNormal : Bool
  hasUv : Bool
  /-- what is set for the diffuse, alpha, normal, specular and reflection texture, if there is one -/
  textures : List (Option (Option Texture))
  vertexCount : UInt32
  triangleCount : UInt32
  indexData : List UInt32
  vertexData : List UInt8
  vertexSize : UInt32

section Render
variable (double : F32 → F32) (device : Device Shader Texture)

def drawOf (textures : SortedMap Name (D3dModelTextureSlot Texture)) (subset : D3dModelSubset Shader)
    (pShader : Shader) : Draw Shader Texture :=
  let clr := subset.material.clrDiffuse
  let mtrl := subset.material
  { pShader
    uiFVF := subset.uiFVF
    ambientColor := mtrl.clrAmbient
    diffuseColor := if subset.bSelected then ⟨double clr.r, double clr.g, double clr.b, ⟨0x3F800000⟩⟩ else clr
    transparency := mtrl.fTransparency
    glossiness := mtrl.fGlossiness
    specularIntensity := mtrl.fSpecIntensity
    hasNormal := decide (subset.pBase.uiVertexFmt &&& vfNormal ≠ 0)
    hasUv := decide (subset.pBase.uiVertexFmt &&& vfUv ≠ 0)
    textures := [mtrl.sDiffuseTextureName, mtrl.sAlphaTextureName, mtrl.sNormalTextureName,
      mtrl.sSpecularTextureName, mtrl.sReflectionTextureName].map fun sName =>
        (textures.find? sName).map D3dModelTextureSlot.pTexture
    vertexCount := subset.pBase.uiVertCount
    triangleCount := subset.pBase.uiTriCount
    indexData := subset.pBase.pIB
    vertexData := subset.pBase.pVB
    vertexSize := getVertexSize subset.pBase.uiVertexFmt }

/-- `none` when the shader is NULL. -/
def renderSubset (textures : SortedMap Name (D3dModelTextureSlot Texture)) (subset : D3dModelSubset Shader) :
    Option (List (Draw Shader Texture)) :=
  if subset.bVisible then
    subset.material.pShader.map fun pShader =>
      List.replicate (device.passes pShader) (drawOf double textures subset pShader)
  else some []

def renderPart (textures : SortedMap Name (D3dModelTextureSlot Texture)) (part : D3dModelPart Shader) :
    Option (List (Draw Shader Texture)) :=
  if part.bVisible then (part.Subsets.mapM (renderSubset double device textures)).map List.flatten else some []

def renderD3DModel (d3dModel : D3dModel Shader Texture) : Option (List (Draw Shader Texture)) :=
  (d3dModel.Parts.mapM (renderPart double device d3dModel.Textures)).map List.flatten

end Render

end ModelPublish.D3d
