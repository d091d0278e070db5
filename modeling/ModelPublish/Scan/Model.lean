import ModelPublish.Container.SortedMap
import ModelPublish.Scan.Format

/-!
# The model in memory

The structures of `3DScanModel.h`. A `std::string` is its bytes; the buffers behind `pVB`, `pIB`
and `pData` are their contents. Which of the pointers are null is told apart where it matters.
-/

namespace ModelPublish.Scan
open Container

/-- `std::string` compares its characters as unsigned bytes. -/
scoped instance instLinearOrderUInt8 : LinearOrder UInt8 where
  le_refl := UInt8.le_refl
  le_trans _ _ _ := UInt8.le_trans
  le_antisymm _ _ := UInt8.le_antisymm
  le_total := UInt8.le_total
  lt_iff_le_not_ge a b := by
    simp only [UInt8.le_iff_toNat_le, UInt8.lt_iff_toNat_lt]
    omega
  toDecidableLE := inferInstance
  toDecidableEq := inferInstance
  toDecidableLT := inferInstance

abbrev Name := List UInt8

structure TdModelSubset where
  pVB : List UInt8
  pIB : List UInt32
  uiVertCount : UInt32
  uiTriCount : UInt32
  sMatName : Name
  uiVertexFmt : UInt32
  deriving DecidableEq, Inhabited

structure TdModelPart where
  sName : Name
  Subsets : List TdModelSubset
  deriving DecidableEq, Inhabited

structure TdModelMaterial where
  sName : Name
  clrAmbient : Float4Rgba
  clrDiffuse : Float4Rgba
  fTransparency : F32
  fSpecIntensity : F32
  fGlossiness : F32
  fReflectionFactor : F32
  sDiffuseTextureName : Name
  sNormalTextureName : Name
  sSpecularTextureName : Name
  sAlphaTextureName : Name
  sReflectionTextureName : Name
  deriving DecidableEq, Inhabited

structure TdModelTextureSlot where
  sName : Name
  uiSize : UInt32
  pData : List UInt8
  eFormat : UInt32
  clrAvgColor : Float4Rgba
  deriving DecidableEq, Inhabited

structure TdScanModel where
  Parts : List TdModelPart
  Materials : SortedMap Name TdModelMaterial
  Textures : SortedMap Name TdModelTextureSlot
  ptMin : Float3
  ptMax : Float3
  deriving DecidableEq, Inhabited

def TdScanModel.subsets (m : TdScanModel) : List TdModelSubset := m.Parts.flatMap TdModelPart.Subsets

/-- Materials lie under their names. -/
def TdScanModel.Keyed (m : TdScanModel) : Prop := ∀ e ∈ m.Materials.entries, e.2.sName = e.1

/-- A name that is a key of `Materials`. -/
def TdScanModel.HasMaterial (m : TdScanModel) (sMatName : Name) : Prop := sMatName ∈ m.Materials.entries.map Prod.fst

/-- The names of the five texture slots, in the order of the file's fields. -/
def TdModelMaterial.textureNames (m : TdModelMaterial) : List Name :=
  [m.sDiffuseTextureName, m.sAlphaTextureName, m.sReflectionTextureName, m.sSpecularTextureName,
    m.sNormalTextureName]

/-! ### Sizes -/

/-- The size of a subset's payload as a number. -/
def TdModelSubset.vertexBytes (s : TdModelSubset) : Nat :=
  (getVertexSize s.uiVertexFmt).toNat * s.uiVertCount.toNat

def TdModelSubset.indexBytes (s : TdModelSubset) : Nat := 12 * s.uiTriCount.toNat

def TdModelSubset.payloadSize (s : TdModelSubset) : Nat := s.vertexBytes + s.indexBytes

/-- `n` bytes copied out of a buffer. What lies past its end counts as zeros. -/
def copyOut (buf : List UInt8) (n : Nat) : List UInt8 := (buf ++ List.replicate n 0).take n

@[simp] theorem length_copyOut (buf : List UInt8) (n : Nat) : (copyOut buf n).length = n := by
  simp only [copyOut, List.length_take, List.length_append, List.length_replicate]
  omega

theorem copyOut_exact {buf : List UInt8} {n : Nat} (h : buf.length = n) : copyOut buf n = buf := by
  rw [copyOut, List.take_left' h]

def indexImage (pIB : List UInt32) : List UInt8 := Packed.Codec.u32.encMany pIB

end ModelPublish.Scan
