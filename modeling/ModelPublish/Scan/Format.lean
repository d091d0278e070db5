import ModelPublish.Packed.Codec
import ModelPublish.Packed.Memory

/-!
# The .3dscan format

The packed structures of `3DScanFmt.h`, their byte layouts and the constants around them.
-/

namespace ModelPublish.Scan
open Packed

/-! ### Targets and flags -/

/-- The platforms of the project files. They differ in the width of `size_t`. -/
inductive Target where
  | win32
  | x64
  deriving DecidableEq, Repr

def Target.sizeMod : Target → Nat
  | .win32 => 2 ^ 32
  | .x64 => 2 ^ 64

theorem Target.le_sizeMod (target : Target) : 2 ^ 32 ≤ target.sizeMod := by
  cases target <;> decide

def tdsFlagCompressed : UInt32 := 1

def vfPosition : UInt32 := 1
def vfNormal : UInt32 := 2
def vfUv : UInt32 := 4

def tdSaveFlagNoCompression : UInt32 := 1

/-- `( 1 << 16 ) + 0`. -/
def formatVersion : UInt32 := 65536

/-- `C3DScanFileUtils::GetVertexSize`. -/
def getVertexSize (uiVertexFmt : UInt32) : UInt32 :=
  (if uiVertexFmt &&& vfPosition ≠ 0 then 12 else 0) +
    (if uiVertexFmt &&& vfNormal ≠ 0 then 12 else 0) +
    (if uiVertexFmt &&& vfUv ≠ 0 then 8 else 0)

theorem le_getVertexSize_of_position {uiVertexFmt : UInt32} (h : uiVertexFmt &&& vfPosition ≠ 0) :
    12 ≤ (getVertexSize uiVertexFmt).toNat := by
  rw [getVertexSize, if_pos h]
  split <;> split <;> decide

/-! ### Values -/

/-- A `float` by its bits. -/
structure F32 where
  bits : UInt32
  deriving DecidableEq, Repr, Inhabited

namespace F32

def isNaN (f : F32) : Bool := decide (0x7F800000 < f.bits.toNat % 2 ^ 31)

/-- The place of a number in the order of the floats. Both zeros have place 0. -/
def rank (f : F32) : Int :=
  if f.bits.toNat < 2 ^ 31 then f.bits.toNat else -((f.bits.toNat - 2 ^ 31 : Nat) : Int)

/-- `a < b`, false when either is not a number. -/
def lt (a b : F32) : Bool := !a.isNaN && !b.isNaN && decide (a.rank < b.rank)

def fltMax : F32 := ⟨0x7F7FFFFF⟩
def negFltMax : F32 := ⟨0xFF7FFFFF⟩

def codec : Codec F32 := Codec.u32.equiv ⟨F32.bits, F32.mk, fun _ => rfl, fun _ => rfl⟩

end F32

structure Float3 where
  x : F32
  y : F32
  z : F32
  deriving DecidableEq, Repr, Inhabited

def Float3.codec : Codec Float3 :=
  (F32.codec.seq (F32.codec.seq F32.codec)).equiv
    ⟨fun p => (p.x, p.y, p.z), fun (x, y, z) => ⟨x, y, z⟩, fun _ => rfl, fun _ => rfl⟩

structure Float4Rgba where
  r : F32
  g : F32
  b : F32
  a : F32
  deriving DecidableEq, Repr, Inhabited

def Float4Rgba.codec : Codec Float4Rgba :=
  (F32.codec.seq (F32.codec.seq (F32.codec.seq F32.codec))).equiv
    ⟨fun c => (c.r, c.g, c.b, c.a), fun (r, g, b, a) => ⟨r, g, b, a⟩, fun _ => rfl, fun _ => rfl⟩

/-! ### Chunks -/

/-- The bytes of an ASCII literal, without its terminator. -/
def ascii (s : String) : List UInt8 := s.toList.map fun c => UInt8.ofNat c.toNat

structure FileHeader where
  szSign : List.Vector UInt8 17
  uiVersion : UInt32
  uiTotalTriCount : UInt32
  iFirstPartOfs : Int32
  iMaterialLibOfs : Int32
  iTexLibOfs : Int32
  uiCrc : UInt32
  uiPadding : List.Vector UInt8 5
  deriving DecidableEq

structure FilePart where
  szSign : List.Vector UInt8 4
  szName : List.Vector UInt8 32
  iNextPartOfs : Int32
  iFirstSubset : Int32
  deriving DecidableEq

structure FileMaterial where
  szSign : List.Vector UInt8 8
  szName : List.Vector UInt8 32
  iNextMaterialOfs : Int32
  f4Diffuse : Float4Rgba
  f4Ambient : Float4Rgba
  fGlossiness : F32
  fSpecIntensity : F32
  fAlpha : F32
  fReflectionFactor : F32
  uiFlags : UInt32
  szDiffuseTex : List.Vector UInt8 32
  szAlphaTex : List.Vector UInt8 32
  szReflectionTex : List.Vector UInt8 32
  szSpecularTex : List.Vector UInt8 32
  szNormalTex : List.Vector UInt8 32
  uiPadding : List.Vector UInt8 64
  deriving DecidableEq

structure FileTexture where
  szSign : List.Vector UInt8 3
  szName : List.Vector UInt8 32
  iNextTexOfs : Int32
  eTexFormat : UInt32
  uiDataSize : UInt32
  uiCompressedSize : UInt32
  uiFlags : UInt32
  clrAvgColor : Float4Rgba
  uiPadding : List.Vector UInt8 5
  deriving DecidableEq

structure FileSubset where
  szSign : List.Vector UInt8 6
  iNextSubsetOfs : Int32
  szMatName : List.Vector UInt8 32
  uiVertexCount : UInt32
  uiTriCount : UInt32
  uiVertexFormat : UInt32
  uiDataSize : UInt32
  uiCompressedSize : UInt32
  uiFlags : UInt32
  uiPadding : List.Vector UInt8 10
  deriving DecidableEq

open Codec

def FileHeader.codec : Codec FileHeader :=
  ((bytes 17).seq <| u32.seq <| u32.seq <| i32.seq <| i32.seq <| i32.seq <| u32.seq <|
    bytes 5).equiv
  ⟨fun h => (h.szSign, h.uiVersion, h.uiTotalTriCount, h.iFirstPartOfs, h.iMaterialLibOfs,
      h.iTexLibOfs, h.uiCrc, h.uiPadding),
    fun (a, b, c, d, e, f, g, h) => ⟨a, b, c, d, e, f, g, h⟩, fun _ => rfl, fun _ => rfl⟩

def FilePart.codec : Codec FilePart :=
  ((bytes 4).seq <| (bytes 32).seq <| i32.seq i32).equiv
  ⟨fun h => (h.szSign, h.szName, h.iNextPartOfs, h.iFirstSubset),
    fun (a, b, c, d) => ⟨a, b, c, d⟩, fun _ => rfl, fun _ => rfl⟩

def FileMaterial.codec : Codec FileMaterial :=
  ((bytes 8).seq <| (bytes 32).seq <| i32.seq <| Float4Rgba.codec.seq <| Float4Rgba.codec.seq <|
    F32.codec.seq <| F32.codec.seq <| F32.codec.seq <| F32.codec.seq <| u32.seq <|
    (bytes 32).seq <| (bytes 32).seq <| (bytes 32).seq <| (bytes 32).seq <| (bytes 32).seq <|
    bytes 64).equiv
  ⟨fun h => (h.szSign, h.szName, h.iNextMaterialOfs, h.f4Diffuse, h.f4Ambient, h.fGlossiness,
      h.fSpecIntensity, h.fAlpha, h.fReflectionFactor, h.uiFlags, h.szDiffuseTex, h.szAlphaTex,
      h.szReflectionTex, h.szSpecularTex, h.szNormalTex, h.uiPadding),
    fun (a, b, c, d, e, f, g, h, i, j, k, l, m, n, o, p) =>
      ⟨a, b, c, d, e, f, g, h, i, j, k, l, m, n, o, p⟩,
    fun _ => rfl, fun _ => rfl⟩

def FileTexture.codec : Codec FileTexture :=
  ((bytes 3).seq <| (bytes 32).seq <| i32.seq <| u32.seq <| u32.seq <| u32.seq <| u32.seq <|
    Float4Rgba.codec.seq <| bytes 5).equiv
  ⟨fun h => (h.szSign, h.szName, h.iNextTexOfs, h.eTexFormat, h.uiDataSize, h.uiCompressedSize,
      h.uiFlags, h.clrAvgColor, h.uiPadding),
    fun (a, b, c, d, e, f, g, h, i) => ⟨a, b, c, d, e, f, g, h, i⟩, fun _ => rfl, fun _ => rfl⟩

def FileSubset.codec : Codec FileSubset :=
  ((bytes 6).seq <| i32.seq <| (bytes 32).seq <| u32.seq <| u32.seq <| u32.seq <| u32.seq <|
    u32.seq <| u32.seq <| bytes 10).equiv
  ⟨fun h => (h.szSign, h.iNextSubsetOfs, h.szMatName, h.uiVertexCount, h.uiTriCount,
      h.uiVertexFormat, h.uiDataSize, h.uiCompressedSize, h.uiFlags, h.uiPadding),
    fun (a, b, c, d, e, f, g, h, i, j) => ⟨a, b, c, d, e, f, g, h, i, j⟩,
    fun _ => rfl, fun _ => rfl⟩

@[simp] theorem FileHeader.size : FileHeader.codec.size = 46 := rfl
@[simp] theorem FilePart.size : FilePart.codec.size = 44 := rfl
@[simp] theorem FileMaterial.size : FileMaterial.codec.size = 320 := rfl
@[simp] theorem FileTexture.size : FileTexture.codec.size = 76 := rfl
@[simp] theorem FileSubset.size : FileSubset.codec.size = 76 := rfl

def sizeOf {α : Type} (c : Codec α) : UInt32 := UInt32.ofNat c.size

/-- A structure after `memset` to 0 and `memcpy` of its signature. The copy includes the
terminator of the literal, which lands on a byte that is still 0. -/
def blank {α : Type} (c : Codec α) (sign : String) : α :=
  c.dec (overlay (List.replicate c.size 0) (ascii sign ++ [0]))

/-! ### Names -/

/-- A name field read as a C string: it starts `ofs` bytes into the structure and may run past the
structure's end into whatever bytes `tail` lie there. -/
def nameAt {α : Type} (c : Codec α) (h : α) (ofs : Nat) (tail : List UInt8) : List UInt8 :=
  cstr ((c.enc h).drop ofs ++ tail)

theorem nameAt_field {α : Type} {c : Codec α} {ofs : Nat} {get : α → List.Vector UInt8 32}
    (field : c.HasField (bytes 32) ofs get) (h : α) (tail : List UInt8) :
    nameAt c h ofs tail = cstr ((get h).toList ++ ((c.enc h).drop (ofs + 32) ++ tail)) := by
  rw [nameAt, field h, List.append_assoc]
  rfl

theorem nameAt_tail {α : Type} {c : Codec α} {ofs pad n : Nat} {get : α → List.Vector UInt8 n}
    (field : c.HasField (bytes n) pad get) (before : ofs ≤ pad) {h : α} (zero : 0 ∈ (get h).toList)
    (tail : List UInt8) : nameAt c h ofs tail = nameAt c h ofs [] := by
  have padded : 0 ∈ (c.enc h).drop ofs := by
    have late : 0 ∈ (c.enc h).drop pad := by
      rw [field h]
      exact List.mem_append_left _ zero
    rw [show pad = ofs + (pad - ofs) by omega, ← List.drop_drop] at late
    exact List.mem_of_mem_drop late
  rw [nameAt, nameAt, cstr_append_of_mem padded, cstr_append_of_mem padded]

section Fields
open HasField

theorem FilePart.name_field : FilePart.codec.HasField (bytes 32) 4 FilePart.szName :=
  ((head _ _).tail _).equiv _

theorem FileSubset.matName_field : FileSubset.codec.HasField (bytes 32) 10 FileSubset.szMatName :=
  (((head _ _).tail _).tail _).equiv _

theorem FileTexture.name_field : FileTexture.codec.HasField (bytes 32) 3 FileTexture.szName :=
  ((head _ _).tail _).equiv _

theorem FileMaterial.name_field : FileMaterial.codec.HasField (bytes 32) 8 FileMaterial.szName :=
  ((head _ _).tail _).equiv _

theorem FileMaterial.diffuse_field :
    FileMaterial.codec.HasField (bytes 32) 96 FileMaterial.szDiffuseTex :=
  (((((((((((head _ _).tail _).tail _).tail _).tail _).tail _).tail _).tail _).tail _).tail
    _).tail _).equiv _

theorem FileMaterial.alpha_field :
    FileMaterial.codec.HasField (bytes 32) 128 FileMaterial.szAlphaTex :=
  ((((((((((((head _ _).tail _).tail _).tail _).tail _).tail _).tail _).tail _).tail _).tail
    _).tail _).tail _).equiv _

theorem FileMaterial.reflection_field :
    FileMaterial.codec.HasField (bytes 32) 160 FileMaterial.szReflectionTex :=
  (((((((((((((head _ _).tail _).tail _).tail _).tail _).tail _).tail _).tail _).tail _).tail
    _).tail _).tail _).tail _).equiv _

theorem FileMaterial.specular_field :
    FileMaterial.codec.HasField (bytes 32) 192 FileMaterial.szSpecularTex :=
  ((((((((((((((head _ _).tail _).tail _).tail _).tail _).tail _).tail _).tail _).tail _).tail
    _).tail _).tail _).tail _).tail _).equiv _

theorem FileMaterial.normal_field :
    FileMaterial.codec.HasField (bytes 32) 224 FileMaterial.szNormalTex :=
  (((((((((((((((head _ _).tail _).tail _).tail _).tail _).tail _).tail _).tail _).tail _).tail
    _).tail _).tail _).tail _).tail _).tail _).equiv _

theorem FileSubset.padding_field : FileSubset.codec.HasField (bytes 10) 66 FileSubset.uiPadding :=
  ((((((((((whole _).tail _).tail _).tail _).tail _).tail _).tail _).tail _).tail _).tail _).equiv _

theorem FileTexture.padding_field : FileTexture.codec.HasField (bytes 5) 71 FileTexture.uiPadding :=
  (((((((((whole _).tail _).tail _).tail _).tail _).tail _).tail _).tail _).tail _).equiv _

theorem FileMaterial.padding_field :
    FileMaterial.codec.HasField (bytes 64) 256 FileMaterial.uiPadding :=
  ((((((((((((((((whole _).tail _).tail _).tail _).tail _).tail _).tail _).tail _).tail _).tail
    _).tail _).tail _).tail _).tail _).tail _).tail _).equiv _

end Fields
end ModelPublish.Scan
