import ModelPublish.Lz4.Block
import ModelPublish.Machine.Run
import ModelPublish.Scan.Model
import ModelPublish.Stream.Streams

/-!
# Load3DScanModel

The reader as a machine: a step is one round of one of its four loops. What it reads from memory
that nobody has written is an input of the step, as is what lies past the ends of its buffers.
An allocation throws here when its size in bytes is no `size_t`; the log has the sizes of all buffers
and every copy, so that the runs which do not get a buffer or leave one can be told.
-/

namespace ModelPublish.Scan
open Packed Container ModelPublish.Stream

/-- The memory a step finds: the stack bytes of the header structure and those behind it, the
content of each new buffer, and what lies past the end of a buffer that is read too far. -/
structure Uninit where
  header : Nat → UInt8
  tail : List UInt8
  pVB : Nat → UInt8
  pIB : Nat → UInt8
  pSrc : Nat → UInt8
  pDest : Nat → UInt8
  beyond : Nat → UInt8

instance : Inhabited Uninit :=
  ⟨fun _ => 0, [], fun _ => 0, fun _ => 0, fun _ => 0, fun _ => 0, fun _ => 0⟩

/-- What the machine did, as far as it matters whether it was allowed to. -/
inductive LoadEvent where
  /-- a read of `wanted` bytes into a buffer of `room` bytes -/
  | read (payload : Bool) (wanted room : Nat) (result : Transfer)
  /-- a `memcpy` of `len` bytes: the sizes of both buffers and the offset in the source -/
  | copy (dstSize srcSize srcOfs len : Nat)
  /-- a call of `LZ4_decompress_fast` -/
  | unpack (srcSize wanted : Nat) (result : Lz4.Decoded)
  /-- the reads of `count` positions, `stride` bytes apart -/
  | positions (size stride count : Nat)
  | part (name : Name)
  | subset (hdr : FileSubset) (s : TdModelSubset)
  | material (m : TdModelMaterial)
  | texture (t : TdModelTextureSlot)

/-- Where the control is: at a loop with the link it is about to test, or outside. -/
inductive LoadPc where
  | start
  | part (iNextPartOfs : Int32)
  | subset (iNextSubsetOfs iNextPartOfs : Int32)
  | material (iNextMatOfs : Int32)
  | texture (iNextTexOfs : Int32)
  | returned (accepted : Bool)
  | threw
  deriving DecidableEq

structure LoadState where
  stream : BaseStream
  iMaterialLibOfs : Int32
  iTexLibOfs : Int32
  model : TdScanModel
  log : List LoadEvent
  pc : LoadPc

/-- A structure read from the stream into the stack. What the stream does not deliver keeps the
bytes that lay there. -/
def readStruct {α : Type} (c : Codec α) (s : BaseStream) (u : Uninit) : α × Transfer × BaseStream :=
  let r := s.read u.beyond (sizeOf c)
  (c.dec (overlay (cells u.header c.size) r.1.bytes), r.1, r.2)

def emptyModel : TdScanModel where
  Parts := []
  Materials := .empty
  Textures := .empty
  ptMin := ⟨.fltMax, .fltMax, .fltMax⟩
  ptMax := ⟨.negFltMax, .negFltMax, .negFltMax⟩

/-- `LZ4_decompress_fast` into a new buffer. Unless it succeeds the buffer holds anything. -/
def unpack (fill : Nat → UInt8) (src : List UInt8) (size : UInt32) : Lz4.Decoded × List UInt8 :=
  let result := Lz4.decompressFast src size.toInt32.toInt
  (result, match result with
    | .done _ out => out
    | _ => cells fill size.toNat)

/-! ### Subsets -/

/-- The sum `uiDataSize` is compared with, a `size_t`. -/
def FileSubset.checkedSize (hdr : FileSubset) (target : Target) : Nat :=
  ((getVertexSize hdr.uiVertexFormat * hdr.uiVertexCount).toNat + (hdr.uiTriCount * 3).toNat * 4) %
    target.sizeMod

def FileSubset.vbSize (hdr : FileSubset) : UInt32 := getVertexSize hdr.uiVertexFormat * hdr.uiVertexCount

def FileSubset.ibSize (hdr : FileSubset) (target : Target) : Nat :=
  4 * hdr.uiTriCount.toNat * 3 % target.sizeMod

/-- The number of elements of `pIB`. -/
def FileSubset.ibCount (hdr : FileSubset) : Nat := (hdr.uiTriCount * 3).toNat

def FileSubset.isCompressed (hdr : FileSubset) : Bool := decide (hdr.uiFlags &&& tdsFlagCompressed ≠ 0)

/-- The buffers `pVB` and `pIB` after the payload was read, the second as bytes. -/
structure Buffers where
  pVB : List UInt8
  pIB : List UInt8
  stream : BaseStream
  events : List LoadEvent

/-- The branch for a compressed payload. -/
def readCompressed (target : Target) (u : Uninit) (hdr : FileSubset) (s : BaseStream) : Buffers :=
  let r := s.read u.beyond hdr.uiCompressedSize
  let pSrc := overlay (cells u.pSrc hdr.uiCompressedSize.toNat) r.1.bytes
  let (result, pDest) := unpack u.pDest pSrc hdr.uiDataSize
  let n := hdr.vbSize.toNat
  let k := hdr.ibSize target
  { pVB := overlay (cells u.pVB n) (fetch pDest u.beyond 0 n)
    pIB := overlay (cells u.pIB (4 * hdr.ibCount)) (fetch pDest u.beyond n k)
    stream := r.2
    events := [
      .read true hdr.uiCompressedSize.toNat hdr.uiCompressedSize.toNat r.1,
      .unpack hdr.uiCompressedSize.toNat hdr.uiDataSize.toNat result,
      .copy n hdr.uiDataSize.toNat 0 n,
      .copy (4 * hdr.ibCount) hdr.uiDataSize.toNat n k] }

def readRaw (target : Target) (u : Uninit) (hdr : FileSubset) (s : BaseStream) : Buffers :=
  let k := UInt32.ofNat (hdr.ibSize target)
  let r := s.read u.beyond hdr.vbSize
  let q := r.2.read u.beyond k
  { pVB := overlay (cells u.pVB hdr.vbSize.toNat) r.1.bytes
    pIB := overlay (cells u.pIB (4 * hdr.ibCount)) q.1.bytes
    stream := q.2
    events := [
      .read true hdr.vbSize.toNat hdr.vbSize.toNat r.1,
      .read true k.toNat (4 * hdr.ibCount) q.1] }

/-- One round of the bounding box loop. -/
def widen (box : Float3 × Float3) (pPos : Float3) : Float3 × Float3 :=
  (⟨if pPos.x.lt box.1.x then pPos.x else box.1.x, if pPos.y.lt box.1.y then pPos.y else box.1.y,
      if pPos.z.lt box.1.z then pPos.z else box.1.z⟩,
    ⟨if box.2.x.lt pPos.x then pPos.x else box.2.x, if box.2.y.lt pPos.y then pPos.y else box.2.y,
      if box.2.z.lt pPos.z then pPos.z else box.2.z⟩)

/-- The positions of the vertices of a buffer. -/
def vertexPositions (beyond : Nat → UInt8) (pVB : List UInt8) (stride count : Nat) : List Float3 :=
  (List.range count).map fun i => Float3.codec.dec (fetch pVB beyond (i * stride) 12)

def pushSubset (parts : List TdModelPart) (s : TdModelSubset) : List TdModelPart :=
  parts.modifyLast fun p => { p with Subsets := p.Subsets ++ [s] }

/-! ### The rounds of the loops -/

section Rounds
variable (target : Target) (u : Uninit)

def LoadState.reject (st : LoadState) (stream : BaseStream) (events : List LoadEvent) : LoadState :=
  { st with stream, log := st.log ++ events, pc := .returned false }

def loadHeader (st : LoadState) : LoadState :=
  let (hdr, got, stream) := readStruct FileHeader.codec st.stream u
  let events := [.read false FileHeader.codec.size FileHeader.codec.size got]
  if hdr.szSign.toList ≠ ascii "SEYEDOF 3D FORMAT" then st.reject stream events
  else if hdr.uiVersion ≠ formatVersion then st.reject stream events
  else
    { stream
      iMaterialLibOfs := hdr.iMaterialLibOfs
      iTexLibOfs := hdr.iTexLibOfs
      model := emptyModel
      log := st.log ++ events
      pc := .part hdr.iFirstPartOfs }

def loadPart (iNextPartOfs : Int32) (st : LoadState) : LoadState :=
  let (hdr, got, stream) := readStruct FilePart.codec (st.stream.seekTo iNextPartOfs) u
  let events := [.read false FilePart.codec.size FilePart.codec.size got]
  if hdr.szSign.toList ≠ ascii "PART" then st.reject stream events
  else
    let sName := nameAt FilePart.codec hdr 4 u.tail
    { st with
      stream
      model := { st.model with Parts := st.model.Parts ++ [⟨sName, []⟩] }
      log := st.log ++ events ++ [.part sName]
      pc := .subset hdr.iFirstSubset hdr.iNextPartOfs }

def loadSubset (iNextSubsetOfs iNextPartOfs : Int32) (st : LoadState) : LoadState :=
  let (hdr, got, stream) := readStruct FileSubset.codec (st.stream.seekTo iNextSubsetOfs) u
  let events := [.read false FileSubset.codec.size FileSubset.codec.size got]
  if hdr.szSign.toList ≠ ascii "SUBSET" then st.reject stream events
  else if hdr.uiDataSize.toNat ≠ hdr.checkedSize target then st.reject stream events
  -- `new uint32_t [ n ]` throws when the buffer has no `size_t` size
  else if target.sizeMod ≤ 4 * hdr.ibCount then
    { st with stream, log := st.log ++ events, pc := .threw }
  else
    let b := if hdr.isCompressed then readCompressed target u hdr stream else readRaw target u hdr stream
    let stride := (getVertexSize hdr.uiVertexFormat).toNat
    let subset : TdModelSubset :=
      { pVB := b.pVB
        pIB := Codec.u32.decMany hdr.ibCount b.pIB
        uiVertCount := hdr.uiVertexCount
        uiTriCount := hdr.uiTriCount
        sMatName := nameAt FileSubset.codec hdr 10 u.tail
        uiVertexFmt := hdr.uiVertexFormat }
    let box := (vertexPositions u.beyond b.pVB stride hdr.uiVertexCount.toNat).foldl widen
      (st.model.ptMin, st.model.ptMax)
    { st with
      stream := b.stream
      model := { st.model with
        Parts := pushSubset st.model.Parts subset
        ptMin := box.1
        ptMax := box.2 }
      log := st.log ++ events ++ b.events ++
        [.positions b.pVB.length stride hdr.uiVertexCount.toNat, .subset hdr subset]
      pc := .subset hdr.iNextSubsetOfs iNextPartOfs }

/-- The structure of a material chunk as a material. The map entry is made first and filled in
afterwards; nothing reads it in between. -/
def materialOf (hdr : FileMaterial) (tail : List UInt8) : TdModelMaterial where
  sName := nameAt FileMaterial.codec hdr 8 tail
  clrAmbient := hdr.f4Ambient
  clrDiffuse := hdr.f4Diffuse
  fTransparency := hdr.fAlpha
  fSpecIntensity := hdr.fSpecIntensity
  fGlossiness := hdr.fGlossiness
  fReflectionFactor := hdr.fReflectionFactor
  sDiffuseTextureName := nameAt FileMaterial.codec hdr 96 tail
  sNormalTextureName := nameAt FileMaterial.codec hdr 224 tail
  sSpecularTextureName := nameAt FileMaterial.codec hdr 192 tail
  sAlphaTextureName := nameAt FileMaterial.codec hdr 128 tail
  sReflectionTextureName := nameAt FileMaterial.codec hdr 160 tail

def loadMaterial (iNextMatOfs : Int32) (st : LoadState) : LoadState :=
  let (hdr, got, stream) := readStruct FileMaterial.codec (st.stream.seekTo iNextMatOfs) u
  let events := [.read false FileMaterial.codec.size FileMaterial.codec.size got]
  if hdr.szSign.toList ≠ ascii "MATERIAL" then st.reject stream events
  else
    let mtrl := materialOf hdr u.tail
    { st with
      stream
      model := { st.model with Materials := st.model.Materials.insert mtrl.sName mtrl }
      log := st.log ++ events ++ [.material mtrl]
      pc := .material hdr.iNextMaterialOfs }

/-- A texture payload in its buffer. -/
def readTexture (hdr : FileTexture) (s : BaseStream) : List UInt8 × BaseStream × List LoadEvent :=
  if hdr.uiFlags = tdsFlagCompressed then
    let r := s.read u.beyond hdr.uiCompressedSize
    let pSrc := overlay (cells u.pSrc hdr.uiCompressedSize.toNat) r.1.bytes
    let (result, pData) := unpack u.pDest pSrc hdr.uiDataSize
    (pData, r.2, [
      .read true hdr.uiCompressedSize.toNat hdr.uiCompressedSize.toNat r.1,
      .unpack hdr.uiCompressedSize.toNat hdr.uiDataSize.toNat result])
  else
    let r := s.read u.beyond hdr.uiDataSize
    (overlay (cells u.pDest hdr.uiDataSize.toNat) r.1.bytes, r.2,
      [.read true hdr.uiDataSize.toNat hdr.uiDataSize.toNat r.1])

def loadTexture (iNextTexOfs : Int32) (st : LoadState) : LoadState :=
  let (hdr, got, stream) := readStruct FileTexture.codec (st.stream.seekTo iNextTexOfs) u
  let events := [.read false FileTexture.codec.size FileTexture.codec.size got]
  if hdr.szSign.toList ≠ ascii "TEX" then st.reject stream events
  else
    let (pData, stream, payload) := readTexture u hdr stream
    let tex : TdModelTextureSlot :=
      { sName := nameAt FileTexture.codec hdr 3 u.tail
        uiSize := hdr.uiDataSize
        pData
        eFormat := hdr.eTexFormat
        clrAvgColor := hdr.clrAvgColor }
    { st with
      stream
      model := { st.model with Textures := st.model.Textures.insert tex.sName tex }
      log := st.log ++ events ++ payload ++ [.texture tex]
      pc := .texture hdr.iNextTexOfs }

/-- One round of the loop the control is at, or the way out of it. -/
def loadStep (st : LoadState) : LoadState :=
  match st.pc with
  | .start => loadHeader u st
  | .part ofs => if 0 < ofs then loadPart u ofs st else { st with pc := .material st.iMaterialLibOfs }
  | .subset ofs part =>
    if 0 < ofs then loadSubset target u ofs part st else { st with pc := .part part }
  | .material ofs =>
    if 0 < ofs then loadMaterial u ofs st else { st with pc := .texture st.iTexLibOfs }
  | .texture ofs => if 0 < ofs then loadTexture u ofs st else { st with pc := .returned true }
  | .returned _ => st
  | .threw => st

end Rounds

/-! ### Runs -/

/-- A byte string behind a stream, as `Load3DScanModelFromMemory` and `Load3DScanModelFromFile` set
it up. -/
inductive Source where
  | memory (bytes : List UInt8) (small : bytes.length < 2 ^ 32)
  | file (bytes : List UInt8)

namespace Source

def stream : Source → BaseStream
  | .memory bytes small => .mem (.bind bytes small)
  | .file bytes => .file (.openFile bytes)

def bytes : Source → List UInt8
  | .memory bytes _ => bytes
  | .file bytes => bytes

theorem stream_at (src : Source) : src.stream.At src.bytes 0 := by
  cases src with
  | memory bytes small => exact BaseStream.at_bind bytes small
  | file bytes => exact BaseStream.at_openFile bytes

def entry (src : Source) : LoadState :=
  ⟨src.stream, 0, 0, emptyModel, [], .start⟩

end Source

def LoadState.Ended (st : LoadState) : Prop := (∃ accepted, st.pc = .returned accepted) ∨ st.pc = .threw

def LoadState.Accepted (st : LoadState) : Prop := st.pc = .returned true

/-- The state after a run over given contents of uninitialised memory. -/
def load (target : Target) (src : Source) (memory : List Uninit) : LoadState :=
  Machine.run (loadStep target) src.entry memory

theorem loadStep_ended {target : Target} {st : LoadState} (h : st.Ended) (u : Uninit) :
    loadStep target u st = st := by
  rcases h with ⟨accepted, pc⟩ | pc <;> simp [loadStep, pc]

end ModelPublish.Scan
