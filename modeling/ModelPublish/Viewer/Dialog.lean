import ModelPublish.Cache.ModelCache
import ModelPublish.D3d.Model
import ModelPublish.Scan.Load

/-!
# CModelViewerDlg

How the viewer comes to a model: the thread of the window, the three threads that download, and the
messages between them. A callback is cut at each of its statements, and the window processes messages in
the order in which they were posted.
-/

namespace ModelPublish.Viewer
open Cache Scan

variable {Shader Texture : Type}

/-- The index of a slot in `m_PointerPass`. -/
inductive Kind where
  | info
  | model
  | ad
  deriving DecidableEq

structure PointerPass where
  pData : Option (List UInt8)
  iSize : Int32
  deriving DecidableEq

namespace PointerPass

/-- The first `iSize` bytes. -/
def block (p : PointerPass) : Option Block :=
  p.pData.map fun bytes => ⟨bytes.take p.iSize.toInt.toNat, by
    have size := p.iSize.toInt_lt
    rw [List.length_take]
    omega⟩

/-- A buffer and its size as `LoadModel` returns them, with size 0 for a null pointer. -/
def ofFile (bytes : Option (List UInt8)) : PointerPass := ⟨bytes, Int32.ofNat (bytes.getD []).length⟩

/-- `SAFE_DELETE`. -/
def safeDelete (p : PointerPass) : PointerPass := { p with pData := none }

end PointerPass

inductive Message where
  | modelInfo (lParam : Int32)
  | modelDownloaded (lParam : Nat)
  | adDownloaded (lParam : Nat)
  deriving DecidableEq

/-- What the server answers. -/
structure Downloads where
  info : Block
  iFileSize : Int32
  model : Block
  ad : Block
  strAdUrl : Wide

/-! ### The state -/

structure Dialog (Texture : Type) where
  m_PointerPass : Kind → PointerPass
  m_strSubsid : Wide
  m_strAdUrl : Wide
  /-- the bytes that the model was read from -/
  m_pModel1 : Option Block
  m_pAdTex : Option Texture
  m_iAdWidth1 : Nat
  m_iAdHeight1 : Nat
  m_iFileSize : Int32
  m_bDownloading : Bool
  m_Cache : CModelCache

/-- A statement of a callback, in which the slot is that of its thread. -/
inductive Statement where
  | setData (pData : Block)
  | setSize (iSize : Int32)
  | setAdUrl (strAdUrl : Wide)
  | postMessage (message : Message)
  deriving DecidableEq

/-- `processed` is a record of the messages that were processed, each with the block it found in its slot. -/
structure World (Texture : Type) where
  dlg : Dialog Texture
  disk : Disk
  /-- what is left of the callback of each thread -/
  threads : Kind → List Statement
  queue : List Message
  processed : List (Message × Option Block)

def World.state (w : World Texture) : State := ⟨w.dlg.m_Cache, w.disk⟩

def World.setSlot (w : World Texture) (k : Kind) (p : PointerPass) : World Texture :=
  { w with dlg := { w.dlg with m_PointerPass := Function.update w.dlg.m_PointerPass k p } }

def World.post (w : World Texture) (message : Message) : World Texture := { w with queue := w.queue ++ [message] }

/-! ### The callbacks -/

def myInfoCallback (pData : Block) (iFileSize : Int32) : List Statement :=
  [.setData pData, .setSize (Int32.ofNat pData.bytes.length), .postMessage (.modelInfo iFileSize)]

def myModelCallback (pData : Block) : List Statement :=
  [.setData pData, .setSize (Int32.ofNat pData.bytes.length), .postMessage (.modelDownloaded 0)]

def myAdCallback (pData : Block) (strAdUrl : Wide) : List Statement :=
  [.setData pData, .setSize (Int32.ofNat pData.bytes.length), .setAdUrl strAdUrl,
    .postMessage (.adDownloaded 0)]

def Statement.exec (k : Kind) (w : World Texture) : Statement → World Texture
  | .setData pData => w.setSlot k { w.dlg.m_PointerPass k with pData := some pData.bytes }
  | .setSize iSize => w.setSlot k { w.dlg.m_PointerPass k with iSize }
  | .setAdUrl strAdUrl => { w with dlg := { w.dlg with m_strAdUrl := strAdUrl } }
  | .postMessage message => w.post message

/-- The next statement of a thread. -/
def threadStep (k : Kind) (w : World Texture) : World Texture :=
  match w.threads k with
  | [] => w
  | statement :: rest => statement.exec k { w with threads := Function.update w.threads k rest }

/-! ### Load3DScanFromUrl -/

def downloadInfo (D : Downloads) (w : World Texture) : World Texture :=
  { w with threads := Function.update w.threads .info (myInfoCallback D.info D.iFileSize) }

def downloadModel (D : Downloads) (w : World Texture) : World Texture :=
  { w with
    dlg := { w.dlg with m_bDownloading := true }
    threads := Function.update w.threads .model (myModelCallback D.model) }

def downloadAd (D : Downloads) (w : World Texture) : World Texture :=
  { w with threads := Function.update w.threads .ad (myAdCallback D.ad D.strAdUrl) }

/-- The part of `Load3DScanFromUrl` that asks the cache, with the value of `bDownloadModel` and
`bDownloadInfo`. -/
def loadFromCache (strSubsid : Wide) (calls : CModelCache.LoadCalls) (w : World Texture) :
    Bool × World Texture :=
  let w := { w with dlg := { w.dlg with m_strSubsid := strSubsid } }
  match w.dlg.m_Cache.loadModel w.disk strSubsid calls with
  | none => (true, w)
  | some loaded =>
    (false, (((w.setSlot .model (.ofFile (some loaded.model))).setSlot .ad (.ofFile loaded.ad)).post
      (.modelDownloaded 1)).post (.adDownloaded 1))

def load3DScanFromUrl (strSubsid : Wide) (D : Downloads) (calls : CModelCache.LoadCalls) (w : World Texture) :
    World Texture :=
  let (bDownload, w) := loadFromCache strSubsid calls w
  let slot := w.dlg.m_PointerPass .ad
  let bDownloadAd := !(slot.pData.isSome && slot.iSize ≠ 0)
  let w := if bDownload then downloadModel D (downloadInfo D w) else w
  if bDownloadAd then downloadAd D w else w

/-! ### WindowProc -/

/-- What Direct3D and GDI+ make of their inputs. -/
structure Graphics (Shader Texture : Type) where
  pDevice : Option (D3d.Device Shader Texture)
  /-- what `D3DXCreateTextureFromFileInMemoryEx` leaves in a pointer -/
  createTextureFromFileInMemoryEx : Option Texture → Option Block → Option Texture
  /-- width and height of the image, if there is one -/
  imageFromStream : Option Block → Option (Nat × Nat)

structure WindowCalls (Shader : Type) where
  memory : List Uninit
  materials : Name → D3d.D3dModelMaterial Shader
  box : Float3 × Float3
  thumb : Option Block
  localTime : List.Vector UInt16 8
  addModel : CModelCache.AddCalls
  addAd : SaveCall

section Window
variable (target : Target) (graphics : Graphics Shader Texture) (calls : WindowCalls Shader)

/-- `none` when the call does not come back, and NULL is `some none`. -/
def load3DScanModelFromMemory (memory : List Uninit) (pMem : Option Block) : Option (Option TdScanModel) :=
  match pMem with
  | none => some none
  | some pMem =>
    let st := load target (.memory pMem.bytes (Nat.lt_trans pMem.small (by decide))) memory
    match st.pc with
    | .returned true => some (some st.model)
    | .returned false => some none
    | _ => none

/-- Whether the model in a block comes to be shown. -/
def opensModel (pMem : Option Block) : Option Bool :=
  (load3DScanModelFromMemory target calls.memory pMem).map fun pModel =>
    pModel.any fun model => (D3d.createFromTDModel calls.materials graphics.pDevice model (.new calls.box)).1

def newModel (dlg : Dialog Texture) (pModelFileData : Option Block) : CModelCache.NewModel where
  strSubsid := dlg.m_strSubsid
  pModelFileData := pModelFileData
  pAdFileData := none
  strAdUrl := dlg.m_strAdUrl
  pThumbFileData := calls.thumb
  localTime := calls.localTime

/-- What is done with a model that is shown. -/
def modelShown (lParam : Nat) (w : World Texture) : World Texture :=
  let pData := (w.dlg.m_PointerPass .model).block
  let w := { w with dlg := { w.dlg with m_pModel1 := pData } }
  if lParam = 0 then
    let (_, cache, disk) := w.dlg.m_Cache.addModelToCache w.disk (newModel calls w.dlg pData) calls.addModel
    { w with dlg := { w.dlg with m_Cache := cache }, disk }
  else w

def onModelDownloaded (lParam : Nat) (w : World Texture) : Option (World Texture) :=
  (opensModel target graphics calls (w.dlg.m_PointerPass .model).block).map fun opens =>
    let w := if opens then modelShown calls lParam w else w
    let w := w.setSlot .model (w.dlg.m_PointerPass .model).safeDelete
    { w with dlg := { w.dlg with m_bDownloading := false } }

def onAdDownloaded (lParam : Nat) (w : World Texture) : World Texture :=
  let pData := (w.dlg.m_PointerPass .ad).block
  let size := (graphics.imageFromStream pData).getD (w.dlg.m_iAdWidth1, w.dlg.m_iAdHeight1)
  let w := { w with dlg := { w.dlg with
    m_pAdTex := graphics.createTextureFromFileInMemoryEx w.dlg.m_pAdTex pData
    m_iAdWidth1 := size.1
    m_iAdHeight1 := size.2 } }
  let w :=
    if lParam = 0 then
      let (_, cache, disk) :=
        w.dlg.m_Cache.addAdToCache w.disk w.dlg.m_strSubsid pData w.dlg.m_strAdUrl calls.addAd
      { w with dlg := { w.dlg with m_Cache := cache }, disk }
    else w
  w.setSlot .ad (w.dlg.m_PointerPass .ad).safeDelete

def onModelInfo (lParam : Int32) (w : World Texture) : World Texture :=
  let w := { w with dlg := { w.dlg with m_iFileSize := lParam } }
  w.setSlot .info (w.dlg.m_PointerPass .info).safeDelete

def Message.kind : Message → Kind
  | .modelInfo _ => .info
  | .modelDownloaded _ => .model
  | .adDownloaded _ => .ad

def windowProc (message : Message) (w : World Texture) : Option (World Texture) :=
  match message with
  | .modelDownloaded lParam => onModelDownloaded target graphics calls lParam w
  | .adDownloaded lParam => some (onAdDownloaded graphics calls lParam w)
  | .modelInfo lParam => some (onModelInfo lParam w)

/-- The window takes the next message. If `WindowProc` does not come back, nothing happens any more. -/
def messageStep (w : World Texture) : World Texture :=
  match w.queue with
  | [] => w
  | message :: queue =>
    match windowProc target graphics calls message { w with queue } with
    | none => w
    | some next =>
      { next with processed := w.processed ++ [(message, (w.dlg.m_PointerPass message.kind).block)] }

end Window

/-! ### Runs -/

def emptyString : Wide := ⟨[], by decide, by simp⟩

/-- The constructor, over what lies in memory. -/
def Dialog.construct (memory : Dialog Texture) : Dialog Texture :=
  { memory with
    m_PointerPass := fun k => { memory.m_PointerPass k with pData := none }
    m_strSubsid := emptyString
    m_strAdUrl := emptyString
    m_pModel1 := none
    m_pAdTex := none
    m_bDownloading := false
    m_Cache := .construct }

inductive Input (Shader Texture : Type) where
  | onInitDialog (memory : Dialog Texture) (calls : CModelCache.InitCalls)
  | load3DScanFromUrl (strSubsid : Wide) (D : Downloads) (calls : CModelCache.LoadCalls)
  | thread (k : Kind)
  | message (calls : WindowCalls Shader)

/-- `OnInitDialog` of a viewer that is started anew. -/
def onInitDialog (folder : Path) (memory : Dialog Texture) (calls : CModelCache.InitCalls) (w : World Texture) :
    World Texture :=
  let dlg := memory.construct
  let (_, cache, disk) := (dlg.m_Cache.setCacheFolder folder).initializeCache w.disk calls
  ⟨{ dlg with m_Cache := cache }, disk, fun _ => [], [], w.processed⟩

def step (target : Target) (graphics : Graphics Shader Texture) (folder : Path) :
    Input Shader Texture → World Texture → World Texture
  | .onInitDialog memory calls, w => onInitDialog folder memory calls w
  | .load3DScanFromUrl strSubsid D calls, w => load3DScanFromUrl strSubsid D calls w
  | .thread k, w => threadStep k w
  | .message calls, w => messageStep target graphics calls w

/-- Nothing is under way. -/
structure World.Quiet (w : World Texture) : Prop where
  threads : ∀ k, w.threads k = []
  queue : w.queue = []

end ModelPublish.Viewer
