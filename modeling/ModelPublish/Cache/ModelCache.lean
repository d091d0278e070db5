import ModelPublish.Cache.Entry

/-!
# CModelCache

The cache of the viewer over the files it keeps. Which calls of the system fail is an input of each
function, as are the names and the contents of memory that the system hands out.
-/

namespace ModelPublish.Cache
open Packed

abbrev Path : Type := List UInt16

abbrev Disk : Type := Path → Option (List UInt8)

def Disk.set (disk : Disk) (path : Path) (content : List UInt8) : Disk :=
  Function.update disk path (some content)

theorem Disk.set_same (disk : Disk) (path : Path) (content : List UInt8) :
    disk.set path content path = some content := Function.update_self ..

theorem Disk.set_other (disk : Disk) {path other : Path} (content : List UInt8) (ne : other ≠ path) :
    disk.set path content other = disk other := Function.update_of_ne ne ..

/-- A buffer with a size that is an `int`. -/
structure Block where
  bytes : List UInt8
  small : bytes.length < 2 ^ 31
  deriving DecidableEq

/-- An open file and its file pointer. -/
structure FileHandle where
  path : Path
  pointer : Nat
  deriving DecidableEq

structure CModelCache where
  m_szCacheFolder : Path
  m_szCacheFullPath : Path
  m_hCacheFile : Option FileHandle
  m_bEnableCacheStore : Bool
  m_bEnableCacheRead : Bool
  m_CacheTable : List CacheEntry

/-! ### Files -/

structure SaveCall where
  opens : Bool
  writes : Bool
  deriving DecidableEq

structure LoadCall where
  opens : Bool
  reads : Bool
  fill : Nat → UInt8

/-- `OPEN_ALWAYS` keeps what the file holds, and nothing is cut off behind the data. -/
def saveMemToFile (disk : Disk) (call : SaveCall) (path : Path) (data : List UInt8) : Bool × Disk :=
  if call.opens then
    let content := (disk path).getD []
    if call.writes then (true, disk.set path (patch content 0 data))
    else (false, disk.set path content)
  else (false, disk)

def loadFileToMem (disk : Disk) (call : LoadCall) (path : Path) : Option (List UInt8) :=
  if call.opens then
    (disk path).map fun content =>
      let dwFileSize := content.length % 2 ^ 32
      if call.reads then content.take dwFileSize else cells call.fill dwFileSize
  else none

/-- `GetTempFileNameW` creates the file it names. -/
def getTempFileName (disk : Disk) (name : Option Wide) : Option (Wide × Disk) :=
  name.map fun name => (name, disk.set name.chars [])

/-- `SetFilePointer ( h, 0, NULL, FILE_END )`. -/
def FileHandle.toEnd (h : FileHandle) (disk : Disk) : FileHandle :=
  { h with pointer := ((disk h.path).getD []).length }

def FileHandle.write (h : FileHandle) (disk : Disk) (data : List UInt8) : FileHandle × Disk :=
  ({ h with pointer := h.pointer + data.length },
    disk.set h.path (patch ((disk h.path).getD []) h.pointer data))

namespace CModelCache

def construct : CModelCache := ⟨[], [], none, true, true, []⟩

def cleanUp (_ : CModelCache) : CModelCache := ⟨[], [], none, true, true, []⟩

def setCacheFolder (c : CModelCache) (folder : Path) : CModelCache := { c with m_szCacheFolder := folder }

def enableCacheRead (c : CModelCache) (bEnable : Bool) : CModelCache :=
  { c with m_bEnableCacheRead := bEnable }

def enableCacheStore (c : CModelCache) (bEnable : Bool) : CModelCache :=
  { c with m_bEnableCacheStore := bEnable }

def enableCache (c : CModelCache) (bEnable : Bool) : CModelCache :=
  (c.enableCacheRead bEnable).enableCacheStore bEnable

/-! ### Initialize -/

structure InitCalls where
  appData : Option Path
  opens : Bool
  saves : SaveCall
  reopens : Bool
  reads : Bool

def indexName : Path := [99, 97, 99, 104, 101, 46, 100, 97, 116]

/-- The index file is opened, or created and opened. -/
def openIndex (disk : Disk) (calls : InitCalls) (szFile : Path) : Option FileHandle × Disk :=
  if calls.opens && (disk szFile).isSome then (some ⟨szFile, 0⟩, disk)
  else
    let (saved, disk) := saveMemToFile disk calls.saves szFile []
    (if saved && calls.reopens && (disk szFile).isSome then some ⟨szFile, 0⟩ else none, disk)

/-- The table after `resize` and `ReadFile`. -/
def readTable (dwSize : Nat) (content : List UInt8) (reads : Bool) (table : List CacheEntry) :
    List CacheEntry :=
  let iCount := dwSize / CacheEntry.codec.size
  if iCount = 0 then table
  else if reads then CacheEntry.codec.decMany iCount content
  else List.replicate iCount .zero

def initializeCache (c : CModelCache) (disk : Disk) (calls : InitCalls) : Bool × CModelCache × Disk :=
  if c.m_hCacheFile.isSome then (false, c, disk)
  else
    match calls.appData with
    | none => (false, c, disk)
    | some pszAppData =>
      let full := pszAppData ++ 92 :: c.m_szCacheFolder
      let c := { c with m_szCacheFullPath := full }
      match openIndex disk calls (full ++ indexName) with
      | (none, disk) => (false, c, disk)
      | (some h, disk) =>
        let content := (disk h.path).getD []
        let dwSize := content.length % 2 ^ 32
        (true, { c with
          m_hCacheFile := some { h with
            pointer := h.pointer + dwSize / CacheEntry.codec.size * CacheEntry.codec.size }
          m_CacheTable := readTable dwSize content calls.reads c.m_CacheTable }, disk)

/-! ### Entries -/

def searchInCache (c : CModelCache) (strSubsid : Wide) : Option Nat :=
  if c.m_hCacheFile.isNone then none
  else if c.m_bEnableCacheRead = false then none
  else c.m_CacheTable.findIdx? fun entry => wcs entry.szSibscriptionId = strSubsid.chars

structure AddCalls where
  modelName : Option Wide
  adName : Option Wide
  thumbName : Option Wide
  model : SaveCall
  ad : SaveCall
  thumb : SaveCall
  seeks : Bool
  writes : Bool

structure NewModel where
  strSubsid : Wide
  pModelFileData : Option Block
  pAdFileData : Option Block
  strAdUrl : Wide
  pThumbFileData : Option Block
  localTime : List.Vector UInt16 8

/-- A file that is saved unless the data pointer is null. -/
def saveOptional (disk : Disk) (call : SaveCall) (path : Path) (data : Option Block) : Bool × Disk :=
  match data with
  | none => (true, disk)
  | some data => saveMemToFile disk call path data.bytes

def newEntry (m : NewModel) (szModelFile szAdFile szThumbFile : Wide) : CacheEntry where
  szSibscriptionId := wcscpy CacheEntry.zero.szSibscriptionId m.strSubsid
  DateTime := m.localTime
  dwHash := 0
  szModelFile := wcscpy CacheEntry.zero.szModelFile szModelFile
  szAdFile := wcscpy CacheEntry.zero.szAdFile szAdFile
  szThumbFile := wcscpy CacheEntry.zero.szThumbFile szThumbFile
  szAdUrl := wcscpy CacheEntry.zero.szAdUrl m.strAdUrl

/-- The record is written where the file pointer stands. -/
def appendRecord (h : FileHandle) (disk : Disk) (seeks writes : Bool) (entry : CacheEntry) :
    FileHandle × Disk :=
  let h := if seeks then h.toEnd disk else h
  if writes then h.write disk (CacheEntry.codec.enc entry) else (h, disk)

/-- `AddModelToCache` up to the record: its files are saved. -/
def fileModel (c : CModelCache) (disk : Disk) (m : NewModel) (calls : AddCalls) : Option CacheEntry × Disk :=
  match c.m_hCacheFile, m.pModelFileData with
  | none, _ => (none, disk)
  | _, none => (none, disk)
  | some _, some pModelFileData =>
    if c.m_bEnableCacheStore = false then (none, disk)
    else if (c.searchInCache m.strSubsid).isSome then (none, disk)
    else
      match getTempFileName disk calls.modelName with
      | none => (none, disk)
      | some (szModelFile, disk) =>
        match getTempFileName disk calls.adName with
        | none => (none, disk)
        | some (szAdFile, disk) =>
          match getTempFileName disk calls.thumbName with
          | none => (none, disk)
          | some (szThumbFile, disk) =>
            match saveMemToFile disk calls.model szModelFile.chars pModelFileData.bytes with
            | (false, disk) => (none, disk)
            | (true, disk) =>
              match saveOptional disk calls.ad szAdFile.chars m.pAdFileData with
              | (false, disk) => (none, disk)
              | (true, disk) =>
                match saveOptional disk calls.thumb szThumbFile.chars m.pThumbFileData with
                | (false, disk) => (none, disk)
                | (true, disk) => (some (newEntry m szModelFile szAdFile szThumbFile), disk)

def addModelToCache (c : CModelCache) (disk : Disk) (m : NewModel) (calls : AddCalls) :
    Bool × CModelCache × Disk :=
  match c.m_hCacheFile, c.fileModel disk m calls with
  | some h, (some entry, disk) =>
    let (h, disk) := appendRecord h disk calls.seeks calls.writes entry
    (true, { c with m_hCacheFile := some h, m_CacheTable := c.m_CacheTable ++ [entry] }, disk)
  | _, (_, disk) => (false, c, disk)

/-- What the out-parameters of `LoadModel` hold: a null pointer for an ad that cannot be read, a
buffer that was deleted for a thumbnail. -/
structure Loaded where
  model : List UInt8
  ad : Option (List UInt8)
  thumb : Option (List UInt8)
  deriving DecidableEq

structure LoadCalls where
  model : LoadCall
  ad : LoadCall
  thumb : LoadCall

/-- The files an entry names. -/
def loadEntry (disk : Disk) (entry : CacheEntry) (calls : LoadCalls) : Option Loaded :=
  (loadFileToMem disk calls.model (wcs entry.szModelFile)).map fun model =>
    ⟨model, loadFileToMem disk calls.ad (wcs entry.szAdFile),
      loadFileToMem disk calls.thumb (wcs entry.szThumbFile)⟩

def loadModel (c : CModelCache) (disk : Disk) (strSubsid : Wide) (calls : LoadCalls) : Option Loaded :=
  if c.m_hCacheFile.isNone then none
  else if c.m_bEnableCacheRead = false then none
  else
    match c.searchInCache strSubsid with
    | none => none
    | some i => (c.m_CacheTable[i]?).bind fun entry => loadEntry disk entry calls

def setUrl (strAdUrl : Wide) (entry : CacheEntry) : CacheEntry :=
  { entry with szAdUrl := wcscpy entry.szAdUrl strAdUrl }

/-- The record on disk is not written again. -/
def addAdToCache (c : CModelCache) (disk : Disk) (strSubsid : Wide) (pAdFileData : Option Block)
    (strAdUrl : Wide) (call : SaveCall) : Bool × CModelCache × Disk :=
  match pAdFileData with
  | none => (false, c, disk)
  | some pAdFileData =>
    if c.m_hCacheFile.isNone then (false, c, disk)
    else if c.m_bEnableCacheStore = false then (false, c, disk)
    else
      match c.searchInCache strSubsid with
      | none => (false, c, disk)
      | some i =>
        match saveMemToFile disk call (((c.m_CacheTable[i]?).map fun e => wcs e.szAdFile).getD [])
            pAdFileData.bytes with
        | (false, disk) => (false, c, disk)
        | (true, disk) => (true, { c with m_CacheTable := c.m_CacheTable.modify i (setUrl strAdUrl) }, disk)

end CModelCache

/-! ### Runs -/

structure State where
  cache : CModelCache
  disk : Disk

/-- The calls a viewer makes. `restart` is `CleanUp`, `SetCacheFolder` and `Initialize`. -/
inductive Op where
  | initializeCache (calls : CModelCache.InitCalls)
  | restart (calls : CModelCache.InitCalls)
  | addModel (m : CModelCache.NewModel) (calls : CModelCache.AddCalls)
  | addAd (strSubsid : Wide) (pAdFileData : Option Block) (strAdUrl : Wide) (call : SaveCall)
  | loadModel (strSubsid : Wide) (calls : CModelCache.LoadCalls)
  | enableCache (bEnable : Bool)
  | enableCacheRead (bEnable : Bool)
  | enableCacheStore (bEnable : Bool)

/-- A call with the value it returns. `folder` is the name the viewer gives to `SetCacheFolder`. -/
def call (folder : Path) (op : Op) (st : State) : Bool × State :=
  match op with
  | .initializeCache calls =>
    let (res, cache, disk) := st.cache.initializeCache st.disk calls
    (res, ⟨cache, disk⟩)
  | .restart calls =>
    let (res, cache, disk) := (st.cache.cleanUp.setCacheFolder folder).initializeCache st.disk calls
    (res, ⟨cache, disk⟩)
  | .addModel m calls =>
    let (res, cache, disk) := st.cache.addModelToCache st.disk m calls
    (res, ⟨cache, disk⟩)
  | .addAd strSubsid pAdFileData strAdUrl save =>
    let (res, cache, disk) := st.cache.addAdToCache st.disk strSubsid pAdFileData strAdUrl save
    (res, ⟨cache, disk⟩)
  | .loadModel strSubsid calls => ((st.cache.loadModel st.disk strSubsid calls).isSome, st)
  | .enableCache bEnable => (true, { st with cache := st.cache.enableCache bEnable })
  | .enableCacheRead bEnable => (true, { st with cache := st.cache.enableCacheRead bEnable })
  | .enableCacheStore bEnable => (true, { st with cache := st.cache.enableCacheStore bEnable })

def step (folder : Path) (op : Op) (st : State) : State := (call folder op st).2

def opened (folder : Path) (disk : Disk) : State := ⟨CModelCache.construct.setCacheFolder folder, disk⟩

end ModelPublish.Cache
