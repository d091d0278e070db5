import ModelPublish.Server.Host
import ModelPublish.Packed.Codec

/-!
# The handlers of CModelPublishServer

Each handler as a program over its calls. What several of them do alike is one stage, to which each
passes its own field, column, folder or text.
-/

namespace ModelPublish.Server
open Packed
open Packed.Codec (u16)

/-- `jsonParams2`. -/
abbrev Params : Type := List (WString × Json)

/-- `params.at ( key ).as_string ()`. -/
def stringAt (params : Params) (key : String) : Program WString :=
  match params.lookup (wide key) with
  | some (.string s) => pure s
  | _ => .stop .jsonException

/-- `params.at ( key ).as_integer ()`. -/
def integerAt (params : Params) (key : String) : Program Int :=
  match params.lookup (wide key) with
  | some (.number value) => pure (value.bmod (2 ^ 32))
  | _ => .stop .jsonException

/-- `WideCharToMultiByte`, which writes nothing when the text is longer than the buffer. -/
def CodePage.narrowInto (page : CodePage) (d : UInt8) (size : Nat) (s : WString) : CString :=
  if (page.narrow d s).length ≤ size then page.narrow d s else []

/-- A text in a `char [ 256 ]`. The terminator of one that fills it is written behind it. -/
def buffer (host : Host) (s : WString) : Program CString :=
  let sz := host.page.narrowInto 0 256 s
  if sz.length = 256 then .stop .undefined else pure sz

/-- `ftell` at the end of a file, an `int`. -/
def fileSize (content : List UInt8) : Program Nat :=
  if content.length < 2 ^ 31 then pure content.length else .stop .undefined

/-- `Base64EncodeGetRequiredLength`, which throws when its `int` is too small. -/
def requiredLength (host : Host) (iSize : Nat) : Program Nat :=
  if 4 * iSize < 2 ^ 31 then pure (host.base64.requiredLength iSize) else .stop .atlException

/-- A column of the last row, where `NULL` reads as 0. -/
def lastInt {α : Type} (res : List α) (column : α → Option Int) : Int :=
  res.foldl (fun _ row => (column row).getD 0) (-1)

/-- `json::value::string` of a `wchar_t*`. -/
def jsonString (s : WString) : WString := s.takeWhile (· ≠ 0)

/-! ### Stages -/

def fetchSubscription (host : Host) (params : Params) (column : Subscription → Option Int) (reply : Reply) :
    Program (Int × Reply) := do
  let strPname ← stringAt params "subsid"
  let szModelId ← buffer host strPname
  let res ← executeQuery (.subscription szModelId)
  let reply := if res.isEmpty then
      reply.outcome "Subscription id not found!" .subscriptionNotFound .notFound
    else reply
  pure (lastInt res column, reply)

def fetchModel (iModelId : Int) (reply : Reply) : Program (Int × Reply) :=
  if iModelId ≠ -1 then do
    match ← executeQuery (.modelDesc iModelId) with
    | none => pure (-1, reply.outcome "Model id not found!" .modelNotFound .notFound)
    | some row => pure (row.pcFileId.getD 0, reply)
  else pure (-1, reply)

def base64Suffix : CString := ascii ".base64"

/-- The wide text that a binary file is sent as. -/
def fileText (host : Host) (pBuf : List UInt8) : WString := host.page.widen (cstr (host.base64.encode pBuf))

/-- The text that is read back: the file in a buffer of as many `wchar_t` as it has bytes. -/
def savedText (env : Env) (content : List UInt8) : WString :=
  let iSize := content.length
  u16.decMany iSize (overlay (cells env.memory (2 * iSize)) content)

/-- A file is sent from its `.base64` file, which is made the first time. -/
def sendFile (host : Host) (strFullFilePathName : CString) (message : String) (put : WString → Reply → Reply)
    (env : Env) (reply : Reply) : Program Reply := do
  let strBase64FileName := strFullFilePathName ++ base64Suffix
  match ← readFile strBase64FileName with
  | none =>
    match ← readFile strFullFilePathName with
    | none => pure (reply.outcome message .couldNotOpenFile .notFound)
    | some pBuf =>
      let iSize ← fileSize pBuf
      let _ ← requiredLength host iSize
      let pszBase64 := fileText host pBuf
      saveFile strBase64FileName (u16.encMany pszBase64)
      pure (put (jsonString pszBase64) reply.success)
  | some content =>
    let _ ← fileSize content
    pure (put (jsonString (savedText env content)) reply.success)

def modelFilePath : CString := ascii "Models//"

def adFilePath : CString := ascii "Ads//"

def modelFileExtension : CString := ascii ".3dscan"

def adFileExtension : CString := ascii ".png"

/-- The name of the file that an upload writes. -/
def modelFileName (env : Env) : CString := env.uuid.chars ++ modelFileExtension

def adFileName (env : Env) : CString := env.uuid.chars ++ adFileExtension

/-- `getBlob` into a `char` array that a `string` is made of. -/
def blobString (column : CString) : CString := cstr column

/-- `m_szServerRootFolder`, the folder and the name. -/
def fullFilePathName (host : Host) (folder strPathName : CString) : CString :=
  host.m_szServerRootFolder ++ folder ++ strPathName

def modelPath (host : Host) (file : FileAddress) : CString :=
  fullFilePathName host modelFilePath (blobString file.filePathName)

def adPath (host : Host) (ad : Advertisement) : CString :=
  fullFilePathName host adFilePath (blobString ad.filePathName)

def fetchUser (host : Host) (params : Params) (reply : Reply) : Program (Int × Reply) := do
  let strPname ← stringAt params "user"
  let szUser ← buffer host strPname
  let strPname ← stringAt params "pass"
  let szPass ← buffer host strPname
  let res ← executeQuery (.user szUser szPass)
  let reply := if res.isEmpty then
      reply.outcome "Invalid username or password!" .invalidUserPass .forbidden
    else reply
  pure (lastInt res fun row => some row.id, reply)

/-- The Base64 field `key` is decoded into a new file. Its name and its size are returned. -/
def storeFile (host : Host) (env : Env) (params : Params) (key : String) (folder extension : CString) :
    Program (CString × Nat) := do
  let str1 ← stringAt params key
  let pszAnsi := host.page.narrowInto (env.memory 0) str1.length str1
  let pData := host.base64.decode pszAnsi
  let strFullFilePathName := env.uuid.chars ++ extension
  saveFile (fullFilePathName host folder strFullFilePathName) pData
  pure (strFullFilePathName, pData.length)

/-- An `INSERT` and the id it gave, where no row ends in an error but does not end the handler. -/
def insertRow (u : Update) (reply : Reply) : Program (Int × Reply) := do
  let iInsert ← executeUpdate u
  let reply := if iInsert = 0 then
      reply.outcome "Subscription id not found!" .subscriptionNotFound .notFound
    else reply
  match ← executeQuery .lastInsertId with
  | none => pure (-1, reply.outcome "Subscription id not found!" .subscriptionNotFound .notFound)
  | some id => pure (id, reply)

/-- The `INSERT` that a handler ends with. -/
def insertLast (u : Update) (put : Int → Reply → Reply) (reply : Reply) : Program Reply := do
  let iInsert ← executeUpdate u
  if iInsert = 0 then pure (reply.outcome "Model id not found!" .modelNotFound .notFound)
  else
    match ← executeQuery .lastInsertId with
    | none => pure (reply.outcome "Model id not found!" .modelNotFound .notFound)
    | some id => pure (if id ≠ -1 then put id reply.success else reply)

/-! ### Downloads -/

/-- The row of a model's file, and what is sent of the file. -/
def fetchFile (host : Host) (send : CString → Env → Reply → Program Reply) (iFileId : Int) (env : Env)
    (reply : Reply) : Program Reply :=
  if iFileId ≠ -1 then do
    match ← executeQuery (.fileAddress iFileId) with
    | none => pure (reply.outcome "Model file address not found!" .fileAddressNotFound .notFound)
    | some row => send (fullFilePathName host modelFilePath (blobString row.filePathName)) env reply
  else pure reply

def sendModel (host : Host) (path : CString) : Env → Reply → Program Reply :=
  sendFile host path "Could not open model file!" fun s reply => { reply with model := some s }

def onGetModel (host : Host) (env : Env) (params : Params) (reply : Reply) : Program Reply := do
  connect
  let (iModelId, reply) ← fetchSubscription host params (·.modelId) reply
  let (iFileId, reply) ← fetchModel iModelId reply
  fetchFile host (sendModel host) iFileId env reply

def sendAd (host : Host) (path : CString) : Env → Reply → Program Reply :=
  sendFile host path "Could not open ad file!" fun s reply => { reply with ad := some s }

/-- The row of an ad, its URL and its file. -/
def fetchAd (host : Host) (iAdId : Int) (env : Env) (reply : Reply) : Program Reply :=
  if iAdId ≠ -1 then do
    match ← executeQuery (.advertisement iAdId) with
    | none => pure (reply.outcome "Ad id not found!" .adNotFound .notFound)
    | some row =>
      let reply := { reply with url := some (jsonString (host.page.widen (blobString row.adUrl))) }
      sendAd host (fullFilePathName host adFilePath (blobString row.filePathName)) env reply
  else pure reply

def onGetAd (host : Host) (env : Env) (params : Params) (reply : Reply) : Program Reply := do
  connect
  let (iAdId, reply) ← fetchSubscription host params (·.adId) reply
  fetchAd host iAdId env reply

/-- `fread` of 64 bytes into a new buffer. -/
def header (env : Env) (content : List UInt8) : List UInt8 := overlay (cells env.memory 64) (content.take 64)

/-- `fread` of `iSize` times two bytes into a new buffer of `iSize` characters. -/
def savedHeader (env : Env) (iSize : Nat) (content : List UInt8) : WString :=
  u16.decMany iSize (overlay (cells env.memory (2 * iSize)) (content.take (2 * iSize)))

/-- Here the extension is put behind the name once more. -/
def sendInfo (host : Host) (strFullFilePathName : CString) (env : Env) (reply : Reply) : Program Reply := do
  match ← readFile (strFullFilePathName ++ base64Suffix) with
  | none =>
    match ← readFile (strFullFilePathName ++ modelFileExtension) with
    | none => pure (reply.outcome "Could not open model file!" .couldNotOpenFile .notFound)
    | some content =>
      let iTotalFileSize ← fileSize content
      let iTotalFizeSizeBase64 ← requiredLength host iTotalFileSize
      pure { reply.success with
        info := some (jsonString (fileText host (header env content)))
        size := some iTotalFizeSizeBase64 }
  | some content =>
    let iSize := host.base64.requiredLength 64 * 2
    let iTotalFileSize ← fileSize content
    pure { reply.success with
      info := some (jsonString (savedHeader env iSize content))
      size := some iTotalFileSize }

def onGetInfo (host : Host) (env : Env) (params : Params) (reply : Reply) : Program Reply := do
  connect
  let (iModelId, reply) ← fetchSubscription host params (·.modelId) reply
  let (iFileId, reply) ← fetchModel iModelId reply
  fetchFile host (sendInfo host) iFileId env reply

/-! ### Uploads -/

def uploadFile (host : Host) (env : Env) (params : Params) (iUserId : Int) (reply : Reply) :
    Program (Int × Reply) :=
  if iUserId ≠ -1 then do
    let (name, iDataSize) ← storeFile host env params "model" modelFilePath modelFileExtension
    insertRow (.fileAddress name (name ++ base64Suffix) iDataSize) reply
  else pure (-1, reply)

def insertModel (host : Host) (params : Params) (iFileId : Int) (reply : Reply) : Program Reply :=
  if iFileId ≠ -1 then do
    let strPname ← stringAt params "name"
    let szModelName ← buffer host strPname
    let strPname ← stringAt params "desc"
    let szModelDesc ← buffer host strPname
    insertLast (.modelDesc iFileId iFileId szModelName szModelDesc)
      (fun iModelId reply => { reply with modelId := some iModelId }) reply
  else pure reply

def onUploadModel (host : Host) (env : Env) (params : Params) (reply : Reply) : Program Reply := do
  connect
  let (iUserId, reply) ← fetchUser host params reply
  let (iFileId, reply) ← uploadFile host env params iUserId reply
  insertModel host params iFileId reply

def insertAd (host : Host) (env : Env) (params : Params) (szUrl : CString) (iUserId : Int) (reply : Reply) :
    Program Reply :=
  if iUserId ≠ -1 then do
    let (name, _) ← storeFile host env params "ad" adFilePath adFileExtension
    let (iAdId, reply) ← insertRow (.advertisement name iUserId szUrl) reply
    pure (if iAdId ≠ -1 then { reply.success with adId := some iAdId } else reply)
  else pure reply

def onUploadAd (host : Host) (env : Env) (params : Params) (reply : Reply) : Program Reply := do
  connect
  let strPname ← stringAt params "url"
  let szUrl ← buffer host strPname
  let (iUserId, reply) ← fetchUser host params reply
  insertAd host env params szUrl iUserId reply

/-! ### Subscriptions -/

def fetchOwner (host : Host) (params : Params) (iUserId : Int) (reply : Reply) : Program (Int × Reply) :=
  if iUserId ≠ -1 then do
    let strPname ← stringAt params "owner"
    let szUser ← buffer host strPname
    let res ← executeQuery (.owner szUser)
    let reply := if res.isEmpty then
        reply.outcome "Invalid username or password!" .invalidUserPass .forbidden
      else reply
    pure (lastInt res fun row => some row.id, reply)
  else pure (-1, reply)

def modelExists (iOwnerId iModelId : Int) (reply : Reply) : Program (Bool × Reply) :=
  if iOwnerId ≠ -1 then do
    match ← executeQuery (.modelDescQuoted iModelId) with
    | none => pure (false, reply.outcome "Invalid username or password!" .invalidUserPass .forbidden)
    | some _ => pure (true, reply)
  else pure (false, reply)

/-- No ad is as good as one, except that the reply stays as it is set for a row that is missing. -/
def adExists (iOwnerId iAdId : Int) (reply : Reply) : Program (Bool × Reply) :=
  if iOwnerId ≠ -1 then do
    match ← executeQuery (.advertisementQuoted iAdId) with
    | none => pure (iAdId = -1, reply.outcome "Invalid username or password!" .invalidUserPass .forbidden)
    | some _ => pure (true, reply)
  else pure (false, reply)

def hashChar (r : Nat) : UInt8 := (if r % 52 < 26 then r % 52 + 65 else r % 52 + 97 - 26).toUInt8

/-- The hash of attempt `k`. -/
def candidate (host : Host) (seed k : Nat) : CString :=
  (List.range 8).map fun i => hashChar (host.rand seed (8 * k + i))

/-- From attempt `k` on, the first hash that no row has. -/
def chooseHash (host : Host) (seed : Nat) : Nat → Nat → Program CString
  | 0, _ => .stop .endless
  | attempts + 1, k => do
    let szHash := candidate host seed k
    let res ← executeQuery (.subscription szHash)
    if res.isEmpty then pure szHash else chooseHash host seed attempts (k + 1)

def insertSubscription (host : Host) (env : Env) (iOwnerId iModelId iAdId : Int) (bothExist : Bool)
    (reply : Reply) : Program Reply :=
  if bothExist then do
    let szHash ← chooseHash host env.tickCount env.attempts 0
    insertLast (.subscription iOwnerId iModelId iAdId szHash)
      (fun _ reply => { reply with subscriptionId := some (jsonString (host.page.widen szHash)) }) reply
  else pure reply

def onCreateSubscription (host : Host) (env : Env) (params : Params) (reply : Reply) : Program Reply := do
  connect
  let (iUserId, reply) ← fetchUser host params reply
  let (iOwnerId, reply) ← fetchOwner host params iUserId reply
  let iModelId ← integerAt params "model_id"
  let (bModelExists, reply) ← modelExists iOwnerId iModelId reply
  let iAdId ← integerAt params "ad_id"
  let (bAdExists, reply) ← adExists iOwnerId iAdId reply
  insertSubscription host env iOwnerId iModelId iAdId (bAdExists && bModelExists) reply

end ModelPublish.Server
