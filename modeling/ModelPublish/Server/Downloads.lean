import ModelPublish.Machine.Run
import ModelPublish.Server.Files
import ModelPublish.Server.Growth
import ModelPublish.Server.Subscriptions
import ModelPublish.Server.Uploads

/-!
# What is uploaded and what is downloaded

The bytes of a model or an ad on their way from a client to the server and back: the first download makes the
`.base64` file that all later ones read.
-/

namespace ModelPublish.Server
open Machine Packed Packed.Codec

/-! ### The client -/

/-- The text that `UploadModel` and `UploadAd` send, unless `Base64EncodeGetRequiredLength` throws. -/
def sentText (page : CodePage) (base64 : Base64) (pData : List UInt8) : Option WString :=
  if 4 * pData.length < 2 ^ 31 then some (jsonString (page.widen (base64.encode pData))) else none

/-- The bytes of a text that comes from the server. `lpDefaultChar` is a byte of new memory. -/
def receivedData (page : CodePage) (base64 : Base64) (lpDefaultChar : UInt8) (str1 : WString) : List UInt8 :=
  base64.decode (page.narrowInto lpDefaultChar str1.length str1)

/-- The bytes that `GetModel` and `GetAd` give, if they return true. -/
def getData (page : CodePage) (base64 : Base64) (lpDefaultChar : UInt8) (text : Reply → Option WString)
    (answer : Reply) : Option (List UInt8) :=
  if answer.httpResult ≠ .ok then none else (text answer).map (receivedData page base64 lpDefaultChar)

/-- `atlenc.h` with no flags: lines of 76 characters. -/
structure Base64.Inverts (base64 : Base64) : Prop where
  plain : ∀ p, ∀ c ∈ base64.encode p, c ≠ 0 ∧ c < 128
  decode_encode : ∀ p, p ≠ [] → base64.decode (base64.encode p) = p
  short : ∀ p, 2 * (base64.encode p).length ≤ 3 * p.length + 8

section Text
variable {base64 : Base64} {page : CodePage} {b : List UInt8}

theorem narrowInto_widened {p : CString} (ascii : ∀ c ∈ p, c < 128) (d : UInt8) :
    page.narrowInto d (widened p).length (widened p) = p := by
  have fits : (page.narrow d (widened p)).length ≤ (widened p).length := by
    rw [page.narrow_ascii d p ascii, widened, List.length_map]
  rw [CodePage.narrowInto, if_pos fits, page.narrow_ascii d p ascii]

theorem widened_ne_zero {p : CString} (noNul : ∀ c ∈ p, c ≠ 0) : ∀ c ∈ widened p, c ≠ 0 := by
  intro c member
  obtain ⟨x, among, rfl⟩ := List.mem_map.mp member
  intro zero
  have value := congrArg UInt16.toNat zero
  rw [UInt8.toNat_toUInt16] at value
  exact noNul x among (UInt8.toNat_inj.mp value)

theorem jsonString_append {s rest : WString} (noNul : ∀ c ∈ s, c ≠ 0) (ends : ∀ c ∈ rest.head?, c = 0) :
    jsonString (s ++ rest) = s := by
  rw [jsonString, List.takeWhile_append_of_pos (by simpa using noNul)]
  cases rest with
  | nil => exact List.append_nil s
  | cons c rest =>
    have zero : c = 0 := ends c rfl
    rw [List.takeWhile_cons_of_neg (by simp [zero]), List.append_nil]

theorem jsonString_eq {s : WString} (noNul : ∀ c ∈ s, c ≠ 0) : jsonString s = s := by
  have whole : jsonString (s ++ []) = s := jsonString_append noNul nofun
  rwa [List.append_nil] at whole

theorem text_ne_zero (inverts : base64.Inverts) : ∀ c ∈ widened (base64.encode b), c ≠ 0 :=
  widened_ne_zero fun c member => (inverts.plain b c member).1

theorem widen_encode (inverts : base64.Inverts) : page.widen (base64.encode b) = widened (base64.encode b) :=
  page.widen_ascii _ fun c member => (inverts.plain b c member).2

theorem sentText_eq (inverts : base64.Inverts) {s : WString} (sent : sentText page base64 b = some s) :
    4 * b.length < 2 ^ 31 ∧ s = widened (base64.encode b) := by
  rw [sentText, Option.ite_none_right_eq_some] at sent
  obtain ⟨short, same⟩ := sent
  rw [widen_encode inverts, jsonString_eq (text_ne_zero inverts)] at same
  exact ⟨short, (Option.some.inj same).symm⟩

theorem receivedData_text (inverts : base64.Inverts) (some_byte : b ≠ []) (d : UInt8) :
    receivedData page base64 d (widened (base64.encode b)) = b := by
  rw [receivedData, narrowInto_widened fun c member => (inverts.plain b c member).2]
  exact inverts.decode_encode b some_byte

end Text

/-! ### What the server keeps of an upload -/

/-- Both kinds of uploads. -/
inductive Item where
  | model
  | ad
  deriving DecidableEq

namespace Item

def key : Item → String
  | model => "model"
  | ad => "ad"

def folder : Item → CString
  | model => modelFilePath
  | ad => adFilePath

def extension : Item → CString
  | model => modelFileExtension
  | ad => adFileExtension

def column : Item → Subscription → Option Int
  | model => Subscription.modelId
  | ad => Subscription.adId

def id : Item → Reply → Option Int
  | model => Reply.modelId
  | ad => Reply.adId

def text : Item → Reply → Option WString
  | model => Reply.model
  | ad => Reply.ad

def upload (host : Host) (env : Env) (params : Params) : Item → Program Reply
  | model => onUploadModel host env params .initial
  | ad => onUploadAd host env params .initial

def download (host : Host) (env : Env) (params : Params) : Item → Program Reply
  | model => onGetModel host env params .initial
  | ad => onGetAd host env params .initial

def fileName (item : Item) (uuid : Uuid) : CString := uuid.chars ++ item.extension

def path (host : Host) (item : Item) (uuid : Uuid) : CString := fullFilePathName host item.folder (item.fileName uuid)

/-- From this id the tables lead to a file of this name. -/
def Leads {c : Collation} (db : Database c) (name : CString) (n : Int) : Item → Prop
  | model => ∃ model file, db.models.find? n = some model ∧ model.pcFileId = some file.id ∧ file.id ≠ -1 ∧
    file ∈ db.files.rows ∧ file.filePathName = name
  | ad => ∃ ad, db.ads.find? n = some ad ∧ ad.filePathName = name

theorem plain_fileName (item : Item) (uuid : Uuid) : Plain (item.fileName uuid) := by
  cases item with
  | model => exact (plain_uuid uuid).append plain_modelFileExtension
  | ad => exact (plain_uuid uuid).append plain_adFileExtension

theorem Leads.grows {c : Collation} {db db' : Database c} {name : CString} {n : Int} {item : Item}
    (leads : item.Leads db name n) (grows : db.Grows db') : item.Leads db' name n := by
  cases item with
  | model =>
    obtain ⟨model, file, found, refers, known, among, named⟩ := leads
    obtain ⟨member, rfl⟩ := Table.mem_of_find? found
    exact ⟨model, file, Table.find?_of_mem (grows.models model member), refers, known, grows.files file among, named⟩
  | ad =>
    obtain ⟨ad, found, named⟩ := leads
    obtain ⟨member, rfl⟩ := Table.mem_of_find? found
    exact ⟨ad, Table.find?_of_mem (grows.ads ad member), named⟩

end Item

/-- The rows and the files of an upload, and its text if that has been saved. -/
structure Kept (host : Host) (item : Item) (uuid : Uuid) (n : Int) (b : List UInt8) (w : World host.mysql.collation) :
    Prop where
  known : n ≠ -1
  leads : item.Leads w.db (item.fileName uuid) n
  content : w.files (item.path host uuid) = some b
  saved : ∀ content, w.files (item.path host uuid ++ base64Suffix) = some content →
    content = u16.encMany (fileText host b)

section Paths
variable {host : Host} {item : Item} {uuid : Uuid}

theorem path_ne_saved (item : Item) (uuid : Uuid) (other : CString) : item.path host uuid ≠ other ++ base64Suffix := by
  cases item with
  | model =>
    rw [Item.path, fullFilePathName, Item.fileName, ← List.append_assoc]
    exact modelFileExtension_ne_saved _ _
  | ad =>
    rw [Item.path, fullFilePathName, Item.fileName, ← List.append_assoc]
    exact adFileExtension_ne_saved _ _

theorem path_ne_path (item' : Item) {uuid' : Uuid} (fresh : uuid'.chars ≠ uuid.chars) :
    item.path host uuid ≠ item'.path host uuid' := by
  have differ (extension : CString) : uuid.chars ++ extension ≠ uuid'.chars ++ extension := fun same =>
    fresh (List.append_cancel_right same).symm
  cases item with
  | model =>
    cases item' with
    | model => exact fun same => differ modelFileExtension (List.append_cancel_left same)
    | ad => exact modelFilePath_ne_adFilePath _ _
  | ad =>
    cases item' with
    | model => exact (modelFilePath_ne_adFilePath _ _).symm
    | ad => exact fun same => differ adFileExtension (List.append_cancel_left same)

end Paths

section Keeps
variable {host : Host} {item : Item} {uuid : Uuid} {n : Int} {b : List UInt8} {w w' : World host.mysql.collation}

theorem Kept.saves {env : Env} (kept : Kept host item uuid n b w) (whole : env.saving = .whole)
    (saves : Saves host env w w') : Kept host item uuid n b w' := by
  rcases saves with rfl | ⟨path, pBuf, files, read, written, rfl⟩
  · exact kept
  rw [writeFile, whole, Saving.stored, Option.map_some] at written
  obtain rfl := Option.some.inj written
  refine ⟨kept.known, kept.leads, ?_, ?_⟩
  · dsimp only
    rw [Function.update_of_ne (path_ne_saved item uuid path), kept.content]
  · intro content found
    dsimp only at found
    by_cases same : item.path host uuid ++ base64Suffix = path ++ base64Suffix
    · have same' := List.append_cancel_right same
      rw [same, Function.update_self] at found
      rw [← same', kept.content] at read
      obtain rfl := Option.some.inj read
      exact (Option.some.inj found).symm
    · rw [Function.update_of_ne same] at found
      exact kept.saved content found

theorem Kept.afterTurn (adds : host.mysql.AddsRows) {t : Turn} (whole : t.env.saving = .whole)
    (fresh : t.env.uuid.chars ≠ uuid.chars) (kept : Kept host item uuid n b w) :
    Kept host item uuid n b (turn host t w) := by
  obtain ⟨env, method, request⟩ := t
  cases method with
  | get => exact kept.saves whole (handleGet_saves request)
  | post =>
    have grows : w.db.Grows (turn host ⟨env, .post, request⟩ w).db := turn_grows adds _
    have same : ∀ path, path ≠ Item.model.path host env.uuid → path ≠ Item.ad.path host env.uuid →
        (turn host ⟨env, .post, request⟩ w).files path = w.files path := fun path => handlePost_otherFile request
    refine ⟨kept.known, kept.leads.grows grows, ?_, ?_⟩
    · rw [same _ (path_ne_path .model fresh) (path_ne_path .ad fresh)]
      exact kept.content
    · rw [same _ (path_ne_saved .model env.uuid _).symm (path_ne_saved .ad env.uuid _).symm]
      exact kept.saved

end Keeps

/-! ### An upload -/

/-- Whatever is answered with `MS_ERROR_OK` ends in `P`. -/
def IfOk {c : Collation} (P : Reply → World c → Prop) (r : Except Stop Reply × World c) : Prop :=
  ∀ reply, r.1 = .ok reply → reply.errorCode = .ok → P reply r.2

theorem ifOk_error {c : Collation} {P : Reply → World c → Prop} {e : Stop} {w : World c} :
    IfOk P (.error e, w) := by
  intro reply returned
  cases returned

theorem ifOk_refused {c : Collation} {P : Reply → World c → Prop} {reply : Reply} {w : World c}
    (refused : reply.Refused) : IfOk P (.ok reply, w) := by
  intro other returned ok
  obtain rfl := Except.ok.inj returned
  exact absurd ok refused.code.1

section Upload
variable {host : Host} {env : Env} {params : Params} {w : World host.mysql.collation} {reply : Reply}
  {con : Connection} {b : List UInt8} {files : CString → Option (List UInt8)}

theorem ifOk_owner {P : Reply → World host.mysql.collation → Prop} (key : String) (folder extension : CString)
    {upload : Int × Reply → Program Reply} (rest : Int → Reply → CString × Nat → Program Reply)
    (skips : ∀ reply, upload (-1, reply) = pure reply)
    (stores : ∀ iUserId reply, iUserId ≠ -1 → upload (iUserId, reply) =
      storeFile host env params key folder extension >>= rest iUserId reply)
    (after : ∀ iUserId reply data files con, reply.Refused → fieldData host env params key = .ok data →
      writeFile env w.files (fullFilePathName host folder (env.uuid.chars ++ extension)) data = some files →
      IfOk P (runOn host env (rest iUserId reply (env.uuid.chars ++ extension, data.length)) con
        { w with files := files })) :
    IfOk P (runOn host env (fetchUser host params .initial >>= upload) con w) := by
  rw [runOn_fetchUser]
  cases checkedUser host env params con w with
  | error e => exact ifOk_error
  | ok rows =>
    have refused : (lookedUp rows "Invalid username or password!" .invalidUserPass .forbidden .initial).Refused :=
      lookedUp_refused rows (by decide) (by decide) Reply.refused_initial
    dsimp only
    by_cases known : (lastInt rows fun row => some row.id) = -1
    · rw [known, skips]
      exact ifOk_refused refused
    rw [stores _ _ known, runOn_storeFile]
    cases decoded : fieldData host env params key with
    | error e => exact ifOk_error
    | ok data =>
      dsimp only
      cases written : writeFile env w.files (fullFilePathName host folder (env.uuid.chars ++ extension)) data with
      | none => exact ifOk_error
      | some files => exact after _ _ _ _ _ refused decoded written

/-- The id that is answered leads to what is kept. -/
def KeptAs (host : Host) (item : Item) (uuid : Uuid) (b : List UInt8) (reply : Reply)
    (w : World host.mysql.collation) : Prop :=
  ∃ n, item.id reply = some n ∧ Kept host item uuid n b w

theorem ifOk_insertModel {db : Database host.mysql.collation} {file : FileAddress} (adds : host.mysql.AddsRows)
    (refused : reply.Refused) (known : file.id ≠ -1) (among : file ∈ db.files.rows)
    (named : file.filePathName = Item.model.fileName env.uuid)
    (content : files (Item.model.path host env.uuid) = some b)
    (unsaved : files (Item.model.path host env.uuid ++ base64Suffix) = none) :
    IfOk (KeptAs host .model env.uuid b)
      (runOn host env (insertModel host params file.id reply) con ⟨db, files⟩) := by
  rw [insertModel, if_pos known, runOn_field]
  cases fieldText host params "name" with
  | error e => exact ifOk_error
  | ok name =>
    dsimp only
    rw [runOn_field]
    cases fieldText host params "desc" with
    | error e => exact ifOk_error
    | ok desc =>
      dsimp only
      rw [runOn_insertLast]
      cases inserted : changes host env con ⟨db, files⟩ (.modelDesc file.id file.id name desc) with
      | none => exact ifOk_error
      | some changed =>
        obtain ⟨-, sameFiles, -, -⟩ := changes_keeps inserted
        rw [changes, Option.ite_none_left_eq_some] at inserted
        obtain ⟨model, found, pc⟩ := executeUpdate_modelRow adds inserted.2
        dsimp only
        split
        · exact ifOk_refused (refused.outcome _ (by decide) (by decide))
        split
        · exact ifOk_error
        split
        · rename_i given
          intro reply' returned _
          obtain rfl := Except.ok.inj returned
          refine ⟨changed.id, rfl, given, ⟨model, file, found, pc, known, sameFiles ▸ among, named⟩, content, ?_⟩
          intro content found
          cases unsaved.symm.trans found
        · exact ifOk_refused refused

theorem ifOk_insertFile (adds : host.mysql.AddsRows) (refused : reply.Refused)
    (content : files (Item.model.path host env.uuid) = some b)
    (unsaved : files (Item.model.path host env.uuid ++ base64Suffix) = none) :
    IfOk (KeptAs host .model env.uuid b)
      (runOn host env (insertRow (.fileAddress (modelFileName env) (modelFileName env ++ base64Suffix) b.length) reply >>=
        fun y => insertModel host params y.1 y.2) con { w with files := files }) := by
  rw [runOn_insertRow]
  cases inserted : changes host env con { w with files := files }
    (.fileAddress (modelFileName env) (modelFileName env ++ base64Suffix) b.length) with
  | none => exact ifOk_error
  | some changed =>
    obtain ⟨given, rows⟩ := changes_fileRow inserted
    have positive : 0 < w.db.files.next := w.db.files.counts
    let file : FileAddress := ⟨changed.id, modelFileName env, modelFileName env ++ base64Suffix, b.length⟩
    have known : file.id ≠ -1 := by
      have given : file.id = w.db.files.next := given
      omega
    have among : file ∈ changed.db.files.rows := by
      rw [rows]
      exact List.mem_append_right _ List.mem_cons_self
    dsimp only
    split
    · exact ifOk_error
    · exact ifOk_insertModel adds (refused_ite refused) known among rfl content unsaved

theorem ifOk_insertAd {iUserId : Int} {url : CString} (adds : host.mysql.AddsRows) (refused : reply.Refused)
    (content : files (Item.ad.path host env.uuid) = some b)
    (unsaved : files (Item.ad.path host env.uuid ++ base64Suffix) = none) :
    IfOk (KeptAs host .ad env.uuid b)
      (runOn host env (insertRow (.advertisement (adFileName env) iUserId url) reply >>= fun y =>
        pure (if y.1 ≠ -1 then { y.2.success with adId := some y.1 } else y.2)) con { w with files := files }) := by
  rw [runOn_insertRow]
  cases inserted : changes host env con { w with files := files } (.advertisement (adFileName env) iUserId url) with
  | none => exact ifOk_error
  | some changed =>
    rw [changes, Option.ite_none_left_eq_some] at inserted
    obtain ⟨ad, found, named⟩ := executeUpdate_adRow adds plain_adFileName.whole inserted.2
    dsimp only
    split
    · exact ifOk_error
    rw [runOn_pure]
    split
    · rename_i given
      intro reply' returned _
      obtain rfl := Except.ok.inj returned
      refine ⟨changed.id, rfl, given, ⟨ad, found, named⟩, content, ?_⟩
      intro content found
      cases unsaved.symm.trans found
    · exact ifOk_refused (refused_ite refused)

theorem written_kept {item : Item} {data : List UInt8} (whole : env.saving = .whole)
    (fresh : w.files (item.path host env.uuid ++ base64Suffix) = none)
    (written : writeFile env w.files (item.path host env.uuid) data = some files) :
    files (item.path host env.uuid) = some data ∧ files (item.path host env.uuid ++ base64Suffix) = none := by
  rw [writeFile, whole, Saving.stored, Option.map_some] at written
  obtain rfl := Option.some.inj written
  refine ⟨Function.update_self _ _ _, ?_⟩
  rw [Function.update_of_ne (path_ne_saved item env.uuid _).symm, fresh]

theorem ifOk_model (adds : host.mysql.AddsRows) (whole : env.saving = .whole)
    (fresh : w.files (Item.model.path host env.uuid ++ base64Suffix) = none)
    (decoded : fieldData host env params "model" = .ok b) :
    IfOk (KeptAs host .model env.uuid b) (runAlone host env (onUploadModel host env params .initial) w) := by
  change IfOk _ (runOn host env (onUploadModel host env params .initial) .opened w)
  rw [onUploadModel, runOn_connect]
  split
  swap
  · exact ifOk_error
  refine ifOk_owner "model" modelFilePath modelFileExtension (fun iUserId reply x =>
    insertRow (.fileAddress x.1 (x.1 ++ base64Suffix) x.2) reply >>= fun y => insertModel host params y.1 y.2) ?_ ?_ ?_
  · exact fun reply => rfl
  · intro iUserId reply known
    dsimp only
    rw [uploadFile, if_pos known]
    exact Prog.bind_assoc _ _ _
  · intro iUserId reply data files con refused decoded' written
    obtain rfl : b = data := Except.ok.inj (decoded.symm.trans decoded')
    obtain ⟨content, unsaved⟩ := @written_kept _ _ _ _ .model _ whole fresh written
    exact ifOk_insertFile adds refused content unsaved

theorem ifOk_ad (adds : host.mysql.AddsRows) (whole : env.saving = .whole)
    (fresh : w.files (Item.ad.path host env.uuid ++ base64Suffix) = none)
    (decoded : fieldData host env params "ad" = .ok b) :
    IfOk (KeptAs host .ad env.uuid b) (runAlone host env (onUploadAd host env params .initial) w) := by
  change IfOk _ (runOn host env (onUploadAd host env params .initial) .opened w)
  rw [onUploadAd, runOn_connect]
  split
  swap
  · exact ifOk_error
  rw [runOn_field]
  cases fieldText host params "url" with
  | error e => exact ifOk_error
  | ok url =>
    refine ifOk_owner "ad" adFilePath adFileExtension (fun iUserId reply x =>
      insertRow (.advertisement x.1 iUserId url) reply >>= fun y =>
        pure (if y.1 ≠ -1 then { y.2.success with adId := some y.1 } else y.2)) ?_ ?_ ?_
    · exact fun reply => rfl
    · intro iUserId reply known
      dsimp only
      rw [insertAd, if_pos known]
    · intro iUserId reply data files con refused decoded' written
      obtain rfl : b = data := Except.ok.inj (decoded.symm.trans decoded')
      obtain ⟨content, unsaved⟩ := @written_kept _ _ _ _ .ad _ whole fresh written
      exact ifOk_insertAd adds refused content unsaved

end Upload

/-! ### A download -/

/-- The `wchar_t` behind the saved text, if there is one, is a zero in the memory that is read into. -/
def EndsBehind (host : Host) (env : Env) (path : CString) (w : World host.mysql.collation) : Prop :=
  ∀ content, w.files (path ++ base64Suffix) = some content →
    env.memory content.length = 0 ∧ env.memory (content.length + 1) = 0

/-- A request for a subscription that refers to the upload `n`, when nothing fails. -/
structure Requested (host : Host) (item : Item) (n : Int) (env : Env) (params : Params)
    (w : World host.mysql.collation) : Prop where
  works : env.Works
  whole : env.saving = .whole
  refers : ∃ rows, checkedSubscription host env params .opened w = .ok rows ∧ lastInt rows item.column = n

/-- The reply is `MS_ERROR_OK`, and the client has these bytes of it. -/
def Delivers {c : Collation} (client : CodePage) (base64 : Base64) (item : Item) (b : List UInt8)
    (r : Except Stop Reply × World c) : Prop :=
  ∃ reply, r.1 = .ok reply ∧ reply.errorCode = .ok ∧
    ∀ lpDefaultChar, getData client base64 lpDefaultChar item.text reply = some b

theorem cells_drop_two (f : Nat → UInt8) (m n : Nat) :
    (cells f (n + (m + 2))).drop n = f n :: f (n + 1) :: (cells f (n + (m + 2))).drop (n + 2) := by
  have first : n < (cells f (n + (m + 2))).length := by
    rw [length_cells]
    omega
  have second : n + 1 < (cells f (n + (m + 2))).length := by
    rw [length_cells]
    omega
  rw [List.drop_eq_getElem_cons first, List.drop_eq_getElem_cons second]
  simp [cells]

theorem savedText_encMany (env : Env) (s : WString) : savedText env (u16.encMany s) =
    s ++ u16.decMany s.length ((cells env.memory (2 * s.length + 2 * s.length)).drop (2 * s.length)) := by
  have size : (u16.encMany s).length = 2 * s.length := by
    rw [length_encMany, size_u16, Nat.mul_comm]
  have double : 2 * (2 * s.length) = 2 * s.length + 2 * s.length := by omega
  have count : 2 * s.length = s.length + s.length := by omega
  rw [savedText, size, double, overlay, size, List.take_of_length_le]
  · rw [count, decMany_append_encMany]
  · rw [List.length_append, List.length_drop, length_cells, size]
    omega

section Text
variable {host : Host} {env : Env} {b : List UInt8}

theorem fileText_eq (inverts : host.base64.Inverts) : fileText host b = widened (host.base64.encode b) := by
  have whole : cstr (host.base64.encode b) = host.base64.encode b := by
    apply Sql.cstr_eq_self.mpr
    intro member
    exact (inverts.plain b 0 member).1 rfl
  rw [fileText, whole, widen_encode inverts]

theorem jsonString_savedText (inverts : host.base64.Inverts)
    (zero : env.memory (u16.encMany (fileText host b)).length = 0 ∧
      env.memory ((u16.encMany (fileText host b)).length + 1) = 0) :
    jsonString (savedText env (u16.encMany (fileText host b))) = widened (host.base64.encode b) := by
  rw [length_encMany, size_u16, Nat.mul_comm] at zero
  rw [savedText_encMany]
  rw [fileText_eq inverts] at zero ⊢
  apply jsonString_append (text_ne_zero inverts)
  intro c first
  generalize (widened (host.base64.encode b)).length = length at zero first
  cases length with
  | zero => cases first
  | succ k =>
    have room : 2 * (k + 1) + 2 * (k + 1) = 2 * (k + 1) + (2 * k + 2) := by omega
    rw [room, cells_drop_two, zero.1, zero.2, decMany] at first
    have value := Option.some.inj first
    rw [← value]
    exact u16.dec_append 0 _

end Text

section Download
variable {host : Host} {item : Item} {uuid : Uuid} {n : Int} {b : List UInt8} {env : Env} {params : Params}
  {w : World host.mysql.collation} {con : Connection}

theorem Kept.sends (kept : Kept host item uuid n b w) (inverts : host.base64.Inverts) (short : 4 * b.length < 2 ^ 31)
    (whole : env.saving = .whole) (ends : EndsBehind host env (item.path host uuid) w) (message : String)
    (put : WString → Reply → Reply) (reply : Reply) :
    (runOn host env (sendFile host (item.path host uuid) message put env reply) con w).1 =
      .ok (put (widened (host.base64.encode b)) reply.success) := by
  rw [runOn_sendFile]
  cases found : w.files (item.path host uuid ++ base64Suffix) with
  | some content =>
    have zero := ends content found
    obtain rfl := kept.saved content found
    have size : (u16.encMany (fileText host b)).length < 2 ^ 31 := by
      have bound := inverts.short b
      rw [length_encMany, size_u16, fileText_eq inverts, widened, List.length_map]
      omega
    dsimp only
    rw [if_pos size, jsonString_savedText inverts zero]
  | none =>
    have fits : b.length < 2 ^ 31 := by omega
    rw [kept.content]
    dsimp only
    rw [if_pos fits, if_pos short, writeFile, whole, Saving.stored, Option.map_some, fileText_eq inverts,
      jsonString_eq (text_ne_zero inverts)]

theorem Kept.finds_file (kept : Kept host .model uuid n b w) (asks : Requested host .model n env params w) :
    ∃ file, foundFile host env params w = .ok (some file) ∧ modelPath host file = Item.model.path host uuid := by
  obtain ⟨works, -, rows, checked, refers⟩ := asks
  obtain ⟨known, ⟨model, file, found, pc, fileKnown, among, named⟩, -, -⟩ := kept
  refine ⟨file, ?_, ?_⟩
  · have column : lastInt rows (fun row => row.modelId) = n := refers
    rw [foundFile, if_pos works.connects, checked, ok_bind, column, if_neg known, works.fails 1,
      if_neg Bool.false_ne_true, found]
    dsimp only
    rw [pc, Option.getD_some, if_neg fileKnown, works.fails 2, if_neg Bool.false_ne_true, Table.find?_of_mem among]
    rfl
  · rw [modelPath, named, blobString_eq (Item.plain_fileName .model uuid)]
    rfl

theorem Kept.finds_ad (kept : Kept host .ad uuid n b w) (asks : Requested host .ad n env params w) :
    ∃ ad, foundAd host env params w = .ok (some ad) ∧ adPath host ad = Item.ad.path host uuid := by
  obtain ⟨works, -, rows, checked, refers⟩ := asks
  obtain ⟨known, ⟨ad, found, named⟩, -, -⟩ := kept
  refine ⟨ad, ?_, ?_⟩
  · have column : lastInt rows (fun row => row.adId) = n := refers
    rw [foundAd, if_pos works.connects, checked, ok_bind, column, if_neg known, works.fails 1,
      if_neg Bool.false_ne_true, found]
    rfl
  · rw [adPath, named, blobString_eq (Item.plain_fileName .ad uuid)]
    rfl

/-- Whatever is kept is delivered. -/
theorem Kept.delivers (kept : Kept host item uuid n b w) (inverts : host.base64.Inverts) (some_byte : b ≠ [])
    (short : 4 * b.length < 2 ^ 31) (asks : Requested host item n env params w)
    (ends : EndsBehind host env (item.path host uuid) w) (client : CodePage) :
    Delivers client host.base64 item b (runAlone host env (item.download host env params) w) := by
  have decoded := fun d => @receivedData_text _ client _ inverts some_byte d
  cases item with
  | model =>
    obtain ⟨file, found, path⟩ := kept.finds_file asks
    have comes := @run_getFile host env params w (sendModel host)
    rw [found] at comes
    have alone : runAlone host env (onGetModel host env params .initial) w =
        runOn host env (sendModel host (modelPath host file) env .initial) (statement 3) w := comes
    rw [path] at alone
    refine ⟨_, (congrArg Prod.fst alone).trans (kept.sends inverts short asks.whole ends _ _ _), rfl, ?_⟩
    exact fun d => congrArg some (decoded d)
  | ad =>
    obtain ⟨ad, found, path⟩ := kept.finds_ad asks
    have comes := @run_onGetAd host env params w
    rw [found] at comes
    have alone : runAlone host env (onGetAd host env params .initial) w =
        runOn host env (sendAd host (adPath host ad) env
          { Reply.initial with url := some (jsonString (host.page.widen (blobString ad.adUrl))) })
          (statement 2) w := comes
    rw [path] at alone
    refine ⟨_, (congrArg Prod.fst alone).trans (kept.sends inverts short asks.whole ends _ _ _), rfl, ?_⟩
    exact fun d => congrArg some (decoded d)

end Download

/-! ### The whole way -/

/-- An upload of `b` that is answered with `MS_ERROR_OK`, under a name that no file had. -/
structure Uploads (client : CodePage) (host : Host) (item : Item) (b : List UInt8) (env : Env) (params : Params)
    (w w' : World host.mysql.collation) (reply : Reply) : Prop where
  some_byte : b ≠ []
  sent : ∃ s, sentText client host.base64 b = some s ∧ params.lookup (wide item.key) = some (.string s)
  whole : env.saving = .whole
  fresh : w.files (item.path host env.uuid ++ base64Suffix) = none
  ran : runAlone host env (item.upload host env params) w = (.ok reply, w')
  ok : reply.errorCode = .ok

/-- Requests that write whole files, the uploads among them under other names. -/
def Later (uuid : Uuid) (turns : List Turn) : Prop :=
  ∀ t ∈ turns, t.env.saving = .whole ∧ t.env.uuid.chars ≠ uuid.chars

section Way
variable {client : CodePage} {host : Host} {item : Item} {b : List UInt8} {env : Env} {params : Params}
  {w w' : World host.mysql.collation} {reply : Reply}

theorem Uploads.decoded (up : Uploads client host item b env params w w' reply) (inverts : host.base64.Inverts) :
    4 * b.length < 2 ^ 31 ∧ fieldData host env params item.key = .ok b := by
  obtain ⟨s, sent, field⟩ := up.sent
  obtain ⟨short, rfl⟩ := sentText_eq inverts sent
  refine ⟨short, ?_⟩
  rw [fieldData, field]
  exact congrArg Except.ok (receivedData_text inverts up.some_byte (env.memory 0))

theorem Uploads.kept (up : Uploads client host item b env params w w' reply) (inverts : host.base64.Inverts)
    (adds : host.mysql.AddsRows) : ∃ n, item.id reply = some n ∧ Kept host item env.uuid n b w' := by
  have decoded := (up.decoded inverts).2
  have accepted : IfOk (KeptAs host item env.uuid b) (runAlone host env (item.upload host env params) w) := by
    cases item with
    | model => exact ifOk_model adds up.whole up.fresh decoded
    | ad => exact ifOk_ad adds up.whole up.fresh decoded
  rw [up.ran] at accepted
  exact accepted reply rfl up.ok

theorem Kept.afterRun {uuid : Uuid} {n : Int} {turns : List Turn} (adds : host.mysql.AddsRows)
    (later : Later uuid turns)
    (kept : Kept host item uuid n b w) : Kept host item uuid n b (run (turn host) w turns) := by
  induction turns generalizing w with
  | nil => exact kept
  | cons t turns ih =>
    obtain ⟨⟨whole, fresh⟩, rest⟩ := List.forall_mem_cons.mp later
    exact ih rest (kept.afterTurn adds whole fresh)

/-- After an upload and whatever requests, a download for a subscription that refers to it gives the bytes of the
upload, if it reads no text back or finds a zero behind it. -/
theorem downloads_deliver (inverts : host.base64.Inverts) (adds : host.mysql.AddsRows)
    (up : Uploads client host item b env params w w' reply) {turns : List Turn} (later : Later env.uuid turns)
    {env' : Env} {params' : Params} {n : Int} (given : item.id reply = some n)
    (requested : Requested host item n env' params' (run (turn host) w' turns))
    (ends : EndsBehind host env' (item.path host env.uuid) (run (turn host) w' turns)) :
    Delivers client host.base64 item b
      (runAlone host env' (item.download host env' params') (run (turn host) w' turns)) := by
  obtain ⟨m, given', kept⟩ := up.kept inverts adds
  obtain rfl : m = n := Option.some.inj (given'.symm.trans given)
  exact (kept.afterRun adds later).delivers inverts up.some_byte (up.decoded inverts).1 requested ends client

end Way

/-! ### Three zero bytes -/

namespace Small

theorem value_digit : ∀ n < 64, value (digit n) = some n ∧ digit n ≠ 0 ∧ digit n < 128 := by decide +kernel

theorem value_pad : value 61 = none := by decide

theorem byte_eq {n : Nat} {a : UInt8} (same : n % 256 = a.toNat) : n.toUInt8 = a := by
  apply UInt8.toNat_inj.mp
  rw [Nat.toUInt8_eq, UInt8.toNat_ofNat']
  exact same

theorem plain_encode (p : List UInt8) : ∀ c ∈ encode p, c ≠ 0 ∧ c < 128 := by
  have digits : ∀ n < 64, digit n ≠ 0 ∧ digit n < 128 := fun n small => (value_digit n small).2
  have pad : (61 : UInt8) ≠ 0 ∧ (61 : UInt8) < 128 := by decide
  induction p using encode.induct with
  | case1 a b c rest ih =>
    have ha := a.toNat_lt
    have hb := b.toNat_lt
    have hc := c.toNat_lt
    simp only [encode, List.forall_mem_cons]
    exact ⟨digits _ (by omega), digits _ (by omega), digits _ (by omega), digits _ (by omega), ih⟩
  | case2 a b =>
    have ha := a.toNat_lt
    have hb := b.toNat_lt
    simp only [encode, List.forall_mem_cons]
    exact ⟨digits _ (by omega), digits _ (by omega), digits _ (by omega), pad, nofun⟩
  | case3 a =>
    have ha := a.toNat_lt
    simp only [encode, List.forall_mem_cons]
    exact ⟨digits _ (by omega), digits _ (by omega), pad, pad, nofun⟩
  | case4 => exact nofun

theorem join_encode (p : List UInt8) : join ((encode p).filterMap value) = p := by
  have digits : ∀ n < 64, value (digit n) = some n := fun n small => (value_digit n small).1
  induction p using encode.induct with
  | case1 a b c rest ih =>
    have ha := a.toNat_lt
    have hb := b.toNat_lt
    have hc := c.toNat_lt
    have whole (n : Nat) : n / 262144 * 262144 + n / 4096 % 64 * 4096 + n / 64 % 64 * 64 + n % 64 = n := by omega
    rw [encode, List.filterMap_cons_some (digits _ (by omega)), List.filterMap_cons_some (digits _ (by omega)),
      List.filterMap_cons_some (digits _ (by omega)), List.filterMap_cons_some (digits _ (by omega)), join, ih]
    rw [whole, byte_eq (a := a) (by omega), byte_eq (a := b) (by omega), byte_eq (a := c) (by omega)]
  | case2 a b =>
    have ha := a.toNat_lt
    have hb := b.toNat_lt
    rw [encode, List.filterMap_cons_some (digits _ (by omega)), List.filterMap_cons_some (digits _ (by omega)),
      List.filterMap_cons_some (digits _ (by omega)), List.filterMap_cons_none value_pad, List.filterMap_nil, join]
    rw [byte_eq (a := a) (by omega), byte_eq (a := b) (by omega)]
  | case3 a =>
    have ha := a.toNat_lt
    rw [encode, List.filterMap_cons_some (digits _ (by omega)), List.filterMap_cons_some (digits _ (by omega)),
      List.filterMap_cons_none value_pad, List.filterMap_cons_none value_pad, List.filterMap_nil, join]
    rw [byte_eq (a := a) (by omega)]
  | case4 => rfl

theorem length_encode (p : List UInt8) : 3 * (encode p).length ≤ 4 * p.length + 8 := by
  induction p using encode.induct with
  | case1 a b c rest ih =>
    simp only [encode, List.length_cons]
    omega
  | case2 a b =>
    simp only [encode, List.length_cons, List.length_nil]
    omega
  | case3 a =>
    simp only [encode, List.length_cons, List.length_nil]
    omega
  | case4 => decide

theorem inverts : base64.Inverts where
  plain := plain_encode
  decode_encode := by
    intro p _
    have whole : (encode p).takeWhile (· ≠ 0) = encode p :=
      List.takeWhile_eq_self_iff.mpr fun c member => decide_eq_true (plain_encode p c member).1
    exact (congrArg (fun text => join (text.filterMap value)) whole).trans (join_encode p)
  short := by
    intro p
    have short := length_encode p
    have same : (base64.encode p).length = (encode p).length := rfl
    omega

theorem addsRows : mysql.AddsRows := ⟨nofun, nofun, nofun⟩

def other : Env where
  connects := true
  fails _ := false
  saving := .whole
  uuid :=
    { chars := List.replicate 36 98
      length := rfl
      plain := by
        intro c member
        rw [List.eq_of_mem_replicate member]
        decide }
  tickCount := 0
  memory _ := 0
  attempts := 1

def start : World mysql.collation :=
  ⟨{ database with
      ads := published.ads
      references := by simp [database, empty] }, fun _ => none⟩

def asked : Params := [field "subsid" "ABCDEFGH"]

def turns : List Turn :=
  [⟨other, .post, ⟨wide "/create_subs", [], .json (.object (subscription 1))⟩⟩,
    ⟨other, .get, ⟨wide "/get", wide "magic=tfzfepg&subsid=ABCDEFGH", .unreadable⟩⟩]

def answered : Reply := { Reply.initial.success with modelId := some 1 }

def uploaded : World mysql.collation := (runAlone host env (Item.model.upload host env upload) start).2

def used : Env := { other with memory := fun i => if i % 2 = 0 then 65 else 0 }

theorem evaluated : (runAlone host env (Item.model.upload host env upload) start).1 = .ok answered ∧
    (checkedSubscription host other asked .opened (run (turn host) uploaded turns)).map
      (fun rows => lastInt rows Subscription.modelId) = .ok 1 ∧
    (runAlone host used (Item.model.download host used asked) (run (turn host) uploaded turns)).1.map Reply.model =
      .ok (some (wide "AAAAAAAA")) := by decide +kernel

theorem uploads : Uploads page host .model [0, 0, 0] env upload start uploaded answered where
  some_byte := List.cons_ne_nil _ _
  sent := ⟨wide "AAAA", by decide +kernel, rfl⟩
  whole := rfl
  fresh := rfl
  ran := by
    rw [← evaluated.1, uploaded]
  ok := rfl

theorem later : Later env.uuid turns := by
  have differs : other.uuid.chars ≠ env.uuid.chars := by decide
  intro t member
  simp only [turns, List.mem_cons, List.not_mem_nil, or_false] at member
  rcases member with rfl | rfl <;> exact ⟨rfl, differs⟩

theorem requested (memory : Nat → UInt8) :
    Requested host .model 1 { other with memory := memory } asked (run (turn host) uploaded turns) where
  works := ⟨rfl, fun _ => rfl⟩
  whole := rfl
  refers := by
    have refers := evaluated.2.1
    change ∃ rows, checkedSubscription host other asked .opened (run (turn host) uploaded turns) = .ok rows ∧ _
    cases checked : checkedSubscription host other asked .opened (run (turn host) uploaded turns) with
    | error e =>
      rw [checked] at refers
      cases refers
    | ok rows =>
      rw [checked] at refers
      exact ⟨rows, rfl, Except.ok.inj refers⟩

/-- The second download into memory that holds zeros. -/
theorem zeros_delivered : Delivers page host.base64 .model [0, 0, 0]
    (runAlone host other (Item.model.download host other asked) (run (turn host) uploaded turns)) :=
  downloads_deliver inverts addsRows uploads later rfl (requested fun _ => 0) fun _ _ => ⟨rfl, rfl⟩

/-- Into memory that was used before, the second download gives six bytes. -/
theorem letters_delivered : Uploads page host .model [0, 0, 0] env upload start uploaded answered ∧
    Later env.uuid turns ∧ Requested host .model 1 used asked (run (turn host) uploaded turns) ∧
    ¬Delivers page host.base64 .model [0, 0, 0]
      (runAlone host used (Item.model.download host used asked) (run (turn host) uploaded turns)) := by
  refine ⟨uploads, later, requested _, ?_⟩
  intro ⟨reply, returned, _, decoded⟩
  have longer := evaluated.2.2
  rw [returned, Except.map] at longer
  have received := decoded 0
  rw [getData, Item.text, Except.ok.inj longer] at received
  split at received
  · cases received
  · exact absurd received (by decide +kernel)

end Small

end ModelPublish.Server
