import ModelPublish.Server.Footprint
import ModelPublish.Server.Outcomes
import ModelPublish.Server.Steps

/-!
# One stage after the other

What each stage of the handlers comes to, as an equation: how the request is left, or how it goes on from
there, and the tables and the files at that point. The connection is left out of the result.
-/

namespace ModelPublish.Server
open Machine Packed.Codec

/-- A program on a connection that has been used before. -/
def runOn (host : Host) (env : Env) {α : Type} (p : Program α) (con : Connection)
    (w : World host.mysql.collation) : Except Stop α × World host.mysql.collation :=
  let (result, _, w) := p.run (exec host env) (con, w)
  (result, w)

/-- What comes of an answer that is missing. -/
def answered {α : Type} : Option α → Except Stop α
  | none => .error .sqlException
  | some a => .ok a

theorem ok_bind {ε α β : Type} (a : α) (k : α → Except ε β) : (Except.ok a >>= k) = k a := rfl

section Calls
variable {host : Host} {env : Env} {params : Params} {α β : Type} (con : Connection)
  (w : World host.mysql.collation)

@[simp] theorem runOn_pure (a : α) : runOn host env (pure a) con w = (.ok a, w) := rfl

@[simp] theorem runOn_stop (e : Stop) : runOn host env (.stop e : Program α) con w = (.error e, w) := rfl

theorem runOn_connect (k : Unit → Program α) : runOn host env (connect >>= k) con w =
    if env.connects then runOn host env (k ()) con w else (.error .sqlException, w) := by
  rw [runOn, run_connect]
  cases env.connects <;> rfl

theorem runOn_query (q : Query) (k : q.Result → Program α) : runOn host env (executeQuery q >>= k) con w =
    match answer host env con w q with
    | none => (.error .sqlException, w)
    | some r => runOn host env (k r) con.next w := by
  rw [runOn, run_query]
  cases answer host env con w q <;> rfl

theorem runOn_update (u : Update) (k : Nat → Program α) : runOn host env (executeUpdate u >>= k) con w =
    match changes host env con w u with
    | none => (.error .sqlException, w)
    | some changed =>
      runOn host env (k changed.rows) ⟨con.statements + 1, changed.id⟩ { w with db := changed.db } := by
  rw [runOn, run_update]
  cases changes host env con w u <;> rfl

theorem runOn_readFile (path : CString) (k : Option (List UInt8) → Program α) :
    runOn host env (readFile path >>= k) con w = runOn host env (k (w.files path)) con w := by
  rw [runOn, run_readFile, runOn]

theorem runOn_saveFile (path : CString) (data : List UInt8) (k : Unit → Program α) :
    runOn host env (saveFile path data >>= k) con w =
      match writeFile env w.files path data with
      | none => (.error .undefined, w)
      | some files => runOn host env (k ()) con { w with files := files } := by
  rw [runOn, run_saveFile]
  cases writeFile env w.files path data <;> rfl

theorem runOn_field (key : String) (k : CString → Program α) :
    runOn host env (stringAt params key >>= fun s => buffer host s >>= k) con w =
      match fieldText host params key with
      | .error e => (.error e, w)
      | .ok p => runOn host env (k p) con w := by
  rw [runOn, run_field]
  cases fieldText host params key <;> rfl

theorem runOn_number (key : String) (k : Int → Program α) :
    runOn host env (integerAt params key >>= k) con w =
      match fieldNumber params key with
      | .error e => (.error e, w)
      | .ok n => runOn host env (k n) con w := by
  rw [runOn, run_number]
  cases fieldNumber params key <;> rfl

theorem answer_eq {q : Query} (whole : ∀ p ∈ q.template.strings, Sql.Whole p) : answer host env con w q =
    if env.fails con.statements then none else some (q.result w.db con.lastInsertId) := by
  rw [answer, MySQL.executeQuery, if_pos ((Sql.Template.intact_iff (query_clean q)).mpr whole)]

theorem changes_eq {u : Update} (whole : ∀ p ∈ u.template.strings, Sql.Whole p) : changes host env con w u =
    if env.fails con.statements then none else u.change w.db := by
  rw [changes, MySQL.executeUpdate, if_pos ((Sql.Template.intact_iff (update_clean u)).mpr whole)]

end Calls

/-! ### Stages -/

def fieldData (host : Host) (env : Env) (params : Params) (key : String) : Except Stop (List UInt8) :=
  match params.lookup (wide key) with
  | some (.string s) => .ok (host.base64.decode (host.page.narrowInto (env.memory 0) s.length s))
  | _ => .error .jsonException

section Stages
variable (host : Host) (env : Env) (params : Params) (con : Connection) (w : World host.mysql.collation)

def checkedUser : Except Stop (List OwnerDesc) := do
  let user ← fieldText host params "user"
  let pass ← fieldText host params "pass"
  answered (answer host env con w (.user user pass))

def checkedOwner : Except Stop (List OwnerDesc) := do
  let owner ← fieldText host params "owner"
  answered (answer host env con w (.owner owner))

def checkedSubscription : Except Stop (List Subscription) := do
  let subsid ← fieldText host params "subsid"
  answered (answer host env con w (.subscription subsid))

/-- The loop may try so often. -/
def Env.patient (env : Env) (attempts : Nat) : Env := { env with attempts := attempts }

/-- No row has the hash of attempt `k`. -/
def HashFree (host : Host) (w : World host.mysql.collation) (seed k : Nat) : Prop :=
  ∀ s ∈ w.db.subscriptions.rows, host.mysql.collation.hashed (candidate host seed k) s = false

/-- The hash of attempt `j` is the first that no row has. -/
def FirstFree (host : Host) (w : World host.mysql.collation) (seed j : Nat) : Prop :=
  (∀ i, i < j → ¬ HashFree host w seed i) ∧ HashFree host w seed j

/-- The reply to a look-up that finds no row is `message`. -/
def lookedUp {β : Type} (rows : List β) (message : String) (code : ErrorCode) (status : Status) (reply : Reply) : Reply :=
  if rows.isEmpty then reply.outcome message code status else reply

variable {host env params con w} {α : Type} {reply : Reply}

theorem lookedUp_refused {β : Type} (rows : List β) {message : String} {code : ErrorCode} {status : Status}
    (notOk : code ≠ .ok ∧ code ≠ .unknownClient) (failed : status ≠ .ok) (refused : reply.Refused) :
    (lookedUp rows message code status reply).Refused := by
  rw [lookedUp]
  split
  · exact refused.outcome _ notOk failed
  · exact refused

theorem isEmpty_hashed {seed k : Nat} :
    (w.db.subscriptions.rows.filter (host.mysql.collation.hashed (candidate host seed k))).isEmpty = true ↔
      HashFree host w seed k := by
  rw [List.isEmpty_iff, List.filter_eq_nil_iff]
  simp [HashFree]

theorem runOn_fetchUser (k : Int × Reply → Program α) :
    runOn host env (fetchUser host params reply >>= k) con w =
      match checkedUser host env params con w with
      | .error e => (.error e, w)
      | .ok rows => runOn host env (k (lastInt rows fun row => some row.id,
        lookedUp rows "Invalid username or password!" .invalidUserPass .forbidden reply)) con.next w := by
  rw [fetchUser, checkedUser]
  simp only [Prog.bind_assoc]
  rw [runOn_field]
  cases fieldText host params "user" with
  | error e => rfl
  | ok user =>
    dsimp only
    rw [runOn_field]
    cases fieldText host params "pass" with
    | error e => rfl
    | ok pass =>
      dsimp only
      rw [runOn_query]
      rw [ok_bind, ok_bind]
      cases answer host env con w (.user user pass) <;> rfl

theorem runOn_fetchOwner (k : Int × Reply → Program α) {iUserId : Int} (known : iUserId ≠ -1) :
    runOn host env (fetchOwner host params iUserId reply >>= k) con w =
      match checkedOwner host env params con w with
      | .error e => (.error e, w)
      | .ok rows => runOn host env (k (lastInt rows fun row => some row.id,
        lookedUp rows "Invalid username or password!" .invalidUserPass .forbidden reply)) con.next w := by
  rw [fetchOwner, if_pos known, checkedOwner]
  simp only [Prog.bind_assoc]
  rw [runOn_field]
  cases fieldText host params "owner" with
  | error e => rfl
  | ok owner =>
    dsimp only
    rw [runOn_query]
    rw [ok_bind]
    cases answer host env con w (.owner owner) <;> rfl

theorem runOn_fetchSubscription (column : Subscription → Option Int) (k : Int × Reply → Program α) :
    runOn host env (fetchSubscription host params column reply >>= k) con w =
      match checkedSubscription host env params con w with
      | .error e => (.error e, w)
      | .ok rows => runOn host env (k (lastInt rows column,
        lookedUp rows "Subscription id not found!" .subscriptionNotFound .notFound reply)) con.next w := by
  rw [fetchSubscription, checkedSubscription]
  simp only [Prog.bind_assoc]
  rw [runOn_field]
  cases fieldText host params "subsid" with
  | error e => rfl
  | ok subsid =>
    dsimp only
    rw [runOn_query]
    rw [ok_bind]
    cases answer host env con w (.subscription subsid) <;> rfl

theorem runOn_plain {q : Query} (whole : ∀ p ∈ q.template.strings, Sql.Whole p) (k : q.Result → Program α) :
    runOn host env (executeQuery q >>= k) con w =
      if env.fails con.statements then (.error .sqlException, w)
      else runOn host env (k (q.result w.db con.lastInsertId)) con.next w := by
  rw [runOn_query, answer_eq con w whole]
  cases env.fails con.statements <;> rfl

theorem runOn_fetchModel {iModelId : Int} (k : Int × Reply → Program α) :
    runOn host env (fetchModel iModelId reply >>= k) con w =
      if iModelId = -1 then runOn host env (k (-1, reply)) con w
      else if env.fails con.statements then (.error .sqlException, w)
      else match w.db.models.find? iModelId with
        | none => runOn host env (k (-1, reply.outcome "Model id not found!" .modelNotFound .notFound)) con.next w
        | some model => runOn host env (k (model.pcFileId.getD 0, reply)) con.next w := by
  rw [fetchModel]
  by_cases skipped : iModelId = -1
  · rw [if_neg (not_not_intro skipped), if_pos skipped]
    rfl
  · rw [if_pos skipped, if_neg skipped, Prog.bind_assoc, runOn_plain (by rintro p ⟨⟩), Query.result]
    cases w.db.models.find? iModelId <;> rfl

theorem runOn_fetchFile {send : CString → Env → Reply → Program Reply} {iFileId : Int} :
    runOn host env (fetchFile host send iFileId env reply) con w =
      if iFileId = -1 then (.ok reply, w)
      else if env.fails con.statements then (.error .sqlException, w)
      else match w.db.files.find? iFileId with
        | none => (.ok (reply.outcome "Model file address not found!" .fileAddressNotFound .notFound), w)
        | some file => runOn host env (send (modelPath host file) env reply) con.next w := by
  rw [fetchFile]
  by_cases skipped : iFileId = -1
  · rw [if_neg (not_not_intro skipped), if_pos skipped, runOn_pure]
  · rw [if_pos skipped, if_neg skipped, runOn_plain (by rintro p ⟨⟩), Query.result]
    cases w.db.files.find? iFileId <;> rfl

theorem runOn_fetchAd {iAdId : Int} : runOn host env (fetchAd host iAdId env reply) con w =
    if iAdId = -1 then (.ok reply, w)
    else if env.fails con.statements then (.error .sqlException, w)
    else match w.db.ads.find? iAdId with
      | none => (.ok (reply.outcome "Ad id not found!" .adNotFound .notFound), w)
      | some ad => runOn host env (sendAd host (adPath host ad) env
        { reply with url := some (jsonString (host.page.widen (blobString ad.adUrl))) }) con.next w := by
  rw [fetchAd]
  by_cases skipped : iAdId = -1
  · rw [if_neg (not_not_intro skipped), if_pos skipped, runOn_pure]
  · rw [if_pos skipped, if_neg skipped, runOn_plain (by rintro p ⟨⟩), Query.result]
    cases w.db.ads.find? iAdId <;> rfl

theorem runOn_storeFile {key : String} {folder extension : CString} (k : CString × Nat → Program α) :
    runOn host env (storeFile host env params key folder extension >>= k) con w =
      match fieldData host env params key with
      | .error e => (.error e, w)
      | .ok data =>
        match writeFile env w.files (fullFilePathName host folder (env.uuid.chars ++ extension)) data with
        | none => (.error .undefined, w)
        | some files =>
          runOn host env (k (env.uuid.chars ++ extension, data.length)) con { w with files := files } := by
  rw [storeFile, stringAt, fieldData]
  cases params.lookup (wide key) with
  | none => rfl
  | some value =>
    cases value with
    | string s =>
      rw [Prog.pure_bind, Prog.bind_assoc, runOn_saveFile]
      rfl
    | _ => rfl

theorem runOn_insertRow {u : Update} (k : Int × Reply → Program α) :
    runOn host env (insertRow u reply >>= k) con w =
      match changes host env con w u with
      | none => (.error .sqlException, w)
      | some changed =>
        if env.fails (con.statements + 1) then (.error .sqlException, { w with db := changed.db })
        else runOn host env (k (changed.id, if changed.rows = 0 then
            reply.outcome "Subscription id not found!" .subscriptionNotFound .notFound
          else reply)) ⟨con.statements + 2, changed.id⟩ { w with db := changed.db } := by
  rw [insertRow]
  simp only [Prog.bind_assoc]
  rw [runOn_update]
  cases changes host env con w u with
  | none => rfl
  | some changed =>
    dsimp only
    rw [runOn_plain (by rintro p ⟨⟩)]
    rfl

theorem runOn_insertLast {u : Update} {put : Int → Reply → Reply} :
    runOn host env (insertLast u put reply) con w =
      match changes host env con w u with
      | none => (.error .sqlException, w)
      | some changed =>
        if changed.rows = 0 then
          (.ok (reply.outcome "Model id not found!" .modelNotFound .notFound), { w with db := changed.db })
        else if env.fails (con.statements + 1) then (.error .sqlException, { w with db := changed.db })
        else (.ok (if changed.id ≠ -1 then put changed.id reply.success else reply),
          { w with db := changed.db }) := by
  rw [insertLast, runOn_update]
  cases changes host env con w u with
  | none => rfl
  | some changed =>
    dsimp only
    by_cases none : changed.rows = 0
    · rw [if_pos none, if_pos none, runOn_pure]
    · rw [if_neg none, if_neg none, runOn_plain (by rintro p ⟨⟩)]
      rfl

theorem runOn_sendInfo {path : CString} :
    runOn host env (sendInfo host path env reply) con w =
      match w.files (path ++ base64Suffix) with
      | some content =>
        if content.length < 2 ^ 31 then
          (.ok { reply.success with
            info := some (jsonString (savedHeader env (host.base64.requiredLength 64 * 2) content))
            size := some content.length }, w)
        else (.error .undefined, w)
      | none =>
        match w.files (path ++ modelFileExtension) with
        | none => (.ok (reply.outcome "Could not open model file!" .couldNotOpenFile .notFound), w)
        | some content =>
          if content.length < 2 ^ 31 then
            if 4 * content.length < 2 ^ 31 then
              (.ok { reply.success with
                info := some (jsonString (fileText host (header env content)))
                size := some (host.base64.requiredLength content.length) }, w)
            else (.error .atlException, w)
          else (.error .undefined, w) := by
  rw [sendInfo, runOn_readFile]
  cases w.files (path ++ base64Suffix) with
  | some content =>
    dsimp only
    rw [fileSize]
    split <;> rfl
  | none =>
    dsimp only
    rw [runOn_readFile]
    cases w.files (path ++ modelFileExtension) with
    | none => rfl
    | some content =>
      dsimp only
      rw [fileSize]
      by_cases short : content.length < 2 ^ 31
      · rw [if_pos short, if_pos short, Prog.pure_bind, requiredLength]
        split <;> rfl
      · rw [if_neg short, if_neg short]
        rfl

theorem runOn_sendFile {path : CString} {message : String} {put : WString → Reply → Reply} :
    runOn host env (sendFile host path message put env reply) con w =
      match w.files (path ++ base64Suffix) with
      | some content =>
        if content.length < 2 ^ 31 then (.ok (put (jsonString (savedText env content)) reply.success), w)
        else (.error .undefined, w)
      | none =>
        match w.files path with
        | none => (.ok (reply.outcome message .couldNotOpenFile .notFound), w)
        | some pBuf =>
          if pBuf.length < 2 ^ 31 then
            if 4 * pBuf.length < 2 ^ 31 then
              match writeFile env w.files (path ++ base64Suffix) (u16.encMany (fileText host pBuf)) with
              | none => (.error .undefined, w)
              | some files =>
                (.ok (put (jsonString (fileText host pBuf)) reply.success), { w with files := files })
            else (.error .atlException, w)
          else (.error .undefined, w) := by
  rw [sendFile, runOn_readFile]
  cases w.files (path ++ base64Suffix) with
  | some content =>
    dsimp only
    rw [fileSize]
    split <;> rfl
  | none =>
    dsimp only
    rw [runOn_readFile]
    cases w.files path with
    | none => rfl
    | some pBuf =>
      dsimp only
      rw [fileSize]
      by_cases short : pBuf.length < 2 ^ 31
      · rw [if_pos short, if_pos short, Prog.pure_bind, requiredLength]
        by_cases fits : 4 * pBuf.length < 2 ^ 31
        · rw [if_pos fits, if_pos fits, Prog.pure_bind, runOn_saveFile]
          rfl
        · rw [if_neg fits, if_neg fits]
          rfl
      · rw [if_neg short, if_neg short]
        rfl

end Stages
end ModelPublish.Server
