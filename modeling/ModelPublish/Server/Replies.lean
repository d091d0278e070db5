import ModelPublish.Server.Outcomes
import ModelPublish.Server.Stages

/-!
# One reply for each request

When a handler comes to the end, so that exactly one reply is sent. What leaves it before that is a
field that is missing or of another type, text that fills a buffer, an error of the database, or a file
that is too long or cannot be written.
-/

namespace ModelPublish.Server
open Machine Reply

section Stages
variable {host : Host} {env : Env} {params : Params} {reply : Reply} {α : Type} {con : Connection}
  {w : World host.mysql.collation}

theorem returns_plain {q : Query} (whole : ∀ p ∈ q.template.strings, Sql.Whole p) (k : q.Result → Program α) :
    Returns host env (executeQuery q >>= k) (con, w) ↔ env.fails con.statements = false ∧
      Returns host env (k (q.result w.db con.lastInsertId)) (con.next, w) := by
  rw [returns_query, answer_eq con w whole]
  cases env.fails con.statements <;> simp

theorem returns_fetchSubscription {column : Subscription → Option Int} {P : List Subscription → Prop}
    {k : Int × Reply → Program α}
    (rest : ∀ rows reply, Returns host env (k (lastInt rows column, reply)) (con.next, w) ↔ P rows) :
    Returns host env (fetchSubscription host params column reply >>= k) (con, w) ↔
      ∃ (subsid : CString) (rows : List Subscription), fieldText host params "subsid" = .ok subsid ∧
        answer host env con w (.subscription subsid) = some rows ∧ P rows := by
  rw [fetchSubscription]
  simp only [Prog.bind_assoc]
  rw [returns_field]
  apply exists_congr
  intro subsid
  rw [returns_query, exists_and_left]
  refine and_congr_right fun _ => exists_congr fun rows => and_congr_right fun _ => ?_
  exact rest _ _

theorem returns_fetchModel {iModelId : Int} {P : ModelDesc → Prop} {k : Int × Reply → Program α}
    (rest : ∀ model reply con, con.statements = 2 →
      (Returns host env (k (model.pcFileId.getD 0, reply)) (con, w) ↔ P model))
    (none : ∀ reply con, Returns host env (k (-1, reply)) (con, w)) (second : con.statements = 1) :
    Returns host env (fetchModel iModelId reply >>= k) (con, w) ↔ (iModelId ≠ -1 → env.fails 1 = false ∧
      ∀ model, w.db.models.find? iModelId = some model → P model) := by
  rw [fetchModel]
  by_cases skipped : iModelId = -1
  · rw [if_neg (not_not_intro skipped)]
    exact iff_of_true (none _ _) fun ne => absurd skipped ne
  · rw [if_pos skipped, Prog.bind_assoc, returns_plain (by rintro p ⟨⟩), second]
    have third : con.next.statements = 2 := congrArg (· + 1) second
    constructor
    · rintro ⟨works, more⟩ -
      refine ⟨works, fun model found => ?_⟩
      rw [Query.result, found] at more
      exact (rest _ _ _ third).mp more
    · intro h
      obtain ⟨works, more⟩ := h skipped
      refine ⟨works, ?_⟩
      rw [Query.result]
      cases found : w.db.models.find? iModelId with
      | none => exact none _ _
      | some model => exact (rest _ _ _ third).mpr (more model found)

/-- The file can be sent: it is not too long, and where it is sent for the first time its text can be saved. -/
def Sendable (env : Env) (files : CString → Option (List UInt8)) (path : CString) : Prop :=
  match files (path ++ base64Suffix) with
  | some content => content.length < 2 ^ 31
  | none => ∀ pBuf, files path = some pBuf → 4 * pBuf.length < 2 ^ 31 ∧ env.saving ≠ .refused

theorem returns_fileSize {content : List UInt8} {s : Connection × World host.mysql.collation}
    (k : Nat → Program α) : Returns host env (fileSize content >>= k) s ↔
      content.length < 2 ^ 31 ∧ Returns host env (k content.length) s := by
  rw [fileSize]
  by_cases short : content.length < 2 ^ 31
  · rw [if_pos short, Prog.pure_bind]
    exact (and_iff_right short).symm
  · rw [if_neg short, Prog.stop_bind]
    exact iff_of_false (not_returns_stop _) fun h => short h.1

theorem returns_requiredLength {iSize : Nat} {s : Connection × World host.mysql.collation}
    (k : Nat → Program α) : Returns host env (requiredLength host iSize >>= k) s ↔
      4 * iSize < 2 ^ 31 ∧ Returns host env (k (host.base64.requiredLength iSize)) s := by
  rw [requiredLength]
  by_cases short : 4 * iSize < 2 ^ 31
  · rw [if_pos short, Prog.pure_bind]
    exact (and_iff_right short).symm
  · rw [if_neg short, Prog.stop_bind]
    exact iff_of_false (not_returns_stop _) fun h => short h.1

theorem returns_sendFile {path : CString} {message : String} {put : WString → Reply → Reply} :
    Returns host env (sendFile host path message put env reply) (con, w) ↔ Sendable env w.files path := by
  rw [sendFile, Sendable, returns_readFile]
  dsimp only
  cases w.files (path ++ base64Suffix) with
  | some content =>
    rw [returns_fileSize]
    simp
  | none =>
    rw [returns_readFile]
    dsimp only
    cases w.files path with
    | none => simp
    | some pBuf =>
      rw [returns_fileSize, returns_requiredLength]
      simp only [returns_saveFile, returns_pure, and_true, writeFile_isSome, Option.some.injEq, forall_eq']
      refine ⟨fun h => h.2, fun h => ⟨?_, h⟩⟩
      omega

/-- The same for a header. -/
def InfoSendable (files : CString → Option (List UInt8)) (path : CString) : Prop :=
  match files (path ++ base64Suffix) with
  | some content => content.length < 2 ^ 31
  | none => ∀ content, files (path ++ modelFileExtension) = some content → 4 * content.length < 2 ^ 31

theorem returns_sendInfo {path : CString} :
    Returns host env (sendInfo host path env reply) (con, w) ↔ InfoSendable w.files path := by
  rw [sendInfo, InfoSendable, returns_readFile]
  dsimp only
  cases w.files (path ++ base64Suffix) with
  | some content =>
    rw [returns_fileSize]
    simp
  | none =>
    rw [returns_readFile]
    dsimp only
    cases w.files (path ++ modelFileExtension) with
    | none => simp
    | some content =>
      rw [returns_fileSize, returns_requiredLength]
      simp only [returns_pure, and_true, Option.some.injEq, forall_eq']
      refine ⟨fun h => h.2, fun h => ⟨?_, h⟩⟩
      omega

theorem returns_fetchFile {send : CString → Env → Reply → Program Reply} {sendable : CString → Prop} {iFileId : Int}
    (sends : ∀ path con, Returns host env (send path env reply) (con, w) ↔ sendable path)
    (third : con.statements = 2) :
    Returns host env (fetchFile host send iFileId env reply) (con, w) ↔ (iFileId ≠ -1 → env.fails 2 = false ∧
      ∀ file, w.db.files.find? iFileId = some file →
        sendable (fullFilePathName host modelFilePath (blobString file.filePathName))) := by
  rw [fetchFile, returns_ite]
  refine (and_iff_left fun _ => returns_pure _).trans (imp_congr_right fun _ => ?_)
  rw [returns_plain (by rintro p ⟨⟩), third, Query.result]
  apply and_congr_right
  intro _
  cases w.db.files.find? iFileId with
  | none => simp
  | some file =>
    dsimp only
    rw [sends]
    simp

theorem returns_fetchAd {iAdId : Int} (second : con.statements = 1) :
    Returns host env (fetchAd host iAdId env reply) (con, w) ↔ (iAdId ≠ -1 → env.fails 1 = false ∧
      ∀ ad, w.db.ads.find? iAdId = some ad →
        Sendable env w.files (fullFilePathName host adFilePath (blobString ad.filePathName))) := by
  rw [fetchAd, returns_ite]
  refine (and_iff_left fun _ => returns_pure _).trans (imp_congr_right fun _ => ?_)
  rw [returns_plain (by rintro p ⟨⟩), second, Query.result]
  apply and_congr_right
  intro _
  cases w.db.ads.find? iAdId with
  | none => simp
  | some ad =>
    dsimp only
    rw [sendAd, returns_sendFile]
    simp

theorem returns_fetchUser {P : List OwnerDesc → Prop} {k : Int × Reply → Program α}
    (rest : ∀ rows reply, Returns host env (k (lastInt rows (fun row => some row.id), reply)) (con.next, w) ↔ P rows) :
    Returns host env (fetchUser host params reply >>= k) (con, w) ↔
      ∃ (user pass : CString) (rows : List OwnerDesc), fieldText host params "user" = .ok user ∧
        fieldText host params "pass" = .ok pass ∧
        answer host env con w (.user user pass) = some rows ∧ P rows := by
  rw [fetchUser]
  simp only [Prog.bind_assoc]
  rw [returns_field]
  simp only [exists_and_left]
  refine exists_congr fun user => and_congr_right fun _ => ?_
  rw [returns_field]
  refine exists_congr fun pass => and_congr_right fun _ => ?_
  rw [returns_query]
  refine exists_congr fun rows => and_congr_right fun _ => ?_
  exact rest _ _

theorem returns_fetchOwner {iUserId : Int} {P : List OwnerDesc → Prop} {k : Int × Reply → Program α}
    (known : iUserId ≠ -1)
    (rest : ∀ rows reply, Returns host env (k (lastInt rows (fun row => some row.id), reply)) (con.next, w) ↔ P rows) :
    Returns host env (fetchOwner host params iUserId reply >>= k) (con, w) ↔
      ∃ (owner : CString) (rows : List OwnerDesc), fieldText host params "owner" = .ok owner ∧
        answer host env con w (.owner owner) = some rows ∧ P rows := by
  rw [fetchOwner, if_pos known]
  simp only [Prog.bind_assoc]
  rw [returns_field]
  apply exists_congr
  intro owner
  rw [returns_query, exists_and_left]
  refine and_congr_right fun _ => exists_congr fun rows => and_congr_right fun _ => ?_
  exact rest _ _

theorem returns_modelExists {iOwnerId iModelId : Int} {P : Bool → Prop} {k : Bool × Reply → Program α}
    (known : iOwnerId ≠ -1)
    (rest : ∀ found reply, Returns host env (k (found, reply)) (con.next, w) ↔ P found) :
    Returns host env (modelExists iOwnerId iModelId reply >>= k) (con, w) ↔
      env.fails con.statements = false ∧ P (w.db.models.find? iModelId).isSome := by
  rw [modelExists, if_pos known, Prog.bind_assoc, returns_plain (q := .modelDescQuoted iModelId)
    (List.forall_mem_singleton.mpr (plain_decimal iModelId).whole), Query.result]
  apply and_congr_right
  intro _
  cases w.db.models.find? iModelId <;> exact rest _ _

theorem returns_adExists {iOwnerId iAdId : Int} {P : Bool → Prop} {k : Bool × Reply → Program α}
    (known : iOwnerId ≠ -1)
    (rest : ∀ found reply, Returns host env (k (found, reply)) (con.next, w) ↔ P found) :
    Returns host env (adExists iOwnerId iAdId reply >>= k) (con, w) ↔
      env.fails con.statements = false ∧ P ((w.db.ads.find? iAdId).isSome || decide (iAdId = -1)) := by
  rw [adExists, if_pos known, Prog.bind_assoc, returns_plain (q := .advertisementQuoted iAdId)
    (List.forall_mem_singleton.mpr (plain_decimal iAdId).whole), Query.result]
  apply and_congr_right
  intro _
  cases w.db.ads.find? iAdId with
  | none => exact rest _ _
  | some ad => exact rest _ _

theorem run_storeFile {key : String} {folder extension : CString} (k : CString × Nat → Program α) :
    (storeFile host env params key folder extension >>= k).run (exec host env) (con, w) =
      match fieldData host env params key with
      | .error e => (.error e, con, w)
      | .ok data =>
        match writeFile env w.files (fullFilePathName host folder (env.uuid.chars ++ extension)) data with
        | none => (.error .undefined, con, w)
        | some files => (k (env.uuid.chars ++ extension, data.length)).run (exec host env)
          (con, { w with files := files }) := by
  rw [storeFile, stringAt, fieldData]
  cases params.lookup (wide key) with
  | none => rfl
  | some value =>
    cases value with
    | string s =>
      rw [Prog.pure_bind, Prog.bind_assoc, run_saveFile]
      rfl
    | _ => rfl

theorem returns_storeFile {key : String} {folder extension : CString} {P : List UInt8 → Prop}
    {k : CString × Nat → Program α}
    (rest : ∀ data files, Returns host env (k (env.uuid.chars ++ extension, data.length))
      (con, { w with files := files }) ↔ P data) :
    Returns host env (storeFile host env params key folder extension >>= k) (con, w) ↔
      env.saving ≠ .refused ∧ ∃ data, fieldData host env params key = .ok data ∧ P data := by
  rw [Returns, run_storeFile]
  cases fieldData host env params key with
  | error e => simp
  | ok data =>
    simp only [Except.ok.injEq, exists_eq_left']
    cases written : writeFile env w.files (fullFilePathName host folder (env.uuid.chars ++ extension)) data with
    | none => simp [writeFile_none.mp written]
    | some files =>
      have opens : env.saving ≠ .refused := writeFile_isSome.mp ⟨files, written⟩
      rw [← rest data files]
      exact (and_iff_right opens).symm

theorem returns_insertRow {u : Update} {P : Changed host.mysql.collation → Prop} {k : Int × Reply → Program α}
    (rest : ∀ changed reply con, con.statements = 3 →
      (Returns host env (k (changed.id, reply)) (con, { w with db := changed.db }) ↔ P changed))
    (second : con.statements = 1) :
    Returns host env (insertRow u reply >>= k) (con, w) ↔
      ∃ changed, changes host env (statement 1) w u = some changed ∧ env.fails 2 = false ∧ P changed := by
  have place : changes host env con w u = changes host env (statement 1) w u := by
    rw [changes, changes, second]
    rfl
  rw [insertRow]
  simp only [Prog.bind_assoc]
  rw [returns_update, place]
  refine exists_congr fun changed => and_congr_right fun _ => ?_
  refine (returns_plain (by rintro p ⟨⟩) _).trans ?_
  rw [second]
  apply and_congr_right
  intro _
  exact rest changed _ _ rfl

theorem returns_insertLast {u : Update} {put : Int → Reply → Reply} {n : Nat} (place : con.statements = n) :
    Returns host env (insertLast u put reply) (con, w) ↔
      ∃ changed, changes host env (statement n) w u = some changed ∧
        (changed.rows ≠ 0 → env.fails (n + 1) = false) := by
  have same : changes host env con w u = changes host env (statement n) w u := by
    rw [changes, changes, place]
    rfl
  rw [insertLast, returns_update, same]
  refine exists_congr fun changed => and_congr_right fun _ => ?_
  rw [returns_ite]
  refine (and_iff_right fun _ => returns_pure _).trans (imp_congr_right fun _ => ?_)
  refine (returns_plain (by rintro p ⟨⟩) _).trans ?_
  rw [place]
  exact and_iff_left (returns_pure _)

theorem returns_chooseHash {seed attempts k base : Nat} {P : Nat → Prop} {next : CString → Program α}
    (rest : ∀ j con, con.statements = base + j + 1 →
      (Returns host env (next (candidate host seed j)) (con, w) ↔ P j))
    (place : con.statements = base + k) :
    Returns host env (chooseHash host seed attempts k >>= next) (con, w) ↔
      ∃ j, (k ≤ j ∧ j < k + attempts) ∧ (∀ i, k ≤ i → i < j → ¬ HashFree host w seed i) ∧
        HashFree host w seed j ∧ (∀ i, k ≤ i → i ≤ j → env.fails (base + i) = false) ∧ P j := by
  induction attempts generalizing k con with
  | zero =>
    rw [chooseHash, Prog.stop_bind]
    apply iff_of_false (not_returns_stop _)
    rintro ⟨j, bounds, -⟩
    omega
  | succ attempts ih =>
    rw [chooseHash, Prog.bind_assoc]
    refine (returns_plain (q := .subscription (candidate host seed k))
      (List.forall_mem_singleton.mpr (plain_candidate host seed k).whole) _).trans ?_
    rw [Query.result, place]
    have place' : con.next.statements = base + k + 1 := congrArg (· + 1) place
    by_cases free : HashFree host w seed k
    · rw [if_pos (isEmpty_hashed.mpr free), Prog.pure_bind, rest k _ place']
      constructor
      · rintro ⟨works, more⟩
        refine ⟨k, by omega, by omega, free, fun i low high => ?_, more⟩
        rw [show i = k by omega]
        exact works
      · rintro ⟨j, bounds, taken, -, works, more⟩
        obtain rfl : j = k := by
          by_contra ne
          exact taken k (Nat.le_refl k) (by omega) free
        exact ⟨works j (Nat.le_refl j) (Nat.le_refl j), more⟩
    · rw [if_neg fun empty => free (isEmpty_hashed.mp empty), ih place']
      constructor
      · rintro ⟨first, j, bounds, taken, last, works, more⟩
        refine ⟨j, by omega, fun i low high => ?_, last, fun i low high => ?_, more⟩
        · by_cases same : i = k
          · exact same ▸ free
          · exact taken i (by omega) high
        · by_cases same : i = k
          · exact same ▸ first
          · exact works i (by omega) high
      · rintro ⟨j, bounds, taken, last, works, more⟩
        have ne : j ≠ k := fun same => free (same ▸ last)
        refine ⟨works k (Nat.le_refl k) bounds.1, j, by omega, fun i low high => ?_, last, fun i low high => ?_,
          more⟩
        · exact taken i (by omega) high
        · exact works i (by omega) high

end Stages

/-! ### The handlers -/

section Handlers
variable {host : Host} (env : Env) (params : Params) (w : World host.mysql.collation)

/-- No look-up fails on the way from `subsid` to the file, and the file can be sent. -/
def ModelServable (sendable : CString → Prop) : Prop :=
  env.connects = true ∧ ∃ (subsid : CString) (rows : List Subscription), fieldText host params "subsid" = .ok subsid ∧
    answer host env (statement 0) w (.subscription subsid) = some rows ∧
    (lastInt rows (·.modelId) ≠ -1 → env.fails 1 = false ∧
      ∀ model, w.db.models.find? (lastInt rows (·.modelId)) = some model →
        model.pcFileId.getD 0 ≠ -1 → env.fails 2 = false ∧
          ∀ file, w.db.files.find? (model.pcFileId.getD 0) = some file → sendable (modelPath host file))

def AdServable : Prop :=
  env.connects = true ∧ ∃ (subsid : CString) (rows : List Subscription), fieldText host params "subsid" = .ok subsid ∧
    answer host env (statement 0) w (.subscription subsid) = some rows ∧
    (lastInt rows (·.adId) ≠ -1 → env.fails 1 = false ∧
      ∀ ad, w.db.ads.find? (lastInt rows (·.adId)) = some ad → Sendable env w.files (adPath host ad))

/-- The user check is answered, and for an owner `rest` holds of the id. -/
def UserChecked (rest : Int → Prop) : Prop :=
  ∃ (user pass : CString) (rows : List OwnerDesc), fieldText host params "user" = .ok user ∧
        fieldText host params "pass" = .ok pass ∧
    answer host env (statement 0) w (.user user pass) = some rows ∧
    rest (lastInt rows fun row => some row.id)

/-- The file is written, and both rows are inserted or at least no statement fails. -/
def ModelUploadable : Prop :=
  env.connects = true ∧ UserChecked env params w fun iUserId => iUserId ≠ -1 →
    env.saving ≠ .refused ∧ ∃ data, fieldData host env params "model" = .ok data ∧
      let name := env.uuid.chars ++ modelFileExtension
      ∃ changed, changes host env (statement 1) w (.fileAddress name (name ++ base64Suffix) data.length) =
          some changed ∧ env.fails 2 = false ∧
        (changed.id ≠ -1 → ∃ name desc, fieldText host params "name" = .ok name ∧
          fieldText host params "desc" = .ok desc ∧
          ∃ changed', changes host env (statement 3) { w with db := changed.db }
              (.modelDesc changed.id changed.id name desc) = some changed' ∧
            (changed'.rows ≠ 0 → env.fails 4 = false))

def AdUploadable : Prop :=
  env.connects = true ∧ ∃ url, fieldText host params "url" = .ok url ∧
    UserChecked env params w fun iUserId => iUserId ≠ -1 →
      env.saving ≠ .refused ∧ ∃ data, fieldData host env params "ad" = .ok data ∧
        ∃ changed, changes host env (statement 1) w
            (.advertisement (env.uuid.chars ++ adFileExtension) iUserId url) = some changed ∧
          env.fails 2 = false

theorem returns_onGetModel : Returns host env (onGetModel host env params .initial) (.opened, w) ↔
    ModelServable env params w (Sendable env w.files) := by
  rw [onGetModel, returns_connect, ModelServable]
  apply and_congr_right
  intro _
  apply returns_fetchSubscription
  intro rows reply
  refine returns_fetchModel ?_ ?_ ?_
  · intro model reply con third
    exact returns_fetchFile (fun path con => returns_sendFile) third
  · exact fun reply con => returns_pure _
  · rfl

theorem returns_onGetInfo : Returns host env (onGetInfo host env params .initial) (.opened, w) ↔
    ModelServable env params w (InfoSendable w.files) := by
  rw [onGetInfo, returns_connect, ModelServable]
  apply and_congr_right
  intro _
  apply returns_fetchSubscription
  intro rows reply
  refine returns_fetchModel ?_ ?_ ?_
  · intro model reply con third
    exact returns_fetchFile (fun path con => returns_sendInfo) third
  · exact fun reply con => returns_pure _
  · rfl

theorem returns_onGetAd : Returns host env (onGetAd host env params .initial) (.opened, w) ↔
    AdServable env params w := by
  rw [onGetAd, returns_connect, AdServable]
  apply and_congr_right
  intro _
  apply returns_fetchSubscription
  intro rows reply
  exact returns_fetchAd rfl

theorem returns_insertModel {reply : Reply} {con : Connection} {iFileId : Int} (place : con.statements = 3) :
    Returns host env (insertModel host params iFileId reply) (con, w) ↔
      (iFileId ≠ -1 → ∃ name desc, fieldText host params "name" = .ok name ∧
        fieldText host params "desc" = .ok desc ∧
        ∃ changed, changes host env (statement 3) w (.modelDesc iFileId iFileId name desc) = some changed ∧
          (changed.rows ≠ 0 → env.fails 4 = false)) := by
  rw [insertModel, returns_ite]
  refine (and_iff_left fun _ => returns_pure _).trans (imp_congr_right fun _ => ?_)
  rw [returns_field]
  simp only [exists_and_left]
  refine exists_congr fun name => and_congr_right fun _ => ?_
  rw [returns_field]
  exact exists_congr fun desc => and_congr_right fun _ => returns_insertLast place

theorem returns_onUploadModel : Returns host env (onUploadModel host env params .initial) (.opened, w) ↔
    ModelUploadable env params w := by
  rw [onUploadModel, returns_connect, ModelUploadable, UserChecked]
  apply and_congr_right
  intro _
  apply returns_fetchUser
  intro rows reply
  dsimp only
  rw [uploadFile]
  by_cases known : (lastInt rows fun row => some row.id) ≠ -1
  · rw [if_pos known, Prog.bind_assoc]
    refine (returns_storeFile ?_).trans (imp_iff_right known).symm
    intro data files
    refine returns_insertRow ?_ rfl
    intro changed reply con place
    exact returns_insertModel env params _ place
  · rw [if_neg known, Prog.pure_bind]
    exact iff_of_true (returns_pure _) fun more => absurd more known

theorem returns_onUploadAd : Returns host env (onUploadAd host env params .initial) (.opened, w) ↔
    AdUploadable env params w := by
  rw [onUploadAd, returns_connect, AdUploadable, returns_field]
  refine and_congr_right fun _ => exists_congr fun url => and_congr_right fun _ => ?_
  rw [UserChecked]
  apply returns_fetchUser
  intro rows reply
  dsimp only
  rw [insertAd]
  by_cases known : (lastInt rows fun row => some row.id) ≠ -1
  · rw [if_pos known]
    refine (returns_storeFile ?_).trans (imp_iff_right known).symm
    intro data files
    refine (returns_insertRow (P := fun _ => True) ?_ rfl).trans ?_
    · exact fun changed reply con place => iff_of_true (returns_pure _) trivial
    · simp only [and_true]
      exact Iff.rfl
  · rw [if_neg known]
    exact iff_of_true (returns_pure _) fun more => absurd more known

/-- The loop ends with attempt `j`, and no statement from there on fails. -/
def InsertableAt (iOwnerId iModelId iAdId : Int) (j : Nat) : Prop :=
  FirstFree host w env.tickCount j ∧
    (∀ i, i ≤ j → env.fails (4 + i) = false) ∧
    ∃ changed, changes host env (statement (5 + j)) w
        (.subscription iOwnerId iModelId iAdId (candidate host env.tickCount j)) = some changed ∧
      (changed.rows ≠ 0 → env.fails (6 + j) = false)

def SubscriptionInsertable (iOwnerId iModelId iAdId : Int) : Prop := ∃ j, InsertableAt env w iOwnerId iModelId iAdId j

/-- Both numbers are given, and for an owner no look-up fails, nor what comes of them. -/
def OwnerServable (insertable : Int → Int → Int → Prop) (iOwnerId : Int) : Prop :=
  ∃ iModelId, fieldNumber params "model_id" = .ok iModelId ∧
    if iOwnerId ≠ -1 then env.fails 2 = false ∧ ∃ iAdId, fieldNumber params "ad_id" = .ok iAdId ∧
      env.fails 3 = false ∧
      ((((w.db.ads.find? iAdId).isSome || decide (iAdId = -1)) && (w.db.models.find? iModelId).isSome) = true →
        insertable iOwnerId iModelId iAdId)
    else ∃ iAdId, fieldNumber params "ad_id" = .ok iAdId

def SubscriptionCreatable (insertable : Int → Int → Int → Prop) : Prop :=
  env.connects = true ∧ UserChecked env params w fun iUserId =>
    if iUserId ≠ -1 then ∃ (owner : CString) (rows : List OwnerDesc),
      fieldText host params "owner" = .ok owner ∧
        answer host env (statement 1) w (.owner owner) = some rows ∧
        OwnerServable env params w insertable (lastInt rows fun row => some row.id)
    else OwnerServable env params w insertable (-1)

variable {env params w}

theorem returns_insertSubscription {attempts : Nat} {iOwnerId iModelId iAdId : Int} {found : Bool}
    {reply : Reply} {con : Connection} (place : con.statements = 4) :
    Returns host (env.patient attempts)
        (insertSubscription host (env.patient attempts) iOwnerId iModelId iAdId found reply) (con, w) ↔
      (found = true → ∃ j, j < attempts ∧ InsertableAt env w iOwnerId iModelId iAdId j) := by
  rw [insertSubscription, returns_ite]
  refine (and_iff_left fun _ => returns_pure _).trans (imp_congr_right fun _ => ?_)
  refine (returns_chooseHash (P := fun j =>
    ∃ changed, changes host env (statement (5 + j)) w
        (.subscription iOwnerId iModelId iAdId (candidate host env.tickCount j)) = some changed ∧
      (changed.rows ≠ 0 → env.fails (6 + j) = false)) ?_ place).trans ?_
  · intro j con after
    apply (returns_insertLast (n := 5 + j) (by omega)).trans
    rw [show 5 + j + 1 = 6 + j by omega]
    rfl
  · apply exists_congr
    intro j
    simp only [InsertableAt, FirstFree, Nat.zero_le, true_and, forall_const, Nat.zero_add, and_assoc]
    rfl

theorem returns_owned (attempts : Nat) {iOwnerId : Int} (place : iOwnerId ≠ -1 → con.statements = 2) :
    Returns host (env.patient attempts) (do
        let iModelId ← integerAt params "model_id"
        let (bModelExists, reply) ← modelExists iOwnerId iModelId reply
        let iAdId ← integerAt params "ad_id"
        let (bAdExists, reply) ← adExists iOwnerId iAdId reply
        insertSubscription host (env.patient attempts) iOwnerId iModelId iAdId (bAdExists && bModelExists) reply)
        (con, w) ↔
      OwnerServable env params w (fun iOwnerId iModelId iAdId =>
        ∃ j, j < attempts ∧ InsertableAt env w iOwnerId iModelId iAdId j) iOwnerId := by
  rw [returns_number, OwnerServable]
  refine exists_congr fun iModelId => and_congr_right fun _ => ?_
  by_cases known : iOwnerId ≠ -1
  · rw [if_pos known]
    refine (returns_modelExists (P := fun found => ∃ iAdId,
      fieldNumber params "ad_id" = .ok iAdId ∧ env.fails 3 = false ∧
        ((((w.db.ads.find? iAdId).isSome || decide (iAdId = -1)) && found) = true →
          ∃ j, j < attempts ∧ InsertableAt env w iOwnerId iModelId iAdId j)) known ?_).trans ?_
    · intro found reply
      dsimp only
      rw [returns_number]
      refine exists_congr fun iAdId => and_congr_right fun _ => ?_
      refine (returns_adExists (P := fun ad => (ad && found) = true →
        ∃ j, j < attempts ∧ InsertableAt env w iOwnerId iModelId iAdId j) known ?_).trans ?_
      · intro ad reply
        apply returns_insertSubscription
        simp only [Connection.next, place known]
      · rw [Connection.next, place known]
        rfl
    · rw [place known]
      rfl
  · rw [if_neg known, modelExists, if_neg known, Prog.pure_bind]
    dsimp only
    rw [returns_number]
    refine exists_congr fun iAdId => and_iff_left ?_
    rw [adExists, if_neg known, Prog.pure_bind]
    exact returns_pure _

theorem returns_onCreateSubscription (attempts : Nat) :
    Returns host (env.patient attempts) (onCreateSubscription host (env.patient attempts) params .initial)
        (.opened, w) ↔
      SubscriptionCreatable env params w fun iOwnerId iModelId iAdId =>
        ∃ j, j < attempts ∧ InsertableAt env w iOwnerId iModelId iAdId j := by
  rw [onCreateSubscription, returns_connect, SubscriptionCreatable, UserChecked]
  refine and_congr_right fun _ => returns_fetchUser ?_
  intro rows reply
  dsimp only
  by_cases known : (lastInt rows fun row => some row.id) ≠ -1
  · rw [if_pos known]
    apply returns_fetchOwner known
    intro rows reply
    exact returns_owned attempts fun _ => rfl
  · rw [if_neg known, fetchOwner, if_neg known, Prog.pure_bind]
    exact returns_owned attempts fun ne => absurd rfl ne

theorem OwnerServable.mono {P Q : Int → Int → Int → Prop} (le : ∀ o m a, P o m a → Q o m a) {iOwnerId : Int}
    (h : OwnerServable env params w P iOwnerId) : OwnerServable env params w Q iOwnerId := by
  obtain ⟨iModelId, number, more⟩ := h
  refine ⟨iModelId, number, ?_⟩
  split at more
  · rename_i known
    obtain ⟨works, iAdId, number', works', insertable⟩ := more
    rw [if_pos known]
    exact ⟨works, iAdId, number', works', fun found => le _ _ _ (insertable found)⟩
  · rename_i unknown
    rw [if_neg unknown]
    exact more

theorem SubscriptionCreatable.mono {P Q : Int → Int → Int → Prop} (le : ∀ o m a, P o m a → Q o m a)
    (h : SubscriptionCreatable env params w P) : SubscriptionCreatable env params w Q := by
  obtain ⟨connects, user, pass, rows, userText, passText, found, more⟩ := h
  refine ⟨connects, user, pass, rows, userText, passText, found, ?_⟩
  dsimp only at more ⊢
  split at more
  · rename_i known
    obtain ⟨owner, owners, text, named, servable⟩ := more
    rw [if_pos known]
    exact ⟨owner, owners, text, named, servable.mono le⟩
  · rename_i unknown
    rw [if_neg unknown]
    exact more.mono le

theorem creatable_iff : (∃ attempts, SubscriptionCreatable env params w fun iOwnerId iModelId iAdId =>
    ∃ j, j < attempts ∧ InsertableAt env w iOwnerId iModelId iAdId j) ↔
      SubscriptionCreatable env params w (SubscriptionInsertable env w) := by
  constructor
  · rintro ⟨attempts, creatable⟩
    apply creatable.mono
    rintro o m a ⟨j, -, insertable⟩
    exact ⟨j, insertable⟩
  · intro creatable
    by_cases free : ∃ j, FirstFree host w env.tickCount j
    · obtain ⟨j, taken, last⟩ := free
      refine ⟨j + 1, creatable.mono ?_⟩
      rintro o m a ⟨j', insertable⟩
      refine ⟨j', ?_, insertable⟩
      have first : ¬ j < j' := fun lt => insertable.1.1 j lt last
      omega
    · refine ⟨0, creatable.mono ?_⟩
      rintro o m a ⟨j, insertable⟩
      exact absurd ⟨j, insertable.1⟩ free

end Handlers
/-! ### Requests -/

/-- The status, the code and the field that was asked for say the same. -/
def Consistent (host : Host) (method : Method) (request : HttpRequest) (r : Reply) : Prop :=
  (r.httpResult = .ok ↔ r.errorCode = .ok) ∧
    (r.errorCode = .ok ↔ ∃ path strMethod payload, host.uri.decode request.path = some path ∧
      (host.uri.splitPath path).getLast? = some strMethod ∧ asked method strMethod = some payload ∧
      r.Carries payload)

/-- The handler returns, so that one reply is sent, and this is consistent. -/
def OneReply (host : Host) (env : Env) (method : Method) (request : HttpRequest)
    (w : World host.mysql.collation) : Prop :=
  ∃ attempts reply, (serve host (env.patient attempts) method request w).1 = .ok reply ∧
    Consistent host method request reply

section Requests
variable {host : Host} (env : Env) (w : World host.mysql.collation)

def GetServable (query_comps : List (WString × WString)) (strMethod : WString) : Prop :=
  HasMagic query_comps → match asked .get strMethod with
    | some .model => ModelServable env (queryParams query_comps) w (Sendable env w.files)
    | some .ad => AdServable env (queryParams query_comps) w
    | some .info => ModelServable env (queryParams query_comps) w (InfoSendable w.files)
    | _ => True

def PostServable (jsonBody : Json) (strMethod : WString) : Prop :=
  match asked .post strMethod with
  | some .modelId => ModelUploadable env (bodyParams jsonBody ["model", "user", "pass", "name", "desc"]) w
  | some .adId => AdUploadable env (bodyParams jsonBody ["ad", "user", "pass", "url"]) w
  | some .subscriptionId =>
    SubscriptionCreatable env (bodyParams jsonBody ["model_id", "ad_id", "owner", "user", "pass"]) w
      (SubscriptionInsertable env w)
  | _ => True

/-- The URI decodes, a POST has a body of JSON or one that cannot be read at all, and the method that is
named can be served. -/
def Servable (method : Method) (request : HttpRequest) : Prop :=
  ∃ path query, host.uri.decode request.path = some path ∧ host.uri.decode request.query = some query ∧
    match method, request.body with
    | .get, _ => ∀ strMethod, (host.uri.splitPath path).getLast? = some strMethod →
      GetServable env w (host.uri.splitQuery query) strMethod
    | .post, .json jsonBody => ∀ strMethod, (host.uri.splitPath path).getLast? = some strMethod →
      PostServable env w jsonBody strMethod
    | .post, .malformed => False
    | .post, .unreadable => True

variable {env w} {request : HttpRequest}

theorem consistent_of_failed {method : Method} {r : Reply} (code : r.errorCode ≠ .ok)
    (status : r.httpResult ≠ .ok) (bare : r.Bare) : Consistent host method request r := by
  refine ⟨iff_of_false status code, iff_of_false code ?_⟩
  rintro ⟨path, strMethod, payload, -, -, -, carries⟩
  exact bare.not_carries payload carries

theorem consistent_outcome {method : Method} (message : String) {code : ErrorCode} {status : Status}
    (notOk : code ≠ .ok) (failed : status ≠ .ok) :
    Consistent host method request (Reply.initial.outcome message code status) :=
  consistent_of_failed notOk failed ⟨rfl, rfl, rfl, rfl, rfl, rfl⟩

theorem consistent_of_settled {method : Method} {path strMethod : WString}
    {payload : Payload} (decodes : host.uri.decode request.path = some path)
    (named : (host.uri.splitPath path).getLast? = some strMethod) (asks : asked method strMethod = some payload)
    {r : Reply} (settled : r.Settled payload) : Consistent host method request r := by
  rcases settled with refused | succeeded
  · exact consistent_of_failed refused.code.1 refused.status refused.bare
  · refine ⟨iff_of_true succeeded.status succeeded.code, iff_of_true succeeded.code ?_⟩
    exact ⟨path, strMethod, payload, decodes, named, asks, succeeded.carries⟩

theorem handleGet_ends : (handleGet host env request).Ends (Consistent host .get request) := by
  rw [handleGet, decodeUri]
  cases decodes : host.uri.decode request.path with
  | none => trivial
  | some path =>
    dsimp only
    rw [Prog.pure_bind]
    apply (Prog.ends_true _).bind
    intro query _
    cases named : (host.uri.splitPath path).getLast? with
    | none => exact consistent_outcome _ (by decide) (by decide)
    | some strMethod =>
      have settled : ∀ payload : Payload, asked .get strMethod = some payload → ∀ r : Reply,
          r.Settled payload → Consistent host .get request r :=
        fun payload asks r => consistent_of_settled decodes named asks
      dsimp only
      by_cases unknown : ¬ HasMagic (host.uri.splitQuery query)
      · rw [if_pos unknown]
        exact consistent_outcome _ (by decide) (by decide)
      rw [if_neg unknown]
      by_cases model : strMethod = wide "get"
      · rw [if_pos model]
        exact (onGetModel_ends host env _).mono (settled _ (by rw [asked, if_pos model]))
      rw [if_neg model]
      by_cases ad : strMethod = wide "getad"
      · rw [if_pos ad]
        exact (onGetAd_ends host env _).mono (settled _ (by rw [asked, if_neg model, if_pos ad]))
      rw [if_neg ad]
      by_cases info : strMethod = wide "getinfo"
      · rw [if_pos info]
        exact (onGetInfo_ends host env _).mono (settled _ (by rw [asked, if_neg model, if_neg ad, if_pos info]))
      · rw [if_neg info]
        exact consistent_outcome _ (by decide) (by decide)

theorem handlePost_ends : (handlePost host env request).Ends (Consistent host .post request) := by
  rw [handlePost, decodeUri]
  cases decodes : host.uri.decode request.path with
  | none => trivial
  | some path =>
    dsimp only
    rw [Prog.pure_bind]
    apply (Prog.ends_true _).bind
    intro query _
    cases request.body with
    | unreadable => exact consistent_of_failed (by decide) (by decide) refused_initial.bare
    | malformed => trivial
    | json jsonBody =>
      dsimp only
      cases named : (host.uri.splitPath path).getLast? with
      | none => exact consistent_outcome _ (by decide) (by decide)
      | some strMethod =>
        have settled : ∀ payload : Payload, asked .post strMethod = some payload → ∀ r : Reply,
            r.Settled payload → Consistent host .post request r :=
          fun payload asks r => consistent_of_settled decodes named asks
        dsimp only
        by_cases model : strMethod = wide "upload_model"
        · rw [if_pos model]
          exact (onUploadModel_ends host env _).mono (settled _ (by rw [asked, if_pos model]))
        rw [if_neg model]
        by_cases ad : strMethod = wide "upload_ad"
        · rw [if_pos ad]
          exact (onUploadAd_ends host env _).mono (settled _ (by rw [asked, if_neg model, if_pos ad]))
        rw [if_neg ad]
        by_cases subs : strMethod = wide "create_subs"
        · rw [if_pos subs]
          exact (onCreateSubscription_ends host env _).mono
            (settled _ (by rw [asked, if_neg model, if_neg ad, if_pos subs]))
        · rw [if_neg subs]
          exact consistent_outcome _ (by decide) (by decide)

theorem handle_ends (method : Method) : (handle host env request method).Ends (Consistent host method request) :=
  match method with
  | .get => handleGet_ends
  | .post => handlePost_ends

/-- What returns at all is consistent. -/
theorem oneReply_iff_returns {method : Method} : OneReply host env method request w ↔
    ∃ attempts, Returns host (env.patient attempts) (handle host (env.patient attempts) request method)
      (.opened, w) := by
  apply exists_congr
  intro attempts
  constructor
  · rintro ⟨reply, returned, -⟩
    rw [serve, runAlone] at returned
    rcases ran : (handle host (env.patient attempts) request method).run (exec host (env.patient attempts))
      (.opened, w) with ⟨e | reply', s⟩
    · rw [ran] at returned
      cases returned
    · exact ⟨reply', s, ran⟩
  · rintro ⟨reply, s, ran⟩
    refine ⟨reply, by rw [serve, runAlone, ran], (handle_ends method).run ran⟩

theorem returns_decodeUri {α : Type} {t : WString} {st : Connection × World host.mysql.collation}
    (k : WString → Program α) : Returns host env (decodeUri host t >>= k) st ↔
      ∃ decoded, host.uri.decode t = some decoded ∧ Returns host env (k decoded) st := by
  rw [decodeUri]
  cases host.uri.decode t with
  | none =>
    apply iff_of_false (not_returns_stop _)
    rintro ⟨decoded, ⟨⟩, -⟩
  | some decoded => simp

theorem returns_handleGet : Returns host env (handleGet host env request) (.opened, w) ↔
    Servable env w .get request := by
  rw [handleGet, returns_decodeUri, Servable]
  simp only [exists_and_left]
  refine exists_congr fun path => and_congr_right fun _ => ?_
  rw [returns_decodeUri]
  refine exists_congr fun query => and_congr_right fun _ => ?_
  cases (host.uri.splitPath path).getLast? with
  | none => simp
  | some strMethod =>
    simp only [Option.some.injEq, forall_eq']
    rw [GetServable]
    by_cases known : HasMagic (host.uri.splitQuery query)
    · rw [if_neg (not_not_intro known), imp_iff_right known, asked]
      by_cases model : strMethod = wide "get"
      · rw [if_pos model, if_pos model]
        exact returns_onGetModel env _ w
      rw [if_neg model, if_neg model]
      by_cases ad : strMethod = wide "getad"
      · rw [if_pos ad, if_pos ad]
        exact returns_onGetAd env _ w
      rw [if_neg ad, if_neg ad]
      by_cases info : strMethod = wide "getinfo"
      · rw [if_pos info, if_pos info]
        exact returns_onGetInfo env _ w
      · rw [if_neg info, if_neg info]
        exact iff_of_true (returns_pure _) trivial
    · rw [if_pos known]
      exact iff_of_true (returns_pure _) fun magic => absurd magic known

theorem returns_handlePost : (∃ attempts, Returns host (env.patient attempts)
    (handlePost host (env.patient attempts) request) (.opened, w)) ↔ Servable env w .post request := by
  simp only [handlePost, returns_decodeUri, Servable, exists_and_left]
  rw [exists_comm]
  apply exists_congr
  intro path
  rw [exists_and_left]
  apply and_congr_right
  intro _
  rw [exists_comm]
  apply exists_congr
  intro query
  rw [exists_and_left]
  apply and_congr_right
  intro _
  cases request.body with
  | unreadable => exact iff_of_true ⟨0, returns_pure _⟩ trivial
  | malformed =>
    refine iff_of_false ?_ not_false
    rintro ⟨attempts, returns⟩
    exact not_returns_stop _ returns
  | json jsonBody =>
    cases (host.uri.splitPath path).getLast? with
    | none => simp
    | some strMethod =>
      simp only [Option.some.injEq, forall_eq']
      rw [PostServable, asked]
      by_cases model : strMethod = wide "upload_model"
      · simp only [if_pos model]
        constructor
        · rintro ⟨attempts, returns⟩
          exact (returns_onUploadModel (env.patient attempts) _ w).mp returns
        · exact fun uploadable => ⟨0, (returns_onUploadModel (env.patient 0) _ w).mpr uploadable⟩
      by_cases ad : strMethod = wide "upload_ad"
      · simp only [if_neg model, if_pos ad]
        constructor
        · rintro ⟨attempts, returns⟩
          exact (returns_onUploadAd (env.patient attempts) _ w).mp returns
        · exact fun uploadable => ⟨0, (returns_onUploadAd (env.patient 0) _ w).mpr uploadable⟩
      by_cases subs : strMethod = wide "create_subs"
      · simp only [if_neg model, if_neg ad, if_pos subs]
        exact (exists_congr fun attempts => returns_onCreateSubscription attempts).trans creatable_iff
      · simp only [if_neg model, if_neg ad, if_neg subs]
        exact iff_of_true ⟨0, returns_pure _⟩ trivial

/-- One reply is sent, and its status, its code and its field agree, for the requests that can be served
and no others. -/
theorem one_reply (method : Method) : OneReply host env method request w ↔ Servable env w method request := by
  rw [oneReply_iff_returns]
  cases method with
  | get => exact ⟨fun ⟨_, returns⟩ => returns_handleGet.mp returns, fun servable =>
      ⟨0, returns_handleGet.mpr servable⟩⟩
  | post => exact returns_handlePost

/-- For a `get` without `subsid` no reply is sent, but a `json_exception` escapes. -/
theorem get_without_subsid : ¬ OneReply Small.host Small.env .get
    ⟨wide "/get", wide "magic=tfzfepg", .unreadable⟩ Small.world := by
  rintro ⟨attempts, reply, served, -⟩
  have escapes : (serve Small.host (Small.env.patient attempts) .get
    ⟨wide "/get", wide "magic=tfzfepg", .unreadable⟩ Small.world).1 = .error .jsonException := rfl
  rw [escapes] at served
  cases served

end Requests
end ModelPublish.Server
