import ModelPublish.Server.Texts

/-!
# Uploads as a whole

The file of an upload is written before its rows, and nothing is taken back. An upload is all or nothing
only if whatever comes after the file goes through.
-/

namespace ModelPublish.Server
open Machine Reply

section Tables
variable {c : Collation} {host : Host}

structure SameRows (db db' : Database c) : Prop where
  files : db'.files.rows = db.files.rows
  ads : db'.ads.rows = db.ads.rows
  models : db'.models.rows = db.models.rows
  owners : db'.owners.rows = db.owners.rows
  subscriptions : db'.subscriptions.rows = db.subscriptions.rows

theorem SameRows.refl (db : Database c) : SameRows db db := ⟨rfl, rfl, rfl, rfl, rfl⟩

/-- The tables and the files are as before. -/
def Unchanged (w w' : World c) : Prop := SameRows w.db w'.db ∧ w'.files = w.files

theorem Unchanged.refl (w : World c) : Unchanged w w := ⟨.refl w.db, rfl⟩

/-- What an upload ends with: all of it for `MS_ERROR_OK`, and otherwise nothing. Of a handler that does
something undefined neither can be said, as it goes on with whatever it has overwritten. -/
def AllOrNothing (Stored : World c → Prop) (w : World c) : Except Stop Reply × World c → Prop
  | (.ok reply, w') => if reply.errorCode = .ok then Stored w' else Unchanged w w'
  | (.error e, w') => e ≠ .undefined ∧ Unchanged w w'

theorem allOrNothing_ok {Stored : World c → Prop} {w w' : World c} {reply : Reply} (code : reply.errorCode = .ok) :
    AllOrNothing Stored w (.ok reply, w') ↔ Stored w' := by
  rw [AllOrNothing, if_pos code]

theorem allOrNothing_refused {Stored : World c → Prop} {w w' : World c} {reply : Reply} (refused : reply.Refused) :
    AllOrNothing Stored w (.ok reply, w') ↔ Unchanged w w' := by
  rw [AllOrNothing, if_neg refused.code.1]

/-- One row more in each of the two tables, which refer to the file, and the file with its data. -/
structure ModelStored (host : Host) (name : CString) (data : List UInt8) (w w' : World c) (file : FileAddress)
    (model : ModelDesc) : Prop where
  named : file.filePathName = name
  files : w'.db.files.rows = w.db.files.rows ++ [file]
  models : w'.db.models.rows = w.db.models.rows ++ [model]
  pc : model.pcFileId = some file.id
  mobile : model.mobileFileId = some file.id
  content : w'.files (modelPath host file) = some data
  ads : w'.db.ads.rows = w.db.ads.rows
  owners : w'.db.owners.rows = w.db.owners.rows
  subscriptions : w'.db.subscriptions.rows = w.db.subscriptions.rows

structure AdStored (host : Host) (name : CString) (data : List UInt8) (w w' : World c) (ad : Advertisement) :
    Prop where
  named : ad.filePathName = name
  ads : w'.db.ads.rows = w.db.ads.rows ++ [ad]
  content : w'.files (adPath host ad) = some data
  files : w'.db.files.rows = w.db.files.rows
  models : w'.db.models.rows = w.db.models.rows
  owners : w'.db.owners.rows = w.db.owners.rows
  subscriptions : w'.db.subscriptions.rows = w.db.subscriptions.rows

end Tables

section Stages
variable {host : Host} (env : Env) (params : Params) (w : World host.mysql.collation)

/-- Of these fields, in turn until one is missing, none fills its buffer. -/
def InTurn (host : Host) (params : Params) : List String → Prop
  | [] => True
  | key :: keys => ¬ Fills host params key ∧ ((∃ p, fieldText host params key = .ok p) → InTurn host params keys)

/-- The request of an owner comes as far as opening the file. -/
def ReachesFile (key : String) (iUserId : Int) (data : List UInt8) : Prop :=
  env.connects = true ∧
    (∃ rows, checkedUser host env params .opened w = .ok rows ∧ lastInt rows (fun row => some row.id) = iUserId) ∧
    iUserId ≠ -1 ∧ fieldData host env params key = .ok data

/-- The file is written whole and gets its row, then the other fields are there, and the model gets a row that
refers to it. -/
def ModelGoesThrough (data : List UInt8) : Prop :=
  env.saving.stored data = some data ∧
    ∃ changed, changes host env (statement 1) w
        (.fileAddress (modelFileName env) (modelFileName env ++ base64Suffix) data.length) = some changed ∧
      env.fails 2 = false ∧
      ∃ name desc, fieldText host params "name" = .ok name ∧ fieldText host params "desc" = .ok desc ∧
        ∃ changed', changes host env (statement 3) { w with db := changed.db }
            (.modelDesc changed.id changed.id name desc) = some changed' ∧
          changed'.rows ≠ 0 ∧ env.fails 4 = false ∧ changed'.id ≠ -1 ∧
          ∃ model, changed'.db.models.rows = w.db.models.rows ++ [model] ∧ model.pcFileId = some changed.id ∧
            model.mobileFileId = some changed.id

/-- The file is written whole, and the ad gets a row that names it. -/
def AdGoesThrough (iUserId : Int) (url : CString) (data : List UInt8) : Prop :=
  env.saving.stored data = some data ∧
    ∃ changed, changes host env (statement 1) w (.advertisement (adFileName env) iUserId url) = some changed ∧
      env.fails 2 = false ∧ changed.id ≠ -1 ∧
      ∃ ad, changed.db.ads.rows = w.db.ads.rows ++ [ad] ∧ ad.filePathName = adFileName env

variable {env params w}

theorem inTurn_text {key : String} {keys : List String} {p : CString} (text : fieldText host params key = .ok p) :
    InTurn host params (key :: keys) ↔ InTurn host params keys := by
  rw [InTurn, Fills, text]
  constructor
  · exact fun h => h.2 ⟨p, rfl⟩
  · exact fun h => ⟨by rintro ⟨⟩, fun _ => h⟩

theorem inTurn_missing {key : String} {keys : List String} {e : Stop} (text : fieldText host params key = .error e) :
    InTurn host params (key :: keys) ↔ e ≠ .undefined := by
  rw [InTurn, Fills, text]
  simp

theorem answered_error {β : Type} {r : Option β} {e : Stop} (h : answered r = .error e) : e = .sqlException := by
  cases r with
  | none =>
    cases h
    rfl
  | some _ => cases h

/-- The owner check is left as its texts say, or by its statement. -/
theorem checkedUser_error {con : Connection} {e : Stop} (checked : checkedUser host env params con w = .error e) :
    InTurn host params ["user", "pass"] ↔ e ≠ .undefined := by
  rw [checkedUser] at checked
  cases user : fieldText host params "user" with
  | error e' =>
    rw [user] at checked
    cases checked
    exact inTurn_missing user
  | ok p =>
    rw [inTurn_text user]
    cases pass : fieldText host params "pass" with
    | error e' =>
      rw [user, ok_bind, pass] at checked
      cases checked
      exact inTurn_missing pass
    | ok q =>
      rw [user, ok_bind, pass, ok_bind] at checked
      rw [inTurn_text pass, answered_error checked]
      exact iff_of_true trivial (by decide)

theorem checkedUser_ok {con : Connection} {rows : List OwnerDesc}
    (checked : checkedUser host env params con w = .ok rows) : InTurn host params ["user", "pass"] := by
  rw [checkedUser] at checked
  cases user : fieldText host params "user" with
  | error e' =>
    rw [user] at checked
    cases checked
  | ok p =>
    rw [inTurn_text user]
    cases pass : fieldText host params "pass" with
    | error e' =>
      rw [user, ok_bind, pass] at checked
      cases checked
    | ok q => exact (inTurn_text pass).mpr trivial

theorem changes_fileRow {con : Connection} {size : Int} {changed : Changed host.mysql.collation}
    (h : changes host env con w (.fileAddress (modelFileName env) (modelFileName env ++ base64Suffix) size) =
      some changed) :
    changed.id = w.db.files.next ∧ changed.db.files.rows =
      w.db.files.rows ++ [⟨changed.id, modelFileName env, modelFileName env ++ base64Suffix, size⟩] := by
  rw [changes, Option.ite_none_left_eq_some] at h
  exact executeUpdate_fileRow h.2

theorem changes_keeps {con : Connection} {u : Update} {changed : Changed host.mysql.collation}
    (h : changes host env con w u = some changed) : u.KeepsOthers w.db changed.db := by
  rw [changes, Option.ite_none_left_eq_some] at h
  exact MySQL.executeUpdate_keeps h.2

theorem not_unchanged {path : CString} {data : List UInt8} {files : CString → Option (List UInt8)}
    (fresh : w.files path = none) (written : writeFile env w.files path data = some files)
    (db : Database host.mysql.collation) : ¬ Unchanged w ⟨db, files⟩ := by
  rintro ⟨-, same⟩
  obtain ⟨content, -, rfl⟩ := Option.map_eq_some_iff.mp written
  have found := congrFun same path
  dsimp only at found
  rw [Function.update_self, fresh] at found
  cases found

theorem writeFile_self {path : CString} {data : List UInt8} {files : CString → Option (List UInt8)}
    (written : writeFile env w.files path data = some files) : files path = env.saving.stored data := by
  obtain ⟨content, stored, rfl⟩ := Option.map_eq_some_iff.mp written
  rw [Function.update_self, stored]

end Stages

theorem refused_ite {rows : Nat} {reply : Reply} (refused : reply.Refused) : (if rows = 0 then
    reply.outcome "Subscription id not found!" .subscriptionNotFound .notFound else reply).Refused := by
  split
  · exact refused.outcome _ (by decide) (by decide)
  · exact refused

section Handlers
variable {host : Host} {env : Env} {params : Params} {w : World host.mysql.collation} {reply : Reply}

theorem allOrNothing_lost {Stored : World host.mysql.collation → Prop} {e : Stop} {w' : World host.mysql.collation}
    (lost : ¬ Unchanged w w') : ¬ AllOrNothing Stored w (.error e, w') :=
  fun h => lost h.2

/-- The upload of a model is stored. -/
def ModelPublished (host : Host) (env : Env) (params : Params) (w w' : World host.mysql.collation) : Prop :=
  ∃ data file model, fieldData host env params "model" = .ok data ∧
    ModelStored host (modelFileName env) data w w' file model

def AdPublished (host : Host) (env : Env) (params : Params) (w w' : World host.mysql.collation) : Prop :=
  ∃ data ad, fieldData host env params "ad" = .ok data ∧ AdStored host (adFileName env) data w w' ad

section Model
variable {data : List UInt8} {files : CString → Option (List UInt8)} {changed : Changed host.mysql.collation}

theorem model_after_fields {name desc : CString} {con : Connection} (third : con.statements = 3)
    (refused : reply.Refused)
    (lost : ∀ db, ¬ Unchanged w ⟨db, files⟩) (decoded : fieldData host env params "model" = .ok data)
    (content : files (fullFilePathName host modelFilePath (modelFileName env)) = env.saving.stored data)
    (inserted : changes host env (statement 1) w
      (.fileAddress (modelFileName env) (modelFileName env ++ base64Suffix) data.length) = some changed) :
    AllOrNothing (ModelPublished host env params w) w
        (runOn host env (insertLast (.modelDesc changed.id changed.id name desc)
          (fun iModelId reply => { reply with modelId := some iModelId }) reply) con ⟨changed.db, files⟩) ↔
      env.saving.stored data = some data ∧
        ∃ changed', changes host env (statement 3) { w with db := changed.db }
            (.modelDesc changed.id changed.id name desc) = some changed' ∧
          changed'.rows ≠ 0 ∧ env.fails 4 = false ∧ changed'.id ≠ -1 ∧
          ∃ model, changed'.db.models.rows = w.db.models.rows ++ [model] ∧ model.pcFileId = some changed.id ∧
            model.mobileFileId = some changed.id := by
  have rows := (changes_fileRow inserted).2
  obtain ⟨ads, models, owners, subscriptions⟩ := changes_keeps inserted
  have same : changes host env con ⟨changed.db, files⟩ (.modelDesc changed.id changed.id name desc) =
      changes host env (statement 3) { w with db := changed.db } (.modelDesc changed.id changed.id name desc) := by
    rw [changes, third]
    rfl
  rw [runOn_insertLast, same, third]
  cases last : changes host env (statement 3) { w with db := changed.db }
    (.modelDesc changed.id changed.id name desc) with
  | none =>
    apply iff_of_false (allOrNothing_lost (lost _))
    rintro ⟨-, changed', ⟨⟩, -⟩
  | some changed' =>
    obtain ⟨ads', files', owners', subscriptions'⟩ := changes_keeps last
    simp only [Option.some.injEq, exists_eq_left']
    by_cases none : changed'.rows = 0
    · rw [if_pos none, allOrNothing_refused (refused.outcome _ (by decide) (by decide))]
      exact iff_of_false (lost _) fun h => h.2.1 none
    rw [if_neg none]
    by_cases fails : env.fails 4 = true
    · rw [if_pos fails]
      apply iff_of_false (allOrNothing_lost (lost _))
      rintro ⟨-, -, works, -⟩
      rw [works] at fails
      cases fails
    rw [if_neg fails]
    by_cases known : changed'.id ≠ -1
    · rw [if_pos known, allOrNothing_ok rfl]
      constructor
      · rintro ⟨data', file, model, decoded', stored⟩
        obtain rfl : data = data' := Except.ok.inj (decoded.symm.trans decoded')
        have alone : file = ⟨changed.id, modelFileName env, modelFileName env ++ base64Suffix, data.length⟩ := by
          have both := stored.files.symm.trans ((congrArg Table.rows files').trans rows)
          simpa using both
        have whole := stored.content
        rw [modelPath, stored.named, blobString_eq plain_modelFileName] at whole
        refine ⟨content.symm.trans whole, none, by simpa using fails, known, model, stored.models, ?_, ?_⟩
        · rw [stored.pc, alone]
        · rw [stored.mobile, alone]
      · rintro ⟨whole, -, -, -, model, added, pc, mobile⟩
        refine ⟨data, ⟨changed.id, modelFileName env, modelFileName env ++ base64Suffix, data.length⟩, model,
          decoded, ?_⟩
        constructor
        · rfl
        · exact (congrArg Table.rows files').trans rows
        · exact added
        · exact pc
        · exact mobile
        · rw [modelPath, blobString_eq plain_modelFileName]
          exact content.trans whole
        · exact congrArg Table.rows (ads'.trans ads)
        · exact congrArg Table.rows (owners'.trans owners)
        · exact congrArg Table.rows (subscriptions'.trans subscriptions)
    · rw [if_neg known, allOrNothing_refused refused]
      exact iff_of_false (lost _) fun h => known h.2.2.2.1

theorem model_after_file (refused : reply.Refused)
    (fresh : w.files (fullFilePathName host modelFilePath (modelFileName env)) = none)
    (decoded : fieldData host env params "model" = .ok data)
    (written : writeFile env w.files (fullFilePathName host modelFilePath (modelFileName env)) data = some files) :
    AllOrNothing (ModelPublished host env params w) w
        (runOn host env (insertRow (.fileAddress (modelFileName env) (modelFileName env ++ base64Suffix) data.length)
          reply >>= fun x => insertModel host params x.1 x.2) (statement 1) { w with files := files }) ↔
      ModelGoesThrough env params w data := by
  have lost := not_unchanged fresh written
  have same : changes host env (statement 1) { w with files := files }
      (.fileAddress (modelFileName env) (modelFileName env ++ base64Suffix) data.length) =
    changes host env (statement 1) w
      (.fileAddress (modelFileName env) (modelFileName env ++ base64Suffix) data.length) := rfl
  rw [runOn_insertRow, ModelGoesThrough, same, show (statement 1).statements + 1 = 2 from rfl]
  cases inserted : changes host env (statement 1) w
    (.fileAddress (modelFileName env) (modelFileName env ++ base64Suffix) data.length) with
  | none =>
    apply iff_of_false (allOrNothing_lost (lost _))
    rintro ⟨-, changed, ⟨⟩, -⟩
  | some changed =>
    simp only [Option.some.injEq, exists_eq_left']
    by_cases fails : env.fails 2 = true
    · rw [if_pos fails]
      apply iff_of_false (allOrNothing_lost (lost _))
      rintro ⟨-, works, -⟩
      rw [works] at fails
      cases fails
    have known : changed.id ≠ -1 := by
      have positive := w.db.files.counts
      have given := (changes_fileRow inserted).1
      omega
    rw [if_neg fails, insertModel, if_pos known, runOn_field]
    cases named : fieldText host params "name" with
    | error e =>
      apply iff_of_false (allOrNothing_lost (lost _))
      rintro ⟨-, -, name, desc, ⟨⟩, -⟩
    | ok name =>
      dsimp only
      rw [runOn_field]
      cases described : fieldText host params "desc" with
      | error e =>
        apply iff_of_false (allOrNothing_lost (lost _))
        rintro ⟨-, -, name, desc, -, ⟨⟩, -⟩
      | ok desc =>
        apply (model_after_fields rfl (refused_ite refused) lost decoded (writeFile_self written) inserted).trans
        have works : env.fails 2 = false := by simpa using fails
        simp only [Except.ok.injEq, exists_and_left, exists_eq_left', works, true_and]

end Model

theorem allOrNothing_stopped {Stored : World host.mysql.collation → Prop} {key : String} {P : Int → List UInt8 → Prop}
    {r : Except Stop Reply × World host.mysql.collation} {Inside : Prop} (same : r.2 = w)
    (fails : ∀ reply, r.1 = .ok reply → reply.Refused ∧ Inside)
    (inside : ∀ e, r.1 = .error e → (Inside ↔ e ≠ .undefined))
    (stopped : ∀ iUserId data, ¬ ReachesFile env params w key iUserId data) :
    AllOrNothing Stored w r ↔
      Inside ∧ ∀ iUserId data, ReachesFile env params w key iUserId data → P iUserId data := by
  have never : ∀ iUserId data, ReachesFile env params w key iUserId data → P iUserId data :=
    fun iUserId data reaches => absurd reaches (stopped iUserId data)
  obtain ⟨e | reply, w'⟩ := r
  · subst same
    rw [inside e rfl]
    exact ⟨fun h => ⟨h.1, never⟩, fun h => ⟨h.1, Unchanged.refl _⟩⟩
  · subst same
    obtain ⟨refused, defined⟩ := fails reply rfl
    exact iff_of_true ((allOrNothing_refused refused).mpr (Unchanged.refl _)) ⟨defined, never⟩

theorem reaches_only {key : String} {rows : List OwnerDesc} {data : List UInt8} {P : Int → List UInt8 → Prop}
    (connects : env.connects = true) (checked : checkedUser host env params .opened w = .ok rows)
    (known : lastInt rows (fun row => some row.id) ≠ -1) (decoded : fieldData host env params key = .ok data) :
    (∀ iUserId data, ReachesFile env params w key iUserId data → P iUserId data) ↔
      P (lastInt rows fun row => some row.id) data := by
  constructor
  · exact fun all => all _ _ ⟨connects, ⟨rows, checked, rfl⟩, known, decoded⟩
  · rintro only iUserId data' ⟨-, ⟨rows', checked', rfl⟩, -, decoded'⟩
    obtain rfl : rows = rows' := Except.ok.inj (checked.symm.trans checked')
    obtain rfl : data = data' := Except.ok.inj (decoded.symm.trans decoded')
    exact only

theorem fieldData_error {key : String} {e : Stop} (h : fieldData host env params key = .error e) :
    e = .jsonException := by
  rw [fieldData] at h
  split at h
  · cases h
  · cases h
    rfl

/-- Past the owner check and the file, an upload is `rest`. -/
theorem owner_upload {Stored : World host.mysql.collation → Prop} (key : String) (folder extension : CString)
    {P : Int → List UInt8 → Prop} {upload : Int × Reply → Program Reply}
    (rest : Int → Reply → CString × Nat → Program Reply) (connects : env.connects = true)
    (skips : ∀ reply, upload (-1, reply) = pure reply)
    (stores : ∀ iUserId reply, iUserId ≠ -1 → upload (iUserId, reply) =
      storeFile host env params key folder extension >>= rest iUserId reply)
    (opens : ∀ iUserId data, P iUserId data → env.saving ≠ .refused)
    (after : ∀ iUserId reply data files, reply.Refused → iUserId ≠ -1 → fieldData host env params key = .ok data →
      writeFile env w.files (fullFilePathName host folder (env.uuid.chars ++ extension)) data = some files →
      (AllOrNothing Stored w (runOn host env (rest iUserId reply (env.uuid.chars ++ extension, data.length))
        (statement 1) { w with files := files }) ↔ P iUserId data)) :
    AllOrNothing Stored w (runOn host env (fetchUser host params .initial >>= upload) .opened w) ↔
      InTurn host params ["user", "pass"] ∧
        ∀ iUserId data, ReachesFile env params w key iUserId data → P iUserId data := by
  rw [runOn_fetchUser]
  cases checked : checkedUser host env params .opened w with
  | error e =>
    refine allOrNothing_stopped rfl (by rintro reply ⟨⟩) ?_ ?_
    · rintro e' ⟨⟩
      exact checkedUser_error checked
    · rintro iUserId data ⟨-, ⟨rows, checked', -⟩, -⟩
      rw [checked] at checked'
      cases checked'
  | ok rows =>
    have refused : (lookedUp rows "Invalid username or password!" .invalidUserPass .forbidden .initial).Refused :=
      lookedUp_refused rows (by decide) (by decide) refused_initial
    have inside := checkedUser_ok checked
    dsimp only
    by_cases known : (lastInt rows fun row => some row.id) = -1
    · rw [known, skips]
      refine allOrNothing_stopped rfl ?_ (by rintro e ⟨⟩) ?_
      · rintro reply ⟨⟩
        exact ⟨refused, inside⟩
      · rintro iUserId data ⟨-, ⟨rows', checked', rfl⟩, known', -⟩
        rw [checked] at checked'
        cases checked'
        exact known' known
    rw [stores _ _ known, runOn_storeFile]
    cases decoded : fieldData host env params key with
    | error e =>
      refine allOrNothing_stopped rfl (by rintro reply ⟨⟩) ?_ ?_
      · rintro e' ⟨⟩
        rw [fieldData_error decoded]
        exact iff_of_true inside (by decide)
      · rintro iUserId data ⟨-, -, -, decoded'⟩
        rw [decoded] at decoded'
        cases decoded'
    | ok data =>
      dsimp only
      rw [and_iff_right inside, reaches_only connects checked known decoded]
      cases written : writeFile env w.files (fullFilePathName host folder (env.uuid.chars ++ extension)) data with
      | none => exact iff_of_false (fun h => h.1 rfl) fun h => opens _ _ h (writeFile_none.mp written)
      | some files => exact after _ _ _ _ refused known decoded written

theorem stored_opens {data : List UInt8} (h : env.saving.stored data = some data) : env.saving ≠ .refused := by
  intro refused
  rw [refused] at h
  cases h

theorem model_allOrNothing (fresh : w.files (fullFilePathName host modelFilePath (modelFileName env)) = none) :
    AllOrNothing (ModelPublished host env params w) w
        (runAlone host env (onUploadModel host env params .initial) w) ↔
      (env.connects = true → InTurn host params ["user", "pass"]) ∧
        ∀ iUserId data, ReachesFile env params w "model" iUserId data → ModelGoesThrough env params w data := by
  change AllOrNothing _ w (runOn host env (onUploadModel host env params .initial) .opened w) ↔ _
  rw [onUploadModel, runOn_connect]
  by_cases connects : env.connects = true
  · rw [if_pos connects, forall_prop_of_true connects]
    refine owner_upload "model" modelFilePath modelFileExtension (fun iUserId reply x =>
      insertRow (.fileAddress x.1 (x.1 ++ base64Suffix) x.2) reply >>= fun y => insertModel host params y.1 y.2)
      connects ?_ ?_ ?_ ?_
    · exact fun reply => rfl
    · intro iUserId reply known
      dsimp only
      rw [uploadFile, if_pos known]
      exact Prog.bind_assoc _ _ _
    · exact fun iUserId data through => stored_opens through.1
    · intro iUserId reply data files refused known decoded written
      exact model_after_file refused fresh decoded written
  · rw [if_neg connects]
    refine iff_of_true ⟨by decide, Unchanged.refl w⟩ ⟨fun h => absurd h connects, ?_⟩
    exact fun _ _ reaches => absurd reaches.1 connects

theorem ad_after_file {iUserId : Int} {url : CString} {data : List UInt8} {files : CString → Option (List UInt8)}
    (refused : reply.Refused) (fresh : w.files (fullFilePathName host adFilePath (adFileName env)) = none)
    (decoded : fieldData host env params "ad" = .ok data)
    (written : writeFile env w.files (fullFilePathName host adFilePath (adFileName env)) data = some files) :
    AllOrNothing (AdPublished host env params w) w
        (runOn host env (insertRow (.advertisement (adFileName env) iUserId url) reply >>= fun x =>
          pure (if x.1 ≠ -1 then { x.2.success with adId := some x.1 } else x.2)) (statement 1)
          { w with files := files }) ↔ AdGoesThrough env w iUserId url data := by
  have lost := not_unchanged fresh written
  have content := writeFile_self written
  have same : changes host env (statement 1) { w with files := files }
      (.advertisement (adFileName env) iUserId url) =
    changes host env (statement 1) w (.advertisement (adFileName env) iUserId url) := rfl
  rw [runOn_insertRow, AdGoesThrough, same, show (statement 1).statements + 1 = 2 from rfl]
  cases inserted : changes host env (statement 1) w (.advertisement (adFileName env) iUserId url) with
  | none =>
    apply iff_of_false (allOrNothing_lost (lost _))
    rintro ⟨-, changed, ⟨⟩, -⟩
  | some changed =>
    obtain ⟨files', models, owners, subscriptions⟩ := changes_keeps inserted
    simp only [Option.some.injEq, exists_eq_left']
    by_cases fails : env.fails 2 = true
    · rw [if_pos fails]
      apply iff_of_false (allOrNothing_lost (lost _))
      rintro ⟨-, works, -⟩
      rw [works] at fails
      cases fails
    rw [if_neg fails, runOn_pure]
    by_cases known : changed.id ≠ -1
    · rw [if_pos known, allOrNothing_ok rfl]
      constructor
      · rintro ⟨data', ad, decoded', stored⟩
        obtain rfl : data = data' := Except.ok.inj (decoded.symm.trans decoded')
        have whole := stored.content
        rw [adPath, stored.named, blobString_eq plain_adFileName] at whole
        exact ⟨content.symm.trans whole, by simpa using fails, known, ad, stored.ads, stored.named⟩
      · rintro ⟨whole, -, -, ad, added, named⟩
        refine ⟨data, ad, decoded, named, added, ?_, ?_, ?_, ?_, ?_⟩
        · rw [adPath, named, blobString_eq plain_adFileName]
          exact content.trans whole
        · exact congrArg Table.rows files'
        · exact congrArg Table.rows models
        · exact congrArg Table.rows owners
        · exact congrArg Table.rows subscriptions
    · rw [if_neg known, allOrNothing_refused (refused_ite refused)]
      exact iff_of_false (lost _) fun h => known h.2.2.1

theorem ad_allOrNothing (fresh : w.files (fullFilePathName host adFilePath (adFileName env)) = none) :
    AllOrNothing (AdPublished host env params w) w (runAlone host env (onUploadAd host env params .initial) w) ↔
      (env.connects = true → InTurn host params ["url", "user", "pass"]) ∧
        ∀ url iUserId data, fieldText host params "url" = .ok url →
          ReachesFile env params w "ad" iUserId data → AdGoesThrough env w iUserId url data := by
  change AllOrNothing _ w (runOn host env (onUploadAd host env params .initial) .opened w) ↔ _
  rw [onUploadAd, runOn_connect]
  by_cases connects : env.connects = true
  · rw [if_pos connects, forall_prop_of_true connects, runOn_field]
    cases text : fieldText host params "url" with
    | error e =>
      rw [inTurn_missing text]
      constructor
      · rintro ⟨defined, -⟩
        refine ⟨defined, ?_⟩
        rintro url iUserId data ⟨⟩
      · exact fun h => ⟨h.1, Unchanged.refl w⟩
    | ok url =>
      rw [inTurn_text text]
      refine (owner_upload (P := fun iUserId => AdGoesThrough env w iUserId url) "ad" adFilePath
        adFileExtension (fun iUserId reply x => insertRow (.advertisement x.1 iUserId url) reply >>= fun y =>
          pure (if y.1 ≠ -1 then { y.2.success with adId := some y.1 } else y.2)) connects ?_ ?_ ?_ ?_).trans ?_
      · exact fun reply => rfl
      · intro iUserId reply known
        dsimp only
        rw [insertAd, if_pos known]
      · exact fun iUserId data through => stored_opens through.1
      · intro iUserId reply data files refused known decoded written
        exact ad_after_file refused fresh decoded written
      · refine and_congr_right fun _ => ?_
        constructor
        · rintro all url' iUserId data ⟨⟩
          exact all iUserId data
        · exact fun all iUserId data => all url iUserId data rfl
  · rw [if_neg connects]
    refine iff_of_true ⟨by decide, Unchanged.refl w⟩ ⟨fun h => absurd h connects, ?_⟩
    exact fun url iUserId data _ reaches => absurd reaches.1 connects

/-- Of an upload under a new name either all is stored or nothing, if and only if no text on the way to the file
fills its buffer, and what comes after the file goes through wherever the file is opened. -/
theorem uploads_all_or_nothing
    (freshModel : w.files (fullFilePathName host modelFilePath (modelFileName env)) = none)
    (freshAd : w.files (fullFilePathName host adFilePath (adFileName env)) = none) :
    (AllOrNothing (ModelPublished host env params w) w
        (runAlone host env (onUploadModel host env params .initial) w) ↔
      (env.connects = true → InTurn host params ["user", "pass"]) ∧
        ∀ iUserId data, ReachesFile env params w "model" iUserId data → ModelGoesThrough env params w data) ∧
    (AllOrNothing (AdPublished host env params w) w
        (runAlone host env (onUploadAd host env params .initial) w) ↔
      (env.connects = true → InTurn host params ["url", "user", "pass"]) ∧
        ∀ url iUserId data, fieldText host params "url" = .ok url →
          ReachesFile env params w "ad" iUserId data → AdGoesThrough env w iUserId url data) :=
  ⟨model_allOrNothing freshModel, ad_allOrNothing freshAd⟩

end Handlers

/-! ### Two uploads -/

theorem fresh_small (path : CString) : @World.files Small.host.mysql.collation Small.world path = none := rfl

theorem goesThrough_small : @ModelGoesThrough Small.host Small.env Small.upload Small.world [0, 0, 0] := by
  have file := @whole_ownRow Small.env _ _ 3 ⟨rfl, rfl⟩
  have model : ∀ p ∈ (Update.modelDesc 1 1 (ascii "n") (ascii "d")).template.strings, Sql.Whole p :=
    List.forall_mem_cons.mpr ⟨Sql.whole_of_free (by decide) (by decide) (by decide),
      List.forall_mem_singleton.mpr (Sql.whole_of_free (by decide) (by decide) (by decide))⟩
  refine ⟨rfl, _, (@changes_eq Small.host Small.env (statement 1) Small.world _ file).trans rfl, rfl, ascii "n",
    ascii "d", rfl, rfl, _, (@changes_eq Small.host Small.env (statement 3) _ _ model).trans rfl, ?_, rfl, ?_, _, rfl,
    rfl, rfl⟩
  · exact Nat.one_ne_zero
  · exact (by decide : (1 : Int) ≠ -1)

theorem upload_whole :
    @AllOrNothing Small.host.mysql.collation (ModelPublished Small.host Small.env Small.upload Small.world) Small.world
      (runAlone Small.host Small.env (onUploadModel Small.host Small.env Small.upload .initial) Small.world) := by
  have freshModel := fresh_small (fullFilePathName Small.host modelFilePath (modelFileName Small.env))
  have freshAd := fresh_small (fullFilePathName Small.host adFilePath (adFileName Small.env))
  rw [And.left (@uploads_all_or_nothing Small.host Small.env Small.upload Small.world freshModel freshAd)]
  refine ⟨fun _ => (inTurn_text (p := ascii "u") rfl).mpr ((inTurn_text (p := ascii "p") rfl).mpr trivial), ?_⟩
  rintro iUserId data ⟨-, -, -, decoded⟩
  have same : fieldData Small.host Small.env Small.upload "model" = .ok [0, 0, 0] := rfl
  rw [same] at decoded
  cases decoded
  exact goesThrough_small

def uploadWithoutName : Params := [Small.field "model" "AAAA", Small.field "user" "u", Small.field "pass" "p"]

theorem not_allOrNothing {c : Collation} {Stored : World c → Prop} {w : World c} {e : Stop}
    {r : Except Stop Reply × World c} (escapes : r.1 = .error e)
    (rows : r.2.db.files.rows.length ≠ w.db.files.rows.length) : ¬ AllOrNothing Stored w r := by
  obtain ⟨_ | reply, w'⟩ := r
  · rintro ⟨-, same, -⟩
    exact rows (congrArg List.length same.files)
  · cases escapes

/-- It ends in a `json_exception`, but its file and the row of the file stay. -/
theorem file_left_behind : ¬ AllOrNothing (ModelPublished Small.host Small.env uploadWithoutName Small.world)
    Small.world (runAlone Small.host Small.env (onUploadModel Small.host Small.env uploadWithoutName .initial)
      Small.world) := by
  have escapes : (runAlone Small.host Small.env (onUploadModel Small.host Small.env uploadWithoutName .initial)
    Small.world).1 = .error .jsonException := by decide +kernel
  exact not_allOrNothing escapes (by decide +kernel)

end ModelPublish.Server
