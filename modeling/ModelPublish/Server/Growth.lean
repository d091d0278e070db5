import ModelPublish.Server.Footprint
import ModelPublish.Server.Lookups

/-!
# What stays from request to request

The rows that are there stay, and of the files a download only writes the text of a file that it has read.
-/

namespace ModelPublish.Server
open Machine Packed.Codec

/-- The rows of the files, the models and the ads that were there are still there. -/
structure Database.Grows {c : Collation} (db db' : Database c) : Prop where
  files : ∀ row ∈ db.files.rows, row ∈ db'.files.rows
  models : ∀ row ∈ db.models.rows, row ∈ db'.models.rows
  ads : ∀ row ∈ db.ads.rows, row ∈ db'.ads.rows

theorem Database.Grows.refl {c : Collation} (db : Database c) : db.Grows db :=
  ⟨fun _ h => h, fun _ h => h, fun _ h => h⟩

theorem Database.Grows.trans {c : Collation} {a b d : Database c} (first : a.Grows b)
    (second : b.Grows d) : a.Grows d where
  files := fun row member => second.files row (first.files row member)
  models := fun row member => second.models row (first.models row member)
  ads := fun row member => second.ads row (first.ads row member)

/-- What an `INSERT` does whose text is read otherwise than it was meant. It has rows to add or fails, and the values
of the first row up to the first text that comes from outside are those that it was given. -/
structure MySQL.AddsRows (mysql : MySQL) : Prop where
  grows : ∀ u db changed, mysql.otherChange u db = some changed → db.Grows changed.db
  model : ∀ pcFileId mobileFileId name desc db changed,
    mysql.otherChange (.modelDesc pcFileId mobileFileId name desc) db = some changed →
      ∃ model, changed.db.models.find? changed.id = some model ∧ model.pcFileId = some pcFileId
  ad : ∀ filePathName ownerId adUrl db changed, Sql.Whole filePathName →
    mysql.otherChange (.advertisement filePathName ownerId adUrl) db = some changed →
      ∃ ad, changed.db.ads.find? changed.id = some ad ∧ ad.filePathName = filePathName

section Changes
variable {c : Collation} {db : Database c} {changed : Changed c}

theorem change_grows {u : Update} (h : u.change db = some changed) : db.Grows changed.db := by
  have others := MySQL.change_keeps h
  cases u with
  | fileAddress filePathName base64FilePathName size =>
    obtain ⟨ads, models, -, -⟩ := others
    obtain ⟨after, inserted, rfl⟩ := Option.map_eq_some_iff.mp h
    rw [Database.insertFile, Option.ite_none_left_eq_some] at inserted
    obtain ⟨-, ⟨⟩⟩ := inserted
    exact ⟨fun row => List.mem_append_left _, fun row h => h, fun row h => h⟩
  | modelDesc pcFileId mobileFileId name desc =>
    obtain ⟨after, inserted, rfl⟩ := Option.map_eq_some_iff.mp h
    rw [Database.insertModel, Option.ite_none_left_eq_some, Option.dite_none_right_eq_some] at inserted
    obtain ⟨-, -, ⟨⟩⟩ := inserted
    exact ⟨fun row h => h, fun row => List.mem_append_left _, fun row h => h⟩
  | advertisement filePathName ownerId adUrl =>
    obtain ⟨after, inserted, rfl⟩ := Option.map_eq_some_iff.mp h
    rw [Database.insertAd, Option.ite_none_left_eq_some] at inserted
    obtain ⟨-, ⟨⟩⟩ := inserted
    exact ⟨fun row h => h, fun row h => h, fun row => List.mem_append_left _⟩
  | subscription ownerId modelId adId hashId =>
    obtain ⟨ads, files, models, -⟩ := others
    exact ⟨fun row h => files ▸ h, fun row h => models ▸ h, fun row h => ads ▸ h⟩

end Changes

section Changes
variable {mysql : MySQL} {db : Database mysql.collation} {changed : Changed mysql.collation}

theorem executeUpdate_grows {u : Update} (adds : mysql.AddsRows) (h : mysql.executeUpdate u db = some changed) :
    db.Grows changed.db := by
  rw [MySQL.executeUpdate] at h
  split at h
  · exact change_grows h
  · exact adds.grows u db changed h

theorem executeUpdate_modelRow {pcFileId mobileFileId : Int} {name desc : CString} (adds : mysql.AddsRows)
    (h : mysql.executeUpdate (.modelDesc pcFileId mobileFileId name desc) db = some changed) :
    ∃ model, changed.db.models.find? changed.id = some model ∧ model.pcFileId = some pcFileId := by
  rw [MySQL.executeUpdate] at h
  split at h
  · obtain ⟨after, inserted, rfl⟩ := Option.map_eq_some_iff.mp h
    rw [Database.insertModel, Option.ite_none_left_eq_some, Option.dite_none_right_eq_some] at inserted
    obtain ⟨-, -, ⟨⟩⟩ := inserted
    exact ⟨_, Table.find?_insert_new _ rfl, rfl⟩
  · exact adds.model _ _ _ _ db changed h

theorem executeUpdate_adRow {filePathName adUrl : CString} {ownerId : Int} (adds : mysql.AddsRows)
    (whole : Sql.Whole filePathName)
    (h : mysql.executeUpdate (.advertisement filePathName ownerId adUrl) db = some changed) :
    ∃ ad, changed.db.ads.find? changed.id = some ad ∧ ad.filePathName = filePathName := by
  rw [MySQL.executeUpdate] at h
  split at h
  · obtain ⟨after, inserted, rfl⟩ := Option.map_eq_some_iff.mp h
    rw [Database.insertAd, Option.ite_none_left_eq_some] at inserted
    obtain ⟨-, ⟨⟩⟩ := inserted
    exact ⟨_, Table.find?_insert_new _ rfl, rfl⟩
  · exact adds.ad _ _ _ db changed whole h

end Changes

/-! ### Rows -/

section Rows
variable {host : Host} {env : Env} {w : World host.mysql.collation}

theorem exec_grows (adds : host.mysql.AddsRows) (c : Call) (s : Connection × World host.mysql.collation) :
    s.2.db.Grows (exec host env c s).2.2.db := by
  obtain ⟨con, w⟩ := s
  cases c with
  | connect => exact .refl _
  | executeQuery q => exact .refl _
  | readFile path => exact .refl _
  | writeFile path data =>
    rw [exec]
    cases writeFile env w.files path data with
    | none => exact .refl _
    | some files => exact .refl _
  | executeUpdate u =>
    rw [exec]
    by_cases fails : env.fails con.statements = true
    · rw [if_pos fails]
      exact .refl _
    rw [if_neg fails]
    cases inserted : host.mysql.executeUpdate u w.db with
    | none => exact .refl _
    | some changed => exact executeUpdate_grows adds inserted

theorem covers_all (params : Params) : Covers host env params fun _ => True :=
  ⟨⟨⟨trivial, fun _ _ => trivial⟩, fun _ _ => trivial, fun _ _ _ => trivial, fun _ => trivial, fun _ => trivial⟩,
    fun _ => trivial, fun _ _ => trivial⟩

theorem turn_grows (adds : host.mysql.AddsRows) (t : Turn) : w.db.Grows (turn host t w).db :=
  Prog.Within.run (I := fun s : Connection × World host.mysql.collation => w.db.Grows s.2.db)
    (fun c s _ grown => grown.trans (exec_grows adds c s)) (handle_within t.request t.method covers_all) (.refl _)

end Rows

/-! ### Files -/

section Files
variable {host : Host} {env : Env} {params : Params} {w : World host.mysql.collation} {con : Connection} {reply : Reply}

/-- A call that writes no file but the one of an upload. -/
def OwnUpload (host : Host) (env : Env) : Call → Prop
  | .writeFile path _ =>
    path = fullFilePathName host modelFilePath (modelFileName env) ∨
      path = fullFilePathName host adFilePath (adFileName env)
  | _ => True

theorem stores_ownUpload (params : Params) : Stores host env params (OwnUpload host env) :=
  ⟨⟨trivial, fun _ _ => trivial⟩, fun _ _ => trivial, fun _ _ _ => trivial, fun _ => .inl rfl, fun _ => .inr rfl⟩

theorem exec_otherFile {path : CString} {c : Call} {s : Connection × World host.mysql.collation}
    (model : path ≠ fullFilePathName host modelFilePath (modelFileName env))
    (ad : path ≠ fullFilePathName host adFilePath (adFileName env)) (own : OwnUpload host env c) :
    (exec host env c s).2.2.files path = s.2.files path := by
  obtain ⟨con, w⟩ := s
  cases c with
  | connect => rfl
  | executeQuery q => rfl
  | readFile other => rfl
  | executeUpdate u =>
    rw [exec]
    by_cases fails : env.fails con.statements = true
    · rw [if_pos fails]
    rw [if_neg fails]
    cases host.mysql.executeUpdate u w.db <;> rfl
  | writeFile other data =>
    have differ : path ≠ other := by
      rcases own with rfl | rfl
      · exact model
      · exact ad
    rw [exec]
    cases written : writeFile env w.files other data with
    | none => rfl
    | some files =>
      obtain ⟨content, -, rfl⟩ := Option.map_eq_some_iff.mp written
      exact Function.update_of_ne differ _ _

theorem handlePost_otherFile {path : CString} (request : HttpRequest)
    (model : path ≠ fullFilePathName host modelFilePath (modelFileName env))
    (ad : path ≠ fullFilePathName host adFilePath (adFileName env)) :
    (runAlone host env (handlePost host env request) w).2.files path = w.files path :=
  Prog.Within.run (I := fun s : Connection × World host.mysql.collation => s.2.files path = w.files path)
    (fun _ _ own same => (exec_otherFile model ad own).trans same) (handlePost_within request stores_ownUpload) rfl

/-- Nothing is changed but that the text of a file may have been saved. -/
def Saves (host : Host) (env : Env) (w w' : World host.mysql.collation) : Prop :=
  w' = w ∨ ∃ path pBuf files, w.files path = some pBuf ∧
    writeFile env w.files (path ++ base64Suffix) (u16.encMany (fileText host pBuf)) = some files ∧
    w' = { w with files := files }

theorem saves_sendFile {path : CString} {message : String} {put : WString → Reply → Reply} :
    Saves host env w (runOn host env (sendFile host path message put env reply) con w).2 := by
  rw [runOn_sendFile]
  cases w.files (path ++ base64Suffix) with
  | some content =>
    dsimp only
    split <;> exact .inl rfl
  | none =>
    cases read : w.files path with
    | none => exact .inl rfl
    | some pBuf =>
      dsimp only
      by_cases short : pBuf.length < 2 ^ 31
      swap
      · rw [if_neg short]
        exact .inl rfl
      rw [if_pos short]
      by_cases fits : 4 * pBuf.length < 2 ^ 31
      swap
      · rw [if_neg fits]
        exact .inl rfl
      rw [if_pos fits]
      cases written : writeFile env w.files (path ++ base64Suffix) (u16.encMany (fileText host pBuf)) with
      | none => exact .inl rfl
      | some files => exact .inr ⟨path, pBuf, files, read, written, rfl⟩

theorem saves_sendInfo {path : CString} : Saves host env w (runOn host env (sendInfo host path env reply) con w).2 := by
  rw [runOn_sendInfo]
  cases w.files (path ++ base64Suffix) with
  | some content =>
    dsimp only
    split <;> exact .inl rfl
  | none =>
    cases w.files (path ++ modelFileExtension) with
    | none => exact .inl rfl
    | some content =>
      dsimp only
      split
      · split <;> exact .inl rfl
      · exact .inl rfl

theorem saves_comesTo {β : Type} {go : β → Except Stop Reply × World host.mysql.collation}
    {found : Except Stop (Option β)} {r : Except Stop Reply × World host.mysql.collation}
    (comes : ComesTo host w go found r) (goes : ∀ row, Saves host env w (go row).2) : Saves host env w r.2 := by
  cases found with
  | error e =>
    obtain rfl := comes
    exact .inl rfl
  | ok row =>
    cases row with
    | none =>
      obtain ⟨reply, -, -, rfl⟩ := comes
      exact .inl rfl
    | some row =>
      obtain rfl := comes
      exact goes row

/-- A download at most saves the text of a file. -/
theorem handleGet_saves (request : HttpRequest) :
    Saves host env w (runAlone host env (handleGet host env request) w).2 := by
  have getModel := fun params => saves_comesTo (@run_getFile host env params w (sendModel host)) fun file => saves_sendFile
  have getAd := fun params => saves_comesTo (@run_onGetAd host env params w) fun ad => saves_sendFile
  have getInfo := fun params => saves_comesTo (@run_getFile host env params w (sendInfo host)) fun file => saves_sendInfo
  rw [handleGet, decodeUri, decodeUri]
  cases host.uri.decode request.path with
  | none => exact .inl rfl
  | some path =>
    rw [Prog.pure_bind]
    cases host.uri.decode request.query with
    | none => exact .inl rfl
    | some query =>
      rw [Prog.pure_bind]
      dsimp only
      split
      · exact .inl rfl
      split
      · exact .inl rfl
      split
      · exact getModel _
      split
      · exact getAd _
      split
      · exact getInfo _
      · exact .inl rfl

end Files
end ModelPublish.Server
