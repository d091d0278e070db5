import ModelPublish.Server.Steps

/-!
# What the handlers call

The statements that a handler sends and the files that it writes, whatever its calls return.
-/

namespace ModelPublish.Server
open Machine Packed
open Sql (Whole quote backslash)

/-! ### The formats -/

/-- Letters, digits, and what else a file name of the server is made of. -/
def Plain (p : CString) : Prop := ∀ c ∈ p, 45 ≤ c ∧ c < 128 ∧ c ≠ backslash

instance (p : CString) : Decidable (Plain p) := List.decidableBAll _ p

theorem Plain.append {p q : CString} (left : Plain p) (right : Plain q) : Plain (p ++ q) := by
  intro c member
  exact (List.mem_append.mp member).elim (left c) (right c)

theorem Plain.whole {p : CString} (h : Plain p) : Whole p := by
  refine Sql.whole_of_free ?_ ?_ ?_
  · intro member
    exact absurd (h 0 member).1 (by decide)
  · intro member
    exact absurd (h quote member).1 (by decide)
  · intro member
    exact (h backslash member).2.2 rfl

theorem plain_decimal (n : Int) : Plain (decimal n) := by
  unfold decimal
  refine Plain.append ?_ ?_
  · split
    · decide
    · exact fun c member => absurd member List.not_mem_nil
  · intro c member
    obtain ⟨digit, among, rfl⟩ := List.mem_map.mp member
    have bounds := Nat.isDigit_of_mem_toDigits (by decide) (by decide) among
    simp only [Char.isDigit, Bool.and_eq_true, decide_eq_true_eq, UInt32.le_iff_toNat_le] at bounds
    obtain ⟨low, high⟩ := bounds
    have same : digit.toNat.toUInt8.toNat = digit.toNat := by
      rw [Nat.toUInt8_eq, UInt8.toNat_ofNat']
      exact Nat.mod_eq_of_lt (Nat.lt_of_le_of_lt high (by decide))
    refine ⟨?_, ?_, ?_⟩
    · rw [UInt8.le_iff_toNat_le, same]
      exact Nat.le_trans (by decide) low
    · rw [UInt8.lt_iff_toNat_lt, same]
      exact Nat.lt_of_le_of_lt high (by decide)
    · intro equal
      have value := congrArg UInt8.toNat equal
      rw [same] at value
      have lt : digit.toNat ≤ 57 := high
      rw [value] at lt
      exact absurd lt (by decide)

theorem plain_uuid (uuid : Uuid) : Plain uuid.chars := by
  intro c member
  have digits := uuid.plain c member
  simp only [backslash, UInt8.le_iff_toNat_le, UInt8.lt_iff_toNat_lt, ← UInt8.toNat_inj, ne_eq,
    UInt8.reduceToNat] at digits ⊢
  omega

theorem plain_hashChar (r : Nat) : 45 ≤ hashChar r ∧ hashChar r < 128 ∧ hashChar r ≠ backslash := by
  have letters : ∀ k < 52, 45 ≤ (if k < 26 then k + 65 else k + 97 - 26).toUInt8 ∧
      (if k < 26 then k + 65 else k + 97 - 26).toUInt8 < 128 ∧
      (if k < 26 then k + 65 else k + 97 - 26).toUInt8 ≠ backslash := by decide +kernel
  exact letters (r % 52) (Nat.mod_lt _ (by decide))

theorem plain_candidate (host : Host) (seed k : Nat) : Plain (candidate host seed k) := by
  intro c member
  obtain ⟨i, -, rfl⟩ := List.mem_map.mp member
  exact plain_hashChar _

theorem quote_not_mem {p : CString} (h : Plain p) : quote ∉ p := by
  intro member
  exact absurd (h quote member).1 (by decide)

theorem query_clean (q : Query) : q.template.Clean := by
  have number := fun n => quote_not_mem (plain_decimal n)
  have empty : quote ∉ ([] : CString) := List.not_mem_nil
  cases q with
  | subscription hashId => exact ⟨by decide, empty⟩
  | modelDesc id => exact List.not_mem_append (by decide) (number id)
  | modelDescQuoted id => exact ⟨by decide, empty⟩
  | fileAddress id => exact List.not_mem_append (by decide) (number id)
  | advertisement id => exact List.not_mem_append (by decide) (number id)
  | advertisementQuoted id => exact ⟨by decide, empty⟩
  | user username password => exact ⟨⟨by decide, empty⟩, ⟨by decide, by decide, by decide⟩, by decide⟩
  | owner username => exact ⟨by decide, empty⟩
  | lastInsertId => exact (by decide : quote ∉ ascii "SELECT LAST_INSERT_ID() AS id")

theorem update_clean (u : Update) : u.template.Clean := by
  have number := fun n => quote_not_mem (plain_decimal n)
  have comma : quote ∉ ascii ", " := by decide
  cases u with
  | fileAddress filePathName base64FilePathName size =>
    refine ⟨⟨by decide, ?_⟩, ⟨by decide, by decide, by decide⟩, by decide⟩
    exact List.not_mem_append (List.not_mem_append (by decide) (number size)) (by decide)
  | modelDesc pcFileId mobileFileId name desc =>
    refine ⟨⟨?_, by decide⟩, ⟨comma, by decide, by decide⟩, by decide⟩
    exact List.not_mem_append (List.not_mem_append (List.not_mem_append (List.not_mem_append (by decide)
      (number pcFileId)) comma) (number mobileFileId)) comma
  | advertisement filePathName ownerId adUrl =>
    have plain := plain_decimal ownerId
    have backslash : backslash ∉ decimal ownerId := fun member => (plain _ member).2.2 rfl
    have nul : 0 ∉ decimal ownerId := fun member => absurd (plain _ member).1 (by decide)
    refine ⟨⟨by decide, by decide⟩, ⟨?_, ?_, ?_⟩, by simp [ascii]⟩
    · exact List.not_mem_append (List.not_mem_append (by decide) (number ownerId)) (by decide)
    · exact List.not_mem_append (List.not_mem_append (by decide) backslash) (by decide)
    · exact List.not_mem_append (List.not_mem_append (by decide) nul) (by decide)
  | subscription ownerId modelId adId hashId =>
    refine ⟨⟨?_, by decide⟩, ⟨comma, by decide, by decide⟩, by decide⟩
    exact List.not_mem_append (List.not_mem_append (List.not_mem_append (List.not_mem_append (by decide)
      (number ownerId)) comma) (number modelId)) comma

/-! ### Calls -/

/-- The texts of a query, under the fields that a handler takes them from. -/
def Query.texts : Query → List (String × CString)
  | .subscription hashId => [("subsid", hashId)]
  | .user username password => [("user", username), ("pass", password)]
  | .owner username => [("owner", username)]
  | _ => []

def Update.texts : Update → List (String × CString)
  | .modelDesc _ _ name desc => [("name", name), ("desc", desc)]
  | .advertisement _ _ adUrl => [("url", adUrl)]
  | _ => []

def Call.texts : Call → List (String × CString)
  | .executeQuery q => q.texts
  | .executeUpdate u => u.texts
  | _ => []

/-- Each is what its field of the request converts into. -/
def Held (host : Host) (params : Params) (texts : List (String × CString)) : Prop :=
  ∀ x ∈ texts, fieldText host params x.1 = .ok x.2

/-- What the handlers themselves put into a row: the name of the file that the request writes, and a hash. -/
def OwnRow (env : Env) : Update → Prop
  | .fileAddress filePathName base64FilePathName _ =>
    filePathName = modelFileName env ∧ base64FilePathName = modelFileName env ++ base64Suffix
  | .advertisement filePathName _ _ => filePathName = adFileName env
  | .subscription _ _ _ hashId => Plain hashId
  | .modelDesc _ _ _ _ => True

/-- The connection and the queries with texts of the request are in `P`. -/
structure Asks (host : Host) (params : Params) (P : Call → Prop) : Prop where
  connect : P .connect
  query : ∀ q : Query, Held host params q.texts → P (.executeQuery q)

/-- Every call of a handler that stores something is in `P`. -/
structure Stores (host : Host) (env : Env) (params : Params) (P : Call → Prop) : Prop extends
    Asks host params P where
  hash : ∀ szHash, Plain szHash → P (.executeQuery (.subscription szHash))
  update : ∀ u : Update, Held host params u.texts → OwnRow env u → P (.executeUpdate u)
  model : ∀ data, P (.writeFile (fullFilePathName host modelFilePath (modelFileName env)) data)
  ad : ∀ data, P (.writeFile (fullFilePathName host adFilePath (adFileName env)) data)

/-- Every call of a handler that sends something is in `P`. -/
structure Sends (host : Host) (params : Params) (P : Call → Prop) : Prop extends Asks host params P where
  read : ∀ path, P (.readFile path)
  saved : ∀ path data, P (.writeFile (path ++ base64Suffix) data)

/-- Every call of a handler is in `P`. -/
structure Covers (host : Host) (env : Env) (params : Params) (P : Call → Prop) : Prop extends
    Stores host env params P, Sends host params P

section Stages
variable {host : Host} {env : Env} {params : Params} {reply : Reply} {P : Call → Prop}

theorem stringAt_within (key : String) : (stringAt params key).Within P := by
  unfold stringAt
  split <;> trivial

theorem integerAt_within (key : String) : (integerAt params key).Within P := by
  unfold integerAt
  split <;> trivial

theorem field_within {α : Type} {key : String} {k : CString → Program α}
    (rest : ∀ p, fieldText host params key = .ok p → (k p).Within P) :
    (stringAt params key >>= fun s => buffer host s >>= k).Within P := by
  rw [field_eq]
  cases text : fieldText host params key with
  | error e => trivial
  | ok p => exact rest p text

theorem held_nil : Held host params [] := by rintro x ⟨⟩

theorem held_cons {key : String} {p : CString} {texts : List (String × CString)}
    (text : fieldText host params key = .ok p) (rest : Held host params texts) : Held host params ((key, p) :: texts) :=
  List.forall_mem_cons.mpr ⟨text, rest⟩

theorem fileSize_within (content : List UInt8) : (fileSize content).Within P := by
  unfold fileSize
  split <;> trivial

theorem requiredLength_within (n : Nat) : (requiredLength host n).Within P := by
  unfold requiredLength
  split <;> trivial

section Queries
variable (asks : Asks host params P)
include asks

theorem connect_within {α : Type} {k : Unit → Program α} (rest : (k ()).Within P) : (connect >>= k).Within P :=
  Prog.Within.bind ((Prog.within_ask _).mpr asks.connect) fun _ => rest

theorem query_within {α : Type} {q : Query} {k : q.Result → Program α} (held : Held host params q.texts)
    (rest : ∀ r, (k r).Within P) : (executeQuery q >>= k).Within P :=
  Prog.Within.bind ((Prog.within_ask _).mpr (asks.query q held)) rest

theorem fetchSubscription_within {column : Subscription → Option Int} :
    (fetchSubscription host params column reply).Within P := by
  apply field_within
  intro p text
  exact query_within asks (held_cons text held_nil) fun res => trivial

theorem fetchModel_within {iModelId : Int} : (fetchModel iModelId reply).Within P := by
  unfold fetchModel
  split
  · apply query_within asks held_nil
    intro res
    cases res <;> trivial
  · trivial

theorem fetchUser_within : (fetchUser host params reply).Within P := by
  apply field_within
  intro szUser user
  apply field_within
  intro szPass pass
  exact query_within asks (held_cons user (held_cons pass held_nil)) fun res => trivial

theorem fetchOwner_within {iUserId : Int} : (fetchOwner host params iUserId reply).Within P := by
  unfold fetchOwner
  split
  · apply field_within
    intro p text
    exact query_within asks (held_cons text held_nil) fun res => trivial
  · trivial

theorem modelExists_within {iOwnerId iModelId : Int} : (modelExists iOwnerId iModelId reply).Within P := by
  unfold modelExists
  split
  · apply query_within asks held_nil
    intro res
    cases res <;> trivial
  · trivial

theorem adExists_within {iOwnerId iAdId : Int} : (adExists iOwnerId iAdId reply).Within P := by
  unfold adExists
  split
  · apply query_within asks held_nil
    intro res
    cases res <;> trivial
  · trivial

theorem fetchFile_within {send : CString → Env → Reply → Program Reply} {iFileId : Int}
    (sends : ∀ path, (send path env reply).Within P) : (fetchFile host send iFileId env reply).Within P := by
  unfold fetchFile
  split
  · apply query_within asks held_nil
    intro row
    cases row with
    | none => trivial
    | some row => exact sends _
  · trivial

end Queries

theorem chooseHash_ends (seed attempts k : Nat) : (chooseHash host seed attempts k).Ends Plain := by
  induction attempts generalizing k with
  | zero => trivial
  | succ attempts ih =>
    apply Prog.Ends.ask_bind
    intro res
    split
    · exact plain_candidate host seed k
    · exact ih (k + 1)

theorem storeFile_ends {key : String} {folder extension : CString} :
    (storeFile host env params key folder extension).Ends fun x => x.1 = env.uuid.chars ++ extension :=
  (Prog.ends_true _).bind fun _ _ => (Prog.ends_true _).bind fun _ _ => rfl

theorem plain_modelFileExtension : Plain modelFileExtension := by
  decide

theorem plain_adFileExtension : Plain adFileExtension := by
  decide

theorem plain_base64Suffix : Plain base64Suffix := by
  decide

theorem plain_modelFileName : Plain (modelFileName env) := (plain_uuid env.uuid).append plain_modelFileExtension

theorem plain_adFileName : Plain (adFileName env) := (plain_uuid env.uuid).append plain_adFileExtension

theorem storeFile_within {key : String} {folder extension : CString}
    (own : ∀ data, P (.writeFile (fullFilePathName host folder (env.uuid.chars ++ extension)) data)) :
    (storeFile host env params key folder extension).Within P := by
  apply (stringAt_within key).bind
  intro s
  exact Prog.Within.bind ((Prog.within_ask _).mpr (own _)) fun _ => trivial

theorem whole_ownRow {filePathName base64FilePathName : CString} {size : Int}
    (own : OwnRow env (.fileAddress filePathName base64FilePathName size)) :
    ∀ p ∈ (Update.fileAddress filePathName base64FilePathName size).template.strings, Sql.Whole p := by
  obtain ⟨rfl, rfl⟩ := own
  refine List.forall_mem_cons.mpr ⟨plain_modelFileName.whole, List.forall_mem_singleton.mpr ?_⟩
  exact (plain_modelFileName.append plain_base64Suffix).whole

theorem executeUpdate_fileRow {mysql : MySQL} {db : Database mysql.collation} {changed : Changed mysql.collation}
    {size : Int} (inserted : mysql.executeUpdate
      (.fileAddress (modelFileName env) (modelFileName env ++ base64Suffix) size) db = some changed) :
    changed.id = db.files.next ∧ changed.db.files.rows =
      db.files.rows ++ [⟨changed.id, modelFileName env, modelFileName env ++ base64Suffix, size⟩] := by
  rw [MySQL.executeUpdate, if_pos ((Sql.Template.intact_iff (update_clean _)).mpr (whole_ownRow ⟨rfl, rfl⟩))]
    at inserted
  obtain ⟨after, stored, rfl⟩ := Option.map_eq_some_iff.mp inserted
  rw [Database.insertFile, Option.ite_none_left_eq_some] at stored
  obtain ⟨-, ⟨⟩⟩ := stored
  exact ⟨rfl, rfl⟩

theorem blobString_eq {name : CString} (plain : Plain name) : blobString name = name := by
  apply Sql.cstr_eq_self.mpr
  intro member
  exact absurd (plain 0 member).1 (by decide)

section Sends
variable (sends : Sends host params P)
include sends

theorem sendFile_within {path : CString} {message : String} {put : WString → Reply → Reply} :
    (sendFile host path message put env reply).Within P := by
  apply Prog.Within.bind ((Prog.within_ask _).mpr (sends.read _))
  intro saved
  cases saved with
  | none =>
    apply Prog.Within.bind ((Prog.within_ask _).mpr (sends.read _))
    intro found
    cases found with
    | none => trivial
    | some pBuf =>
      refine (fileSize_within pBuf).bind fun iSize => (requiredLength_within iSize).bind fun _ => ?_
      exact Prog.Within.bind ((Prog.within_ask _).mpr (sends.saved _ _)) fun _ => trivial
  | some content => exact (fileSize_within content).bind fun _ => trivial

theorem sendInfo_within {path : CString} : (sendInfo host path env reply).Within P := by
  apply Prog.Within.bind ((Prog.within_ask _).mpr (sends.read _))
  intro saved
  cases saved with
  | none =>
    apply Prog.Within.bind ((Prog.within_ask _).mpr (sends.read _))
    intro found
    cases found with
    | none => trivial
    | some content =>
      exact (fileSize_within content).bind fun iSize => (requiredLength_within iSize).bind fun _ => trivial
  | some content => exact (fileSize_within content).bind fun _ => trivial

theorem fetchAd_within {iAdId : Int} : (fetchAd host iAdId env reply).Within P := by
  unfold fetchAd
  split
  · apply query_within sends.toAsks held_nil
    intro row
    cases row with
    | none => trivial
    | some row => exact sendFile_within sends
  · trivial

end Sends

section Writes
variable (stores : Stores host env params P)
include stores

theorem chooseHash_within (seed attempts k : Nat) : (chooseHash host seed attempts k).Within P := by
  induction attempts generalizing k with
  | zero => trivial
  | succ attempts ih =>
    apply Prog.Within.bind ((Prog.within_ask _).mpr (stores.hash _ (plain_candidate host seed k)))
    intro res
    split
    · trivial
    · exact ih (k + 1)

theorem insertRow_within {u : Update} (held : Held host params u.texts) (own : OwnRow env u) :
    (insertRow u reply).Within P := by
  apply Prog.Within.bind ((Prog.within_ask _).mpr (stores.update u held own))
  intro iInsert
  apply query_within stores.toAsks held_nil
  intro id
  cases id <;> trivial

theorem insertLast_within {u : Update} {put : Int → Reply → Reply} (held : Held host params u.texts)
    (own : OwnRow env u) : (insertLast u put reply).Within P := by
  apply Prog.Within.bind ((Prog.within_ask _).mpr (stores.update u held own))
  intro iInsert
  split
  · trivial
  · apply query_within stores.toAsks held_nil
    intro id
    cases id <;> trivial

theorem uploadFile_within {iUserId : Int} : (uploadFile host env params iUserId reply).Within P := by
  unfold uploadFile
  split
  · apply (storeFile_within stores.model).bind_ends storeFile_ends
    rintro ⟨name, iDataSize⟩ (rfl : name = modelFileName env)
    exact insertRow_within stores held_nil ⟨rfl, rfl⟩
  · trivial

theorem insertModel_within {iFileId : Int} : (insertModel host params iFileId reply).Within P := by
  unfold insertModel
  split
  · apply field_within
    intro szModelName name
    apply field_within
    intro szModelDesc desc
    exact insertLast_within stores (held_cons name (held_cons desc held_nil)) trivial
  · trivial

theorem insertAd_within {szUrl : CString} {iUserId : Int} (url : fieldText host params "url" = .ok szUrl) :
    (insertAd host env params szUrl iUserId reply).Within P := by
  unfold insertAd
  split
  · apply (storeFile_within stores.ad).bind_ends storeFile_ends
    rintro ⟨name, iDataSize⟩ (rfl : name = adFileName env)
    exact Prog.Within.bind (insertRow_within stores (held_cons url held_nil) rfl) fun _ => trivial
  · trivial

theorem insertSubscription_within {iOwnerId iModelId iAdId : Int} {bothExist : Bool} :
    (insertSubscription host env iOwnerId iModelId iAdId bothExist reply).Within P := by
  unfold insertSubscription
  split
  · apply (chooseHash_within stores _ _ _).bind_ends (chooseHash_ends _ _ _)
    intro szHash plain
    exact insertLast_within stores held_nil plain
  · trivial

variable (host env params reply)

theorem onUploadModel_within : (onUploadModel host env params reply).Within P := by
  apply connect_within stores.toAsks
  refine (fetchUser_within stores.toAsks).bind fun ⟨iUserId, reply⟩ => ?_
  exact (uploadFile_within stores).bind fun ⟨iFileId, reply⟩ => insertModel_within stores

theorem onUploadAd_within : (onUploadAd host env params reply).Within P := by
  apply connect_within stores.toAsks
  apply field_within
  intro szUrl url
  exact (fetchUser_within stores.toAsks).bind fun ⟨iUserId, reply⟩ => insertAd_within stores url

theorem onCreateSubscription_within : (onCreateSubscription host env params reply).Within P := by
  apply connect_within stores.toAsks
  refine (fetchUser_within stores.toAsks).bind fun ⟨iUserId, reply⟩ => ?_
  refine (fetchOwner_within stores.toAsks).bind fun ⟨iOwnerId, reply⟩ => ?_
  apply (integerAt_within "model_id").bind
  intro iModelId
  refine (modelExists_within stores.toAsks).bind fun ⟨bModelExists, reply⟩ => ?_
  apply (integerAt_within "ad_id").bind
  intro iAdId
  exact (adExists_within stores.toAsks).bind fun ⟨bAdExists, reply⟩ => insertSubscription_within stores

end Writes

section Downloads
variable (sends : Sends host params P) (host env params reply)
include sends

theorem onGetModel_within : (onGetModel host env params reply).Within P := by
  apply connect_within sends.toAsks
  refine (fetchSubscription_within sends.toAsks).bind fun ⟨iModelId, reply⟩ => ?_
  refine (fetchModel_within sends.toAsks).bind fun ⟨iFileId, reply⟩ => ?_
  exact fetchFile_within sends.toAsks fun path => sendFile_within sends

theorem onGetAd_within : (onGetAd host env params reply).Within P := by
  apply connect_within sends.toAsks
  exact (fetchSubscription_within sends.toAsks).bind fun ⟨iAdId, reply⟩ => fetchAd_within sends

theorem onGetInfo_within : (onGetInfo host env params reply).Within P := by
  apply connect_within sends.toAsks
  refine (fetchSubscription_within sends.toAsks).bind fun ⟨iModelId, reply⟩ => ?_
  refine (fetchModel_within sends.toAsks).bind fun ⟨iFileId, reply⟩ => ?_
  exact fetchFile_within sends.toAsks fun path => sendInfo_within sends

end Downloads

theorem decodeUri_within (s : WString) : (decodeUri host s).Within P := by
  unfold decodeUri
  split <;> trivial

theorem handlePost_within (request : HttpRequest) (stores : ∀ params, Stores host env params P) :
    (handlePost host env request).Within P := by
  refine (decodeUri_within request.path).bind fun path => (decodeUri_within request.query).bind fun query => ?_
  split
  · trivial
  · trivial
  split
  · trivial
  repeat' split
  · exact onUploadModel_within host env _ _ (stores _)
  · exact onUploadAd_within host env _ _ (stores _)
  · exact onCreateSubscription_within host env _ _ (stores _)
  · trivial

theorem handle_within (request : HttpRequest) (method : Method) (covers : ∀ params, Covers host env params P) :
    (handle host env request method).Within P := by
  cases method with
  | get =>
    refine (decodeUri_within request.path).bind fun path => (decodeUri_within request.query).bind fun query => ?_
    dsimp only
    split
    · trivial
    repeat' split
    · trivial
    · exact onGetModel_within host env _ _ (covers _).toSends
    · exact onGetAd_within host env _ _ (covers _).toSends
    · exact onGetInfo_within host env _ _ (covers _).toSends
    · trivial
  | post => exact handlePost_within request fun params => (covers params).toStores

end Stages
end ModelPublish.Server
