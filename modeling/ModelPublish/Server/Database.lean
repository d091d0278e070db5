import ModelPublish.Sql.Template

/-!
# The tables

`dbCreateTables.sql`: the rows that the server reads and writes, with the keys of the schema as part of
the tables. The queries and the changes that the server sends, and what MySQL makes of their text.
-/

namespace ModelPublish.Server

/-- `string`, and what a `char` array holds. -/
abbrev CString : Type := List UInt8

def ascii (s : String) : CString := s.toList.map fun c => c.toNat.toUInt8

def decimal (n : Int) : CString :=
  (if n < 0 then [45] else []) ++ (Nat.toDigits 10 n.natAbs).map fun c => c.toNat.toUInt8

/-! ### Rows -/

structure FileAddress where
  id : Int
  filePathName : CString
  base64FilePathName : CString
  size : Int
  deriving DecidableEq

structure Advertisement where
  id : Int
  ownerId : Int
  filePathName : CString
  adUrl : CString
  deriving DecidableEq

structure ModelDesc where
  id : Int
  pcFileId : Option Int
  mobileFileId : Option Int
  modelName : CString
  modelDesc : CString
  deriving DecidableEq

structure OwnerDesc where
  id : Int
  username : CString
  password : Option CString
  deriving DecidableEq

structure Subscription where
  id : Int
  ownerId : Option Int
  modelId : Option Int
  adId : Option Int
  hashId : Option CString
  deriving DecidableEq

/-! ### Tables -/

/-- A table with `id int NOT NULL PRIMARY KEY AUTO_INCREMENT`. -/
structure Table (α : Type) (id : α → Int) where
  rows : List α
  next : Int
  distinct : (rows.map id).Nodup
  below : ∀ r ∈ rows, id r < next
  counts : 0 < next

namespace Table
variable {α : Type} {id : α → Int}

def find? (t : Table α id) (n : Int) : Option α := t.rows.find? fun r => decide (id r = n)

def insert (t : Table α id) (r : α) (own : id r = t.next) : Table α id where
  rows := t.rows ++ [r]
  next := t.next + 1
  distinct := by
    rw [List.map_append, List.nodup_append]
    refine ⟨t.distinct, List.nodup_singleton _, ?_⟩
    intro n old m new same
    obtain ⟨q, member, rfl⟩ := List.mem_map.mp old
    obtain rfl : m = id r := by simpa using new
    have lt := t.below q member
    omega
  below := by
    intro q member
    rcases List.mem_append.mp member with old | new
    · have lt := t.below q old
      omega
    · obtain rfl := List.mem_singleton.mp new
      omega
  counts := by
    have positive := t.counts
    omega

theorem mem_of_find? {t : Table α id} {n : Int} {r : α} (h : t.find? n = some r) : r ∈ t.rows ∧ id r = n := by
  refine ⟨List.mem_of_find?_eq_some h, ?_⟩
  simpa using List.find?_some h

theorem find?_of_mem {t : Table α id} {r : α} (member : r ∈ t.rows) : t.find? (id r) = some r := by
  cases found : t.find? (id r) with
  | none =>
    have none := List.find?_eq_none.mp found r member
    simp at none
  | some q =>
    obtain ⟨other, same⟩ := mem_of_find? found
    rw [List.inj_on_of_nodup_map t.distinct other member same]

theorem isSome_of_mem {t : Table α id} {r : α} (member : r ∈ t.rows) : (t.find? (id r)).isSome := by
  rw [find?_of_mem member]
  rfl

theorem find?_insert (t : Table α id) {r : α} (own : id r = t.next) (n : Int) :
    (t.insert r own).find? n = (t.find? n).or (if id r = n then some r else none) := by
  rw [find?, insert, List.find?_append, ← find?]
  by_cases same : id r = n <;> simp [same]

theorem find?_next (t : Table α id) : t.find? t.next = none := by
  cases found : t.find? t.next with
  | none => rfl
  | some q =>
    obtain ⟨member, same⟩ := mem_of_find? found
    have lt := t.below q member
    omega

theorem find?_insert_new (t : Table α id) {r : α} (own : id r = t.next) :
    (t.insert r own).find? t.next = some r := by
  rw [find?_insert, find?_next, own, if_pos rfl, Option.none_or]

theorem isSome_find?_insert {t : Table α id} {r : α} (own : id r = t.next) {n : Int}
    (h : (t.find? n).isSome) : ((t.insert r own).find? n).isSome := by
  rw [find?_insert, Option.isSome_or, h, Bool.true_or]

end Table

/-- How MySQL compares text, and which text a `varchar ( n )` takes. -/
structure Collation where
  same : CString → CString → Bool
  fits : Nat → CString → Bool
  refl : ∀ p, same p p = true
  symm : ∀ p q, same p q = same q p
  trans : ∀ p q r, same p q = true → same q r = true → same p r = true
  fits_ascii : ∀ n p, p.length ≤ n → (∀ c ∈ p, c < 128) → fits n p = true

/-- A value that a foreign key takes. -/
def Known {α : Type} {id : α → Int} (t : Table α id) (n : Option Int) : Prop :=
  ∀ m, n = some m → (t.find? m).isSome

instance {α : Type} {id : α → Int} (t : Table α id) (n : Option Int) : Decidable (Known t n) :=
  match n with
  | none => .isTrue (by rintro m ⟨⟩)
  | some m => decidable_of_iff ((t.find? m).isSome) (by simp [Known])

theorem known_some {α : Type} {id : α → Int} {t : Table α id} {m : Int} :
    Known t (some m) ↔ (t.find? m).isSome := by
  simp [Known]

theorem known_insert {α : Type} {id : α → Int} {t : Table α id} {r : α} (own : id r = t.next) {n : Option Int}
    (h : Known t n) : Known (t.insert r own) n :=
  fun m same => Table.isSome_find?_insert own (h m same)

/-- The rows whose `HashId` is `hash`. -/
def Collation.hashed (c : Collation) (hash : CString) (s : Subscription) : Bool := s.hashId.any (c.same · hash)

structure Database (c : Collation) where
  files : Table FileAddress FileAddress.id
  ads : Table Advertisement Advertisement.id
  models : Table ModelDesc ModelDesc.id
  owners : Table OwnerDesc OwnerDesc.id
  subscriptions : Table Subscription Subscription.id
  modelFiles : ∀ m ∈ models.rows, Known files m.pcFileId ∧ Known files m.mobileFileId
  references : ∀ s ∈ subscriptions.rows,
    Known owners s.ownerId ∧ Known models s.modelId ∧ Known ads s.adId
  unique : subscriptions.rows.Pairwise fun s t => ∀ hash, t.hashId = some hash → c.hashed hash s = false

namespace Database
variable {c : Collation}

/-- `AUTO_INCREMENT` has come to the end of `int`. -/
def Full {α : Type} {id : α → Int} (t : Table α id) : Prop := 2 ^ 31 ≤ t.next

instance {α : Type} {id : α → Int} (t : Table α id) : Decidable (Full t) := inferInstanceAs (Decidable (_ ≤ _))

def insertFile (db : Database c) (filePathName base64FilePathName : CString) (size : Int) :
    Option (Database c) :=
  if Full db.files ∨ ¬ c.fits 128 filePathName ∨ ¬ c.fits 128 base64FilePathName then none
  else some { db with
    files := db.files.insert ⟨db.files.next, filePathName, base64FilePathName, size⟩ rfl
    modelFiles := fun m member =>
      ⟨known_insert _ (db.modelFiles m member).1, known_insert _ (db.modelFiles m member).2⟩ }

def insertAd (db : Database c) (filePathName : CString) (ownerId : Int) (adUrl : CString) :
    Option (Database c) :=
  if Full db.ads ∨ ¬ c.fits 128 filePathName ∨ ¬ c.fits 128 adUrl then none
  else some { db with
    ads := db.ads.insert ⟨db.ads.next, ownerId, filePathName, adUrl⟩ rfl
    references := fun s member =>
      let ⟨owner, model, ad⟩ := db.references s member
      ⟨owner, model, known_insert _ ad⟩ }

def insertModel (db : Database c) (pcFileId mobileFileId : Int) (modelName modelDesc : CString) :
    Option (Database c) :=
  if Full db.models ∨ ¬ c.fits 32 modelName ∨ ¬ c.fits 512 modelDesc then none
  else if known : Known db.files (some pcFileId) ∧ Known db.files (some mobileFileId) then
    some { db with
      models := db.models.insert ⟨db.models.next, some pcFileId, some mobileFileId, modelName, modelDesc⟩ rfl
      modelFiles := by
        intro m member
        rcases List.mem_append.mp member with old | new
        · exact db.modelFiles m old
        · obtain rfl := List.mem_singleton.mp new
          exact known
      references := fun s member =>
        let ⟨owner, model, ad⟩ := db.references s member
        ⟨owner, known_insert _ model, ad⟩ }
  else none

def insertSubscription (db : Database c) (ownerId modelId adId : Int) (hashId : CString) :
    Option (Database c) :=
  if Full db.subscriptions ∨ ¬ c.fits 32 hashId then none
  else if known : Known db.owners (some ownerId) ∧ Known db.models (some modelId) ∧
      Known db.ads (some adId) then
    if fresh : ∀ s ∈ db.subscriptions.rows, c.hashed hashId s = false then
      some { db with
        subscriptions := db.subscriptions.insert
          ⟨db.subscriptions.next, some ownerId, some modelId, some adId, some hashId⟩ rfl
        references := by
          intro s member
          rcases List.mem_append.mp member with old | new
          · exact db.references s old
          · obtain rfl := List.mem_singleton.mp new
            exact known
        unique := by
          refine List.pairwise_append.mpr ⟨db.unique, List.pairwise_singleton _ _, ?_⟩
          intro s old t new hash same
          obtain rfl := List.mem_singleton.mp new
          cases same
          exact fresh s old }
    else none
  else none

/-- The table has room for the row, and its keys are met. -/
structure Takes (db : Database c) (ownerId modelId adId : Int) (hashId : CString) : Prop where
  room : ¬ Full db.subscriptions
  fits : c.fits 32 hashId = true
  known : Known db.owners (some ownerId) ∧ Known db.models (some modelId) ∧ Known db.ads (some adId)
  fresh : ∀ s ∈ db.subscriptions.rows, c.hashed hashId s = false

theorem insertSubscription_of_takes {db : Database c} {ownerId modelId adId : Int} {hashId : CString}
    (h : db.Takes ownerId modelId adId hashId) :
    ∃ after, db.insertSubscription ownerId modelId adId hashId = some after := by
  obtain ⟨room, fits, known, fresh⟩ := h
  rw [insertSubscription, if_neg (by simp [room, fits]), dif_pos known, dif_pos fresh]
  exact ⟨_, rfl⟩

theorem takes_of_insertSubscription {db after : Database c} {ownerId modelId adId : Int} {hashId : CString}
    (h : db.insertSubscription ownerId modelId adId hashId = some after) :
    db.Takes ownerId modelId adId hashId ∧ after.subscriptions.rows = db.subscriptions.rows ++
      [⟨db.subscriptions.next, some ownerId, some modelId, some adId, some hashId⟩] ∧
      after.ads = db.ads ∧ after.models = db.models ∧ after.owners = db.owners := by
  rw [insertSubscription, Option.ite_none_left_eq_some, Option.dite_none_right_eq_some] at h
  obtain ⟨room, known, h⟩ := h
  rw [Option.dite_none_right_eq_some] at h
  obtain ⟨fresh, ⟨⟩⟩ := h
  refine ⟨⟨fun full => room (.inl full), ?_, known, fresh⟩, rfl, rfl, rfl, rfl⟩
  cases fits : c.fits 32 hashId with
  | true => rfl
  | false => exact absurd (.inr (by rw [fits]; decide)) room

end Database

/-! ### Statements -/

inductive Query where
  | subscription (hashId : CString)
  | modelDesc (id : Int)
  | modelDescQuoted (id : Int)
  | fileAddress (id : Int)
  | advertisement (id : Int)
  | advertisementQuoted (id : Int)
  | user (username password : CString)
  | owner (username : CString)
  | lastInsertId
  deriving DecidableEq

abbrev Query.Result : Query → Type
  | .subscription _ => List Subscription
  | .modelDesc _ | .modelDescQuoted _ => Option ModelDesc
  | .fileAddress _ => Option FileAddress
  | .advertisement _ | .advertisementQuoted _ => Option Advertisement
  | .user _ _ | .owner _ => List OwnerDesc
  | .lastInsertId => Option Int

inductive Update where
  | fileAddress (filePathName base64FilePathName : CString) (size : Int)
  | modelDesc (pcFileId mobileFileId : Int) (modelName modelDesc : CString)
  | advertisement (filePathName : CString) (ownerId : Int) (adUrl : CString)
  | subscription (ownerId modelId adId : Int) (hashId : CString)
  deriving DecidableEq

open Sql (Template)

def Query.template : Query → Template
  | .subscription hashId => .one (ascii "SELECT * FROM tbl_subscription WHERE HashId=") hashId []
  | .modelDesc id => .fixed (ascii "SELECT * FROM tbl_model_desc WHERE id=" ++ decimal id)
  | .modelDescQuoted id => .one (ascii "SELECT * FROM tbl_model_desc WHERE id=") (decimal id) []
  | .fileAddress id => .fixed (ascii "SELECT * FROM tbl_file_address WHERE id=" ++ decimal id)
  | .advertisement id => .fixed (ascii "SELECT * FROM tbl_advertisement WHERE id=" ++ decimal id)
  | .advertisementQuoted id => .one (ascii "SELECT * FROM tbl_advertisement WHERE id=") (decimal id) []
  | .user username password =>
    .two (ascii "SELECT * FROM tbl_owner_desc WHERE Username=") username (ascii " AND Password=") password []
  | .owner username => .one (ascii "SELECT * FROM tbl_owner_desc WHERE Username=") username []
  | .lastInsertId => .fixed (ascii "SELECT LAST_INSERT_ID() AS id")

def Update.template : Update → Template
  | fileAddress filePathName base64FilePathName size =>
    .two (ascii "INSERT INTO tbl_file_address (FilePathName, Base64FilePathName, Size) VALUES(") filePathName
      (ascii ",") base64FilePathName (ascii "," ++ decimal size ++ ascii ");")
  | modelDesc pcFileId mobileFileId name desc =>
    .two (ascii "INSERT INTO tbl_model_desc (PCFileId, MobileFileId, ModelName, ModelDesc) VALUES(" ++
        decimal pcFileId ++ ascii ", " ++ decimal mobileFileId ++ ascii ", ") name (ascii ", ") desc
      (ascii ")")
  | advertisement filePathName ownerId adUrl =>
    .two (ascii "INSERT INTO tbl_advertisement (FilePathName, OwnerId, AdUrl) VALUES(") filePathName
      (ascii "," ++ decimal ownerId ++ ascii ",") adUrl (ascii ");")
  | subscription ownerId modelId adId hashId =>
    .two (ascii "INSERT INTO tbl_subscription (OwnerId, ModelId, AdId, HashId) VALUES(" ++ decimal ownerId ++
        ascii ", " ++ decimal modelId ++ ascii ", ") (decimal adId) (ascii ", ") hashId (ascii ")")

/-- What the query is written to find. -/
def Query.result {c : Collation} (db : Database c) (lastInsertId : Int) : (q : Query) → q.Result
  | .subscription hashId => db.subscriptions.rows.filter (c.hashed hashId)
  | .modelDesc id => db.models.find? id
  | .modelDescQuoted id => db.models.find? id
  | .fileAddress id => db.files.find? id
  | .advertisement id => db.ads.find? id
  | .advertisementQuoted id => db.ads.find? id
  | .user username password => db.owners.rows.filter fun o =>
    c.same o.username username && o.password.any (c.same · password)
  | .owner username => db.owners.rows.filter fun o => c.same o.username username
  | .lastInsertId => some lastInsertId

structure Changed (c : Collation) where
  rows : Nat
  id : Int
  db : Database c

/-- What the change is written to do. -/
def Update.change {c : Collation} (db : Database c) : Update → Option (Changed c)
  | fileAddress filePathName base64FilePathName size =>
    (db.insertFile filePathName base64FilePathName size).map fun after => ⟨1, db.files.next, after⟩
  | modelDesc pcFileId mobileFileId name desc =>
    (db.insertModel pcFileId mobileFileId name desc).map fun after => ⟨1, db.models.next, after⟩
  | advertisement filePathName ownerId adUrl =>
    (db.insertAd filePathName ownerId adUrl).map fun after => ⟨1, db.ads.next, after⟩
  | subscription ownerId modelId adId hashId =>
    (db.insertSubscription ownerId modelId adId hashId).map fun after => ⟨1, db.subscriptions.next, after⟩

/-- A change has no other table than its own in it. -/
def Update.KeepsOthers {c : Collation} (db db' : Database c) : Update → Prop
  | fileAddress .. => db'.ads = db.ads ∧ db'.models = db.models ∧ db'.owners = db.owners ∧
    db'.subscriptions = db.subscriptions
  | modelDesc .. => db'.ads = db.ads ∧ db'.files = db.files ∧ db'.owners = db.owners ∧
    db'.subscriptions = db.subscriptions
  | advertisement .. => db'.files = db.files ∧ db'.models = db.models ∧ db'.owners = db.owners ∧
    db'.subscriptions = db.subscriptions
  | subscription .. => db'.ads = db.ads ∧ db'.files = db.files ∧ db'.models = db.models ∧
    db'.owners = db.owners

/-- MySQL, which reads the text of a statement. What it makes of a text whose literals are not the ones
the server meant is left open, except that a `SELECT` changes no table and an `INSERT` none but its own. -/
structure MySQL where
  collation : Collation
  otherResult : (q : Query) → Database collation → Option q.Result
  otherChange : Update → Database collation → Option (Changed collation)
  other_keeps : ∀ u db changed, otherChange u db = some changed → u.KeepsOthers db changed.db

namespace MySQL

/-- `none` is an error. -/
def executeQuery (mysql : MySQL) (q : Query) (db : Database mysql.collation) (lastInsertId : Int) :
    Option q.Result :=
  if q.template.Intact then some (q.result db lastInsertId) else mysql.otherResult q db

def executeUpdate (mysql : MySQL) (u : Update) (db : Database mysql.collation) :
    Option (Changed mysql.collation) :=
  if u.template.Intact then u.change db else mysql.otherChange u db

theorem change_keeps {c : Collation} {u : Update} {db : Database c} {changed : Changed c}
    (h : u.change db = some changed) : u.KeepsOthers db changed.db := by
  cases u with
  | fileAddress filePathName base64FilePathName size =>
    obtain ⟨after, inserted, rfl⟩ := Option.map_eq_some_iff.mp h
    rw [Database.insertFile, Option.ite_none_left_eq_some] at inserted
    obtain ⟨-, ⟨⟩⟩ := inserted
    exact ⟨rfl, rfl, rfl, rfl⟩
  | modelDesc pcFileId mobileFileId name desc =>
    obtain ⟨after, inserted, rfl⟩ := Option.map_eq_some_iff.mp h
    rw [Database.insertModel, Option.ite_none_left_eq_some, Option.dite_none_right_eq_some] at inserted
    obtain ⟨-, -, ⟨⟩⟩ := inserted
    exact ⟨rfl, rfl, rfl, rfl⟩
  | advertisement filePathName ownerId adUrl =>
    obtain ⟨after, inserted, rfl⟩ := Option.map_eq_some_iff.mp h
    rw [Database.insertAd, Option.ite_none_left_eq_some] at inserted
    obtain ⟨-, ⟨⟩⟩ := inserted
    exact ⟨rfl, rfl, rfl, rfl⟩
  | subscription ownerId modelId adId hashId =>
    obtain ⟨after, inserted, rfl⟩ := Option.map_eq_some_iff.mp h
    rw [Database.insertSubscription, Option.ite_none_left_eq_some, Option.dite_none_right_eq_some] at inserted
    obtain ⟨_, _, inserted⟩ := inserted
    rw [Option.dite_none_right_eq_some] at inserted
    obtain ⟨_, ⟨⟩⟩ := inserted
    exact ⟨rfl, rfl, rfl, rfl⟩

theorem executeUpdate_keeps {mysql : MySQL} {u : Update} {db : Database mysql.collation}
    {changed : Changed mysql.collation} (h : mysql.executeUpdate u db = some changed) :
    u.KeepsOthers db changed.db := by
  rw [executeUpdate] at h
  split at h
  · exact change_keeps h
  · exact mysql.other_keeps u db changed h

end MySQL
end ModelPublish.Server
