import ModelPublish.Server.Stages

/-!
# The texts of a request in a handler

Which calls of a handler a text field of its request gets into, and what the handler does undefined.
-/

namespace ModelPublish.Server
open Machine Reply

/-! ### The requests -/

inductive Handler where
  | getModel
  | getAd
  | getInfo
  | uploadModel
  | uploadAd
  | createSubscription
  deriving DecidableEq

namespace Handler

def program (host : Host) (env : Env) (params : Params) : Handler → Program Reply
  | getModel => onGetModel host env params .initial
  | getAd => onGetAd host env params .initial
  | getInfo => onGetInfo host env params .initial
  | uploadModel => onUploadModel host env params .initial
  | uploadAd => onUploadAd host env params .initial
  | createSubscription => onCreateSubscription host env params .initial

/-- The fields that are converted into a `char [ 256 ]`. -/
def texts : Handler → List String
  | getModel => ["subsid"]
  | getAd => ["subsid"]
  | getInfo => ["subsid"]
  | uploadModel => ["user", "pass", "name", "desc"]
  | uploadAd => ["url", "user", "pass"]
  | createSubscription => ["user", "pass", "owner"]

end Handler

/-! ### Where the texts go -/

/-- Under each of the keys, the call has what that field of the request converts into. -/
def Takes (host : Host) (params : Params) (keys : List String) (c : Call) : Prop :=
  ∀ x ∈ c.texts, x.1 ∈ keys → fieldText host params x.1 = .ok x.2

/-- The call has a text of this field. -/
def Mentions (key : String) (c : Call) : Prop := ∃ p, (key, p) ∈ c.texts

section Texts
variable {host : Host} {env : Env} {params : Params} {reply : Reply} {keys : List String} {key : String}

theorem asks_takes : Asks host params (Takes host params keys) where
  connect := fun _ among => absurd among List.not_mem_nil
  query := fun _ held x among _ => held x among

theorem sends_takes : Sends host params (Takes host params keys) where
  toAsks := asks_takes
  read := fun _ _ among => absurd among List.not_mem_nil
  saved := fun _ _ _ among => absurd among List.not_mem_nil

/-- A hash is looked up like a subscription, by handlers that do not convert the field for one. -/
theorem stores_takes (apart : "subsid" ∉ keys) : Stores host env params (Takes host params keys) where
  toAsks := asks_takes
  hash := by
    intro szHash plain x among listed
    obtain rfl := List.mem_singleton.mp among
    exact absurd listed apart
  update := fun _ held _ x among _ => held x among
  model := fun _ _ among => absurd among List.not_mem_nil
  ad := fun _ _ among => absurd among List.not_mem_nil

/-- Whatever its calls return, a handler puts the texts of its request under the fields that they are from. -/
theorem Handler.takes (h : Handler) : (h.program host env params).Within (Takes host params h.texts) := by
  cases h with
  | getModel => exact onGetModel_within host env params .initial sends_takes
  | getAd => exact onGetAd_within host env params .initial sends_takes
  | getInfo => exact onGetInfo_within host env params .initial sends_takes
  | uploadModel => exact onUploadModel_within host env params .initial (stores_takes (by decide))
  | uploadAd => exact onUploadAd_within host env params .initial (stores_takes (by decide))
  | createSubscription => exact onCreateSubscription_within host env params .initial (stores_takes (by decide))

theorem field_passes {α : Type} {other : String} {k : CString → Program α} {Q : α → Prop}
    (rest : ∀ p, (k p).Passes (Mentions key) Q) :
    (stringAt params other >>= fun s => buffer host s >>= k).Passes (Mentions key) Q := by
  rw [field_eq]
  cases fieldText host params other with
  | error e => trivial
  | ok p => exact rest p

theorem fetchSubscription_passes {column : Subscription → Option Int} :
    (fetchSubscription host params column reply).Passes (Mentions "subsid") fun _ => True :=
  field_passes fun p => .ask ⟨p, List.mem_cons_self⟩

theorem fetchUser_passes (among : key ∈ ["user", "pass"]) :
    (fetchUser host params reply).Passes (Mentions key) fun _ => True := by
  refine field_passes fun user => field_passes fun pass => .ask ?_
  simp only [List.mem_cons, List.not_mem_nil, or_false] at among
  rcases among with rfl | rfl
  · exact ⟨user, List.mem_cons_self⟩
  · exact ⟨pass, List.mem_cons_of_mem _ List.mem_cons_self⟩

theorem fetchOwner_passes {iUserId : Int} (known : iUserId ≠ -1) :
    (fetchOwner host params iUserId reply).Passes (Mentions "owner") fun _ => True := by
  rw [fetchOwner, if_pos known]
  exact field_passes fun p => .ask ⟨p, List.mem_cons_self⟩

theorem insertModel_passes {iFileId : Int} (refused : reply.Refused) (among : key ∈ ["name", "desc"]) :
    (insertModel host params iFileId reply).Passes (Mentions key) fun reply => reply.errorCode = .ok := by
  unfold insertModel
  split
  · refine field_passes fun name => field_passes fun desc => .ask ?_
    simp only [List.mem_cons, List.not_mem_nil, or_false] at among
    rcases among with rfl | rfl
    · exact ⟨name, List.mem_cons_self⟩
    · exact ⟨desc, List.mem_cons_of_mem _ List.mem_cons_self⟩
  · exact refused.code.1

theorem insertAd_passes {szUrl : CString} {iUserId : Int} (refused : reply.Refused) :
    (insertAd host env params szUrl iUserId reply).Passes (Mentions "url") fun reply => reply.errorCode = .ok := by
  unfold insertAd
  split
  · refine (Prog.ends_true _).bind_passes fun x _ => ?_
    exact Prog.Passes.bind (.ask ⟨szUrl, List.mem_cons_self⟩)
  · exact refused.code.1

/-- A subscription of no owner is not created. -/
theorem unowned_passes (refused : reply.Refused) : ((do
    let iModelId ← integerAt params "model_id"
    let (bModelExists, reply) ← modelExists (-1) iModelId reply
    let iAdId ← integerAt params "ad_id"
    let (bAdExists, reply) ← adExists (-1) iAdId reply
    insertSubscription host env (-1) iModelId iAdId (bAdExists && bModelExists) reply) : Program Reply).Passes
      (Mentions key) fun reply => reply.errorCode = .ok := by
  refine (Prog.ends_true _).bind_passes fun iModelId _ => ?_
  rw [modelExists, if_neg (by decide), Prog.pure_bind]
  refine (Prog.ends_true _).bind_passes fun iAdId _ => ?_
  rw [adExists, if_neg (by decide), Prog.pure_bind]
  exact refused.code.1

theorem onUploadModel_passes (among : key ∈ ["user", "pass", "name", "desc"]) :
    (onUploadModel host env params .initial).Passes (Mentions key) fun reply => reply.errorCode = .ok := by
  refine (Prog.ends_true _).bind_passes fun _ _ => ?_
  rcases List.mem_append.mp (show key ∈ ["user", "pass"] ++ ["name", "desc"] from among) with user | model
  · exact Prog.Passes.bind (fetchUser_passes user)
  · refine (fetchUser_ends refused_initial).bind_passes fun x refused => ?_
    refine (uploadFile_ends refused).bind_passes fun x refused => ?_
    exact insertModel_passes refused model

theorem onUploadAd_passes (among : key ∈ ["url", "user", "pass"]) :
    (onUploadAd host env params .initial).Passes (Mentions key) fun reply => reply.errorCode = .ok := by
  refine (Prog.ends_true _).bind_passes fun _ _ => field_passes fun szUrl => ?_
  rcases List.mem_cons.mp among with rfl | user
  · exact (fetchUser_ends refused_initial).bind_passes fun x refused => insertAd_passes refused
  · exact Prog.Passes.bind (fetchUser_passes user)

theorem onCreateSubscription_passes (among : key ∈ ["user", "pass", "owner"]) :
    (onCreateSubscription host env params .initial).Passes (Mentions key) fun reply => reply.errorCode = .ok := by
  refine (Prog.ends_true _).bind_passes fun _ _ => ?_
  rcases List.mem_append.mp (show key ∈ ["user", "pass"] ++ ["owner"] from among) with user | owner
  · exact Prog.Passes.bind (fetchUser_passes user)
  obtain rfl := List.mem_singleton.mp owner
  apply (fetchUser_ends refused_initial).bind_passes
  rintro ⟨iUserId, reply⟩ refused
  dsimp only
  by_cases known : iUserId = -1
  · rw [fetchOwner, if_neg (not_not_intro known), Prog.pure_bind]
    exact unowned_passes refused
  · exact Prog.Passes.bind (fetchOwner_passes known)

/-- Whatever its calls return, a handler only succeeds after a statement with a text of each of its fields. -/
theorem Handler.passes (h : Handler) (among : key ∈ h.texts) :
    (h.program host env params).Passes (Mentions key) fun reply => reply.errorCode = .ok := by
  cases h with
  | getModel =>
    obtain rfl := List.mem_singleton.mp among
    exact (Prog.ends_true _).bind_passes fun _ _ => Prog.Passes.bind fetchSubscription_passes
  | getAd =>
    obtain rfl := List.mem_singleton.mp among
    exact (Prog.ends_true _).bind_passes fun _ _ => Prog.Passes.bind fetchSubscription_passes
  | getInfo =>
    obtain rfl := List.mem_singleton.mp among
    exact (Prog.ends_true _).bind_passes fun _ _ => Prog.Passes.bind fetchSubscription_passes
  | uploadModel => exact onUploadModel_passes among
  | uploadAd => exact onUploadAd_passes among
  | createSubscription => exact onCreateSubscription_passes among

end Texts

/-! ### What is undefined -/

/-- The text of the field fills its buffer of 256 bytes. -/
def Fills (host : Host) (params : Params) (key : String) : Prop := fieldText host params key = .error .undefined

/-- With these files the program does nothing undefined, on any connection and whatever is in the tables. -/
def Defined (host : Host) (env : Env) (files : CString → Option (List UInt8)) (p : Program Reply) : Prop :=
  ∀ con db, (runOn host env p con ⟨db, files⟩).1 ≠ .error .undefined

/-- Each file is short enough for an `int`. -/
def ShortFiles (files : CString → Option (List UInt8)) : Prop :=
  ∀ path content, files path = some content → content.length < 2 ^ 31

section Undefined
variable {host : Host} {env : Env} {params : Params} {reply : Reply} {files : CString → Option (List UInt8)}

theorem defined_pure : Defined host env files (pure reply) := by
  intro con db
  rw [runOn_pure]
  exact nofun

theorem defined_stop {e : Stop} (apart : e ≠ .undefined) : Defined host env files (.stop e) :=
  fun _ _ same => apart (Except.error.inj same)

theorem defined_connect {k : Unit → Program Reply} (rest : Defined host env files (k ())) :
    Defined host env files (connect >>= k) := by
  intro con db
  rw [runOn_connect]
  split
  · exact rest con db
  · exact fun same => Stop.noConfusion (Except.error.inj same)

theorem defined_query {q : Query} {k : q.Result → Program Reply} (rest : ∀ r, Defined host env files (k r)) :
    Defined host env files (executeQuery q >>= k) := by
  intro con db
  rw [runOn_query]
  cases answer host env con ⟨db, files⟩ q with
  | none => exact fun same => Stop.noConfusion (Except.error.inj same)
  | some r => exact rest r _ db

theorem defined_update {u : Update} {k : Nat → Program Reply} (rest : ∀ n, Defined host env files (k n)) :
    Defined host env files (executeUpdate u >>= k) := by
  intro con db
  rw [runOn_update]
  cases changes host env con ⟨db, files⟩ u with
  | none => exact fun same => Stop.noConfusion (Except.error.inj same)
  | some changed => exact rest changed.rows _ changed.db

theorem defined_read {path : CString} {k : Option (List UInt8) → Program Reply}
    (rest : Defined host env files (k (files path))) : Defined host env files (readFile path >>= k) := by
  intro con db
  rw [runOn_readFile]
  exact rest con db

theorem defined_save (saving : env.saving ≠ .refused) {path : CString} {data : List UInt8} {k : Unit → Program Reply}
    (rest : ∀ after, Defined host env after (k ())) : Defined host env files (saveFile path data >>= k) := by
  intro con db
  obtain ⟨after, written⟩ : ∃ after, writeFile env files path data = some after := writeFile_isSome.mpr saving
  rw [runOn_saveFile, written]
  exact rest after con db

theorem defined_field {key : String} (short : ¬ Fills host params key) {k : CString → Program Reply}
    (rest : ∀ p, Defined host env files (k p)) :
    Defined host env files (stringAt params key >>= fun s => buffer host s >>= k) := by
  rw [field_eq]
  cases text : fieldText host params key with
  | error e => exact defined_stop fun same => short (text.trans (congrArg Except.error same))
  | ok p => exact rest p

theorem defined_number {key : String} {k : Int → Program Reply} (rest : ∀ n, Defined host env files (k n)) :
    Defined host env files (integerAt params key >>= k) := by
  unfold integerAt
  split
  · exact rest _
  · exact defined_stop (by decide)

theorem defined_fileSize {content : List UInt8} (short : content.length < 2 ^ 31) {k : Nat → Program Reply}
    (rest : ∀ n, Defined host env files (k n)) : Defined host env files (fileSize content >>= k) := by
  rw [fileSize, if_pos short]
  exact rest _

theorem defined_requiredLength {n : Nat} {k : Nat → Program Reply} (rest : ∀ n, Defined host env files (k n)) :
    Defined host env files (requiredLength host n >>= k) := by
  unfold requiredLength
  split
  · exact rest _
  · exact defined_stop (by decide)

theorem defined_fetchSubscription (subsid : ¬ Fills host params "subsid") {column : Subscription → Option Int}
    {k : Int × Reply → Program Reply} (rest : ∀ x, Defined host env files (k x)) :
    Defined host env files (fetchSubscription host params column reply >>= k) := by
  simp only [fetchSubscription, Prog.bind_assoc]
  exact defined_field subsid fun szModelId => defined_query fun res => rest _

theorem defined_fetchModel {iModelId : Int} {k : Int × Reply → Program Reply}
    (rest : ∀ x, Defined host env files (k x)) : Defined host env files (fetchModel iModelId reply >>= k) := by
  unfold fetchModel
  split
  · rw [Prog.bind_assoc]
    apply defined_query
    intro row
    cases row <;> exact rest _
  · exact rest _

theorem defined_fetchUser (user : ¬ Fills host params "user") (pass : ¬ Fills host params "pass")
    {k : Int × Reply → Program Reply} (rest : ∀ x, Defined host env files (k x)) :
    Defined host env files (fetchUser host params reply >>= k) := by
  simp only [fetchUser, Prog.bind_assoc]
  exact defined_field user fun szUser => defined_field pass fun szPass => defined_query fun res => rest _

theorem defined_fetchOwner (owner : ¬ Fills host params "owner") {iUserId : Int} {k : Int × Reply → Program Reply}
    (rest : ∀ x, Defined host env files (k x)) :
    Defined host env files (fetchOwner host params iUserId reply >>= k) := by
  unfold fetchOwner
  split
  · simp only [Prog.bind_assoc]
    exact defined_field owner fun szUser => defined_query fun res => rest _
  · exact rest _

theorem defined_modelExists {iOwnerId iModelId : Int} {k : Bool × Reply → Program Reply}
    (rest : ∀ x, Defined host env files (k x)) :
    Defined host env files (modelExists iOwnerId iModelId reply >>= k) := by
  unfold modelExists
  split
  · rw [Prog.bind_assoc]
    apply defined_query
    intro row
    cases row <;> exact rest _
  · exact rest _

theorem defined_adExists {iOwnerId iAdId : Int} {k : Bool × Reply → Program Reply}
    (rest : ∀ x, Defined host env files (k x)) : Defined host env files (adExists iOwnerId iAdId reply >>= k) := by
  unfold adExists
  split
  · rw [Prog.bind_assoc]
    apply defined_query
    intro row
    cases row <;> exact rest _
  · exact rest _

theorem defined_chooseHash {seed attempts n : Nat} {k : CString → Program Reply}
    (rest : ∀ szHash, Defined host env files (k szHash)) :
    Defined host env files (chooseHash host seed attempts n >>= k) := by
  induction attempts generalizing n with
  | zero => exact defined_stop (by decide)
  | succ attempts ih =>
    rw [chooseHash, Prog.bind_assoc]
    apply defined_query
    intro res
    split
    · exact rest _
    · exact ih

theorem defined_insertRow {u : Update} {k : Int × Reply → Program Reply} (rest : ∀ x, Defined host env files (k x)) :
    Defined host env files (insertRow u reply >>= k) := by
  simp only [insertRow, Prog.bind_assoc]
  refine defined_update fun iInsert => defined_query fun id => ?_
  cases id <;> exact rest _

theorem defined_insertLast {u : Update} {put : Int → Reply → Reply} :
    Defined host env files (insertLast u put reply) := by
  apply defined_update
  intro iInsert
  split
  · exact defined_pure
  · apply defined_query
    intro id
    cases id <;> exact defined_pure

theorem defined_storeFile (saving : env.saving ≠ .refused) {key : String} {folder extension : CString}
    {k : CString × Nat → Program Reply} (rest : ∀ x after, Defined host env after (k x)) :
    Defined host env files (storeFile host env params key folder extension >>= k) := by
  unfold storeFile stringAt
  split
  · rw [Prog.pure_bind, Prog.bind_assoc]
    exact defined_save saving fun after => rest _ after
  · exact defined_stop (by decide)

theorem defined_fetchFile {send : CString → Env → Reply → Program Reply} {iFileId : Int}
    (sends : ∀ path, Defined host env files (send path env reply)) :
    Defined host env files (fetchFile host send iFileId env reply) := by
  unfold fetchFile
  split
  · apply defined_query
    intro row
    cases row with
    | none => exact defined_pure
    | some row => exact sends _
  · exact defined_pure

section Files
variable (short : ShortFiles files)
include short

theorem defined_sendFile (saving : env.saving ≠ .refused) {path : CString} {message : String}
    {put : WString → Reply → Reply} : Defined host env files (sendFile host path message put env reply) := by
  apply defined_read
  cases saved : files (path ++ base64Suffix) with
  | some content => exact defined_fileSize (short _ _ saved) fun _ => defined_pure
  | none =>
    apply defined_read
    cases found : files path with
    | none => exact defined_pure
    | some pBuf =>
      refine defined_fileSize (short _ _ found) fun iSize => defined_requiredLength fun _ => ?_
      exact defined_save saving fun _ => defined_pure

theorem defined_sendInfo {path : CString} : Defined host env files (sendInfo host path env reply) := by
  apply defined_read
  cases saved : files (path ++ base64Suffix) with
  | some content => exact defined_fileSize (short _ _ saved) fun _ => defined_pure
  | none =>
    apply defined_read
    cases found : files (path ++ modelFileExtension) with
    | none => exact defined_pure
    | some content =>
      exact defined_fileSize (short _ _ found) fun iSize => defined_requiredLength fun _ => defined_pure

theorem defined_fetchAd (saving : env.saving ≠ .refused) {iAdId : Int} :
    Defined host env files (fetchAd host iAdId env reply) := by
  unfold fetchAd
  split
  · apply defined_query
    intro row
    cases row with
    | none => exact defined_pure
    | some row => exact defined_sendFile short saving
  · exact defined_pure

end Files

theorem defined_insertModel (name : ¬ Fills host params "name") (desc : ¬ Fills host params "desc") {iFileId : Int} :
    Defined host env files (insertModel host params iFileId reply) := by
  unfold insertModel
  split
  · exact defined_field name fun szModelName => defined_field desc fun szModelDesc => defined_insertLast
  · exact defined_pure

theorem defined_insertAd (saving : env.saving ≠ .refused) {szUrl : CString} {iUserId : Int} :
    Defined host env files (insertAd host env params szUrl iUserId reply) := by
  unfold insertAd
  split
  · exact defined_storeFile saving fun x after => defined_insertRow fun x => defined_pure
  · exact defined_pure

theorem defined_uploadFile (saving : env.saving ≠ .refused) {iUserId : Int} {k : Int × Reply → Program Reply}
    (rest : ∀ x after, Defined host env after (k x)) :
    Defined host env files (uploadFile host env params iUserId reply >>= k) := by
  unfold uploadFile
  split
  · rw [Prog.bind_assoc]
    exact defined_storeFile saving fun x after => defined_insertRow fun x => rest x after
  · exact rest _ _

theorem defined_insertSubscription {iOwnerId iModelId iAdId : Int} {bothExist : Bool} :
    Defined host env files (insertSubscription host env iOwnerId iModelId iAdId bothExist reply) := by
  unfold insertSubscription
  split
  · exact defined_chooseHash fun szHash => defined_insertLast
  · exact defined_pure

/-- A handler does nothing undefined when no text fills its buffer and each file can be written and measured. -/
theorem Handler.defined (h : Handler) (texts : ∀ key ∈ h.texts, ¬ Fills host params key)
    (saving : env.saving ≠ .refused) (short : ShortFiles files) :
    Defined host env files (h.program host env params) := by
  cases h with
  | getModel =>
    refine defined_connect (defined_fetchSubscription (texts _ (by decide)) fun x => defined_fetchModel fun x => ?_)
    exact defined_fetchFile fun path => defined_sendFile short saving
  | getAd =>
    exact defined_connect (defined_fetchSubscription (texts _ (by decide)) fun x => defined_fetchAd short saving)
  | getInfo =>
    refine defined_connect (defined_fetchSubscription (texts _ (by decide)) fun x => defined_fetchModel fun x => ?_)
    exact defined_fetchFile fun path => defined_sendInfo short
  | uploadModel =>
    refine defined_connect (defined_fetchUser (texts _ (by decide)) (texts _ (by decide)) fun x => ?_)
    refine defined_uploadFile saving fun x after => ?_
    exact defined_insertModel (texts _ (by decide)) (texts _ (by decide))
  | uploadAd =>
    refine defined_connect (defined_field (texts _ (by decide)) fun szUrl => ?_)
    exact defined_fetchUser (texts _ (by decide)) (texts _ (by decide)) fun x => defined_insertAd saving
  | createSubscription =>
    refine defined_connect (defined_fetchUser (texts _ (by decide)) (texts _ (by decide)) fun x => ?_)
    refine defined_fetchOwner (texts _ (by decide)) fun x => defined_number fun iModelId => ?_
    refine defined_modelExists fun x => defined_number fun iAdId => defined_adExists fun x => ?_
    exact defined_insertSubscription

end Undefined
end ModelPublish.Server
