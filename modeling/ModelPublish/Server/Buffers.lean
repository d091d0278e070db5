import ModelPublish.Server.Texts

/-!
# Texts in buffers of 256 bytes

Whether a text of a request fits the buffer it is converted into, or the request is refused.
-/

namespace ModelPublish.Server
open Machine Packed

/-! ### One text -/

/-- At most 255 bytes, and no NUL. -/
def Fits (page : CodePage) (s : WString) : Prop := (page.narrow 0 s).length < 256 ∧ NulFree (page.narrow 0 s)

/-- The terminator stands inside the buffer, and what `%s` prints of it is all of the text. -/
theorem fits_iff (page : CodePage) (s : WString) :
    (page.narrowInto 0 256 s).length ≠ 256 ∧ cstr (page.narrowInto 0 256 s) = page.narrow 0 s ↔ Fits page s := by
  unfold Fits CodePage.narrowInto
  by_cases room : (page.narrow 0 s).length ≤ 256
  · simp only [if_pos room]
    refine and_congr ⟨fun notFull => by omega, fun short => by omega⟩ ?_
    constructor
    · intro whole
      rw [← whole]
      exact cstr_nulFree _
    · exact cstr_of_nulFree
  · simp only [if_neg room]
    refine iff_of_false ?_ fun fits => room (by omega)
    intro ⟨_, whole⟩
    have empty : page.narrow 0 s = [] := whole.symm
    rw [empty] at room
    exact room (by simp)

theorem fieldText_iff {host : Host} {params : Params} {key : String} {s : WString}
    (found : params.lookup (wide key) = some (.string s)) (p : CString) :
    fieldText host params key = .ok p ↔ p = host.page.narrowInto 0 256 s ∧ p.length ≠ 256 := by
  rw [fieldText, found]
  dsimp only
  split
  · rename_i full
    refine iff_of_false (by rintro ⟨⟩) ?_
    rintro ⟨rfl, notFull⟩
    exact notFull full
  · rename_i notFull
    constructor
    · rintro ⟨⟩
      exact ⟨rfl, notFull⟩
    · rintro ⟨rfl, -⟩
      rfl

/-! ### The requests -/

/-- The request is left without success, with the tables and the files as they were. -/
def RefusedUnchanged {c : Collation} (w : World c) (result : Except Stop Reply × World c) : Prop :=
  (match result.1 with
    | .ok reply => reply.errorCode ≠ .ok
    | .error stop => stop ≠ .undefined) ∧ result.2 = w

/-- Nothing but the text of this field can lead to anything undefined. -/
structure Besides (h : Handler) (key : String) (host : Host) (env : Env) (params : Params)
    (w : World host.mysql.collation) : Prop where
  texts : ∀ other ∈ h.texts, other ≠ key → ¬ Fills host params other
  saving : env.saving ≠ .refused
  short : ShortFiles w.files

/-- What `%s` prints of the field, in each of these calls that has a text of it, is all of the value. -/
def UsedWhole (key : String) (page : CodePage) (s : WString) (calls : List Call) : Prop :=
  ∀ c ∈ calls, ∀ p, (key, p) ∈ c.texts → cstr p = page.narrow 0 s

/-- In every request with this value, it is not written behind its buffer and the statements of the run have all of
it, or the request is refused. -/
def FitsOrRefused (h : Handler) (key : String) (page : CodePage) (s : WString) : Prop :=
  ∀ (host : Host) (env : Env) (params : Params) (w : World host.mysql.collation), host.page = page →
    params.lookup (wide key) = some (.string s) →
    ((Besides h key host env params w → (runAlone host env (h.program host env params) w).1 ≠ .error .undefined) ∧
      UsedWhole key page s ((h.program host env params).asked (exec host env) (.opened, w))) ∨
    RefusedUnchanged w (runAlone host env (h.program host env params) w)

section Fitting
variable {h : Handler} {key : String} {host : Host} {env : Env} {params : Params} {w : World host.mysql.collation}
  {s : WString}

theorem not_fills (found : params.lookup (wide key) = some (.string s)) (fits : Fits host.page s) :
    ¬ Fills host params key := by
  have text := (fieldText_iff found _).mpr ⟨rfl, ((fits_iff _ _).mpr fits).1⟩
  rw [Fills, text]
  rintro ⟨⟩

theorem defined_of_fits (found : params.lookup (wide key) = some (.string s)) (fits : Fits host.page s)
    (besides : Besides h key host env params w) :
    (runAlone host env (h.program host env params) w).1 ≠ .error .undefined := by
  refine h.defined (fun other among => ?_) besides.saving besides.short .opened w.db
  by_cases same : other = key
  · rw [same]
    exact not_fills found fits
  · exact besides.texts other among same

theorem usedWhole_of_fits (text : key ∈ h.texts) (found : params.lookup (wide key) = some (.string s))
    (fits : Fits host.page s) :
    UsedWhole key host.page s ((h.program host env params).asked (exec host env) (.opened, w)) := by
  intro c among p has
  have taken := (fieldText_iff found p).mp ((h.takes.asked _ c among) (key, p) has text)
  rw [taken.1]
  exact ((fits_iff _ _).mpr fits).2

/-- A request that succeeds has sent the text, so all of it stood in its buffer. -/
theorem fits_of_usedWhole (text : key ∈ h.texts) (found : params.lookup (wide key) = some (.string s)) {reply : Reply}
    (ok : (runAlone host env (h.program host env params) w).1 = .ok reply) (code : reply.errorCode = .ok)
    (whole : UsedWhole key host.page s ((h.program host env params).asked (exec host env) (.opened, w))) :
    Fits host.page s := by
  rcases ran : (h.program host env params).run (exec host env) (.opened, w) with ⟨result, s'⟩
  obtain rfl : result = .ok reply := by
    rw [runAlone, ran] at ok
    exact ok
  obtain ⟨c, among, p, has⟩ := (h.passes text).asked ran code
  have taken := (fieldText_iff found p).mp ((h.takes.asked _ c among) (key, p) has text)
  have all := whole c among p has
  rw [taken.1] at all
  exact (fits_iff _ _).mp ⟨taken.1 ▸ taken.2, all⟩

end Fitting

/-! ### A server that takes any text -/

namespace Lenient

def mysql : MySQL where
  collation :=
    { same := fun _ _ => true
      fits := fun _ _ => true
      refl := fun _ => rfl
      symm := fun _ _ => rfl
      trans := fun _ _ _ _ _ => rfl
      fits_ascii := fun _ _ _ _ => rfl }
  otherResult q db := some (q.result db 0)
  otherChange u db := u.change db
  other_keeps _ _ _ changed := MySQL.change_keeps changed

abbrev host (page : CodePage) : Host where
  page := page
  base64 := Small.base64
  uri := Small.uri
  mysql := mysql
  m_szServerRootFolder := []
  rand _ k := k

/-- One of everything, and one subscription. -/
def published : Database mysql.collation where
  files := ⟨[⟨1, [], [], 0⟩], 2, by decide, by decide, Small.next_counts⟩
  ads := ⟨[⟨1, 1, [], []⟩], 2, by decide, by decide, Small.next_counts⟩
  models := ⟨[⟨1, some 1, some 1, [], []⟩], 2, by decide, by decide, Small.next_counts⟩
  owners := ⟨[⟨1, [], some []⟩], 2, by decide, by decide, Small.next_counts⟩
  subscriptions := ⟨[⟨1, some 1, some 1, some 1, some []⟩], 2, by decide, by decide, Small.next_counts⟩
  modelFiles := by decide
  references := by decide
  unique := List.pairwise_singleton _ _

/-- The same before there is a subscription. -/
def unpublished : Database mysql.collation :=
  { published with
    subscriptions := Small.empty _
    references := by simp [Small.empty]
    unique := List.Pairwise.nil }

/-- Every file is there, and empty. -/
def world (db : Database mysql.collation) : World mysql.collation := ⟨db, fun _ => some []⟩

/-- The fields that are texts. -/
def fields : List String := ["subsid", "user", "pass", "owner", "name", "desc", "url", "model", "ad"]

/-- A request with every field. -/
structure Filled (params : Params) : Prop where
  text : ∀ key ∈ fields, ∃ s, params.lookup (wide key) = some (.string s)
  modelId : params.lookup (wide "model_id") = some (.number 1)
  adId : params.lookup (wide "ad_id") = some (.number 1)

/-- The request is not refused. -/
def Taken {c : Collation} (result : Except Stop Reply × World c) : Prop :=
  result.1 = .error .undefined ∨ ∃ reply, result.1 = .ok reply ∧ reply.errorCode = .ok

theorem Taken.not_refused {c : Collation} {w : World c} {result : Except Stop Reply × World c} (h : Taken result) :
    ¬ RefusedUnchanged w result := by
  intro ⟨refused, _⟩
  rcases h with undefined | ⟨reply, ok, code⟩
  · rw [undefined] at refused
    exact refused rfl
  · rw [ok] at refused
    exact refused code

theorem reliable (n : Nat) : ¬ Small.env.fails n = true := Bool.false_ne_true

section Runs
variable {page : CodePage} {params : Params} {w : World mysql.collation} {con : Connection}

theorem changes_lenient (u : Update) : changes (host page) Small.env con w u = u.change w.db := by
  rw [changes, if_neg (reliable _)]
  unfold MySQL.executeUpdate
  split <;> rfl

theorem answer_lenient {q : Query} (steady : q.result w.db con.lastInsertId = q.result w.db 0) :
    answer (host page) Small.env con w q = some (q.result w.db 0) := by
  rw [answer, if_neg (reliable _)]
  unfold MySQL.executeQuery
  split
  · exact congrArg some steady
  · rfl

theorem fieldText_filled (filled : Filled params) (key : String) (among : key ∈ fields) :
    fieldText (host page) params key = .error .undefined ∨ ∃ p, fieldText (host page) params key = .ok p := by
  obtain ⟨s, found⟩ := filled.text key among
  rw [fieldText, found]
  dsimp only
  split
  · exact Or.inl rfl
  · exact Or.inr ⟨_, rfl⟩

/-- The look-up of a subscription comes to the one there is. -/
theorem subscription_taken (filled : Filled params) {column : Subscription → Option Int}
    {k : Int × Reply → Program Reply}
    (rest : ∀ con, Taken (runOn (host page) Small.env
      (k (lastInt [⟨1, some 1, some 1, some 1, some []⟩] column, .initial)) con (world published))) :
    Taken (runOn (host page) Small.env
      (connect >>= fun _ => fetchSubscription (host page) params column .initial >>= k) .opened (world published)) := by
  have connects : Small.env.connects = true := rfl
  rw [runOn_connect, if_pos connects, runOn_fetchSubscription, checkedSubscription]
  rcases fieldText_filled filled "subsid" (by decide) with undefined | ⟨p, text⟩
  · rw [undefined]
    exact Or.inl rfl
  · rw [text, ok_bind, answer_lenient rfl]
    exact rest _

theorem sendFile_taken {path : CString} {message : String} {put : WString → Reply → Reply}
    (keeps : ∀ s r, (put s r).errorCode = r.errorCode) (reply : Reply) (db : Database mysql.collation) :
    Taken (runOn (host page) Small.env (sendFile (host page) path message put Small.env reply) con (world db)) := by
  rw [runOn_sendFile]
  exact Or.inr ⟨_, rfl, (keeps _ _).trans rfl⟩

theorem fetchFile_taken {send : CString → Env → Reply → Program Reply}
    (sent : ∀ path reply con, Taken (runOn (host page) Small.env (send path Small.env reply) con (world published)))
    (reply : Reply) :
    Taken (runOn (host page) Small.env
      (fetchModel 1 reply >>= fun x => fetchFile (host page) send x.1 Small.env x.2) con (world published)) := by
  rw [runOn_fetchModel]
  have found : (world published).db.models.find? 1 = some ⟨1, some 1, some 1, [], []⟩ := rfl
  rw [if_neg (by decide), if_neg (reliable _), found]
  dsimp only
  rw [runOn_fetchFile]
  have file : (world published).db.files.find? 1 = some ⟨1, [], [], 0⟩ := rfl
  rw [if_neg (by decide), if_neg (reliable _), Option.getD_some, file]
  exact sent _ _ _

theorem onGetModel_taken (filled : Filled params) :
    Taken (runOn (host page) Small.env (onGetModel (host page) Small.env params .initial) .opened
      (world published)) := by
  refine subscription_taken filled fun con => fetchFile_taken ?_ _
  intro path reply con
  rw [sendModel]
  refine sendFile_taken ?_ reply published
  exact fun _ _ => rfl

theorem onGetInfo_taken (filled : Filled params) :
    Taken (runOn (host page) Small.env (onGetInfo (host page) Small.env params .initial) .opened
      (world published)) := by
  refine subscription_taken filled fun con => fetchFile_taken ?_ _
  intro path reply con
  rw [runOn_sendInfo]
  exact Or.inr ⟨_, rfl, rfl⟩

theorem onGetAd_taken (filled : Filled params) :
    Taken (runOn (host page) Small.env (onGetAd (host page) Small.env params .initial) .opened
      (world published)) := by
  refine subscription_taken filled fun con => ?_
  have found : (world published).db.ads.find? 1 = some ⟨1, 1, [], []⟩ := rfl
  rw [runOn_fetchAd, if_neg (by decide), if_neg (reliable _)]
  simp only [lastInt, List.foldl_cons, List.foldl_nil, Option.getD_some, found, sendAd]
  refine sendFile_taken ?_ _ published
  exact fun _ _ => rfl

theorem user_taken (filled : Filled params) (owned : w.db.owners.rows = [⟨1, [], some []⟩])
    {k : Int × Reply → Program Reply} (rest : ∀ con, Taken (runOn (host page) Small.env (k (1, .initial)) con w)) :
    Taken (runOn (host page) Small.env (fetchUser (host page) params .initial >>= k) con w) := by
  rw [runOn_fetchUser, checkedUser]
  rcases fieldText_filled filled "user" (by decide) with undefined | ⟨user, text⟩
  · rw [undefined]
    exact Or.inl rfl
  rcases fieldText_filled filled "pass" (by decide) with undefined | ⟨pass, word⟩
  · rw [text, ok_bind, undefined]
    exact Or.inl rfl
  · rw [text, ok_bind, word, ok_bind, answer_lenient rfl, Query.result, owned]
    exact rest _

theorem owner_taken (filled : Filled params) (owned : w.db.owners.rows = [⟨1, [], some []⟩])
    {k : Int × Reply → Program Reply} (rest : ∀ con, Taken (runOn (host page) Small.env (k (1, .initial)) con w)) :
    Taken (runOn (host page) Small.env (fetchOwner (host page) params 1 .initial >>= k) con w) := by
  rw [runOn_fetchOwner _ (by decide), checkedOwner]
  rcases fieldText_filled filled "owner" (by decide) with undefined | ⟨owner, text⟩
  · rw [undefined]
    exact Or.inl rfl
  · rw [text, ok_bind, answer_lenient rfl, Query.result, owned]
    exact rest _

theorem file_taken (filled : Filled params) {key : String} {folder extension : CString} (among : key ∈ fields)
    {k : CString × Nat → Program Reply}
    (rest : ∀ x files, Taken (runOn (host page) Small.env (k x) con { w with files := files })) :
    Taken (runOn (host page) Small.env (storeFile (host page) Small.env params key folder extension >>= k) con w) := by
  obtain ⟨s, found⟩ := filled.text key among
  rw [runOn_storeFile, fieldData, found]
  exact rest _ _

theorem insertRow_taken {u : Update} {changed : Changed mysql.collation} (inserted : u.change w.db = some changed)
    (one : changed.rows = 1) {k : Int × Reply → Program Reply} {reply : Reply}
    (rest : ∀ con, Taken (runOn (host page) Small.env (k (changed.id, reply)) con { w with db := changed.db })) :
    Taken (runOn (host page) Small.env (insertRow u reply >>= k) con w) := by
  rw [runOn_insertRow, changes_lenient, inserted]
  dsimp only
  rw [if_neg (reliable _), one, if_neg (by decide)]
  exact rest _

theorem insertLast_taken {u : Update} {changed : Changed mysql.collation} (inserted : u.change w.db = some changed)
    (one : changed.rows = 1) (positive : changed.id ≠ -1) {put : Int → Reply → Reply} {reply : Reply}
    (keeps : ∀ n r, (put n r).errorCode = r.errorCode) :
    Taken (runOn (host page) Small.env (insertLast u put reply) con w) := by
  rw [runOn_insertLast, changes_lenient, inserted]
  dsimp only
  rw [one, if_neg (by decide), if_neg (reliable _), if_pos positive]
  exact Or.inr ⟨_, rfl, (keeps _ _).trans rfl⟩

theorem query_taken {q : Query} (steady : q.result w.db con.lastInsertId = q.result w.db 0)
    {k : q.Result → Program Reply} (rest : Taken (runOn (host page) Small.env (k (q.result w.db 0)) con.next w)) :
    Taken (runOn (host page) Small.env (executeQuery q >>= k) con w) := by
  rw [runOn_query, answer_lenient steady]
  exact rest

/-- A field that is converted, and what is done with the text. -/
theorem field_taken (filled : Filled params) {key : String} (among : key ∈ fields)
    {k : CString → Program Reply} (rest : ∀ p, Taken (runOn (host page) Small.env (k p) con w)) :
    Taken (runOn (host page) Small.env (stringAt params key >>= fun s => buffer (host page) s >>= k) con w) := by
  rw [runOn_field]
  rcases fieldText_filled filled key among with undefined | ⟨p, text⟩
  · rw [undefined]
    exact Or.inl rfl
  · rw [text]
    exact rest p

theorem onUploadModel_taken (filled : Filled params) :
    Taken (runOn (host page) Small.env (onUploadModel (host page) Small.env params .initial) .opened
      (world published)) := by
  have connects : Small.env.connects = true := rfl
  rw [onUploadModel, runOn_connect, if_pos connects]
  refine user_taken filled rfl fun con => ?_
  simp only [uploadFile, if_pos (show (1 : Int) ≠ -1 by decide), Prog.bind_assoc]
  refine file_taken filled (by decide) fun x files => ?_
  refine insertRow_taken rfl rfl fun con => ?_
  dsimp only
  rw [insertModel, if_pos (by decide)]
  refine field_taken filled (by decide) fun name => ?_
  refine field_taken filled (by decide) fun desc => ?_
  refine insertLast_taken rfl rfl (show (2 : Int) ≠ -1 by decide) ?_
  exact fun _ _ => rfl

theorem onUploadAd_taken (filled : Filled params) :
    Taken (runOn (host page) Small.env (onUploadAd (host page) Small.env params .initial) .opened
      (world published)) := by
  have connects : Small.env.connects = true := rfl
  rw [onUploadAd, runOn_connect, if_pos connects]
  refine field_taken filled (by decide) fun url => ?_
  refine user_taken filled rfl fun con => ?_
  simp only [insertAd, if_pos (show (1 : Int) ≠ -1 by decide)]
  refine file_taken filled (by decide) fun x files => ?_
  refine insertRow_taken rfl rfl fun con => ?_
  exact Or.inr ⟨_, rfl, rfl⟩

theorem onCreateSubscription_taken (filled : Filled params) :
    Taken (runOn (host page) Small.env (onCreateSubscription (host page) Small.env params .initial) .opened
      (world unpublished)) := by
  have connects : Small.env.connects = true := rfl
  rw [onCreateSubscription, runOn_connect, if_pos connects]
  refine user_taken filled rfl fun con => ?_
  refine owner_taken filled rfl fun con => ?_
  dsimp only
  rw [runOn_number, fieldNumber, filled.modelId]
  dsimp only
  simp only [modelExists, if_pos (show (1 : Int) ≠ -1 by decide), Prog.bind_assoc]
  refine query_taken rfl ?_
  have model : Query.result (world unpublished).db 0 (.modelDescQuoted 1) = some ⟨1, some 1, some 1, [], []⟩ := rfl
  rw [show Int.bmod 1 (2 ^ 32) = 1 from rfl, model]
  dsimp only [Prog.pure_bind]
  rw [runOn_number, fieldNumber, filled.adId]
  dsimp only
  simp only [adExists, if_pos (show (1 : Int) ≠ -1 by decide), Prog.bind_assoc]
  refine query_taken rfl ?_
  have ad : Query.result (world unpublished).db 0 (.advertisementQuoted 1) = some ⟨1, 1, [], []⟩ := rfl
  rw [show Int.bmod 1 (2 ^ 32) = 1 from rfl, ad]
  dsimp only [Prog.pure_bind]
  rw [insertSubscription, if_pos (by decide)]
  -- the first hash is free, and the loop may try it
  have tries : Small.env.attempts = 1 := rfl
  rw [tries, chooseHash, Prog.bind_assoc]
  refine query_taken rfl ?_
  have free : (Query.result (world unpublished).db 0
      (.subscription (candidate (host page) Small.env.tickCount 0))).isEmpty = true := rfl
  rw [if_pos free, Prog.pure_bind]
  refine insertLast_taken rfl rfl (show (1 : Int) ≠ -1 by decide) ?_
  exact fun _ _ => rfl

end Runs

def defaults : Params :=
  (fields.map fun key => (wide key, .string (wide "x"))) ++ [(wide "model_id", .number 1), (wide "ad_id", .number 1)]

/-- A request with this value in one field. -/
def request (key : String) (s : WString) : Params := (wide key, .string s) :: defaults

theorem defaults_text : ∀ key ∈ fields, defaults.lookup (wide key) = some (.string (wide "x")) := by
  intro key among
  simp only [fields, List.mem_cons, List.not_mem_nil, or_false] at among
  rcases among with rfl | rfl | rfl | rfl | rfl | rfl | rfl | rfl | rfl <;> rfl

theorem request_other {key other : String} (apart : wide other ≠ wide key) (s : WString) :
    (request key s).lookup (wide other) = defaults.lookup (wide other) := by
  have differs : (wide other == wide key) = false := beq_eq_false_iff_ne.mpr apart
  rw [request, List.lookup_cons, differs]

theorem ids_apart : ∀ key ∈ fields, wide "model_id" ≠ wide key ∧ wide "ad_id" ≠ wide key := by decide

theorem filled_request {key : String} (among : key ∈ fields) (s : WString) : Filled (request key s) where
  text := by
    intro other amongOther
    by_cases same : wide other = wide key
    · refine ⟨s, ?_⟩
      rw [same, request, List.lookup_cons_self]
    · refine ⟨wide "x", ?_⟩
      rw [request_other same, defaults_text other amongOther]
  modelId := request_other (ids_apart key among).1 s
  adId := request_other (ids_apart key among).2 s

theorem program_taken (h : Handler) (page : CodePage) {params : Params} (filled : Filled params) :
    ∃ db, Taken (runAlone (host page) Small.env (h.program (host page) Small.env params) (world db)) := by
  cases h with
  | getModel => exact ⟨published, onGetModel_taken filled⟩
  | getAd => exact ⟨published, onGetAd_taken filled⟩
  | getInfo => exact ⟨published, onGetInfo_taken filled⟩
  | uploadModel => exact ⟨published, onUploadModel_taken filled⟩
  | uploadAd => exact ⟨published, onUploadAd_taken filled⟩
  | createSubscription => exact ⟨unpublished, onCreateSubscription_taken filled⟩

theorem texts_fields {h : Handler} {key : String} (text : key ∈ h.texts) : key ∈ fields := by
  revert key
  cases h <;> decide

theorem fields_apart : ∀ key ∈ fields, ∀ other ∈ fields, other ≠ key → wide other ≠ wide key := by
  decide

theorem besides {h : Handler} {key : String} (text : key ∈ h.texts) (page : CodePage) (s : WString)
    (db : Database mysql.collation) : Besides h key (host page) Small.env (request key s) (world db) where
  texts := by
    intro other among differs
    have lone : page.narrow 0 (wide "x") = [120] := by
      have char : wide "x" = widened [120] := by decide
      rw [char]
      exact page.narrow_ascii 0 [120] (List.forall_mem_singleton.mpr (by decide))
    have apart := fields_apart key (texts_fields text) other (texts_fields among) differs
    have found : (request key s).lookup (wide other) = some (.string (wide "x")) := by
      rw [request_other apart, defaults_text other (texts_fields among)]
    refine not_fills found ⟨?_, ?_⟩
    · rw [lone]
      decide
    · rw [lone]
      decide
  saving := by decide
  short := by
    rintro path content ⟨⟩
    decide

end Lenient

theorem fits_of_fitsOrRefused {h : Handler} {key : String} (text : key ∈ h.texts) {page : CodePage} {s : WString}
    (kept : FitsOrRefused h key page s) : Fits page s := by
  obtain ⟨db, taken⟩ := Lenient.program_taken h page (Lenient.filled_request (Lenient.texts_fields text) s)
  have found : (Lenient.request key s).lookup (wide key) = some (.string s) := by simp [Lenient.request]
  rcases kept (Lenient.host page) Small.env (Lenient.request key s) (Lenient.world db) rfl found with
    ⟨inside, whole⟩ | refused
  · rcases taken with undefined | ⟨reply, ok, code⟩
    · exact absurd undefined (inside (Lenient.besides text page s db))
    · exact fits_of_usedWhole text found ok code whole
  · exact absurd refused taken.not_refused

/-- A value of a text field fits its buffer or is refused, in every state of the server, exactly when it fits. -/
theorem fitsOrRefused_iff {h : Handler} {key : String} (text : key ∈ h.texts) (page : CodePage) (s : WString) :
    FitsOrRefused h key page s ↔ Fits page s := by
  constructor
  · exact fits_of_fitsOrRefused text
  · rintro fits host env params w rfl found
    exact Or.inl ⟨defined_of_fits found fits, usedWhole_of_fits text found fits⟩

theorem shortId_fitsOrRefused : FitsOrRefused .getModel "subsid" Small.page (wide "abc") :=
  (fitsOrRefused_iff (by decide) Small.page (wide "abc")).mpr ⟨by decide, by decide⟩

/-- Of 256 characters, the terminator is written behind the buffer. -/
theorem fullId_not_fitsOrRefused : ¬ FitsOrRefused .getModel "subsid" Small.page (List.replicate 256 97) := by
  intro kept
  have fits := fits_of_fitsOrRefused (by decide) kept
  have full : (Small.page.narrow 0 (List.replicate 256 97)).length = 256 := by
    rw [Small.page, List.length_map, List.length_replicate]
  exact absurd fits.1 (by omega)

end ModelPublish.Server
