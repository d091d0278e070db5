import ModelPublish.Server.Footprint

/-!
# User strings in queries

The handlers put the strings of a request between quotes as they are. Which of them MySQL reads back as
the literals they are meant for.
-/

namespace ModelPublish.Server
open Machine Packed
open Sql (Whole Template Token quote backslash tokens literals)

/-! ### What the handlers send -/

def Call.template? : Call → Option Template
  | executeQuery q => some q.template
  | executeUpdate u => some u.template
  | _ => none

/-- The text of a string field of the request that fits in its buffer. -/
def FieldText (host : Host) (params : Params) (p : CString) : Prop :=
  ∃ key ∈ ["subsid", "user", "pass", "owner", "name", "desc", "url"], ∃ s,
    params.lookup (wide key) = some (.string s) ∧ p = host.page.narrow 0 s ∧ p.length < 256

/-- Each string of a statement is the text of a field, or plain. -/
def FromFields (host : Host) (params : Params) (c : Call) : Prop :=
  ∀ t, c.template? = some t → t.Clean ∧ ∀ p ∈ t.strings, FieldText host params p ∨ Whole p

section Strings
variable {host : Host} {env : Env} {params : Params}

theorem fieldText_or_whole {key : String} {p : CString} (text : fieldText host params key = .ok p)
    (known : key ∈ ["subsid", "user", "pass", "owner", "name", "desc", "url"]) :
    FieldText host params p ∨ Whole p := by
  unfold fieldText CodePage.narrowInto at text
  split at text
  · rename_i s found
    dsimp only at text
    by_cases room : (host.page.narrow 0 s).length ≤ 256
    · simp only [if_pos room] at text
      split at text
      · cases text
      · rename_i notFull
        obtain rfl := Except.ok.inj text
        exact .inl ⟨key, known, s, found, rfl, by omega⟩
    · simp only [if_neg room] at text
      obtain rfl := Except.ok.inj text
      exact .inr (by decide)
  · cases text

theorem query_known (q : Query) :
    ∀ key ∈ q.texts.map Prod.fst, key ∈ ["subsid", "user", "pass", "owner", "name", "desc", "url"] := by
  cases q <;> simp [Query.texts]

theorem update_known (u : Update) :
    ∀ key ∈ u.texts.map Prod.fst, key ∈ ["subsid", "user", "pass", "owner", "name", "desc", "url"] := by
  cases u <;> simp [Update.texts]

theorem Held.strings {texts : List (String × CString)} (held : Held host params texts)
    (known : ∀ key ∈ texts.map Prod.fst, key ∈ ["subsid", "user", "pass", "owner", "name", "desc", "url"]) :
    ∀ p ∈ texts.map Prod.snd, FieldText host params p ∨ Whole p := by
  intro p among
  obtain ⟨x, member, rfl⟩ := List.mem_map.mp among
  exact fieldText_or_whole (held x member) (known x.1 (List.mem_map_of_mem member))

theorem query_strings (q : Query) (held : Held host params q.texts) :
    ∀ p ∈ q.template.strings, FieldText host params p ∨ Whole p := by
  cases q with
  | subscription hashId => exact held.strings (query_known _)
  | user username password => exact held.strings (query_known _)
  | owner username => exact held.strings (query_known _)
  | modelDescQuoted id => exact List.forall_mem_singleton.mpr (.inr (plain_decimal id).whole)
  | advertisementQuoted id => exact List.forall_mem_singleton.mpr (.inr (plain_decimal id).whole)
  | _ => exact fun p among => absurd among List.not_mem_nil

theorem update_strings (u : Update) (held : Held host params u.texts) (own : OwnRow env u) :
    ∀ p ∈ u.template.strings, FieldText host params p ∨ Whole p := by
  cases u with
  | fileAddress filePathName base64FilePathName size => exact fun p among => .inr (whole_ownRow own p among)
  | modelDesc pcFileId mobileFileId name desc => exact held.strings (update_known _)
  | advertisement filePathName ownerId adUrl =>
    obtain rfl : filePathName = adFileName env := own
    exact List.forall_mem_cons.mpr ⟨.inr plain_adFileName.whole, held.strings (update_known _)⟩
  | subscription ownerId modelId adId hashId =>
    have plain : Plain hashId := own
    exact List.forall_mem_cons.mpr ⟨.inr (plain_decimal adId).whole, List.forall_mem_singleton.mpr (.inr plain.whole)⟩

end Strings

theorem covers_fromFields (host : Host) (env : Env) (params : Params) :
    Covers host env params (FromFields host params) where
  connect := by rintro t ⟨⟩
  query := by
    rintro q held t ⟨⟩
    exact ⟨query_clean q, query_strings q held⟩
  hash := by
    rintro szHash plain t ⟨⟩
    exact ⟨query_clean _, List.forall_mem_singleton.mpr (.inr plain.whole)⟩
  update := by
    rintro u held own t ⟨⟩
    exact ⟨update_clean u, update_strings u held own⟩
  read := by rintro path t ⟨⟩
  model := by rintro data t ⟨⟩
  ad := by rintro data t ⟨⟩
  saved := by rintro path data t ⟨⟩

/-! ### Literals -/

/-- No NUL and no quote, and each backslash stands before `%` or `_`. -/
def Quotable (p : CString) : Prop :=
  0 ∉ p ∧ quote ∉ p ∧ ∀ i, p[i]? = some backslash → p[i + 1]? = some 37 ∨ p[i + 1]? = some 95

theorem quotable_iff (p : CString) : Quotable p ↔ Whole p := by
  rw [Quotable, Whole, Sql.safe_iff]

/-- The text of a statement has the tokens it has for `a`, and its literals are its strings. -/
def StaysLiteral (t : Template) : Prop :=
  ∃ ts us, tokens t.text = some ts ∧ tokens t.ofA.text = some us ∧
    ts.map Token.shape = us.map Token.shape ∧ literals ts = t.strings

/-- The user check finds owners with the user name and the password, as MySQL compares them. -/
def ChecksUser (mysql : MySQL) (username password : CString) : Prop :=
  ∀ db lastInsertId rows, mysql.executeQuery (.user username password) db lastInsertId = some rows →
    ∀ o ∈ rows, o ∈ db.owners.rows ∧ mysql.collation.same o.username username = true ∧
      o.password.any (mysql.collation.same · password) = true

theorem checksUser {username password : CString} (mysql : MySQL) (user : Whole username)
    (pass : Whole password) : ChecksUser mysql username password := by
  intro db lastInsertId rows found o member
  have intact : (Query.user username password).template.Intact := by
    apply (Sql.Template.intact_iff (query_clean _)).mpr
    exact List.forall_mem_cons.mpr ⟨user, List.forall_mem_singleton.mpr pass⟩
  rw [MySQL.executeQuery, if_pos intact] at found
  cases found
  obtain ⟨inTable, matches_⟩ := List.mem_filter.mp member
  exact ⟨inTable, by simpa using matches_⟩

def handlers (host : Host) (env : Env) (params : Params) (reply : Reply) : List (Program Reply) :=
  [onGetModel host env params reply, onGetAd host env params reply, onGetInfo host env params reply,
    onUploadModel host env params reply, onUploadAd host env params reply,
    onCreateSubscription host env params reply]

/-- Whatever its calls return, a statement that a handler sends stays as it was meant exactly when the
texts of the fields in it have no NUL, no quote, and no backslash but before `%` and `_`. -/
theorem strings_stay_literals (host : Host) (env : Env) (params : Params) (reply : Reply) :
    (∀ p ∈ handlers host env params reply, p.Within fun c => ∀ t, c.template? = some t →
      (StaysLiteral t ↔ ∀ s ∈ t.strings, FieldText host params s → Quotable s)) ∧
    ∀ username password, Quotable username → Quotable password → ChecksUser host.mysql username password := by
  simp only [quotable_iff]
  refine ⟨fun p member => ?_, fun username password => checksUser host.mysql⟩
  have covers := covers_fromFields host env params
  have sent : p.Within (FromFields host params) := by
    simp only [handlers, List.mem_cons, List.not_mem_nil, or_false] at member
    rcases member with rfl | rfl | rfl | rfl | rfl | rfl
    · exact onGetModel_within host env params reply covers.toSends
    · exact onGetAd_within host env params reply covers.toSends
    · exact onGetInfo_within host env params reply covers.toSends
    · exact onUploadModel_within host env params reply covers.toStores
    · exact onUploadAd_within host env params reply covers.toStores
    · exact onCreateSubscription_within host env params reply covers.toStores
  apply sent.mono
  intro c fromFields t same
  obtain ⟨clean, strings⟩ := fromFields t same
  rw [StaysLiteral, ← Sql.Template.intact_iff_structure clean, Sql.Template.intact_iff clean]
  refine forall₂_congr fun s member => ⟨fun whole _ => whole, fun whole => ?_⟩
  exact (strings s member).elim whole id

def anyPassword : CString := ascii "' OR 'a'='a"

/-- The user check with it is sent, and it is not the check that was meant. -/
theorem password_leaves_literal :
    ¬ (onUploadModel Small.host Small.env [Small.field "user" "u", Small.field "pass" "' OR 'a'='a"]
      .initial).Within fun c => ∀ t, c.template? = some t → StaysLiteral t := by
  intro stays
  have meant : StaysLiteral (Query.user (ascii "u") anyPassword).template := (stays.2 ()).1 _ rfl
  rw [StaysLiteral, ← Sql.Template.intact_iff_structure (query_clean _)] at meant
  revert meant
  decide +kernel

end ModelPublish.Server
