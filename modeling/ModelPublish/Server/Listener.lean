import ModelPublish.Server.Handlers

/-!
# HandleGet and HandlePost

What the listener does with a request, and how the server goes on from one request to the next.
-/

namespace ModelPublish.Server

/-- What `extract_json` comes to: a value, a `json_exception` or an `http_exception`. -/
inductive Body where
  | json (value : Json)
  | malformed
  | unreadable

structure HttpRequest where
  path : WString
  query : WString
  body : Body

def modelApiMagic : WString := wide "tfzfepg"

/-- `uri::decode`. -/
def decodeUri (host : Host) (s : WString) : Program WString :=
  match host.uri.decode s with
  | none => .stop .uriException
  | some s => pure s

/-- The query has `magic` with the value `MODEL_API_MAGIC`. -/
def HasMagic (query_comps : List (WString × WString)) : Prop :=
  query_comps.lookup (wide "magic") = some modelApiMagic

instance (query_comps : List (WString × WString)) : Decidable (HasMagic query_comps) :=
  inferInstanceAs (Decidable (_ = _))

/-- `jsonParams2` from the query. -/
def queryParams (query_comps : List (WString × WString)) : Params :=
  [wide "subsid", wide "clientid"].filterMap fun key =>
    (query_comps.lookup key).map fun value => (key, .string value)

/-- `has_field`, and the field. -/
def Json.field? : Json → WString → Option Json
  | .object fields, key => fields.lookup key
  | _, _ => none

/-- `jsonParams2` from the body. -/
def bodyParams (jsonBody : Json) (keys : List String) : Params :=
  keys.filterMap fun key => (jsonBody.field? (wide key)).map fun value => (wide key, value)

def invalidRequest : Reply := Reply.initial.outcome "Invalid request format!" .unknownClient .badRequest

def badMethod : Reply := Reply.initial.outcome "Bad method name!" .unknownMethod .badRequest

def handleGet (host : Host) (env : Env) (request : HttpRequest) : Program Reply := do
  let path ← decodeUri host request.path
  let query ← decodeUri host request.query
  let query_comps := host.uri.splitQuery query
  match (host.uri.splitPath path).getLast? with
  | none => pure invalidRequest
  | some strMethod =>
    if ¬ HasMagic query_comps then
      pure (Reply.initial.outcome "Request from unknown client!" .unknownClient .badRequest)
    else if strMethod = wide "get" then onGetModel host env (queryParams query_comps) .initial
    else if strMethod = wide "getad" then onGetAd host env (queryParams query_comps) .initial
    else if strMethod = wide "getinfo" then onGetInfo host env (queryParams query_comps) .initial
    else pure badMethod

/-- The `http_exception` of a body that cannot be read is the only one, and caught before `answer` is set. -/
def handlePost (host : Host) (env : Env) (request : HttpRequest) : Program Reply := do
  let path ← decodeUri host request.path
  let _ ← decodeUri host request.query
  match request.body with
  | .unreadable => pure .initial
  | .malformed => .stop .jsonException
  | .json jsonBody =>
    match (host.uri.splitPath path).getLast? with
    | none => pure invalidRequest
    | some strMethod =>
      if strMethod = wide "upload_model" then
        onUploadModel host env (bodyParams jsonBody ["model", "user", "pass", "name", "desc"]) .initial
      else if strMethod = wide "upload_ad" then
        onUploadAd host env (bodyParams jsonBody ["ad", "user", "pass", "url"]) .initial
      else if strMethod = wide "create_subs" then
        onCreateSubscription host env (bodyParams jsonBody ["model_id", "ad_id", "owner", "user", "pass"])
          .initial
      else pure badMethod

inductive Method where
  | get
  | post
  deriving DecidableEq

def handle (host : Host) (env : Env) (request : HttpRequest) : Method → Program Reply
  | .get => handleGet host env request
  | .post => handlePost host env request

/-- A program on a connection of its own. What comes out of it is what is given to `request.reply`. -/
def runAlone (host : Host) (env : Env) {α : Type} (p : Program α) (w : World host.mysql.collation) :
    Except Stop α × World host.mysql.collation :=
  let (result, _, w) := p.run (exec host env) (.opened, w)
  (result, w)

def serve (host : Host) (env : Env) (method : Method) (request : HttpRequest)
    (w : World host.mysql.collation) : Except Stop Reply × World host.mysql.collation :=
  runAlone host env (handle host env request method) w

/-- A request that comes to the server. -/
structure Turn where
  env : Env
  method : Method
  request : HttpRequest

def turn (host : Host) (t : Turn) (w : World host.mysql.collation) : World host.mysql.collation :=
  (serve host t.env t.method t.request w).2

theorem runAlone_ends {host : Host} {env : Env} {α : Type} {p : Program α} {Q : α → Prop} (h : p.Ends Q)
    {w : World host.mysql.collation} {a : α} (ran : (runAlone host env p w).1 = .ok a) : Q a := by
  unfold runAlone at ran
  rcases result : p.run (exec host env) (.opened, w) with ⟨_ | b, s⟩
  · rw [result] at ran
    cases ran
  · rw [result] at ran
    cases ran
    exact h.run result

/-! ### A small server

For short Base64 texts, which are not broken into lines, and for URIs without escapes.
-/

namespace Small

def page : CodePage where
  narrow d s := s.map fun c => if c < 256 then c.toUInt8 else d
  widen := widened
  narrow_ascii := by
    intro d p _
    have small : ∀ c : UInt8, c.toUInt16 < 256 := by
      intro c
      rw [UInt16.lt_iff_toNat_lt, UInt8.toNat_toUInt16]
      exact c.toNat_lt
    simp [widened, Function.comp_def, small]
  widen_ascii _ _ := rfl

def digit (n : Nat) : UInt8 :=
  (if n < 26 then n + 65 else if n < 52 then n + 71 else if n < 62 then n - 4 else if n = 62 then 43 else 47).toUInt8

def encode : List UInt8 → CString
  | a :: b :: c :: rest =>
    let n := a.toNat * 65536 + b.toNat * 256 + c.toNat
    digit (n / 262144) :: digit (n / 4096 % 64) :: digit (n / 64 % 64) :: digit (n % 64) :: encode rest
  | [a, b] =>
    let n := a.toNat * 65536 + b.toNat * 256
    [digit (n / 262144), digit (n / 4096 % 64), digit (n / 64 % 64), 61]
  | [a] => [digit (a.toNat / 4), digit (a.toNat % 4 * 16), 61, 61]
  | [] => []

def value (c : UInt8) : Option Nat :=
  if 65 ≤ c ∧ c ≤ 90 then some (c.toNat - 65)
  else if 97 ≤ c ∧ c ≤ 122 then some (c.toNat - 71)
  else if 48 ≤ c ∧ c ≤ 57 then some (c.toNat + 4)
  else if c = 43 then some 62
  else if c = 47 then some 63
  else none

def join : List Nat → List UInt8
  | a :: b :: c :: d :: rest =>
    let n := a * 262144 + b * 4096 + c * 64 + d
    (n / 65536).toUInt8 :: (n / 256 % 256).toUInt8 :: (n % 256).toUInt8 :: join rest
  | [a, b, c] =>
    let n := a * 262144 + b * 4096 + c * 64
    [(n / 65536).toUInt8, (n / 256 % 256).toUInt8]
  | [a, b] => [(a * 4 + b / 16).toUInt8]
  | _ => []

def base64 : Base64 where
  encode := encode
  decode text := join ((text.takeWhile (· ≠ 0)).filterMap value)
  requiredLength n :=
    let chars := 4 * n / 3 + n % 3
    let padded := if chars % 76 % 4 = 0 then chars else chars + (4 - chars % 76 % 4)
    padded + 2 * (chars / 76 + 1)

def uri : Uri where
  decode := some
  splitPath s := (s.splitOn 47).filter (· ≠ [])
  splitQuery s := (s.splitOn 38).filterMap fun pair =>
    match pair.splitOn 61 with
    | [key, value] => some (key, value)
    | _ => none

def mysql : MySQL where
  collation :=
    { same := fun p q => decide (p = q)
      fits := fun n p => decide (p.length ≤ n)
      refl := by simp
      symm := by simp [eq_comm]
      trans := by
        intro p q r first second
        simp_all
      fits_ascii := by
        intro n p short _
        simpa using short }
  otherResult _ _ := none
  otherChange _ _ := none
  other_keeps := by
    intro u db changed h
    cases h

def host : Host where
  page := page
  base64 := base64
  uri := uri
  mysql := mysql
  m_szServerRootFolder := ascii "C:/"
  rand _ k := k

def uuid : Uuid where
  chars := List.replicate 36 97
  length := rfl
  plain c member := by
    rw [List.eq_of_mem_replicate member]
    decide

def env : Env := ⟨true, fun _ => false, .whole, uuid, 0, fun _ => 0, 1⟩

def empty {α : Type} (id : α → Int) : Table α id := ⟨[], 1, List.nodup_nil, by simp, by decide⟩

theorem next_counts : (0 : Int) < 2 := by decide

/-- One owner, and nothing published yet. -/
def database : Database mysql.collation where
  files := empty _
  ads := empty _
  models := empty _
  owners := ⟨[⟨1, ascii "u", some (ascii "p")⟩], 2, by decide, by decide, next_counts⟩
  subscriptions := empty _
  modelFiles := by simp [empty]
  references := by simp [empty]
  unique := List.Pairwise.nil

def world : World mysql.collation := ⟨database, fun _ => none⟩

/-- One of everything but subscriptions. -/
def published : Database mysql.collation where
  files := ⟨[⟨1, ascii "f.3dscan", ascii "f.3dscan.base64", 3⟩], 2, by decide, by decide, next_counts⟩
  ads := ⟨[⟨1, 1, ascii "a.png", ascii "url"⟩], 2, by decide, by decide, next_counts⟩
  models := ⟨[⟨1, some 1, some 1, ascii "n", ascii "d"⟩], 2, by decide, by decide, next_counts⟩
  owners := ⟨[⟨1, ascii "u", some (ascii "p")⟩], 2, by decide, by decide, next_counts⟩
  subscriptions := empty _
  modelFiles := by decide
  references := by simp [empty]
  unique := List.Pairwise.nil

def field (key value : String) : WString × Json := (wide key, .string (wide value))

def upload : List (WString × Json) :=
  [field "model" "AAAA", field "user" "u", field "pass" "p", field "name" "n", field "desc" "d"]

def uploadedAd : List (WString × Json) :=
  [field "ad" "AAAA", field "user" "u", field "pass" "p", field "url" "x"]

def subscription (adId : Int) : List (WString × Json) :=
  [(wide "model_id", .number 1), (wide "ad_id", .number adId), field "owner" "u", field "user" "u",
    field "pass" "p"]

def publish : List Turn :=
  [⟨env, .post, ⟨wide "/upload_model", [], .json (.object upload)⟩⟩,
    ⟨env, .post, ⟨wide "/upload_ad", [], .json (.object uploadedAd)⟩⟩,
    ⟨env, .post, ⟨wide "/create_subs", [], .json (.object (subscription 1))⟩⟩]

end Small

end ModelPublish.Server
