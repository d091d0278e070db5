import ModelPublish.Client.Link

/-!
# What arrives of a subscription id

The viewer takes the id of a link as it stands there, and encodes it again. The server decodes it once.
-/

namespace ModelPublish.Client
open Server Rest

/-! ### Values in a query -/

/-- The value of a parameter that no other one can come out of. -/
def Value (t : WString) : Prop :=
  ∀ c ∈ t, c < 128 ∧ isQueryCharacter c = true ∧ c ≠ 38 ∧ c ≠ 59 ∧ c ≠ 61

/-- The parameters of the viewer. -/
def query (x : WString) : WString := wide "subsid=" ++ x ++ wide "&magic=tfzfepg"

/-- The client sends them twice. -/
def sentQuery (x : WString) : WString := query x ++ ([38] ++ query x)

theorem Value.ascii {t : WString} (value : Value t) : ∀ c ∈ t, c < 128 := fun c member => (value c member).1

/-- A value stays one when more of it is escaped. -/
theorem Value.encode {t : WString} (value : Value t) (escaped : UInt8 → Bool) :
    Value (Percent.encode escaped (Percent.narrow t)) := by
  refine Percent.forall_encode (by decide) (by decide) ?_
  intro ch member _
  exact value ch.toUInt16 (Percent.narrow_ascii value.ascii member).2

theorem query_legal {x : WString} (value : Value x) : ∀ c ∈ query x, c < 128 ∧ isQueryCharacter c = true := by
  have key : (wide "subsid=").all (fun c => c < 128 && isQueryCharacter c) = true := by decide
  have magic : (wide "&magic=tfzfepg").all (fun c => c < 128 && isQueryCharacter c) = true := by decide
  intro c member
  rcases List.mem_append.mp member with front | behind
  · rcases List.mem_append.mp front with front | inside
    · simpa using List.all_eq_true.mp key c front
    · exact ⟨(value c inside).1, (value c inside).2.1⟩
  · simpa using List.all_eq_true.mp magic c behind

theorem sentQuery_legal {x : WString} (value : Value x) : ∀ c ∈ sentQuery x, c < 128 ∧ isQueryCharacter c = true := by
  intro c member
  rcases List.mem_append.mp member with front | behind
  · exact query_legal value c front
  · rcases List.mem_cons.mp behind with rfl | behind
    · decide
    · exact query_legal value c behind

section Coding
variable {t : WString} {escaped : UInt8 → Bool}

/-- The value comes out of the query, and the rest of the query is as it was. -/
theorem decode_query (value : Value t) (sign : escaped 37 = true) (s : WString) :
    Percent.decode (query (Percent.encode escaped (Percent.narrow t)) ++ s) =
      (Percent.decode s).map fun raw => Percent.narrow (query t) ++ raw := by
  have key : (wide "subsid=").all (fun c => c != Percent.percent && c < 128) = true := by decide
  have magic : (wide "&magic=tfzfepg").all (fun c => c != Percent.percent && c < 128) = true := by decide
  simp only [query, List.append_assoc]
  rw [Percent.decode_plain_append (by simpa using key),
    Percent.decode_encode_append sign fun ch member => (Percent.narrow_ascii value.ascii member).1,
    Percent.decode_plain_append (by simpa using magic), Option.map_map, Option.map_map]
  simp [Function.comp_def]

theorem decode_sentQuery (value : Value t) (sign : escaped 37 = true) :
    Percent.decode (sentQuery (Percent.encode escaped (Percent.narrow t))) = some (Percent.narrow (sentQuery t)) := by
  have second := decode_query value sign []
  rw [List.append_nil] at second
  rw [sentQuery, decode_query value sign, List.singleton_append, Percent.decode_plain (by decide) (by decide), second]
  simp [sentQuery, Percent.decode]
  rfl

theorem decode_ascii {s u : WString} (decoded : Percent.decode s = some (Percent.narrow u)) (ascii : ∀ c ∈ u, c < 128) :
    Rest.decode s = some u := by
  rw [Rest.decode, decoded]
  exact Percent.ofUtf8_narrow ascii

theorem decode_plain {s : WString} (plain : s.all (fun c => c != Percent.percent && c < 128) = true) :
    Rest.decode s = some s := by
  have each : ∀ c ∈ s, c ≠ Percent.percent ∧ c < 128 := by simpa using plain
  have decoded := Percent.decode_plain_append each []
  rw [List.append_nil] at decoded
  refine decode_ascii ?_ fun c member => (each c member).2
  simpa [Percent.decode] using decoded

/-- Encoding the decoded URI again escapes the same characters. -/
theorem encodeUri_sentQuery (value : Value t) {path : WString} (ascii : ∀ c ∈ path, c < 128)
    (plain : ∀ c ∈ path, shouldEncodeUri c.toUInt8 = false) :
    encodeUri (path ++ 63 :: sentQuery t) =
      some (path ++ 63 :: sentQuery (Percent.encode shouldEncodeUri (Percent.narrow t))) := by
  have whole : ∀ c ∈ path ++ 63 :: sentQuery t, c < 128 := by
    intro c member
    rcases List.mem_append.mp member with front | behind
    · exact ascii c front
    · rcases List.mem_cons.mp behind with rfl | behind
      · decide
      · exact (sentQuery_legal value c behind).1
  have key : Percent.encode shouldEncodeUri (Percent.narrow (wide "subsid=")) = wide "subsid=" := by decide
  have magic : Percent.encode shouldEncodeUri (Percent.narrow (wide "&magic=tfzfepg")) = wide "&magic=tfzfepg" := by
    decide
  have front := Percent.encode_narrow ascii plain
  have ampersand : Percent.encode shouldEncodeUri (Percent.narrow [38]) = [38] := by decide
  have mark : Percent.encode shouldEncodeUri (Percent.narrow [63]) = [63] := by decide
  rw [encodeUri, Percent.toUtf8_ascii whole, Option.map_some, ← List.singleton_append]
  simp only [sentQuery, query, Percent.narrow_append, Percent.encode_append, front, key, magic, ampersand, mark]
  rfl

/-- The id and the magic, whatever the value. -/
theorem splitQuery_sentQuery (value : Value t) :
    splitQuery (sentQuery t) =
      [(wide "magic", modelApiMagic), (wide "subsid", t), (wide "magic", modelApiMagic), (wide "subsid", t)] := by
  have joined : sentQuery t = [38].intercalate
      ([wide "subsid=" ++ t, wide "magic=tfzfepg", wide "subsid=" ++ t] ++ [wide "magic=tfzfepg"]) := by
    simp [sentQuery, query, List.intercalate, wide]
  have plain : 38 ∉ wide "subsid=" ++ t := by
    intro member
    rcases List.mem_append.mp member with key | inside
    · exact absurd key (by decide)
    · exact (value 38 inside).2.2.1 rfl
  have free : ∀ pair ∈ [wide "subsid=" ++ t, wide "magic=tfzfepg", wide "subsid=" ++ t], 38 ∉ pair := by
    simp only [List.mem_cons, List.not_mem_nil, or_false, forall_eq_or_imp, forall_eq]
    exact ⟨plain, by decide, plain⟩
  have id := keyValue_eq (wide "subsid") (by decide) t
  have magic : keyValue (wide "magic=tfzfepg") = some (wide "magic", modelApiMagic) := by decide
  have split : wide "subsid=" ++ t = wide "subsid" ++ 61 :: t := by simp [wide]
  rw [splitQuery, joined, pairs_intercalate free ⟨by decide, by decide⟩, split]
  simp [id, magic]

end Coding

/-! ### The URL of the viewer -/

def apiPath (api : Api) : WString := servicePath ++ api.name

/-- The path of the viewer, of the client and of the listener. -/
def paths (api : Api) : List WString := [apiPath api, apiPath api ++ apiPath api, api.name ++ apiPath api]

theorem paths_stand (api : Api) : (paths api).all (fun path => path.all isPathCharacter &&
    (path.dropWhile fun c => c != 58 && c != 47).head? == some 47 && !(wide "//").isPrefixOf path) = true := by
  cases api <;> decide

theorem paths_plain {api : Api} {path : WString} (among : path ∈ paths api) :
    ∀ c ∈ path, c ≠ Percent.percent ∧ c < 128 ∧ shouldEncodeUri c.toUInt8 = false := by
  have plain : (paths api).all (fun path => path.all fun c =>
      c != Percent.percent && c < 128 && !shouldEncodeUri c.toUInt8) = true := by
    cases api <;> decide
  simpa [and_assoc] using List.all_eq_true.mp plain path among

theorem resource_path {api : Api} {path x : WString} (among : path ∈ paths api)
    (legal : ∀ c ∈ x, isQueryCharacter c = true) (some_char : x ≠ []) : Resource path x := by
  have stands := List.all_eq_true.mp (paths_stand api) path among
  simp only [Bool.and_eq_true, beq_iff_eq, Bool.not_eq_true', List.all_eq_true] at stands
  refine ⟨stands.1.1, legal, stands.1.2, ?_, some_char⟩
  intro rest same
  have two : (wide "//").isPrefixOf (47 :: 47 :: rest) = true := rfl
  rw [same, two] at stands
  cases stands.2

/-- The URI that the viewer builds. -/
def built (original : Components) (t : WString) (api : Api) : Components :=
  { scheme := wide "http"
    host := original.host
    port := original.port
    path := apiPath api
    query := query (encodeQueryImpl (Percent.narrow t)) }

section Url
variable {scanString : WString → Int} {original : Components} {t : WString} {api : Api}

theorem query_ne_nil (x : WString) : query x ≠ [] := by simp [query, wide]

theorem serviceUrl_eq (value : Value t) :
    serviceUrl scanString original t api = ((built original t api).toUri scanString).map Components.text := by
  have idAscii : (wide "subsid").all (· < 128) = true := by decide
  have magicAscii : (wide "magic").all (· < 128) = true := by decide
  have apiAscii : modelApiMagic.all (· < 128) = true := by decide
  have id : encodeQueryImpl (Percent.narrow (wide "subsid")) = wide "subsid" := by decide
  have magic : encodeQueryImpl (Percent.narrow (wide "magic")) ++ wide "=" ++
      encodeQueryImpl (Percent.narrow modelApiMagic) = wide "magic=tfzfepg" := by decide
  have path : Components.appendPath
      { scheme := wide "http", host := original.host, port := original.port, path := servicePath } api.name =
      { scheme := wide "http", host := original.host, port := original.port, path := apiPath api } := by
    cases api <;> rfl
  have first : wide "subsid" ++ wide "=" ++ encodeQueryImpl (Percent.narrow t) ≠ [] := by simp [wide]
  have last : (wide "subsid" ++ wide "=" ++ encodeQueryImpl (Percent.narrow t)).getLast? ≠ some 38 := by
    intro ends
    rcases List.mem_append.mp (List.mem_of_getLast? ends) with key | inside
    · exact absurd key (by decide)
    · exact (value.encode shouldEncodeQuery 38 inside).2.2.1 rfl
  have joined := adjoin_apart last (show (wide "magic=tfzfepg").head? ≠ some 38 by decide)
  simp only [serviceUrl, path, Components.appendQueryPair_ascii _ (by simpa using idAscii) value.ascii,
    Components.appendQueryPair_ascii _ (by simpa using magicAscii) (by simpa using apiAscii), id, magic,
    Option.bind_eq_bind, Option.bind_some, Components.appendQuery, if_neg first, if_true]
  rw [if_neg (by decide), joined, Option.map_eq_bind]
  simp [built, query, wide]

theorem ofServer_built {s : WString} (read : ofString scanString s = some original) (host : original.host ≠ [])
    (value : Value t) : OfServer (built original t api) where
  scheme := rfl
  host := host
  lower := (host_legal read).2
  legal := by
    intro ch member
    rw [Components.authority, if_pos (by rfl), List.nil_append] at member
    exact address_legal (host_legal read).1 _ ch member
  resource := by
    have own : apiPath api ∈ paths api := List.mem_cons_self
    exact resource_path own (fun c member => (query_legal (value.encode shouldEncodeQuery) c member).2) (query_ne_nil _)
  rooted := by cases api <;> rfl
  fragment := rfl

/-- A URI that is its own base is appended to itself. -/
theorem append_self (c : Components) {x : WString} (path : c.path = apiPath api) (sent : c.query = query x)
    (none : c.fragment = []) :
    c.append { path := apiPath api, query := query x } =
      { c with path := apiPath api ++ apiPath api, query := sentQuery x } := by
  have somePath : ¬ (apiPath api = [] ∨ apiPath api = wide "/") := by cases api <;> decide
  have both : adjoin 47 (apiPath api) (apiPath api) = apiPath api ++ apiPath api := by cases api <;> decide
  have ends : (wide "&magic=tfzfepg").getLast? = some 103 := by decide
  have last : (query x).getLast? ≠ some 38 := by
    rw [query, List.getLast?_append, ends, Option.some_or]
    decide
  have head : (query x).head? ≠ some 38 := by simp [query, wide]
  rw [Components.append, Components.appendPath, if_neg somePath, path, if_neg somePath, Components.appendQuery,
    if_neg (query_ne_nil x)]
  simp only [sent, if_neg (query_ne_nil x), both, adjoin_apart last head, none]
  rfl

theorem requestLine_built (server : OfServer (built original t api)) (value : Value t)
    (named : (readAuthority scanString (built original t api).authority).host ≠ []) :
    requestLine scanString (built original t api).text =
      some (apiPath api ++ apiPath api ++ 63 :: sentQuery (encodeQueryImpl (Percent.narrow t))) := by
  have reread := server.reread named
  have encoded := value.encode shouldEncodeQuery
  have once : Resource (apiPath api) (query (encodeQueryImpl (Percent.narrow t))) := server.resource
  have twice : Resource (apiPath api ++ apiPath api) (sentQuery (encodeQueryImpl (Percent.narrow t))) := by
    have doubled : apiPath api ++ apiPath api ∈ paths api := by simp [paths]
    refine resource_path doubled (fun c member => (sentQuery_legal encoded c member).2) ?_
    simp [sentQuery]
  have rooted : (apiPath api ++ apiPath api).head? = some 47 := by cases api <;> rfl
  have full := reread.moved twice rooted
  have some_scheme : ((built original t api).reread scanString).scheme ≠ [] := by
    rw [reread.scheme]
    decide
  simp only [requestLine, server.ofString scanString, Option.bind_eq_bind, Option.bind_some]
  rw [if_neg some_scheme, if_neg (by simp [reread.scheme, reread.host]),
    once.of_components scanString rfl rfl rfl, Option.bind_some, append_self _ rfl rfl rfl, full.toUri scanString,
    Option.bind_some, twice.of_components scanString rfl rfl rfl, Option.bind_some, twice.text]

/-- What the listener decodes, the value as it was in the link. -/
theorem decode_sent (value : Value t) {path : WString} (among : path ∈ paths api) :
    Rest.decode (path ++ 63 :: sentQuery (encodeQueryImpl (Percent.narrow t))) = some (path ++ 63 :: sentQuery t) := by
  refine decode_ascii ?_ ?_
  · rw [Percent.decode_plain_append fun c member => ⟨(paths_plain among c member).1, (paths_plain among c member).2.1⟩,
      Percent.decode_plain (by decide) (by decide), encodeQueryImpl, decode_sentQuery value (by decide)]
    simp
    rfl
  · intro c member
    rcases List.mem_append.mp member with front | behind
    · exact (paths_plain among c front).2.1
    · rcases List.mem_cons.mp behind with rfl | behind
      · decide
      · exact (sentQuery_legal value c behind).1

/-- The listener decodes and encodes what the client has sent. -/
theorem relativeUri_sent (value : Value t) :
    relativeUri scanString servicePath
        (apiPath api ++ apiPath api ++ 63 :: sentQuery (encodeQueryImpl (Percent.narrow t))) =
      some { port := 0, path := api.name ++ apiPath api,
             query := sentQuery (Percent.encode shouldEncodeUri (Percent.narrow t)) } := by
  have someQuery : ∀ x, sentQuery x ≠ [] := by simp [sentQuery]
  have whole : apiPath api ++ apiPath api ∈ paths api := by simp [paths]
  have rest : api.name ++ apiPath api ∈ paths api := by simp [paths]
  have sent : Resource (apiPath api ++ apiPath api) (sentQuery (encodeQueryImpl (Percent.narrow t))) :=
    resource_path whole (fun c member => (sentQuery_legal (value.encode shouldEncodeQuery) c member).2) (someQuery _)
  have heard : Resource (api.name ++ apiPath api) (sentQuery (Percent.encode shouldEncodeUri (Percent.narrow t))) :=
    resource_path rest (fun c member => (sentQuery_legal (value.encode shouldEncodeUri) c member).2) (someQuery _)
  have listener : Rest.decode servicePath = some servicePath := decode_plain (by decide)
  have behind : apiPath api ++ apiPath api ++ 63 :: sentQuery t =
      servicePath ++ (api.name ++ apiPath api ++ 63 :: sentQuery t) := by
    simp [apiPath]
  have some_path : servicePath ++ (api.name ++ apiPath api ++ 63 :: sentQuery t) ≠ [] := by simp
  have isPrefix : servicePath.isPrefixOf (servicePath ++ (api.name ++ apiPath api ++ 63 :: sentQuery t)) = true :=
    List.isPrefixOf_iff_prefix.mpr (List.prefix_append _ _)
  have encoded := encodeUri_sentQuery value (fun c member => (paths_plain rest c member).2.1)
    fun c member => (paths_plain rest c member).2.2
  simp only [relativeUri, sent.ofString scanString, Option.bind_eq_bind, Option.bind_some, sent.resource scanString,
    sent.text, decode_sent value whole, listener]
  rw [behind, if_neg some_path, if_pos isPrefix, List.drop_left, encoded, Option.bind_some]
  exact heard.ofString scanString

theorem received_built (server : OfServer (built original t api)) (value : Value t)
    (named : (readAuthority scanString (built original t api).authority).host ≠ []) :
    received scanString (built original t api).text =
      some ⟨api.name ++ apiPath api, sentQuery (Percent.encode shouldEncodeUri (Percent.narrow t)), .unreadable⟩ := by
  simp only [received, requestLine_built server value named, relativeUri_sent value, Option.bind_eq_bind,
    Option.bind_some]

end Url

/-! ### The value that is passed on -/

/-- The handler gets the value, and the query has no other parameter but the magic. -/
structure Passes (api : Api) (request : HttpRequest) (s : WString) : Prop where
  parameters : ∃ query, Rest.decode request.query = some query ∧ ∀ key, (splitQuery query).lookup key =
    if key = wide "subsid" then some s else if key = wide "magic" then some modelApiMagic else none
  passed : ∀ (host : Host) (env : Env), host.uri = Rest.uri →
    handleGet host env request = api.program host env [(wide "subsid", .string s)]

theorem lookup_sentQuery {t : WString} (value : Value t) (key : WString) :
    (splitQuery (sentQuery t)).lookup key =
      if key = wide "subsid" then some t else if key = wide "magic" then some modelApiMagic else none := by
  rw [splitQuery_sentQuery value]
  by_cases id : key = wide "subsid"
  · subst id
    rfl
  by_cases magic : key = wide "magic"
  · subst magic
    rfl
  · have notId : (key == wide "subsid") = false := beq_eq_false_iff_ne.mpr id
    have notMagic : (key == wide "magic") = false := beq_eq_false_iff_ne.mpr magic
    simp only [List.lookup_cons, notId, notMagic, List.lookup_nil, if_neg id, if_neg magic]

theorem decode_received {t : WString} (value : Value t) :
    Rest.decode (sentQuery (Percent.encode shouldEncodeUri (Percent.narrow t))) = some (sentQuery t) :=
  decode_ascii (decode_sentQuery value (by decide)) fun c member => (sentQuery_legal value c member).1

theorem passes_received {t : WString} (value : Value t) (api : Api) (body : Body) :
    Passes api ⟨api.name ++ apiPath api, sentQuery (Percent.encode shouldEncodeUri (Percent.narrow t)), body⟩ t where
  parameters := ⟨sentQuery t, decode_received value, lookup_sentQuery value⟩
  passed := by
    intro host env uri
    have path : Rest.decode (api.name ++ apiPath api) = some (api.name ++ apiPath api) :=
      decode_plain (by cases api <;> decide)
    have method : (splitPath (api.name ++ apiPath api)).getLast? = some api.name := by cases api <;> decide
    have magic : HasMagic (splitQuery (sentQuery t)) := lookup_sentQuery value (wide "magic")
    have params : queryParams (splitQuery (sentQuery t)) = [(wide "subsid", .string t)] := by
      rw [splitQuery_sentQuery value]
      rfl
    simp only [handleGet, decodeUri, uri, Rest.uri, path, decode_received value, Machine.Prog.pure_bind, method, params]
    rw [if_neg (not_not.mpr magic)]
    cases api <;> rfl

/-! ### Links -/

/-- A choice of characters that need no escaping in a value of a query. -/
def Proper (keep : UInt8 → Bool) : Prop :=
  ∀ ch, keep ch = true → isQueryCharacter ch.toUInt16 = true ∧ ch ∉ Percent.narrow (wide "&;=%")

/-- The value as it stands in a link. -/
def encoded (keep : UInt8 → Bool) (raw : List UInt8) : WString := Percent.encode (fun ch => !keep ch) raw

theorem value_encoded {keep : UInt8 → Bool} (proper : Proper keep) (raw : List UInt8) : Value (encoded keep raw) := by
  refine Percent.forall_encode (by decide) (by decide) ?_
  intro ch _ kept
  obtain ⟨legal, apart⟩ := proper ch (by simpa using kept)
  have differs : ∀ d ∈ Percent.narrow (wide "&;=%"), ch ≠ d := fun d member same => apart (same ▸ member)
  refine ⟨Percent.toUInt16_lt (ascii_of_isQueryCharacter legal), legal, ?_, ?_, ?_⟩
  · exact fun same => differs 38 (by decide) (UInt8.toUInt16_inj.mp same)
  · exact fun same => differs 59 (by decide) (UInt8.toUInt16_inj.mp same)
  · exact fun same => differs 61 (by decide) (UInt8.toUInt16_inj.mp same)

/-- The encoded string is the string itself only when nothing of it is escaped. -/
theorem eq_encoded_iff {keep : UInt8 → Bool} (proper : Proper keep) {s : WString} {raw : List UInt8}
    (utf8 : Percent.toUtf8 s = some raw) : s = encoded keep raw ↔ ∀ ch ∈ raw, keep ch = true := by
  have all : (∀ ch ∈ raw, keep ch = true) ↔ encoded keep raw = Percent.widen raw := by
    rw [encoded, Percent.encode_eq_widen_iff]
    simp
  rw [all]
  constructor
  · intro same
    have ascii : ∀ c ∈ s, c < 128 := by
      rw [same]
      exact (value_encoded proper raw).ascii
    have bytes : raw = Percent.narrow s := by
      rw [Percent.toUtf8_ascii ascii] at utf8
      exact (Option.some.inj utf8).symm
    rw [← same, bytes, Percent.widen_narrow ascii]
  · intro plain
    have ascii : ∀ ch ∈ raw, ch < 128 := by
      intro ch member
      have kept := all.mpr plain ch member
      exact ascii_of_isQueryCharacter (proper ch kept).1
    rw [plain]
    exact Percent.eq_widen_of_toUtf8 utf8 ascii

/-- The link as the viewer reads it. -/
abbrev linkUrl (page : CodePage) (link : CString) : WString := page.widen (httpLink link)

/-- A URL has the value of `subsid` in its query. -/
structure Carries (scanString : WString → Int) (url : WString) (original : Components) (t : WString) : Prop where
  read : ofString scanString url = some original
  subsid : (splitQuery original.query).lookup (wide "subsid") = some t

/-- A server is named, also in the address that is made of host and port. -/
def Named (scanString : WString → Int) (original : Components) : Prop :=
  original.host ≠ [] ∧ (readAuthority scanString (address original.host original.port)).host ≠ []

section Servers
variable {scanString : WString → Int} {original : Components} {s t url : WString} {api : Api}

theorem authority_built (original : Components) (t : WString) (api : Api) :
    (built original t api).authority =
      address original.host original.port := by
  rw [Components.authority, if_pos (by rfl)]
  rfl

theorem serviceUrl_server (read : ofString scanString s = some original) (host : original.host ≠ []) (value : Value t) :
    serviceUrl scanString original t api = some (built original t api).text := by
  rw [serviceUrl_eq value, (ofServer_built read host value).toUri scanString]
  rfl

theorem requestLine_none (noHost : ∀ c, ofString scanString url = some c → c.host = []) :
    requestLine scanString url = none := by
  cases read : ofString scanString url with
  | none => simp [requestLine, read]
  | some c =>
    have host := noHost c read
    simp only [requestLine, read, Option.bind_eq_bind, Option.bind_some]
    by_cases scheme : c.scheme = []
    · rw [if_pos scheme]
      cases toUri : Components.toUri scanString { c with scheme := wide "http" } with
      | none => rfl
      | some m_uri =>
        unfold Components.toUri at toUri
        split at toUri
        · cases toUri
          rw [Option.bind_some, if_pos (Or.inr (by simp [Components.canonical, host]))]
        · cases toUri
    · rw [if_neg scheme]
      exact if_pos (Or.inr host)

/-- Without a host the path follows the scheme. -/
theorem host_of_rooted {rest : WString} {c : Components}
    (read : ofString scanString (wide "http:/3" ++ rest) = some c) : c.host = [] := by
  obtain ⟨parsed, parses, rfl⟩ := Option.map_eq_some_iff.mp read
  have front : (wide "http:/3").all (· != 0) = true := by decide
  have text : (wide "http:/3" ++ rest).takeWhile (· != 0) = wide "http:/3" ++ rest.takeWhile (· != 0) :=
    List.takeWhile_append_of_pos (List.all_eq_true.mp front)
  have scheme : readScheme (wide "http:/3" ++ rest.takeWhile (· != 0)) =
      some (wide "http", wide "/3" ++ rest.takeWhile (· != 0)) := rfl
  have server : readServer (wide "/3" ++ rest.takeWhile (· != 0)) =
      some ([], wide "/3" ++ rest.takeWhile (· != 0)) := rfl
  simp only [parse, text, scheme, server, Option.bind_eq_bind, Option.bind_some, Option.bind_eq_some_iff] at parses
  obtain ⟨_, _, same⟩ := parses
  cases same
  rfl

theorem received_unnamed (read : ofString scanString s = some original) (value : Value t)
    (unnamed : ¬ Named scanString original) (sent : serviceUrl scanString original t api = some url) :
    received scanString url = none := by
  have refused : requestLine scanString url = none := by
    apply requestLine_none
    intro c again
    by_cases host : original.host = []
    · rw [serviceUrl_eq value, Components.toUri] at sent
      split at sent
      · cases sent
        have text : (built original t api).canonical.text =
            wide "http:/3" ++ ((apiPath api).drop 2 ++ 63 :: query (encodeQueryImpl (Percent.narrow t))) := by
          have scheme : (wide "http").map toLower = wide "http" := by decide
          have some_scheme : wide "http" ≠ [] := by decide
          simp only [Components.canonical, Components.text, built, host, scheme]
          simp only [List.map_nil, ne_eq, not_true_eq_false, false_and, if_false, if_true, if_neg some_scheme,
            if_neg (query_ne_nil _)]
          cases api <;> simp [apiPath, servicePath, Api.name, wide]
        rw [text] at again
        exact host_of_rooted again
      · cases sent
    · rw [serviceUrl_server read host value] at sent
      cases sent
      rw [(ofServer_built read host value).ofString scanString] at again
      cases again
      have lost : (readAuthority scanString (address original.host original.port)).host = [] := by
        by_contra found
        exact unnamed ⟨host, found⟩
      simp [Components.reread, authority_built, lost]
  rw [received, refused]
  rfl

end Servers

/-- Whatever the cache has, each request passes on the string. -/
def ArrivesAsSent (scanString : WString → Int) (page : CodePage) (link : CString) (s : WString) : Prop :=
  ∀ cached, ∃ urls, load3DScanFromUrl scanString page cached link = some urls ∧
    ∀ sent ∈ urls, ∃ request, received scanString sent.2 = some request ∧ Passes sent.1 request s

section Arrival
variable {scanString : WString → Int} {page : CodePage} {link : CString} {original : Components} {t : WString}

theorem load_short (short : (linkUrl page link).length < 1000)
    (carries : Carries scanString (linkUrl page link) original t) (cached : WString → Cached) :
    load3DScanFromUrl scanString page cached link = (downloads (cached t)).mapM fun api =>
      (serviceUrl scanString original t api).map fun url => (api, url) := by
  have buffer := wideBuffer_ok page (httpLink link) (Nat.ne_of_lt short)
  rw [if_pos short] at buffer
  simp only [load3DScanFromUrl, buffer, Except.toOption, Option.bind_eq_bind, Option.bind_some, carries.read,
    carries.subsid, Option.getD_some]

theorem ofString_nil : ofString scanString [] = some { port := 0 } := rfl

/-- In a buffer that is too small there is an empty URL, when anything is defined. -/
theorem load_long (scanString : WString → Int) (long : 1000 ≤ (linkUrl page link).length) (cached : WString → Cached) :
    load3DScanFromUrl scanString page cached link = none ∨ load3DScanFromUrl scanString page cached link =
      (downloads (cached [])).mapM fun api =>
        (serviceUrl scanString { port := 0 } [] api).map fun url => (api, url) := by
  by_cases full : (linkUrl page link).length = 1000
  · have buffer := wideBuffer_error page (httpLink link) full
    left
    simp only [load3DScanFromUrl, buffer, Except.toOption, Option.bind_eq_bind, Option.bind_none]
  · have buffer := wideBuffer_ok page (httpLink link) full
    have tooLong : ¬ (linkUrl page link).length < 1000 := Nat.not_lt.mpr long
    have empty : ((splitQuery ({ port := 0 } : Components).query).lookup (wide "subsid")).getD [] = [] := rfl
    rw [if_neg tooLong] at buffer
    right
    simp only [load3DScanFromUrl, buffer, Except.toOption, Option.bind_eq_bind, Option.bind_some, ofString_nil, empty]

/-- When nothing is cached, the first request is for the info. -/
theorem first_sent {url : Api → Option WString} {urls : List (Api × WString)}
    (sent : (downloads ⟨false, false⟩).mapM (fun api => (url api).map fun u => (api, u)) = some urls) :
    ∃ u, url .getInfo = some u ∧ (Api.getInfo, u) ∈ urls := by
  have all : downloads ⟨false, false⟩ = [.getInfo, .get, .getAd] := rfl
  rw [all, List.mapM_cons] at sent
  cases first : url .getInfo with
  | none =>
    rw [first] at sent
    cases sent
  | some u =>
    simp only [first, Option.map_some, Option.bind_eq_bind, Option.bind_some, Option.bind_eq_some_iff] at sent
    obtain ⟨rest, _, same⟩ := sent
    cases same
    exact ⟨u, rfl, List.mem_cons_self⟩

theorem arrives_of_short {s : WString} (short : (linkUrl page link).length < 1000)
    (carries : Carries scanString (linkUrl page link) original t) (value : Value t) (named : Named scanString original)
    (same : s = t) : ArrivesAsSent scanString page link s := by
  intro cached
  refine ⟨(downloads (cached t)).map fun api => (api, (built original t api).text), ?_, ?_⟩
  · have url : ∀ api, serviceUrl scanString original t api = some (built original t api).text :=
      fun api => serviceUrl_server carries.read named.1 value
    simp only [load_short short carries, url, Option.map_some]
    exact List.mapM_pure
  · intro sent member
    obtain ⟨api, _, rfl⟩ := List.mem_map.mp member
    have server : OfServer (built original t api) := ofServer_built carries.read named.1 value
    have host := named.2
    rw [← authority_built original t api] at host
    rw [same]
    exact ⟨_, received_built server value host, passes_received value api _⟩

theorem value_of_arrives {s : WString} (carries : Carries scanString (linkUrl page link) original t) (value : Value t)
    (arrives : ArrivesAsSent scanString page link s) :
    (linkUrl page link).length < 1000 ∧ Named scanString original ∧ s = t := by
  obtain ⟨urls, loaded, each⟩ := arrives fun _ => ⟨false, false⟩
  have short : (linkUrl page link).length < 1000 := by
    by_contra long
    rcases load_long scanString (Nat.not_lt.mp long) fun _ => ⟨false, false⟩ with nothing | empty
    · rw [nothing] at loaded
      cases loaded
    · rw [empty] at loaded
      obtain ⟨url, sent, member⟩ := first_sent loaded
      obtain ⟨request, got, _⟩ := each _ member
      have unnamed : ¬ Named scanString { port := 0 } := fun named => named.1 rfl
      have noValue : Value [] := fun c member => absurd member List.not_mem_nil
      rw [received_unnamed ofString_nil noValue unnamed sent] at got
      cases got
  rw [load_short short carries] at loaded
  obtain ⟨url, sent, member⟩ := first_sent loaded
  obtain ⟨request, got, passes⟩ := each _ member
  have named : Named scanString original := by
    by_contra unnamed
    rw [received_unnamed carries.read value unnamed sent] at got
    cases got
  refine ⟨short, named, ?_⟩
  have server : OfServer (built original t .getInfo) := ofServer_built carries.read named.1 value
  have host := named.2
  rw [← authority_built original t .getInfo] at host
  rw [serviceUrl_server carries.read named.1 value] at sent
  cases sent
  rw [received_built server value host] at got
  cases got
  obtain ⟨query, decoded, lookup⟩ := passes.parameters
  rw [decode_received value] at decoded
  cases decoded
  have id := lookup (wide "subsid")
  rw [lookup_sentQuery value, if_pos rfl, if_pos rfl] at id
  exact (Option.some.inj id).symm

end Arrival

/-- The unreserved characters may always be kept. -/
theorem proper_unreserved : Proper fun ch => isUnreserved ch.toUInt16 := by
  have others : (Percent.narrow (wide "&;=%")).all (fun d => !isUnreserved d.toUInt16) = true := by decide
  intro ch kept
  constructor
  · simp [isQueryCharacter, isPathCharacter, show isUnreserved ch.toUInt16 = true from kept]
  · intro member
    have escaped := List.all_eq_true.mp others ch member
    simp only [kept] at escaped
    cases escaped

def noPort : WString → Int := fun _ => 0

def small (query : WString) : Components :=
  { scheme := wide "http", host := wide "h", port := 0, path := wide "/get", query := query }

end ModelPublish.Client
