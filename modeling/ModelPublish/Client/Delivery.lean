import ModelPublish.Client.Publish

/-!
# From one client to another

A model or an ad that one client uploads, and that a subscription is created for, is what another client
downloads by the id of the subscription, whatever the server has done in between.
-/

namespace ModelPublish.Client
open Machine Server
open Cpprest (setBody)

/-! ### A call, from end to end -/

/-- The handler of a call, and the fields that it is given. -/
def Send.program (host : Host) (env : Env) (params : Params) : Send → Program Reply
  | uploadModel .. => onUploadModel host env params .initial
  | uploadAd .. => onUploadAd host env params .initial
  | createSubscription .. => onCreateSubscription host env params .initial

def Send.keys : Send → List String
  | uploadModel .. => ["model", "user", "pass", "name", "desc"]
  | uploadAd .. => ["ad", "user", "pass", "url"]
  | createSubscription .. => ["model_id", "ad_id", "owner", "user", "pass"]

/-- The path of the request ends in the method of the call. -/
structure Routed (host : Host) (send : Send) (request : HttpRequest) : Prop where
  path : ∃ path, host.uri.decode request.path = some path ∧
    (host.uri.splitPath path).getLast? = some send.method
  query : ∃ query, host.uri.decode request.query = some query

section Calls
variable {D : Type} (rt : Runtime D) (platform : Platform) (host : Host)

/-- The request of a call whose texts come through. -/
structure Posted (send : Send) (request : HttpRequest) : Prop where
  routed : Routed host send request
  body : ∃ leftover pszUrl pszClientId body, bodyOf rt body = some request.body ∧
    requestBody rt platform host.base64 leftover pszUrl pszClientId send = some body ∧
    ∀ fields, send.fields platform.page host.base64 leftover = some fields → ∀ field ∈ fields, Fine (D := D) field.2

/-- The call returns true, and gives this. -/
structure Returned (send : Send) (t : Turn) (w : World host.mysql.collation) (given : Given) : Prop where
  method : t.method = .post
  posted : Posted rt platform host send t.request
  returned : ∃ memory response, respond rt (serve host t.env t.method t.request w).1 = some response ∧
    send.receive platform memory response = .ok (some given)

end Calls

section Calls
variable {D : Type} {rt : Runtime D} {platform : Platform} {host : Host} {send : Send} {request : HttpRequest}

theorem Routed.handlePost (routed : Routed host send request) {jsonBody : Json} (body : request.body = .json jsonBody)
    (env : Env) : handlePost host env request = send.program host env (bodyParams jsonBody send.keys) := by
  obtain ⟨⟨path, path_decoded, last⟩, query, query_decoded⟩ := routed
  rw [Server.handlePost, decodeUri, path_decoded, decodeUri, query_decoded, body]
  simp only [Prog.pure_bind, last]
  cases send <;> rfl

theorem keys_ascii (send : Send) (page : CodePage) (base64 : Base64) (leftover : String → Nat → UInt16)
    {fields : List (WString × Cpprest.Value D)} (sent : send.fields page base64 leftover = some fields) :
    ∀ field ∈ fields, Fit field.1 := by
  have ascii : fields.all (fun field => field.1.all (· < 128)) = true := by
    cases send with
    | uploadModel pszUser pszPass pData pszName pszDesc =>
      obtain ⟨s, -, rfl⟩ := Option.map_eq_some_iff.mp sent
      rfl
    | uploadAd pszUser pszPass pData pszAdUrl =>
      obtain ⟨s, -, rfl⟩ := Option.map_eq_some_iff.mp sent
      rfl
    | createSubscription pszUser pszPass pszOwner iModelId iAdId =>
      obtain rfl := Option.some.inj sent
      rfl
  exact fun field member => fit_of_ascii (Cpprest.ascii_of_all (List.all_eq_true.mp ascii field member))

/-- The handler of the call is run with the fields that the call has sent. -/
theorem Posted.runs (posted : Posted rt platform host send request) :
    ∃ leftover fields, send.fields platform.page host.base64 leftover = some fields ∧ ∃ params,
      (∀ env, handlePost host env request = send.program host env params) ∧
      ∀ key, wide key ∈ send.keys.map wide →
        params.lookup (wide key) = (fields.reverse.lookup (wide key)).map (seen (D := D) rt.truncate) := by
  obtain ⟨routed, leftover, pszUrl, pszClientId, body, read, sent, fine⟩ := posted
  rw [requestBody] at sent
  cases buffer : (wideBuffer platform.page pszClientId).toOption with
  | none =>
    rw [buffer] at sent
    cases sent
  | some szClientID =>
    rw [buffer, Option.bind_eq_bind, Option.bind_some, Option.bind_eq_bind, Option.bind_eq_some_iff] at sent
    obtain ⟨fields, given, sent⟩ := sent
    obtain ⟨body', written, arrives⟩ := @body_arrives _ rt _ fun field member =>
      ⟨keys_ascii send _ _ _ given field member, fine fields given field member⟩
    rw [written, Option.ite_none_right_eq_some] at sent
    rw [← Option.some.inj sent.2, arrives] at read
    refine ⟨leftover, fields, given, _, routed.handlePost (Option.some.inj read).symm, ?_⟩
    intro key among
    rw [lookup_bodyParams, if_pos among, field?_built]

/-- A call that comes as far as its request has posted it. -/
theorem posted_of_fields {path query pszUrl szClientID : WString} {pszClientId : CString}
    {leftover : String → Nat → UInt16} {fields : List (WString × Cpprest.Value D)}
    (routed : Routed host send ⟨path, query, .json (seen rt.truncate (.object (Cpprest.built fields)))⟩)
    (sent : send.fields platform.page host.base64 leftover = some fields) (fine : ∀ field ∈ fields, Fine field.2)
    (accepts : platform.accepts pszUrl = true) (clientId : wideBuffer platform.page pszClientId = .ok szClientID) :
    Posted rt platform host send ⟨path, query, .json (seen rt.truncate (.object (Cpprest.built fields)))⟩ := by
  obtain ⟨body, written, arrives⟩ := @body_arrives _ rt _ fun field member =>
    ⟨keys_ascii send _ _ _ sent field member, fine field member⟩
  refine ⟨routed, leftover, pszUrl, pszClientId, body, arrives, ?_, ?_⟩
  · rw [requestBody, clientId, Except.toOption, Option.bind_eq_bind, Option.bind_some, sent, Option.bind_eq_bind,
      Option.bind_some, if_pos accepts, written]
  · intro others same
    obtain rfl := Option.some.inj (sent.symm.trans same)
    exact fine

/-- A call that returns true has been told what it gives. -/
theorem Returned.told {t : Turn} {w : World host.mysql.collation} {given : Given}
    (returned : Returned rt platform host send t w given) :
    ∃ reply, (serve host t.env .post t.request w).1 = .ok reply ∧ Told host reply ∧ send.told reply = some given := by
  obtain ⟨method, -, memory, response, responded, received⟩ := returned
  rw [method] at responded
  cases result : (serve host t.env .post t.request w).1 with
  | error stop =>
    rw [result] at responded
    rw [respond_error responded, receive_failed] at received
    cases Except.ok.inj received
  | ok reply =>
    rw [result] at responded
    have told : Told host reply := runAlone_ends (handlePost_told host t.env t.request) result
    rw [told.agrees responded send] at received
    exact ⟨reply, rfl, told, Except.ok.inj received⟩

/-- A call returns true when the server says what it asks for. -/
theorem returned_of_told {t : Turn} {w : World host.mysql.collation} {reply : Reply} {given : Given}
    (method : t.method = .post) (posted : Posted rt platform host send t.request)
    (result : (serve host t.env .post t.request w).1 = .ok reply) (told : send.told reply = some given) :
    Returned rt platform host send t w given := by
  have said : Told host reply := runAlone_ends (handlePost_told host t.env t.request) result
  have responded := @respond_legible _ rt _ said.legible
  refine ⟨method, posted, ⟨0, 0⟩, ?_⟩
  rw [method, result]
  exact ⟨_, responded, by rw [said.agrees responded send, told]⟩

end Calls

/-! ### What a call leaves behind -/

/-- What a call uploads. -/
def Send.uploads : Send → Option (Item × List UInt8)
  | uploadModel _ _ pData _ _ => some (.model, pData)
  | uploadAd _ _ pData _ => some (.ad, pData)
  | createSubscription .. => none

/-- An id of an upload that is the one in the reply. -/
theorem id_of_told {host : Host} {reply : Reply} {send : Send} {item : Item} {b : List UInt8} {n : Int}
    (told : Told host reply) (uploads : send.uploads = some (item, b)) (given : send.told reply = some (.inl n)) :
    reply.errorCode = .ok ∧ ∃ m, item.id reply = some m ∧ n = m.bmod (2 ^ 32) := by
  cases send with
  | createSubscription => cases uploads
  | uploadModel =>
    cases uploads
    obtain ⟨m, set, same⟩ := Option.map_eq_some_iff.mp given
    refine ⟨?_, m, set, (Sum.inl.inj same).symm⟩
    cases told with
    | nothing blank => cases blank.bare.modelId.symm.trans set
    | modelId | adId | subscriptionId => rfl
  | uploadAd =>
    cases uploads
    obtain ⟨m, set, same⟩ := Option.map_eq_some_iff.mp given
    refine ⟨?_, m, set, (Sum.inl.inj same).symm⟩
    cases told with
    | nothing blank => cases blank.bare.adId.symm.trans set
    | modelId | adId | subscriptionId => rfl

/-- The ids of uploads are `int`s. -/
theorem Kept.isInt {host : Host} {item : Item} {uuid : Uuid} {n : Int} {b : List UInt8}
    {w : World host.mysql.collation} (kept : Kept host item uuid n b w) (ints : w.db.Ints) : IsInt n := by
  have leads := kept.leads
  cases item with
  | model =>
    obtain ⟨model, file, found, -⟩ := leads
    obtain ⟨member, rfl⟩ := Table.mem_of_find? found
    exact ints.1 model member
  | ad =>
    obtain ⟨ad, found, -⟩ := leads
    obtain ⟨member, rfl⟩ := Table.mem_of_find? found
    exact ints.2 ad member

section Calls
variable {D : Type} {rt : Runtime D} {platform : Platform} {host : Host} {send : Send} {item : Item} {b : List UInt8}
  {t : Turn} {w : World host.mysql.collation} {n iModelId iAdId : Int}

/-- The text of the data is the field that the handler decodes. -/
theorem Send.sends_data {leftover : String → Nat → UInt16} {fields : List (WString × Cpprest.Value D)}
    (sent : send.fields platform.page host.base64 leftover = some fields) (uploads : send.uploads = some (item, b)) :
    wide item.key ∈ send.keys.map wide ∧
      ∃ s, sentText platform.page host.base64 b = some s ∧ fields.reverse.lookup (wide item.key) = some (string s) := by
  cases send with
  | createSubscription => cases uploads
  | uploadModel =>
    cases uploads
    obtain ⟨s, text, rfl⟩ := Option.map_eq_some_iff.mp sent
    exact ⟨List.mem_map_of_mem List.mem_cons_self, s, text, rfl⟩
  | uploadAd =>
    cases uploads
    obtain ⟨s, text, rfl⟩ := Option.map_eq_some_iff.mp sent
    exact ⟨List.mem_map_of_mem List.mem_cons_self, s, text, rfl⟩

theorem Returned.kept (returned : Returned rt platform host send t w (.inl n)) (uploads : send.uploads = some (item, b))
    (inverts : host.base64.Inverts) (keeps : host.mysql.KeepsKeys) (ints : w.db.Ints) (some_byte : b ≠ [])
    (whole : t.env.saving = .whole) (fresh : w.files (item.path host t.env.uuid ++ base64Suffix) = none) :
    Kept host item t.env.uuid n b (turn host t w) := by
  obtain ⟨reply, result, told, given⟩ := returned.told
  obtain ⟨ok, m, answered, rfl⟩ := id_of_told told uploads given
  obtain ⟨leftover, fields, sent, params, runs, lookups⟩ := returned.posted.runs
  obtain ⟨among, s, text, field⟩ := send.sends_data sent uploads
  have uploaded : send.program host t.env params = item.upload host t.env params := by
    cases send with
    | createSubscription => cases uploads
    | uploadModel =>
      cases uploads
      rfl
    | uploadAd =>
      cases uploads
      rfl
  have served : serve host t.env .post t.request w = runAlone host t.env (item.upload host t.env params) w := by
    rw [serve, handle, runs, uploaded]
  have turned : turn host t w = (serve host t.env .post t.request w).2 := by rw [turn, returned.method]
  have up : Uploads platform.page host item b t.env params w (turn host t w) reply := by
    constructor
    · exact some_byte
    · refine ⟨s, text, ?_⟩
      rw [lookups item.key among, field]
      rfl
    · exact whole
    · exact fresh
    · rw [← served, turned, ← result]
    · exact ok
  obtain ⟨m', answered', kept⟩ := up.kept inverts keeps.toAddsRows
  obtain rfl : m = m' := Option.some.inj (answered.symm.trans answered')
  have int : IsInt m := Kept.isInt kept (turn_keeps (executeUpdate_ints keeps) t ints)
  rwa [int.bmod]

theorem Returned.subscribes {pszUser pszPass pszOwner : CString} {id : CString}
    (returned : Returned rt platform host (.createSubscription pszUser pszPass pszOwner iModelId iAdId) t w (.inr id))
    (model : IsInt iModelId) (ad : IsInt iAdId) :
    ∃ seed j, id = candidate host seed j ∧ Subscribed id iModelId iAdId (turn host t w) := by
  obtain ⟨reply, result, told, given⟩ := returned.told
  obtain ⟨leftover, fields, sent, params, runs, lookups⟩ := returned.posted.runs
  obtain rfl := Option.some.inj sent
  have turned : turn host t w = (serve host t.env .post t.request w).2 := by rw [turn, returned.method]
  have served : serve host t.env .post t.request w =
      runAlone host t.env (onCreateSubscription host t.env params .initial) w := by
    rw [serve, handle, runs]
    rfl
  have number_of {key : String} {m : Int} (int : IsInt m)
      (field : params.lookup (wide key) = some (.number (m.bmod (2 ^ 32)))) : fieldNumber params key = .ok m := by
    rw [fieldNumber, field]
    dsimp only
    rw [Int.bmod_bmod, int.bmod]
  have created : IfOk (SubscribedAs host iModelId iAdId)
      (runAlone host t.env (onCreateSubscription host t.env params .initial) w) := by
    refine ifOk_createSubscription (number_of model ?_) (number_of ad ?_)
    · exact (lookups "model_id" List.mem_cons_self).trans rfl
    · exact (lookups "ad_id" (List.mem_cons_of_mem _ List.mem_cons_self)).trans rfl
  obtain ⟨s, set, same⟩ := Option.map_eq_some_iff.mp given
  have ok : reply.errorCode = .ok := by
    cases told with
    | nothing blank => cases blank.bare.subscriptionId.symm.trans set
    | modelId | adId | subscriptionId => rfl
  obtain ⟨seed, j, answered, subscribed⟩ := created reply (by rw [← served, result]) ok
  have hash : id = candidate host seed j := by
    rw [← Sum.inr.inj same, Option.some.inj (set.symm.trans answered), widened_narrow]
  refine ⟨seed, j, hash, ?_⟩
  rw [turned, served, hash]
  exact subscribed

end Calls

/-! ### The download -/

/-- What the server replies to a download that succeeds. -/
def downloaded (url text : WString) : Item → Reply
  | .model => { Reply.initial.success with model := some text }
  | .ad => { { Reply.initial with url := some url }.success with ad := some text }

def apiOf : Item → Api
  | .model => .get
  | .ad => .getAd

/-- The call returns true with these bytes, and for an ad with a URL. -/
def Gets (platform : Platform) (memory : Memory) (pszUrl : WString) (pszClientId : CString) (response : Response)
    (b : List UInt8) : Item → Prop
  | .model => ∀ out, getModel platform memory pszUrl pszClientId response out = (.ok true, ⟨some b, b.length, ()⟩)
  | .ad => ∃ sUrl, ∀ out, getAd platform memory pszUrl pszClientId response out = (.ok true, ⟨some b, b.length, sUrl⟩)

theorem fit_jsonString {s : WString} (fit : Fit s) : Fit (jsonString s) := by
  obtain ⟨known, paired⟩ := fit
  refine ⟨fun member => known ((List.takeWhile_sublist _).subset member), ?_⟩
  have keeps {ch : UInt16} (above : 0xD800 ≤ ch) : decide (ch ≠ 0) = true := by
    rw [decide_eq_true_eq]
    rintro rfl
    exact absurd above (by decide)
  clear known
  rw [jsonString]
  fun_induction Cpprest.Paired s with
  | case1 => trivial
  | case2 => exact paired.elim
  | case3 ch high lowSurrogate rest ih =>
    have low : (0xD800 : UInt16) ≤ lowSurrogate := UInt16.le_trans (by decide) paired.1.1
    rw [List.takeWhile_cons_of_pos (p := fun x => decide (x ≠ 0)) (keeps high.1),
      List.takeWhile_cons_of_pos (p := fun x => decide (x ≠ 0)) (keeps low)]
    exact (Cpprest.paired_pair high lowSurrogate _).mpr ⟨paired.1, ih paired.2⟩
  | case4 ch rest alone ih =>
    rw [List.takeWhile_cons]
    split
    · exact (Cpprest.paired_alone alone _).mpr (ih paired)
    · trivial

section Download
variable {D : Type} {rt : Runtime D} {platform : Platform} {memory : Memory} {host : Host} {item : Item}
  {b : List UInt8} {uuid : Uuid} {n : Int} {env : Env} {params : Params} {w : World host.mysql.collation}

/-- The reply to a download of what is kept. -/
theorem Kept.answers (kept : Kept host item uuid n b w) (inverts : host.base64.Inverts) (short : 4 * b.length < 2 ^ 31)
    (asks : Requested host item n env params w) (ends : EndsBehind host env (item.path host uuid) w) :
    ∃ url p, url = jsonString (host.page.widen p) ∧ (runAlone host env (item.download host env params) w).1 =
      .ok (downloaded url (widened (host.base64.encode b)) item) := by
  cases item with
  | model =>
    obtain ⟨file, found, path⟩ := kept.finds_file asks
    have comes := @run_getFile host env params w (sendModel host)
    rw [found] at comes
    have alone : runAlone host env (onGetModel host env params .initial) w =
        runOn host env (sendModel host (modelPath host file) env .initial) (statement 3) w := comes
    rw [path] at alone
    exact ⟨_, [], rfl, (congrArg Prod.fst alone).trans (kept.sends inverts short asks.whole ends _ _ _)⟩
  | ad =>
    obtain ⟨ad, found, path⟩ := kept.finds_ad asks
    have comes := @run_onGetAd host env params w
    rw [found] at comes
    have alone : runAlone host env (onGetAd host env params .initial) w =
        runOn host env (sendAd host (adPath host ad) env
          { Reply.initial with url := some (jsonString (host.page.widen (blobString ad.adUrl))) })
          (statement 2) w := comes
    rw [path] at alone
    exact ⟨_, _, rfl, (congrArg Prod.fst alone).trans (kept.sends inverts short asks.whole ends _ _ _)⟩

theorem legible_downloaded {url : WString} (fit : Fit url) (inverts : host.base64.Inverts) :
    Legible (downloaded url (widened (host.base64.encode b)) item) := by
  have success : Fit (wide "Success") := fit_of_ascii (Cpprest.ascii_of_all (by decide))
  have text : Fit (widened (host.base64.encode b)) :=
    fit_of_ascii (widened_ascii fun c member => (inverts.plain b c member).2)
  cases item with
  | model =>
    refine ⟨success, ?_⟩
    simpa [downloaded, Reply.success, Reply.outcome, Reply.initial] using text
  | ad =>
    refine ⟨success, ?_⟩
    simpa [downloaded, Reply.success, Reply.outcome, Reply.initial] using ⟨text, fit⟩

/-- A text of the data in an answer with status 200 is what the call decodes. -/
theorem getPayload_answer {ε : Type} {key : String} {readExtra : Json → Except Stop ε} {pszUrl : WString}
    {pszClientId : CString} {reply : Reply} {extra : ε} (inverts : host.base64.Inverts) (some_byte : b ≠ [])
    (decodes : platform.decoder.bytes = host.base64.decode) (accepts : platform.accepts pszUrl = true)
    (clientId : (platform.page.widen pszClientId).length ≠ 1000)
    (text : (seen rt.truncate (answer (D := D) reply)).field? (wide key) =
      some (.string (widened (host.base64.encode b))))
    (read : readExtra (seen rt.truncate (answer (D := D) reply)) = .ok extra) (out : Outputs ε) :
    getPayload platform memory key readExtra pszUrl pszClientId
      (.answered 200 (.json (seen rt.truncate (answer (D := D) reply)))) out =
      (.ok true, ⟨some b, b.length, extra⟩) := by
  have message := field?_errorMessage (D := D) rt.truncate reply
  obtain ⟨fields, object⟩ : ∃ fields, seen rt.truncate (answer (D := D) reply) = .object fields := ⟨_, by
    rw [answer, seen]⟩
  rw [object] at message text read ⊢
  have data := @receivedData_text _ platform.page _ inverts some_byte memory.pszAnsi
  rw [receivedData] at data
  have received : receive platform memory key readExtra (.object fields) out =
      (.ok true, ⟨some b, b.length, extra⟩) := by
    rw [receive, message, text]
    simp only [Option.isNone_some, Bool.false_eq_true, if_false, read, decodes, data]
  rw [getPayload, wideBuffer_ok _ _ clientId]
  simp only [accepts, not_true_eq_false, if_false, makeRequestGet, ne_eq, received]

theorem gets_downloaded {url pszUrl : WString} {pszClientId : CString} (inverts : host.base64.Inverts)
    (some_byte : b ≠ [])
    (decodes : platform.decoder.bytes = host.base64.decode) (accepts : platform.accepts pszUrl = true)
    (clientId : (platform.page.widen pszClientId).length ≠ 1000) :
    Gets platform memory pszUrl pszClientId (.answered 200 (.json (seen rt.truncate
      (answer (D := D) (downloaded url (widened (host.base64.encode b)) item))))) b item := by
  cases item with
  | model =>
    intro out
    rw [getModel]
    refine getPayload_answer inverts some_byte decodes accepts clientId ?_ ?_ out
    · rw [field?_model]
      rfl
    · rfl
  | ad =>
    refine ⟨url, fun out => ?_⟩
    rw [getAd]
    refine getPayload_answer inverts some_byte decodes accepts clientId ?_ ?_ out
    · rw [field?_ad]
      rfl
    · rw [urlOf, field?_url]
      rfl

/-- What is kept is what the client gets for the id of a subscription to it. -/
theorem Kept.gets {iModelId iAdId : Int} {seed j : Nat} {request : HttpRequest} {pszUrl : WString}
    {pszClientId : CString} (kept : Kept host item uuid (item.among iModelId iAdId) b w)
    (inverts : host.base64.Inverts) (some_byte : b ≠ []) (short : 4 * b.length < 2 ^ 31)
    (subscribed : Subscribed (candidate host seed j) iModelId iAdId w) (works : env.Works)
    (whole : env.saving = .whole) (ends : EndsBehind host env (item.path host uuid) w) (uri : host.uri = Rest.uri)
    (fits : ∀ p, Fit (host.page.widen p)) (passes : Passes (apiOf item) request (widened (candidate host seed j)))
    (decodes : platform.decoder.bytes = host.base64.decode) (accepts : platform.accepts pszUrl = true)
    (clientId : (platform.page.widen pszClientId).length ≠ 1000) :
    ∃ response, respond rt (serve host env .get request w).1 = some response ∧
      Gets platform memory pszUrl pszClientId response b item := by
  have served : serve host env .get request w =
      runAlone host env (item.download host env [(wide "subsid", .string (widened (candidate host seed j)))]) w := by
    rw [serve, handle, passes.passed host env uri]
    cases item <;> rfl
  obtain ⟨url, p, rfl, replied⟩ :=
    Kept.answers kept inverts short (subscribed.requested (List.lookup_cons_self) works whole item) ends
  rw [served, replied, respond_legible (legible_downloaded (fit_jsonString (fits p)) inverts)]
  refine ⟨_, rfl, ?_⟩
  have ok : (downloaded (jsonString (host.page.widen p)) (widened (host.base64.encode b)) item).httpResult = .ok := by
    cases item <;> rfl
  rw [ok]
  exact gets_downloaded inverts some_byte decodes accepts clientId

end Download

/-! ### The whole way -/

section Way
variable {D : Type} {rt : Runtime D} {platform : Platform} {host : Host} {send : Send} {item : Item} {b : List UInt8}
  {w : World host.mysql.collation} {n iModelId iAdId : Int}

/-- What is uploaded is what is downloaded for a subscription to it, whatever else is requested. -/
theorem published_delivered (inverts : host.base64.Inverts) (keeps : host.mysql.KeepsKeys) (uri : host.uri = Rest.uri)
    (fits : ∀ p, Fit (host.page.widen p)) (ints : w.db.Ints)
    -- A client uploads.
    {up : Turn} (uploaded : Returned rt platform host send up w (.inl n)) (uploads : send.uploads = some (item, b))
    (some_byte : b ≠ []) (whole : up.env.saving = .whole)
    (fresh : w.files (item.path host up.env.uuid ++ base64Suffix) = none) {turns : List Turn}
    (later : Later up.env.uuid turns)
    -- A client creates a subscription.
    {pszUser pszPass pszOwner id : CString} {create : Turn}
    (created : Returned rt platform host (.createSubscription pszUser pszPass pszOwner iModelId iAdId) create
      (run (turn host) (turn host up w) turns) (.inr id))
    (refers : item.among iModelId iAdId = n) (modelInt : IsInt iModelId) (adInt : IsInt iAdId) {turns' : List Turn}
    (later' : Later up.env.uuid (create :: turns'))
    -- A client downloads.
    {client : Platform} {memory : Memory} {env : Env} {request : HttpRequest} {pszUrl : WString} {pszClientId : CString}
    (works : env.Works) (saving : env.saving = .whole) (passes : Passes (apiOf item) request (widened id))
    (ends : EndsBehind host env (item.path host up.env.uuid)
      (run (turn host) (turn host up w) (turns ++ create :: turns')))
    (decodes : client.decoder.bytes = host.base64.decode) (accepts : client.accepts pszUrl = true)
    (clientId : (client.page.widen pszClientId).length ≠ 1000) :
    ∃ response, respond rt (serve host env .get request
        (run (turn host) (turn host up w) (turns ++ create :: turns'))).1 = some response ∧
      Gets client memory pszUrl pszClientId response b item := by
  have kept := uploaded.kept uploads inverts keeps ints some_byte whole fresh
  obtain ⟨leftover, fields, sent, -⟩ := uploaded.posted.runs
  obtain ⟨-, s, text, -⟩ := send.sends_data sent uploads
  have short := (sentText_eq inverts text).1
  obtain ⟨seed, j, rfl, subscribed⟩ := created.subscribes modelInt adInt
  have run_append : run (turn host) (turn host up w) (turns ++ create :: turns') =
      run (turn host) (turn host create (run (turn host) (turn host up w) turns)) turns' := by
    rw [run, List.foldl_append]
    rfl
  rw [run_append] at ends ⊢
  have stays := (kept.afterRun keeps.toAddsRows later).afterRun keeps.toAddsRows later'
  subst refers
  exact Kept.gets stays inverts some_byte short (subscribed.afterRun keeps turns') works saving ends uri fits passes
    decodes accepts clientId

end Way

/-! ### A small way

Three bytes, from one client of the small server to another.
-/

def smallHost : Host := { Small.host with uri := Rest.uri }

def smallStart : World smallHost.mysql.collation := Small.start

def smallModel : Send := .uploadModel (ascii "u") (ascii "p") [0, 0, 0] (ascii "n") (ascii "d")

def smallSubscription : Send := .createSubscription (ascii "u") (ascii "p") (ascii "u") 1 1

/-- The fields of a call, with zeros in what was left in memory. -/
def smallFields (send : Send) : List (WString × Cpprest.Value Unit) :=
  (send.fields Small.page Small.base64 fun _ _ => 0).getD []

def smallTurn (env : Env) (send : Send) : Turn :=
  ⟨env, .post, ⟨47 :: send.method, [], .json (seen smallRuntime.truncate (.object (Cpprest.built (smallFields send))))⟩⟩

theorem small_routed (env : Env) (send : Send) : Routed smallHost send (smallTurn env send).request := by
  have path : Rest.decode (47 :: send.method) = some (47 :: send.method) := by
    apply decode_plain
    cases send <;> simp only [Send.method] <;> decide
  have last : (Rest.splitPath (47 :: send.method)).getLast? = some send.method := by
    cases send <;> simp only [Send.method] <;> decide
  have query : Rest.decode [] = some [] := decode_plain (by decide)
  exact ⟨⟨_, path, last⟩, [], query⟩

theorem smallTurn_serve (env : Env) (send : Send) (w : World smallHost.mysql.collation) :
    serve smallHost env .post (smallTurn env send).request w = runAlone smallHost env (send.program smallHost env
      (send.keys.filterMap fun key => ((smallFields send).reverse.lookup (wide key)).map fun value =>
        (wide key, seen smallRuntime.truncate value))) w := by
  rw [serve, handle, (small_routed env send).handlePost rfl, bodyParams_built]

theorem small_fit {s : WString} (below : ∀ c ∈ s, c < 256) : Fit s := by
  refine ⟨fun member => absurd (below _ member) (by decide), Cpprest.paired_of_none fun c member high => ?_⟩
  exact absurd (UInt16.lt_of_le_of_lt high.1 (below c member)) (by decide)

theorem small_fits (p : CString) : Fit (smallHost.page.widen p) := by
  refine small_fit fun c member => ?_
  obtain ⟨b, -, rfl⟩ := List.mem_map.mp member
  rw [UInt16.lt_iff_toNat_lt, UInt8.toNat_toUInt16]
  exact b.toNat_lt

theorem small_keeps : smallHost.mysql.KeepsKeys := ⟨Small.addsRows, nofun, nofun⟩

/-- The uploaded model has the id 1, and the subscription the id `ABCDEFGH`. -/
theorem small_served :
    (serve smallHost Small.env .post (smallTurn Small.env smallModel).request smallStart).1 = .ok Small.answered ∧
      (serve smallHost Small.other .post (smallTurn Small.other smallSubscription).request
        (turn smallHost (smallTurn Small.env smallModel) smallStart)).1 =
          .ok { Reply.initial.success with subscriptionId := some (wide "ABCDEFGH") } := by
  have turned : turn smallHost (smallTurn Small.env smallModel) smallStart =
      (serve smallHost Small.env .post (smallTurn Small.env smallModel).request smallStart).2 := rfl
  rw [turned, smallTurn_serve, smallTurn_serve]
  decide +kernel

theorem small_posted (env : Env) {send : Send} {fields : List (WString × Cpprest.Value Unit)}
    (sent : send.fields Small.page Small.base64 (fun _ _ => 0) = some fields) (fine : ∀ field ∈ fields, Fine field.2) :
    Posted smallRuntime smallPlatform smallHost send (smallTurn env send).request := by
  have same : smallFields send = fields := by rw [smallFields, sent, Option.getD_some]
  have accepts : smallPlatform.accepts [] = true := rfl
  have clientId : wideBuffer smallPlatform.page [] = .ok [] := rfl
  subst same
  exact posted_of_fields (small_routed env send) sent fine accepts clientId

def smallField (key : String) (text : CString) : WString × Cpprest.Value Unit :=
  textField Small.page (fun _ _ => 0) key text

theorem small_text {key : String} {text : CString}
    (ascii : (wideText Small.page (fun _ => 0) text).all (· < 128) = true) : Fine (smallField key text).2 :=
  .string (fit_of_ascii (Cpprest.ascii_of_all ascii))

theorem small_uploaded : Returned smallRuntime smallPlatform smallHost smallModel (smallTurn Small.env smallModel)
    smallStart (.inl 1) := by
  have text : sentText Small.page Small.base64 [0, 0, 0] = some (wide "AAAA") := by decide +kernel
  have sent : smallModel.fields Small.page Small.base64 (fun _ _ => 0) = some [(wide "model", string (wide "AAAA")),
      smallField "user" (ascii "u"), smallField "pass" (ascii "p"), smallField "name" (ascii "n"),
      smallField "desc" (ascii "d")] := by
    rw [smallModel, Send.fields, modelFields, text, Option.map_some]
    rfl
  refine returned_of_told rfl (small_posted Small.env sent ?_) small_served.1 rfl
  simp only [List.forall_mem_cons]
  exact ⟨.string (fit_of_ascii (Cpprest.ascii_of_all (by decide))), small_text (by decide), small_text (by decide),
    small_text (by decide), small_text (by decide), List.forall_mem_nil _⟩

theorem small_created : Returned smallRuntime smallPlatform smallHost smallSubscription
    (smallTurn Small.other smallSubscription) (turn smallHost (smallTurn Small.env smallModel) smallStart)
    (.inr (ascii "ABCDEFGH")) := by
  have sent : smallSubscription.fields Small.page Small.base64 (fun _ _ => 0) = some [smallField "user" (ascii "u"),
      smallField "pass" (ascii "p"), smallField "owner" (ascii "u"), (wide "model_id", number 1),
      (wide "ad_id", number 1)] := rfl
  refine returned_of_told rfl (small_posted Small.other sent ?_) small_served.2 rfl
  simp only [List.forall_mem_cons]
  exact ⟨small_text (by decide), small_text (by decide), small_text (by decide), .number 1, .number 1,
    List.forall_mem_nil _⟩

/-- The request for the subscription. -/
def smallRequest : HttpRequest :=
  ⟨Api.get.name ++ apiPath .get,
    sentQuery (Percent.encode Rest.shouldEncodeUri (Percent.narrow (widened (ascii "ABCDEFGH")))), .unreadable⟩

theorem small_passes : Passes .get smallRequest (widened (ascii "ABCDEFGH")) := by
  refine passes_received (fun c member => ?_) .get .unreadable
  have all : (widened (ascii "ABCDEFGH")).all (fun c =>
      decide (c < 128 ∧ Rest.isQueryCharacter c = true ∧ c ≠ 38 ∧ c ≠ 59 ∧ c ≠ 61)) = true := by decide
  exact of_decide_eq_true (List.all_eq_true.mp all c member)

theorem published_delivered_small : ∃ response,
    respond smallRuntime (serve smallHost Small.other .get smallRequest (run (turn smallHost)
        (turn smallHost (smallTurn Small.env smallModel) smallStart)
        ([] ++ smallTurn Small.other smallSubscription :: []))).1 = some response ∧
      Gets smallPlatform ⟨0, 0⟩ (wide "http://h/") [] response [0, 0, 0] .model := by
  have ints : smallStart.db.Ints :=
    ⟨List.forall_mem_nil _, List.forall_mem_singleton.mpr (show IsInt 1 by decide)⟩
  have differs : Small.other.uuid.chars ≠ Small.env.uuid.chars := by decide
  exact published_delivered Small.inverts small_keeps rfl small_fits ints small_uploaded rfl (List.cons_ne_nil _ _) rfl
    rfl (List.forall_mem_nil _) small_created rfl (by decide) (by decide)
    (List.forall_mem_singleton.mpr ⟨rfl, differs⟩) ⟨rfl, fun _ => rfl⟩ rfl small_passes (fun _ _ => ⟨rfl, rfl⟩) rfl rfl
    (by decide)

end ModelPublish.Client
