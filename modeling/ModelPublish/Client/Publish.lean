import ModelPublish.Client.Transport
import ModelPublish.Server.Subscribed

/-!
# UploadModel, UploadAd and CreateSubscription

What the three calls send, what the server makes of it, and what they return of its reply.
-/

namespace ModelPublish.Client
open Machine Server
open Cpprest (setBody)

/-! ### Requests -/

/-- The text of a `char*` in new memory of as many `wchar_t` as it has bytes. The terminator stands at the
end of the memory, behind what was left in it. -/
def wideText (page : CodePage) (leftover : Nat → UInt16) (text : CString) : WString :=
  let sz := if (page.widen text).length ≤ text.length then page.widen text else []
  jsonString (sz ++ (List.range (text.length - sz.length)).map fun i => leftover (sz.length + i))

section Requests
variable {D : Type} (page : CodePage) (base64 : Base64) (leftover : String → Nat → UInt16)

def textField (key : String) (text : CString) : WString × Cpprest.Value D :=
  (wide key, string (wideText page (leftover key) text))

/-- `send` of `UploadModel`, unless `Base64EncodeGetRequiredLength` throws. -/
def modelFields (pszUser pszPass : CString) (pData : List UInt8) (pszName pszDesc : CString) :
    Option (List (WString × Cpprest.Value D)) :=
  (sentText page base64 pData).map fun s => [(wide "model", string s), textField page leftover "user" pszUser,
    textField page leftover "pass" pszPass, textField page leftover "name" pszName,
    textField page leftover "desc" pszDesc]

/-- `send` of `UploadAd`. -/
def adFields (pszUser pszPass : CString) (pData : List UInt8) (pszAdUrl : CString) :
    Option (List (WString × Cpprest.Value D)) :=
  (sentText page base64 pData).map fun s => [(wide "ad", string s), textField page leftover "user" pszUser,
    textField page leftover "pass" pszPass, textField page leftover "url" pszAdUrl]

/-- `send` of `CreateSubscription`. -/
def subscriptionFields (pszUser pszPass pszOwner : CString) (iModelId iAdId : Int) :
    List (WString × Cpprest.Value D) :=
  [textField page leftover "user" pszUser, textField page leftover "pass" pszPass,
    textField page leftover "owner" pszOwner, (wide "model_id", number iModelId), (wide "ad_id", number iAdId)]

/-- The fields that the calls send. -/
inductive Send where
  | uploadModel (pszUser pszPass : CString) (pData : List UInt8) (pszName pszDesc : CString)
  | uploadAd (pszUser pszPass : CString) (pData : List UInt8) (pszAdUrl : CString)
  | createSubscription (pszUser pszPass pszOwner : CString) (iModelId iAdId : Int)

def Send.fields : Send → Option (List (WString × Cpprest.Value D))
  | uploadModel pszUser pszPass pData pszName pszDesc =>
    modelFields page base64 leftover pszUser pszPass pData pszName pszDesc
  | uploadAd pszUser pszPass pData pszAdUrl => adFields page base64 leftover pszUser pszPass pData pszAdUrl
  | createSubscription pszUser pszPass pszOwner iModelId iAdId =>
    some (subscriptionFields page leftover pszUser pszPass pszOwner iModelId iAdId)

end Requests

/-- The last part of the path of a call. -/
def Send.method : Send → WString
  | uploadModel .. => wide "upload_model"
  | uploadAd .. => wide "upload_ad"
  | createSubscription .. => wide "create_subs"

/-- The body of the request, if the call comes so far. -/
def requestBody {D : Type} (rt : Runtime D) (platform : Platform) (base64 : Base64) (leftover : String → Nat → UInt16)
    (pszUrl : WString) (pszClientId : CString) (send : Send) : Option (List UInt8) := do
  let _ ← (wideBuffer platform.page pszClientId).toOption
  let fields ← send.fields platform.page base64 leftover
  if platform.accepts pszUrl then
    match setBody rt.print (.object (Cpprest.built fields)) with
    | .done body => some body
    | _ => none
  else none

/-! ### Responses -/

/-- The response that the server sends. After an exception the listener replies that there was an internal error.
What is undefined has no response of its own. -/
def respond {D : Type} (rt : Runtime D) : Except Stop Reply → Option Response
  | .error .undefined => none
  | .error .endless => none
  | .error _ => some (.answered 500 .unreadable)
  | .ok reply =>
    match setBody rt.print (answer reply) with
    | .done body => (bodyOf rt body).map (.answered reply.httpResult.value.toUInt16)
    | .thrown _ => some (.answered 500 .unreadable)
    | .undefined => none

/-- A field that may be missing. -/
def readField {α : Type} (read : Json → Except Stop α) : Option Json → Except Stop (Option α)
  | none => .ok none
  | some value => (read value).map some

/-- What the three calls make of a response: what they give, if they return true. -/
def receiveField {α : Type} (memory : Memory) (key : String) (read : Json → Except Stop α) (response : Response) :
    Except Stop (Option α) :=
  match makeRequestGet memory response with
  | .error stop => .error stop
  | .ok (answer, http_result) =>
    if http_result ≠ 200 then .ok none
    else match answer with
      | .null => .ok none
      | answer =>
        if (answer.field? (wide "error_message")).isNone then .ok none
        else readField read (answer.field? (wide key))

/-- `as_integer ()`. -/
def asInteger : Json → Except Stop Int
  | .number value => .ok (value.bmod (2 ^ 32))
  | _ => .error .jsonException

/-- A text by way of a `wchar_t [ 1000 ]` in the memory of the caller. -/
def subsId (page : CodePage) : Json → Except Stop CString
  | .string s =>
    let wszSubsId := jsonString s
    if wszSubsId.length < 1000 then .ok (page.narrowInto 0 wszSubsId.length wszSubsId) else .error .undefined
  | _ => .error .jsonException

section Calls
variable (platform : Platform) (memory : Memory)

/-- What `UploadModel` writes to `piModelId`. -/
def uploadModel := receiveField memory "model_id" asInteger

/-- What `UploadAd` writes to `piAdId`. -/
def uploadAd := receiveField memory "ad_id" asInteger

/-- What `CreateSubscription` writes to `pszSubsId`. -/
def createSubscription := receiveField memory "subscription_id" (subsId platform.page)

end Calls

/-! ### What is said to a POST -/

/-- Nothing but a message, in ASCII. -/
structure Blank (r : Reply) : Prop where
  message : ∀ c ∈ wide r.errorMessage, c < 128
  bare : r.Bare
  url : r.url = none

/-- What a POST is answered: nothing but a message, or one id. -/
inductive Told (host : Host) : Reply → Prop where
  | nothing {r : Reply} (blank : Blank r) : Told host r
  | modelId {r : Reply} (blank : Blank r) (n : Int) : Told host { r.success with modelId := some n }
  | adId {r : Reply} (blank : Blank r) (n : Int) : Told host { r.success with adId := some n }
  | subscriptionId {r : Reply} (blank : Blank r) (seed k : Nat) :
    Told host { r.success with subscriptionId := some (widened (candidate host seed k)) }

theorem Blank.outcome {r : Reply} (blank : Blank r) {message : String} (code : ErrorCode) (status : Status)
    (ascii : (wide message).all (· < 128) = true) : Blank (r.outcome message code status) :=
  ⟨Cpprest.ascii_of_all ascii, ⟨blank.bare.model, blank.bare.ad, blank.bare.info, blank.bare.modelId, blank.bare.adId,
    blank.bare.subscriptionId⟩, blank.url⟩

theorem blank_initial : Blank .initial :=
  ⟨Cpprest.ascii_of_all (by decide), ⟨rfl, rfl, rfl, rfl, rfl, rfl⟩, rfl⟩

theorem ascii_candidate (host : Host) (seed k : Nat) : ∀ c ∈ candidate host seed k, c < 128 := fun c member =>
  (plain_candidate host seed k c member).2.1

/-- The reply comes through. -/
theorem Told.legible {host : Host} {r : Reply} (told : Told host r) : Legible r := by
  have success : Fit (wide "Success") := fit_of_ascii (Cpprest.ascii_of_all (by decide))
  cases told with
  | nothing blank =>
    refine ⟨fit_of_ascii blank.message, ?_⟩
    rw [blank.bare.model, blank.bare.ad, blank.url, blank.bare.info, blank.bare.subscriptionId]
    simp
  | @modelId r blank n =>
    refine ⟨success, ?_⟩
    simp [Reply.success, Reply.outcome, blank.bare.model, blank.bare.ad, blank.url, blank.bare.info,
      blank.bare.subscriptionId]
  | @adId r blank n =>
    refine ⟨success, ?_⟩
    simp [Reply.success, Reply.outcome, blank.bare.model, blank.bare.ad, blank.url, blank.bare.info,
      blank.bare.subscriptionId]
  | @subscriptionId r blank seed k =>
    refine ⟨success, ?_⟩
    simp only [Reply.success, Reply.outcome, blank.bare.model, blank.bare.ad, blank.url, blank.bare.info,
      List.forall_mem_cons, List.not_mem_nil, Option.mem_def, reduceCtorEq, false_imp_iff, implies_true, true_and,
      and_true, Option.some.injEq, forall_eq']
    exact fit_of_ascii (widened_ascii (ascii_candidate host seed k))

section Stages
variable {host : Host} {env : Env} {params : Params} {reply : Reply}

theorem fetchUser_blank (blank : Blank reply) : (fetchUser host params reply).Ends fun x => Blank x.2 := by
  refine (Prog.ends_true _).bind fun strPname _ => (Prog.ends_true _).bind fun szUser _ => ?_
  refine (Prog.ends_true _).bind fun strPname _ => (Prog.ends_true _).bind fun szPass _ => ?_
  intro res
  show Blank _
  split
  · exact blank.outcome _ _ (by decide)
  · exact blank

theorem fetchOwner_blank {iUserId : Int} (blank : Blank reply) :
    (fetchOwner host params iUserId reply).Ends fun x => Blank x.2 := by
  unfold fetchOwner
  split
  · refine (Prog.ends_true _).bind fun strPname _ => (Prog.ends_true _).bind fun szUser _ => ?_
    intro res
    show Blank _
    split
    · exact blank.outcome _ _ (by decide)
    · exact blank
  · exact blank

theorem modelExists_blank {iOwnerId iModelId : Int} (blank : Blank reply) :
    (modelExists iOwnerId iModelId reply).Ends fun x => Blank x.2 := by
  unfold modelExists
  split
  · intro res
    cases res with
    | none => exact blank.outcome _ _ (by decide)
    | some row => exact blank
  · exact blank

theorem adExists_blank {iOwnerId iAdId : Int} (blank : Blank reply) :
    (adExists iOwnerId iAdId reply).Ends fun x => Blank x.2 := by
  unfold adExists
  split
  · intro res
    cases res with
    | none => exact blank.outcome _ _ (by decide)
    | some row => exact blank
  · exact blank

theorem insertRow_blank {u : Update} (blank : Blank reply) : (insertRow u reply).Ends fun x => Blank x.2 := by
  intro iInsert
  have inserted : Blank (if iInsert = 0 then
      reply.outcome "Subscription id not found!" .subscriptionNotFound .notFound else reply) := by
    split
    · exact blank.outcome _ _ (by decide)
    · exact blank
  intro res
  cases res with
  | none => exact inserted.outcome _ _ (by decide)
  | some id => exact inserted

theorem insertLast_told {u : Update} {put : Int → Reply → Reply} (blank : Blank reply)
    (puts : ∀ id, Told host (put id reply.success)) : (insertLast u put reply).Ends (Told host) := by
  apply (Prog.ends_true _).bind
  intro iInsert _
  split
  · exact .nothing (blank.outcome _ _ (by decide))
  · intro res
    cases res with
    | none => exact .nothing (blank.outcome _ _ (by decide))
    | some id =>
      show Told host _
      split
      · exact puts id
      · exact .nothing blank

theorem uploadFile_blank {iUserId : Int} (blank : Blank reply) :
    (uploadFile host env params iUserId reply).Ends fun x => Blank x.2 := by
  unfold uploadFile
  split
  · exact (Prog.ends_true _).bind fun x _ => insertRow_blank blank
  · exact blank

theorem chooseHash_candidate (seed attempts k : Nat) :
    (chooseHash host seed attempts k).Ends fun szHash => ∃ j, szHash = candidate host seed j := by
  induction attempts generalizing k with
  | zero => trivial
  | succ attempts ih =>
    intro res
    show Prog.Ends _ (if _ then _ else _)
    split
    · exact ⟨k, rfl⟩
    · exact ih (k + 1)

variable (host env params)

theorem onUploadModel_told : (onUploadModel host env params .initial).Ends (Told host) := by
  refine (Prog.ends_true _).bind fun _ _ => (fetchUser_blank blank_initial).bind ?_
  rintro ⟨iUserId, reply⟩ blank
  apply (uploadFile_blank blank).bind
  rintro ⟨iFileId, reply⟩ blank
  dsimp only
  unfold insertModel
  split
  · refine (Prog.ends_true _).bind fun _ _ => (Prog.ends_true _).bind fun _ _ => ?_
    refine (Prog.ends_true _).bind fun _ _ => (Prog.ends_true _).bind fun _ _ => ?_
    exact insertLast_told blank fun id => .modelId blank id
  · exact .nothing blank

theorem onUploadAd_told : (onUploadAd host env params .initial).Ends (Told host) := by
  refine (Prog.ends_true _).bind fun _ _ => (Prog.ends_true _).bind fun _ _ => ?_
  refine (Prog.ends_true _).bind fun _ _ => (fetchUser_blank blank_initial).bind ?_
  rintro ⟨iUserId, reply⟩ blank
  dsimp only
  unfold insertAd
  split
  · refine (Prog.ends_true _).bind fun x _ => (insertRow_blank blank).bind ?_
    rintro ⟨iAdId, reply⟩ blank
    show Told host _
    dsimp only
    split
    · exact .adId blank iAdId
    · exact .nothing blank
  · exact .nothing blank

theorem onCreateSubscription_told : (onCreateSubscription host env params .initial).Ends (Told host) := by
  refine (Prog.ends_true _).bind fun _ _ => (fetchUser_blank blank_initial).bind ?_
  rintro ⟨iUserId, reply⟩ blank
  apply (fetchOwner_blank blank).bind
  rintro ⟨iOwnerId, reply⟩ blank
  refine (Prog.ends_true _).bind fun iModelId _ => (modelExists_blank blank).bind ?_
  rintro ⟨bModelExists, reply⟩ blank
  refine (Prog.ends_true _).bind fun iAdId _ => (adExists_blank blank).bind ?_
  rintro ⟨bAdExists, reply⟩ blank
  dsimp only
  unfold insertSubscription
  split
  · apply (chooseHash_candidate _ _ _).bind
    rintro szHash ⟨j, rfl⟩
    refine insertLast_told blank fun id => ?_
    rw [jsonString_candidate]
    exact .subscriptionId blank _ j
  · exact .nothing blank

end Stages

/-- Whatever a POST asks for. -/
theorem handlePost_told (host : Host) (env : Env) (request : HttpRequest) :
    (handlePost host env request).Ends (Told host) := by
  refine (Prog.ends_true _).bind fun path _ => (Prog.ends_true _).bind fun query _ => ?_
  split
  · exact .nothing blank_initial
  · trivial
  split
  · exact .nothing (blank_initial.outcome _ _ (by decide))
  repeat' split
  · exact onUploadModel_told host env _
  · exact onUploadAd_told host env _
  · exact onCreateSubscription_told host env _
  · exact .nothing (blank_initial.outcome _ _ (by decide))

/-! ### What the calls return -/

/-- What a call gives when it returns true: the id of a model or an ad, or that of a subscription. -/
abbrev Given : Type := Int ⊕ CString

/-- The call, from the response on. -/
def Send.receive (platform : Platform) (memory : Memory) (response : Response) : Send → Except Stop (Option Given)
  | uploadModel .. => (Client.uploadModel memory response).map (Option.map .inl)
  | uploadAd .. => (Client.uploadAd memory response).map (Option.map .inl)
  | createSubscription .. => (Client.createSubscription platform memory response).map (Option.map .inr)

/-- What the server has said that the call asks for. -/
def Send.told (reply : Reply) : Send → Option Given
  | uploadModel .. => reply.modelId.map fun n => .inl (n.bmod (2 ^ 32))
  | uploadAd .. => reply.adId.map fun n => .inl (n.bmod (2 ^ 32))
  | createSubscription .. => reply.subscriptionId.map fun s => .inr (s.map UInt16.toUInt8)

section Returns
variable {D : Type} {rt : Runtime D} {memory : Memory} {α : Type} {key : String} {read : Json → Except Stop α}

theorem status_ok (status : Status) : status.value.toUInt16 = 200 ↔ status = .ok := by
  cases status <;> decide

theorem respond_legible {reply : Reply} (legible : Legible reply) : respond rt (.ok reply) =
    some (.answered reply.httpResult.value.toUInt16 (.json (seen rt.truncate (answer (D := D) reply)))) := by
  obtain ⟨body, written, read⟩ := @body_arrives _ rt _ (answer_fine legible)
  rw [answer, respond, answer, written]
  dsimp only
  rw [read]
  rfl

theorem receiveField_answer (reply : Reply) :
    receiveField memory key read
        (.answered reply.httpResult.value.toUInt16 (.json (seen rt.truncate (answer (D := D) reply)))) =
      if reply.httpResult = .ok then readField read ((seen rt.truncate (answer (D := D) reply)).field? (wide key))
      else .ok none := by
  rw [receiveField, makeRequestGet]
  by_cases ok : reply.httpResult = .ok
  · rw [if_neg (not_not.mpr ((status_ok _).mpr ok)), if_pos ok]
    dsimp only
    have message := field?_errorMessage (D := D) rt.truncate reply
    obtain ⟨fields, object⟩ : ∃ fields, seen rt.truncate (answer (D := D) reply) = .object fields := ⟨_, by
      rw [answer, seen]⟩
    rw [object] at message ⊢
    rw [if_neg (not_not.mpr ((status_ok _).mpr ok))]
    dsimp only
    rw [message]
    rfl
  · have failed : reply.httpResult.value.toUInt16 ≠ 200 := fun same => ok ((status_ok _).mp same)
    rw [if_pos failed, if_neg ok]
    dsimp only
    rw [if_pos failed]

theorem receiveField_failed (memory : Memory) :
    receiveField memory key read (.answered 500 .unreadable) = .ok none := by
  rw [receiveField, makeRequestGet, if_pos (by decide)]
  dsimp only
  rw [if_pos (by decide)]

end Returns

section Agreement
variable {D : Type} {rt : Runtime D} {platform : Platform} {memory : Memory} {host : Host}

theorem receiveField_respond {α : Type} {key : String} {read : Json → Except Stop α} {reply : Reply}
    (legible : Legible reply) {response : Response} (responded : respond rt (.ok reply) = some response)
    {given : Option α} (carried : reply.httpResult ≠ .ok → given = none)
    (found : readField read ((seen rt.truncate (answer (D := D) reply)).field? (wide key)) = .ok given) :
    receiveField memory key read response = .ok given := by
  rw [respond_legible legible] at responded
  obtain rfl := Option.some.inj responded
  rw [receiveField_answer]
  by_cases ok : reply.httpResult = .ok
  · rw [if_pos ok, found]
  · rw [if_neg ok, carried ok]

theorem Told.ids {r : Reply} (told : Told host r) (failed : r.httpResult ≠ .ok) :
    r.modelId = none ∧ r.adId = none ∧ r.subscriptionId = none := by
  cases told with
  | nothing blank => exact ⟨blank.bare.modelId, blank.bare.adId, blank.bare.subscriptionId⟩
  | modelId blank n => exact absurd rfl failed
  | adId blank n => exact absurd rfl failed
  | subscriptionId blank seed k => exact absurd rfl failed

theorem Told.hashed {r : Reply} (told : Told host r) {s : WString} (given : r.subscriptionId = some s) :
    ∃ seed k, s = widened (candidate host seed k) := by
  cases told with
  | nothing blank => cases blank.bare.subscriptionId.symm.trans given
  | modelId blank n => cases blank.bare.subscriptionId.symm.trans given
  | adId blank n => cases blank.bare.subscriptionId.symm.trans given
  | subscriptionId blank seed k => exact ⟨seed, k, (Option.some.inj given).symm⟩

theorem readField_integer (n : Option Int) :
    readField asInteger (n.map fun n => .number (n.bmod (2 ^ 32))) = .ok (n.map fun n => n.bmod (2 ^ 32)) := by
  cases n with
  | none => rfl
  | some n =>
    rw [Option.map_some, readField, asInteger, Int.bmod_bmod]
    rfl

theorem widened_narrow (p : CString) : (widened p).map UInt16.toUInt8 = p := by
  rw [widened, List.map_map]
  exact (List.map_congr_left fun c _ => UInt8.toUInt8_toUInt16 c).trans (List.map_id p)

theorem subsId_candidate (page : CodePage) (seed k : Nat) :
    subsId page (.string (widened (candidate host seed k))) = .ok (candidate host seed k) := by
  have noNul : ∀ c ∈ candidate host seed k, c ≠ 0 := by
    intro c member zero
    rw [zero] at member
    exact absurd (plain_candidate host seed k 0 member).1 (by decide)
  have eight : (widened (candidate host seed k)).length = 8 := by
    rw [widened, List.length_map, candidate, List.length_map, List.length_range]
  rw [subsId, jsonString_eq (widened_ne_zero noNul), if_pos (by rw [eight]; decide),
    narrowInto_widened (ascii_candidate host seed k)]

theorem Told.agrees {reply : Reply} (told : Told host reply) {response : Response}
    (responded : respond rt (.ok reply) = some response) (send : Send) :
    send.receive platform memory response = .ok (send.told reply) := by
  have legible := told.legible
  cases send with
  | uploadModel pszUser pszPass pData pszName pszDesc =>
    have returned : uploadModel memory response = .ok (reply.modelId.map fun n => n.bmod (2 ^ 32)) := by
      refine receiveField_respond legible responded (fun failed => ?_) ?_
      · rw [(told.ids failed).1, Option.map_none]
      · rw [field?_modelId, readField_integer]
    rw [Send.receive, returned, Send.told, Except.map, Option.map_map]
    rfl
  | uploadAd pszUser pszPass pData pszAdUrl =>
    have returned : uploadAd memory response = .ok (reply.adId.map fun n => n.bmod (2 ^ 32)) := by
      refine receiveField_respond legible responded (fun failed => ?_) ?_
      · rw [(told.ids failed).2.1, Option.map_none]
      · rw [field?_adId, readField_integer]
    rw [Send.receive, returned, Send.told, Except.map, Option.map_map]
    rfl
  | createSubscription pszUser pszPass pszOwner iModelId iAdId =>
    have returned : createSubscription platform memory response =
        .ok (reply.subscriptionId.map fun s => s.map UInt16.toUInt8) := by
      refine receiveField_respond legible responded (fun failed => ?_) ?_
      · rw [(told.ids failed).2.2, Option.map_none]
      · rw [field?_subscriptionId]
        cases given : reply.subscriptionId with
        | none => rfl
        | some s =>
          obtain ⟨seed, k, rfl⟩ := told.hashed given
          rw [Option.map_some, readField, subsId_candidate, Option.map_some, widened_narrow]
          rfl
    rw [Send.receive, returned, Send.told, Except.map, Option.map_map]
    rfl

theorem respond_error {stop : Stop} {response : Response} (responded : respond rt (.error stop) = some response) :
    response = .answered 500 .unreadable := by
  cases stop <;> cases responded <;> rfl

theorem receive_failed (send : Send) : send.receive platform memory (.answered 500 .unreadable) = .ok none := by
  cases send with
  | uploadModel => rw [Send.receive, uploadModel, receiveField_failed, Except.map, Option.map_none]
  | uploadAd => rw [Send.receive, uploadAd, receiveField_failed, Except.map, Option.map_none]
  | createSubscription => rw [Send.receive, createSubscription, receiveField_failed, Except.map, Option.map_none]

/-- Whatever is posted, and whatever becomes of it: a call returns true if the server has told it the id that it
asked for, and gives this id. -/
theorem calls_agree (rt : Runtime D) (platform : Platform) (memory : Memory) (send : Send) (host : Host) (env : Env)
    (request : HttpRequest) (w : World host.mysql.collation) (response : Response)
    (responded : respond rt (serve host env .post request w).1 = some response) :
    send.receive platform memory response =
      .ok ((serve host env .post request w).1.toOption.bind fun reply => send.told reply) := by
  cases result : (serve host env .post request w).1 with
  | error stop =>
    rw [result] at responded
    rw [respond_error responded]
    exact receive_failed send
  | ok reply =>
    rw [result] at responded
    exact (runAlone_ends (handlePost_told host env request) result).agrees responded send

end Agreement

/-- The small library of the clients. -/
def smallRuntime : Runtime Unit := ⟨Cpprest.smallLibrary, Cpprest.smallSorting, fun _ => [], fun _ => 0⟩

def smallUpload : HttpRequest := ⟨wide "/upload_model", [], .json (.object Small.upload)⟩

/-- An upload, which gives 1. -/
theorem calls_agree_small : ∃ response,
    respond smallRuntime (serve Small.host Small.env .post smallUpload Small.start).1 = some response ∧
      (Send.uploadModel (ascii "u") (ascii "p") [0, 0, 0] (ascii "n") (ascii "d")).receive smallPlatform ⟨0, 0⟩
        response = .ok (some (.inl 1)) := by
  have result : (serve Small.host Small.env .post smallUpload Small.start).1 = .ok Small.answered := by decide +kernel
  have told : Told Small.host Small.answered := .modelId blank_initial 1
  have responded := @respond_legible _ smallRuntime _ told.legible
  rw [← result] at responded
  refine ⟨_, responded, ?_⟩
  rw [calls_agree smallRuntime smallPlatform ⟨0, 0⟩ _ _ _ _ _ _ responded, result]
  rfl

end ModelPublish.Client
