import ModelPublish.Server.Listener

/-!
# CModelWebServiceClient

`GetModel`, `GetModelInfo` and `GetAd` before a server that may answer anything.
-/

namespace ModelPublish.Client
open Server

/-- `Base64Decode` of `atlenc.h`: what it returns, and the bytes it writes, which it counts. -/
structure Decoder where
  accepts : CString → Bool
  bytes : CString → List UInt8

/-- What the client runs on. -/
structure Platform where
  page : CodePage
  decoder : Decoder
  /-- The constructors of `web::uri` and `http_client` do not throw. -/
  accepts : WString → Bool

/-- What lies in the memory of a call: in `http_result`, and in the first byte of `pszAnsi`. -/
structure Memory where
  http_result : UInt16
  pszAnsi : UInt8

/-- What comes of a request: an `http_exception` before there is a status, or a status with a body. -/
inductive Response where
  | failed
  | answered (status : UInt16) (body : Body)

/-- What the pointers of the caller point to. `ppData` is null, or has the bytes that were decoded. -/
structure Outputs (ε : Type) where
  ppData : Option (List UInt8)
  iSize : Nat
  extra : ε

def Outputs.null {ε : Type} (out : Outputs ε) : Outputs ε := { out with ppData := none }

/-- `answer` and `http_result`. The one exception that is caught is an `http_exception`. -/
def makeRequestGet (memory : Memory) : Response → Except Stop (Json × UInt16)
  | .failed => .ok (.null, memory.http_result)
  | .answered status body =>
    if status ≠ 200 then .ok (.null, status)
    else match body with
      | .json answer => .ok (answer, status)
      | .unreadable => .ok (.null, status)
      | .malformed => .error .jsonException

/-- `MultiByteToWideChar` into a `wchar_t [ 1000 ]`, with a terminator that may come to stand behind it. -/
def wideBuffer (page : CodePage) (text : CString) : Except Stop WString :=
  let sz := if (page.widen text).length ≤ 1000 then page.widen text else []
  if sz.length = 1000 then .error .undefined else .ok sz

section Calls
variable (platform : Platform) (memory : Memory) {ε : Type}

/-- What the calls make of an answer with status 200. -/
def receive (key : String) (readExtra : Json → Except Stop ε) (answer : Json) (out : Outputs ε) :
    Except Stop Bool × Outputs ε :=
  if (answer.field? (wide "error_message")).isNone then (.ok false, out.null)
  else match answer.field? (wide key) with
    | none => (.ok false, out.null)
    | some (.string str1) =>
      let pszAnsi := platform.page.narrowInto memory.pszAnsi str1.length str1
      let data := platform.decoder.bytes pszAnsi
      let out := { out with ppData := some data, iSize := data.length }
      match readExtra answer with
      | .error stop => (.error stop, out)
      | .ok extra => (.ok true, { out with extra })
    | some _ => (.error .jsonException, out)

def getPayload (key : String) (readExtra : Json → Except Stop ε) (pszUrl : WString) (pszClientId : CString)
    (response : Response) (out : Outputs ε) : Except Stop Bool × Outputs ε :=
  match wideBuffer platform.page pszClientId with
  | .error stop => (.error stop, out)
  | .ok _ =>
    if ¬ platform.accepts pszUrl then (.error .uriException, out)
    else match makeRequestGet memory response with
      | .error stop => (.error stop, out)
      | .ok (answer, http_result) =>
        if http_result ≠ 200 then (.ok false, out.null)
        else match answer with
          | .null => (.ok false, out.null)
          | answer => receive platform memory key readExtra answer out

def getModel := getPayload platform memory "model" fun _ => .ok ()

/-- `answer [ L"size" ].as_integer ()`. -/
def sizeOf (answer : Json) : Except Stop Int :=
  match answer.field? (wide "size") with
  | some (.number value) => .ok (value.bmod (2 ^ 32))
  | _ => .error .jsonException

def getModelInfo := getPayload platform memory "info" sizeOf

/-- `answer [ L"url" ].as_string ()`. -/
def urlOf (answer : Json) : Except Stop WString :=
  match answer.field? (wide "url") with
  | some (.string sUrl) => .ok sUrl
  | _ => .error .jsonException

def getAd := getPayload platform memory "ad" urlOf

end Calls

/-! ### What the calls promise -/

section Promise
variable (platform : Platform) (memory : Memory) {ε : Type} (key : String) (readExtra : Json → Except Stop ε)

/-- The decoder takes the text for these bytes, whatever is written for a character that the page lacks. -/
def Decodes (s : WString) (data : List UInt8) : Prop :=
  ∀ lpDefaultChar, platform.decoder.accepts (platform.page.narrow lpDefaultChar s) = true ∧
    platform.decoder.bytes (platform.page.narrow lpDefaultChar s) = data

/-- The bytes that the decoder makes of the text, in a buffer of as many bytes as it has characters. -/
def used (s : WString) : List UInt8 :=
  platform.decoder.bytes (platform.page.narrowInto memory.pszAnsi s.length s)

/-- No exception: true with what was sent, or false with a null pointer. -/
def Survives (answer : Json) (result : Except Stop Bool × Outputs ε) : Prop :=
  (∃ s data extra, answer.field? (wide key) = some (.string s) ∧ Decodes platform s data ∧
    readExtra answer = .ok extra ∧ result = (.ok true, ⟨some data, data.length, extra⟩)) ∨
  ∃ out : Outputs ε, result = (.ok false, out) ∧ out.ppData = none

/-- `Survives`, for the answer that the server has sent with status 200, if there is one. -/
def CallSurvives (response : Response) (result : Except Stop Bool × Outputs ε) : Prop :=
  (∃ answer, response = .answered 200 (.json answer) ∧ Survives platform key readExtra answer result) ∨
  ∃ out : Outputs ε, result = (.ok false, out) ∧ out.ppData = none

/-- The payload, if there is one with an `error_message`, is a text that decodes, with a further field that can
be read. -/
def PayloadFit (answer : Json) : Prop :=
  (answer.field? (wide "error_message")).isSome → ∀ payload, answer.field? (wide key) = some payload →
    ∃ s, payload = .string s ∧ Decodes platform s (used platform memory s) ∧ ∃ extra, readExtra answer = .ok extra

structure Harmless (pszUrl : WString) (pszClientId : CString) (response : Response) : Prop where
  url : platform.accepts pszUrl = true
  clientId : (platform.page.widen pszClientId).length ≠ 1000
  parsed : response ≠ .answered 200 .malformed
  payload : ∀ answer, response = .answered 200 (.json answer) → PayloadFit platform memory key readExtra answer

variable {platform memory key readExtra}

theorem receive_survives_iff (answer : Json) (out : Outputs ε) :
    Survives platform key readExtra answer (receive platform memory key readExtra answer out) ↔
      PayloadFit platform memory key readExtra answer := by
  unfold receive PayloadFit Survives
  cases message : answer.field? (wide "error_message") with
  | none =>
    simp only [Option.isNone_none, if_true, Option.isSome_none, Bool.false_eq_true, false_imp_iff, iff_true]
    exact Or.inr ⟨_, rfl, rfl⟩
  | some text =>
    simp only [Option.isNone_some, Bool.false_eq_true, if_false, Option.isSome_some, forall_const]
    cases payload : answer.field? (wide key) with
    | none =>
      simp only [reduceCtorEq, false_imp_iff, implies_true, iff_true]
      exact Or.inr ⟨_, rfl, rfl⟩
    | some v =>
      cases v with
      | string s =>
        cases read : readExtra answer with
        | error stop => simp
        | ok extra => simp [used]
      | _ => simp

theorem wideBuffer_ok (page : CodePage) (text : CString) (notFull : (page.widen text).length ≠ 1000) :
    wideBuffer page text = .ok (if (page.widen text).length < 1000 then page.widen text else []) := by
  unfold wideBuffer
  by_cases fits : (page.widen text).length < 1000
  · rw [if_pos (Nat.le_of_lt fits), if_neg notFull, if_pos fits]
  · have long : ¬ (page.widen text).length ≤ 1000 := by omega
    rw [if_neg long, if_neg fits]
    rfl

theorem wideBuffer_error (page : CodePage) (text : CString) (full : (page.widen text).length = 1000) :
    wideBuffer page text = .error .undefined := by
  simp [wideBuffer, full]

theorem not_survives_error {response : Response} {stop : Stop} {out : Outputs ε} :
    ¬ CallSurvives platform key readExtra response (.error stop, out) := by
  intro survives
  rcases survives with ⟨_, _, ⟨_, _, _, _, _, _, same⟩ | ⟨_, same, _⟩⟩ | ⟨_, same, _⟩
  all_goals cases same

theorem survives_null {response : Response} (out : Outputs ε) :
    CallSurvives platform key readExtra response (.ok false, out.null) :=
  Or.inr ⟨out.null, rfl, rfl⟩

theorem callSurvives_iff (answer : Json) (result : Except Stop Bool × Outputs ε) :
    CallSurvives platform key readExtra (.answered 200 (.json answer)) result ↔
      Survives platform key readExtra answer result := by
  constructor
  · intro survives
    rcases survives with ⟨other, same, survives⟩ | null
    · cases same
      exact survives
    · exact Or.inr null
  · exact fun survives => Or.inl ⟨answer, rfl, survives⟩

/-- A call survives exactly when its arguments, and what a status of 200 comes with, are harmless. -/
theorem getPayload_survives_iff (pszUrl : WString) (pszClientId : CString) (response : Response) (out : Outputs ε) :
    CallSurvives platform key readExtra response
      (getPayload platform memory key readExtra pszUrl pszClientId response out) ↔
      Harmless platform memory key readExtra pszUrl pszClientId response := by
  by_cases full : (platform.page.widen pszClientId).length = 1000
  · rw [getPayload, wideBuffer_error _ _ full]
    exact iff_of_false not_survives_error fun harmless => harmless.clientId full
  have id := wideBuffer_ok _ _ full
  by_cases url : platform.accepts pszUrl = true
  · cases response with
    | failed =>
      have null : getPayload platform memory key readExtra pszUrl pszClientId .failed out = (.ok false, out.null) := by
        simp only [getPayload, id, url, not_true_eq_false, if_false, makeRequestGet, ite_self]
      rw [null]
      exact iff_of_true (survives_null out) ⟨url, full, nofun, nofun⟩
    | answered status body =>
      by_cases success : status = 200
      · subst success
        cases body with
        | malformed =>
          refine iff_of_false ?_ fun harmless => harmless.parsed rfl
          simp only [getPayload, id, url, not_true_eq_false, if_false, makeRequestGet, ne_eq]
          exact not_survives_error
        | unreadable =>
          refine iff_of_true ?_ ⟨url, full, nofun, nofun⟩
          simp only [getPayload, id, url, not_true_eq_false, if_false, makeRequestGet, ne_eq]
          exact survives_null out
        | json answer =>
          have received : getPayload platform memory key readExtra pszUrl pszClientId (.answered 200 (.json answer))
              out = receive platform memory key readExtra answer out := by
            simp only [getPayload, id, url, not_true_eq_false, if_false, makeRequestGet, ne_eq]
            cases answer <;> rfl
          rw [received, callSurvives_iff, receive_survives_iff]
          constructor
          · intro fit
            refine ⟨url, full, nofun, ?_⟩
            intro other same
            cases same
            exact fit
          · exact fun harmless => harmless.payload answer rfl
      · refine iff_of_true ?_ ⟨url, full, ?_, ?_⟩
        · simp only [getPayload, id, url, not_true_eq_false, if_false, makeRequestGet, ne_eq, success,
            not_false_eq_true, if_true]
          exact survives_null out
        · intro same
          cases same
          exact success rfl
        · intro answer same
          cases same
          exact absurd rfl success
  · rw [getPayload, id]
    simp only [url]
    exact iff_of_false not_survives_error fun harmless => url harmless.url

end Promise

section Survival
variable (platform : Platform) (memory : Memory) (pszUrl : WString) (pszClientId : CString) (response : Response)

/-- `GetModel`, `GetModelInfo` and `GetAd`, whatever the server does. -/
theorem calls_survive_iff :
    (∀ out, CallSurvives platform "model" (fun _ => .ok ()) response
        (getModel platform memory pszUrl pszClientId response out) ↔
      Harmless platform memory "model" (fun _ => .ok ()) pszUrl pszClientId response) ∧
    (∀ out, CallSurvives platform "info" sizeOf response
        (getModelInfo platform memory pszUrl pszClientId response out) ↔
      Harmless platform memory "info" sizeOf pszUrl pszClientId response) ∧
    (∀ out, CallSurvives platform "ad" urlOf response
        (getAd platform memory pszUrl pszClientId response out) ↔
      Harmless platform memory "ad" urlOf pszUrl pszClientId response) :=
  ⟨getPayload_survives_iff pszUrl pszClientId response, getPayload_survives_iff pszUrl pszClientId response,
    getPayload_survives_iff pszUrl pszClientId response⟩

end Survival

/-- A decoder that takes every text, as that of `atlenc.h` does when there is room. -/
def smallPlatform : Platform := ⟨Small.page, ⟨fun _ => true, Small.base64.decode⟩, fun _ => true⟩

/-- A body that is not JSON, with status 200. -/
theorem malformed_escapes :
    ¬ CallSurvives smallPlatform "model" (fun _ => .ok ()) (.answered 200 .malformed)
      (getModel smallPlatform ⟨0, 0⟩ (wide "http://h/") [] (.answered 200 .malformed) ⟨none, 0, ()⟩) := by
  rw [getModel, getPayload_survives_iff]
  exact fun harmless => harmless.parsed rfl

end ModelPublish.Client
