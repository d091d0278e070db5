import ModelPublish.Client.Arrival
import ModelPublish.Cpprest.Message

/-!
# The bodies of requests and replies

What the client and the server hand to each other is a JSON value, as a text in UTF-8. Each of them
reads in it what the other has put there.
-/

namespace ModelPublish.Client
open Server
open Cpprest (setBody extractJson findByKey eof Paired Ordered)

/-- What both programs are linked with: the C library and its doubles. -/
structure Runtime (D : Type) where
  lib : Cpprest.CLibrary D
  sorting : Cpprest.Sorting D
  print : D → WString
  /-- A `double` as an `int`. -/
  truncate : D → Int

section Seen
variable {D : Type} (truncate : D → Int)

mutual

/-- A value as the handlers and the calls read it. -/
def seen : Cpprest.Value D → Json
  | .null => .null
  | .boolean b => .boolean b
  | .number (.integral i) => .number i.value
  | .number (.double d) => .number (truncate d)
  | .string s => .string s.m_string
  | .array elements => .array (seenElements elements)
  | .object elements => .object (seenFields elements)

def seenElements : List (Cpprest.Value D) → List Json
  | [] => []
  | element :: rest => seen element :: seenElements rest

def seenFields : List (WString × Cpprest.Value D) → List (WString × Json)
  | [] => []
  | (key, element) :: rest => (key, seen element) :: seenFields rest

end

theorem lookup_seenFields (elements : List (WString × Cpprest.Value D)) (key : WString) :
    (seenFields truncate elements).lookup key = (elements.lookup key).map (seen truncate) := by
  induction elements with
  | nil => rfl
  | cons field rest ih =>
    obtain ⟨name, element⟩ := field
    rw [seenFields, List.lookup_cons, List.lookup_cons]
    cases key == name with
    | true => rfl
    | false => exact ih

/-- Of an object that has been filled, a field has the value that it was last given. -/
theorem field?_built (fields : List (WString × Cpprest.Value D)) (key : WString) :
    (seen truncate (.object (Cpprest.built fields))).field? key = (fields.reverse.lookup key).map (seen truncate) := by
  rw [seen, Json.field?, lookup_seenFields, Cpprest.lookup_built]

/-- The parameters that a handler is given are the fields of the body that it is to have. -/
theorem lookup_bodyParams (jsonBody : Json) (keys : List String) (key : String) :
    (bodyParams jsonBody keys).lookup (wide key) =
      if wide key ∈ keys.map wide then jsonBody.field? (wide key) else none := by
  induction keys with
  | nil => rfl
  | cons k keys ih =>
    rw [bodyParams] at ih ⊢
    rw [List.map_cons]
    by_cases same : wide key = wide k
    · rw [if_pos (same ▸ List.mem_cons_self)]
      cases found : jsonBody.field? (wide k) with
      | none =>
        rw [List.filterMap_cons_none (by rw [found]; rfl), ih, same, found, ite_self]
      | some value =>
        rw [List.filterMap_cons_some (by rw [found]; rfl), same, List.lookup_cons_self, found]
    · have differs : (wide key == wide k) = false := beq_eq_false_iff_ne.mpr same
      have behind : wide key ∈ wide k :: keys.map wide ↔ wide key ∈ keys.map wide :=
        ⟨fun member => (List.mem_cons.mp member).resolve_left same, List.mem_cons_of_mem _⟩
      rw [if_congr behind rfl rfl, ← ih]
      cases found : jsonBody.field? (wide k) with
      | none => rw [List.filterMap_cons_none (by rw [found]; rfl)]
      | some value =>
        rw [List.filterMap_cons_some (by rw [found]; rfl), List.lookup_cons, differs]

/-- The fields of the body that a handler is given. -/
theorem bodyParams_built (fields : List (WString × Cpprest.Value D)) (keys : List String) :
    bodyParams (seen truncate (.object (Cpprest.built fields))) keys =
      keys.filterMap fun key =>
        (fields.reverse.lookup (wide key)).map fun value => (wide key, seen truncate value) := by
  rw [bodyParams]
  refine List.filterMap_congr fun key _ => ?_
  rw [field?_built, Option.map_map]
  rfl

end Seen

/-! ### Bodies -/

section Bodies
variable {D : Type}

theorem bmod_lower (n : Int) : -2 ^ 63 ≤ n.bmod (2 ^ 32) := by
  have low := Int.le_bmod (x := n) (m := 2 ^ 32) (by decide)
  omega

theorem bmod_upper (n : Int) : n.bmod (2 ^ 32) < 2 ^ 64 := by
  have high := Int.bmod_lt (x := n) (m := 2 ^ 32) (by decide)
  omega

/-- `json::value::number` of an `int`. -/
def number (n : Int) : Cpprest.Value D := .number (.integral ⟨n.bmod (2 ^ 32), bmod_lower n, bmod_upper n⟩)

/-- `json::value::string`. -/
def string (s : WString) : Cpprest.Value D := .string (.of s)

variable (rt : Runtime D)

/-- What `extract_json` gives, unless it ends in an exception that nobody expects. -/
def bodyOf (body : List UInt8) : Option Body :=
  match extractJson rt.lib rt.sorting body with
  | .done value => some (.json (seen rt.truncate value))
  | .jsonException _ => some .malformed
  | .rangeError _ => none
  | .undefined => none

/-- A text that comes through: no `0xFFFF`, and no half of a surrogate pair. -/
def Fit (s : WString) : Prop := eof ∉ s ∧ Paired s

/-- A number, or a text that comes through. -/
inductive Fine : Cpprest.Value D → Prop where
  | number (n : Int) : Fine (number n)
  | string {s : WString} (fit : Fit s) : Fine (string s)

variable {rt}

theorem Fine.sendable {v : Cpprest.Value D} (fine : Fine v) : v.Sendable := by
  cases fine with
  | number n => exact .number _
  | string fit => exact .string fit.1 fit.2

theorem Fine.depth {v : Cpprest.Value D} (fine : Fine v) : v.depth = 0 := by
  cases fine <;> rfl

theorem depthFields_fine {elements : List (WString × Cpprest.Value D)} (fine : ∀ field ∈ elements, Fine field.2) :
    Cpprest.depthFields elements = 0 := by
  induction elements with
  | nil => rfl
  | cons field rest ih =>
    obtain ⟨head, others⟩ := List.forall_mem_cons.mp fine
    rw [Cpprest.depthFields, head.depth, ih others]
    rfl

theorem fit_of_ascii {s : WString} (ascii : ∀ c ∈ s, c < 128) : Fit s :=
  ⟨fun member => absurd (ascii eof member) (by decide), Cpprest.paired_of_ascii ascii⟩

theorem widened_ascii {p : CString} (ascii : ∀ c ∈ p, c < 128) : ∀ c ∈ widened p, c < 128 := by
  intro c member
  obtain ⟨b, among, rfl⟩ := List.mem_map.mp member
  rw [UInt16.lt_iff_toNat_lt, UInt8.toNat_toUInt16]
  exact UInt8.lt_iff_toNat_lt.mp (ascii b among)

/-- An object of such fields arrives as it was filled. -/
theorem body_arrives {fields : List (WString × Cpprest.Value D)}
    (fine : ∀ field ∈ fields, Fit field.1 ∧ Fine field.2) :
    ∃ body, setBody rt.print (.object (Cpprest.built fields)) = .done body ∧
      bodyOf rt body = some (.json (seen rt.truncate (.object (Cpprest.built fields)))) := by
  have kept : ∀ field ∈ Cpprest.built fields, Fit field.1 ∧ Fine field.2 := fun field member =>
    fine field (Cpprest.mem_built member)
  have sendable : (Cpprest.Value.object (Cpprest.built fields)).Sendable :=
    .object (Cpprest.built_ordered fields) (fun field member => (kept field member).1)
      fun field member => (kept field member).2.sendable
  have shallow : (Cpprest.Value.object (Cpprest.built fields)).depth ≤ 128 := by
    rw [Cpprest.Value.depth, depthFields_fine fun field member => (kept field member).2]
    decide
  obtain ⟨body, written, read⟩ := Cpprest.extractJson_setBody rt.lib rt.sorting rt.print sendable shallow
  refine ⟨body, written, ?_⟩
  rw [bodyOf, read]

end Bodies

/-! ### Replies -/

section Replies
variable {D : Type}

/-- The fields that have been set. -/
def present (fields : List (WString × Option (Cpprest.Value D))) : List (WString × Cpprest.Value D) :=
  fields.filterMap fun field => field.2.map fun value => (field.1, value)

/-- The fields of `answer`, which are the same object in whichever order they were set. -/
def answerFields (reply : Reply) : List (WString × Option (Cpprest.Value D)) :=
  [(wide "error_message", some (string (wide reply.errorMessage))),
    (wide "error_code", some (number reply.errorCode.value)),
    (wide "model", reply.model.map string),
    (wide "ad", reply.ad.map string),
    (wide "url", reply.url.map string),
    (wide "info", reply.info.map string),
    (wide "size", reply.size.map fun n : Nat => number n),
    (wide "model_id", reply.modelId.map number),
    (wide "ad_id", reply.adId.map number),
    (wide "subscription_id", reply.subscriptionId.map string)]

def answer (reply : Reply) : Cpprest.Value D := .object (Cpprest.built (present (answerFields reply)))

theorem lookup_present (fields : List (WString × Option (Cpprest.Value D))) (key : WString) :
    (present fields).reverse.lookup key =
      fields.reverse.findSome? fun field => if field.1 = key then field.2 else none := by
  rw [present, List.filterMap_reverse.symm]
  induction fields.reverse with
  | nil => rfl
  | cons field rest ih =>
    rw [List.findSome?_cons, ← ih]
    cases set : field.2 with
    | none =>
      rw [List.filterMap_cons_none (by rw [set]; rfl), ite_self]
    | some value =>
      rw [List.filterMap_cons_some (by rw [set]; rfl), List.lookup_cons]
      by_cases same : field.1 = key
      · rw [if_pos same, same, beq_self_eq_true]
      · have differs : (key == field.1) = false := beq_eq_false_iff_ne.mpr (Ne.symm same)
        rw [if_neg same, differs]

variable (truncate : D → Int)

theorem field?_answer (reply : Reply) (key : WString) :
    (seen truncate (answer reply)).field? key = ((answerFields reply).reverse.findSome? fun field =>
      if field.1 = key then field.2 else none).map (seen truncate) := by
  rw [answer, field?_built, lookup_present]

theorem field?_errorMessage (reply : Reply) :
    (seen truncate (answer reply)).field? (wide "error_message") = some (.string (wide reply.errorMessage)) := by
  rw [field?_answer]
  rfl

theorem field?_model (reply : Reply) :
    (seen truncate (answer reply)).field? (wide "model") = reply.model.map .string := by
  rw [field?_answer, answerFields]
  cases reply.model <;> rfl

theorem field?_ad (reply : Reply) :
    (seen truncate (answer reply)).field? (wide "ad") = reply.ad.map .string := by
  rw [field?_answer, answerFields]
  cases reply.ad <;> rfl

theorem field?_url (reply : Reply) :
    (seen truncate (answer reply)).field? (wide "url") = reply.url.map .string := by
  rw [field?_answer, answerFields]
  cases reply.url <;> rfl

theorem field?_modelId (reply : Reply) : (seen truncate (answer reply)).field? (wide "model_id") =
    reply.modelId.map fun n => .number (n.bmod (2 ^ 32)) := by
  rw [field?_answer, answerFields]
  cases reply.modelId <;> rfl

theorem field?_adId (reply : Reply) : (seen truncate (answer reply)).field? (wide "ad_id") =
    reply.adId.map fun n => .number (n.bmod (2 ^ 32)) := by
  rw [field?_answer, answerFields]
  cases reply.adId <;> rfl

theorem field?_subscriptionId (reply : Reply) :
    (seen truncate (answer reply)).field? (wide "subscription_id") = reply.subscriptionId.map .string := by
  rw [field?_answer, answerFields]
  cases reply.subscriptionId <;> rfl

/-- All texts of the reply come through. -/
def Legible (reply : Reply) : Prop :=
  Fit (wide reply.errorMessage) ∧
    ∀ text ∈ [reply.model, reply.ad, reply.url, reply.info, reply.subscriptionId], ∀ s ∈ text, Fit s

theorem answer_fine {reply : Reply} (legible : Legible reply) :
    ∀ field ∈ present (answerFields (D := D) reply), Fit field.1 ∧ Fine field.2 := by
  have text {s : Option WString} (among : s ∈ [reply.model, reply.ad, reply.url, reply.info, reply.subscriptionId]) :
      ∀ value ∈ s.map (string (D := D)), Fine value := by
    intro value member
    obtain ⟨t, given, rfl⟩ := Option.map_eq_some_iff.mp member
    exact .string (legible.2 s among t given)
  have int {n : Option Int} : ∀ value ∈ n.map (number (D := D)), Fine value := by
    intro value member
    obtain ⟨m, -, rfl⟩ := Option.map_eq_some_iff.mp member
    exact .number m
  have keys : ((answerFields (D := D) reply).map Prod.fst).all (fun key => key.all (· < 128)) = true := rfl
  have values : ∀ field ∈ answerFields (D := D) reply, ∀ value ∈ field.2, Fine value := by
    simp only [answerFields, List.forall_mem_cons]
    refine ⟨?_, ?_, text (by simp), text (by simp), text (by simp), text (by simp), ?_, int, int, text (by simp),
      List.forall_mem_nil _⟩
    · exact fun value member => Option.some.inj member ▸ .string legible.1
    · exact fun value member => Option.some.inj member ▸ .number _
    · intro value member
      obtain ⟨m, -, rfl⟩ := Option.map_eq_some_iff.mp member
      exact .number m
  intro field member
  obtain ⟨entry, among, set⟩ := List.mem_filterMap.mp member
  obtain ⟨value, given, rfl⟩ := Option.map_eq_some_iff.mp set
  have ascii := List.all_eq_true.mp keys entry.1 (List.mem_map_of_mem among)
  exact ⟨fit_of_ascii (Cpprest.ascii_of_all ascii), values entry among value given⟩

end Replies

end ModelPublish.Client
