import ModelPublish.Cpprest.Accepted
import ModelPublish.Cpprest.Object

/-!
# A JSON value in a message

`set_body` of `http_msg.h` and `extract_json`, which is told to ignore the content type: between the
value and the bytes lie its text and UTF-8.
-/

namespace Cpprest

variable {D : Type} (lib : CLibrary D) (sorting : Sorting D) (print : D → WString)

/-- What comes of `extract_json`. -/
inductive Extracted (D : Type) where
  | done (value : Value D)
  | jsonException (what : WString)
  | rangeError (error : RangeError)
  | undefined

/-- The body of a message. -/
def setBody (v : Value D) : Converted UInt8 := utf16ToUtf8 (v.format print)

def extractJson (body : List UInt8) : Extracted D :=
  match utf8ToUtf16 body with
  | .undefined => .undefined
  | .thrown error => .rangeError error
  | .done text =>
    match parse lib sorting text with
    | .ok value => .done value
    | .error (.thrown error start) => .jsonException (what text error start)
    | .error .endless => .undefined

theorem extractJson_defined (body : List UInt8) : extractJson lib sorting body ≠ .undefined := by
  intro undefined
  unfold extractJson at undefined
  rcases converted : utf8ToUtf16 body with text | error | _
  · rw [converted] at undefined
    rcases result : parse lib sorting text with failure | v
    · cases failure with
      | endless => exact parse_ends lib sorting text result
      | thrown error start =>
        simp only [result] at undefined
        cases undefined
    · simp only [result] at undefined
      cases undefined
  · rw [converted] at undefined
    cases undefined
  · rcases counted : countUtf8ToUtf16 body body.length with error | n
    · rw [utf8ToUtf16, counted] at converted
      cases converted
    · obtain ⟨units, done, -⟩ := utf8ToUtf16_written counted
      cases converted.symm.trans done

/-! ### Surrogates -/

theorem paired_of_none {s : WString} (none : ∀ ch ∈ s, ¬ isHighSurrogate ch) : Paired s := by
  induction s with
  | nil => trivial
  | cons ch rest ih =>
    obtain ⟨first, others⟩ := List.forall_mem_cons.mp none
    exact (paired_alone first rest).mpr (ih others)

theorem paired_append {s t : WString} (left : Paired s) (right : Paired t) : Paired (s ++ t) := by
  fun_induction Paired s with
  | case1 => exact right
  | case2 ch high => exact left.elim
  | case3 ch high lowSurrogate rest ih =>
    exact (paired_pair high lowSurrogate (rest ++ t)).mpr ⟨left.1, ih left.2⟩
  | case4 ch rest alone ih => exact (paired_alone alone (rest ++ t)).mpr (ih left)

theorem small_not_high {ch : UInt16} (small : ch < 128) : ¬ isHighSurrogate ch := by
  refine short_not_high ?_
  rw [UInt16.le_iff_toNat_le]
  exact Nat.le_trans (Nat.le_of_lt (UInt16.lt_iff_toNat_lt.mp small)) (by decide)

theorem paired_of_ascii {s : WString} (ascii : ∀ ch ∈ s, ch < 128) : Paired s :=
  paired_of_none fun ch member => small_not_high (ascii ch member)

theorem ascii_of_all {s : WString} (all : s.all (· < 128) = true) : ∀ ch ∈ s, ch < 128 := fun ch member =>
  of_decide_eq_true (List.all_eq_true.mp all ch member)

theorem paired_cons {ch : UInt16} {s : WString} (small : ch < 128) (paired : Paired s) : Paired (ch :: s) :=
  (paired_alone (small_not_high small) s).mpr paired

theorem escapeChar_control (n : Fin 32) : (escapeChar n.val.toUInt16).all (· < 128) = true := by
  revert n
  decide +kernel

theorem escapeChar_ascii {ch : UInt16} (must : mustEscape ch = true) : ∀ c ∈ escapeChar ch, c < 128 := by
  simp only [mustEscape, Bool.or_eq_true, decide_eq_true_eq] at must
  refine ascii_of_all ?_
  rcases must with (control | rfl) | rfl
  · have := escapeChar_control ⟨ch.toNat, Nat.lt_succ_of_le (UInt16.le_iff_toNat_le.mp control)⟩
    rwa [show ch.toNat.toUInt16 = ch from UInt16.ofNat_toNat] at this
  · decide
  · decide

theorem surrogate_plain {ch : UInt16} (above : 0xD800 ≤ ch) : mustEscape ch = false := by
  have := UInt16.le_iff_toNat_le.mp above
  simp only [UInt16.reduceToNat] at this
  simp only [mustEscape, Bool.or_eq_false_iff, decide_eq_false_iff_not, UInt16.le_iff_toNat_le,
    ← UInt16.toNat_inj, UInt16.reduceToNat]
  omega

/-- Escapes come between pairs, never into one. -/
theorem paired_appendEscapeString {s : WString} (paired : Paired s) : Paired (appendEscapeString s) := by
  fun_induction Paired s with
  | case1 => trivial
  | case2 => exact paired.elim
  | case3 ch high lowSurrogate rest ih =>
    have low : (0xD800 : UInt16) ≤ lowSurrogate := UInt16.le_trans (by decide) paired.1.1
    rw [appendEscapeString, List.flatMap_cons, List.flatMap_cons, escapeChar_plain (surrogate_plain high.1),
      escapeChar_plain (surrogate_plain low)]
    exact (paired_pair high lowSurrogate _).mpr ⟨paired.1, ih paired.2⟩
  | case4 ch rest alone ih =>
    rw [appendEscapeString, List.flatMap_cons]
    rcases must : mustEscape ch with _ | _
    · rw [escapeChar_plain must]
      exact (paired_alone alone _).mpr (ih paired)
    · exact paired_append (paired_of_ascii (escapeChar_ascii must)) (ih paired)

theorem paired_formatString {key : WString} (paired : Paired key) : Paired (formatString key) :=
  paired_cons (by decide) (paired_append (paired_appendEscapeString paired)
    (paired_of_ascii (List.forall_mem_singleton.mpr (by decide))))

theorem paired_decimal (n : Nat) : Paired (decimal n) := by
  refine paired_of_ascii fun ch member => ?_
  obtain ⟨c, among, rfl⟩ := List.mem_map.mp member
  have bounds := Nat.isDigit_of_mem_toDigits (by decide) (by decide) among
  simp only [Char.isDigit, Bool.and_eq_true, decide_eq_true_eq] at bounds
  have upper : c.toNat ≤ 57 := bounds.2
  rw [UInt16.lt_iff_toNat_lt, Nat.toUInt16_eq, UInt16.toNat_ofNat']
  exact Nat.lt_of_le_of_lt (Nat.mod_le _ _) (Nat.lt_of_le_of_lt upper (by decide))

/-! ### Values that can be sent -/

/-- Plain, and with every high surrogate of its texts in front of a low one. -/
inductive Value.Sendable : Value D → Prop where
  | null : Value.Sendable .null
  | boolean (b : Bool) : Value.Sendable (.boolean b)
  | number (i : Integral) : Value.Sendable (.number (.integral i))
  | string {s : WString} (known : eof ∉ s) (paired : Paired s) : Value.Sendable (.string (.of s))
  | array {elements : List (Value D)} (inner : ∀ v ∈ elements, v.Sendable) : Value.Sendable (.array elements)
  | object {elements : List (WString × Value D)} (ordered : Ordered elements)
      (known : ∀ field ∈ elements, eof ∉ field.1 ∧ Paired field.1)
      (inner : ∀ field ∈ elements, field.2.Sendable) : Value.Sendable (.object elements)

theorem Value.Sendable.plain {v : Value D} (sendable : v.Sendable) : v.Plain := by
  induction sendable with
  | null => exact .null
  | boolean b => exact .boolean b
  | number i => exact .number i
  | string known => exact .string known
  | array inner ih => exact .array ih
  | object ordered known inner ih => exact .object ordered (fun field member => (known field member).1) ih

theorem paired_formatElements {elements : List (Value D)} (paired : ∀ v ∈ elements, Paired (v.format print)) :
    Paired (formatElements print elements) := by
  induction elements with
  | nil =>
    rw [formatElements]
    trivial
  | cons first rest ih =>
    obtain ⟨head, others⟩ := List.forall_mem_cons.mp paired
    cases rest with
    | nil =>
      rw [formatElements]
      exact head
    | cons second rest =>
      rw [formatElements_cons]
      exact paired_append head (paired_cons (by decide) (ih others))

theorem paired_formatFields {elements : List (WString × Value D)} (names : ∀ field ∈ elements, Paired field.1)
    (paired : ∀ field ∈ elements, Paired (field.2.format print)) : Paired (formatFields print elements) := by
  induction elements with
  | nil =>
    rw [formatFields]
    trivial
  | cons field rest ih =>
    obtain ⟨key, value⟩ := field
    obtain ⟨name, names⟩ := List.forall_mem_cons.mp names
    obtain ⟨head, others⟩ := List.forall_mem_cons.mp paired
    cases rest with
    | nil =>
      rw [formatFields]
      exact paired_append (paired_formatString name) (paired_cons (by decide) head)
    | cons second rest =>
      rw [formatFields_cons]
      exact paired_append (paired_formatString name) (paired_cons (by decide)
        (paired_append head (paired_cons (by decide) (ih names others))))

theorem paired_format {v : Value D} (sendable : v.Sendable) : Paired (v.format print) := by
  have bracket {ch : UInt16} (small : ch < 128) : Paired [ch] :=
    paired_of_ascii (List.forall_mem_singleton.mpr small)
  induction sendable with
  | null =>
    have ascii : (literal "null").all (· < 128) = true := by decide
    exact paired_of_ascii (ascii_of_all ascii)
  | boolean b =>
    have ascii : (literal (if b then "true" else "false")).all (· < 128) = true := by cases b <;> decide
    exact paired_of_ascii (ascii_of_all ascii)
  | number i =>
    rw [Value.format, Number.format, Integral.format]
    refine paired_append ?_ (paired_decimal _)
    split
    · exact bracket (by decide)
    · trivial
  | string known paired =>
    rw [Value.format, Text.format_eq]
    exact paired_formatString paired
  | array inner ih =>
    rw [Value.format]
    exact paired_cons (by decide) (paired_append (paired_formatElements print ih) (bracket (by decide)))
  | object ordered known inner ih =>
    rw [Value.format]
    exact paired_cons (by decide) (paired_append
      (paired_formatFields print (fun field member => (known field member).2) ih) (bracket (by decide)))

/-- A value that is sent arrives. -/
theorem extractJson_setBody {v : Value D} (sendable : v.Sendable) (fits : v.depth ≤ 128) :
    ∃ body, setBody print v = .done body ∧ extractJson lib sorting body = .done v := by
  obtain ⟨body, written, -⟩ := utf16ToUtf8_paired (paired_format print sendable)
  refine ⟨body, written, ?_⟩
  rw [extractJson, utf8ToUtf16_utf16ToUtf8 written]
  simp only [parse_shallow lib sorting print sendable.plain fits]

end Cpprest
