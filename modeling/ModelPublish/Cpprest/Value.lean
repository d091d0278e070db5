import ModelPublish.Cpprest.Utf

/-!
# json::value

The values of `json.h`, and the text that `json_serialization.cpp` writes for one. A string remembers
whether it may hold a character to escape, and is copied where it does not.
-/

namespace Cpprest

def literal (s : String) : WString := s.toList.map fun c => c.toNat.toUInt16

/-- A whole number that `int64_t` or `uint64_t` holds. The constructors of `json::number` keep the
negative ones as the first, all others as the second. -/
structure Integral where
  value : Int
  lower : -2 ^ 63 ≤ value
  upper : value < 2 ^ 64
  deriving DecidableEq

/-- `json::number`. Only the C library knows what is in a `double`. -/
inductive Number (D : Type) where
  | integral (i : Integral)
  | double (d : D)

/-- The test of `has_escape_chars`. -/
def mustEscape (x : UInt16) : Bool := decide (x ≤ 31) || decide (x = 34) || decide (x = 92)

def hasEscapeChars (s : WString) : Bool := s.any mustEscape

theorem hasEscapeChars_cons (x : UInt16) (s : WString) :
    hasEscapeChars (x :: s) = (mustEscape x || hasEscapeChars s) := List.any_cons

/-- `_String`. -/
structure Text where
  m_string : WString
  m_has_escape_char : Bool
  copied : m_has_escape_char = false → hasEscapeChars m_string = false

/-- The constructor that looks for itself. -/
def Text.of (s : WString) : Text := ⟨s, hasEscapeChars s, id⟩

/-- `json::value`. -/
inductive Value (D : Type) where
  | null
  | boolean (b : Bool)
  | number (n : Number D)
  | string (s : Text)
  | array (elements : List (Value D))
  | object (elements : List (WString × Value D))

/-- Induction over a value, its elements and its fields. -/
theorem Value.induct {D : Type} {P : Value D → Prop} (null : P .null) (boolean : ∀ b, P (.boolean b))
    (number : ∀ n, P (.number n)) (string : ∀ s, P (.string s))
    (array : ∀ elements, (∀ v ∈ elements, P v) → P (.array elements))
    (object : ∀ elements, (∀ field ∈ elements, P field.2) → P (.object elements)) (v : Value D) : P v :=
  Value.rec (motive_2 := fun elements => ∀ v ∈ elements, P v)
    (motive_3 := fun elements => ∀ field ∈ elements, P field.2) (motive_4 := fun field => P field.2)
    null boolean number string array object (List.forall_mem_nil _)
    (fun _ _ first rest => List.forall_mem_cons.mpr ⟨first, rest⟩) (List.forall_mem_nil _)
    (fun _ _ first rest => List.forall_mem_cons.mpr ⟨first, rest⟩) (fun _ _ value => value) v

/-! ### Writing -/

def intToHex (n : UInt16) : UInt16 := if n < 10 then n + 48 else n + 55

/-- What `append_escape_string` appends for one character. -/
def escapeChar (ch : UInt16) : WString :=
  if ch = 34 then [92, 34]
  else if ch = 92 then [92, 92]
  else if ch = 8 then [92, 98]
  else if ch = 12 then [92, 102]
  else if ch = 13 then [92, 114]
  else if ch = 10 then [92, 110]
  else if ch = 9 then [92, 116]
  else if ch ≤ 0x1F then [92, 117, 48, 48, intToHex ((ch &&& 0xF0) >>> 4), intToHex (ch &&& 0x0F)]
  else [ch]

def appendEscapeString (escaped : WString) : WString := escaped.flatMap escapeChar

/-- `format_string`, for a key. -/
def formatString (key : WString) : WString := 34 :: (appendEscapeString key ++ [34])

def Text.format (s : Text) : WString :=
  34 :: ((if s.m_has_escape_char then appendEscapeString s.m_string else s.m_string) ++ [34])

/-- `_ui64tow_s`, and `print_llu` as well. -/
def decimal (n : Nat) : WString := (Nat.toDigits 10 n).map fun c => c.toNat.toUInt16

/-- `_i64tow_s` for the negative ones. -/
def Integral.format (i : Integral) : WString := (if i.value < 0 then [45] else []) ++ decimal i.value.natAbs

section
variable {D : Type} (print : D → WString)

def Number.format : Number D → WString
  | .integral i => i.format
  | .double d => print d

mutual

/-- `format`, where `print` is what `_swprintf_s_l` makes of a `double`. -/
def Value.format : Value D → WString
  | .null => literal "null"
  | .boolean b => literal (if b then "true" else "false")
  | .number n => n.format print
  | .string s => s.format
  | .array elements => 91 :: (formatElements elements ++ [93])
  | .object elements => 123 :: (formatFields elements ++ [125])

def formatElements : List (Value D) → WString
  | [] => []
  | [lastElement] => lastElement.format
  | element :: rest => element.format ++ 44 :: formatElements rest

def formatFields : List (WString × Value D) → WString
  | [] => []
  | [(key, lastElement)] => formatString key ++ 58 :: lastElement.format
  | (key, element) :: rest => formatString key ++ 58 :: (element.format ++ 44 :: formatFields rest)

end

theorem formatElements_cons (first second : Value D) (rest : List (Value D)) :
    formatElements print (first :: second :: rest) =
      first.format print ++ 44 :: formatElements print (second :: rest) := by
  rw [formatElements]
  exact List.cons_ne_nil _ _

theorem formatFields_cons (key : WString) (value : Value D) (second : WString × Value D)
    (rest : List (WString × Value D)) :
    formatFields print ((key, value) :: second :: rest) =
      formatString key ++ 58 :: (value.format print ++ 44 :: formatFields print (second :: rest)) := by
  rw [formatFields]
  exact List.cons_ne_nil _ _

end

/-! ### What is copied would not have changed -/

theorem escapeChar_plain {ch : UInt16} (plain : mustEscape ch = false) : escapeChar ch = [ch] := by
  simp only [mustEscape, Bool.or_eq_false_iff, decide_eq_false_iff_not, UInt16.le_iff_toNat_le,
    ← UInt16.toNat_inj, UInt16.reduceToNat] at plain
  simp only [escapeChar, UInt16.le_iff_toNat_le, ← UInt16.toNat_inj, UInt16.reduceToNat]
  simp only [plain.1.2, plain.2, plain.1.1, if_false, show ch.toNat ≠ 8 by omega,
    show ch.toNat ≠ 12 by omega, show ch.toNat ≠ 13 by omega, show ch.toNat ≠ 10 by omega,
    show ch.toNat ≠ 9 by omega]

theorem appendEscapeString_plain {s : WString} (plain : hasEscapeChars s = false) :
    appendEscapeString s = s := by
  induction s with
  | nil => rfl
  | cons ch s ih =>
    rw [hasEscapeChars_cons, Bool.or_eq_false_iff] at plain
    rw [appendEscapeString, List.flatMap_cons, escapeChar_plain plain.1]
    exact congrArg (ch :: ·) (ih plain.2)

/-- The short way writes what the long way does. -/
theorem Text.format_eq (s : Text) : s.format = formatString s.m_string := by
  rw [Text.format, formatString]
  split
  · rfl
  · rename_i plain
    rw [appendEscapeString_plain (s.copied (Bool.eq_false_iff.mpr plain))]

end Cpprest
