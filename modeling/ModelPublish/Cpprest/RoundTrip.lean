import ModelPublish.Cpprest.Scanned

/-!
# What is written is read

`parse` of the text that `format` writes. The parser counts open brackets and braces, the writer does
not: a value that is nested deeper than the parser goes is written all the same, and refused.
-/

namespace Cpprest

variable {D : Type}

mutual

/-- How many arrays and objects lie in one another. -/
def Value.depth : Value D → Nat
  | .array elements => depthElements elements + 1
  | .object elements => depthFields elements + 1
  | _ => 0

def depthElements : List (Value D) → Nat
  | [] => 0
  | element :: rest => max element.depth (depthElements rest)

def depthFields : List (WString × Value D) → Nat
  | [] => 0
  | (_, element) :: rest => max element.depth (depthFields rest)

end

/-- Values as they are built: whole numbers, strings that know what they hold, and fields in the order
of their names, which all differ. No character is the one that the parser takes for the end. -/
inductive Value.Plain : Value D → Prop where
  | null : Value.Plain .null
  | boolean (b : Bool) : Value.Plain (.boolean b)
  | number (i : Integral) : Value.Plain (.number (.integral i))
  | string {s : WString} (known : eof ∉ s) : Value.Plain (.string (.of s))
  | array {elements : List (Value D)} (plain : ∀ v ∈ elements, v.Plain) : Value.Plain (.array elements)
  | object {elements : List (WString × Value D)} (ordered : Ordered elements)
      (known : ∀ field ∈ elements, eof ∉ field.1) (plain : ∀ field ∈ elements, field.2.Plain) :
      Value.Plain (.object elements)

/-- What comes of reading a text that is nested as deep as may be, or deeper. -/
def ReadsTo {α : Type} (result : Except Failure α) (fits : Prop) (expected : Except Failure α) : Prop :=
  (fits → result = expected) ∧ (¬ fits → ∃ start, result = .error (.thrown .nesting start))

variable (lib : CLibrary D) (sorting : Sorting D) (print : D → WString)

/-- The next token, and the value that it begins. -/
def readValue (rounds : Nat) (cursor : Cursor) : Except Failure (Parsed D) := do
  let (tkn, cursor) ← getNextToken lib cursor
  parseValue lib sorting rounds tkn cursor

def readElements (rounds : Nat) (elements : List (Value D)) (cursor : Cursor) : Except Failure (Parsed D) := do
  let (tkn, cursor) ← getNextToken lib cursor
  parseElements lib sorting rounds elements tkn cursor

def readFields (rounds : Nat) (elems : List (WString × Value D)) (cursor : Cursor) :
    Except Failure (Parsed D) := do
  let (tkn, cursor) ← getNextToken lib cursor
  parseFields lib sorting rounds elems tkn cursor

theorem readElements_succ (rounds : Nat) (elements : List (Value D)) (cursor : Cursor) :
    readElements lib sorting (rounds + 1) elements cursor = (do
      let (value, tkn, cursor) ← readValue lib sorting rounds cursor
      match tkn.kind with
      | .comma => readElements lib sorting rounds (elements ++ [value]) cursor
      | .closeBracket => behind lib (.array (elements ++ [value])) cursor
      | _ => .error (.thrown .malformedArrayLiteral tkn.start)) := by
  exact (bind_assoc (getNextToken lib cursor) _ _).symm

/-- Where the name is a string with a colon behind it. -/
theorem readFields_succ (rounds : Nat) (elems : List (WString × Value D)) {cursor named colon : Cursor}
    {key start start' : WString}
    (name : getNextToken lib cursor = .ok (⟨.stringLiteral (.of key), start⟩, named))
    (mark : getNextToken lib named = .ok (⟨.colon, start'⟩, colon)) :
    readFields lib sorting (rounds + 1) elems cursor = (do
      let (value, tkn, cursor) ← readValue lib sorting rounds colon
      match tkn.kind with
      | .comma => readFields lib sorting rounds (elems ++ [(key, value)]) cursor
      | .closeBrace => objectDone lib sorting (elems ++ [(key, value)]) cursor
      | _ => .error (.thrown .malformedObjectLiteral tkn.start)) := by
  rw [readFields, name]
  show parseFields lib sorting (rounds + 1) elems ⟨.stringLiteral (.of key), start⟩ named = _
  rw [parseFields]
  simp only [mark]
  simp only [readFields, readValue, bind_assoc]
  rfl

/-! ### In front of a value and behind it -/

theorem stops_cons {ch : UInt16} (stops : isDigit ch = false ∧ ch ≠ 46 ∧ ch ≠ 69 ∧ ch ≠ 101)
    (rest : WString) : Stops (ch :: rest) := stops

theorem stops_nil : Stops [] := ⟨rfl, by decide, by decide, by decide⟩

/-- No value begins like the end of an array. -/
theorem first_of_value {v : Value D} (plain : v.Plain) {rest : WString} (stops : Stops rest) {depth : Nat}
    {tkn : Token D} {cursor : Cursor} (read : getNextToken lib ⟨v.format print ++ rest, depth⟩ = .ok (tkn, cursor)) :
    tkn.kind ≠ .closeBracket := by
  intro closes
  cases plain with
  | null =>
    obtain ⟨start, first⟩ := getNextToken_null lib depth rest
    cases (Prod.mk.inj (Except.ok.inj (first.symm.trans read))).1
    cases closes
  | boolean b =>
    obtain ⟨start, first⟩ := getNextToken_boolean lib depth rest b
    cases (Prod.mk.inj (Except.ok.inj (first.symm.trans read))).1
    cases closes
  | number i =>
    obtain ⟨start, first⟩ := getNextToken_integral lib depth rest i stops
    cases (Prod.mk.inj (Except.ok.inj (first.symm.trans read))).1
    cases closes
  | @string s known =>
    obtain ⟨start, first⟩ := getNextToken_string lib depth rest known
    rw [Value.format, Text.format_eq] at read
    cases (Prod.mk.inj (Except.ok.inj (first.symm.trans read))).1
    cases closes
  | array =>
    rw [Value.format, List.cons_append] at read
    by_cases room : depth < 128
    · cases (Prod.mk.inj (Except.ok.inj ((getNextToken_openBracket lib depth _ room).symm.trans read))).1
      cases closes
    · cases (getNextToken_nesting lib depth _ (.inr rfl) (Nat.not_lt.mp room)).symm.trans read
  | object =>
    rw [Value.format, List.cons_append] at read
    by_cases room : depth < 128
    · cases (Prod.mk.inj (Except.ok.inj ((getNextToken_openBrace lib depth _ room).symm.trans read))).1
      cases closes
    · cases (getNextToken_nesting lib depth _ (.inl rfl) (Nat.not_lt.mp room)).symm.trans read

/-- What the parser is to make of a value's text, wherever it stands. -/
def Readable (v : Value D) : Prop :=
  ∀ rest depth rounds, Stops rest → depth ≤ 128 → 4 * (v.format print).length ≤ rounds →
    ReadsTo (readValue lib sorting rounds ⟨v.format print ++ rest, depth⟩) (depth + v.depth ≤ 128)
      (behind lib v ⟨rest, depth⟩)

variable {lib sorting print}

theorem behind_comma (v : Value D) (rest : WString) (depth : Nat) :
    behind lib v ⟨44 :: rest, depth⟩ = .ok (v, ⟨.comma, rest⟩, ⟨rest, depth⟩) := by
  rw [behind, getNextToken_comma]
  rfl

theorem behind_closeBracket (v : Value D) (rest : WString) (depth : Nat) :
    behind lib v ⟨93 :: rest, depth + 1⟩ = .ok (v, ⟨.closeBracket, rest⟩, ⟨rest, depth⟩) := by
  rw [behind, getNextToken_closeBracket]
  rfl

theorem behind_closeBrace (v : Value D) (rest : WString) (depth : Nat) :
    behind lib v ⟨125 :: rest, depth + 1⟩ = .ok (v, ⟨.closeBrace, rest⟩, ⟨rest, depth⟩) := by
  rw [behind, getNextToken_closeBrace]
  rfl

/-- The loop of an array: one element, and the others by induction. -/
theorem readElements_format {elements : List (Value D)} (some : elements ≠ [])
    (readable : ∀ v ∈ elements, Readable lib sorting print v) (before : List (Value D)) (rest : WString)
    {depth rounds : Nat} (bounded : depth + 1 ≤ 128)
    (enough : 4 * (formatElements print elements).length + 1 ≤ rounds) :
    ReadsTo (readElements lib sorting rounds before ⟨formatElements print elements ++ 93 :: rest, depth + 1⟩)
      (depth + 1 + depthElements elements ≤ 128) (behind lib (.array (before ++ elements)) ⟨rest, depth⟩) := by
  obtain ⟨rounds, rfl⟩ := Nat.exists_eq_succ_of_ne_zero (by omega : rounds ≠ 0)
  induction elements generalizing before rounds with
  | nil => exact absurd rfl some
  | cons element others ih =>
    obtain ⟨first, readable⟩ := List.forall_mem_cons.mp readable
    cases others with
    | nil =>
      rw [formatElements] at enough ⊢
      have read := first (93 :: rest) (depth + 1) rounds (stops_cons (by decide) rest) bounded (by omega)
      rw [readElements_succ]
      simp only [depthElements, Nat.max_zero]
      refine ⟨fun fits => ?_, fun deep => ?_⟩
      · rw [read.1 fits, behind_closeBracket]
        rfl
      · obtain ⟨start, failed⟩ := read.2 deep
        exact ⟨start, by rw [failed]; rfl⟩
    | cons second others =>
      rw [formatElements_cons, List.length_append, List.length_cons] at enough
      obtain ⟨rounds, rfl⟩ := Nat.exists_eq_succ_of_ne_zero (by omega : rounds ≠ 0)
      have read := first (44 :: (formatElements print (second :: others) ++ 93 :: rest)) (depth + 1)
        (rounds + 1) (stops_cons (by decide) _) bounded (by omega)
      have further := ih (List.cons_ne_nil _ _) readable (before ++ [element]) rounds (by omega)
      rw [formatElements_cons, List.append_assoc, List.cons_append, readElements_succ, depthElements]
      by_cases fits : depth + 1 + element.depth ≤ 128
      · rw [read.1 fits, behind_comma]
        rw [List.append_assoc, List.singleton_append] at further
        exact ⟨fun all => further.1 (by omega), fun deep => further.2 (by omega)⟩
      · obtain ⟨start, failed⟩ := read.2 fits
        exact ⟨fun all => absurd all (by omega), fun _ => ⟨start, by rw [failed]; rfl⟩⟩

/-- The loop of an object. -/
theorem readFields_format {elems : List (WString × Value D)} (some : elems ≠ [])
    (known : ∀ field ∈ elems, eof ∉ field.1)
    (readable : ∀ field ∈ elems, Readable lib sorting print field.2) (before : List (WString × Value D))
    (rest : WString) {depth rounds : Nat} (bounded : depth + 1 ≤ 128)
    (enough : 4 * (formatFields print elems).length + 1 ≤ rounds) :
    ReadsTo (readFields lib sorting rounds before ⟨formatFields print elems ++ 125 :: rest, depth + 1⟩)
      (depth + 1 + depthFields elems ≤ 128) (objectDone lib sorting (before ++ elems) ⟨rest, depth⟩) := by
  obtain ⟨rounds, rfl⟩ := Nat.exists_eq_succ_of_ne_zero (by omega : rounds ≠ 0)
  induction elems generalizing before rounds with
  | nil => exact absurd rfl some
  | cons field others ih =>
    obtain ⟨key, value⟩ := field
    obtain ⟨first, readable⟩ := List.forall_mem_cons.mp readable
    obtain ⟨named, known⟩ := List.forall_mem_cons.mp known
    have first : Readable lib sorting print value := first
    cases others with
    | nil =>
      rw [formatFields, List.length_append, List.length_cons] at enough
      have read := first (125 :: rest) (depth + 1) rounds (stops_cons (by decide) rest) bounded (by omega)
      obtain ⟨start, name⟩ := getNextToken_string lib (depth + 1)
        (58 :: (value.format print ++ 125 :: rest)) named
      rw [formatFields, List.append_assoc, List.cons_append,
        readFields_succ lib sorting rounds before name (getNextToken_colon lib _ _)]
      simp only [depthFields, Nat.max_zero]
      refine ⟨fun fits => ?_, fun deep => ?_⟩
      · rw [read.1 fits, behind_closeBrace]
        rfl
      · obtain ⟨start, failed⟩ := read.2 deep
        exact ⟨start, by rw [failed]; rfl⟩
    | cons second others =>
      rw [formatFields_cons, List.length_append, List.length_cons, List.length_append, List.length_cons]
        at enough
      obtain ⟨rounds, rfl⟩ := Nat.exists_eq_succ_of_ne_zero (by omega : rounds ≠ 0)
      have read := first (44 :: (formatFields print (second :: others) ++ 125 :: rest)) (depth + 1)
        (rounds + 1) (stops_cons (by decide) _) bounded (by omega)
      have further := ih (List.cons_ne_nil _ _) known readable (before ++ [(key, value)]) rounds (by omega)
      obtain ⟨start, name⟩ := getNextToken_string lib (depth + 1)
        (58 :: (value.format print ++ 44 :: (formatFields print (second :: others) ++ 125 :: rest))) named
      rw [formatFields_cons, List.append_assoc, List.cons_append, List.append_assoc, List.cons_append,
        readFields_succ lib sorting (rounds + 1) before name (getNextToken_colon lib _ _), depthFields]
      by_cases fits : depth + 1 + value.depth ≤ 128
      · rw [read.1 fits, behind_comma]
        rw [List.append_assoc, List.singleton_append] at further
        exact ⟨fun all => further.1 (by omega), fun deep => further.2 (by omega)⟩
      · obtain ⟨start, failed⟩ := read.2 fits
        exact ⟨fun all => absurd all (by omega), fun _ => ⟨start, by rw [failed]; rfl⟩⟩

/-! ### Every value -/

theorem length_format_pos {v : Value D} (plain : v.Plain) : 0 < (v.format print).length := by
  cases plain with
  | null => exact Nat.succ_pos _
  | boolean b => cases b <;> exact Nat.succ_pos _
  | number i =>
    have lower := i.lower
    have upper := i.upper
    obtain ⟨d, -, tail, front, -⟩ := parseInt64_decimal i.value.natAbs (by omega)
    rw [Value.format, Number.format, Integral.format, front, List.length_append, List.length_cons]
    omega
  | string =>
    rw [Value.format, Text.format]
    exact Nat.succ_pos _
  | array =>
    rw [Value.format]
    exact Nat.succ_pos _
  | object =>
    rw [Value.format]
    exact Nat.succ_pos _

/-- A value of one token. -/
theorem readable_token {v : Value D} {kind : Kind D} {rest : WString} {depth rounds : Nat}
    (plain : v.Plain) (flat : v.depth = 0) (bounded : depth ≤ 128)
    (enough : 4 * (v.format print).length ≤ rounds)
    (token : ∃ start, getNextToken lib ⟨v.format print ++ rest, depth⟩ = .ok (⟨kind, start⟩, ⟨rest, depth⟩))
    (made : ∀ rounds start, parseValue lib sorting (rounds + 1) ⟨kind, start⟩ ⟨rest, depth⟩ =
      behind lib v ⟨rest, depth⟩) :
    ReadsTo (readValue lib sorting rounds ⟨v.format print ++ rest, depth⟩) (depth + v.depth ≤ 128)
      (behind lib v ⟨rest, depth⟩) := by
  have positive : 0 < (v.format print).length := length_format_pos plain
  obtain ⟨rounds, rfl⟩ := Nat.exists_eq_succ_of_ne_zero (by omega : rounds ≠ 0)
  obtain ⟨start, token⟩ := token
  refine ⟨fun _ => ?_, fun deep => absurd (flat ▸ bounded) deep⟩
  rw [readValue, token]
  exact made rounds start

/-- Where the next token does not end the array. -/
theorem parseArray_some (rounds : Nat) {cursor : Cursor}
    (some : ∀ tkn behind, getNextToken lib cursor = .ok (tkn, behind) → tkn.kind ≠ .closeBracket) :
    parseArray lib sorting (rounds + 1) cursor = readElements lib sorting rounds [] cursor := by
  rw [parseArray, readElements]
  rcases next : getNextToken lib cursor with failure | ⟨⟨kind, start⟩, cursor⟩
  · rfl
  · have := some _ _ next
    cases kind with
    | closeBracket => exact absurd rfl this
    | _ => rfl

theorem readable_array {elements : List (Value D)} (plain : ∀ v ∈ elements, v.Plain)
    (readable : ∀ v ∈ elements, Readable lib sorting print v) : Readable lib sorting print (.array elements) := by
  intro rest depth rounds _ bounded enough
  rw [Value.format, List.length_cons, List.length_append] at enough
  obtain ⟨rounds, rfl⟩ := Nat.exists_eq_add_of_le' (by omega : 2 ≤ rounds)
  rw [Value.format, List.cons_append, List.append_assoc, List.singleton_append, Value.depth, readValue]
  by_cases room : depth < 128
  · rw [getNextToken_openBracket lib _ _ room]
    show ReadsTo (parseArray lib sorting (rounds + 1) _) _ _
    cases elements with
    | nil =>
      rw [parseArray, formatElements, List.nil_append, getNextToken_closeBracket]
      exact ⟨fun _ => rfl, fun deep => absurd (by rw [depthElements]; omega) deep⟩
    | cons first others =>
      have opens : ∀ tkn cursor, getNextToken lib
          ⟨formatElements print (first :: others) ++ 93 :: rest, depth + 1⟩ = .ok (tkn, cursor) →
          tkn.kind ≠ .closeBracket := by
        intro tkn cursor read
        have firstPlain := plain first List.mem_cons_self
        cases others with
        | nil => exact first_of_value lib print firstPlain (stops_cons (by decide) rest) read
        | cons second others =>
          rw [formatElements_cons, List.append_assoc] at read
          exact first_of_value lib print firstPlain (stops_cons (by decide) _) read
      rw [parseArray_some rounds opens]
      have long : 4 * (formatElements print (first :: others)).length + 1 ≤ rounds := by omega
      have read := readElements_format (List.cons_ne_nil first others) readable [] rest
        (Nat.succ_le_of_lt room) long
      rw [List.nil_append] at read
      exact ⟨fun fits => read.1 (by omega), fun deep => read.2 (by omega)⟩
  · rw [getNextToken_nesting lib _ _ (.inr rfl) (Nat.not_lt.mp room)]
    exact ⟨fun fits => absurd fits (by omega), fun _ => ⟨_, rfl⟩⟩

/-- The name that an object begins with does not end it. -/
theorem parseObject_some (rounds : Nat) {cursor named : Cursor} {key start : WString}
    (name : getNextToken lib cursor = .ok (⟨.stringLiteral (.of key), start⟩, named)) :
    parseObject lib sorting (rounds + 1) cursor = readFields lib sorting rounds [] cursor := by
  rw [parseObject, readFields, name]
  rfl

theorem readable_object {elements : List (WString × Value D)} (ordered : Ordered elements)
    (known : ∀ field ∈ elements, eof ∉ field.1)
    (readable : ∀ field ∈ elements, Readable lib sorting print field.2) :
    Readable lib sorting print (.object elements) := by
  intro rest depth rounds _ bounded enough
  rw [Value.format, List.length_cons, List.length_append] at enough
  obtain ⟨rounds, rfl⟩ := Nat.exists_eq_add_of_le' (by omega : 2 ≤ rounds)
  rw [Value.format, List.cons_append, List.append_assoc, List.singleton_append, Value.depth, readValue]
  by_cases room : depth < 128
  · rw [getNextToken_openBrace lib _ _ room]
    show ReadsTo (parseObject lib sorting (rounds + 1) _) _ _
    cases elements with
    | nil =>
      rw [parseObject, formatFields, List.nil_append, getNextToken_closeBrace]
      show ReadsTo (behind lib (.object (sorting.sort [])) _) _ _
      rw [sorting.sort_ordered ordered]
      exact ⟨fun _ => rfl, fun deep => absurd (by rw [depthFields]; omega) deep⟩
    | cons first others =>
      have name : ∃ start named, getNextToken lib
          ⟨formatFields print (first :: others) ++ 125 :: rest, depth + 1⟩ =
            .ok (⟨.stringLiteral (.of first.1), start⟩, named) := by
        have firstKnown := known first List.mem_cons_self
        obtain ⟨key, value⟩ := first
        cases others with
        | nil =>
          rw [formatFields, List.append_assoc]
          obtain ⟨start, name⟩ := getNextToken_string lib (depth + 1) _ firstKnown
          exact ⟨start, _, name⟩
        | cons second others =>
          rw [formatFields_cons, List.append_assoc]
          obtain ⟨start, name⟩ := getNextToken_string lib (depth + 1) _ firstKnown
          exact ⟨start, _, name⟩
      obtain ⟨start, named, name⟩ := name
      rw [parseObject_some rounds name]
      have long : 4 * (formatFields print (first :: others)).length + 1 ≤ rounds := by omega
      have read := readFields_format (List.cons_ne_nil first others) known readable [] rest
        (Nat.succ_le_of_lt room) long
      rw [List.nil_append, objectDone, sorting.sort_ordered ordered] at read
      exact ⟨fun fits => read.1 (by omega), fun deep => read.2 (by omega)⟩
  · rw [getNextToken_nesting lib _ _ (.inl rfl) (Nat.not_lt.mp room)]
    exact ⟨fun fits => absurd fits (by omega), fun _ => ⟨_, rfl⟩⟩

theorem readable_of_plain {v : Value D} (plain : v.Plain) : Readable lib sorting print v := by
  induction plain with
  | null =>
    intro rest depth rounds _ bounded enough
    exact readable_token .null rfl bounded enough (getNextToken_null lib depth rest) fun _ _ => rfl
  | boolean b =>
    intro rest depth rounds _ bounded enough
    exact readable_token (.boolean b) rfl bounded enough (getNextToken_boolean lib depth rest b)
      fun _ _ => rfl
  | number i =>
    intro rest depth rounds stops bounded enough
    exact readable_token (.number i) rfl bounded enough (getNextToken_integral lib depth rest i stops)
      fun _ _ => rfl
  | @string s known =>
    intro rest depth rounds _ bounded enough
    have token : ∃ start, getNextToken lib ⟨(Value.string (.of s)).format print ++ rest, depth⟩ =
        .ok (⟨.stringLiteral (.of s), start⟩, ⟨rest, depth⟩) := by
      rw [Value.format, Text.format_eq]
      exact getNextToken_string lib depth rest known
    exact readable_token (.string known) rfl bounded enough token fun _ _ => rfl
  | array plain ih => exact readable_array plain ih
  | object ordered known plain ih => exact readable_object ordered known ih

theorem parse_eq_read (text : WString) : parse lib sorting text = (do
    let (value, tkn, _) ← readValue lib sorting (rounds text) ⟨text ++ [], 0⟩
    match tkn.kind with
    | .eof => .ok value
    | _ => .error (.thrown .leftOverCharacterInStream tkn.start)) := by
  rw [List.append_nil]
  exact (bind_assoc (getNextToken lib ⟨text, 0⟩) _ _).symm

variable (lib sorting print)

theorem parse_shallow {v : Value D} (plain : v.Plain) (fits : v.depth ≤ 128) :
    parse lib sorting (v.format print) = .ok v := by
  have readable : Readable lib sorting print v := readable_of_plain plain
  have read := readable [] 0 (rounds (v.format print)) stops_nil (by decide) (Nat.le_add_right _ _)
  rw [parse_eq_read, read.1 (by omega), behind, getNextToken_nil]
  rfl

theorem parse_deep {v : Value D} (plain : v.Plain) (deep : 128 < v.depth) :
    ∃ start, parse lib sorting (v.format print) = .error (.thrown .nesting start) := by
  have readable : Readable lib sorting print v := readable_of_plain plain
  have read := readable [] 0 (rounds (v.format print)) stops_nil (by decide) (Nat.le_add_right _ _)
  obtain ⟨start, failed⟩ := read.2 (by omega)
  exact ⟨start, by rw [parse_eq_read, failed]; rfl⟩

/-- The text of a value is read as the value, unless it is nested deeper than the parser goes. -/
theorem parse_format {v : Value D} (plain : v.Plain) :
    (v.depth ≤ 128 → parse lib sorting (v.format print) = .ok v) ∧
      (128 < v.depth → ∃ start, parse lib sorting (v.format print) = .error (.thrown .nesting start)) :=
  ⟨parse_shallow lib sorting print plain, parse_deep lib sorting print plain⟩

/-! ### A small library

For white space in ASCII, and without doubles.
-/

theorem small_space {ch : UInt16} (_ : ch < 128) :
    (decide (ch = 32) || decide (9 ≤ ch ∧ ch ≤ 13)) = true ↔ ch = 32 ∨ (9 ≤ ch ∧ ch ≤ 13) := by
  rw [Bool.or_eq_true, decide_eq_true_eq, decide_eq_true_eq]

def smallLibrary : CLibrary Unit where
  iswspace ch := decide (ch = 32) || decide (9 ≤ ch ∧ ch ≤ 13)
  wcstod _ := ()
  negated _ := ()
  neg _ := ()
  iswspace_ascii _ ascii := small_space ascii

theorem small_trans (p q r : WString × Value Unit) (left : decide (p.1 ≤ q.1) = true)
    (right : decide (q.1 ≤ r.1) = true) : decide (p.1 ≤ r.1) = true :=
  decide_eq_true (le_trans (of_decide_eq_true left) (of_decide_eq_true right))

theorem small_total (p q : WString × Value Unit) : (decide (p.1 ≤ q.1) || decide (q.1 ≤ p.1)) = true := by
  rw [Bool.or_eq_true, decide_eq_true_eq, decide_eq_true_eq]
  exact le_total p.1 q.1

def smallSorting : Sorting Unit where
  sort elems := elems.mergeSort fun p1 p2 => decide (p1.1 ≤ p2.1)
  perm elems := List.mergeSort_perm elems _
  sorted elems := (List.pairwise_mergeSort small_trans small_total elems).imp fun below =>
    not_lt.mpr (of_decide_eq_true below)

/-- `{"a":-1,"b":[]}`. -/
def smallValue : Value Unit :=
  .object [([97], .number (.integral ⟨-1, by decide, by decide⟩)), ([98], .array [])]

theorem smallValue_plain : smallValue.Plain := by
  refine .object (List.pairwise_pair.mpr (by decide)) ?_ ?_
  · simp [eof]
  · simp only [List.forall_mem_cons]
    exact ⟨.number _, .array (List.forall_mem_nil _), List.forall_mem_nil _⟩

theorem parse_format_small :
    parse smallLibrary smallSorting (smallValue.format fun _ => []) = .ok smallValue :=
  (parse_format smallLibrary smallSorting (fun _ => []) smallValue_plain).1 (by decide)

end Cpprest
