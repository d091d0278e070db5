import ModelPublish.Cpprest.Tokens

/-!
# json::value::parse

The parser over the tokens. Every function is given the token it stands at and leaves the one behind
what it has read.
-/

namespace Cpprest

variable {D : Type}

/-- `std::sort` with `compare_pairs`: the order of fields of one name is not said. -/
structure Sorting (D : Type) where
  sort : List (WString × Value D) → List (WString × Value D)
  perm : ∀ elems, (sort elems).Perm elems
  sorted : ∀ elems, (sort elems).Pairwise fun p1 p2 => ¬ p2.1 < p1.1

/-- `wchar_t` as the number it is. -/
scoped instance linearOrderUInt16 : LinearOrder UInt16 where
  le_refl := UInt16.le_refl
  le_trans _ _ _ := UInt16.le_trans
  le_antisymm _ _ := UInt16.le_antisymm
  le_total := UInt16.le_total
  lt_iff_le_not_ge a b := by
    rw [UInt16.lt_iff_toNat_lt, UInt16.le_iff_toNat_le, UInt16.le_iff_toNat_le]
    omega
  toDecidableLE := inferInstance
  toDecidableEq := inferInstance
  toDecidableLT := inferInstance

/-- Names in order, none of them twice. -/
def Ordered (elems : List (WString × Value D)) : Prop := elems.Pairwise fun p1 p2 => p1.1 < p2.1

theorem Ordered.unique {elems : List (WString × Value D)} (ordered : Ordered elems)
    {p q : WString × Value D} (left : p ∈ elems) (right : q ∈ elems) (same : p.1 = q.1) : p = q := by
  have different : (elems.map Prod.fst).Nodup :=
    List.pairwise_map.mpr (ordered.imp fun below => ne_of_lt below)
  exact List.inj_on_of_nodup_map different left right same

/-- Fields that are in order stay where they are. -/
theorem Sorting.sort_ordered (sorting : Sorting D) {elems : List (WString × Value D)} (ordered : Ordered elems) :
    sorting.sort elems = elems := by
  have asymmetric : elems.Pairwise fun p1 p2 => ¬ p2.1 < p1.1 := ordered.imp fun below => below.not_gt
  refine List.Perm.eq_of_pairwise ?_ (sorting.sorted elems) asymmetric (sorting.perm elems)
  intro p q left right above below
  exact ordered.unique ((sorting.perm elems).subset left) right
    (le_antisymm (not_lt.mp above) (not_lt.mp below))

variable (lib : CLibrary D) (sorting : Sorting D)

/-- A value, the token behind it and where the parser stands then. -/
abbrev Parsed (D : Type) : Type := Value D × Token D × Cursor

/-- The token behind a value that is complete. -/
def behind (value : Value D) (cursor : Cursor) : Except Failure (Parsed D) := do
  let (tkn, cursor) ← getNextToken lib cursor
  .ok (value, tkn, cursor)

/-- `done` in `_ParseObject`. -/
def objectDone (elems : List (WString × Value D)) (cursor : Cursor) : Except Failure (Parsed D) :=
  behind lib (.object (sorting.sort elems)) cursor

mutual

/-- `_ParseValue`. -/
def parseValue : Nat → Token D → Cursor → Except Failure (Parsed D)
  | 0, _, _ => .error .endless
  | rounds + 1, tkn, cursor =>
    match tkn.kind with
    | .openBrace => parseObject rounds cursor
    | .openBracket => parseArray rounds cursor
    | .stringLiteral s => behind lib (.string s) cursor
    | .integerLiteral i => behind lib (.number (.integral i)) cursor
    | .numberLiteral d => behind lib (.number (.double d)) cursor
    | .booleanLiteral b => behind lib (.boolean b) cursor
    | .nullLiteral => behind lib .null cursor
    | _ => .error (.thrown .malformedToken tkn.start)

/-- `_ParseObject`. -/
def parseObject : Nat → Cursor → Except Failure (Parsed D)
  | 0, _ => .error .endless
  | rounds + 1, cursor => do
    let (tkn, cursor) ← getNextToken lib cursor
    match tkn.kind with
    | .closeBrace => objectDone lib sorting [] cursor
    | _ => parseFields rounds [] tkn cursor

/-- The loop of `_ParseObject`. A name with no colon behind it ends the object. -/
def parseFields : Nat → List (WString × Value D) → Token D → Cursor → Except Failure (Parsed D)
  | 0, _, _, _ => .error .endless
  | rounds + 1, elems, tkn, cursor =>
    match tkn.kind with
    | .stringLiteral fieldName => do
      let (tkn, cursor) ← getNextToken lib cursor
      match tkn.kind with
      | .colon => do
        let (tkn, cursor) ← getNextToken lib cursor
        let (value, tkn, cursor) ← parseValue rounds tkn cursor
        let elems := elems ++ [(fieldName.m_string, value)]
        match tkn.kind with
        | .comma => do
          let (tkn, cursor) ← getNextToken lib cursor
          parseFields rounds elems tkn cursor
        | .closeBrace => objectDone lib sorting elems cursor
        | _ => .error (.thrown .malformedObjectLiteral tkn.start)
      | _ => objectDone lib sorting elems cursor
    | _ => .error (.thrown .malformedObjectLiteral tkn.start)

/-- `_ParseArray`. -/
def parseArray : Nat → Cursor → Except Failure (Parsed D)
  | 0, _ => .error .endless
  | rounds + 1, cursor => do
    let (tkn, cursor) ← getNextToken lib cursor
    match tkn.kind with
    | .closeBracket => behind lib (.array []) cursor
    | _ => parseElements rounds [] tkn cursor

/-- The loop of `_ParseArray`. -/
def parseElements : Nat → List (Value D) → Token D → Cursor → Except Failure (Parsed D)
  | 0, _, _, _ => .error .endless
  | rounds + 1, elements, tkn, cursor => do
    let (value, tkn, cursor) ← parseValue rounds tkn cursor
    let elements := elements ++ [value]
    match tkn.kind with
    | .comma => do
      let (tkn, cursor) ← getNextToken lib cursor
      parseElements rounds elements tkn cursor
    | .closeBracket => behind lib (.array elements) cursor
    | _ => .error (.thrown .malformedArrayLiteral tkn.start)

end

/-- The calls on the way to the end of a text take four rounds for each character at most. -/
def rounds (text : WString) : Nat := 4 * text.length + 4

def parse (text : WString) : Except Failure (Value D) := do
  let (tkn, cursor) ← getNextToken lib ⟨text, 0⟩
  let (value, tkn, _) ← parseValue lib sorting (rounds text) tkn cursor
  match tkn.kind with
  | .eof => .ok value
  | _ => .error (.thrown .leftOverCharacterInStream tkn.start)

/-- `m_currentLine` and `m_currentColumn`, one character on. -/
def advance (place : Nat × Nat) (ch : UInt16) : Nat × Nat :=
  if ch = 10 then (place.1 + 1, 0) else (place.1, place.2 + 1)

/-- The line and the column behind these characters. -/
def location (consumed : WString) : Nat × Nat := consumed.foldl advance (1, 1)

/-- What `CreateException` throws. -/
def what (text : WString) (error : JsonError) (start : WString) : WString :=
  let (line, column) := location (text.take (text.length - start.length))
  literal "* Line " ++ decimal line ++ literal ", Column " ++ decimal column ++ literal " Syntax error: " ++
    literal error.message

end Cpprest
