import ModelPublish.Cpprest.RoundTrip

/-!
# What the parser accepts

The parser comes to an end on every text. What it accepts is nested no deeper than it counts, and the
fields of every object are in order, also where braces are missing.
-/

namespace Cpprest

variable {D : Type} (lib : CLibrary D)

/-! ### How far a token reaches -/

theorem eatWhitespace_shorter (text : WString) :
    ((eatWhitespace lib text).1 = eof ∨ (eatWhitespace lib text).2.length < text.length) ∧
      (eatWhitespace lib text).2.length ≤ text.length := by
  induction text with
  | nil => exact ⟨.inl rfl, Nat.le_refl _⟩
  | cons ch rest ih =>
    rw [eatWhitespace]
    split
    · exact ⟨ih.1.imp id fun shorter => Nat.lt_succ_of_lt shorter, Nat.le_succ_of_le ih.2⟩
    · exact ⟨.inr (Nat.lt_succ_self _), Nat.le_succ _⟩

theorem length_lineComment (text : WString) : (lineComment text).length ≤ text.length := by
  induction text with
  | nil => exact Nat.le_refl _
  | cons ch rest ih =>
    rw [lineComment]
    split
    · exact Nat.le_succ_of_le ih
    · exact Nat.le_succ _

theorem length_blockComment {text behind : WString} (complete : blockComment text = some behind) :
    behind.length ≤ text.length := by
  induction text with
  | nil => cases complete
  | cons ch rest ih =>
    rw [blockComment] at complete
    split at complete
    · cases complete
    · split at complete
      · split at complete
        · cases complete
        · split at complete
          · obtain rfl := Option.some.inj complete
            rw [List.length_drop, List.length_cons]
            omega
          · exact Nat.le_succ_of_le (ih complete)
      · exact Nat.le_succ_of_le (ih complete)

theorem length_completeComment {text behind : WString} (complete : completeComment text = some behind) :
    behind.length < text.length := by
  cases text with
  | nil => cases complete
  | cons ch rest =>
    rw [completeComment] at complete
    split at complete
    · obtain rfl := Option.some.inj complete
      exact Nat.lt_succ_of_le (length_lineComment rest)
    · split at complete
      · exact Nat.lt_succ_of_le (length_blockComment complete)
      · cases complete

theorem length_completeStringLiteral {s t : Text} {text behind : WString}
    (complete : completeStringLiteral s text = some (t, behind)) : behind.length ≤ text.length := by
  fun_induction completeStringLiteral s text with
  | case1 => cases complete
  | case2 s rest =>
    cases complete
    exact Nat.le_succ _
  | case3 => cases complete
  | case4 => cases complete
  | case5 s quote known c1 c2 c3 c4 rest ih =>
    obtain ⟨u, -, complete⟩ := Option.bind_eq_some_iff.mp complete
    have := ih u complete
    simp only [List.length_cons]
    omega
  | case6 => cases complete
  | case7 s quote known c rest plain ih =>
    obtain ⟨u, -, complete⟩ := Option.bind_eq_some_iff.mp complete
    have := ih u complete
    simp only [List.length_cons]
    omega
  | case8 => cases complete
  | case9 s ch rest quote known backslash control ih => exact Nat.le_succ_of_le (ih complete)

theorem length_parseInt64 (value : UInt64) (text : WString) :
    (parseInt64 value text).2.2.length ≤ text.length := by
  induction text generalizing value with
  | nil => exact Nat.le_refl _
  | cons ch rest ih =>
    rw [parseInt64]
    split
    · simp only
      split
      · exact Nat.le_refl _
      · exact Nat.le_succ_of_le (ih _)
    · exact Nat.le_refl _

theorem length_exponent {text buf behind : WString} (read : exponent text = some (buf, behind)) :
    behind.length ≤ text.length := by
  unfold exponent at read
  generalize (if peekCharacter text = 43 ∨ peekCharacter text = 45 then text.take 1 else []) = sign at read
  simp only at read
  split at read
  · obtain ⟨-, rfl⟩ := Prod.mk.inj (Option.some.inj read)
    exact Nat.le_trans (List.length_dropWhile_le _ _) (by rw [List.length_drop]; exact Nat.sub_le _ _)
  · cases read

theorem length_fraction {decimal : Bool} {text buf behind : WString}
    (read : fraction decimal text = some (buf, behind)) : behind.length ≤ text.length := by
  induction text generalizing decimal buf with
  | nil =>
    cases read
    exact Nat.le_refl _
  | cons ch rest ih =>
    rw [fraction] at read
    split at read
    · cases read
      exact Nat.le_refl _
    · split at read
      · obtain ⟨⟨buf', behind'⟩, read, pair⟩ := Option.map_eq_some_iff.mp read
        cases pair
        exact Nat.le_succ_of_le (ih read)
      · split at read
        · split at read
          · cases read
          · obtain ⟨⟨buf', behind'⟩, read, pair⟩ := Option.map_eq_some_iff.mp read
            cases pair
            exact Nat.le_succ_of_le (ih read)
        · split at read
          · obtain ⟨⟨buf', behind'⟩, read, pair⟩ := Option.map_eq_some_iff.mp read
            cases pair
            exact Nat.le_succ_of_le (length_exponent read)
          · cases read
            exact Nat.le_refl _

/-- A number, and no more of the text than there is. -/
theorem completeNumberLiteral_shape {first : UInt16} {text behind : WString} {kind : Kind D}
    (read : completeNumberLiteral lib first text = some (kind, behind)) : behind.length ≤ text.length ∧
      ((∃ i, kind = .integerLiteral i) ∨ ∃ d, kind = .numberLiteral d) := by
  unfold completeNumberLiteral at read
  simp only at read
  generalize start : (if first = 45 then (peekCharacter text, text.drop 1) else (first, text)) = front at read
  have begins : front.2.length ≤ text.length := by
    rw [← start]
    split
    · exact Nat.le_trans (Nat.le_of_eq List.length_drop) (Nat.sub_le _ _)
    · exact Nat.le_refl _
  have digits := length_parseInt64 (front.1 - 48).toUInt64 front.2
  generalize parseInt64 (front.1 - 48).toUInt64 front.2 = parsed at digits read
  have le := Nat.le_trans digits begins
  split at read
  · cases read
  split at read
  · cases read
  split at read
  · split at read
    · split at read
      · obtain ⟨rfl, rfl⟩ := Prod.mk.inj (Option.some.inj read)
        exact ⟨le, .inr ⟨_, rfl⟩⟩
      · obtain ⟨rfl, rfl⟩ := Prod.mk.inj (Option.some.inj read)
        exact ⟨le, .inl ⟨_, rfl⟩⟩
    · obtain ⟨rfl, rfl⟩ := Prod.mk.inj (Option.some.inj read)
      exact ⟨le, .inl ⟨_, rfl⟩⟩
  · obtain ⟨⟨buf, rest⟩, last, pair⟩ := Option.map_eq_some_iff.mp read
    obtain ⟨rfl, rfl⟩ := Prod.mk.inj pair
    exact ⟨Nat.le_trans (length_fraction last) le, .inr ⟨_, rfl⟩⟩

/-! ### The count of open brackets -/

/-- What a token makes of the count, which does not pass `maxParsingDepth`. -/
def Kind.Moves : Kind D → Nat → Nat → Prop
  | .openBrace, before, after => after = before + 1 ∧ after ≤ maxParsingDepth
  | .openBracket, before, after => after = before + 1 ∧ after ≤ maxParsingDepth
  | .closeBrace, before, after => before = after + 1
  | .closeBracket, before, after => before = after + 1
  | _, before, after => after = before

/-- What a token leaves of the text, and of the count. -/
structure Next (cursor : Cursor) (tkn : Token D) (after : Cursor) : Prop where
  moves : tkn.kind.Moves cursor.depth after.depth
  further : tkn.kind = .eof ∨ after.rest.length < cursor.rest.length
  le : after.rest.length ≤ cursor.rest.length

/-- A token that its first character does not make, but one of these. -/
theorem complete_next {error : JsonError} {rest text : WString} {depth : Nat}
    {found : Option (Kind D × WString)} {tkn : Token D} {after : Cursor}
    (ok : complete error rest depth found = .ok (tkn, after)) (first : rest.length < text.length)
    (still : ∀ kind behind, found = some (kind, behind) → kind.Moves depth depth ∧ behind.length ≤ rest.length) :
    Next ⟨text, depth⟩ tkn after := by
  rcases found with _ | ⟨kind, behind⟩
  · cases ok
  · obtain ⟨moves, le⟩ := still kind behind rfl
    cases ok
    exact ⟨moves, .inr (Nat.lt_of_le_of_lt le first), Nat.le_trans le (Nat.le_of_lt first)⟩

theorem completeKeyword_still {letters rest : WString} {kind : Kind D} {depth : Nat}
    (moves : kind.Moves depth depth) (k : Kind D) (behind : WString)
    (read : completeKeyword letters kind rest = some (k, behind)) :
    k.Moves depth depth ∧ behind.length ≤ rest.length := by
  rw [completeKeyword] at read
  split at read
  · cases read
    exact ⟨moves, Nat.le_trans (Nat.le_of_eq List.length_drop) (Nat.sub_le _ _)⟩
  · cases read

theorem completeNumberLiteral_still {first : UInt16} {rest : WString} {depth : Nat} (k : Kind D)
    (behind : WString) (read : completeNumberLiteral lib first rest = some (k, behind)) :
    k.Moves depth depth ∧ behind.length ≤ rest.length := by
  obtain ⟨le, number⟩ := completeNumberLiteral_shape lib read
  rcases number with ⟨i, rfl⟩ | ⟨d, rfl⟩
  · exact ⟨rfl, le⟩
  · exact ⟨rfl, le⟩

theorem tokenFrom_next {ch : UInt16} {rest text : WString} {depth : Nat} {tkn : Token D} {after : Cursor}
    (ok : tokenFrom lib ch rest depth = .ok (tkn, after)) (le : rest.length ≤ text.length)
    (first : ch = eof ∨ rest.length < text.length) : Next ⟨text, depth⟩ tkn after := by
  unfold tokenFrom at ok
  split at ok
  · cases ok
    exact ⟨rfl, .inl rfl, le⟩
  rename_i known
  replace first := first.resolve_left known
  split at ok
  · split at ok
    · cases ok
    · rename_i room
      cases ok
      have moved : depth + 1 = depth + 1 ∧ depth + 1 ≤ maxParsingDepth := ⟨rfl, Nat.not_lt.mp room⟩
      refine ⟨?_, .inr first, le⟩
      simp only
      split
      · exact moved
      · exact moved
  split at ok
  · split at ok
    · cases ok
    · rename_i opened
      cases ok
      have moved : depth = depth - 1 + 1 := (Nat.succ_pred_eq_of_ne_zero opened).symm
      refine ⟨?_, .inr first, le⟩
      simp only
      split
      · exact moved
      · exact moved
  split at ok
  · cases ok
    exact ⟨rfl, .inr first, le⟩
  split at ok
  · cases ok
    exact ⟨rfl, .inr first, le⟩
  split at ok
  · exact complete_next ok first (completeKeyword_still rfl)
  split at ok
  · exact complete_next ok first (completeKeyword_still rfl)
  split at ok
  · exact complete_next ok first (completeKeyword_still rfl)
  split at ok
  · refine complete_next ok first fun kind behind read => ?_
    obtain ⟨⟨s, rest'⟩, read, pair⟩ := Option.map_eq_some_iff.mp read
    cases pair
    exact ⟨rfl, length_completeStringLiteral read⟩
  split at ok
  · exact complete_next ok first (completeNumberLiteral_still lib)
  · cases ok

theorem nextToken_next {rounds : Nat} {cursor after : Cursor} {tkn : Token D}
    (ok : nextToken lib rounds cursor = .ok (tkn, after)) : Next cursor tkn after := by
  induction rounds generalizing cursor with
  | zero =>
    rw [nextToken.eq_def] at ok
    simp only at ok
    split at ok
    · split at ok
      · cases ok
      · cases ok
      · rename_i impossible
        cases impossible
    · exact tokenFrom_next lib ok (eatWhitespace_shorter lib cursor.rest).2
        (eatWhitespace_shorter lib cursor.rest).1
  | succ rounds ih =>
    rw [nextToken.eq_def] at ok
    simp only at ok
    split at ok
    · rename_i comment
      split at ok
      · cases ok
      · cases ‹_ = 0›
      · rename_i behind rounds' read same
        obtain rfl := Nat.succ.inj same
        have next := ih ok
        have shorter := length_completeComment read
        have le := (eatWhitespace_shorter lib cursor.rest).2
        have := next.le
        simp only at this
        exact ⟨next.moves, .inr (by omega), by omega⟩
    · exact tokenFrom_next lib ok (eatWhitespace_shorter lib cursor.rest).2
        (eatWhitespace_shorter lib cursor.rest).1

theorem getNextToken_next {cursor after : Cursor} {tkn : Token D}
    (ok : getNextToken lib cursor = .ok (tkn, after)) : Next cursor tkn after := nextToken_next lib ok

/-! ### Accepted values -/

/-- The fields of every object are in the order of their names. -/
inductive Value.InOrder : Value D → Prop where
  | flat {v : Value D} (flat : v.depth = 0) : Value.InOrder v
  | array {elements : List (Value D)} (inner : ∀ v ∈ elements, v.InOrder) : Value.InOrder (.array elements)
  | object {elements : List (WString × Value D)} (sorted : elements.Pairwise fun p1 p2 => ¬ p2.1 < p1.1)
      (inner : ∀ field ∈ elements, field.2.InOrder) : Value.InOrder (.object elements)

theorem depthElements_le_iff {elements : List (Value D)} {n : Nat} :
    depthElements elements ≤ n ↔ ∀ v ∈ elements, v.depth ≤ n := by
  induction elements with
  | nil => exact ⟨fun _ => List.forall_mem_nil _, fun _ => Nat.zero_le n⟩
  | cons element rest ih => rw [depthElements, Nat.max_le, ih, List.forall_mem_cons]

theorem depthFields_le_iff {elements : List (WString × Value D)} {n : Nat} :
    depthFields elements ≤ n ↔ ∀ field ∈ elements, field.2.depth ≤ n := by
  induction elements with
  | nil => exact ⟨fun _ => List.forall_mem_nil _, fun _ => Nat.zero_le n⟩
  | cons field rest ih => rw [depthFields, Nat.max_le, ih, List.forall_mem_cons]

/-- A value that stands where `d` brackets are open. -/
def Value.Within (d : Nat) (v : Value D) : Prop := v.InOrder ∧ v.depth + d ≤ maxParsingDepth

theorem Value.Within.weaken {d e : Nat} {v : Value D} (within : v.Within e) (le : d ≤ e) : v.Within d :=
  ⟨within.1, Nat.le_trans (Nat.add_le_add_left le _) within.2⟩

theorem within_array {d : Nat} {elements : List (Value D)} (bounded : d + 1 ≤ maxParsingDepth)
    (inner : ∀ v ∈ elements, v.Within (d + 1)) : (Value.array elements).Within d := by
  refine ⟨.array fun v member => (inner v member).1, ?_⟩
  have le : depthElements elements ≤ maxParsingDepth - (d + 1) :=
    depthElements_le_iff.mpr fun v member => Nat.le_sub_of_add_le (inner v member).2
  rw [Value.depth]
  omega

theorem within_object {d : Nat} {elements : List (WString × Value D)} (bounded : d + 1 ≤ maxParsingDepth)
    (sorted : elements.Pairwise fun p1 p2 => ¬ p2.1 < p1.1)
    (inner : ∀ field ∈ elements, field.2.Within (d + 1)) : (Value.object elements).Within d := by
  refine ⟨.object sorted fun field member => (inner field member).1, ?_⟩
  have le : depthFields elements ≤ maxParsingDepth - (d + 1) :=
    depthFields_le_iff.mpr fun field member => Nat.le_sub_of_add_le (inner field member).2
  rw [Value.depth]
  omega

/-- What is known where a value has been read: the value, and the token behind it. Where braces are
missing, more of them count as open than there are values around. -/
structure Ends (d : Nat) (cursor : Cursor) (parsed : Parsed D) : Prop where
  within : parsed.1.Within d
  behind : ∃ e, d ≤ e ∧ e ≤ maxParsingDepth ∧ parsed.2.1.kind.Moves e parsed.2.2.depth
  le : parsed.2.2.rest.length ≤ cursor.rest.length

variable {lib} {sorting : Sorting D}

theorem behind_ends {d : Nat} {v : Value D} {cursor : Cursor} {parsed : Parsed D}
    (ok : behind lib v cursor = .ok parsed) (within : v.Within d) (le : d ≤ cursor.depth)
    (bounded : cursor.depth ≤ maxParsingDepth) : Ends d cursor parsed := by
  rw [behind] at ok
  rcases read : getNextToken lib cursor with failure | ⟨tkn, after⟩
  · rw [read] at ok
    cases ok
  · rw [read] at ok
    cases ok
    have next := getNextToken_next lib read
    exact ⟨within, ⟨cursor.depth, le, bounded, next.moves⟩, next.le⟩

theorem objectDone_ends {d : Nat} {elems : List (WString × Value D)} {cursor : Cursor} {parsed : Parsed D}
    (ok : objectDone lib sorting elems cursor = .ok parsed) (room : d + 1 ≤ maxParsingDepth)
    (inner : ∀ field ∈ elems, field.2.Within (d + 1)) (le : d ≤ cursor.depth)
    (bounded : cursor.depth ≤ maxParsingDepth) : Ends d cursor parsed :=
  behind_ends ok (within_object room (sorting.sorted elems) fun field member =>
    inner field ((sorting.perm elems).subset member)) le bounded

theorem Ends.mono {d : Nat} {cursor before : Cursor} {parsed : Parsed D} (ends : Ends d cursor parsed)
    (le : cursor.rest.length ≤ before.rest.length) : Ends d before parsed :=
  ⟨ends.within, ends.behind, Nat.le_trans ends.le le⟩

/-- A step of the parser that has succeeded. -/
theorem bind_ok {α β : Type} {first : Except Failure α} {next : α → Except Failure β} {b : β}
    (ok : (first >>= next) = .ok b) : ∃ a, first = .ok a ∧ next a = .ok b := by
  rcases first with failure | a
  · cases ok
  · exact ⟨a, rfl, ok⟩

/-- The five functions with as many rounds: what they accept. -/
structure Accepts (lib : CLibrary D) (sorting : Sorting D) (rounds : Nat) : Prop where
  value : ∀ {tkn : Token D} {cursor parsed d}, parseValue lib sorting rounds tkn cursor = .ok parsed →
    tkn.kind.Moves d cursor.depth → d ≤ maxParsingDepth → Ends d cursor parsed
  object : ∀ {cursor parsed d}, parseObject lib sorting rounds cursor = .ok parsed →
    cursor.depth = d + 1 → d + 1 ≤ maxParsingDepth → Ends d cursor parsed
  fields : ∀ {elems} {tkn : Token D} {cursor parsed d e},
    parseFields lib sorting rounds elems tkn cursor = .ok parsed →
    tkn.kind.Moves e cursor.depth → d + 1 ≤ e → e ≤ maxParsingDepth →
    (∀ field ∈ elems, field.2.Within (d + 1)) → Ends d cursor parsed
  array : ∀ {cursor parsed d}, parseArray lib sorting rounds cursor = .ok parsed →
    cursor.depth = d + 1 → d + 1 ≤ maxParsingDepth → Ends d cursor parsed
  elements : ∀ {before} {tkn : Token D} {cursor parsed d e},
    parseElements lib sorting rounds before tkn cursor = .ok parsed →
    tkn.kind.Moves e cursor.depth → d + 1 ≤ e → e ≤ maxParsingDepth →
    (∀ v ∈ before, v.Within (d + 1)) → Ends d cursor parsed

theorem Accepts.succ_value {rounds : Nat} (ih : Accepts lib sorting rounds) {tkn : Token D} {cursor : Cursor}
    {parsed : Parsed D} {d : Nat} (ok : parseValue lib sorting (rounds + 1) tkn cursor = .ok parsed)
    (moves : tkn.kind.Moves d cursor.depth) (bounded : d ≤ maxParsingDepth) : Ends d cursor parsed := by
  obtain ⟨kind, start⟩ := tkn
  have flat {v : Value D} (isFlat : v.depth = 0) : v.Within d := ⟨.flat isFlat, by omega⟩
  rw [parseValue] at ok
  cases kind with
  | openBrace => exact ih.object ok moves.1 (by rw [← moves.1]; exact moves.2)
  | openBracket => exact ih.array ok moves.1 (by rw [← moves.1]; exact moves.2)
  | stringLiteral s =>
    exact behind_ends ok (flat rfl) (Nat.le_of_eq moves.symm) (Nat.le_trans (Nat.le_of_eq moves) bounded)
  | integerLiteral i =>
    exact behind_ends ok (flat rfl) (Nat.le_of_eq moves.symm) (Nat.le_trans (Nat.le_of_eq moves) bounded)
  | numberLiteral x =>
    exact behind_ends ok (flat rfl) (Nat.le_of_eq moves.symm) (Nat.le_trans (Nat.le_of_eq moves) bounded)
  | booleanLiteral b =>
    exact behind_ends ok (flat rfl) (Nat.le_of_eq moves.symm) (Nat.le_trans (Nat.le_of_eq moves) bounded)
  | nullLiteral =>
    exact behind_ends ok (flat rfl) (Nat.le_of_eq moves.symm) (Nat.le_trans (Nat.le_of_eq moves) bounded)
  | _ => cases ok

theorem Accepts.succ_object {rounds : Nat} (ih : Accepts lib sorting rounds) {cursor : Cursor}
    {parsed : Parsed D} {d : Nat} (ok : parseObject lib sorting (rounds + 1) cursor = .ok parsed)
    (opened : cursor.depth = d + 1) (room : d + 1 ≤ maxParsingDepth) : Ends d cursor parsed := by
  rw [parseObject] at ok
  obtain ⟨⟨⟨kind, start⟩, after⟩, read, ok⟩ := bind_ok ok
  have next := getNextToken_next lib read
  have moves := next.moves
  rw [opened] at moves
  have inner : ∀ field ∈ ([] : List (WString × Value D)), field.2.Within (d + 1) := List.forall_mem_nil _
  cases kind with
  | closeBrace =>
    have closed : d = after.depth := Nat.succ.inj moves
    exact (objectDone_ends ok room inner (Nat.le_of_eq closed) (by omega)).mono next.le
  | _ => exact (ih.fields ok moves (Nat.le_refl _) room inner).mono next.le

theorem Accepts.succ_fields {rounds : Nat} (ih : Accepts lib sorting rounds)
    {elems : List (WString × Value D)} {tkn : Token D} {cursor : Cursor} {parsed : Parsed D} {d e : Nat}
    (ok : parseFields lib sorting (rounds + 1) elems tkn cursor = .ok parsed)
    (moves : tkn.kind.Moves e cursor.depth) (inside : d + 1 ≤ e) (bounded : e ≤ maxParsingDepth)
    (inner : ∀ field ∈ elems, field.2.Within (d + 1)) : Ends d cursor parsed := by
  obtain ⟨kind, start⟩ := tkn
  rw [parseFields] at ok
  cases kind with
  | stringLiteral fieldName =>
    obtain ⟨⟨⟨kind, start⟩, named⟩, read, ok⟩ := bind_ok ok
    have next := getNextToken_next lib read
    have here : cursor.depth = e := moves
    have mark := next.moves
    rw [here] at mark
    cases kind with
    | colon =>
      obtain ⟨⟨first, colon⟩, read, ok⟩ := bind_ok ok
      have value := getNextToken_next lib read
      obtain ⟨⟨v, ⟨kind, start⟩, after⟩, parsedValue, ok⟩ := bind_ok ok
      have same : named.depth = e := mark
      have begins := value.moves
      rw [same] at begins
      have ends := ih.value parsedValue begins bounded
      obtain ⟨f, above, within, moved⟩ := ends.behind
      have all : ∀ field ∈ elems ++ [(fieldName.m_string, v)], field.2.Within (d + 1) :=
        List.forall_mem_append.mpr ⟨inner, List.forall_mem_singleton.mpr (ends.within.weaken inside)⟩
      have le := Nat.le_trans ends.le (Nat.le_trans value.le next.le)
      cases kind with
      | comma =>
        obtain ⟨⟨tkn, further⟩, read, ok⟩ := bind_ok ok
        have comma := getNextToken_next lib read
        have following := comma.moves
        have stays : after.depth = f := moved
        rw [stays] at following
        exact (ih.fields ok following (Nat.le_trans inside above) within all).mono (Nat.le_trans comma.le le)
      | closeBrace =>
        have closed : f = after.depth + 1 := moved
        exact (objectDone_ends ok (Nat.le_trans inside bounded) all (by omega) (by omega)).mono le
      | _ => cases ok
    | closeBrace =>
      have closed : e = named.depth + 1 := mark
      exact (objectDone_ends ok (Nat.le_trans inside bounded) inner (by omega) (by omega)).mono next.le
    | closeBracket =>
      have closed : e = named.depth + 1 := mark
      exact (objectDone_ends ok (Nat.le_trans inside bounded) inner (by omega) (by omega)).mono next.le
    | openBrace =>
      exact (objectDone_ends ok (Nat.le_trans inside bounded) inner
        (Nat.le_trans (Nat.le_of_succ_le inside) (by rw [mark.1]; exact Nat.le_succ e)) mark.2).mono next.le
    | openBracket =>
      exact (objectDone_ends ok (Nat.le_trans inside bounded) inner
        (Nat.le_trans (Nat.le_of_succ_le inside) (by rw [mark.1]; exact Nat.le_succ e)) mark.2).mono next.le
    | _ =>
      have stays : named.depth = e := mark
      exact (objectDone_ends ok (Nat.le_trans inside bounded) inner (by omega) (by omega)).mono next.le
  | _ => cases ok

theorem Accepts.succ_array {rounds : Nat} (ih : Accepts lib sorting rounds) {cursor : Cursor}
    {parsed : Parsed D} {d : Nat} (ok : parseArray lib sorting (rounds + 1) cursor = .ok parsed)
    (opened : cursor.depth = d + 1) (room : d + 1 ≤ maxParsingDepth) : Ends d cursor parsed := by
  rw [parseArray] at ok
  obtain ⟨⟨⟨kind, start⟩, after⟩, read, ok⟩ := bind_ok ok
  have next := getNextToken_next lib read
  have moves := next.moves
  rw [opened] at moves
  have inner : ∀ v ∈ ([] : List (Value D)), v.Within (d + 1) := List.forall_mem_nil _
  cases kind with
  | closeBracket =>
    have closed : d = after.depth := Nat.succ.inj moves
    exact (behind_ends ok (within_array room inner) (Nat.le_of_eq closed) (by omega)).mono next.le
  | _ => exact (ih.elements ok moves (Nat.le_refl _) room inner).mono next.le

theorem Accepts.succ_elements {rounds : Nat} (ih : Accepts lib sorting rounds) {before : List (Value D)}
    {tkn : Token D} {cursor : Cursor} {parsed : Parsed D} {d e : Nat}
    (ok : parseElements lib sorting (rounds + 1) before tkn cursor = .ok parsed)
    (moves : tkn.kind.Moves e cursor.depth) (inside : d + 1 ≤ e) (bounded : e ≤ maxParsingDepth)
    (inner : ∀ v ∈ before, v.Within (d + 1)) : Ends d cursor parsed := by
  rw [parseElements] at ok
  obtain ⟨⟨v, ⟨kind, start⟩, after⟩, parsedValue, ok⟩ := bind_ok ok
  have ends := ih.value parsedValue moves bounded
  obtain ⟨f, above, within, moved⟩ := ends.behind
  have all : ∀ v' ∈ before ++ [v], v'.Within (d + 1) :=
    List.forall_mem_append.mpr ⟨inner, List.forall_mem_singleton.mpr (ends.within.weaken inside)⟩
  cases kind with
  | comma =>
    obtain ⟨⟨tkn, further⟩, read, ok⟩ := bind_ok ok
    have comma := getNextToken_next lib read
    have following := comma.moves
    have stays : after.depth = f := moved
    rw [stays] at following
    exact (ih.elements ok following (Nat.le_trans inside above) within all).mono
      (Nat.le_trans comma.le ends.le)
  | closeBracket =>
    have closed : f = after.depth + 1 := moved
    exact (behind_ends ok (within_array (Nat.le_trans inside bounded) all) (by omega) (by omega)).mono ends.le
  | _ => cases ok

theorem accepts (lib : CLibrary D) (sorting : Sorting D) (rounds : Nat) : Accepts lib sorting rounds := by
  induction rounds with
  | zero =>
    refine ⟨fun ok _ _ => ?_, fun ok _ _ => ?_, fun ok _ _ _ _ => ?_, fun ok _ _ => ?_, fun ok _ _ _ _ => ?_⟩
    all_goals cases ok
  | succ rounds ih =>
    exact ⟨ih.succ_value, ih.succ_object, ih.succ_fields, ih.succ_array, ih.succ_elements⟩

theorem parse_accepted {text : WString} {v : Value D} (ok : parse lib sorting text = .ok v) :
    v.InOrder ∧ v.depth ≤ maxParsingDepth := by
  rw [parse] at ok
  obtain ⟨⟨tkn, cursor⟩, read, ok⟩ := bind_ok ok
  obtain ⟨⟨v', ⟨kind, start⟩, after⟩, parsed, ok⟩ := bind_ok ok
  have first := (getNextToken_next lib read).moves
  have ends := (accepts lib sorting _).value parsed first (Nat.zero_le _)
  cases kind with
  | eof =>
    cases ok
    exact ends.within
  | _ => cases ok

/-! ### The parser comes to an end -/

theorem tokenFrom_ends (ch : UInt16) (rest : WString) (depth : Nat) :
    tokenFrom lib ch rest depth ≠ .error .endless := by
  intro endless
  have whole (error : JsonError) (found : Option (Kind D × WString)) :
      complete error rest depth found ≠ .error .endless := by
    intro endless
    rcases found with _ | ⟨kind, behind⟩ <;> cases endless
  unfold tokenFrom at endless
  split at endless
  · cases endless
  split at endless
  · split at endless <;> cases endless
  split at endless
  · split at endless <;> cases endless
  split at endless
  · cases endless
  split at endless
  · cases endless
  split at endless
  · exact whole _ _ endless
  split at endless
  · exact whole _ _ endless
  split at endless
  · exact whole _ _ endless
  split at endless
  · exact whole _ _ endless
  split at endless
  · exact whole _ _ endless
  · cases endless

theorem nextToken_ends {rounds : Nat} {cursor : Cursor} (enough : cursor.rest.length ≤ rounds) :
    nextToken lib rounds cursor ≠ .error .endless := by
  induction rounds generalizing cursor with
  | zero =>
    obtain ⟨rest, depth⟩ := cursor
    obtain rfl := List.eq_nil_of_length_eq_zero (Nat.le_zero.mp enough)
    rw [nextToken.eq_def]
    show tokenFrom lib eof [] depth ≠ _
    exact tokenFrom_ends _ _ _
  | succ rounds ih =>
    intro endless
    rw [nextToken.eq_def] at endless
    simp only at endless
    split at endless
    · split at endless
      · cases endless
      · rename_i impossible
        cases impossible
      · rename_i behind rounds' read same
        obtain rfl := Nat.succ.inj same
        have shorter := length_completeComment read
        have le := (eatWhitespace_shorter lib cursor.rest).2
        exact ih (by simp only; omega) endless
    · exact tokenFrom_ends _ _ _ endless

theorem getNextToken_ends (cursor : Cursor) : getNextToken lib cursor ≠ .error .endless :=
  nextToken_ends (Nat.le_refl _)

/-- What has failed has failed in one of its steps. -/
theorem bind_endless {α β : Type} {first : Except Failure α} {next : α → Except Failure β}
    (endless : (first >>= next) = .error .endless) :
    first = .error .endless ∨ ∃ a, first = .ok a ∧ next a = .error .endless := by
  rcases first with failure | a
  · cases endless
    exact .inl rfl
  · exact .inr ⟨a, rfl, endless⟩

/-- Rounds enough for what is left, or for the end. -/
def Enough (rounds least more : Nat) (tkn : Token D) (cursor : Cursor) : Prop :=
  tkn.kind = .eof ∧ least ≤ rounds ∨ 4 * cursor.rest.length + more ≤ rounds

theorem Next.enough {rounds least more : Nat} {before after : Cursor} {tkn : Token D}
    (next : Next before tkn after) (few : least ≤ rounds)
    (many : 4 * before.rest.length + more ≤ rounds + 4) : Enough rounds least more tkn after := by
  rcases next.further with last | further
  · exact .inl ⟨last, few⟩
  · exact .inr (by omega)

/-- The five functions with as many rounds: where they come to an end. -/
structure Finishes (lib : CLibrary D) (sorting : Sorting D) (rounds : Nat) : Prop where
  value : ∀ {tkn : Token D} {cursor d}, tkn.kind.Moves d cursor.depth →
    Enough rounds 1 4 tkn cursor → parseValue lib sorting rounds tkn cursor ≠ .error .endless
  object : ∀ {cursor d}, cursor.depth = d + 1 → d + 1 ≤ maxParsingDepth →
    4 * cursor.rest.length + 3 ≤ rounds → parseObject lib sorting rounds cursor ≠ .error .endless
  fields : ∀ {elems} {tkn : Token D} {cursor e}, tkn.kind.Moves e cursor.depth → e ≤ maxParsingDepth →
    Enough rounds 1 5 tkn cursor → parseFields lib sorting rounds elems tkn cursor ≠ .error .endless
  array : ∀ {cursor d}, cursor.depth = d + 1 → d + 1 ≤ maxParsingDepth →
    4 * cursor.rest.length + 3 ≤ rounds → parseArray lib sorting rounds cursor ≠ .error .endless
  elements : ∀ {before} {tkn : Token D} {cursor e}, tkn.kind.Moves e cursor.depth → e ≤ maxParsingDepth →
    Enough rounds 2 5 tkn cursor → parseElements lib sorting rounds before tkn cursor ≠ .error .endless

theorem behind_finishes (v : Value D) (cursor : Cursor) : behind lib v cursor ≠ .error .endless := by
  intro endless
  rcases bind_endless endless with endless | ⟨⟨tkn, after⟩, -, endless⟩
  · exact getNextToken_ends cursor endless
  · cases endless

theorem Finishes.succ_value {rounds : Nat} (ih : Finishes lib sorting rounds) {tkn : Token D} {cursor : Cursor}
    {d : Nat} (moves : tkn.kind.Moves d cursor.depth) (enough : Enough (rounds + 1) 1 4 tkn cursor) :
    parseValue lib sorting (rounds + 1) tkn cursor ≠ .error .endless := by
  obtain ⟨kind, start⟩ := tkn
  rw [parseValue]
  cases kind with
  | openBrace =>
    rcases enough with ⟨last, -⟩ | many
    · cases last
    · exact ih.object moves.1 (by rw [← moves.1]; exact moves.2) (by omega)
  | openBracket =>
    rcases enough with ⟨last, -⟩ | many
    · cases last
    · exact ih.array moves.1 (by rw [← moves.1]; exact moves.2) (by omega)
  | stringLiteral s => exact behind_finishes _ cursor
  | integerLiteral i => exact behind_finishes _ cursor
  | numberLiteral x => exact behind_finishes _ cursor
  | booleanLiteral b => exact behind_finishes _ cursor
  | nullLiteral => exact behind_finishes _ cursor
  | _ =>
    intro endless
    cases endless

theorem Finishes.succ_object {rounds : Nat} (ih : Finishes lib sorting rounds) {cursor : Cursor} {d : Nat}
    (opened : cursor.depth = d + 1) (room : d + 1 ≤ maxParsingDepth)
    (enough : 4 * cursor.rest.length + 3 ≤ rounds + 1) :
    parseObject lib sorting (rounds + 1) cursor ≠ .error .endless := by
  intro endless
  rw [parseObject] at endless
  rcases bind_endless endless with endless | ⟨⟨⟨kind, start⟩, after⟩, read, endless⟩
  · exact getNextToken_ends cursor endless
  · have next := getNextToken_next lib read
    have moves := next.moves
    rw [opened] at moves
    have rest : Enough rounds 1 5 ⟨kind, start⟩ after := next.enough (by omega) (by omega)
    cases kind with
    | closeBrace => exact behind_finishes _ after endless
    | _ => exact ih.fields moves room rest endless

theorem Finishes.succ_array {rounds : Nat} (ih : Finishes lib sorting rounds) {cursor : Cursor} {d : Nat}
    (opened : cursor.depth = d + 1) (room : d + 1 ≤ maxParsingDepth)
    (enough : 4 * cursor.rest.length + 3 ≤ rounds + 1) :
    parseArray lib sorting (rounds + 1) cursor ≠ .error .endless := by
  intro endless
  rw [parseArray] at endless
  rcases bind_endless endless with endless | ⟨⟨⟨kind, start⟩, after⟩, read, endless⟩
  · exact getNextToken_ends cursor endless
  · have next := getNextToken_next lib read
    have moves := next.moves
    rw [opened] at moves
    have rest : Enough rounds 2 5 ⟨kind, start⟩ after := next.enough (by omega) (by omega)
    cases kind with
    | closeBracket => exact behind_finishes _ after endless
    | _ => exact ih.elements moves room rest endless

theorem Finishes.succ_fields {rounds : Nat} (ih : Finishes lib sorting rounds)
    {elems : List (WString × Value D)} {tkn : Token D} {cursor : Cursor} {e : Nat}
    (moves : tkn.kind.Moves e cursor.depth) (bounded : e ≤ maxParsingDepth)
    (enough : Enough (rounds + 1) 1 5 tkn cursor) :
    parseFields lib sorting (rounds + 1) elems tkn cursor ≠ .error .endless := by
  intro endless
  obtain ⟨kind, start⟩ := tkn
  rw [parseFields] at endless
  cases kind with
  | stringLiteral fieldName =>
    have many : 4 * cursor.rest.length + 5 ≤ rounds + 1 := enough.resolve_left fun last => by cases last.1
    rcases bind_endless endless with endless | ⟨⟨⟨kind, start⟩, named⟩, read, endless⟩
    · exact getNextToken_ends cursor endless
    have next := getNextToken_next lib read
    have here : cursor.depth = e := moves
    have mark := next.moves
    have le := next.le
    rw [here] at mark
    cases kind with
    | colon =>
      rcases bind_endless endless with endless | ⟨⟨first, colon⟩, read, endless⟩
      · exact getNextToken_ends named endless
      have value := getNextToken_next lib read
      have same : named.depth = e := mark
      have begins := value.moves
      rw [same] at begins
      rcases bind_endless endless with endless | ⟨⟨v, ⟨kind, start⟩, after⟩, parsedValue, endless⟩
      · exact ih.value begins (value.enough (by omega) (by omega)) endless
      have ends := (accepts lib sorting rounds).value parsedValue begins bounded
      obtain ⟨f, above, within, moved⟩ := ends.behind
      have shorter := Nat.le_trans ends.le value.le
      simp only at shorter
      cases kind with
      | comma =>
        rcases bind_endless endless with endless | ⟨⟨tkn, further⟩, read, endless⟩
        · exact getNextToken_ends after endless
        have comma := getNextToken_next lib read
        have following := comma.moves
        have stays : after.depth = f := moved
        rw [stays] at following
        exact ih.fields following within (comma.enough (by omega) (by omega)) endless
      | closeBrace => exact behind_finishes _ after endless
      | _ => cases endless
    | _ => exact behind_finishes _ named endless
  | _ => cases endless

theorem Finishes.succ_elements {rounds : Nat} (ih : Finishes lib sorting rounds) {before : List (Value D)}
    {tkn : Token D} {cursor : Cursor} {e : Nat} (moves : tkn.kind.Moves e cursor.depth)
    (bounded : e ≤ maxParsingDepth) (enough : Enough (rounds + 1) 2 5 tkn cursor) :
    parseElements lib sorting (rounds + 1) before tkn cursor ≠ .error .endless := by
  intro endless
  rw [parseElements] at endless
  rcases bind_endless endless with endless | ⟨⟨v, ⟨kind, start⟩, after⟩, parsedValue, endless⟩
  · exact ih.value moves
      (enough.imp (fun last => ⟨last.1, Nat.le_of_succ_le_succ last.2⟩) fun many => by omega) endless
  have ends := (accepts lib sorting rounds).value parsedValue moves bounded
  obtain ⟨f, above, within, moved⟩ := ends.behind
  have shorter := ends.le
  simp only at shorter
  have many : 4 * cursor.rest.length + 5 ≤ rounds + 1 := by
    refine enough.resolve_left fun last => ?_
    -- The end is no value.
    obtain ⟨kind, start⟩ := tkn
    obtain rfl := last.1
    cases rounds with
    | zero => cases parsedValue
    | succ rounds => cases parsedValue
  cases kind with
  | comma =>
    rcases bind_endless endless with endless | ⟨⟨tkn, further⟩, read, endless⟩
    · exact getNextToken_ends after endless
    have comma := getNextToken_next lib read
    have following := comma.moves
    have stays : after.depth = f := moved
    rw [stays] at following
    exact ih.elements following within (comma.enough (by omega) (by omega)) endless
  | closeBracket => exact behind_finishes _ after endless
  | _ => cases endless

theorem finishes (lib : CLibrary D) (sorting : Sorting D) (rounds : Nat) : Finishes lib sorting rounds := by
  induction rounds with
  | zero =>
    refine ⟨fun _ enough => ?_, fun _ _ enough => ?_, fun _ _ enough => ?_, fun _ _ enough => ?_,
      fun _ _ enough => ?_⟩
    · unfold Enough at enough
      omega
    · omega
    · unfold Enough at enough
      omega
    · omega
    · unfold Enough at enough
      omega
  | succ rounds ih =>
    exact ⟨ih.succ_value, ih.succ_object, ih.succ_fields, ih.succ_array, ih.succ_elements⟩

theorem parse_ends (lib : CLibrary D) (sorting : Sorting D) (text : WString) :
    parse lib sorting text ≠ .error .endless := by
  intro endless
  rcases bind_endless endless with endless | ⟨⟨tkn, cursor⟩, read, endless⟩
  · exact getNextToken_ends _ endless
  have first := getNextToken_next lib read
  rcases bind_endless endless with endless | ⟨⟨v, ⟨kind, start⟩, after⟩, parsed, endless⟩
  · have whole : 4 * (Cursor.mk text 0).rest.length + 4 ≤ rounds text + 4 := by
      simp only [rounds]
      omega
    exact (finishes lib sorting (rounds text)).value first.moves
      (first.enough (Nat.le_add_left 1 _) whole) endless
  · cases kind <;> cases endless

/-- The parser comes to an end on every text, and what it accepts is in order and no deeper than it counts. -/
theorem parse_outcome (lib : CLibrary D) (sorting : Sorting D) (text : WString) :
    (∃ error start, parse lib sorting text = .error (.thrown error start)) ∨
      ∃ v, parse lib sorting text = .ok v ∧ v.InOrder ∧ v.depth ≤ maxParsingDepth := by
  rcases result : parse lib sorting text with failure | v
  · cases failure with
    | endless => exact absurd result (parse_ends lib sorting text)
    | thrown error start => exact .inl ⟨error, start, rfl⟩
  · exact .inr ⟨v, rfl, parse_accepted result⟩

end Cpprest
