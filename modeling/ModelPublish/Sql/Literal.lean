import Mathlib

/-!
# String literals in a query

How MySQL cuts the text of a query into tokens, as far as single-quoted literals decide it: a backslash
escapes the character behind it, and two quotes inside a literal are one.
-/

namespace Sql

def quote : UInt8 := 39

def backslash : UInt8 := 92

inductive Token where
  | word (chars : List UInt8)
  | symbol (c : UInt8)
  | str (value : List UInt8)
  deriving DecidableEq

/-- What stands for `\\c` in a literal. The two wildcards keep their backslash. -/
def escaped (c : UInt8) : List UInt8 :=
  if c = 48 then [0]
  else if c = 98 then [8]
  else if c = 110 then [10]
  else if c = 114 then [13]
  else if c = 116 then [9]
  else if c = 90 then [26]
  else if c = 37 ∨ c = 95 then [backslash, c]
  else [c]

def wordChar (c : UInt8) : Bool :=
  (48 ≤ c && c ≤ 57) || (65 ≤ c && c ≤ 90) || (97 ≤ c && c ≤ 122) || c = 95 || c = 36 || 128 ≤ c

def blank (c : UInt8) : Bool := c = 32 || (9 ≤ c && c ≤ 13)

/-- The word read so far, if there is one. -/
def flush (w : List UInt8) : List Token := if w.isEmpty then [] else [.word w]

mutual

/-- The tokens of a text, `w` being the start of a word. A literal that does not end has none. -/
def outside (w : List UInt8) : List UInt8 → Option (List Token)
  | [] => some (flush w)
  | c :: cs =>
    if c = quote then (inside [] cs).map (flush w ++ ·)
    else if wordChar c then outside (w ++ [c]) cs
    else if blank c then (outside [] cs).map (flush w ++ ·)
    else (outside [] cs).map fun ts => flush w ++ .symbol c :: ts

/-- The same within a literal, `v` being the start of its value. -/
def inside (v : List UInt8) : List UInt8 → Option (List Token)
  | [] => none
  | [c] => if c = quote then some [.str v] else none
  | c :: d :: cs =>
    if c = quote then
      if d = quote then inside (v ++ [quote]) cs
      else (outside [] (d :: cs)).map (.str v :: ·)
    else if c = backslash then inside (v ++ escaped d) cs
    else inside (v ++ [c]) (d :: cs)

end

def tokens (text : List UInt8) : Option (List Token) := outside [] text

/-- The value of a literal and what follows it, from behind its opening quote on. -/
def body : List UInt8 → Option (List UInt8 × List UInt8)
  | [] => none
  | [c] => if c = quote then some ([], []) else none
  | c :: d :: cs =>
    if c = quote then
      if d = quote then (body cs).map fun (v, rest) => (quote :: v, rest)
      else some ([], d :: cs)
    else if c = backslash then (body cs).map fun (v, rest) => (escaped d ++ v, rest)
    else (body (d :: cs)).map fun (v, rest) => (c :: v, rest)

theorem inside_eq (v cs : List UInt8) :
    inside v cs = (body cs).bind fun (value, rest) => (outside [] rest).map (.str (v ++ value) :: ·) := by
  induction cs using body.induct generalizing v with
  | case1 => simp [inside, body]
  | case2 => simp [inside, body, outside, flush]
  | case3 c other => simp [inside, body, other]
  | case4 cs ih =>
    rw [inside, body, if_pos rfl, if_pos rfl, if_pos rfl, if_pos rfl, ih]
    cases body cs <;> simp
  | case5 d cs other => simp [inside, body, other]
  | case6 d cs _ ih =>
    rw [inside, body, if_neg (by decide), if_pos rfl, if_neg (by decide), if_pos rfl, ih]
    cases body cs <;> simp
  | case7 c d cs notQuote notBackslash ih =>
    rw [inside, body, if_neg notQuote, if_neg notBackslash, if_neg notQuote, if_neg notBackslash, ih]
    cases body (d :: cs) <;> simp

/-! ### Where literals end -/

/-- The length of a text up to its last quote. -/
def reach : List UInt8 → Nat
  | [] => 0
  | c :: cs => if reach cs = 0 ∧ c ≠ quote then 0 else reach cs + 1

theorem reach_cons {cs : List UInt8} (c : UInt8) (more : 0 < reach cs) : reach (c :: cs) = reach cs + 1 := by
  rw [reach, if_neg (by omega)]

theorem reach_quote (cs : List UInt8) : reach (quote :: cs) = reach cs + 1 := by
  rw [reach, if_neg (by simp)]

theorem reach_free {cs : List UInt8} (free : quote ∉ cs) : reach cs = 0 := by
  induction cs with
  | nil => rfl
  | cons c cs ih =>
    have rest := ih fun member => free (List.mem_cons_of_mem _ member)
    have ne : c ≠ quote := fun same => free (same ▸ List.mem_cons_self)
    rw [reach, if_pos ⟨rest, ne⟩]

theorem reach_append_quote (p cs : List UInt8) : reach (p ++ quote :: cs) = p.length + 1 + reach cs := by
  induction p with
  | nil => rw [List.nil_append, reach_quote, List.length_nil]; omega
  | cons c p ih =>
    rw [List.cons_append, reach_cons c (by omega), ih, List.length_cons]
    omega

theorem length_escaped_le (c : UInt8) : (escaped c).length ≤ 2 := by
  unfold escaped
  repeat' split
  all_goals simp

theorem body_reach {cs value rest : List UInt8} (h : body cs = some (value, rest)) :
    value.length + 1 + reach rest ≤ reach cs := by
  induction cs using body.induct generalizing value rest with
  | case1 => simp [body] at h
  | case2 =>
    simp only [body, if_true, Option.some.injEq, Prod.mk.injEq] at h
    obtain ⟨rfl, rfl⟩ := h
    simp [reach]
  | case3 c other => simp [body, other] at h
  | case4 cs ih =>
    rw [body, if_pos rfl, if_pos rfl] at h
    obtain ⟨⟨value', rest'⟩, inner, same⟩ := Option.map_eq_some_iff.mp h
    cases same
    have bound := ih inner
    rw [reach_quote, reach_quote, List.length_cons]
    omega
  | case5 d cs other =>
    rw [body, if_pos rfl, if_neg other] at h
    cases h
    rw [reach_quote, List.length_nil]
    omega
  | case6 d cs _ ih =>
    rw [body, if_neg (by decide), if_pos rfl] at h
    obtain ⟨⟨value', rest'⟩, inner, same⟩ := Option.map_eq_some_iff.mp h
    cases same
    have bound := ih inner
    have short := length_escaped_le d
    rw [reach_cons _ (by rw [reach_cons _ (by omega)]; omega), reach_cons _ (by omega),
      List.length_append]
    omega
  | case7 c d cs notQuote notBackslash ih =>
    rw [body, if_neg notQuote, if_neg notBackslash] at h
    obtain ⟨⟨value', rest'⟩, inner, same⟩ := Option.map_eq_some_iff.mp h
    cases same
    have bound := ih inner
    rw [reach_cons c (by omega), List.length_cons]
    omega

theorem body_rest {cs value rest : List UInt8} (h : body cs = some (value, rest)) :
    rest.length < cs.length := by
  induction cs using body.induct generalizing value rest with
  | case1 => simp [body] at h
  | case2 =>
    simp only [body, if_true, Option.some.injEq, Prod.mk.injEq] at h
    rw [← h.2]
    exact Nat.zero_lt_one
  | case3 c other => simp [body, other] at h
  | case4 cs ih =>
    rw [body, if_pos rfl, if_pos rfl] at h
    obtain ⟨⟨value', rest'⟩, inner, same⟩ := Option.map_eq_some_iff.mp h
    cases same
    have inside := ih inner
    simp only [List.length_cons]
    omega
  | case5 d cs other =>
    rw [body, if_pos rfl, if_neg other] at h
    cases h
    exact Nat.lt_succ_self _
  | case6 d cs _ ih =>
    rw [body, if_neg (by decide), if_pos rfl] at h
    obtain ⟨⟨value', rest'⟩, inner, same⟩ := Option.map_eq_some_iff.mp h
    cases same
    have inside := ih inner
    simp only [List.length_cons]
    omega
  | case7 c d cs notQuote notBackslash ih =>
    rw [body, if_neg notQuote, if_neg notBackslash] at h
    obtain ⟨⟨value', rest'⟩, inner, same⟩ := Option.map_eq_some_iff.mp h
    cases same
    exact Nat.lt_trans (ih inner) (Nat.lt_succ_self _)

theorem str_reach {n : Nat} {w cs : List UInt8} {ts : List Token} {value : List UInt8}
    (size : cs.length ≤ n) (h : outside w cs = some ts) (member : .str value ∈ ts) :
    value.length + 2 ≤ reach cs := by
  induction n generalizing w cs ts with
  | zero =>
    obtain rfl := List.eq_nil_of_length_eq_zero (Nat.le_zero.mp size)
    simp only [outside, Option.some.injEq] at h
    subst h
    unfold flush at member
    split at member <;> simp at member
  | succ n ih =>
    have notFlushed : Token.str value ∉ flush w := by
      unfold flush
      split <;> simp
    cases cs with
    | nil =>
      simp only [outside, Option.some.injEq] at h
      subst h
      exact absurd member notFlushed
    | cons c cs =>
      have size' : cs.length ≤ n := Nat.le_of_succ_le_succ size
      rw [outside] at h
      split at h
      · rename_i opening
        obtain ⟨ts', within, rfl⟩ := Option.map_eq_some_iff.mp h
        replace member := (List.mem_append.mp member).resolve_left notFlushed
        rw [inside_eq] at within
        obtain ⟨⟨first, rest⟩, read, within⟩ := Option.bind_eq_some_iff.mp within
        obtain ⟨ts'', after, rfl⟩ := Option.map_eq_some_iff.mp within
        have bound := body_reach read
        rw [opening, reach_quote]
        rcases List.mem_cons.mp member with same | later
        · cases same
          rw [List.nil_append]
          omega
        · have small : rest.length ≤ n := Nat.le_of_lt (Nat.lt_of_lt_of_le (body_rest read) size')
          have more := ih small after later
          omega
      · split at h
        · have more := ih size' h member
          rw [reach_cons c (by omega)]
          omega
        · split at h
          · obtain ⟨ts', after, rfl⟩ := Option.map_eq_some_iff.mp h
            replace member := (List.mem_append.mp member).resolve_left notFlushed
            have more := ih size' after member
            rw [reach_cons c (by omega)]
            omega
          · obtain ⟨ts', after, rfl⟩ := Option.map_eq_some_iff.mp h
            replace member := (List.mem_append.mp member).resolve_left notFlushed
            replace member := (List.mem_cons.mp member).resolve_left (by simp)
            have more := ih size' after member
            rw [reach_cons c (by omega)]
            omega

/-! ### Strings that are read as they are -/

/-- Where a reader of a literal stands after a string. -/
inductive Walk where
  | closed (value rest : List UInt8)
  | within (value : List UInt8)
  | escaping (value : List UInt8)
  | quoted (value : List UInt8)
  deriving DecidableEq

def Walk.prepend (front : List UInt8) : Walk → Walk
  | .closed value rest => .closed (front ++ value) rest
  | .within value => .within (front ++ value)
  | .escaping value => .escaping (front ++ value)
  | .quoted value => .quoted (front ++ value)

def walk : List UInt8 → Walk
  | [] => .within []
  | [c] => if c = quote then .quoted [] else if c = backslash then .escaping [] else .within [c]
  | c :: d :: cs =>
    if c = quote then if d = quote then (walk cs).prepend [quote] else .closed [] (d :: cs)
    else if c = backslash then (walk cs).prepend (escaped d)
    else (walk (d :: cs)).prepend [c]

/-- Reading a literal on from a walk. -/
def Walk.on : Walk → List UInt8 → Option (List UInt8 × List UInt8)
  | .closed value rest, cs => some (value, rest ++ cs)
  | .within value, cs => (body cs).map fun (v, rest) => (value ++ v, rest)
  | .escaping value, cs => (body (backslash :: cs)).map fun (v, rest) => (value ++ v, rest)
  | .quoted value, cs => (body (quote :: cs)).map fun (v, rest) => (value ++ v, rest)

theorem Walk.on_prepend (front : List UInt8) (w : Walk) (cs : List UInt8) :
    (w.prepend front).on cs = (w.on cs).map fun (v, rest) => (front ++ v, rest) := by
  cases w <;> simp [Walk.prepend, Walk.on, Function.comp_def]

theorem body_append (p cs : List UInt8) : body (p ++ cs) = (walk p).on cs := by
  induction p using walk.induct with
  | case1 => simp [walk, Walk.on]
  | case2 => simp [walk, Walk.on]
  | case3 => simp [walk, Walk.on, show backslash ≠ quote by decide]
  | case4 c notQuote notBackslash =>
    rw [walk, if_neg notQuote, if_neg notBackslash]
    cases cs with
    | nil => simp [Walk.on, body, notQuote]
    | cons d cs => simp [Walk.on, body, notQuote, notBackslash]
  | case5 p ih => simp [walk, body, Walk.on_prepend, ih]
  | case6 d p other => simp [walk, body, other, Walk.on]
  | case7 d p _ ih => simp [walk, body, Walk.on_prepend, ih, show backslash ≠ quote by decide]
  | case8 c d p notQuote notBackslash ih =>
    rw [walk, if_neg notQuote, if_neg notBackslash, Walk.on_prepend, ← ih]
    simp [body, notQuote, notBackslash]

/-- Within a literal, the string stands for itself. -/
def Safe (p : List UInt8) : Prop := walk p = .within p

instance (p : List UInt8) : Decidable (Safe p) := inferInstanceAs (Decidable (walk p = .within p))

/-- What the string has used up of its characters, at least. -/
def Walk.weight : Walk → Nat
  | .closed value _ => value.length + 1
  | .within value => value.length
  | .escaping value => value.length + 1
  | .quoted value => value.length + 1

theorem Walk.weight_prepend (front : List UInt8) (w : Walk) :
    (w.prepend front).weight = front.length + w.weight := by
  cases w <;> simp [Walk.prepend, Walk.weight, Nat.add_assoc]

theorem walk_weight (p : List UInt8) : (walk p).weight ≤ p.length := by
  induction p using walk.induct with
  | case1 => exact Nat.le_refl _
  | case2 => exact Nat.le_refl _
  | case3 => exact Nat.le_refl _
  | case4 c notQuote notBackslash =>
    rw [walk, if_neg notQuote, if_neg notBackslash]
    exact Nat.le_refl _
  | case5 p ih =>
    rw [walk, if_pos rfl, if_pos rfl, Walk.weight_prepend]
    simp only [List.length_cons, List.length_nil]
    omega
  | case6 d p other =>
    rw [walk, if_pos rfl, if_neg other]
    simp [Walk.weight]
  | case7 d p _ ih =>
    have short := length_escaped_le d
    rw [walk, if_neg (by decide), if_pos rfl, Walk.weight_prepend]
    simp only [List.length_cons]
    omega
  | case8 c d p notQuote notBackslash ih =>
    rw [walk, if_neg notQuote, if_neg notBackslash, Walk.weight_prepend]
    simp only [List.length_cons, List.length_nil] at ih ⊢
    omega

/-- The character that waits for the next one. -/
def Walk.pending : Walk → Option UInt8
  | .escaping _ => some backslash
  | .quoted _ => some quote
  | _ => none

theorem Walk.pending_prepend (front : List UInt8) (w : Walk) : (w.prepend front).pending = w.pending := by
  cases w <;> rfl

theorem walk_pending {p : List UInt8} {c : UInt8} (h : (walk p).pending = some c) :
    p.getLast? = some c := by
  induction p using walk.induct with
  | case1 => cases h
  | case2 =>
    cases h
    rfl
  | case3 =>
    cases h
    rfl
  | case4 c notQuote notBackslash =>
    rw [walk, if_neg notQuote, if_neg notBackslash] at h
    cases h
  | case5 p ih =>
    rw [walk, if_pos rfl, if_pos rfl, Walk.pending_prepend] at h
    rw [List.getLast?_cons, List.getLast?_cons, ih h]
    rfl
  | case6 d p other =>
    rw [walk, if_pos rfl, if_neg other] at h
    cases h
  | case7 d p _ ih =>
    rw [walk, if_neg (by decide), if_pos rfl, Walk.pending_prepend] at h
    rw [List.getLast?_cons, List.getLast?_cons, ih h]
    rfl
  | case8 c d p notQuote notBackslash ih =>
    rw [walk, if_neg notQuote, if_neg notBackslash, Walk.pending_prepend] at h
    rw [List.getLast?_cons, ih h]
    rfl

theorem safe_of_free {p : List UInt8} (noQuote : quote ∉ p) (noBackslash : backslash ∉ p) : Safe p := by
  unfold Safe
  induction p using walk.induct with
  | case1 => rfl
  | case2 => simp at noQuote
  | case3 => simp at noBackslash
  | case4 c notQuote notBackslash => rw [walk, if_neg notQuote, if_neg notBackslash]
  | case5 p ih => simp at noQuote
  | case6 d p other => simp at noQuote
  | case7 d p _ ih => simp at noBackslash
  | case8 c d p notQuote notBackslash ih =>
    have rest := ih (fun m => noQuote (List.mem_cons_of_mem _ m))
      (fun m => noBackslash (List.mem_cons_of_mem _ m))
    rw [walk, if_neg notQuote, if_neg notBackslash, rest]
    rfl

theorem Walk.prepend_within {front q : List UInt8} {w : Walk} :
    w.prepend front = .within (front ++ q) ↔ w = .within q := by
  cases w <;> simp [Walk.prepend]

/-- No quote, and each backslash stands before a wildcard. -/
theorem safe_iff (p : List UInt8) : Safe p ↔
    quote ∉ p ∧ ∀ i, p[i]? = some backslash → p[i + 1]? = some 37 ∨ p[i + 1]? = some 95 := by
  unfold Safe
  induction p using walk.induct with
  | case1 => simp [walk]
  | case2 => simp [walk]
  | case3 =>
    simp only [walk, show backslash ≠ quote by decide, if_false, if_true]
    constructor
    · intro h
      cases h
    · rintro ⟨-, wild⟩
      have none := wild 0 rfl
      simp at none
  | case4 c notQuote notBackslash =>
    simp only [walk, notQuote, notBackslash, if_false]
    refine ⟨fun _ => ⟨by simpa using Ne.symm notQuote, fun i at_i => ?_⟩, fun _ => trivial⟩
    have member := List.mem_of_getElem? at_i
    simp only [List.mem_singleton] at member
    exact absurd member.symm notBackslash
  | case5 p ih =>
    rw [walk, if_pos rfl, if_pos rfl]
    refine ⟨fun h => ?_, fun h => absurd List.mem_cons_self h.1⟩
    have weight := Walk.weight_prepend [quote] (walk p)
    have bound := walk_weight p
    rw [h, Walk.weight] at weight
    simp only [List.length_cons, List.length_nil] at weight
    omega
  | case6 d p other =>
    rw [walk, if_pos rfl, if_neg other]
    refine ⟨fun h => ?_, fun h => absurd List.mem_cons_self h.1⟩
    cases h
  | case7 d p _ ih =>
    rw [walk, if_neg (by decide), if_pos rfl]
    by_cases wild : d = 37 ∨ d = 95
    · have same : escaped d = [backslash, d] := by rcases wild with rfl | rfl <;> rfl
      have notQuote : d ≠ quote := by rcases wild with rfl | rfl <;> decide
      have notBackslash : d ≠ backslash := by rcases wild with rfl | rfl <;> decide
      rw [same, show backslash :: d :: p = [backslash, d] ++ p from rfl, Walk.prepend_within, ih]
      have quotes : quote ∉ [backslash, d] ++ p ↔ quote ∉ p := by
        simp [notQuote.symm, show quote ≠ backslash by decide]
      refine and_congr quotes.symm ⟨fun h i at_i => ?_, fun h i at_i => h (i + 2) at_i⟩
      match i with
      | 0 => simpa using wild
      | 1 => exact absurd (Option.some.inj at_i) notBackslash
      | i + 2 => exact h i at_i
    · have single : (escaped d).length = 1 := by
        rw [not_or] at wild
        unfold escaped
        repeat' split
        all_goals simp_all
      constructor
      · intro h
        have weight := Walk.weight_prepend (escaped d) (walk p)
        have bound := walk_weight p
        rw [h, Walk.weight, single] at weight
        simp only [List.length_cons] at weight
        omega
      · rintro ⟨-, h⟩
        have next := h 0 rfl
        simp only [Nat.zero_add, List.getElem?_cons_succ, List.getElem?_cons_zero,
          Option.some.injEq] at next
        exact absurd next wild
  | case8 c d p notQuote notBackslash ih =>
    rw [walk, if_neg notQuote, if_neg notBackslash, show c :: d :: p = [c] ++ (d :: p) from rfl,
      Walk.prepend_within, ih]
    have quotes : quote ∉ [c] ++ (d :: p) ↔ quote ∉ d :: p := by simp [Ne.symm notQuote]
    refine and_congr quotes.symm ⟨fun h i at_i => ?_, fun h i at_i => h (i + 1) at_i⟩
    match i with
    | 0 => exact absurd (Option.some.inj at_i) notBackslash
    | i + 1 => exact h i at_i

end Sql
