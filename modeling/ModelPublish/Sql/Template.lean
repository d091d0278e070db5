import ModelPublish.Packed.Memory
import ModelPublish.Sql.Literal

/-!
# Queries with holes for strings

A query is printed from a format with a quoted `%s` for each string. When the strings are read back as
the literals they are meant for.
-/

namespace Sql
open Packed (cstr cstr_nulFree cstr_of_nulFree)

/-- The token without the value of a literal. -/
def Token.shape : Token → Token
  | .str _ => .str []
  | t => t

def Token.literal? : Token → Option (List UInt8)
  | .str value => some value
  | _ => none

def literals (ts : List Token) : List (List UInt8) := ts.filterMap Token.literal?

theorem literals_append (ts us : List Token) : literals (ts ++ us) = literals ts ++ literals us :=
  List.filterMap_append ..

theorem literals_str (value : List UInt8) (ts : List Token) : literals (.str value :: ts) = value :: literals ts :=
  rfl

theorem tokens_ext {ts us : List Token} (shapes : ts.map Token.shape = us.map Token.shape)
    (values : literals ts = literals us) : ts = us := by
  induction ts generalizing us with
  | nil => exact (List.map_eq_nil_iff.mp shapes.symm).symm
  | cons t ts ih =>
    cases us with
    | nil => cases shapes
    | cons u us =>
      obtain ⟨first, rest⟩ := List.cons.inj shapes
      cases t with
      | word chars =>
        cases u with
        | word chars' =>
          cases first
          exact congrArg _ (ih rest values)
        | _ => cases first
      | symbol c =>
        cases u with
        | symbol c' =>
          cases first
          exact congrArg _ (ih rest values)
        | _ => cases first
      | str value =>
        cases u with
        | str value' =>
          obtain ⟨rfl, tail⟩ := List.cons.inj values
          exact congrArg _ (ih rest tail)
        | _ => cases first

theorem outside_lead {pre : List UInt8} (free : quote ∉ pre) (w : List UInt8) :
    ∃ ts, outside w pre = some ts ∧ literals ts = [] ∧
      ∀ rest, outside w (pre ++ quote :: rest) = (inside [] rest).map (ts ++ ·) := by
  have flushed : ∀ w, literals (flush w) = [] := by
    intro w
    unfold flush
    split <;> rfl
  induction pre generalizing w with
  | nil => exact ⟨flush w, rfl, flushed w, fun rest => by simp [outside]⟩
  | cons c pre ih =>
    have ne : c ≠ quote := fun same => free (same ▸ List.mem_cons_self)
    have rest := fun member => free (List.mem_cons_of_mem c member)
    by_cases word : wordChar c = true
    · obtain ⟨ts, alone, plain, before⟩ := ih rest (w ++ [c])
      refine ⟨ts, ?_, plain, fun rest => ?_⟩
      · rw [outside, if_neg ne, if_pos word, alone]
      · rw [List.cons_append, outside, if_neg ne, if_pos word, before]
    · obtain ⟨ts, alone, plain, before⟩ := ih rest []
      by_cases space : blank c = true
      · refine ⟨flush w ++ ts, ?_, ?_, fun rest => ?_⟩
        · rw [outside, if_neg ne, if_neg word, if_pos space, alone]
          rfl
        · rw [literals_append, flushed, plain]
          rfl
        · rw [List.cons_append, outside, if_neg ne, if_neg word, if_pos space, before]
          cases inside [] rest <;> simp
      · refine ⟨flush w ++ .symbol c :: ts, ?_, ?_, fun rest => ?_⟩
        · rw [outside, if_neg ne, if_neg word, if_neg space, alone]
          rfl
        · have tail : literals (.symbol c :: ts) = literals ts := rfl
          rw [literals_append, flushed, tail, plain]
          rfl
        · rw [List.cons_append, outside, if_neg ne, if_neg word, if_neg space, before]
          cases inside [] rest <;> simp

theorem tokens_free {text : List UInt8} (free : quote ∉ text) :
    ∃ ts, tokens text = some ts ∧ literals ts = [] := by
  obtain ⟨ts, read, none, -⟩ := outside_lead free []
  exact ⟨ts, read, none⟩

/-- A string that is safe is read back whole. -/
theorem body_safe {p rest : List UInt8} (safe : Safe p) (next : rest.head? ≠ some quote) :
    body (p ++ quote :: rest) = some (p, rest) := by
  rw [body_append, safe, Walk.on]
  cases rest with
  | nil => simp [body]
  | cons d rest =>
    have ne : d ≠ quote := fun same => next (by rw [same]; rfl)
    simp [body, ne]

theorem body_last {p rest value after : List UInt8} (free : quote ∉ rest)
    (h : body (p ++ quote :: rest) = some (value, after)) :
    value.length < p.length ∨ (walk p = .within value ∧ after = rest) := by
  have next : rest.head? ≠ some quote := fun same => free (List.mem_of_mem_head? same)
  have ended : body rest = none := by
    cases read : body rest with
    | none => rfl
    | some found =>
      obtain ⟨value, rest'⟩ := found
      have bound := body_reach read
      rw [reach_free free] at bound
      omega
  rw [body_append] at h
  have weight := walk_weight p
  cases at_p : walk p with
  | closed v r =>
    rw [at_p, Walk.on] at h
    rw [at_p, Walk.weight] at weight
    cases h
    left
    omega
  | within v =>
    rw [at_p, Walk.on] at h
    right
    cases rest with
    | nil =>
      simp [body] at h
      exact ⟨by rw [h.1], h.2⟩
    | cons d rest =>
      have ne : d ≠ quote := fun same => next (by rw [same]; rfl)
      simp [body, ne] at h
      exact ⟨by rw [h.1], h.2.symm⟩
  | escaping v =>
    rw [at_p, Walk.on] at h
    simp [body, ended, show backslash ≠ quote by decide] at h
  | quoted v =>
    rw [at_p, Walk.on] at h
    simp [body, ended] at h

theorem head_ne_quote {cs : List UInt8} (free : quote ∉ cs) : cs.head? ≠ some quote :=
  fun same => free (List.mem_of_mem_head? same)

/-- What is printed of a string: all of it, or what lies before its first NUL. -/
def Printed (printed p : List UInt8) : Prop := printed = p ∨ printed ++ [0] <+: p

theorem Printed.length_le {printed p : List UInt8} (h : Printed printed p) : printed.length ≤ p.length := by
  rcases h with rfl | front
  · exact Nat.le_refl _
  · have bound := front.length_le
    rw [List.length_append] at bound
    exact Nat.le_trans (Nat.le_add_right _ _) bound

theorem Printed.eq_of_length {printed p : List UInt8} (h : Printed printed p)
    (length : p.length ≤ printed.length) : printed = p := by
  rcases h with same | front
  · exact same
  · have bound := front.length_le
    simp only [List.length_append, List.length_cons, List.length_nil] at bound
    omega

section OneHole
variable {pre tail printed p : List UInt8} {ts us : List Token}

/-- One string in a text that is free of quotes otherwise is a literal of its own with the string as
its value exactly when the string is safe and printed whole. -/
theorem tokens_one_iff (preFree : quote ∉ pre) (tailFree : quote ∉ tail)
    (front : tokens pre = some ts) (back : tokens tail = some us) (print : Printed printed p) :
    tokens (pre ++ quote :: (printed ++ quote :: tail)) = some (ts ++ .str p :: us) ↔
      printed = p ∧ Safe p := by
  obtain ⟨ts', alone, -, lead⟩ := outside_lead preFree []
  obtain rfl : ts' = ts := Option.some.inj (alone.symm.trans front)
  rw [tokens, lead, inside_eq]
  constructor
  · intro h
    obtain ⟨found, within, same⟩ := Option.map_eq_some_iff.mp h
    obtain ⟨⟨value, after⟩, read, within⟩ := Option.bind_eq_some_iff.mp within
    obtain ⟨rest, -, rfl⟩ := Option.map_eq_some_iff.mp within
    have first := (List.cons.inj (List.append_cancel_left same)).1
    obtain rfl : value = p := by simpa using first
    have length := print.length_le
    rcases body_last tailFree read with short | ⟨walked, -⟩
    · omega
    · have weight := walk_weight printed
      rw [walked, Walk.weight] at weight
      obtain rfl := print.eq_of_length weight
      exact ⟨rfl, walked⟩
  · rintro ⟨rfl, safe⟩
    rw [body_safe safe (head_ne_quote tailFree)]
    rw [tokens] at back
    simp [back]

end OneHole

section TwoHoles
variable {pre seg tail printed printed' p q : List UInt8} {ts us vs : List Token}

/-- A literal that goes on behind its string, for want of a quote that ends it there, has another value:
it ends within the second string, or takes the opening quote of that one along. -/
theorem runs_on {v value after : List UInt8} {c : UInt8} (segFree : quote ∉ seg) (segPlain : backslash ∉ seg)
    (segWhole : 0 ∉ seg) (segSome : seg ≠ []) (tailFree : quote ∉ tail) (print : Printed printed p)
    (print' : Printed printed' q) (weight : v.length + 1 ≤ printed.length) (last : printed.getLast? = some c)
    (pending : c = quote ∨ c = backslash)
    (read : body (seg ++ quote :: (printed' ++ quote :: tail)) = some (value, after))
    (later : ∃ ts, outside [] after = some ts ∧ .str q ∈ ts) : v ++ quote :: value ≠ p := by
  intro same
  have length := print.length_le
  rw [body_append, safe_of_free segFree segPlain, Walk.on] at read
  obtain ⟨⟨value', after'⟩, more, ends⟩ := Option.map_eq_some_iff.mp read
  cases ends
  obtain ⟨ts, rest, member⟩ := later
  have bound := str_reach (Nat.le_refl _) rest member
  have length' := print'.length_le
  -- the second string ends the literal, or its first quote continues it
  cases first : printed' with
  | nil =>
    rw [first, List.nil_append, body, if_pos rfl, if_pos rfl] at more
    obtain ⟨⟨value'', after'⟩, beyond, ends⟩ := Option.map_eq_some_iff.mp more
    cases ends
    have reached := body_reach beyond
    rw [reach_free tailFree] at reached
    omega
  | cons d printed'' =>
    rw [first, List.cons_append, body, if_pos rfl] at more
    by_cases opens : d = quote
    · rw [if_pos opens] at more
      obtain ⟨⟨value'', after'⟩, beyond, ends⟩ := Option.map_eq_some_iff.mp more
      cases ends
      have reached := body_reach beyond
      rw [reach_append_quote, reach_free tailFree] at reached
      rw [first, List.length_cons] at length'
      omega
    · rw [if_neg opens] at more
      cases more
      rw [List.append_nil] at same
      rcases print with rfl | front
      · have ended : (v ++ quote :: seg).getLast? = seg.getLast? := by
          rw [List.getLast?_append, List.getLast?_cons]
          cases seg with
          | nil => exact absurd rfl segSome
          | cons e seg => simp [List.getLast?_cons]
        rw [← same, ended] at last
        have within := List.mem_of_getLast? last
        rcases pending with rfl | rfl
        · exact segFree within
        · exact segPlain within
      · have cut : p[printed.length]? = some 0 := by
          obtain ⟨x, rfl⟩ := front
          simp
        rw [← same, List.getElem?_append_right (by omega), List.getElem?_cons, if_neg (by omega)] at cut
        exact segWhole (List.mem_of_getElem? cut)

theorem tokens_two_iff (preFree : quote ∉ pre) (segFree : quote ∉ seg) (segPlain : backslash ∉ seg)
    (segWhole : 0 ∉ seg) (segSome : seg ≠ []) (tailFree : quote ∉ tail) (front : tokens pre = some ts)
    (middle : tokens seg = some us) (back : tokens tail = some vs) (print : Printed printed p)
    (print' : Printed printed' q) :
    tokens (pre ++ quote :: (printed ++ quote :: (seg ++ quote :: (printed' ++ quote :: tail)))) =
        some (ts ++ .str p :: (us ++ .str q :: vs)) ↔
      (printed = p ∧ Safe p) ∧ printed' = q ∧ Safe q := by
  have next : (seg ++ quote :: (printed' ++ quote :: tail)).head? ≠ some quote := by
    rw [List.head?_append_of_ne_nil seg segSome]
    exact head_ne_quote segFree
  have second := tokens_one_iff segFree tailFree middle back print'
  obtain ⟨ts', alone, -, lead⟩ := outside_lead preFree []
  obtain rfl : ts' = ts := Option.some.inj (alone.symm.trans front)
  rw [tokens, lead, inside_eq, ← second]
  constructor
  · intro h
    obtain ⟨found, within, same⟩ := Option.map_eq_some_iff.mp h
    obtain ⟨⟨value, after⟩, read, within⟩ := Option.bind_eq_some_iff.mp within
    obtain ⟨rest, outer, rfl⟩ := Option.map_eq_some_iff.mp within
    obtain ⟨first, others⟩ := List.cons.inj (List.append_cancel_left same)
    obtain rfl : value = p := by simpa using first
    subst others
    have length := print.length_le
    have weight := walk_weight printed
    have later : ∃ ts, outside [] after = some ts ∧ .str q ∈ ts := ⟨_, outer, by simp⟩
    rw [body_append] at read
    cases walked : walk printed with
    | closed v r =>
      rw [walked, Walk.on] at read
      rw [walked, Walk.weight] at weight
      cases read
      omega
    | within v =>
      rw [walked, Walk.on, ← List.nil_append (quote :: _),
        body_safe (safe_of_free List.not_mem_nil List.not_mem_nil) next] at read
      rw [walked, Walk.weight] at weight
      simp only [Option.map_some, List.append_nil, Option.some.injEq, Prod.mk.injEq] at read
      obtain ⟨rfl, rfl⟩ := read
      obtain rfl := print.eq_of_length weight
      exact ⟨⟨rfl, walked⟩, outer⟩
    | escaping v =>
      rw [walked, Walk.on, body, if_neg (by decide), if_pos rfl] at read
      rw [walked, Walk.weight] at weight
      obtain ⟨⟨tail', after'⟩, beyond, ends⟩ := Option.map_eq_some_iff.mp read
      obtain ⟨⟨value', after''⟩, beyond, piece⟩ := Option.map_eq_some_iff.mp beyond
      cases piece
      cases ends
      have last := walk_pending (p := printed) (by rw [walked]; rfl)
      exact absurd rfl (runs_on segFree segPlain segWhole segSome tailFree print print' weight last
        (.inr rfl) beyond later)
    | quoted v =>
      rw [walked, Walk.on, body, if_pos rfl, if_pos rfl] at read
      rw [walked, Walk.weight] at weight
      obtain ⟨⟨tail', after'⟩, beyond, ends⟩ := Option.map_eq_some_iff.mp read
      obtain ⟨⟨value', after''⟩, beyond, piece⟩ := Option.map_eq_some_iff.mp beyond
      cases piece
      cases ends
      have last := walk_pending (p := printed) (by rw [walked]; rfl)
      exact absurd rfl (runs_on segFree segPlain segWhole segSome tailFree print print' weight last
        (.inl rfl) beyond later)
  · rintro ⟨⟨rfl, safe⟩, rest⟩
    rw [tokens] at rest
    rw [body_safe safe next, Option.bind_some]
    dsimp only
    rw [rest]
    simp

end TwoHoles

/-! ### Templates -/

theorem cstr_eq_self {p : List UInt8} : cstr p = p ↔ 0 ∉ p :=
  ⟨fun same => same ▸ cstr_nulFree p, cstr_of_nulFree⟩

theorem cstr_printed (p : List UInt8) : Printed (cstr p) p := by
  unfold cstr
  induction p with
  | nil => exact .inl rfl
  | cons c p ih =>
    by_cases nul : c = 0
    · subst nul
      exact .inr (by simp)
    · rw [List.takeWhile_cons_of_pos (by simpa using nul)]
      rcases ih with same | ⟨rest, same⟩
      · exact .inl (by rw [same])
      · exact .inr ⟨rest, by rw [List.cons_append, List.cons_append, same]⟩

/-- What is printed whole and read back whole. -/
def Whole (p : List UInt8) : Prop := 0 ∉ p ∧ Safe p

instance (p : List UInt8) : Decidable (Whole p) := inferInstanceAs (Decidable (_ ∧ _))

theorem whole_of_free {p : List UInt8} (noNul : 0 ∉ p) (noQuote : quote ∉ p) (noBackslash : backslash ∉ p) :
    Whole p := ⟨noNul, safe_of_free noQuote noBackslash⟩

/-- The format of a query, with the strings for its quoted `%s`. -/
inductive Template where
  | fixed (text : List UInt8)
  | one (pre p tail : List UInt8)
  | two (pre p seg q tail : List UInt8)
  deriving DecidableEq

namespace Template

def text : Template → List UInt8
  | fixed text => text
  | one pre p tail => pre ++ quote :: (cstr p ++ quote :: tail)
  | two pre p seg q tail =>
    pre ++ quote :: (cstr p ++ quote :: (seg ++ quote :: (cstr q ++ quote :: tail)))

def strings : Template → List (List UInt8)
  | fixed _ => []
  | one _ p _ => [p]
  | two _ p _ q _ => [p, q]

/-- The format with `a` for each string. -/
def ofA : Template → Template
  | fixed text => fixed text
  | one pre _ tail => one pre [97] tail
  | two pre _ seg _ tail => two pre [97] seg [97] tail

/-- The tokens that the format is written for. -/
def intended : Template → Option (List Token)
  | fixed text => tokens text
  | one pre p tail => (tokens pre).bind fun ts => (tokens tail).map fun us => ts ++ .str p :: us
  | two pre p seg q tail => (tokens pre).bind fun ts => (tokens seg).bind fun us =>
    (tokens tail).map fun vs => ts ++ .str p :: (us ++ .str q :: vs)

/-- The strings are read as the literals they are meant for, and nothing else is changed by them. -/
def Intact (t : Template) : Prop := tokens t.text = t.intended

instance (t : Template) : Decidable t.Intact := inferInstanceAs (Decidable (tokens t.text = t.intended))

/-- Outside its strings the format has no quotes, and something stands between two of them. -/
def Clean : Template → Prop
  | fixed text => quote ∉ text
  | one pre _ tail => quote ∉ pre ∧ quote ∉ tail
  | two pre _ seg _ tail =>
    (quote ∉ pre ∧ quote ∉ tail) ∧ (quote ∉ seg ∧ backslash ∉ seg ∧ 0 ∉ seg) ∧ seg ≠ []

theorem intact_iff {t : Template} (clean : t.Clean) : t.Intact ↔ ∀ p ∈ t.strings, Whole p := by
  cases t with
  | fixed text => simp [Intact, intended, Template.text, strings]
  | one pre p tail =>
    obtain ⟨preFree, tailFree⟩ := clean
    obtain ⟨ts, front, -⟩ := tokens_free preFree
    obtain ⟨us, back, -⟩ := tokens_free tailFree
    have whole := tokens_one_iff preFree tailFree front back (cstr_printed p)
    rw [Intact, intended, front, back, Option.bind_some, Option.map_some, text, whole,
      cstr_eq_self, strings, List.forall_mem_singleton, Whole]
  | two pre p seg q tail =>
    obtain ⟨⟨preFree, tailFree⟩, ⟨segFree, segPlain, segWhole⟩, segSome⟩ := clean
    obtain ⟨ts, front, -⟩ := tokens_free preFree
    obtain ⟨us, middle, -⟩ := tokens_free segFree
    obtain ⟨vs, back, -⟩ := tokens_free tailFree
    have whole := tokens_two_iff preFree segFree segPlain segWhole segSome tailFree front middle back
      (cstr_printed p) (cstr_printed q)
    rw [Intact, intended, front, middle, back, Option.bind_some, Option.bind_some,
      Option.map_some, text, whole, cstr_eq_self, cstr_eq_self, strings]
    simp [Whole]

/-- The literals of an intact text are its strings, in the places that `a` would have. -/
theorem intact_iff_structure {t : Template} (clean : t.Clean) : t.Intact ↔
    ∃ ts us, tokens t.text = some ts ∧ tokens t.ofA.text = some us ∧
      ts.map Token.shape = us.map Token.shape ∧ literals ts = t.strings := by
  have safeA : Safe [97] := by decide
  cases t with
  | fixed text =>
    obtain ⟨ts, read, none⟩ := tokens_free clean
    exact iff_of_true rfl ⟨ts, ts, read, read, rfl, none⟩
  | one pre p tail =>
    have intactA : (one pre [97] tail).Intact := by
      apply (intact_iff (by exact clean)).mpr
      intro p member
      obtain rfl := List.mem_singleton.mp member
      exact ⟨by decide, safeA⟩
    obtain ⟨preFree, tailFree⟩ := clean
    obtain ⟨ts, front, noneFront⟩ := tokens_free preFree
    obtain ⟨us, back, noneBack⟩ := tokens_free tailFree
    rw [Intact, intended, front, back, Option.bind_some, Option.map_some] at intactA ⊢
    have values : ∀ q, literals (ts ++ .str q :: us) = [q] := by
      intro q
      rw [literals_append, noneFront, literals_str, noneBack]
      rfl
    constructor
    · intro intact
      exact ⟨_, _, intact, intactA, by simp [Token.shape], values p⟩
    · rintro ⟨ts', us', read, readA, shapes, literal⟩
      obtain rfl := Option.some.inj (intactA.symm.trans readA)
      have same : ts' = ts ++ .str p :: us := by
        refine tokens_ext ?_ (literal.trans (values p).symm)
        rw [shapes]
        simp [Token.shape]
      rw [read, same]
  | two pre p seg q tail =>
    have intactA : (two pre [97] seg [97] tail).Intact := by
      apply (intact_iff (by exact clean)).mpr
      intro p member
      obtain rfl : p = [97] := by simpa [strings] using member
      exact ⟨by decide, safeA⟩
    obtain ⟨⟨preFree, tailFree⟩, ⟨segFree, -, -⟩, -⟩ := clean
    obtain ⟨ts, front, noneFront⟩ := tokens_free preFree
    obtain ⟨us, middle, noneMiddle⟩ := tokens_free segFree
    obtain ⟨vs, back, noneBack⟩ := tokens_free tailFree
    rw [Intact, intended, front, middle, back, Option.bind_some, Option.bind_some,
      Option.map_some] at intactA ⊢
    have values : ∀ x y, literals (ts ++ .str x :: (us ++ .str y :: vs)) = [x, y] := by
      intro x y
      rw [literals_append, noneFront, literals_str, literals_append, noneMiddle, literals_str, noneBack]
      rfl
    constructor
    · intro intact
      exact ⟨_, _, intact, intactA, by simp [Token.shape], values p q⟩
    · rintro ⟨ts', us', read, readA, shapes, literal⟩
      obtain rfl := Option.some.inj (intactA.symm.trans readA)
      have same : ts' = ts ++ .str p :: (us ++ .str q :: vs) := by
        refine tokens_ext ?_ (literal.trans (values p q).symm)
        rw [shapes]
        simp [Token.shape]
      rw [read, same]

end Template

end Sql
