import ModelPublish.Packed.Memory

/-!
# Text as C reads it

Lines through `fgets`, numbers through `atoi`, words through `sscanf`, and loops that run to a
character. A text in memory is the rest of its array: what runs off the end of it has no value.
-/

namespace Text

abbrev Chars := List UInt8

def newline : UInt8 := 10
def space : UInt8 := 32
def slash : UInt8 := 47

def isDigit (c : UInt8) : Bool := 48 ≤ c && c ≤ 57

def isSpace (c : UInt8) : Bool := c = 32 || (9 ≤ c && c ≤ 13)

def chars (s : String) : Chars := s.toList.map fun c => UInt8.ofNat c.toNat

/-! ### Loops -/

/-- `while ( *s != c ) s++ ; s++ ;` -/
def skipTo (c : UInt8) : Chars → Option Chars
  | [] => none
  | b :: s => if b = c then some s else skipTo c s

theorem skipTo_append {c : UInt8} {p : Chars} (free : c ∉ p) (s : Chars) : skipTo c (p ++ c :: s) = some s := by
  induction p with
  | nil => simp [skipTo]
  | cons b p ih =>
    have other : b ≠ c := fun same => free (same ▸ List.mem_cons_self)
    rw [List.cons_append, skipTo, if_neg other]
    exact ih fun member => free (List.mem_cons_of_mem b member)

theorem skipTo_none {c : UInt8} {p : Chars} (free : c ∉ p) : skipTo c p = none := by
  induction p with
  | nil => rfl
  | cons b p ih =>
    have other : b ≠ c := fun same => free (same ▸ List.mem_cons_self)
    rw [skipTo, if_neg other]
    exact ih fun member => free (List.mem_cons_of_mem b member)

theorem skipTo_eq {c : UInt8} {s t : Chars} (h : skipTo c s = some t) : ∃ p, c ∉ p ∧ s = p ++ c :: t := by
  induction s with
  | nil => cases h
  | cons b s ih =>
    unfold skipTo at h
    split at h
    · rename_i same
      cases h
      exact ⟨[], List.not_mem_nil, by rw [same]; rfl⟩
    · rename_i other
      obtain ⟨p, free, rfl⟩ := ih h
      refine ⟨b :: p, ?_, rfl⟩
      intro member
      rcases List.mem_cons.mp member with same | later
      · exact other same.symm
      · exact free later

/-! ### Numbers -/

def digitValue (c : UInt8) : Nat := c.toNat - 48

def numeralFrom : Nat → Chars → Nat := List.foldl fun n c => 10 * n + digitValue c

/-- The number that digits stand for. -/
def numeral (ds : Chars) : Nat := numeralFrom 0 ds

theorem le_numeralFrom (n : Nat) (ds : Chars) : n ≤ numeralFrom n ds := by
  induction ds generalizing n with
  | nil => exact Nat.le_refl n
  | cons d ds ih => exact Nat.le_trans (by omega) (ih (10 * n + digitValue d))

theorem numeral_lt_append {p ds : Chars} (some_digit : ds ≠ []) (positive : 0 < numeral (p ++ ds)) :
    numeral p < numeral (p ++ ds) := by
  have whole : numeral (p ++ ds) = numeralFrom (numeral p) ds := List.foldl_append
  rw [whole] at positive ⊢
  rcases Nat.eq_zero_or_pos (numeral p) with zero | nonzero
  · rw [zero] at positive ⊢
    exact positive
  · obtain ⟨d, ds, rfl⟩ := List.exists_cons_of_ne_nil some_digit
    exact Nat.lt_of_lt_of_le (by omega) (le_numeralFrom (10 * numeral p + digitValue d) ds)

/-- The digits at the front of `s`, after a number `n`. -/
def digits (n : Nat) : Chars → Option Nat
  | [] => none
  | c :: s => if isDigit c then digits (10 * n + digitValue c) s else some n

/-- An `int`, or the nearest one. -/
def saturate (n : Int) : Int := max (-(2 ^ 31)) (min n (2 ^ 31 - 1))

/-- `atoi` of what comes behind white space. -/
def signed : Chars → Option Int
  | [] => none
  | c :: s =>
    if c = 45 then (digits 0 s).map fun n : Nat => saturate (-n)
    else if c = 43 then (digits 0 s).map fun n : Nat => saturate n
    else (digits 0 (c :: s)).map fun n : Nat => saturate n

def atoi (s : Chars) : Option Int := signed (s.dropWhile isSpace)

theorem saturate_of_lt {n : Nat} (small : n < 2 ^ 31) : saturate n = n := by
  unfold saturate
  omega

theorem digits_append {ds : Chars} (all : ∀ c ∈ ds, isDigit c = true) {c : UInt8} (stop : isDigit c = false)
    (n : Nat) (rest : Chars) : digits n (ds ++ c :: rest) = some (numeralFrom n ds) := by
  induction ds generalizing n with
  | nil => simp [digits, stop, numeralFrom]
  | cons d ds ih =>
    rw [List.cons_append, digits, if_pos (all d List.mem_cons_self)]
    exact ih (fun e member => all e (List.mem_cons_of_mem d member)) _

theorem isSpace_of_isDigit {c : UInt8} (h : isDigit c = true) : isSpace c = false := by
  unfold isDigit at h
  unfold isSpace
  simp only [Bool.and_eq_true, decide_eq_true_eq, UInt8.le_iff_toNat_le, Bool.or_eq_false_iff,
    Bool.and_eq_false_iff, decide_eq_false_iff_not, ← UInt8.toNat_inj, UInt8.reduceToNat] at h ⊢
  omega

theorem not_sign_of_isDigit {c : UInt8} (h : isDigit c = true) : c ≠ 45 ∧ c ≠ 43 := by
  constructor
  · rintro rfl
    exact absurd h (by decide)
  · rintro rfl
    exact absurd h (by decide)

theorem atoi_digits {d : UInt8} {ds : Chars} (all : ∀ c ∈ d :: ds, isDigit c = true) {c : UInt8}
    (stop : isDigit c = false) (small : numeral (d :: ds) < 2 ^ 31) (rest : Chars) :
    atoi (d :: ds ++ c :: rest) = some ((numeral (d :: ds) : Nat) : Int) := by
  have first := all d List.mem_cons_self
  obtain ⟨noMinus, noPlus⟩ := not_sign_of_isDigit first
  unfold atoi
  rw [List.cons_append, List.dropWhile_cons_of_neg (by rw [isSpace_of_isDigit first]; decide), signed,
    if_neg noMinus, if_neg noPlus]
  have whole := digits_append all stop 0 rest
  rw [List.cons_append] at whole
  rw [whole, Option.map_some]
  exact congrArg some (saturate_of_lt small)

theorem atoi_minus {ds : Chars} (all : ∀ c ∈ ds, isDigit c = true) {c : UInt8} (stop : isDigit c = false)
    (rest : Chars) : atoi (45 :: ds ++ c :: rest) = some (saturate (-(numeral ds : Int))) := by
  unfold atoi
  rw [List.cons_append, List.dropWhile_cons_of_neg (by decide), signed, if_pos rfl, digits_append all stop,
    Option.map_some]
  rfl

theorem atoi_other {c : UInt8} (noSpace : isSpace c = false) (noDigit : isDigit c = false)
    (noSign : c ≠ 45 ∧ c ≠ 43) (rest : Chars) : atoi (c :: rest) = some 0 := by
  unfold atoi
  rw [List.dropWhile_cons_of_neg (by rw [noSpace]; decide), signed, if_neg noSign.1, if_neg noSign.2, digits,
    if_neg (by rw [noDigit]; decide)]
  rfl

theorem atoi_front {ds : Chars} (all : ∀ c ∈ ds, isDigit c = true) (small : numeral ds < 2 ^ 31) :
    atoi (ds ++ [0]) = some ((numeral ds : Nat) : Int) := by
  cases ds with
  | nil => rfl
  | cons d ds => exact atoi_digits all rfl small []

/-! ### Words -/

/-- `sscanf ( s, "%s", sz )`, where nothing is stored when there is no word. -/
def word (s : Chars) : Option Chars :=
  let w := (s.dropWhile isSpace).takeWhile fun c => !isSpace c
  if w = [] then none else some w

theorem word_pad {pad : Chars} (blank : ∀ c ∈ pad, isSpace c = true) (s : Chars) : word (pad ++ s) = word s := by
  unfold word
  rw [List.dropWhile_append_of_pos blank]

theorem word_append {w : Chars} (some_char : w ≠ []) (solid : ∀ c ∈ w, isSpace c = false) {c : UInt8}
    (stop : isSpace c = true) (rest : Chars) : word (w ++ c :: rest) = some w := by
  unfold word
  obtain ⟨b, w, rfl⟩ := List.exists_cons_of_ne_nil some_char
  have first : (b :: w ++ c :: rest).dropWhile isSpace = b :: w ++ c :: rest := by
    rw [List.cons_append, List.dropWhile_cons_of_neg (by rw [solid b List.mem_cons_self]; decide)]
  have front : (b :: w ++ c :: rest).takeWhile (fun c => !isSpace c) = b :: w := by
    rw [List.takeWhile_append_of_pos (by intro x member; rw [solid x member]; rfl),
      List.takeWhile_cons_of_neg (by rw [stop]; decide), List.append_nil]
  dsimp only
  rw [first, front, if_neg some_char]

theorem word_self {w : Chars} (some_char : w ≠ []) (solid : ∀ c ∈ w, isSpace c = false) : word w = some w := by
  unfold word
  obtain ⟨b, w, rfl⟩ := List.exists_cons_of_ne_nil some_char
  have front : (b :: w).takeWhile (fun c => !isSpace c) = b :: w := by
    rw [List.takeWhile_eq_self_iff]
    intro x member
    rw [solid x member]
    rfl
  dsimp only
  rw [List.dropWhile_cons_of_neg (by rw [solid b List.mem_cons_self]; decide), front, if_neg some_char]

/-! ### Lines -/

/-- `fgets` with room for `n` characters, from a text that is not at its end: what is read, and what is left. -/
def readLine : Nat → Chars → Chars × Chars
  | 0, s => ([], s)
  | _ + 1, [] => ([], [])
  | n + 1, c :: s => if c = newline then ([c], s) else let (line, rest) := readLine n s; (c :: line, rest)

def linesFrom (n : Nat) : Nat → Chars → List Chars
  | 0, _ => []
  | _, [] => []
  | left + 1, c :: s => let (line, rest) := readLine n (c :: s); line :: linesFrom n left rest

/-- What `fgets` reads until the end of the text. -/
def lines (n : Nat) (s : Chars) : List Chars := linesFrom n s.length s

theorem readLine_append (n : Nat) (s : Chars) : (readLine n s).1 ++ (readLine n s).2 = s := by
  induction n generalizing s with
  | zero => rfl
  | succ n ih =>
    cases s with
    | nil => rfl
    | cons c s =>
      unfold readLine
      split
      · rfl
      · exact congrArg (c :: ·) (ih s)

theorem mem_linesFrom {n left : Nat} {s line : Chars} (member : line ∈ linesFrom n left s) {c : UInt8}
    (among : c ∈ line) : c ∈ s := by
  induction left generalizing s with
  | zero => cases member
  | succ left ih =>
    cases s with
    | nil => cases member
    | cons b s =>
      have whole := readLine_append n (b :: s)
      rw [← whole]
      rcases List.mem_cons.mp member with rfl | later
      · exact List.mem_append_left _ among
      · exact List.mem_append_right _ (ih later)

theorem mem_lines {n : Nat} {s line : Chars} (member : line ∈ lines n s) {c : UInt8} (among : c ∈ line) : c ∈ s :=
  mem_linesFrom member among

theorem length_readLine (n : Nat) (s : Chars) : (readLine n s).1.length ≤ n := by
  induction n generalizing s with
  | zero => exact Nat.le_refl _
  | succ n ih =>
    cases s with
    | nil => exact Nat.zero_le _
    | cons c s =>
      unfold readLine
      split
      · exact Nat.le_add_left 1 n
      · exact Nat.succ_le_succ (ih s)

theorem length_linesFrom {n left : Nat} {s line : Chars} (member : line ∈ linesFrom n left s) : line.length ≤ n := by
  induction left generalizing s with
  | zero => cases member
  | succ left ih =>
    cases s with
    | nil => cases member
    | cons b s =>
      rcases List.mem_cons.mp member with rfl | later
      · exact length_readLine n _
      · exact ih later

theorem length_lines {n : Nat} {s line : Chars} (member : line ∈ lines n s) : line.length ≤ n :=
  length_linesFrom member

theorem readLine_shrinks (n : Nat) (c : UInt8) (s : Chars) : (readLine (n + 1) (c :: s)).2.length ≤ s.length := by
  have whole := congrArg List.length (readLine_append (n + 1) (c :: s))
  have some_char : 0 < (readLine (n + 1) (c :: s)).1.length := by
    unfold readLine
    split <;> exact Nat.succ_pos _
  rw [List.length_append, List.length_cons] at whole
  omega

theorem linesFrom_enough (n : Nat) {left left' : Nat} {s : Chars} (enough : s.length ≤ left)
    (enough' : s.length ≤ left') : linesFrom (n + 1) left s = linesFrom (n + 1) left' s := by
  induction left generalizing s left' with
  | zero =>
    rw [List.eq_nil_of_length_eq_zero (Nat.le_zero.mp enough)]
    cases left' <;> rfl
  | succ left ih =>
    cases s with
    | nil => cases left' <;> rfl
    | cons c s =>
      cases left' with
      | zero => exact absurd enough' (Nat.not_succ_le_zero _)
      | succ left' =>
        have shrinks := readLine_shrinks n c s
        simp only [linesFrom]
        rw [List.length_cons] at enough enough'
        exact congrArg _ (ih (by omega) (by omega))

theorem lines_nil (n : Nat) : lines n [] = [] := rfl

theorem lines_cons (n : Nat) {s : Chars} (some_char : s ≠ []) :
    lines (n + 1) s = (readLine (n + 1) s).1 :: lines (n + 1) (readLine (n + 1) s).2 := by
  obtain ⟨c, s, rfl⟩ := List.exists_cons_of_ne_nil some_char
  unfold lines
  rw [List.length_cons]
  simp only [linesFrom]
  rw [linesFrom_enough n (readLine_shrinks n c s) (Nat.le_refl _)]

theorem readLine_whole {n : Nat} {l : Chars} (free : newline ∉ l) (short : l.length < n) (rest : Chars) :
    readLine n (l ++ newline :: rest) = (l ++ [newline], rest) := by
  induction l generalizing n with
  | nil =>
    cases n with
    | zero => exact absurd short (Nat.not_lt_zero _)
    | succ n => rfl
  | cons c l ih =>
    cases n with
    | zero => exact absurd short (Nat.not_lt_zero _)
    | succ n =>
      have other : c ≠ newline := fun same => free (same ▸ List.mem_cons_self)
      rw [List.cons_append, readLine, if_neg other,
        ih (fun member => free (List.mem_cons_of_mem c member)) (Nat.lt_of_succ_lt_succ short)]
      rfl

theorem readLine_last {n : Nat} {l : Chars} (free : newline ∉ l) (short : l.length ≤ n) :
    readLine n l = (l, []) := by
  induction l generalizing n with
  | nil => cases n <;> rfl
  | cons c l ih =>
    cases n with
    | zero => exact absurd short (Nat.not_succ_le_zero _)
    | succ n =>
      have other : c ≠ newline := fun same => free (same ▸ List.mem_cons_self)
      rw [readLine, if_neg other, ih (fun member => free (List.mem_cons_of_mem c member))
        (Nat.le_of_succ_le_succ short)]

theorem readLine_front {n : Nat} {l : Chars} (free : newline ∉ l) (long : n ≤ l.length) (rest : Chars) :
    readLine n (l ++ rest) = (l.take n, l.drop n ++ rest) := by
  induction n generalizing l with
  | zero => rfl
  | succ n ih =>
    cases l with
    | nil => exact absurd long (Nat.not_succ_le_zero _)
    | cons c l =>
      have other : c ≠ newline := fun same => free (same ▸ List.mem_cons_self)
      rw [List.cons_append, readLine, if_neg other, ih (fun member => free (List.mem_cons_of_mem c member))
        (Nat.le_of_succ_le_succ long)]
      rfl

theorem lines_whole {n : Nat} {l : Chars} (free : newline ∉ l) (short : l.length ≤ n) (rest : Chars) :
    lines (n + 1) (l ++ newline :: rest) = (l ++ [newline]) :: lines (n + 1) rest := by
  rw [lines_cons n (by simp), readLine_whole free (Nat.lt_succ_of_le short)]

theorem lines_single {n : Nat} {l eol : Chars} (some_char : l ++ eol ≠ []) (free : newline ∉ l) (short : l.length ≤ n)
    (ending : eol = [] ∨ eol = [newline]) : lines (n + 1) (l ++ eol) = [l ++ eol] := by
  rcases ending with rfl | rfl
  · rw [List.append_nil] at some_char ⊢
    rw [lines_cons n some_char, readLine_last free (Nat.le_succ_of_le short), lines_nil]
  · rw [lines_whole free short, lines_nil]

theorem lines_line {n : Nat} {l eol : Chars} (some_char : l ≠ []) (free : newline ∉ l)
    (ending : eol = [] ∨ eol = [newline]) : ∃ eol' later, lines (n + 1) (l ++ eol) = (l.take (n + 1) ++ eol') :: later ∧
      (l.take (n + 1) ++ eol').length ≤ n + 1 ∧ (eol' = [] ∨ eol' = [newline] ∧ l.length ≤ n) ∧
      ∀ line ∈ later, line.length ≤ n + 1 ∧ ∀ c ∈ line, c ∈ l.drop (n + 1) ∨ c = newline := by
  by_cases fits : l.length ≤ n
  · have all : l.take (n + 1) = l := List.take_of_length_le (Nat.le_succ_of_le fits)
    rw [all]
    rcases ending with rfl | rfl
    · refine ⟨[], [], ?_, ?_, .inl rfl, by simp⟩
      · rw [List.append_nil, lines_cons n some_char, readLine_last free (Nat.le_succ_of_le fits), lines_nil]
      · rw [List.append_nil]
        exact Nat.le_succ_of_le fits
    · refine ⟨[newline], [], ?_, ?_, .inr ⟨rfl, fits⟩, by simp⟩
      · rw [lines_whole free fits, lines_nil]
      · rw [List.length_append]
        exact Nat.succ_le_succ fits
  · have long : n + 1 ≤ l.length := Nat.lt_of_not_le fits
    refine ⟨[], lines (n + 1) (l.drop (n + 1) ++ eol), ?_, ?_, .inl rfl, ?_⟩
    · rw [lines_cons n (by simp [some_char]), readLine_front free long, List.append_nil]
    · rw [List.append_nil, List.length_take]
      exact Nat.min_le_left _ _
    · intro line member
      refine ⟨length_lines member, ?_⟩
      intro c among
      rcases List.mem_append.mp (mem_lines member among) with inside | last
      · exact .inl inside
      · right
        rcases ending with rfl | rfl
        · cases last
        · exact List.mem_singleton.mp last

theorem lines_append (n : Nat) {l : Chars} (free : newline ∉ l) (rest : Chars) :
    lines (n + 1) (l ++ newline :: rest) = lines (n + 1) (l ++ [newline]) ++ lines (n + 1) rest := by
  induction long : l.length using Nat.strong_induction_on generalizing l with
  | _ m ih =>
    by_cases fits : l.length ≤ n
    · rw [lines_whole free fits, lines_whole free fits, lines_nil]
      rfl
    · have front : n + 1 ≤ l.length := by omega
      rw [lines_cons n (by simp), lines_cons n (s := l ++ [newline]) (by simp),
        readLine_front free front, readLine_front free front]
      have less : (l.drop (n + 1)).length < m := by
        rw [List.length_drop]
        omega
      rw [ih _ less (fun member => free (List.mem_of_mem_drop member)) rfl]
      rfl

end Text
