import ModelPublish.Text.Scan

/-!
# Lines of any length

A text split at its newlines, and how `fgets` cuts the lines that there is no room for.
-/

namespace Text

/-- The lines of a text, each with its newline. The last of them may lack it. -/
def wholeLines : Chars → List Chars
  | [] => []
  | c :: s =>
    if c = newline then [newline] :: wholeLines s
    else match wholeLines s with
      | [] => [[c]]
      | line :: rest => (c :: line) :: rest

theorem wholeLines_append {l : Chars} (free : newline ∉ l) (rest : Chars) :
    wholeLines (l ++ newline :: rest) = (l ++ [newline]) :: wholeLines rest := by
  induction l with
  | nil => rfl
  | cons c l ih =>
    have other : c ≠ newline := fun same => free (same ▸ List.mem_cons_self)
    rw [List.cons_append, wholeLines, if_neg other, ih fun member => free (List.mem_cons_of_mem c member)]
    rfl

theorem wholeLines_last {l : Chars} (some_char : l ≠ []) (free : newline ∉ l) : wholeLines l = [l] := by
  induction l with
  | nil => exact absurd rfl some_char
  | cons c l ih =>
    have other : c ≠ newline := fun same => free (same ▸ List.mem_cons_self)
    rw [wholeLines, if_neg other]
    cases l with
    | nil => rfl
    | cons d l => rw [ih (List.cons_ne_nil d l) fun member => free (List.mem_cons_of_mem c member)]

/-- A text is empty, or one line without a newline, or a line with its newline in front of a text. -/
theorem linesInduction {motive : Chars → Prop} (nil : motive [])
    (last : ∀ l, l ≠ [] → newline ∉ l → motive l)
    (line : ∀ l rest, newline ∉ l → motive rest → motive (l ++ newline :: rest)) (s : Chars) : motive s := by
  induction long : s.length using Nat.strong_induction_on generalizing s with
  | _ m ih =>
    by_cases member : newline ∈ s
    · obtain ⟨l, rest, rfl, free⟩ := List.eq_append_cons_of_mem member
      apply line l rest free
      apply ih rest.length _ rest rfl
      rw [← long, List.length_append, List.length_cons]
      omega
    · by_cases some_char : s = []
      · rw [some_char]
        exact nil
      · exact last s some_char member

/-- What is read of a text is what is read of its lines. -/
theorem lines_eq_flatMap (n : Nat) (s : Chars) : lines (n + 1) s = (wholeLines s).flatMap (lines (n + 1)) := by
  induction s using linesInduction with
  | nil => rfl
  | last l some_char free => rw [wholeLines_last some_char free, List.flatMap_singleton]
  | line l rest free ih => rw [lines_append n free, wholeLines_append free, List.flatMap_cons, ih]

theorem wholeLines_shape {s line : Chars} (member : line ∈ wholeLines s) :
    line ≠ [] ∧ ∃ l eol, line = l ++ eol ∧ newline ∉ l ∧ (eol = [] ∨ eol = [newline]) := by
  induction s using linesInduction with
  | nil => cases member
  | last l some_char free =>
    rw [wholeLines_last some_char free] at member
    rw [List.mem_singleton.mp member]
    exact ⟨some_char, l, [], (List.append_nil l).symm, free, .inl rfl⟩
  | line l rest free ih =>
    rw [wholeLines_append free] at member
    rcases List.mem_cons.mp member with rfl | later
    · exact ⟨by simp, l, [newline], rfl, free, .inr rfl⟩
    · exact ih later

theorem lines_short {n : Nat} {s line : Chars} (member : line ∈ wholeLines s) (short : line.length ≤ n + 1) :
    lines (n + 1) line = [line] := by
  obtain ⟨some_char, l, eol, rfl, free, ending⟩ := wholeLines_shape member
  rcases ending with rfl | rfl
  · rw [List.append_nil] at some_char short ⊢
    rw [lines_cons n some_char, readLine_last free short, lines_nil]
  · apply lines_single some_char free _ (.inr rfl)
    rw [List.length_append, List.length_singleton] at short
    omega

theorem readLine_take (n : Nat) {l eol : Chars} (free : newline ∉ l) (ending : eol = [] ∨ eol = [newline])
    (long : n ≤ (l ++ eol).length) : (readLine n (l ++ eol)).1 = (l ++ eol).take n := by
  by_cases all : n ≤ l.length
  · rw [readLine_front free all, List.take_append_of_le_length all]
  · rcases ending with rfl | rfl
    · rw [List.append_nil] at long
      exact absurd long all
    · rw [List.length_append, List.length_singleton] at long
      rw [readLine_whole free (by omega), List.take_of_length_le]
      rw [List.length_append, List.length_singleton]
      omega

theorem lines_long {n : Nat} {s line : Chars} (member : line ∈ wholeLines s) (long : n + 1 < line.length) :
    ∃ rest, lines (n + 1) line = line.take (n + 1) :: rest := by
  obtain ⟨some_char, l, eol, rfl, free, ending⟩ := wholeLines_shape member
  rw [lines_cons n some_char, readLine_take (n + 1) free ending (Nat.le_of_lt long)]
  exact ⟨_, rfl⟩

end Text
