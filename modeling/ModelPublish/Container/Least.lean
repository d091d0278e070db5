import Mathlib

/-!
# The least element of a list

A loop that keeps the least element so far, from a value that need not be in the list.
-/

namespace Container
variable {α β : Type} [LinearOrder β]

/-- An element of a list that none is below, where elements are compared by `r`. -/
def LeastOf (r : α → β) (m : α) (cs : List α) : Prop := m ∈ cs ∧ ∀ c ∈ cs, r m ≤ r c

def runLeast (r : α → β) (m : α) (cs : List α) : α := cs.foldl (fun m c => if r c < r m then c else m) m

variable {r : α → β}

theorem runLeast_cons (m c : α) (cs : List α) :
    runLeast r m (c :: cs) = runLeast r (if r c < r m then c else m) cs := rfl

theorem runLeast_le (m : α) (cs : List α) : r (runLeast r m cs) ≤ r m ∧ ∀ c ∈ cs, r (runLeast r m cs) ≤ r c := by
  induction cs generalizing m with
  | nil => exact ⟨le_rfl, fun c member => absurd member List.not_mem_nil⟩
  | cons c cs ih =>
    obtain ⟨start, rest⟩ := ih (if r c < r m then c else m)
    rw [runLeast_cons, List.forall_mem_cons]
    by_cases less : r c < r m
    · rw [if_pos less] at start rest ⊢
      exact ⟨start.trans less.le, start, rest⟩
    · rw [if_neg less] at start rest ⊢
      exact ⟨start, start.trans (not_lt.mp less), rest⟩

theorem runLeast_mem (m : α) (cs : List α) : runLeast r m cs = m ∨ runLeast r m cs ∈ cs := by
  induction cs generalizing m with
  | nil => exact .inl rfl
  | cons c cs ih =>
    rw [runLeast_cons]
    by_cases less : r c < r m
    · rw [if_pos less]
      rcases ih c with same | later
      · rw [same]
        exact .inr List.mem_cons_self
      · exact .inr (List.mem_cons_of_mem c later)
    · rw [if_neg less]
      rcases ih m with same | later
      · exact .inl same
      · exact .inr (List.mem_cons_of_mem c later)

/-- The loop finds the least element when one is not above the value that it begins with. -/
theorem leastOf_runLeast_iff {m : α} (alone : ∀ c, r c = r m → c = m) (cs : List α) :
    LeastOf r (runLeast r m cs) cs ↔ ∃ c ∈ cs, r c ≤ r m := by
  obtain ⟨start, below⟩ := runLeast_le (r := r) m cs
  constructor
  · intro least
    exact ⟨_, least.1, start⟩
  · rintro ⟨c, member, le⟩
    refine ⟨?_, below⟩
    rcases runLeast_mem (r := r) m cs with same | found
    · have equal : r c = r m := le_antisymm le (same ▸ below c member)
      rw [same, ← alone c equal]
      exact member
    · exact found

end Container
