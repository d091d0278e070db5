import Mathlib

/-!
# Walks around a ring

A position that goes forward and back among `n` places, read off after each turn.
-/

namespace Container

inductive Turn where
  | back
  | forth
  deriving DecidableEq

namespace Turn

def delta : Turn → Int
  | back => -1
  | forth => 1

def opposite : Turn → Turn
  | back => forth
  | forth => back

@[simp] theorem delta_opposite (t : Turn) : t.opposite.delta = -t.delta := by cases t <;> rfl

/-- How often it went forth, less how often it went back. -/
def net (turns : List Turn) : Int := turns.count forth - turns.count back

@[simp] theorem net_nil : net [] = 0 := rfl

theorem net_concat (turns : List Turn) (t : Turn) : net (turns ++ [t]) = net turns + t.delta := by
  cases t <;> simp [net, delta, List.count_append] <;> omega

end Turn

/-- `position` is in the ring after each turn, each turn takes it to the neighbour, a turn is undone by the
opposite one, and it ends where the turns add up to. -/
structure Cyclic (n : Int) (position : List Turn → Int) (turns : List Turn) : Prop where
  inside : ∀ before, before <+: turns → 0 ≤ position before ∧ position before < n
  forth : ∀ before, before ++ [.forth] <+: turns → position (before ++ [.forth]) = (position before + 1) % n
  back : ∀ before, before ++ [.back] <+: turns → position (before ++ [.back]) = (position before - 1) % n
  undone : ∀ before t, before ++ [t] ++ [t.opposite] <+: turns →
    position (before ++ [t] ++ [t.opposite]) = position before
  ends : position turns = Turn.net turns % n

section Cyclic
variable {n : Int} {position : List Turn → Int} {turns : List Turn}

theorem prefix_of_concat {before : List Turn} {t : Turn} (h : before ++ [t] <+: turns) : before <+: turns :=
  (List.prefix_append before [t]).trans h

theorem Cyclic.turn (h : Cyclic n position turns) {before : List Turn} {t : Turn} (here : before ++ [t] <+: turns) :
    position (before ++ [t]) = (position before + t.delta) % n := by
  cases t with
  | back => exact h.back before here
  | forth => exact h.forth before here

/-- From place 0, it comes down to where the position is after each turn. -/
theorem cyclic_iff (positive : 0 < n) (start : position [] = 0) :
    Cyclic n position turns ↔ ∀ before, before <+: turns → position before = Turn.net before % n := by
  constructor
  · intro h before
    induction before using List.reverseRecOn with
    | nil =>
      intro _
      simp [start]
    | append_singleton before t ih =>
      intro here
      rw [h.turn here, ih (prefix_of_concat here), Turn.net_concat, Int.emod_add_emod]
  · intro h
    have turn : ∀ before t, before ++ [t] <+: turns → position (before ++ [t]) = (position before + t.delta) % n := by
      intro before t here
      rw [h _ here, h _ (prefix_of_concat here), Turn.net_concat, Int.emod_add_emod]
    refine ⟨?_, fun before => turn before .forth, fun before => turn before .back, ?_, h turns List.prefix_rfl⟩
    · intro before here
      rw [h before here]
      exact ⟨Int.emod_nonneg _ (by omega), Int.emod_lt_of_pos _ positive⟩
    · intro before t here
      have earlier := prefix_of_concat (prefix_of_concat here)
      rw [h _ here, h before earlier, Turn.net_concat, Turn.net_concat, Turn.delta_opposite]
      congr 1
      omega

end Cyclic
end Container
