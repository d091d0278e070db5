import Mathlib

/-!
# Brackets in a stream of events

Some events open a bracket, some close it, and some may only stand inside.
-/

namespace Machine
variable {ev : Type}

/-- What an event has to do with the bracket. -/
inductive Mark where
  | opens
  | inside
  | closes
  | neutral
  deriving DecidableEq

/-- Whether the bracket is open after an event, if the event may stand here. -/
def Mark.next : Mark → Bool → Option Bool
  | .opens, false => some true
  | .inside, true => some true
  | .closes, true => some false
  | .neutral, isOpen => some isOpen
  | _, _ => none

def follow (mark : ev → Mark) (isOpen : Bool) (events : List ev) : Option Bool :=
  events.foldlM (fun isOpen e => (mark e).next isOpen) isOpen

section Follow
variable {mark : ev → Mark}

@[simp] theorem follow_nil (isOpen : Bool) : follow mark isOpen [] = some isOpen := rfl

theorem follow_cons (isOpen : Bool) (e : ev) (events : List ev) :
    follow mark isOpen (e :: events) = ((mark e).next isOpen).bind fun isOpen => follow mark isOpen events := rfl

theorem follow_append (isOpen : Bool) (before after : List ev) :
    follow mark isOpen (before ++ after) =
      (follow mark isOpen before).bind fun isOpen => follow mark isOpen after :=
  List.foldlM_append

theorem follow_concat (isOpen : Bool) (events : List ev) (e : ev) :
    follow mark isOpen (events ++ [e]) = (follow mark isOpen events).bind (mark e).next := by
  rw [follow_append]
  congr 1
  funext isOpen
  simp [follow_cons]

/-- Without an event that has to do with the bracket, nothing changes. -/
theorem follow_neutral (isOpen : Bool) {events : List ev} (neutral : ∀ e ∈ events, mark e = .neutral) :
    follow mark isOpen events = some isOpen := by
  induction events with
  | nil => rfl
  | cons e events ih =>
    rw [follow_cons, neutral e List.mem_cons_self]
    exact ih fun e member => neutral e (List.mem_cons_of_mem _ member)

/-- Events that may stand in an open bracket may stand where none is open only if none of them has to do
with it. -/
theorem follow_both {events : List ev} {open₁ open₂ : Bool} (inner : follow mark true events = some open₁)
    (outer : follow mark false events = some open₂) : ∀ e ∈ events, mark e = .neutral := by
  induction events with
  | nil => exact fun e member => absurd member List.not_mem_nil
  | cons e events ih =>
    rw [follow_cons] at inner outer
    cases role : mark e with
    | neutral =>
      rw [role] at inner outer
      exact List.forall_mem_cons.mpr ⟨role, ih inner outer⟩
    | opens =>
      rw [role] at inner
      cases inner
    | inside =>
      rw [role] at outer
      cases outer
    | closes =>
      rw [role] at outer
      cases outer

end Follow

/-- A bracket was opened, and not closed since. -/
def Pending (mark : ev → Mark) (before : List ev) : Prop :=
  ∃ earlier e later, before = earlier ++ e :: later ∧ mark e = .opens ∧ ∀ x ∈ later, mark x ≠ .closes

/-- What stands inside a bracket, or closes one, comes while one is open; and none is opened in another. -/
structure WellBracketed (mark : ev → Mark) (events : List ev) : Prop where
  inner : ∀ before e after, events = before ++ e :: after → mark e = .inside ∨ mark e = .closes → Pending mark before
  outer : ∀ before e after, events = before ++ e :: after → mark e = .opens → ¬ Pending mark before

section WellBracketed
variable {mark : ev → Mark}

theorem not_pending_nil : ¬ Pending mark [] := by
  intro ⟨earlier, e, later, split, _⟩
  simp at split

/-- The last event, or one before it. -/
theorem concat_eq_split {events before after : List ev} {e x : ev} (split : events ++ [e] = before ++ x :: after) :
    (events = before ∧ e = x ∧ after = []) ∨ ∃ rest, events = before ++ x :: rest ∧ after = rest ++ [e] := by
  rcases List.eq_nil_or_concat after with last | ⟨rest, y, earlier⟩
  · subst last
    obtain ⟨same, final⟩ := List.append_inj' split rfl
    exact Or.inl ⟨same, List.singleton_inj.mp final, rfl⟩
  · rw [List.concat_eq_append] at earlier
    rw [earlier, ← List.cons_append, ← List.append_assoc] at split
    obtain ⟨same, final⟩ := List.append_inj' split rfl
    exact Or.inr ⟨rest, same, final ▸ earlier⟩

theorem pending_concat (events : List ev) (e : ev) :
    Pending mark (events ++ [e]) ↔ mark e = .opens ∨ (Pending mark events ∧ mark e ≠ .closes) := by
  constructor
  · intro ⟨earlier, o, later, split, opens, unclosed⟩
    rcases concat_eq_split split with ⟨_, same, _⟩ | ⟨rest, same, final⟩
    · exact Or.inl (same ▸ opens)
    · rw [final] at unclosed
      refine Or.inr ⟨⟨earlier, o, rest, same, opens, ?_⟩, ?_⟩
      · exact fun x member => unclosed x (List.mem_append_left _ member)
      · exact unclosed e (List.mem_append_right _ List.mem_cons_self)
  · intro h
    rcases h with opens | ⟨⟨earlier, o, later, same, opens, unclosed⟩, keeps⟩
    · exact ⟨events, e, [], rfl, opens, fun x member => absurd member List.not_mem_nil⟩
    · refine ⟨earlier, o, later ++ [e], by simp [same], opens, ?_⟩
      intro x member
      rcases List.mem_append.mp member with old | last
      · exact unclosed x old
      · rw [List.mem_singleton.mp last]
        exact keeps

theorem wellBracketed_nil : WellBracketed mark [] where
  inner before e after split := by simp at split
  outer before e after split := by simp at split

theorem wellBracketed_concat (events : List ev) (e : ev) :
    WellBracketed mark (events ++ [e]) ↔ WellBracketed mark events ∧
      (mark e = .inside ∨ mark e = .closes → Pending mark events) ∧ (mark e = .opens → ¬ Pending mark events) := by
  constructor
  · intro h
    refine ⟨⟨?_, ?_⟩, h.inner events e [] rfl, h.outer events e [] rfl⟩
    · exact fun before x after split => h.inner before x (after ++ [e]) (by simp [split])
    · exact fun before x after split => h.outer before x (after ++ [e]) (by simp [split])
  · intro ⟨earlier, inner, outer⟩
    constructor
    · intro before x after split role
      rcases concat_eq_split split with ⟨same, last, _⟩ | ⟨rest, same, _⟩
      · subst same last
        exact inner role
      · exact earlier.inner before x rest same role
    · intro before x after split role
      rcases concat_eq_split split with ⟨same, last, _⟩ | ⟨rest, same, _⟩
      · subst same last
        exact outer role
      · exact earlier.outer before x rest same role

/-- The automaton accepts a stream exactly when it is well bracketed, and knows whether a bracket is open. -/
theorem followed (events : List ev) :
    match follow mark false events with
    | some isOpen => WellBracketed mark events ∧ (Pending mark events ↔ isOpen = true)
    | none => ¬ WellBracketed mark events := by
  induction events using List.reverseRecOn with
  | nil => simp [wellBracketed_nil, not_pending_nil]
  | append_singleton events e ih =>
    rw [follow_concat, wellBracketed_concat, pending_concat]
    cases before : follow mark false events with
    | none =>
      rw [before] at ih
      exact fun h => ih h.1
    | some isOpen =>
      rw [before] at ih
      cases role : mark e <;> cases isOpen <;> simp_all [Mark.next]

theorem wellBracketed_iff (events : List ev) :
    WellBracketed mark events ↔ ∃ isOpen, follow mark false events = some isOpen := by
  have accepted := @followed _ mark events
  cases found : follow mark false events with
  | none =>
    rw [found] at accepted
    simp [accepted]
  | some isOpen =>
    rw [found] at accepted
    simp [accepted.1]

end WellBracketed
end Machine
