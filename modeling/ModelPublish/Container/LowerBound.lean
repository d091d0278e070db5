import ModelPublish.Container.SortedMap

/-!
# Binary search in ordered entries

`std::lower_bound` halves a range as long as something is left of it. Over the entries of an ordered
map it stops where `map[k]` stops, so that finding and inserting there is what the map does.
-/

namespace Container

/-- `std::lower_bound` over `count` positions from `first` on, of which some are below the key. -/
def lowerBound (below : Nat → Bool) (first count : Nat) : Nat :=
  if 0 < count then
    let step := count / 2
    if below (first + step) then lowerBound below (first + step + 1) (count - (step + 1))
    else lowerBound below first step
  else first
termination_by count

/-- Where the positions below the key come first, the search stops at the first other one. -/
theorem lowerBound_split {below : Nat → Bool} {first count : Nat}
    (split : ∀ i j, i ≤ j → j < first + count → below j = true → below i = true) :
    first ≤ lowerBound below first count ∧ lowerBound below first count ≤ first + count ∧
      (∀ i, first ≤ i → i < lowerBound below first count → below i = true) ∧
      ∀ i, lowerBound below first count ≤ i → i < first + count → below i = false := by
  fun_induction lowerBound below first count with
  | case1 first count some step isBelow ih =>
    have half : step ≤ count / 2 := Nat.le_refl _
    obtain ⟨lower, upper, before, behind⟩ := ih fun i j le inside => split i j le (by omega)
    refine ⟨by omega, by omega, fun i above i_lt => ?_, fun i le inside => behind i le (by omega)⟩
    by_cases later : first + step + 1 ≤ i
    · exact before i later i_lt
    · exact split i (first + step) (by omega) (by omega) isBelow
  | case2 first count some step notBelow ih =>
    have half : step ≤ count / 2 := Nat.le_refl _
    obtain ⟨lower, upper, before, behind⟩ := ih fun i j le inside => split i j le (by omega)
    refine ⟨lower, by omega, before, fun i le inside => ?_⟩
    by_cases sooner : i < first + step
    · exact behind i le sooner
    · rcases isBelow : below i with _ | _
      · rfl
      · exact absurd (split (first + step) i (by omega) inside isBelow) notBelow
  | case3 first count none =>
    exact ⟨Nat.le_refl _, Nat.le_add_right _ _, fun i above i_lt => by omega, fun i le inside => by omega⟩

variable {κ β : Type} [LinearOrder κ]

/-- The search for a key among entries. -/
def findLocation (entries : List (κ × β)) (key : κ) : Nat :=
  lowerBound (fun i => (entries[i]?).any fun e => decide (e.1 < key)) 0 entries.length

/-- In entries in order, equal keys allowed, the search passes the smaller keys. -/
theorem findLocation_eq {entries : List (κ × β)} (sorted : entries.Pairwise fun a b => ¬ b.1 < a.1) (key : κ) :
    findLocation entries key = (entries.takeWhile fun e => decide (e.1 < key)).length := by
  have split : ∀ i j, i ≤ j → j < 0 + entries.length →
      (entries[j]?).any (fun e => decide (e.1 < key)) = true →
      (entries[i]?).any (fun e => decide (e.1 < key)) = true := by
    intro i j le inside below
    rw [Nat.zero_add] at inside
    rw [List.getElem?_eq_getElem inside] at below
    rw [List.getElem?_eq_getElem (Nat.lt_of_le_of_lt le inside)]
    simp only [Option.any_some, decide_eq_true_eq] at below ⊢
    rcases Nat.eq_or_lt_of_le le with rfl | lt
    · exact below
    · exact lt_of_le_of_lt (not_lt.mp (List.pairwise_iff_getElem.mp sorted i j _ inside lt)) below
  obtain ⟨-, upper, before, behind⟩ := lowerBound_split split
  rw [Nat.zero_add] at upper behind
  generalize location : lowerBound _ 0 entries.length = n at upper before behind
  rw [findLocation, location]
  -- The first `n` keys are smaller, the next one is not.
  have front : ∀ e ∈ entries.take n, decide (e.1 < key) = true := by
    intro e member
    obtain ⟨i, inside, rfl⟩ := List.mem_take_iff_getElem.mp member
    have := before i (Nat.zero_le _) (by omega)
    rwa [List.getElem?_eq_getElem (by omega), Option.any_some] at this
  have stop : ((entries.drop n).takeWhile fun e => decide (e.1 < key)) = [] := by
    rcases rest : entries.drop n with _ | ⟨e, others⟩
    · rfl
    · have head : entries[n]? = some e := by
        rw [← List.head?_drop, rest]
        rfl
      have inside : n < entries.length := (List.getElem?_eq_some_iff.mp head).1
      have := behind n (Nat.le_refl _) inside
      rw [head, Option.any_some] at this
      exact List.takeWhile_cons_of_neg (ne_true_of_eq_false this)
  rw [← List.take_append_drop n entries, List.takeWhile_append_of_pos front, stop, List.append_nil,
    List.length_take, Nat.min_eq_left upper]

section Steps
variable {e : κ × β} {rest : List (κ × β)} (sorted : (e :: rest).Pairwise fun a b => ¬ b.1 < a.1) {key : κ}
include sorted

theorem findLocation_cons_of_lt (below : e.1 < key) :
    findLocation (e :: rest) key = findLocation rest key + 1 := by
  rw [findLocation_eq sorted, findLocation_eq (List.pairwise_cons.mp sorted).2,
    List.takeWhile_cons_of_pos (p := fun e : κ × β => decide (e.1 < key)) (decide_eq_true below), List.length_cons]

theorem findLocation_cons_of_not_lt (notBelow : ¬ e.1 < key) : findLocation (e :: rest) key = 0 := by
  rw [findLocation_eq sorted,
    List.takeWhile_cons_of_neg (p := fun e : κ × β => decide (e.1 < key)) (by simpa using notBelow)]
  rfl

end Steps

/-! ### What the map was last given -/

theorem SortedMap.find?_insert (m : SortedMap κ β) (k other : κ) (v : β) :
    (m.insert k v).find? other = if other = k then some v else m.find? other := by
  split
  · rename_i same
    rw [same, find?_insert_self]
  · rename_i different
    exact find?_insert_ne m v different

section Lookup
variable [BEq κ] [LawfulBEq κ]

theorem lookup_cons_eq_ite (e : κ × β) (rest : List (κ × β)) (k : κ) :
    (e :: rest).lookup k = if k = e.1 then some e.2 else rest.lookup k := by
  rw [List.lookup_cons]
  by_cases same : k = e.1
  · rw [if_pos same, beq_iff_eq.mpr same]
  · rw [if_neg same, beq_eq_false_iff_ne.mpr same]

namespace SortedMap

theorem lookup_entries (m : SortedMap κ β) (k : κ) : m.entries.lookup k = m.find? k := by
  rw [find?]
  generalize m.entries = entries
  induction entries with
  | nil => rfl
  | cons e rest ih =>
    rw [lookup_cons_eq_ite]
    by_cases same : e.1 = k
    · rw [List.find?_cons_of_pos (by simpa using same), if_pos same.symm]
      rfl
    · rw [List.find?_cons_of_neg (by simpa using same), if_neg (Ne.symm same), ih]

/-- The last entry of a key counts. -/
theorem find?_insertMany (m : SortedMap κ β) (l : List (κ × β)) (k : κ) :
    (m.insertMany l).find? k = (l.reverse.lookup k).or (m.find? k) := by
  induction l generalizing m with
  | nil => rfl
  | cons e rest ih =>
    rw [insertMany_cons, ih, List.reverse_cons, List.lookup_append, Option.or_assoc, find?_insert,
      lookup_cons_eq_ite]
    by_cases same : k = e.1
    · rw [if_pos same, if_pos same, Option.some_or]
    · rw [if_neg same, if_neg same, List.lookup_nil, Option.none_or]

end SortedMap

end Lookup

end Container
