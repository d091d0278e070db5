import Mathlib

/-!
# Ordered maps

A map as the list of its entries in strictly increasing key order, the order in which an
iterator visits them. The order is a field, so two maps with the same entries are equal.
-/

namespace Container

structure SortedMap (κ β : Type) [LinearOrder κ] where
  entries : List (κ × β)
  sorted : entries.Pairwise (fun a b => a.1 < b.1)

namespace SortedMap
variable {κ β : Type} [LinearOrder κ]

@[ext] theorem ext {m n : SortedMap κ β} (h : m.entries = n.entries) : m = n := by
  cases m; cases n; simp_all

instance [DecidableEq β] : DecidableEq (SortedMap κ β) := fun m n =>
  decidable_of_iff (m.entries = n.entries) ⟨ext, fun h => h ▸ rfl⟩

def empty : SortedMap κ β := ⟨[], List.Pairwise.nil⟩

instance : Inhabited (SortedMap κ β) := ⟨empty⟩

def size (m : SortedMap κ β) : Nat := m.entries.length

def find? (m : SortedMap κ β) (k : κ) : Option β :=
  (m.entries.find? (fun e => e.1 = k)).map Prod.snd

/-- The entries after `map[k] = v`. -/
def insertEntry (k : κ) (v : β) : List (κ × β) → List (κ × β)
  | [] => [(k, v)]
  | e :: rest =>
    if k < e.1 then (k, v) :: e :: rest
    else if e.1 < k then e :: insertEntry k v rest
    else (k, v) :: rest

theorem insertEntry_subset (k : κ) (v : β) (l : List (κ × β)) :
    ∀ e ∈ insertEntry k v l, e = (k, v) ∨ e ∈ l := by
  induction l with
  | nil => simp [insertEntry]
  | cons head rest ih =>
    intro e member
    unfold insertEntry at member
    split at member
    · exact List.mem_cons.mp member
    · split at member
      · rcases List.mem_cons.mp member with rfl | member
        · exact Or.inr List.mem_cons_self
        · exact (ih e member).imp_right (List.mem_cons_of_mem _)
      · exact (List.mem_cons.mp member).imp_right (List.mem_cons_of_mem _)

theorem insertEntry_sorted (k : κ) (v : β) (l : List (κ × β))
    (h : l.Pairwise (fun a b => a.1 < b.1)) :
    (insertEntry k v l).Pairwise (fun a b => a.1 < b.1) := by
  induction l with
  | nil => simp [insertEntry]
  | cons head rest ih =>
    obtain ⟨above, tail⟩ := List.pairwise_cons.mp h
    unfold insertEntry
    split
    · rename_i below
      refine List.pairwise_cons.mpr ⟨fun e member => ?_, h⟩
      rcases List.mem_cons.mp member with rfl | member
      · exact below
      · exact below.trans (above e member)
    · rename_i notBelow
      split
      · rename_i greater
        refine List.pairwise_cons.mpr ⟨fun e member => ?_, ih tail⟩
        rcases insertEntry_subset k v rest e member with rfl | member
        · exact greater
        · exact above e member
      · rename_i notGreater
        have same : head.1 = k := le_antisymm (not_lt.mp notBelow) (not_lt.mp notGreater)
        refine List.pairwise_cons.mpr ⟨fun e member => ?_, tail⟩
        exact same ▸ above e member

def insert (m : SortedMap κ β) (k : κ) (v : β) : SortedMap κ β :=
  ⟨insertEntry k v m.entries, insertEntry_sorted k v m.entries m.sorted⟩

/-! ### Lookup -/

theorem find?_insertEntry_self (k : κ) (v : β) (l : List (κ × β)) :
    (insertEntry k v l).find? (fun e => e.1 = k) = some (k, v) := by
  induction l with
  | nil => simp [insertEntry]
  | cons head rest ih =>
    unfold insertEntry
    split
    · simp
    · split
      · rename_i greater
        rw [List.find?_cons_of_neg (by simpa using ne_of_lt greater), ih]
      · simp

theorem find?_insertEntry_ne {k other : κ} (v : β) (l : List (κ × β)) (different : other ≠ k) :
    (insertEntry k v l).find? (fun e => e.1 = other) = l.find? (fun e => e.1 = other) := by
  have skip (l : List (κ × β)) : ((k, v) :: l).find? (fun e => e.1 = other) =
      l.find? (fun e => e.1 = other) := List.find?_cons_of_neg (by simpa using different.symm)
  induction l with
  | nil => exact skip []
  | cons head rest ih =>
    unfold insertEntry
    split
    · exact skip (head :: rest)
    · rename_i notBelow
      split
      · rw [List.find?_cons, List.find?_cons, ih]
      · rename_i notGreater
        have same : head.1 = k := le_antisymm (not_lt.mp notBelow) (not_lt.mp notGreater)
        rw [skip, List.find?_cons_of_neg (by simpa [same] using different.symm)]

@[simp] theorem find?_empty (k : κ) : (empty : SortedMap κ β).find? k = none := rfl

@[simp] theorem find?_insert_self (m : SortedMap κ β) (k : κ) (v : β) :
    (m.insert k v).find? k = some v := by
  simp [find?, insert, find?_insertEntry_self]

theorem find?_insert_ne (m : SortedMap κ β) {k other : κ} (v : β) (different : other ≠ k) :
    (m.insert k v).find? other = m.find? other := by
  simp only [find?, insert, find?_insertEntry_ne v m.entries different]

theorem find?_of_mem (m : SortedMap κ β) {e : κ × β} (member : e ∈ m.entries) :
    m.find? e.1 = some e.2 := by
  obtain ⟨entries, sorted⟩ := m
  simp only [find?] at member ⊢
  induction entries with
  | nil => cases member
  | cons head rest ih =>
    obtain ⟨above, tail⟩ := List.pairwise_cons.mp sorted
    rcases List.mem_cons.mp member with rfl | member
    · simp
    · rw [List.find?_cons_of_neg (by simpa using ne_of_lt (above e member))]
      exact ih tail member

theorem mem_of_find? (m : SortedMap κ β) {k : κ} {v : β} (found : m.find? k = some v) :
    (k, v) ∈ m.entries := by
  simp only [find?, Option.map_eq_some_iff] at found
  obtain ⟨e, present, rfl⟩ := found
  have key : e.1 = k := by simpa using List.find?_some present
  subst key
  exact List.mem_of_find?_eq_some present

theorem find?_isSome_iff (m : SortedMap κ β) (k : κ) :
    (m.find? k).isSome ↔ k ∈ m.entries.map Prod.fst := by
  constructor
  · intro found
    obtain ⟨v, found⟩ := Option.isSome_iff_exists.mp found
    exact List.mem_map.mpr ⟨(k, v), m.mem_of_find? found, rfl⟩
  · intro member
    obtain ⟨e, present, rfl⟩ := List.mem_map.mp member
    rw [m.find?_of_mem present]
    rfl

/-! ### Building a map entry by entry -/

/-- `map[e.1] = e.2` for each entry in order. -/
def insertMany (m : SortedMap κ β) (l : List (κ × β)) : SortedMap κ β :=
  l.foldl (fun m e => m.insert e.1 e.2) m

@[simp] theorem insertMany_nil (m : SortedMap κ β) : m.insertMany [] = m := rfl

@[simp] theorem insertMany_cons (m : SortedMap κ β) (e : κ × β) (l : List (κ × β)) :
    m.insertMany (e :: l) = (m.insert e.1 e.2).insertMany l := rfl

theorem insertMany_append (m : SortedMap κ β) (l₁ l₂ : List (κ × β)) :
    m.insertMany (l₁ ++ l₂) = (m.insertMany l₁).insertMany l₂ := List.foldl_append

theorem insertEntry_append (k : κ) (v : β) (l : List (κ × β)) (above : ∀ e ∈ l, e.1 < k) :
    insertEntry k v l = l ++ [(k, v)] := by
  induction l with
  | nil => rfl
  | cons head rest ih =>
    have below := above head List.mem_cons_self
    rw [insertEntry, if_neg (not_lt.mpr below.le), if_pos below,
      ih fun e member => above e (List.mem_cons_of_mem _ member), List.cons_append]

theorem entries_insertMany (m : SortedMap κ β) (l : List (κ × β))
    (sorted : (m.entries ++ l).Pairwise (fun a b => a.1 < b.1)) :
    (m.insertMany l).entries = m.entries ++ l := by
  induction l generalizing m with
  | nil => simp
  | cons e l ih =>
    have appended : (m.insert e.1 e.2).entries = m.entries ++ [e] :=
      insertEntry_append e.1 e.2 m.entries fun x member =>
        (List.pairwise_append.mp sorted).2.2 x member e List.mem_cons_self
    rw [insertMany_cons, ih _ (by rw [appended]; simpa using sorted), appended]
    simp

theorem empty_insertMany_entries (m : SortedMap κ β) : empty.insertMany m.entries = m :=
  ext (entries_insertMany empty m.entries m.sorted)

theorem empty_insertMany_values {m : SortedMap κ β} {key : β → κ}
    (h : ∀ e ∈ m.entries, e.1 = key e.2) :
    empty.insertMany ((m.entries.map Prod.snd).map fun v => (key v, v)) = m := by
  have entries : ((m.entries.map Prod.snd).map fun v => (key v, v)) = m.entries := by
    rw [List.map_map]
    conv => rhs; rw [← List.map_id m.entries]
    exact List.map_congr_left fun e member => Prod.ext (h e member).symm rfl
  rw [entries, empty_insertMany_entries]

theorem find?_insertMany_of_not_mem (m : SortedMap κ β) (l : List (κ × β)) {k : κ}
    (absent : k ∉ l.map Prod.fst) : (m.insertMany l).find? k = m.find? k := by
  induction l generalizing m with
  | nil => rfl
  | cons e l ih =>
    simp only [List.map_cons, List.mem_cons, not_or] at absent
    rw [insertMany_cons, ih _ absent.2, find?_insert_ne m e.2 absent.1]

theorem find?_insertMany_of_mem (m : SortedMap κ β) {l : List (κ × β)} {e : κ × β} (member : e ∈ l)
    (only : ∀ x ∈ l, x.1 = e.1 → x = e) : (m.insertMany l).find? e.1 = some e.2 := by
  induction l generalizing m with
  | nil => cases member
  | cons head l ih =>
    obtain ⟨first, rest⟩ := List.forall_mem_cons.mp only
    rw [insertMany_cons]
    by_cases later : e ∈ l
    · exact ih _ later rest
    · obtain rfl := (List.mem_cons.mp member).resolve_right later
      have absent : e.1 ∉ l.map Prod.fst := by
        intro inside
        obtain ⟨x, present, same⟩ := List.mem_map.mp inside
        exact later (rest x present same ▸ present)
      rw [find?_insertMany_of_not_mem _ _ absent, find?_insert_self]

theorem mem_insertMany {m : SortedMap κ β} {l : List (κ × β)} {e : κ × β} (member : e ∈ (m.insertMany l).entries) :
    e ∈ m.entries ∨ e ∈ l := by
  induction l generalizing m with
  | nil => exact .inl member
  | cons head l ih =>
    rcases ih member with inside | later
    · apply (insertEntry_subset head.1 head.2 m.entries e inside).symm.imp_right
      intro same
      exact same ▸ List.mem_cons_self
    · exact .inr (List.mem_cons_of_mem _ later)

theorem find?_insertMany_isSome (m : SortedMap κ β) (l : List (κ × β)) (k : κ) :
    ((m.insertMany l).find? k).isSome ↔ (m.find? k).isSome ∨ k ∈ l.map Prod.fst := by
  induction l generalizing m with
  | nil => exact (or_iff_left List.not_mem_nil).symm
  | cons head l ih =>
    rw [insertMany_cons, ih, List.map_cons, List.mem_cons]
    by_cases same : k = head.1
    · rw [same, find?_insert_self]
      simp
    · rw [find?_insert_ne m head.2 same]
      simp [same]

end SortedMap
end Container
