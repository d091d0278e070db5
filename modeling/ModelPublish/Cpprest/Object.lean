import ModelPublish.Container.LowerBound
import ModelPublish.Cpprest.Parser

/-!
# The fields of a JSON object

`json::object` keeps its fields in the order of their names and looks for them by halves.
Whatever was assigned to it and in whichever order, a field is found with the value it was last
given.
-/

namespace Cpprest
open Container

variable {D : Type}

/-- `find_by_key`, with `find_insert_location`. -/
def findByKey (elems : List (WString × Value D)) (key : WString) : Option (Value D) :=
  match elems[findLocation elems key]? with
  | some (first, second) => if key ≠ first then none else some second
  | none => none

/-- `operator []`, and an assignment to what it refers to. -/
def assign (elems : List (WString × Value D)) (key : WString) (value : Value D) : List (WString × Value D) :=
  let iter := findLocation elems key
  match elems[iter]? with
  | some (first, _) => if key ≠ first then elems.insertIdx iter (key, value) else elems.set iter (key, value)
  | none => elems.insertIdx iter (key, value)

/-- The fields after these assignments, from a new object on. -/
def built (fields : List (WString × Value D)) : List (WString × Value D) :=
  fields.foldl (fun elems field => assign elems field.1 field.2) []

/-- A search by halves finds what a search from the front finds, also where a name comes twice. -/
theorem findByKey_eq_lookup {elems : List (WString × Value D)}
    (sorted : elems.Pairwise fun p1 p2 => ¬ p2.1 < p1.1) (key : WString) :
    findByKey elems key = elems.lookup key := by
  induction elems with
  | nil => rfl
  | cons field rest ih =>
    obtain ⟨above, behind⟩ := List.pairwise_cons.mp sorted
    rw [findByKey]
    by_cases below : field.1 < key
    · rw [findLocation_cons_of_lt sorted below, List.getElem?_cons_succ, lookup_cons_eq_ite,
        if_neg below.ne']
      exact ih behind
    · rw [findLocation_cons_of_not_lt sorted below, List.getElem?_cons_zero, lookup_cons_eq_ite]
      by_cases same : key = field.1
      · rw [if_pos same]
        exact if_neg (not_not.mpr same)
      · rw [if_neg same]
        -- All the other names are greater.
        refine (if_pos same).trans (List.lookup_eq_none_iff.mpr fun p member => ?_).symm
        have greater : key < p.1 :=
          lt_of_lt_of_le (lt_of_le_of_ne (not_lt.mp below) same) (not_lt.mp (above p member))
        exact bne_iff_ne.mpr greater.ne

theorem Ordered.findByKey_eq {elems : List (WString × Value D)} (ordered : Ordered elems) (key : WString) :
    findByKey elems key = elems.lookup key :=
  findByKey_eq_lookup (ordered.imp fun below => below.not_gt) key

theorem assign_eq_insertEntry {elems : List (WString × Value D)} (ordered : Ordered elems) (key : WString)
    (value : Value D) : assign elems key value = SortedMap.insertEntry key value elems := by
  induction elems with
  | nil =>
    rw [assign, findLocation, lowerBound]
    rfl
  | cons field rest ih =>
    have sorted : (field :: rest).Pairwise fun p1 p2 => ¬ p2.1 < p1.1 := ordered.imp fun below => below.not_gt
    rw [assign, SortedMap.insertEntry]
    by_cases below : field.1 < key
    · rw [findLocation_cons_of_lt sorted below, if_neg below.not_gt, if_pos below,
        ← ih (List.pairwise_cons.mp ordered).2, assign]
      simp only [List.getElem?_cons_succ, List.insertIdx_succ_cons, List.set_cons_succ]
      split
      · split <;> rfl
      · rfl
    · rw [findLocation_cons_of_not_lt sorted below, if_neg below]
      simp only [List.getElem?_cons_zero, List.insertIdx_zero, List.set_cons_zero]
      by_cases same : key = field.1
      · rw [if_neg (not_not.mpr same), if_neg (same ▸ lt_irrefl key)]
      · rw [if_pos same, if_pos (lt_of_le_of_ne (not_lt.mp below) same)]

theorem foldl_assign (m : SortedMap WString (Value D)) (fields : List (WString × Value D)) :
    fields.foldl (fun elems field => assign elems field.1 field.2) m.entries =
      (m.insertMany fields).entries := by
  induction fields generalizing m with
  | nil => rfl
  | cons field rest ih =>
    rw [List.foldl_cons, assign_eq_insertEntry m.sorted, SortedMap.insertMany_cons]
    exact ih (m.insert field.1 field.2)

/-- An object is an ordered map. -/
theorem built_eq (fields : List (WString × Value D)) :
    built fields = ((SortedMap.empty : SortedMap WString (Value D)).insertMany fields).entries :=
  foldl_assign SortedMap.empty fields

theorem built_ordered (fields : List (WString × Value D)) : Ordered (built fields) := by
  rw [built_eq]
  exact SortedMap.sorted _

theorem mem_built {fields : List (WString × Value D)} {field : WString × Value D}
    (member : field ∈ built fields) : field ∈ fields := by
  rw [built_eq] at member
  exact (SortedMap.mem_insertMany member).resolve_left List.not_mem_nil

theorem lookup_built (fields : List (WString × Value D)) (key : WString) :
    (built fields).lookup key = fields.reverse.lookup key := by
  rw [built_eq, SortedMap.lookup_entries, SortedMap.find?_insertMany, SortedMap.find?_empty, Option.or_none]

/-- After any assignments the names are in order, and every name is found with the value it was last
given. -/
theorem findByKey_built (fields : List (WString × Value D)) (key : WString) :
    Ordered (built fields) ∧ findByKey (built fields) key = fields.reverse.lookup key :=
  ⟨built_ordered fields, ((built_ordered fields).findByKey_eq key).trans (lookup_built fields key)⟩

end Cpprest
