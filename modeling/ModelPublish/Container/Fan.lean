import Mathlib

/-!
# Polygons and records

A polygon as a fan of triangles, and lists that are laid out as records of one length.
-/

namespace Container

variable {α β : Type}

/-- Three by three. What is left over at the end is dropped. -/
def triples : List α → List (α × α × α)
  | a :: b :: c :: rest => (a, b, c) :: triples rest
  | _ => []

def corners (t : α × α × α) : List α := [t.1, t.2.1, t.2.2]

theorem triples_corners (ts : List (α × α × α)) : triples (ts.flatMap corners) = ts := by
  induction ts with
  | nil => rfl
  | cons t ts ih => exact congrArg (t :: ·) ih

theorem map_range_corners (g : Nat → α) (n : Nat) :
    (List.range (3 * n)).map g =
      ((List.range n).map fun k => (g (3 * k), g (3 * k + 1), g (3 * k + 2))).flatMap corners := by
  induction n with
  | zero => rfl
  | succ n ih =>
    have three : 3 * (n + 1) = 3 * n + 1 + 1 + 1 := by omega
    rw [three, List.range_succ, List.range_succ, List.range_succ, List.map_append, List.map_append, List.map_append, ih,
      @List.range_succ n, List.map_append, List.flatMap_append, List.append_assoc, List.append_assoc]
    rfl

/-- The triangles that share the first corner of a polygon. -/
def fanOf : List α → List (α × α × α)
  | [] => []
  | x :: xs => (xs.zip xs.tail).map fun (y, z) => (x, y, z)

theorem length_fanOf (xs : List α) : (fanOf xs).length = xs.length - 2 := by
  cases xs with
  | nil => rfl
  | cons x xs =>
    rw [fanOf, List.length_map, List.length_zip, List.length_tail, List.length_cons]
    omega

/-- The corners of the fan of a polygon with `n` corners, by their places. -/
def fanPlaces (n : Nat) : List Nat := (List.range (n - 2)).flatMap fun k => [0, k + 1, k + 2]

theorem lt_of_mem_fanPlaces {n i : Nat} (member : i ∈ fanPlaces n) : i < n := by
  obtain ⟨k, inside, among⟩ := List.mem_flatMap.mp member
  rw [List.mem_range] at inside
  simp only [List.mem_cons, List.not_mem_nil, or_false] at among
  omega

theorem fanOf_places (xs : List α) (d : α) :
    (fanPlaces xs.length).map (fun i => xs.getD i d) = (fanOf xs).flatMap corners := by
  cases xs with
  | nil => rfl
  | cons x xs =>
    have pairs : xs.zip xs.tail = (List.range (xs.length - 1)).map fun k => (xs.getD k d, xs.getD (k + 1) d) := by
      apply List.ext_getElem
      · rw [List.length_zip, List.length_tail, List.length_map, List.length_range]
        omega
      · intro k left right
        rw [List.length_zip, List.length_tail] at left
        have first : k < xs.length := by omega
        have second : k + 1 < xs.length := by omega
        rw [List.getElem_zip, List.getElem_tail, List.getElem_map, List.getElem_range,
          List.getD_eq_getElem xs d first, List.getD_eq_getElem xs d second]
    have count : (x :: xs).length - 2 = xs.length - 1 := by
      rw [List.length_cons]
      omega
    rw [fanPlaces, fanOf, pairs, count, List.map_flatMap, List.map_map, List.flatMap_map]
    rfl

theorem mem_of_mem_fan {xs : List α} {x : α} (member : x ∈ (fanOf xs).flatMap corners) : x ∈ xs := by
  rw [← fanOf_places xs x] at member
  obtain ⟨i, among, found⟩ := List.mem_map.mp member
  have inside := lt_of_mem_fanPlaces among
  rw [List.getD_eq_getElem xs x inside] at found
  rw [← found]
  exact List.getElem_mem inside

theorem mapM_some {f : α → Option β} {g : α → β} {xs : List α} (h : ∀ x ∈ xs, f x = some (g x)) :
    xs.mapM f = some (xs.map g) := by
  induction xs with
  | nil => rfl
  | cons x xs ih =>
    rw [List.mapM_cons, h x List.mem_cons_self, ih fun y member => h y (List.mem_cons_of_mem _ member)]
    rfl

/-- A walk in which what every step comes to is known up to `g`. -/
theorem mapM_image {γ : Type} {f : α → Option β} {g : β → γ} {h : α → γ} {xs : List α}
    (each : ∀ x ∈ xs, ∃ y, f x = some y ∧ g y = h x) : ∃ ys, xs.mapM f = some ys ∧ ys.map g = xs.map h := by
  induction xs with
  | nil => exact ⟨[], rfl, rfl⟩
  | cons x xs ih =>
    obtain ⟨y, step, image⟩ := each x List.mem_cons_self
    obtain ⟨ys, rest, images⟩ := ih fun x' member => each x' (List.mem_cons_of_mem _ member)
    refine ⟨y :: ys, ?_, congrArg₂ List.cons image images⟩
    rw [List.mapM_cons, step, rest]
    rfl

theorem mapM_image_all {γ : Type} {f : α → Option β} {g : β → γ} {h : α → γ} {Q : β → Prop} {xs : List α}
    (each : ∀ x ∈ xs, ∃ y, f x = some y ∧ Q y ∧ g y = h x) :
    ∃ ys, xs.mapM f = some ys ∧ (∀ y ∈ ys, Q y) ∧ ys.map g = xs.map h := by
  have known : ∀ x ∈ xs, ∃ y, f x = some y ∧ (Q y, g y) = (True, h x) := by
    intro x member
    obtain ⟨y, step, holds, image⟩ := each x member
    exact ⟨y, step, by rw [eq_true holds, image]⟩
  obtain ⟨ys, walked, images⟩ := mapM_image (g := fun y => (Q y, g y)) (h := fun x => (True, h x)) known
  refine ⟨ys, walked, fun y member => ?_, ?_⟩
  · have image := List.mem_map_of_mem (f := fun y => (Q y, g y)) member
    rw [images] at image
    obtain ⟨x, -, same⟩ := List.mem_map.mp image
    exact of_eq_true (congrArg Prod.fst same).symm
  · have second := congrArg (List.map Prod.snd) images
    rw [List.map_map, List.map_map] at second
    exact second

theorem length_mapM_flatten {f : α → Option (List β)} {size : α → Nat} (each : ∀ x y, f x = some y → y.length = size x)
    {xs : List α} {ys : List (List β)} (walked : xs.mapM f = some ys) : ys.flatten.length = (xs.map size).sum := by
  induction xs generalizing ys with
  | nil =>
    cases walked
    rfl
  | cons x xs ih =>
    rw [List.mapM_cons] at walked
    obtain ⟨y, step, rest⟩ := Option.bind_eq_some_iff.mp walked
    obtain ⟨ys', walked', found⟩ := Option.bind_eq_some_iff.mp rest
    cases found
    rw [List.flatten_cons, List.length_append, each x y step, ih walked', List.map_cons, List.sum_cons]

theorem exists_mapM_flatten {f : α → Option (List β)} {P : β → Prop} {Q : α → Prop} {xs : List α} {ys : List β}
    (each : ∀ x ∈ xs, ∀ zs, f x = some zs → ((∃ z ∈ zs, P z) ↔ Q x))
    (walked : (xs.mapM f).map List.flatten = some ys) : (∃ y ∈ ys, P y) ↔ ∃ x ∈ xs, Q x := by
  induction xs generalizing ys with
  | nil =>
    cases walked
    exact iff_of_false nofun nofun
  | cons x xs ih =>
    obtain ⟨zss, lists, rfl⟩ := Option.map_eq_some_iff.mp walked
    rw [List.mapM_cons] at lists
    obtain ⟨zs, step, rest⟩ := Option.bind_eq_some_iff.mp lists
    obtain ⟨later, walked', found⟩ := Option.bind_eq_some_iff.mp rest
    cases found
    have head := each x List.mem_cons_self zs step
    have tail := ih (fun x' member => each x' (List.mem_cons_of_mem _ member))
      (Option.map_eq_some_iff.mpr ⟨later, walked', rfl⟩)
    simp only [List.flatten_cons, List.mem_append, List.mem_cons, or_and_right, exists_or, exists_eq_left]
    rw [head, tail]

theorem exists_place {P : α → Prop} {xs : List α} (h : ∃ x ∈ xs, P x) : ∃ e ∈ xs.zipIdx, P e.1 := by
  obtain ⟨x, member, holds⟩ := h
  rw [← List.zipIdx_map_fst 0 xs] at member
  obtain ⟨e, among, rfl⟩ := List.mem_map.mp member
  exact ⟨e, among, holds⟩

theorem mapM_isSome {f : α → Option β} {xs : List α} : (xs.mapM f).isSome ↔ ∀ x ∈ xs, (f x).isSome := by
  induction xs with
  | nil => exact iff_of_true rfl nofun
  | cons x xs ih =>
    rw [List.mapM_cons, List.forall_mem_cons, ← ih]
    cases f x with
    | none => exact iff_of_false nofun fun h => absurd h.1 nofun
    | some y => cases xs.mapM f <;> simp

section Records
variable {f : α → List β} {size : Nat} {xs : List α}

theorem length_records (h : ∀ x ∈ xs, (f x).length = size) : (xs.flatMap f).length = xs.length * size := by
  induction xs with
  | nil => exact (Nat.zero_mul size).symm
  | cons x xs ih =>
    rw [List.flatMap_cons, List.length_append, h x List.mem_cons_self,
      ih fun y member => h y (List.mem_cons_of_mem _ member), List.length_cons, Nat.succ_mul]
    exact Nat.add_comm _ _

theorem drop_records (h : ∀ x ∈ xs, (f x).length = size) (i : Nat) :
    (xs.flatMap f).drop (i * size) = (xs.drop i).flatMap f := by
  induction i generalizing xs with
  | zero => rw [Nat.zero_mul, List.drop_zero, List.drop_zero]
  | succ i ih =>
    cases xs with
    | nil => rw [List.flatMap_nil, List.drop_nil, List.drop_nil, List.flatMap_nil]
    | cons x xs =>
      have rest := ih fun y member => h y (List.mem_cons_of_mem x member)
      rw [List.flatMap_cons, Nat.succ_mul, Nat.add_comm, ← List.drop_drop,
        List.drop_left' (h x List.mem_cons_self), rest, List.drop_succ_cons]

end Records

end Container
