import ModelPublish.Container.Least

/-!
# Picking

Owners are tried one after the other with a test on what they have, and the first owner of a nearest hit is picked.
When is that right, whatever the test, if something else is seen of the owners than what is tried?
-/

namespace Container
variable {ι τ δ β : Type} [LinearOrder β]

/-- The first of the least elements. -/
def FirstLeast {α : Type} (r : α → β) (m : α) (cs : List α) : Prop :=
  ∃ before after, cs = before ++ m :: after ∧ (∀ b ∈ before, r m < r b) ∧ ∀ a ∈ after, r m ≤ r a

theorem FirstLeast.le {α : Type} {r : α → β} {m c : α} {cs : List α} (h : FirstLeast r m cs) (member : c ∈ cs) :
    r m ≤ r c := by
  obtain ⟨before, after, rfl, greater, rest⟩ := h
  rcases List.mem_append.mp member with first | last
  · exact (greater c first).le
  · rcases List.mem_cons.mp last with rfl | last
    · exact le_rfl
    · exact rest c last

theorem FirstLeast.mem {α : Type} {r : α → β} {m : α} {cs : List α} (h : FirstLeast r m cs) : m ∈ cs := by
  obtain ⟨before, after, rfl, -⟩ := h
  exact List.mem_append_right _ List.mem_cons_self

theorem eq_of_cons_eq_append {α : Type} {m m' : α} {after more after' : List α}
    (same : m :: after = more ++ m' :: after') (absent : m ∉ more) : m = m' := by
  cases more with
  | nil => exact (List.cons.inj same).1
  | cons x more =>
    obtain ⟨rfl, -⟩ := List.cons.inj same
    exact absurd List.mem_cons_self absent

theorem FirstLeast.unique {α : Type} {r : α → β} {m m' : α} {cs : List α} (h : FirstLeast r m cs)
    (h' : FirstLeast r m' cs) : m = m' := by
  have below := h.le h'.mem
  have below' := h'.le h.mem
  obtain ⟨before, after, split, greater, -⟩ := h
  obtain ⟨before', after', split', greater', -⟩ := h'
  rcases List.append_eq_append_iff.mp (split.symm.trans split') with ⟨more, rfl, same⟩ | ⟨more, rfl, same⟩
  · apply eq_of_cons_eq_append same
    intro among
    exact absurd (greater' m (List.mem_append_right _ among)) below.not_gt
  · refine (eq_of_cons_eq_append same ?_).symm
    intro among
    exact absurd (greater m' (List.mem_append_right _ among)) below'.not_gt

theorem FirstLeast.of_map {α γ : Type} {r : γ → β} {f : α → γ} {m : γ} {cs : List α} (h : FirstLeast r m (cs.map f)) :
    ∃ c, m = f c ∧ FirstLeast (r ∘ f) c cs := by
  obtain ⟨before, after, split, greater, rest⟩ := h
  obtain ⟨first, last, rfl, rfl, tail⟩ := List.map_eq_append_iff.mp split
  obtain ⟨c, later, rfl, rfl, rfl⟩ := List.map_eq_cons_iff.mp tail
  refine ⟨c, rfl, first, later, rfl, ?_, ?_⟩
  · intro b member
    exact greater (f b) (List.mem_map_of_mem member)
  · intro a member
    exact rest (f a) (List.mem_map_of_mem member)

theorem runLeast_stays {α : Type} {r : α → β} {m : α} {cs : List α} (none : ∀ c ∈ cs, r m ≤ r c) :
    runLeast r m cs = m := by
  induction cs with
  | nil => rfl
  | cons c cs ih =>
    obtain ⟨here, later⟩ := List.forall_mem_cons.mp none
    rw [runLeast_cons, if_neg (not_lt.mpr here)]
    exact ih later

/-- The loop finds the first least element when there is one below the value that it begins with. -/
theorem runLeast_first {α : Type} {r : α → β} (m : α) {cs : List α} (below : ∃ c ∈ cs, r c < r m) :
    FirstLeast r (runLeast r m cs) cs := by
  induction cs generalizing m with
  | nil =>
    obtain ⟨c, member, -⟩ := below
    exact absurd member List.not_mem_nil
  | cons c cs ih =>
    rw [runLeast_cons]
    obtain ⟨start, bound⟩ := runLeast_le (r := r) (if r c < r m then c else m) cs
    by_cases later : ∃ d ∈ cs, r d < r (if r c < r m then c else m)
    · obtain ⟨before, after, split, greater, rest⟩ := ih _ later
      refine ⟨c :: before, after, congrArg (c :: ·) split, ?_, rest⟩
      rw [List.forall_mem_cons]
      refine ⟨?_, greater⟩
      obtain ⟨d, member, less⟩ := later
      have least := (bound d member).trans_lt less
      by_cases here : r c < r m
      · rw [if_pos here] at least ⊢
        exact least
      · rw [if_neg here] at least ⊢
        exact least.trans_le (not_lt.mp here)
    · have none : ∀ d ∈ cs, r (if r c < r m then c else m) ≤ r d := by
        intro d member
        by_contra less
        exact later ⟨d, member, not_le.mp less⟩
      have here : r c < r m := by
        by_contra notHere
        rw [if_neg notHere] at none
        obtain ⟨d, member, less⟩ := below
        rcases List.mem_cons.mp member with rfl | member
        · exact notHere less
        · exact absurd less (not_lt.mpr (none d member))
      rw [if_pos here] at none start ⊢
      rw [runLeast_stays none]
      exact ⟨[], cs, rfl, fun b member => absurd member List.not_mem_nil, none⟩

/-- The hits, in order, each with its owner. -/
def hits (raw : ι → List τ) (test : τ → Option δ) (owners : List ι) : List (ι × δ) :=
  owners.flatMap fun o => (raw o).filterMap fun t => (test t).map fun d => (o, d)

section Hits
variable {raw : ι → List τ} {test : τ → Option δ} {owners : List ι}

theorem mem_hits {o : ι} {d : δ} :
    (o, d) ∈ hits raw test owners ↔ o ∈ owners ∧ ∃ t ∈ raw o, test t = some d := by
  unfold hits
  rw [List.mem_flatMap]
  constructor
  · rintro ⟨o', among, found⟩
    obtain ⟨t, member, hit⟩ := List.mem_filterMap.mp found
    obtain ⟨d', tested, same⟩ := Option.map_eq_some_iff.mp hit
    obtain ⟨rfl, rfl⟩ := Prod.mk.inj same
    exact ⟨among, t, member, tested⟩
  · rintro ⟨among, t, member, tested⟩
    refine ⟨o, among, List.mem_filterMap.mpr ⟨t, member, ?_⟩⟩
    rw [tested]
    rfl

theorem firstLeast_hits {r : δ → β} {o : ι} {d : δ}
    (h : FirstLeast (fun hit => r hit.2) (o, d) (hits raw test owners)) :
    ∃ before after, owners = before ++ o :: after ∧
      ∃ t ∈ raw o, test t = some d ∧ ∀ b ∈ before, t ∉ raw b := by
  induction owners with
  | nil => exact absurd h.mem List.not_mem_nil
  | cons o' owners ih =>
    by_cases here : ∃ t ∈ raw o', test t = some d ∧ o' = o
    · obtain ⟨t, member, tested, rfl⟩ := here
      exact ⟨[], owners, rfl, t, member, tested, fun b none => absurd none List.not_mem_nil⟩
    · obtain ⟨before, after, split, greater, rest⟩ := h
      let own := (raw o').filterMap fun t => (test t).map fun d => (o', d)
      have away : (o, d) ∉ own := by
        intro found
        obtain ⟨t, member, hit⟩ := List.mem_filterMap.mp found
        obtain ⟨d', tested, same⟩ := Option.map_eq_some_iff.mp hit
        obtain ⟨rfl, rfl⟩ := Prod.mk.inj same
        exact here ⟨t, member, tested, rfl⟩
      have parts : own ++ hits raw test owners = before ++ (o, d) :: after := split
      -- all hits of this owner are before the one that is picked
      obtain ⟨more, rfl, later⟩ : ∃ more, before = own ++ more ∧ hits raw test owners = more ++ (o, d) :: after := by
        rcases List.append_eq_append_iff.mp parts with found | ⟨more, first, later⟩
        · exact found
        · cases more with
          | nil => exact ⟨[], by rw [first, List.append_nil, List.append_nil], later.symm⟩
          | cons hit more =>
            obtain ⟨rfl, -⟩ := List.cons.inj later
            exact absurd (first ▸ List.mem_append_right _ List.mem_cons_self) away
      have least : FirstLeast (fun hit => r hit.2) (o, d) (hits raw test owners) :=
        ⟨more, after, later, fun b member => greater b (List.mem_append_right _ member), rest⟩
      obtain ⟨before', after', rfl, t, member, tested, none⟩ := ih least
      refine ⟨o' :: before', after', rfl, t, member, tested, ?_⟩
      rw [List.forall_mem_cons]
      refine ⟨fun inside => ?_, none⟩
      have hit : (o', d) ∈ own := by
        apply List.mem_filterMap.mpr
        refine ⟨t, inside, ?_⟩
        rw [tested]
        rfl
      exact absurd (greater (o', d) (List.mem_append_left _ hit)) (lt_irrefl _)

end Hits

/-! ### When the pick is right -/

section Picks
variable (r : δ → β) (raw drawn : ι → List τ) (owners : List ι)

/-- Something is hit of what is tried exactly if something is hit of what is seen, and the owner that is picked has a
nearest hit of what is seen. -/
structure Picks (test : τ → Option δ) : Prop where
  hit : hits raw test owners ≠ [] ↔ ∃ o ∈ owners, ∃ t ∈ drawn o, ∃ d, test t = some d
  nearest : ∀ o d, FirstLeast (fun hit => r hit.2) (o, d) (hits raw test owners) →
    ∃ t ∈ drawn o, ∃ d, test t = some d ∧ ∀ o' ∈ owners, ∀ t' ∈ drawn o', ∀ d', test t' = some d' → r d ≤ r d'

/-- All that is seen is tried, and the first owner with which something is tried is seen to have it. -/
structure Pickable : Prop where
  tried : ∀ o ∈ owners, ∀ t ∈ drawn o, ∃ o' ∈ owners, t ∈ raw o'
  first : ∀ before o after, owners = before ++ o :: after → ∀ t ∈ raw o, (∀ b ∈ before, t ∉ raw b) → t ∈ drawn o

variable {r raw drawn owners}

theorem exists_first {t : τ} (some_owner : ∃ o ∈ owners, t ∈ raw o) :
    ∃ before o after, owners = before ++ o :: after ∧ t ∈ raw o ∧ ∀ b ∈ before, t ∉ raw b := by
  induction owners with
  | nil =>
    obtain ⟨o, among, -⟩ := some_owner
    exact absurd among List.not_mem_nil
  | cons o' owners ih =>
    by_cases here : t ∈ raw o'
    · exact ⟨[], o', owners, rfl, here, fun b none => absurd none List.not_mem_nil⟩
    · obtain ⟨o, among, member⟩ := some_owner
      have later : o ∈ owners := by
        rcases List.mem_cons.mp among with rfl | later
        · exact absurd member here
        · exact later
      obtain ⟨before, o, after, rfl, has, none⟩ := ih ⟨o, later, member⟩
      exact ⟨o' :: before, o, after, rfl, has, List.forall_mem_cons.mpr ⟨here, none⟩⟩

theorem Pickable.picks (h : Pickable raw drawn owners) (test : τ → Option δ) : Picks r raw drawn owners test := by
  have seen : ∀ o ∈ owners, ∀ t ∈ raw o, ∃ o' ∈ owners, t ∈ drawn o' := by
    intro o among t member
    obtain ⟨before, o', after, split, has, none⟩ := exists_first ⟨o, among, member⟩
    refine ⟨o', ?_, h.first before o' after split t has none⟩
    rw [split]
    exact List.mem_append_right _ List.mem_cons_self
  constructor
  · constructor
    · intro some_hit
      obtain ⟨⟨o, d⟩, found⟩ := List.exists_mem_of_ne_nil _ some_hit
      obtain ⟨among, t, member, tested⟩ := mem_hits.mp found
      obtain ⟨o', among', visible⟩ := seen o among t member
      exact ⟨o', among', t, visible, d, tested⟩
    · rintro ⟨o, among, t, visible, d, tested⟩
      obtain ⟨o', among', member⟩ := h.tried o among t visible
      exact List.ne_nil_of_mem (mem_hits.mpr ⟨among', t, member, tested⟩)
  · intro o d least
    obtain ⟨before, after, split, t, member, tested, none⟩ := firstLeast_hits least
    refine ⟨t, h.first before o after split t member none, d, tested, ?_⟩
    intro o' among t' visible d' tested'
    obtain ⟨o'', among'', member'⟩ := h.tried o' among t' visible
    exact least.le (mem_hits.mpr ⟨among'', t', member', tested'⟩)

def hitsOnly [DecidableEq τ] (t : τ) (d : δ) (t' : τ) : Option δ := if t' = t then some d else none

theorem hitsOnly_eq_some [DecidableEq τ] {t t' : τ} {d d' : δ} : hitsOnly t d t' = some d' ↔ t' = t ∧ d' = d := by
  unfold hitsOnly
  split
  · rename_i same
    rw [Option.some_inj, eq_comm]
    exact (and_iff_right same).symm
  · rename_i other
    exact iff_of_false nofun fun both => other both.1

theorem firstLeast_hitsOnly [DecidableEq τ] {before : List ι} (after : List ι) {o : ι} {t : τ} (d : δ)
    (member : t ∈ raw o) (absent : ∀ b ∈ before, t ∉ raw b) :
    FirstLeast (fun hit => r hit.2) (o, d) (hits raw (hitsOnly t d) (before ++ o :: after)) := by
  have flat : ∀ {owners : List ι}, ∀ hit ∈ hits raw (hitsOnly t d) owners, hit.2 = d := by
    rintro owners ⟨b, d'⟩ found
    obtain ⟨-, t', -, tested⟩ := mem_hits.mp found
    exact (hitsOnly_eq_some.mp tested).2
  have nothing : hits raw (hitsOnly t d) before = [] := by
    apply List.eq_nil_iff_forall_not_mem.mpr
    rintro ⟨b, d'⟩ found
    obtain ⟨among, t', has, tested⟩ := mem_hits.mp found
    obtain ⟨rfl, -⟩ := hitsOnly_eq_some.mp tested
    exact absent b among has
  have own : (o, d) ∈ hits raw (hitsOnly t d) [o] :=
    mem_hits.mpr ⟨List.mem_singleton_self o, t, member, hitsOnly_eq_some.mpr ⟨rfl, rfl⟩⟩
  have whole : hits raw (hitsOnly t d) (before ++ o :: after) =
      hits raw (hitsOnly t d) [o] ++ hits raw (hitsOnly t d) after := by
    have cut : before ++ o :: after = before ++ ([o] ++ after) := rfl
    rw [cut, hits, List.flatMap_append, List.flatMap_append]
    change hits raw _ before ++ _ = _
    rw [nothing]
    rfl
  obtain ⟨hit, rest, front⟩ := List.exists_cons_of_ne_nil (List.ne_nil_of_mem own)
  have inside : hit ∈ hits raw (hitsOnly t d) [o] := front ▸ List.mem_cons_self
  have first : hit = (o, d) := Prod.ext (List.mem_singleton.mp (mem_hits.mp inside).1) (flat hit inside)
  rw [front, first, List.cons_append] at whole
  refine ⟨[], _, whole, fun b none => absurd none List.not_mem_nil, ?_⟩
  intro later among
  exact (congrArg r (flat later (whole ▸ List.mem_cons_of_mem _ among))).ge

theorem pickable_of_picks [DecidableEq τ] (d : δ) (h : ∀ t, Picks r raw drawn owners (hitsOnly t d)) :
    Pickable raw drawn owners := by
  constructor
  · intro o among t visible
    have some_hit := (h t).hit.mpr ⟨o, among, t, visible, d, hitsOnly_eq_some.mpr ⟨rfl, rfl⟩⟩
    obtain ⟨⟨o', d'⟩, found⟩ := List.exists_mem_of_ne_nil _ some_hit
    obtain ⟨among', t', member, tested⟩ := mem_hits.mp found
    exact ⟨o', among', (hitsOnly_eq_some.mp tested).1 ▸ member⟩
  · intro before o after split t member absent
    have least := firstLeast_hitsOnly (r := r) after d member absent
    rw [← split] at least
    obtain ⟨t', visible, d', tested, -⟩ := (h t).nearest o d least
    exact (hitsOnly_eq_some.mp tested).1 ▸ visible

end Picks

end Container
