import Mathlib

/-!
# Machines that read one input a step

Runs of a deterministic machine whose steps each take an input the program does not control.
A machine may project to a finite graph of labelled edges: whether every run ends, and what
every accepting run does on its way, are then questions about that graph.
-/

namespace Machine
open Relation
variable {σ ι ν lab : Type}

def run (step : ι → σ → σ) (s : σ) (inputs : List ι) : σ := inputs.foldl (fun s i => step i s) s

def take (n : Nat) (input : Nat → ι) : List ι := (List.range n).map input

@[simp] theorem take_zero (input : Nat → ι) : take 0 input = [] := rfl

theorem take_succ (n : Nat) (input : Nat → ι) : take (n + 1) input = take n input ++ [input n] := by
  simp [take, List.range_succ]

theorem take_succ' (n : Nat) (input : Nat → ι) :
    take (n + 1) input = input 0 :: take n (fun k => input (k + 1)) := by
  simp [take, List.range_succ_eq_map, Function.comp_def]

theorem take_getD (is : List ι) (other : ι) : take is.length (fun k => is.getD k other) = is := by
  induction is with
  | nil => rfl
  | cons i is ih => rw [List.length_cons, take_succ']; simpa using ih

/-- Whatever the inputs, some state on the way satisfies `done`. -/
def Halts (step : ι → σ → σ) (done : σ → Prop) (s : σ) : Prop :=
  ∀ input : Nat → ι, ∃ n, done (run step s (take n input))

/-- Whatever the inputs, `Q` holds after finitely many steps. -/
inductive Eventually (step : ι → σ → σ) (Q : σ → Prop) : σ → Prop
  | now {s : σ} (h : Q s) : Eventually step Q s
  | later {s : σ} (h : ∀ i, Eventually step Q (step i s)) : Eventually step Q s

section Runs
variable {step : ι → σ → σ} {s : σ} {done : σ → Prop}

@[simp] theorem run_nil : run step s [] = s := rfl

@[simp] theorem run_cons (i : ι) (is : List ι) : run step s (i :: is) = run step (step i s) is := rfl

theorem run_append (is js : List ι) : run step s (is ++ js) = run step (run step s is) js :=
  List.foldl_append

theorem run_map {κ : Type} (f : κ → ι) (s : σ) (is : List κ) :
    run (fun i => step (f i)) s is = run step s (is.map f) := by
  rw [run, run, List.foldl_map]

theorem take_map {κ : Type} (f : κ → ι) (n : Nat) (input : Nat → κ) :
    (take n input).map f = take n (f ∘ input) := by
  simp [take]

theorem run_invariant {Inv : σ → Prop} (keep : ∀ i s, Inv s → Inv (step i s)) (start : Inv s)
    (is : List ι) : Inv (run step s is) := by
  induction is generalizing s with
  | nil => exact start
  | cons i is ih => exact ih (keep i s start)

theorem run_fixed (fixed : ∀ i, step i s = s) (is : List ι) : run step s is = s := by
  induction is with
  | nil => rfl
  | cons i is ih => rw [run_cons, fixed, ih]

theorem run_take_of_fixed {input : Nat → ι} {m n : Nat} (le : m ≤ n)
    (fixed : ∀ i, step i (run step s (take m input)) = run step s (take m input)) :
    run step s (take n input) = run step s (take m input) := by
  induction le with
  | refl => rfl
  | step _ ih => rw [take_succ, run_append, ih]; exact fixed _

theorem run_take_eq {input : Nat → ι} {m n : Nat}
    (left : ∀ i, step i (run step s (take m input)) = run step s (take m input))
    (right : ∀ i, step i (run step s (take n input)) = run step s (take n input)) :
    run step s (take m input) = run step s (take n input) := by
  rcases Nat.le_total m n with le | le
  · exact (run_take_of_fixed le left).symm
  · exact run_take_of_fixed le right

namespace Eventually
variable {P Q : σ → Prop}

theorem trans (h : Eventually step P s) (next : ∀ s, P s → Eventually step Q s) :
    Eventually step Q s := by
  induction h with
  | now h => exact next _ h
  | later _ ih => exact later ih

theorem halts (h : Eventually step Q s) : Halts step Q s := by
  induction h with
  | now h => exact fun _ => ⟨0, h⟩
  | later _ ih =>
    intro input
    obtain ⟨n, holds⟩ := ih (input 0) (fun k => input (k + 1))
    exact ⟨n + 1, by rwa [take_succ', run_cons]⟩

theorem outcome [Inhabited ι] (done : σ → Prop) (h : Eventually step Q s) (stuck : ∀ i s, done s → step i s = s)
    (ends : ∀ s, Q s → done s) :
    Halts step done s ∧ ∀ is, done (run step s is) → Q (run step s is) := by
  refine ⟨fun input => ?_, ?_⟩
  · obtain ⟨n, met⟩ := h.halts input
    exact ⟨n, ends _ met⟩
  · induction h with
    | now h => exact fun is _ => by rwa [run_fixed fun i => stuck i _ (ends _ h)]
    | @later s _ ih =>
      intro is ended
      cases is with
      | nil =>
        rw [run_nil] at ended ⊢
        have same := stuck default s ended
        have met := ih default [] (by rwa [run_nil, same])
        rwa [run_nil, same] at met
      | cons i is => exact ih i is ended

end Eventually

/-- Every step of a run is `good`. -/
def GoodRun (step : ι → σ → σ) (good : ι → σ → Prop) : σ → List ι → Prop
  | _, [] => True
  | s, i :: is => good i s ∧ GoodRun step good (step i s) is

instance (good : ι → σ → Prop) [∀ i s, Decidable (good i s)] : ∀ s is, Decidable (GoodRun step good s is)
  | _, [] => .isTrue trivial
  | s, i :: is =>
    have := instDecidableGoodRun good (step i s) is
    inferInstanceAs (Decidable (good i s ∧ GoodRun step good (step i s) is))

theorem GoodRun.invariant {good : ι → σ → Prop} {Inv : σ → Prop}
    (keep : ∀ i s, good i s → Inv s → Inv (step i s)) {is : List ι} (h : GoodRun step good s is)
    (start : Inv s) : Inv (run step s is) := by
  induction is generalizing s with
  | nil => exact start
  | cons i is ih => exact ih h.2 (keep i s h.1 start)

/-- When a step keeps an invariant exactly when it is `good`, the invariant holds on the whole way exactly when
every step is. -/
theorem prefix_iff_goodRun {good : ι → σ → Prop} (Base : σ → Prop) {Inv : σ → Prop} {is : List ι}
    (base : ∀ i ∈ is, ∀ s, Base s → Base (step i s))
    (keep : ∀ i ∈ is, ∀ s, Base s → Inv s → (Inv (step i s) ↔ good i s)) (ground : Base s) (start : Inv s) :
    (∀ before, before <+: is → Inv (run step s before)) ↔ GoodRun step good s is := by
  induction is generalizing s with
  | nil => simp [GoodRun, start]
  | cons i is ih =>
    have tail := ih (s := step i s) (fun j member => base j (List.mem_cons_of_mem i member))
      (fun j member => keep j (List.mem_cons_of_mem i member)) (base i List.mem_cons_self s ground)
    rw [GoodRun, ← keep i List.mem_cons_self s ground start]
    constructor
    · intro all
      have first := all [i] (by simp)
      exact ⟨first, (tail first).mp fun before here => all (i :: before) (List.cons_prefix_cons.mpr ⟨rfl, here⟩)⟩
    · intro ⟨first, rest⟩ before here
      cases before with
      | nil => exact start
      | cons j before =>
        obtain ⟨same, later⟩ := List.cons_prefix_cons.mp here
        rw [same]
        exact (tail first).mpr rest before later

/-- An invariant that counts the inputs of each kind that are left. -/
theorem GoodRun.countdown [DecidableEq ι] {good : ι → σ → Prop} {I : (ι → Nat) → σ → Prop}
    (keep : ∀ n i s, good i s → I n s → I (Function.update n i (n i - 1)) (step i s)) {n : ι → Nat} {is : List ι}
    (h : GoodRun step good s is) (start : I n s) : I (fun i => n i - is.count i) (run step s is) := by
  induction is generalizing n s with
  | nil => exact start
  | cons i is ih =>
    have kept := ih h.2 (keep n i s h.1 start)
    have counts : (fun j => Function.update n i (n i - 1) j - is.count j) =
        fun j => n j - (i :: is).count j := by
      funext j
      by_cases same : j = i
      · subst same
        rw [Function.update_self, List.count_cons_self]
        omega
      · rw [Function.update_of_ne same, List.count_cons_of_ne (Ne.symm same)]
    rw [counts] at kept
    exact kept

/-- When each step appends to a log, what holds of the whole log held at every step. -/
theorem goodRun_iff_log {ev : Type} {Inv : σ → Prop} (keep : ∀ i s, Inv s → Inv (step i s))
    (log : σ → List ev) (emit : ι → σ → List ev) (p : ev → Prop)
    (appends : ∀ i s, Inv s → log (step i s) = log s ++ emit i s) (start : Inv s) (is : List ι) :
    (∀ e ∈ log (run step s is), p e) ↔
      (∀ e ∈ log s, p e) ∧ GoodRun step (fun i s => ∀ e ∈ emit i s, p e) s is := by
  induction is generalizing s with
  | nil => simp [GoodRun]
  | cons i is ih =>
    rw [run_cons, ih (keep i s start), appends i s start, GoodRun, ← and_assoc]
    simp only [List.mem_append, or_imp, forall_and]

end Runs

/-! ### Projection to a graph -/

/-- One step of a labelled graph, whatever the label. -/
def Edge (edge : ν → lab → ν → Prop) (v w : ν) : Prop := ∃ l, edge v l w

/-- A cycle that a walk from `v` can reach. -/
def ReachesCycle (edge : ν → lab → ν → Prop) (v : ν) : Prop :=
  ∃ u, ReflTransGen (Edge edge) v u ∧ TransGen (Edge edge) u u

/-- The walks from one node to another, by the edges they take. -/
inductive Walk (edge : ν → lab → ν → Prop) : ν → List (ν × lab) → ν → Prop
  | stay (v : ν) : Walk edge v [] v
  | go {v u w : ν} {l : lab} {es : List (ν × lab)} (first : edge v l u) (rest : Walk edge u es w) :
    Walk edge v ((v, l) :: es) w

/-- Every edge on a walk from `v` is `good`. -/
def ReachedGood (edge : ν → lab → ν → Prop) (good : ν → lab → Prop) (v : ν) : Prop :=
  ∀ u l w, ReflTransGen (Edge edge) v u → edge u l w → good u l

/-- Every edge on a walk from `v` to an accepting node is `good`. -/
def AcceptingGood (edge : ν → lab → ν → Prop) (accept : ν → Prop) (good : ν → lab → Prop)
    (v : ν) : Prop :=
  ∀ u l w, ReflTransGen (Edge edge) v u → edge u l w →
    (∃ t, accept t ∧ ReflTransGen (Edge edge) w t) → good u l

section Graph
variable {edge : ν → lab → ν → Prop}

theorem acceptingGood_congr {accept : ν → Prop} {good good' : ν → lab → Prop} {v : ν}
    (same : ∀ u l w, edge u l w → (good u l ↔ good' u l)) :
    AcceptingGood edge accept good v ↔ AcceptingGood edge accept good' v := by
  refine forall₃_congr fun u l w => imp_congr_right fun _ => forall_congr' fun next => imp_congr_right fun _ => ?_
  exact same u l w next

/-- Nodes that no edge leaves, all of whose edges are good. -/
theorem acceptingGood_of_closed {accept : ν → Prop} {good : ν → lab → Prop} {v : ν} (S : ν → Prop) (start : S v)
    (closed : ∀ u l w, S u → edge u l w → good u l ∧ S w) : AcceptingGood edge accept good v := by
  have inside : ∀ u, ReflTransGen (Edge edge) v u → S u := by
    intro u path
    induction path with
    | refl => exact start
    | tail _ step ih =>
      obtain ⟨l, step⟩ := step
      exact (closed _ l _ ih step).2
  exact fun u l w path next _ => (closed u l w (inside u path) next).1

theorem not_reachesCycle_of_acc {v : ν} (h : Acc (fun w u => Edge edge u w) v) :
    ¬ ReachesCycle edge v := by
  have descend : ∀ u, ReflTransGen (Edge edge) v u → Acc (fun w u => Edge edge u w) u := by
    intro u path
    induction path with
    | refl => exact h
    | tail _ next ih => exact ih.inv next
  have loop : ∀ x, Acc (TransGen (fun w u => Edge edge u w)) x → ¬ TransGen (Edge edge) x x := by
    intro x acc
    induction acc with
    | intro x _ ih => exact fun self => ih x (transGen_swap.mpr self) self
  rintro ⟨u, path, cycle⟩
  exact loop u (descend u path).transGen cycle

/-- In a finite graph the walks from `v` are bounded exactly when `v` reaches no cycle. -/
theorem acc_iff_not_reachesCycle [Finite ν] (v : ν) :
    Acc (fun w u => Edge edge u w) v ↔ ¬ ReachesCycle edge v := by
  refine ⟨not_reachesCycle_of_acc, fun acyclic => ?_⟩
  let below (w u : ν) : Prop := ReflTransGen (Edge edge) v u ∧ TransGen (Edge edge) u w
  have irrefl : Std.Irrefl below := ⟨fun u self => acyclic ⟨u, self⟩⟩
  have transitive : IsTrans ν below := ⟨fun _ _ _ left right => ⟨right.1, right.2.trans left.2⟩⟩
  have wf : WellFounded below := Finite.wellFounded_of_trans_of_irrefl below
  have descend : ∀ u, Acc below u → ReflTransGen (Edge edge) v u →
      Acc (fun w u => Edge edge u w) u := by
    intro u acc
    induction acc with
    | intro u _ ih =>
      exact fun path => ⟨u, fun w next => ih w ⟨path, TransGen.single next⟩ (path.tail next)⟩
  exact descend v (wf.apply v) ReflTransGen.refl

end Graph

/-- A machine whose steps, before it is `done`, are exactly the edges of a graph: `node` forgets
what the walk does not depend on, and `label` is what the step took from its input. -/
structure Projects (step : ι → σ → σ) (done : σ → Prop) (edge : ν → lab → ν → Prop)
    (node : σ → ν) (label : ι → σ → lab) (Inv : σ → Prop) : Prop where
  keep : ∀ i s, Inv s → Inv (step i s)
  stuck : ∀ i s, done s → step i s = s
  sound : ∀ i s, Inv s → ¬ done s → edge (node s) (label i s) (node (step i s))
  full : ∀ s l w, Inv s → edge (node s) l w → ¬ done s ∧ ∃ i, label i s = l ∧ node (step i s) = w

namespace Projects
variable {step : ι → σ → σ} {done : σ → Prop} {edge : ν → lab → ν → Prop} {node : σ → ν}
  {label : ι → σ → lab} {Inv : σ → Prop} {s : σ}

theorem run_reaches (h : Projects step done edge node label Inv) (inv : Inv s) (is : List ι) :
    ReflTransGen (Edge edge) (node s) (node (run step s is)) := by
  induction is generalizing s with
  | nil => exact ReflTransGen.refl
  | cons i is ih =>
    by_cases ended : done s
    · rw [run_fixed fun i => h.stuck i s ended]
    · exact ReflTransGen.head ⟨_, h.sound i s inv ended⟩ (ih (h.keep i s inv))

theorem exists_run (h : Projects step done edge node label Inv) (inv : Inv s) {w : ν}
    (path : ReflTransGen (Edge edge) (node s) w) : ∃ is, node (run step s is) = w := by
  induction path with
  | refl => exact ⟨[], rfl⟩
  | tail _ next ih =>
    obtain ⟨is, rfl⟩ := ih
    obtain ⟨l, next⟩ := next
    obtain ⟨-, i, -, arrived⟩ := h.full _ l _ (run_invariant h.keep inv is) next
    exact ⟨is ++ [i], by rw [run_append]; exact arrived⟩

theorem halts_of_acc (h : Projects step done edge node label Inv) (inv : Inv s) {v : ν}
    (at_v : node s = v) (acc : Acc (fun w u => Edge edge u w) v) : Halts step done s := by
  induction acc generalizing s with
  | intro v _ ih =>
    subst at_v
    intro input
    by_cases ended : done s
    · exact ⟨0, ended⟩
    · have next : Edge edge (node s) (node (step (input 0) s)) := ⟨_, h.sound _ s inv ended⟩
      obtain ⟨n, holds⟩ := ih _ next (h.keep _ s inv) rfl (fun k => input (k + 1))
      exact ⟨n + 1, by rwa [take_succ', run_cons]⟩

theorem acc_of_halts (h : Projects step done edge node label Inv) (inv : Inv s)
    (halts : Halts step done s) : Acc (fun w u => Edge edge u w) (node s) := by
  by_contra endless
  obtain ⟨f, start, falls⟩ := not_acc_iff_exists_descending_chain.mp endless
  -- the inputs that make the machine follow the descending walk `f`
  have choose_input : ∀ n t, Inv t → node t = f n → ∃ i, node (step i t) = f (n + 1) := by
    intro n t inv at_n
    obtain ⟨l, next⟩ := falls n
    obtain ⟨-, i, -, arrived⟩ := h.full t l (f (n + 1)) inv (by rwa [at_n])
    exact ⟨i, arrived⟩
  have some_input : Nonempty ι := (choose_input 0 s inv start.symm).nonempty
  let pick (n : Nat) (t : σ) : ι := Classical.epsilon fun i => node (step i t) = f (n + 1)
  let walk : Nat → σ := fun n => Nat.rec s (fun n t => step (pick n t) t) n
  have follows : ∀ n, run step s (take n fun k => pick k (walk k)) = walk n := by
    intro n
    induction n with
    | zero => rfl
    | succ n ih => rw [take_succ, run_append, ih]; rfl
  have on_path : ∀ n, Inv (walk n) ∧ node (walk n) = f n := by
    intro n
    induction n with
    | zero => exact ⟨inv, start.symm⟩
    | succ n ih =>
      exact ⟨h.keep _ _ ih.1, Classical.epsilon_spec (choose_input n (walk n) ih.1 ih.2)⟩
  obtain ⟨n, ended⟩ := halts fun k => pick k (walk k)
  rw [follows] at ended
  obtain ⟨l, next⟩ := falls n
  exact (h.full (walk n) l (f (n + 1)) (on_path n).1 (by rwa [(on_path n).2])).1 ended

/-- What runs collect are the gatherings along walks. -/
theorem exists_walk (h : Projects step done edge node label Inv) {κ : Type} {total : σ → List κ}
    {gives : ν → lab → List κ}
    (adds : ∀ i s, Inv s → ¬ done s → total (step i s) = total s ++ gives (node s) (label i s)) (inv : Inv s)
    (is : List ι) : ∃ es, Walk edge (node s) es (node (run step s is)) ∧
      total (run step s is) = total s ++ es.flatMap fun e => gives e.1 e.2 := by
  induction is generalizing s with
  | nil => exact ⟨[], .stay _, (List.append_nil _).symm⟩
  | cons i is ih =>
    by_cases ended : done s
    · rw [run_fixed fun i => h.stuck i s ended]
      exact ⟨[], .stay _, (List.append_nil _).symm⟩
    · obtain ⟨es, walk, collected⟩ := ih (h.keep i s inv)
      refine ⟨_, .go (h.sound i s inv ended) walk, ?_⟩
      rw [run_cons, collected, adds i s inv ended, List.flatMap_cons, List.append_assoc]

theorem exists_run_along (h : Projects step done edge node label Inv) {κ : Type} {total : σ → List κ}
    {gives : ν → lab → List κ}
    (adds : ∀ i s, Inv s → ¬ done s → total (step i s) = total s ++ gives (node s) (label i s)) (inv : Inv s)
    {v w : ν} {es : List (ν × lab)} (walk : Walk edge v es w) (start : node s = v) :
    ∃ is, node (run step s is) = w ∧ total (run step s is) = total s ++ es.flatMap fun e => gives e.1 e.2 := by
  induction walk generalizing s with
  | stay v => exact ⟨[], start, (List.append_nil _).symm⟩
  | go first rest ih =>
    subst start
    obtain ⟨running, i, took, arrived⟩ := h.full s _ _ inv first
    obtain ⟨is, ends, collected⟩ := ih (h.keep i s inv) arrived
    refine ⟨i :: is, ends, ?_⟩
    rw [run_cons, collected, adds i s inv running, took, List.flatMap_cons, List.append_assoc]

/-- What is logged on the way is judged edge by edge, where an edge may be taken with several inputs. -/
theorem log_good_iff (h : Projects step done edge node label Inv) (inv : Inv s) {good : ν → lab → Prop}
    {ev : Type} {log : σ → List ev} {emit : ι → σ → List ev} {p : ev → Prop}
    (appends : ∀ i s, Inv s → log (step i s) = log s ++ emit i s) (fresh : ∀ e ∈ log s, p e)
    (judged : ∀ s i, Inv s → ¬ done s → (good (node s) (label i s) ↔
      ∀ j, label j s = label i s → ∀ e ∈ emit j s, p e)) :
    (∀ is, ∀ e ∈ log (run step s is), p e) ↔ ReachedGood edge good (node s) := by
  constructor
  · intro all u l w path next
    obtain ⟨before, rfl⟩ := h.exists_run inv path
    have inv' := run_invariant h.keep inv before
    obtain ⟨running, i, rfl, -⟩ := h.full _ l w inv' next
    refine (judged _ i inv' running).mpr fun j _ e member => ?_
    apply all (before ++ [j]) e
    rw [run_append, run_cons, run_nil, appends j _ inv']
    exact List.mem_append_right _ member
  · intro edges is
    have walk : ∀ (t : σ) (is : List ι), Inv t → ReflTransGen (Edge edge) (node s) (node t) →
        (∀ e ∈ log t, p e) → ∀ e ∈ log (run step t is), p e := by
      intro t is
      induction is generalizing t with
      | nil => exact fun _ _ before => before
      | cons i is ih =>
        intro inv' path before
        by_cases ended : done t
        · rw [run_fixed fun i => h.stuck i t ended]
          exact before
        · have next := h.sound i t inv' ended
          refine ih _ (h.keep i t inv') (path.tail ⟨_, next⟩) ?_
          rw [appends i t inv']
          have here := (judged t i inv' ended).mp (edges _ _ _ path next) i rfl
          exact List.forall_mem_append.mpr ⟨before, here⟩
    exact walk s is inv ReflTransGen.refl fresh

/-- Every run ends exactly when the graph has no cycle within reach. -/
theorem halts_iff [Finite ν] (h : Projects step done edge node label Inv) (inv : Inv s) :
    Halts step done s ↔ ¬ ReachesCycle edge (node s) := by
  rw [← acc_iff_not_reachesCycle]
  exact ⟨h.acc_of_halts inv, h.halts_of_acc inv rfl⟩

/-- Every step of every accepting run is good exactly when every edge on a walk to acceptance
is. A step is judged by the edge it takes. -/
theorem accepted_good_iff (h : Projects step done edge node label Inv) (inv : Inv s)
    {accept : ν → Prop} {good : ν → lab → Prop} {goodStep : ι → σ → Prop}
    (judged : ∀ i s, Inv s → (goodStep i s ↔ (¬ done s → good (node s) (label i s)))) :
    (∀ is, accept (node (run step s is)) → GoodRun step goodStep s is) ↔
      AcceptingGood edge accept good (node s) := by
  constructor
  · intro all u l w path next ⟨t, accepted, rest⟩
    obtain ⟨before, rfl⟩ := h.exists_run inv path
    have inv' := run_invariant h.keep inv before
    obtain ⟨running, i, rfl, rfl⟩ := h.full _ l w inv' next
    obtain ⟨after, rfl⟩ := h.exists_run (h.keep i _ inv') rest
    have whole := all (before ++ i :: after) (by rw [run_append]; exact accepted)
    have last : ∀ (s : σ) (before : List ι), GoodRun step goodStep s (before ++ i :: after) →
        goodStep i (run step s before) := by
      intro s before
      induction before generalizing s with
      | nil => exact fun good => good.1
      | cons j before ih => exact fun good => ih _ good.2
    exact (judged i _ inv').mp (last s before whole) running
  · intro edges is
    have walk : ∀ (t : σ) (is : List ι), Inv t → ReflTransGen (Edge edge) (node s) (node t) →
        accept (node (run step t is)) → GoodRun step goodStep t is := by
      intro t is
      induction is generalizing t with
      | nil => exact fun _ _ _ => trivial
      | cons i is ih =>
        intro inv' path accepted
        refine ⟨(judged i t inv').mpr fun running => ?_, ?_⟩
        · exact edges _ _ _ path (h.sound i t inv' running)
            ⟨_, accepted, h.run_reaches (h.keep i t inv') is⟩
        · refine ih _ (h.keep i t inv') ?_ accepted
          exact path.trans (h.run_reaches inv' [i])
    exact walk s is inv ReflTransGen.refl

/-- The same for a machine that keeps a log: what is logged on the way to acceptance is judged edge
by edge. -/
theorem accepted_log_iff (h : Projects step done edge node label Inv) (inv : Inv s)
    {accept : ν → Prop} {good : ν → lab → Prop} {ev : Type} {log : σ → List ev}
    {emit : ι → σ → List ev} {p : ev → Prop}
    (appends : ∀ i s, Inv s → log (step i s) = log s ++ emit i s) (fresh : ∀ e ∈ log s, p e)
    (judged : ∀ i s, Inv s → ((∀ e ∈ emit i s, p e) ↔ (¬ done s → good (node s) (label i s)))) :
    (∀ is, accept (node (run step s is)) → ∀ e ∈ log (run step s is), p e) ↔
      AcceptingGood edge accept good (node s) := by
  rw [← h.accepted_good_iff inv judged]
  refine forall_congr' fun is => imp_congr_right fun _ => ?_
  rw [goodRun_iff_log h.keep log emit p appends inv]
  exact and_iff_right fresh

end Projects
end Machine
