import Mathlib

/-!
# Programs that call on a machine

A program is a tree of calls: each branches on what the call returns. It is run against any
interpretation of the calls, alone or call by call among other programs.
-/

namespace Machine
variable {call : Type} {res : call → Type} {ε α β γ σ : Type}

inductive Prog (res : call → Type) (ε α : Type) where
  | done (a : α)
  | stop (e : ε)
  | call (c : call) (next : res c → Prog res ε α)

namespace Prog

def bind : Prog res ε α → (α → Prog res ε β) → Prog res ε β
  | .done a, k => k a
  | .stop e, _ => .stop e
  | .call c next, k => .call c fun r => (next r).bind k

instance : Monad (Prog res ε) where
  pure := .done
  bind := bind

def ask (c : call) : Prog res ε (res c) := .call c .done

@[simp] theorem pure_bind (a : α) (k : α → Prog res ε β) : (pure a >>= k) = k a := rfl

@[simp] theorem done_bind (a : α) (k : α → Prog res ε β) : (.done a >>= k) = k a := rfl

@[simp] theorem stop_bind (e : ε) (k : α → Prog res ε β) : (.stop e >>= k) = .stop e := rfl

@[simp] theorem call_bind (c : call) (next : res c → Prog res ε α) (k : α → Prog res ε β) :
    (.call c next >>= k) = .call c fun r => next r >>= k := rfl

theorem bind_assoc (p : Prog res ε α) (k : α → Prog res ε β) (m : β → Prog res ε γ) :
    p >>= k >>= m = p >>= fun a => k a >>= m := by
  induction p with
  | done => rfl
  | stop => rfl
  | call c next ih => exact congrArg (Prog.call c) (funext ih)

/-- How a program has been left, if it has. -/
def stopped : Prog res ε α → Option ε
  | .stop e => some e
  | _ => none

/-! ### Runs -/

section Run
variable (exec : (c : call) → σ → Except ε (res c) × σ)

def run : Prog res ε α → σ → Except ε α × σ
  | .done a, s => (.ok a, s)
  | .stop e, s => (.error e, s)
  | .call c next, s =>
    match exec c s with
    | (.ok r, s) => (next r).run s
    | (.error e, s) => (.error e, s)

/-- The calls that a run makes. -/
def asked : Prog res ε α → σ → List call
  | .done _, _ => []
  | .stop _, _ => []
  | .call c next, s =>
    c :: match exec c s with
      | (.ok r, s) => (next r).asked s
      | (.error _, _) => []

def step (p : Prog res ε α × σ) : Prog res ε α × σ :=
  match p with
  | (.call c next, s) =>
    match exec c s with
    | (.ok r, s) => (next r, s)
    | (.error e, s) => (.stop e, s)
  | p => p

@[simp] theorem run_pure (a : α) (s : σ) : (pure a : Prog res ε α).run exec s = (.ok a, s) := rfl

@[simp] theorem run_done (a : α) (s : σ) : (.done a : Prog res ε α).run exec s = (.ok a, s) := rfl

@[simp] theorem run_stop (e : ε) (s : σ) : (.stop e : Prog res ε α).run exec s = (.error e, s) := rfl

@[simp] theorem run_ask (c : call) (s : σ) : (ask c : Prog res ε _).run exec s = exec c s := by
  rw [ask, run]
  rcases exec c s with ⟨_ | _, _⟩ <;> rfl

theorem run_bind (p : Prog res ε α) (k : α → Prog res ε β) (s : σ) :
    (p >>= k).run exec s =
      match p.run exec s with
      | (.ok a, s) => (k a).run exec s
      | (.error e, s) => (.error e, s) := by
  induction p generalizing s with
  | done => rfl
  | stop => rfl
  | call c next ih =>
    rw [call_bind, run, run]
    rcases exec c s with ⟨_ | r, s⟩
    · rfl
    · exact ih r s

variable {exec}

theorem step_ask (c : call) (k : res c → Prog res ε α) (s : σ) : step exec (ask c >>= k, s) =
    match exec c s with
    | (.ok r, s) => (k r, s)
    | (.error e, s) => (.stop e, s) := rfl

/-- A step does not change what a program comes to. -/
theorem run_step (p : Prog res ε α) (s : σ) : (step exec (p, s)).1.run exec (step exec (p, s)).2 = p.run exec s := by
  cases p with
  | done => rfl
  | stop => rfl
  | call c next =>
    rw [step, run]
    rcases exec c s with ⟨_ | _, _⟩ <;> rfl

end Run

/-! ### What programs call and return -/

/-- Whatever its calls return, each call of the program is in `P`. -/
def Within (P : call → Prop) : Prog res ε α → Prop
  | .done _ => True
  | .stop _ => True
  | .call c next => P c ∧ ∀ r, (next r).Within P

/-- Whatever its calls return, before a result in `Q` the program makes a call in `P`. -/
def Passes (P : call → Prop) (Q : α → Prop) : Prog res ε α → Prop
  | .done a => ¬ Q a
  | .stop _ => True
  | .call c next => P c ∨ ∀ r, (next r).Passes P Q

/-- Whatever its calls return, if the program ends with a result then this is in `Q`. -/
def Ends (Q : α → Prop) : Prog res ε α → Prop
  | .done a => Q a
  | .stop _ => True
  | .call _ next => ∀ r, (next r).Ends Q

section Within
variable {P : call → Prop}

@[simp] theorem within_pure (a : α) : (pure a : Prog res ε α).Within P := trivial

@[simp] theorem within_stop (e : ε) : (.stop e : Prog res ε α).Within P := trivial

@[simp] theorem within_ask (c : call) : (ask c : Prog res ε _).Within P ↔ P c :=
  ⟨fun h => h.1, fun h => ⟨h, fun _ => trivial⟩⟩

theorem Within.bind {p : Prog res ε α} {k : α → Prog res ε β} (first : p.Within P)
    (rest : ∀ a, (k a).Within P) : (p >>= k).Within P := by
  induction p with
  | done a => exact rest a
  | stop => trivial
  | call c next ih => exact ⟨first.1, fun r => ih r (first.2 r)⟩

theorem Within.mono {P' : call → Prop} {p : Prog res ε α} (h : p.Within P) (le : ∀ c, P c → P' c) :
    p.Within P' := by
  induction p with
  | done => trivial
  | stop => trivial
  | call c next ih => exact ⟨le c h.1, fun r => ih r (h.2 r)⟩

theorem Within.run {exec : (c : call) → σ → Except ε (res c) × σ} {I : σ → Prop}
    (keep : ∀ c s, P c → I s → I (exec c s).2) {p : Prog res ε α} (h : p.Within P) {s : σ}
    (start : I s) : I (p.run exec s).2 := by
  induction p generalizing s with
  | done => exact start
  | stop => exact start
  | call c next ih =>
    have kept := keep c s h.1 start
    rw [Prog.run]
    rcases ran : exec c s with ⟨_ | r, s'⟩
    · rw [ran] at kept
      exact kept
    · rw [ran] at kept
      exact ih r (h.2 r) kept

theorem Within.asked {exec : (c : call) → σ → Except ε (res c) × σ} {p : Prog res ε α} (h : p.Within P) (s : σ) :
    ∀ c ∈ p.asked exec s, P c := by
  induction p generalizing s with
  | done => simp [Prog.asked]
  | stop => simp [Prog.asked]
  | call c next ih =>
    rw [Prog.asked]
    refine List.forall_mem_cons.mpr ⟨h.1, ?_⟩
    rcases exec c s with ⟨_ | r, s'⟩
    · simp
    · exact ih r (h.2 r) s'

end Within

section Ends
variable {Q : α → Prop}

@[simp] theorem ends_pure {a : α} : (pure a : Prog res ε α).Ends Q ↔ Q a := Iff.rfl

@[simp] theorem ends_stop (e : ε) : (.stop e : Prog res ε α).Ends Q := trivial

@[simp] theorem ends_ask {c : call} {Q : res c → Prop} : (ask c : Prog res ε _).Ends Q ↔ ∀ r, Q r := Iff.rfl

theorem Ends.bind {p : Prog res ε α} {k : α → Prog res ε β} {Q' : β → Prop} (first : p.Ends Q)
    (rest : ∀ a, Q a → (k a).Ends Q') : (p >>= k).Ends Q' := by
  induction p with
  | done a => exact rest a first
  | stop => trivial
  | call c next ih => exact fun r => ih r (first r)

theorem Ends.ask_bind {c : call} {k : res c → Prog res ε α} (rest : ∀ r, (k r).Ends Q) : (ask c >>= k).Ends Q :=
  rest

theorem Within.bind_ends {P : call → Prop} {p : Prog res ε α} {k : α → Prog res ε β} (first : p.Within P)
    (ends : p.Ends Q) (rest : ∀ a, Q a → (k a).Within P) : (p >>= k).Within P := by
  induction p with
  | done a => exact rest a ends
  | stop => trivial
  | call c next ih => exact ⟨first.1, fun r => ih r (first.2 r) (ends r)⟩

theorem Ends.mono {Q' : α → Prop} {p : Prog res ε α} (h : p.Ends Q) (le : ∀ a, Q a → Q' a) : p.Ends Q' := by
  induction p with
  | done a => exact le a h
  | stop => trivial
  | call c next ih => exact fun r => ih r (h r)

theorem ends_true (p : Prog res ε α) : p.Ends fun _ => True := by
  induction p with
  | done => trivial
  | stop => trivial
  | call c next ih => exact ih

theorem Ends.run {exec : (c : call) → σ → Except ε (res c) × σ} {p : Prog res ε α} (h : p.Ends Q)
    {s s' : σ} {a : α} (ran : p.run exec s = (.ok a, s')) : Q a := by
  induction p generalizing s with
  | done =>
    cases ran
    exact h
  | stop => cases ran
  | call c next ih =>
    rw [Prog.run] at ran
    rcases called : exec c s with ⟨_ | r, s''⟩
    · rw [called] at ran
      cases ran
    · rw [called] at ran
      exact ih r (h r) ran

end Ends

section Passes
variable {P : call → Prop} {Q : α → Prop}

theorem Passes.ask {c : call} (passed : P c) {next : res c → Prog res ε α} : (ask c >>= next).Passes P Q := .inl passed

theorem Passes.bind {p : Prog res ε α} {k : α → Prog res ε β} {Q' : β → Prop} (first : p.Passes P fun _ => True) :
    (p >>= k).Passes P Q' := by
  induction p with
  | done a => exact absurd trivial first
  | stop => trivial
  | call c next ih => exact first.imp id fun later r => ih r (later r)

theorem Ends.bind_passes {p : Prog res ε α} {k : α → Prog res ε β} {Q' : β → Prop} (first : p.Ends Q)
    (rest : ∀ a, Q a → (k a).Passes P Q') : (p >>= k).Passes P Q' := by
  induction p with
  | done a => exact rest a first
  | stop => trivial
  | call c next ih => exact .inr fun r => ih r (first r)

theorem Passes.asked {exec : (c : call) → σ → Except ε (res c) × σ} {p : Prog res ε α} (h : p.Passes P Q) {s s' : σ}
    {a : α} (ran : p.run exec s = (.ok a, s')) (result : Q a) : ∃ c ∈ p.asked exec s, P c := by
  induction p generalizing s with
  | done =>
    cases ran
    exact absurd result h
  | stop => cases ran
  | call c next ih =>
    rw [Prog.asked]
    rcases h with passed | later
    · exact ⟨c, List.mem_cons_self, passed⟩
    rw [Prog.run] at ran
    rcases called : exec c s with ⟨_ | r, s''⟩
    · rw [called] at ran
      cases ran
    · rw [called] at ran
      obtain ⟨c', among, passed⟩ := ih r (later r) ran
      exact ⟨c', List.mem_cons_of_mem c among, passed⟩

end Passes

end Prog
end Machine
