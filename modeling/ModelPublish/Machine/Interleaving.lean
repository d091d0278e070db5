import ModelPublish.Machine.Program
import ModelPublish.Machine.Run

/-!
# Programs that run side by side

Threads that share a state: the inputs of the machine say which of them makes its next call.
-/

namespace Machine
variable {call : Type} {res : call → Type} {ε α β ι : Type} {own shared : Type}

structure Threads (res : call → Type) (ε α ι own shared : Type) where
  threads : ι → Prog res ε α × own
  state : shared

namespace Threads
variable [DecidableEq ι] (exec : ι → (c : call) → own × shared → Except ε (res c) × own × shared)

/-- The next call of thread `i`. -/
def step (i : ι) (s : Threads res ε α ι own shared) : Threads res ε α ι own shared :=
  let (program, mine, state) := Prog.step (exec i) ((s.threads i).1, (s.threads i).2, s.state)
  ⟨Function.update s.threads i (program, mine), state⟩

end Threads

/-! ### Ways that do not depend on the others -/

/-- As long as the shared state is in `Inv`, the first program comes to the second in `n` calls, and changes
nothing that is shared. -/
inductive Leads (exec : (c : call) → own × shared → Except ε (res c) × own × shared) (Inv : shared → Prop)
    (q : Prog res ε α) (last : own) : Prog res ε α → own → Nat → Prop where
  | here : Leads exec Inv q last q last 0
  | call {c : call} {next : res c → Prog res ε α} {mine mine' : own} {r : res c} {n : Nat}
    (answers : ∀ t, Inv t → exec c (mine, t) = (.ok r, mine', t)) (rest : Leads exec Inv q last (next r) mine' n) :
    Leads exec Inv q last (.call c next) mine (n + 1)

namespace Leads
variable {exec : (c : call) → own × shared → Except ε (res c) × own × shared} {Inv : shared → Prop}
  {q : Prog res ε α} {last : own}

theorem ask {c : call} {k : res c → Prog res ε α} {mine mine' : own} {r : res c} {n : Nat}
    (answers : ∀ t, Inv t → exec c (mine, t) = (.ok r, mine', t)) (rest : Leads exec Inv q last (k r) mine' n) :
    Leads exec Inv q last (Prog.ask c >>= k) mine (n + 1) :=
  .call answers rest

end Leads
end Machine
