import ModelPublish.Container.Ring
import ModelPublish.D3d.Model

/-!
# The parts of a model, one at a time

The buttons of `UpdateGui` that go to the part before and after the current one.
-/

namespace ModelPublish.Viewer
open Container D3d

variable {Shader Texture : Type}

/-- A model that is open, and the part that is current. -/
structure PartView (Shader Texture : Type) where
  m_pd3dModel : D3dModel Shader Texture
  m_iCurPart : Int32

/-- An `int` as a `size_t` of `w` bits. -/
def sizeT (w : Nat) (i : Int32) : Nat := (i.toInt % 2 ^ w).toNat

/-- `i % Parts.size ()`, as an `int` again. -/
def modSize (w : Nat) (i : Int32) (size : Nat) : Int32 := Int32.ofNat (sizeT w i % size)

def setVisible (w : Nat) (i : Int32) (bVisible : Bool) (parts : List (D3dModelPart Shader)) :
    List (D3dModelPart Shader) :=
  parts.modify (sizeT w i) fun part => { part with bVisible }

namespace PartView

/-- `OnModelLoaded1` and `OnModelLoaded2`. -/
def onModelLoaded (model : D3dModel Shader Texture) : PartView Shader Texture := ⟨model, 0⟩

def size (view : PartView Shader Texture) : Nat := view.m_pd3dModel.Parts.length

def setParts (parts : List (D3dModelPart Shader)) (view : PartView Shader Texture) : PartView Shader Texture :=
  { view with m_pd3dModel := { view.m_pd3dModel with Parts := parts } }

/-- Hides the current part, and shows the one that becomes current. -/
def moveTo (w : Nat) (iCurPart : Int32) (view : PartView Shader Texture) : PartView Shader Texture :=
  let parts := setVisible w view.m_iCurPart false view.m_pd3dModel.Parts
  { view.setParts (setVisible w iCurPart true parts) with m_iCurPart := iCurPart }

def prevPart (w : Nat) (view : PartView Shader Texture) : PartView Shader Texture :=
  view.moveTo w (modSize w (view.m_iCurPart - 1) view.size)

def nextPart (w : Nat) (view : PartView Shader Texture) : PartView Shader Texture :=
  view.moveTo w (modSize w (view.m_iCurPart + 1) view.size)

/-- A click on one of the two buttons. -/
def click (w : Nat) : Turn → PartView Shader Texture → PartView Shader Texture
  | .back => prevPart w
  | .forth => nextPart w

def clicks (w : Nat) (view : PartView Shader Texture) (turns : List Turn) : PartView Shader Texture :=
  turns.foldl (fun view t => view.click w t) view

def index (view : PartView Shader Texture) : Int := view.m_iCurPart.toInt

end PartView

/-! ### One click -/

theorem toInt_modSize {w n : Nat} (i : Int32) (positive : 0 < n) (small : n < 2 ^ 31) :
    (modSize w i n).toInt = i.toInt % 2 ^ w % n := by
  have less : sizeT w i % n < n := Nat.mod_lt _ positive
  have nonneg : 0 ≤ i.toInt % 2 ^ w := Int.emod_nonneg _ (by positivity)
  rw [modSize, Int32.toInt_ofNat_of_lt (by omega), Int.natCast_mod, sizeT, Int.toNat_of_nonneg nonneg]

/-- Around a ring of `n` places, with a wrap at `2 ^ w` on the way. -/
theorem wrap_eq_iff {w n : Nat} {k : Int} (least : -1 ≤ k) (below : k < 2 ^ w) :
    k % 2 ^ w % (n : Int) = k % n ↔ (k = -1 → n ∣ 2 ^ w) := by
  rcases eq_or_lt_of_le least with wraps | inside
  · have room : (0 : Int) < 2 ^ w := by positivity
    have last : k % 2 ^ w = k + 2 ^ w := by
      rw [← Int.add_emod_right]
      exact Int.emod_eq_of_lt (by omega) (by omega)
    rw [last, Int.emod_eq_emod_iff_emod_sub_eq_zero, add_sub_cancel_left, ← Int.dvd_iff_emod_eq_zero]
    simp only [← wraps, forall_const]
    exact_mod_cast Iff.rfl
  · rw [Int.emod_eq_of_lt (by omega) below]
    simp only [true_iff]
    omega

namespace PartView
variable {w : Nat} {view : PartView Shader Texture}

theorem size_moveTo (iCurPart : Int32) : (view.moveTo w iCurPart).size = view.size := by
  simp [moveTo, setParts, size, setVisible]

@[simp] theorem size_click (t : Turn) : (view.click w t).size = view.size := by
  cases t <;> exact size_moveTo _

theorem index_click (view : PartView Shader Texture) (t : Turn) (many : 2 ≤ view.size) (small : view.size < 2 ^ 31)
    (inside : 0 ≤ view.index ∧ view.index < view.size) :
    (view.click w t).index = (view.index + t.delta) % 2 ^ w % view.size := by
  obtain ⟨nonneg, below⟩ := inside
  unfold index at nonneg below ⊢
  cases t with
  | back =>
    have moved : (view.m_iCurPart - 1).toInt = view.m_iCurPart.toInt - 1 := by
      rw [Int32.toInt_sub]
      exact Int.bmod_eq_of_le (by simp; omega) (by simp; omega)
    rw [Turn.delta, ← sub_eq_add_neg, ← moved]
    exact toInt_modSize _ (by omega) small
  | forth =>
    have moved : (view.m_iCurPart + 1).toInt = view.m_iCurPart.toInt + 1 := by
      rw [Int32.toInt_add]
      exact Int.bmod_eq_of_le (by simp; omega) (by simp; omega)
    rw [Turn.delta, ← moved]
    exact toInt_modSize _ (by omega) small

/-! ### A sequence of clicks -/

theorem clicks_concat (turns : List Turn) (t : Turn) :
    view.clicks w (turns ++ [t]) = (view.clicks w turns).click w t := by
  simp [clicks]

@[simp] theorem size_clicks (turns : List Turn) : (view.clicks w turns).size = view.size := by
  induction turns using List.reverseRecOn with
  | nil => rfl
  | append_singleton turns t ih => rw [clicks_concat, size_click, ih]

/-- The current part is a part. -/
theorem index_clicks (many : 2 ≤ view.size) (small : view.size < 2 ^ 31) (start : view.index = 0) (turns : List Turn) :
    0 ≤ (view.clicks w turns).index ∧ (view.clicks w turns).index < view.size := by
  induction turns using List.reverseRecOn with
  | nil =>
    simp only [clicks, List.foldl_nil, start]
    omega
  | append_singleton turns t ih =>
    have moved := index_click (w := w) (view.clicks w turns) t (by simpa) (by simpa) (by simpa using ih)
    rw [clicks_concat, moved, size_clicks]
    exact ⟨Int.emod_nonneg _ (by omega), Int.emod_lt_of_pos _ (by omega)⟩

/-- No wrap at `2 ^ w` disturbs the ring: the ring divides it, or `Previous` is never clicked at place 0. -/
def Undisturbed (w n : Nat) (turns : List Turn) : Prop :=
  n ∣ 2 ^ w ∨ ∀ before, before ++ [.back] <+: turns → ¬ (n : Int) ∣ Turn.net before

theorem index_clicks_iff (view : PartView Shader Texture) (many : 2 ≤ view.size) (small : view.size < 2 ^ 31)
    (wide : 31 ≤ w) (start : view.index = 0) (turns : List Turn) :
    (∀ before, before <+: turns → (view.clicks w before).index = Turn.net before % view.size) ↔
      Undisturbed w view.size turns := by
  have room : (2 : Int) ^ 31 ≤ 2 ^ w := by exact_mod_cast Nat.pow_le_pow_right (by omega) wide
  have next : ∀ before (t : Turn), (view.clicks w (before ++ [t])).index =
      ((view.clicks w before).index + t.delta) % 2 ^ w % view.size := by
    intro before t
    have inside := index_clicks (w := w) many small start before
    rw [clicks_concat, index_click _ t (by simpa) (by simpa) (by simpa using inside), size_clicks]
  have wraps : ∀ before (t : Turn), ((view.clicks w before).index + t.delta) % 2 ^ w % (view.size : Int) =
      ((view.clicks w before).index + t.delta) % view.size ↔
      ((view.clicks w before).index + t.delta = -1 → view.size ∣ 2 ^ w) := by
    intro before t
    have inside := index_clicks (w := w) many small start before
    refine wrap_eq_iff ?_ ?_ <;> cases t <;> simp only [Turn.delta] <;> omega
  have turned : ∀ before (t : Turn), (view.clicks w before).index = Turn.net before % view.size →
      ((view.clicks w before).index + t.delta) % (view.size : Int) = Turn.net (before ++ [t]) % view.size := by
    intro before t here
    rw [here, Turn.net_concat, Int.emod_add_emod]
  constructor
  · intro tracks
    refine or_iff_not_imp_left.mpr ?_
    intro apart before here divides
    have zero : (view.clicks w before).index = 0 := by
      rw [tracks before (prefix_of_concat here), Int.emod_eq_zero_of_dvd divides]
    have landed := tracks _ here
    rw [next, ← turned before _ (tracks before (prefix_of_concat here)), wraps] at landed
    exact apart (landed (by rw [zero]; rfl))
  · intro undisturbed before
    induction before using List.reverseRecOn with
    | nil =>
      intro _
      simp [clicks, start]
    | append_singleton before t ih =>
      intro here
      have earlier := ih (prefix_of_concat here)
      rw [next, (wraps before t).mpr, turned before t earlier]
      intro below
      have inside := index_clicks (w := w) many small start before
      rcases undisturbed with divides | never
      · exact divides
      · cases t with
        | back =>
          have zero : (view.clicks w before).index = 0 := by
            simp only [Turn.delta] at below
            omega
          exact absurd (Int.dvd_of_emod_eq_zero (earlier ▸ zero)) (never before here)
        | forth =>
          simp only [Turn.delta] at below
          omega

end PartView

/-! ### The two models -/

/-- The primary and the secondary model. -/
inductive Slot where
  | primary
  | secondary
  deriving DecidableEq

def clickOn (w : Nat) (views : Slot → PartView Shader Texture) (c : Slot × Turn) : Slot → PartView Shader Texture :=
  Function.update views c.1 ((views c.1).click w c.2)

/-- The clicks on the buttons of one model go to that model. -/
theorem clickOn_slot (w : Nat) (views : Slot → PartView Shader Texture) (cs : List (Slot × Turn)) (slot : Slot) :
    cs.foldl (clickOn w) views slot =
      (views slot).clicks w (cs.filterMap fun c => if c.1 = slot then some c.2 else none) := by
  induction cs generalizing views with
  | nil => rfl
  | cons c cs ih =>
    rw [List.foldl_cons, ih]
    by_cases same : c.1 = slot
    · subst same
      simp [clickOn, PartView.clicks]
    · simp [clickOn, same, Function.update_of_ne (Ne.symm same)]

/-- The walk through the parts of a model that was loaded. -/
theorem parts_cyclic_iff {w : Nat} (bits : w = 32 ∨ w = 64) (model : D3dModel Shader Texture)
    (many : 2 ≤ model.Parts.length) (small : model.Parts.length < 2 ^ 31) (turns : List Turn) :
    Cyclic model.Parts.length (fun before => ((PartView.onModelLoaded model).clicks w before).index) turns ↔
      PartView.Undisturbed w model.Parts.length turns := by
  have start : (PartView.onModelLoaded model).index = 0 := rfl
  rw [cyclic_iff (by omega) start]
  exact PartView.index_clicks_iff (PartView.onModelLoaded model) many small (by omega) start turns

def panel : D3dModelPart Unit := ⟨[], true, false, []⟩

/-- A model with three parts. -/
def triptych : D3dModel Unit Unit :=
  { D3dModel.new (⟨⟨0⟩, ⟨0⟩, ⟨0⟩⟩, ⟨⟨0⟩, ⟨0⟩, ⟨0⟩⟩) with Parts := [panel, panel, panel] }

theorem triptych_forth :
    Cyclic 3 (fun before => ((PartView.onModelLoaded triptych).clicks 64 before).index) [.forth, .forth] ↔
      PartView.Undisturbed 64 3 [.forth, .forth] :=
  parts_cyclic_iff (Or.inr rfl) triptych (by decide) (by decide) [.forth, .forth]

/-- Its part before the first one is the first one. -/
theorem triptych_back :
    ¬ Cyclic 3 (fun before => ((PartView.onModelLoaded triptych).clicks 32 before).index) [.back] := by
  intro cyclic
  have landed := cyclic.back [] List.prefix_rfl
  revert landed
  decide

end ModelPublish.Viewer
