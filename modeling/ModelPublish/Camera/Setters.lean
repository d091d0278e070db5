import ModelPublish.Camera.Camera

/-!
# What the setters of a camera answer

Whether a call that returns `TRUE` has set its parameter, and one that returns `FALSE` nothing, over any
history of a camera.
-/

namespace ModelPublish.Camera
open Machine

variable {F : Type} [Add F] [Sub F] [Mul F] [Div F] [Neg F] [OfNat F 2]

inductive Call (F : Type) where
  | initializeFov (fFovX fAspect fNear fFar : F)
  | initializeOffCenter (fLeft fRight fBottom fTop fNear fFar : F)
  | initializeOrtho (fWidth fHeight fNear fFar : F)
  | setCamera (CamDesc : CameraDesc F)
  | setProjectionType (eProjectionType : ProjectionType)
  | setProjectionCenter (eProjectionCenter : ProjectionCenter)
  | setAspect (fAspect : F) (bUpdate : Bool)
  | setFovX (fFovX : F) (bUpdate : Bool)
  | setFovY (fFovY : F) (bUpdate : Bool)
  | setViewRange (fNear fFar : F) (bUpdate : Bool)
  | setNear (fNear : F) (bUpdate : Bool)
  | setFar (fFar : F) (bUpdate : Bool)

namespace Call

/-- What a call returns, and the camera after it. -/
def perform (m : Libm F) (cam : CCamera F) : Call F → Bool × CCamera F
  | initializeFov fFovX fAspect fNear fFar => (true, cam.initializeFov m fFovX fAspect fNear fFar)
  | initializeOffCenter fLeft fRight fBottom fTop fNear fFar =>
    (true, cam.initializeOffCenter m fLeft fRight fBottom fTop fNear fFar)
  | initializeOrtho fWidth fHeight fNear fFar => (true, cam.initializeOrtho m fWidth fHeight fNear fFar)
  | setCamera CamDesc => (true, cam.setCamera CamDesc)
  | setProjectionType eProjectionType => (true, cam.setProjectionType eProjectionType)
  | setProjectionCenter eProjectionCenter => (true, cam.setProjectionCenter eProjectionCenter)
  | setAspect fAspect bUpdate => cam.setAspect m fAspect bUpdate
  | setFovX fFovX bUpdate => cam.setFovX m fFovX bUpdate
  | setFovY fFovY bUpdate => cam.setFovY m fFovY bUpdate
  | setViewRange fNear fFar bUpdate => cam.setViewRange m fNear fFar bUpdate
  | setNear fNear bUpdate => cam.setNear m fNear bUpdate
  | setFar fFar bUpdate => cam.setFar m fFar bUpdate

/-- The parameter that a setter sets is equal to its argument. -/
def Holds (desc : CameraDesc F) : Call F → Prop
  | setAspect fAspect _ => desc.fAspect = fAspect
  | setFovX fFovX _ => desc.fFovX = fFovX
  | setFovY fFovY _ => desc.fFovY = fFovY
  | setViewRange fNear fFar _ => desc.fNear = fNear ∧ desc.fFar = fFar
  | setNear fNear _ => desc.fNear = fNear
  | setFar fFar _ => desc.fFar = fFar
  | _ => True

/-- `TRUE` when the parameter was set, and `FALSE` when nothing was changed. -/
def Truthful (m : Libm F) (c : Call F) (cam : CCamera F) : Prop :=
  if (c.perform m cam).1 then c.Holds (c.perform m cam).2.m_CameraDesc
  else (c.perform m cam).2.m_CameraDesc = cam.m_CameraDesc

/-- A setter whose cases are tested in the wrong order of the two enumerations, but for `SetAspect`, which
sets the aspect after them. -/
def Skips : Call F → Prop
  | setFovX _ _ => True
  | setFovY _ _ => True
  | setViewRange _ _ _ => True
  | setNear _ _ => True
  | setFar _ _ => True
  | _ => False

/-- The call comes to a centred orthographic camera that does not have the value already. -/
def Lost (c : Call F) (cam : CCamera F) : Prop :=
  cam.m_bInit = true ∧ cam.m_CameraDesc.eProjectionType = .ortho ∧ cam.m_CameraDesc.eProjectionCenter = .centered ∧
    c.Skips ∧ ¬ c.Holds cam.m_CameraDesc

end Call

/-! ### One call -/

section Finish
variable {cam : CCamera F}

omit [Add F] [Mul F] [Div F] [Neg F] [OfNat F 2]

@[simp] theorem updateProjectionMatrix_m_CameraDesc : cam.updateProjectionMatrix.m_CameraDesc = cam.m_CameraDesc := by
  unfold CCamera.updateProjectionMatrix
  split <;> rfl

@[simp] theorem finish_m_CameraDesc (bUpdate : Bool) (desc : CameraDesc F) :
    (cam.finish bUpdate (some desc)).2.m_CameraDesc = desc := by
  cases bUpdate <;> simp [CCamera.finish, CCamera.withDesc]

omit [Sub F] in
/-- The case for centred orthographic cameras is never taken. -/
theorem byProjection_eq (pc po oc oo : Option (CameraDesc F)) (desc : CameraDesc F) :
    CCamera.byProjection pc po oc oo desc = match desc.eProjectionType, desc.eProjectionCenter with
      | .perspective, .centered => pc
      | .perspective, .offcenter => po
      | .ortho, .centered => some desc
      | .ortho, .offcenter => oo := by
  unfold CCamera.byProjection
  cases desc.eProjectionType <;> cases desc.eProjectionCenter <;> rfl

end Finish

/-- A setter is judged by the description that its cases come to. -/
theorem truthful_iff_answer {m : Libm F} {c : Call F} {cam : CCamera F} {bUpdate : Bool}
    {answer : Option (CameraDesc F)}
    (performs : c.perform m cam = if cam.m_bInit then cam.finish bUpdate answer else (false, cam)) :
    c.Truthful m cam ↔ (cam.m_bInit = true → ∀ desc, answer = some desc → c.Holds desc) := by
  unfold Call.Truthful
  rw [performs]
  cases cam.m_bInit with
  | false => simp
  | true =>
    cases answer with
    | none => simp [CCamera.finish]
    | some desc =>
      simp only [if_true, finish_m_CameraDesc]
      simp [CCamera.finish]

/-- What the cases for the other three projections set is what the call asks for. -/
theorem truthful_iff_of_cases {m : Libm F} {c : Call F} {cam : CCamera F} {bUpdate : Bool}
    {pc po oc oo : Option (CameraDesc F)}
    (performs : c.perform m cam =
      if cam.m_bInit then cam.finish bUpdate (CCamera.byProjection pc po oc oo cam.m_CameraDesc) else (false, cam))
    (skips : c.Skips) (centered : ∀ desc, pc = some desc → c.Holds desc)
    (offcenter : ∀ desc, po = some desc → c.Holds desc) (ortho : ∀ desc, oo = some desc → c.Holds desc) :
    c.Truthful m cam ↔ ¬ c.Lost cam := by
  rw [truthful_iff_answer performs, byProjection_eq]
  unfold Call.Lost
  cases cam.m_CameraDesc.eProjectionType with
  | perspective => cases cam.m_CameraDesc.eProjectionCenter <;> simp_all
  | ortho => cases cam.m_CameraDesc.eProjectionCenter <;> simp_all

theorem truthful_setViewRange {m : Libm F} {c : Call F} {cam : CCamera F} {fNear fFar : F} {bUpdate : Bool}
    (performs : c.perform m cam = cam.setViewRange m fNear fFar bUpdate) (skips : c.Skips)
    (ranged : ∀ desc : CameraDesc F, desc.fNear = fNear → desc.fFar = fFar → c.Holds desc) :
    c.Truthful m cam ↔ ¬ c.Lost cam := by
  refine truthful_iff_of_cases performs skips ?_ ?_ ?_
  all_goals
    intro desc same
    cases same
    exact ranged _ rfl rfl

theorem truthful_iff (m : Libm F) (c : Call F) (cam : CCamera F) : c.Truthful m cam ↔ ¬ c.Lost cam := by
  cases c with
  | setAspect fAspect bUpdate =>
    rw [truthful_iff_answer rfl]
    simp [Call.Lost, Call.Skips, Call.Holds]
  | setFovX fFovX bUpdate =>
    refine truthful_iff_of_cases rfl trivial ?_ ?_ ?_
    all_goals simp [Call.Holds, CCamera.fitHeight, CCamera.fitWidth]
  | setFovY fFovY bUpdate =>
    refine truthful_iff_of_cases rfl trivial ?_ ?_ ?_
    all_goals simp [Call.Holds, CCamera.fitHeight, CCamera.fitWidth]
  | setViewRange fNear fFar bUpdate => exact truthful_setViewRange rfl trivial fun _ near far => ⟨near, far⟩
  | setNear fNear bUpdate => exact truthful_setViewRange rfl trivial fun _ near _ => near
  | setFar fFar bUpdate => exact truthful_setViewRange rfl trivial fun _ _ far => far
  | _ => simp [Call.Truthful, Call.Lost, Call.Holds, Call.perform, Call.Skips]

/-! ### A history -/

def Call.step (m : Libm F) (c : Call F) (cam : CCamera F) : CCamera F := (c.perform m cam).2

/-- The calls that a camera gets, from its constructor or from any state, tell the truth as long as none is
lost. -/
theorem history_truthful_iff (m : Libm F) (cam : CCamera F) (calls : List (Call F)) :
    GoodRun (Call.step m) (Call.Truthful m) cam calls ↔
      GoodRun (Call.step m) (fun c cam => ¬ c.Lost cam) cam calls := by
  induction calls generalizing cam with
  | nil => exact Iff.rfl
  | cons c calls ih => exact and_congr (truthful_iff m c cam) (ih _)

/-- `SetNear` on an orthographic camera returns `TRUE`, and the near plane stays where it was. -/
theorem ortho_near_lost :
    ¬ GoodRun (Call.step ⟨id, id⟩) (Call.Truthful ⟨id, id⟩) (CCamera.construct : CCamera ℚ)
      [.initializeOrtho 2 2 1 100, .setNear 2 true] := by
  intro ⟨_, truthful, _⟩
  rw [truthful_iff] at truthful
  refine truthful ⟨rfl, rfl, rfl, trivial, ?_⟩
  simp [Call.Holds, Call.step, Call.perform, CCamera.initializeOrtho, CCamera.withDesc]

end ModelPublish.Camera
