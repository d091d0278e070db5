import ModelPublish.Camera.Setters

/-!
# The extents of a camera

Over the reals: whether the sides of the near plane stay what the field of view makes them, and so whether the
frustum stays the same when the projection is taken off the centre.
-/

namespace ModelPublish.Camera
open Machine

/-- A tangent and its inverse. -/
structure Trig where
  tan : ℝ → ℝ
  atan : ℝ → ℝ
  tan_atan : ∀ x, tan (atan x) = x
  atan_tan : ∀ x, -(Real.pi / 2) < x → x < Real.pi / 2 → atan (tan x) = x

def Trig.libm (t : Trig) : Libm ℝ := ⟨t.tan, t.atan⟩

/-- The matrices of a projection, as far as a camera with perspective needs those that D3DX documents. -/
structure Documented (trig : Trig) (matrix : Projection ℝ → Matrix (Fin 4) (Fin 4) ℝ) : Prop where
  perspectiveFovLH : ∀ fovy aspect zn zf, matrix (.perspectiveFovLH fovy aspect zn zf) =
    !![1 / trig.tan (fovy / 2) / aspect, 0, 0, 0;
       0, 1 / trig.tan (fovy / 2), 0, 0;
       0, 0, zf / (zf - zn), 1;
       0, 0, -zn * zf / (zf - zn), 0]
  perspectiveOffCenterLH : ∀ l r b t zn zf, matrix (.perspectiveOffCenterLH l r b t zn zf) =
    !![2 * zn / (r - l), 0, 0, 0;
       0, 2 * zn / (t - b), 0, 0;
       (l + r) / (l - r), (t + b) / (b - t), zf / (zf - zn), 1;
       0, 0, zn * zf / (zn - zf), 0]

section Extents
variable (trig : Trig) (matrix : Projection ℝ → Matrix (Fin 4) (Fin 4) ℝ)

/-- The sides of the near plane are those of the field of view. -/
structure Fits (d : CameraDesc ℝ) : Prop where
  right : d.fRight = d.fNear * trig.tan (d.fFovX / 2)
  top : d.fTop = d.fNear * trig.tan (d.fFovY / 2)
  left : d.fLeft = -d.fRight
  bottom : d.fBottom = -d.fTop
  ratio : trig.tan (d.fFovX / 2) = d.fAspect * trig.tan (d.fFovY / 2)

/-- The projection is the same when the centre is given by the sides. -/
def SameFrustum (cam : CCamera ℝ) : Prop :=
  matrix (cam.setProjectionCenter .offcenter).m_matProj = matrix (cam.setProjectionCenter .centered).m_matProj

/-- A centred perspective camera, with an aspect and a near plane. -/
structure Centred (cam : CCamera ℝ) : Prop where
  init : cam.m_bInit = true
  type : cam.m_CameraDesc.eProjectionType = .perspective
  center : cam.m_CameraDesc.eProjectionCenter = .centered
  aspect : 0 < cam.m_CameraDesc.fAspect
  near : 0 < cam.m_CameraDesc.fNear

/-! ### The frustum -/

section Same
variable {trig : Trig} {matrix : Projection ℝ → Matrix (Fin 4) (Fin 4) ℝ} {cam : CCamera ℝ}

theorem two_near_div {near tangent : ℝ} (apart : near ≠ 0) : 2 * near / (2 * (near * tangent)) = 1 / tangent := by
  rw [mul_div_mul_left _ _ two_ne_zero, div_mul_cancel_left₀ apart, one_div]

theorem sameFrustum_of_fits (documented : Documented trig matrix) (base : Centred cam)
    (fits : Fits trig cam.m_CameraDesc) : SameFrustum matrix cam := by
  obtain ⟨right, top, left, bottom, ratio⟩ := fits
  have wide : cam.m_CameraDesc.fRight - cam.m_CameraDesc.fLeft =
      2 * (cam.m_CameraDesc.fNear * trig.tan (cam.m_CameraDesc.fFovX / 2)) := by
    rw [left, right]
    ring
  have high : cam.m_CameraDesc.fTop - cam.m_CameraDesc.fBottom =
      2 * (cam.m_CameraDesc.fNear * trig.tan (cam.m_CameraDesc.fFovY / 2)) := by
    rw [bottom, top]
    ring
  have xScale : 2 * cam.m_CameraDesc.fNear / (cam.m_CameraDesc.fRight - cam.m_CameraDesc.fLeft) =
      1 / trig.tan (cam.m_CameraDesc.fFovY / 2) / cam.m_CameraDesc.fAspect := by
    rw [wide, two_near_div base.near.ne', ratio, div_div, mul_comm]
  have yScale : 2 * cam.m_CameraDesc.fNear / (cam.m_CameraDesc.fTop - cam.m_CameraDesc.fBottom) =
      1 / trig.tan (cam.m_CameraDesc.fFovY / 2) := by
    rw [high, two_near_div base.near.ne']
  have middle : cam.m_CameraDesc.fLeft + cam.m_CameraDesc.fRight = 0 := by
    rw [left, neg_add_cancel]
  have level : cam.m_CameraDesc.fTop + cam.m_CameraDesc.fBottom = 0 := by
    rw [bottom, add_neg_cancel]
  have depth : cam.m_CameraDesc.fNear * cam.m_CameraDesc.fFar / (cam.m_CameraDesc.fNear - cam.m_CameraDesc.fFar) =
      -cam.m_CameraDesc.fNear * cam.m_CameraDesc.fFar / (cam.m_CameraDesc.fFar - cam.m_CameraDesc.fNear) := by
    rw [← neg_sub, div_neg, neg_mul, neg_div]
  simp only [SameFrustum, CCamera.setProjectionCenter, CCamera.updateMatrixes, CCamera.updateProjectionMatrix,
    CCamera.withDesc, base.init, base.type, if_true, documented.perspectiveFovLH,
    documented.perspectiveOffCenterLH, xScale, yScale, middle, level, depth, zero_div]

end Same

/-! ### The setters -/

/-- What a setter makes of the description of a centred perspective camera. -/
def Call.fitted {F : Type} [Mul F] [Div F] [Neg F] [OfNat F 2] (m : Libm F) (d : CameraDesc F) :
    Call F → CameraDesc F
  | .setAspect fAspect _ =>
    CCamera.fitHeight m { d with fAspect, fFovY := 2 * m.atanf (m.tanf (d.fFovX / 2) / fAspect) }
  | .setFovX fFovX _ =>
    CCamera.fitHeight m (CCamera.fitWidth m
      { d with fFovX, fFovY := 2 * m.atanf (m.tanf (fFovX / 2) / d.fAspect) })
  | .setFovY fFovY _ =>
    CCamera.fitHeight m (CCamera.fitWidth m
      { d with fFovX := 2 * m.atanf (m.tanf (fFovY / 2) * d.fAspect), fFovY })
  | .setViewRange fNear fFar _ => { d with fNear, fFar }
  | .setNear fNear _ => { d with fNear }
  | .setFar fFar _ => { d with fFar }
  | _ => d

/-- A setter, with an aspect and a near plane that are positive. -/
def Call.Sets : Call ℝ → Prop
  | .setAspect fAspect _ => 0 < fAspect
  | .setFovX _ _ => True
  | .setFovY _ _ => True
  | .setViewRange fNear _ _ => 0 < fNear
  | .setNear fNear _ => 0 < fNear
  | .setFar _ _ => True
  | _ => False

/-- The call moves the near plane of a field of view that is not closed. -/
def Call.MovesNear (c : Call ℝ) (cam : CCamera ℝ) : Prop :=
  trig.tan (cam.m_CameraDesc.fFovX / 2) ≠ 0 ∧
    match c with
    | .setViewRange fNear _ _ => fNear ≠ cam.m_CameraDesc.fNear
    | .setNear fNear _ => fNear ≠ cam.m_CameraDesc.fNear
    | _ => False

@[simp] theorem updateProjectionMatrix_m_bInit (cam : CCamera ℝ) :
    cam.updateProjectionMatrix.m_bInit = cam.m_bInit := by
  unfold CCamera.updateProjectionMatrix
  split <;> rfl

theorem finish_m_bInit (bUpdate : Bool) (desc : CameraDesc ℝ) (cam : CCamera ℝ) :
    (cam.finish bUpdate (some desc)).2.m_bInit = cam.m_bInit := by
  cases bUpdate <;> simp [CCamera.finish, CCamera.withDesc]

section Step
variable {trig : Trig} {cam : CCamera ℝ}

theorem byProjection_centred (base : Centred cam) (pc po oc oo : Option (CameraDesc ℝ)) :
    CCamera.byProjection pc po oc oo cam.m_CameraDesc = pc := by
  rw [byProjection_eq, base.type, base.center]

theorem step_centred (trig : Trig) (base : Centred cam) {c : Call ℝ} (sets : c.Sets) :
    (c.step trig.libm cam).m_bInit = true ∧
      (c.step trig.libm cam).m_CameraDesc = c.fitted trig.libm cam.m_CameraDesc := by
  cases c with
  | setAspect fAspect bUpdate =>
    simp only [Call.step, Call.perform, CCamera.setAspect, base.init, if_true, byProjection_centred base,
      Option.map_some, finish_m_bInit, finish_m_CameraDesc]
    exact ⟨trivial, rfl⟩
  | setFovX fFovX bUpdate =>
    simp only [Call.step, Call.perform, CCamera.setFovX, base.init, if_true, byProjection_centred base,
      finish_m_bInit, finish_m_CameraDesc]
    exact ⟨trivial, rfl⟩
  | setFovY fFovY bUpdate =>
    simp only [Call.step, Call.perform, CCamera.setFovY, base.init, if_true, byProjection_centred base,
      finish_m_bInit, finish_m_CameraDesc]
    exact ⟨trivial, rfl⟩
  | setViewRange fNear fFar bUpdate =>
    simp only [Call.step, Call.perform, CCamera.setViewRange, base.init, if_true, byProjection_centred base,
      finish_m_bInit, finish_m_CameraDesc]
    exact ⟨trivial, rfl⟩
  | setNear fNear bUpdate =>
    simp only [Call.step, Call.perform, CCamera.setNear, CCamera.setViewRange, base.init, if_true,
      byProjection_centred base, finish_m_bInit, finish_m_CameraDesc]
    exact ⟨trivial, rfl⟩
  | setFar fFar bUpdate =>
    simp only [Call.step, Call.perform, CCamera.setFar, CCamera.setViewRange, base.init, if_true,
      byProjection_centred base, finish_m_bInit, finish_m_CameraDesc]
    exact ⟨trivial, rfl⟩
  | _ => exact sets.elim

theorem centred_step (base : Centred cam) {c : Call ℝ} (sets : c.Sets) : Centred (c.step trig.libm cam) := by
  obtain ⟨init, desc⟩ := step_centred trig base sets
  obtain ⟨_, type, center, aspect, near⟩ := base
  refine ⟨init, ?_, ?_, ?_, ?_⟩
  all_goals rw [desc]
  all_goals cases c
  all_goals assumption

theorem tan_twice_atan (x : ℝ) : trig.tan (2 * trig.atan x / 2) = x := by
  rw [mul_div_cancel_left₀ _ two_ne_zero, trig.tan_atan]

/-- The sides fit another near plane only when the field of view is closed. -/
theorem fits_near_iff (base : Centred cam) (fits : Fits trig cam.m_CameraDesc) (fNear fFar : ℝ) :
    Fits trig { cam.m_CameraDesc with fNear, fFar } ↔
      ¬ (trig.tan (cam.m_CameraDesc.fFovX / 2) ≠ 0 ∧ fNear ≠ cam.m_CameraDesc.fNear) := by
  obtain ⟨right, top, left, bottom, ratio⟩ := fits
  constructor
  · intro moved ⟨wide, apart⟩
    have sides := moved.right.symm.trans right
    exact apart (mul_right_cancel₀ wide sides)
  · intro still
    by_cases same : fNear = cam.m_CameraDesc.fNear
    · subst same
      exact ⟨right, top, left, bottom, ratio⟩
    · have closed : trig.tan (cam.m_CameraDesc.fFovX / 2) = 0 := by
        by_contra wide
        exact still ⟨wide, same⟩
      have flat : trig.tan (cam.m_CameraDesc.fFovY / 2) = 0 := by
        rw [closed, zero_eq_mul] at ratio
        exact ratio.resolve_left base.aspect.ne'
      refine ⟨?_, ?_, left, bottom, ratio⟩
      · simp only [right, closed, mul_zero]
      · simp only [top, flat, mul_zero]

/-- A setter keeps the sides in place exactly when it does not move the near plane. -/
theorem fits_fitted_iff (base : Centred cam) (fits : Fits trig cam.m_CameraDesc) {c : Call ℝ} (sets : c.Sets) :
    Fits trig (c.fitted trig.libm cam.m_CameraDesc) ↔ ¬ c.MovesNear trig cam := by
  obtain ⟨right, top, left, bottom, ratio⟩ := fits
  cases c with
  | setAspect fAspect bUpdate =>
    have positive : fAspect ≠ 0 := sets.ne'
    refine iff_of_true ⟨right, rfl, left, rfl, ?_⟩ fun moves => moves.2
    change trig.tan (cam.m_CameraDesc.fFovX / 2) =
      fAspect * trig.tan (2 * trig.atan (trig.tan (cam.m_CameraDesc.fFovX / 2) / fAspect) / 2)
    rw [tan_twice_atan, mul_div_cancel₀ _ positive]
  | setFovX fFovX bUpdate =>
    refine iff_of_true ⟨rfl, rfl, rfl, rfl, ?_⟩ fun moves => moves.2
    change trig.tan (fFovX / 2) = cam.m_CameraDesc.fAspect *
      trig.tan (2 * trig.atan (trig.tan (fFovX / 2) / cam.m_CameraDesc.fAspect) / 2)
    rw [tan_twice_atan, mul_div_cancel₀ _ base.aspect.ne']
  | setFovY fFovY bUpdate =>
    refine iff_of_true ⟨rfl, rfl, rfl, rfl, ?_⟩ fun moves => moves.2
    change trig.tan (2 * trig.atan (trig.tan (fFovY / 2) * cam.m_CameraDesc.fAspect) / 2) =
      cam.m_CameraDesc.fAspect * trig.tan (fFovY / 2)
    rw [tan_twice_atan, mul_comm]
  | setViewRange fNear fFar bUpdate => exact fits_near_iff base ⟨right, top, left, bottom, ratio⟩ fNear fFar
  | setNear fNear bUpdate => exact fits_near_iff base ⟨right, top, left, bottom, ratio⟩ fNear _
  | setFar fFar bUpdate => exact iff_of_true ⟨right, top, left, bottom, ratio⟩ fun moves => moves.2
  | _ => exact sets.elim

end Step

/-! ### A history -/

theorem fits_initializeFov (cam : CCamera ℝ) (fFovX fFar : ℝ) {fAspect fNear : ℝ} (aspect : 0 < fAspect)
    (near : 0 < fNear) :
    Centred (cam.initializeFov trig.libm fFovX fAspect fNear fFar) ∧
      Fits trig (cam.initializeFov trig.libm fFovX fAspect fNear fFar).m_CameraDesc := by
  unfold CCamera.initializeFov
  refine ⟨⟨?_, ?_, ?_, ?_, ?_⟩, ?_⟩
  all_goals simp only [updateProjectionMatrix_m_bInit, updateProjectionMatrix_m_CameraDesc, CCamera.withDesc]
  · exact aspect
  · exact near
  · refine ⟨rfl, rfl, rfl, rfl, ?_⟩
    change trig.tan (fFovX / 2) = fAspect * trig.tan (2 * trig.atan (trig.tan (fFovX / 2) / fAspect) / 2)
    rw [tan_twice_atan, mul_div_cancel₀ _ aspect.ne']

/-- The sides fit, and the frustum does not depend on how the projection is given. -/
def Consistent (cam : CCamera ℝ) : Prop := Fits trig cam.m_CameraDesc ∧ SameFrustum matrix cam

/-- A camera from `Initialize` with a field of view stays consistent exactly as long as no setter moves its near
plane. -/
theorem extents_consistent_iff (documented : Documented trig matrix) (cam : CCamera ℝ) {fFovX fAspect fNear fFar : ℝ}
    (aspect : 0 < fAspect) (near : 0 < fNear) (calls : List (Call ℝ)) (sets : ∀ c ∈ calls, c.Sets) :
    (∀ before, before <+: calls →
      Consistent trig matrix
        (run (Call.step trig.libm) (cam.initializeFov trig.libm fFovX fAspect fNear fFar) before)) ↔
      GoodRun (Call.step trig.libm) (fun c cam => ¬ c.MovesNear trig cam)
        (cam.initializeFov trig.libm fFovX fAspect fNear fFar) calls := by
  obtain ⟨base, fits⟩ := fits_initializeFov trig cam fFovX fFar aspect near
  refine prefix_iff_goodRun Centred ?_ ?_ base ⟨fits, sameFrustum_of_fits documented base fits⟩
  · exact fun c member cam base => centred_step base (sets c member)
  · intro c member cam base ⟨fits, _⟩
    rw [← fits_fitted_iff base fits (sets c member), ← (step_centred trig base (sets c member)).2]
    exact and_iff_left_of_imp (sameFrustum_of_fits documented (centred_step base (sets c member)))

end Extents

/-- The tangent of the reals. -/
noncomputable def realTrig : Trig :=
  ⟨Real.tan, Real.arctan, Real.tan_arctan, fun _ above below => Real.arctan_tan above below⟩

noncomputable def realMatrix : Projection ℝ → Matrix (Fin 4) (Fin 4) ℝ
  | .identity => 1
  | .perspectiveFovLH fovy aspect zn zf =>
    !![1 / Real.tan (fovy / 2) / aspect, 0, 0, 0;
       0, 1 / Real.tan (fovy / 2), 0, 0;
       0, 0, zf / (zf - zn), 1;
       0, 0, -zn * zf / (zf - zn), 0]
  | .perspectiveOffCenterLH l r b t zn zf =>
    !![2 * zn / (r - l), 0, 0, 0;
       0, 2 * zn / (t - b), 0, 0;
       (l + r) / (l - r), (t + b) / (b - t), zf / (zf - zn), 1;
       0, 0, zn * zf / (zn - zf), 0]
  | .orthoLH w h zn zf =>
    !![2 / w, 0, 0, 0;
       0, 2 / h, 0, 0;
       0, 0, 1 / (zf - zn), 0;
       0, 0, zn / (zn - zf), 1]
  | .orthoOffCenterLH l r b t zn zf =>
    !![2 / (r - l), 0, 0, 0;
       0, 2 / (t - b), 0, 0;
       0, 0, 1 / (zf - zn), 0;
       (l + r) / (l - r), (t + b) / (b - t), zn / (zn - zf), 1]

theorem realMatrix_documented : Documented realTrig realMatrix := ⟨fun _ _ _ _ => rfl, fun _ _ _ _ _ _ => rfl⟩

theorem extents_wide :
    GoodRun (Call.step realTrig.libm) (fun c cam => ¬ c.MovesNear realTrig cam)
        (CCamera.construct.initializeFov realTrig.libm 1 1 1 100) [.setFovX 1 true, .setAspect 2 true] ∧
      ∀ before, before <+: [.setFovX 1 true, .setAspect 2 true] → Consistent realTrig realMatrix
        (run (Call.step realTrig.libm) (CCamera.construct.initializeFov realTrig.libm 1 1 1 100) before) := by
  have still : GoodRun (Call.step realTrig.libm) (fun c cam => ¬ c.MovesNear realTrig cam)
      (CCamera.construct.initializeFov realTrig.libm 1 1 1 100) [.setFovX 1 true, .setAspect 2 true] :=
    ⟨fun moves => moves.2, fun moves => moves.2, trivial⟩
  exact ⟨still, (extents_consistent_iff realTrig realMatrix realMatrix_documented CCamera.construct (by norm_num)
    (by norm_num) _ (by simp [Call.Sets])).mpr still⟩

/-- A right angle from a near plane at 1, which is then moved to 2. -/
theorem near_moved_inconsistent :
    ¬ ∀ before, before <+: [.setNear 2 true] → Consistent realTrig realMatrix
      (run (Call.step realTrig.libm) (CCamera.construct.initializeFov realTrig.libm (Real.pi / 2) 1 1 100) before) := by
  intro consistent
  obtain ⟨base, fits⟩ := fits_initializeFov realTrig CCamera.construct (Real.pi / 2) 100 one_pos one_pos
  have sets : Call.Sets (.setNear 2 true) := two_pos
  have moved := (consistent [.setNear 2 true] List.prefix_rfl).1
  rw [run_cons, run_nil, (step_centred realTrig base sets).2, fits_fitted_iff base fits sets] at moved
  apply moved
  have wide : Real.tan (Real.pi / 2 / 2) ≠ 0 := by
    rw [div_div, show (2 * 2 : ℝ) = 4 by norm_num, Real.tan_pi_div_four]
    exact one_ne_zero
  simp [Call.MovesNear, CCamera.initializeFov, CCamera.withDesc, realTrig, wide]

end ModelPublish.Camera
