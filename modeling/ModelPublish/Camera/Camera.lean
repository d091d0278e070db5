import ModelPublish.Machine.Run

/-!
# CCamera

The description of a camera and the projection it asks Direct3D for. The arithmetic of the floats is that of
`F`, and what `tanf` and `atanf` compute is given.
-/

namespace ModelPublish.Camera

inductive CameraMode where
  | free
  | target
  deriving DecidableEq

inductive ProjectionType where
  | perspective
  | ortho
  deriving DecidableEq

inductive ProjectionCenter where
  | centered
  | offcenter
  deriving DecidableEq

def ProjectionType.value : ProjectionType → Int32
  | perspective => 0
  | ortho => 1

def ProjectionCenter.value : ProjectionCenter → Int32
  | centered => 0
  | offcenter => 1

structure Vector3 (F : Type) where
  x : F
  y : F
  z : F
  deriving DecidableEq

structure CameraDesc (F : Type) where
  eMode : CameraMode
  eProjectionType : ProjectionType
  eProjectionCenter : ProjectionCenter
  ptPos : Vector3 F
  ptTarget : Vector3 F
  fYaw : F
  fPitch : F
  fRoll : F
  fFovX : F
  fFovY : F
  fNear : F
  fFar : F
  fAspect : F
  fLeft : F
  fRight : F
  fBottom : F
  fTop : F
  deriving DecidableEq

/-- What is asked of D3DX for the projection matrix. -/
inductive Projection (F : Type) where
  | identity
  | perspectiveFovLH (fovy aspect zn zf : F)
  | perspectiveOffCenterLH (l r b t zn zf : F)
  | orthoLH (w h zn zf : F)
  | orthoOffCenterLH (l r b t zn zf : F)
  deriving DecidableEq

structure CCamera (F : Type) where
  m_bInit : Bool
  m_matProj : Projection F
  m_CameraDesc : CameraDesc F
  deriving DecidableEq

structure Libm (F : Type) where
  tanf : F → F
  atanf : F → F

variable {F : Type} [Add F] [Sub F] [Mul F] [Div F] [Neg F] [OfNat F 2]

namespace CCamera

/-- The constructor. -/
def construct [OfNat F 0] : CCamera F :=
  { m_bInit := false
    m_matProj := .identity
    m_CameraDesc := ⟨.free, .perspective, .centered, ⟨0, 0, 0⟩, ⟨0, 0, 0⟩, 0, 0, 0, 0, 0, 0, 0, 0, 0, 0, 0, 0⟩ }

/-- The view matrix, the direction and the frustum are not part of the description. -/
def updateProjectionMatrix (cam : CCamera F) : CCamera F :=
  let d := cam.m_CameraDesc
  if cam.m_bInit then
    { cam with
      m_matProj := match d.eProjectionType, d.eProjectionCenter with
        | .perspective, .centered => .perspectiveFovLH d.fFovY d.fAspect d.fNear d.fFar
        | .perspective, .offcenter => .perspectiveOffCenterLH d.fLeft d.fRight d.fBottom d.fTop d.fNear d.fFar
        | .ortho, .centered => .orthoLH (d.fRight - d.fLeft) (d.fTop - d.fBottom) d.fNear d.fFar
        | .ortho, .offcenter => .orthoOffCenterLH d.fLeft d.fRight d.fBottom d.fTop d.fNear d.fFar }
  else
    cam

/-- `UpdateMatrixes`, whose flags always ask for the projection. -/
def updateMatrixes (cam : CCamera F) : CCamera F := cam.updateProjectionMatrix

def withDesc (desc : CameraDesc F) (cam : CCamera F) : CCamera F := { cam with m_CameraDesc := desc }

/-! ### Initialisation -/

/-- `Initialize` with a field of view. -/
def initializeFov (m : Libm F) (fFovX fAspect fNear fFar : F) (cam : CCamera F) : CCamera F :=
  let fFovY := 2 * m.atanf (m.tanf (fFovX / 2) / fAspect)
  let fRight := fNear * m.tanf (fFovX / 2)
  let fTop := fNear * m.tanf (fFovY / 2)
  let desc := { cam.m_CameraDesc with
    fNear, fFar, fFovX, fAspect, fFovY, fRight, fTop
    fLeft := -fRight
    fBottom := -fTop
    eProjectionType := .perspective
    eProjectionCenter := .centered }
  { cam.withDesc desc with m_bInit := true }.updateProjectionMatrix

/-- `Initialize` with four sides. -/
def initializeOffCenter (m : Libm F) (fLeft fRight fBottom fTop fNear fFar : F) (cam : CCamera F) : CCamera F :=
  let fFovRight := 2 * m.atanf (fRight / fNear)
  let fFovLeft := 2 * m.atanf (-fLeft / fNear)
  let fFovBottom := 2 * m.atanf (-fBottom / fNear)
  let fFovTop := 2 * m.atanf (fTop / fNear)
  let desc := { cam.m_CameraDesc with
    fLeft, fRight, fBottom, fTop, fNear, fFar
    fAspect := (fRight - fLeft) / (fTop - fBottom)
    fFovX := fFovLeft + fFovRight
    fFovY := fFovBottom + fFovTop
    eProjectionType := .perspective
    eProjectionCenter := .offcenter }
  { cam.withDesc desc with m_bInit := true }.updateProjectionMatrix

def initializeOrtho (m : Libm F) (fWidth fHeight fNear fFar : F) (cam : CCamera F) : CCamera F :=
  let desc := { cam.m_CameraDesc with
    fNear, fFar
    fAspect := fWidth / fHeight
    fFovX := 2 * m.atanf (fWidth / 2 / fNear)
    fFovY := 2 * m.atanf (fHeight / 2 / fNear)
    fRight := fWidth / 2
    fLeft := -fWidth / 2
    fTop := fHeight / 2
    fBottom := -fHeight / 2
    eProjectionType := .ortho
    eProjectionCenter := .centered }
  { cam.withDesc desc with m_bInit := true }.updateProjectionMatrix

def setCamera (CamDesc : CameraDesc F) (cam : CCamera F) : CCamera F :=
  { cam.withDesc CamDesc with m_bInit := true }.updateMatrixes

def setProjectionType (eProjectionType : ProjectionType) (cam : CCamera F) : CCamera F :=
  (cam.withDesc { cam.m_CameraDesc with eProjectionType }).updateMatrixes

def setProjectionCenter (eProjectionCenter : ProjectionCenter) (cam : CCamera F) : CCamera F :=
  (cam.withDesc { cam.m_CameraDesc with eProjectionCenter }).updateMatrixes

/-! ### The setters -/

/-- The case tree that the setters share, where `none` is a return of `FALSE`. The third test is of the
centre against `PROJECTION_ORTHO`, and a camera that no case takes is left as it is. -/
def byProjection (perspectiveCentered perspectiveOffcenter orthoCentered orthoOffcenter : Option (CameraDesc F))
    (desc : CameraDesc F) : Option (CameraDesc F) :=
  if desc.eProjectionType = .perspective then
    match desc.eProjectionCenter with
    | .centered => perspectiveCentered
    | .offcenter => perspectiveOffcenter
  else if desc.eProjectionCenter.value = ProjectionType.ortho.value then
    match desc.eProjectionCenter with
    | .centered => orthoCentered
    | .offcenter => orthoOffcenter
  else
    some desc

/-- How a setter ends. -/
def finish (bUpdate : Bool) (cam : CCamera F) : Option (CameraDesc F) → Bool × CCamera F
  | none => (false, cam)
  | some desc => (true, if bUpdate then (cam.withDesc desc).updateProjectionMatrix else cam.withDesc desc)

/-- `fTop` and `fBottom`, from the height of the field of view. -/
def fitHeight (m : Libm F) (desc : CameraDesc F) : CameraDesc F :=
  let fTop := desc.fNear * m.tanf (desc.fFovY / 2)
  { desc with fTop, fBottom := -fTop }

/-- `fRight` and `fLeft`, from the width of the field of view. -/
def fitWidth (m : Libm F) (desc : CameraDesc F) : CameraDesc F :=
  let fRight := desc.fNear * m.tanf (desc.fFovX / 2)
  { desc with fRight, fLeft := -fRight }

def setAspect (m : Libm F) (fAspect : F) (bUpdate : Bool) (cam : CCamera F) : Bool × CCamera F :=
  let desc := cam.m_CameraDesc
  let fitted := fitHeight m { desc with fAspect, fFovY := 2 * m.atanf (m.tanf (desc.fFovX / 2) / fAspect) }
  if cam.m_bInit then
    cam.finish bUpdate ((byProjection (some fitted) none none none desc).map fun desc => { desc with fAspect })
  else
    (false, cam)

def setFovX (m : Libm F) (fFovX : F) (bUpdate : Bool) (cam : CCamera F) : Bool × CCamera F :=
  let desc := cam.m_CameraDesc
  let fFovY := 2 * m.atanf (m.tanf (fFovX / 2) / desc.fAspect)
  let fitted := fitHeight m (fitWidth m { desc with fFovX, fFovY })
  if cam.m_bInit then
    cam.finish bUpdate (byProjection (some fitted) none (some fitted) none desc)
  else
    (false, cam)

def setFovY (m : Libm F) (fFovY : F) (bUpdate : Bool) (cam : CCamera F) : Bool × CCamera F :=
  let desc := cam.m_CameraDesc
  let fFovX := 2 * m.atanf (m.tanf (fFovY / 2) * desc.fAspect)
  let fitted := fitHeight m (fitWidth m { desc with fFovX, fFovY })
  if cam.m_bInit then
    cam.finish bUpdate (byProjection (some fitted) none (some fitted) none desc)
  else
    (false, cam)

def setViewRange (m : Libm F) (fNear fFar : F) (bUpdate : Bool) (cam : CCamera F) : Bool × CCamera F :=
  let ranged := { cam.m_CameraDesc with fNear, fFar }
  let fFovRight := 2 * m.atanf (ranged.fRight / fNear)
  let fFovLeft := 2 * m.atanf (-ranged.fLeft / fNear)
  let fFovBottom := 2 * m.atanf (-ranged.fBottom / fNear)
  let fFovTop := 2 * m.atanf (ranged.fTop / fNear)
  let viewed := { ranged with fFovX := fFovLeft + fFovRight, fFovY := fFovBottom + fFovTop }
  if cam.m_bInit then
    cam.finish bUpdate
      (byProjection (some ranged) (some viewed) (some ranged) (some ranged) cam.m_CameraDesc)
  else
    (false, cam)

/-- The flag is not passed on. -/
def setNear (m : Libm F) (fNear : F) (_bUpdate : Bool) (cam : CCamera F) : Bool × CCamera F :=
  cam.setViewRange m fNear cam.m_CameraDesc.fFar true

def setFar (m : Libm F) (fFar : F) (_bUpdate : Bool) (cam : CCamera F) : Bool × CCamera F :=
  cam.setViewRange m cam.m_CameraDesc.fNear fFar true

end CCamera
end ModelPublish.Camera
