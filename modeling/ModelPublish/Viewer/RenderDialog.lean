import ModelPublish.Machine.Bracket
import ModelPublish.Machine.Run

/-!
# CRenderDialog

The interaction events that a dialog makes of its mouse messages. What Windows answers while a message is
handled comes with the message.
-/

namespace ModelPublish.Render
open Machine

variable {F : Type}

/-- `INTERACTION_EVENT`. -/
inductive InteractionEvent where
  | mouseEnter
  | mouseLeave
  | mouseLbdown
  | mouseLbup
  | mouseRbdown
  | mouseRbup
  | mouseMove
  | mouseDragStart
  | mouseDragging
  | mouseDragEnd
  | mouseWheel
  deriving DecidableEq

structure ButtonStatus where
  bLButton : Int32
  bRButton : Int32
  bMButton : Int32
  deriving DecidableEq

structure Vector2 (F : Type) where
  x : F
  y : F
  deriving DecidableEq

structure Range (F : Type) where
  fMin : F
  fMax : F
  deriving DecidableEq

structure InteractionMsgData (F : Type) where
  eEvent : InteractionEvent
  ButtonStatus : ButtonStatus
  ptCursor : Vector2 F
  /-- what the handler has written there -/
  nData : Option Int32
  deriving DecidableEq

structure CRenderDialog (F : Type) where
  m_ptCursor : Vector2 F
  m_ButtonStatus : ButtonStatus
  m_bDragging : Int32
  m_HorizRange : Range F
  m_VertRange : Range F
  deriving DecidableEq

/-- What `GetAsyncKeyState` returns for the three buttons. -/
structure KeyStates where
  lButton : Int16
  rButton : Int16
  mButton : Int16
  deriving DecidableEq

def down (keyState : Int16) : Int32 := keyState.toInt32 &&& 0x8000

def KeyStates.buttonStatus (keys : KeyStates) : ButtonStatus :=
  ⟨down keys.lButton, down keys.rButton, down keys.mButton⟩

/-- `bMouseDown`. -/
def KeyStates.mouseDown (keys : KeyStates) : Int32 :=
  0 ||| down keys.lButton ||| down keys.rButton ||| down keys.mButton

def tmeHover : UInt32 := 1
def tmeLeave : UInt32 := 2

/-- `bNewTrack`, from the flags that `TME_QUERY` puts into `dwFlags`. -/
def NewTrack (dwFlags : UInt32) : Prop := dwFlags &&& tmeHover = 0 ∧ dwFlags &&& tmeLeave = 0

instance (dwFlags : UInt32) : Decidable (NewTrack dwFlags) :=
  inferInstanceAs (Decidable (dwFlags &&& tmeHover = 0 ∧ dwFlags &&& tmeLeave = 0))

/-- A mouse message, with the client rectangle, the keys that are sampled, and the flags of the tracking. -/
inductive MouseMessage where
  | mouseMove (point client : Int32 × Int32) (sampled : KeyStates) (dwFlags : UInt32) (keys : KeyStates)
  | lButtonDown (keys : KeyStates)
  | lButtonUp (keys : KeyStates)
  | rButtonDown (keys : KeyStates)
  | rButtonUp (keys : KeyStates)
  | mouseWheel (zDelta : Int16) (keys : KeyStates)
  deriving DecidableEq

namespace CRenderDialog

section Port
variable [Add F] [Sub F] [Mul F] [Div F] [IntCast F]

def screenToRenderPort (dlg : CRenderDialog F) (client : Int32 × Int32) (pt : Vector2 F) : Vector2 F :=
  ⟨pt.x * (dlg.m_HorizRange.fMax - dlg.m_HorizRange.fMin) / (client.1.toInt : F) + dlg.m_HorizRange.fMin,
   pt.y * (dlg.m_VertRange.fMax - dlg.m_VertRange.fMin) / (client.2.toInt : F) + dlg.m_VertRange.fMin⟩

def renderPortToScreen (dlg : CRenderDialog F) (client : Int32 × Int32) (ptPos : Vector2 F) : Vector2 F :=
  ⟨(ptPos.x - dlg.m_HorizRange.fMin) * (client.1.toInt : F) / (dlg.m_HorizRange.fMax - dlg.m_HorizRange.fMin),
   (ptPos.y - dlg.m_VertRange.fMin) * (client.2.toInt : F) / (dlg.m_VertRange.fMax - dlg.m_VertRange.fMin)⟩

def setRange (client : Int32 × Int32) (x1 y1 x2 y2 : F) (dlg : CRenderDialog F) : CRenderDialog F :=
  let pt := dlg.renderPortToScreen client dlg.m_ptCursor
  let dlg := { dlg with m_HorizRange := ⟨x1, x2⟩, m_VertRange := ⟨y1, y2⟩ }
  { dlg with m_ptCursor := dlg.screenToRenderPort client pt }

/-! ### Construction -/

/-- The constructor that takes a template, over what lies in memory: it is the ranges that construct
themselves. -/
def construct (memory : CRenderDialog F) : CRenderDialog F :=
  { memory with
    m_HorizRange := ⟨((0 : Int) : F), ((1 : Int) : F)⟩
    m_VertRange := ⟨((0 : Int) : F), ((1 : Int) : F)⟩ }

/-- The constructor without arguments. -/
def constructDefault (memory : CRenderDialog F) : CRenderDialog F := { construct memory with m_bDragging := 0 }

def preSubclassWindow (client : Int32 × Int32) (dlg : CRenderDialog F) : CRenderDialog F :=
  dlg.setRange client ((0 : Int) : F) ((0 : Int) : F) (client.1.toInt : F) (client.2.toInt : F)

@[simp] theorem preSubclassWindow_m_bDragging (client : Int32 × Int32) (dlg : CRenderDialog F) :
    (dlg.preSubclassWindow client).m_bDragging = dlg.m_bDragging := rfl

end Port

/-! ### The handlers -/

/-- `imd`, which is sent to the callback window and then to the dialog itself. -/
def imd (dlg : CRenderDialog F) (eEvent : InteractionEvent) : InteractionMsgData F :=
  ⟨eEvent, dlg.m_ButtonStatus, dlg.m_ptCursor, none⟩

def getButtonStatus (keys : KeyStates) (dlg : CRenderDialog F) : CRenderDialog F :=
  { dlg with m_ButtonStatus := keys.buttonStatus }

def setDragging (bDragging : Int32) (dlg : CRenderDialog F) : CRenderDialog F := { dlg with m_bDragging := bDragging }

section Move
variable [Add F] [Sub F] [Mul F] [Div F] [IntCast F]

def onMouseMove (point client : Int32 × Int32) (sampled : KeyStates) (dwFlags : UInt32) (keys : KeyStates)
    (dlg : CRenderDialog F) : CRenderDialog F × List (InteractionMsgData F) :=
  let pt := dlg.screenToRenderPort client ⟨(point.1.toInt : F), (point.2.toInt : F)⟩
  let bMouseDown := sampled.mouseDown
  let dlg := { dlg with m_ptCursor := pt }.getButtonStatus keys
  if NewTrack dwFlags then
    (dlg, [dlg.imd .mouseEnter])
  else if dlg.m_bDragging = 0 ∧ bMouseDown ≠ 0 then
    (dlg.setDragging 1, [dlg.imd .mouseDragStart])
  else if dlg.m_bDragging ≠ 0 ∧ bMouseDown = 0 then
    (dlg.setDragging 0, [dlg.imd .mouseDragEnd])
  else if dlg.m_bDragging ≠ 0 ∧ bMouseDown ≠ 0 then
    (dlg, [dlg.imd .mouseDragging])
  else if dlg.m_bDragging = 0 ∧ bMouseDown = 0 then
    (dlg, [dlg.imd .mouseMove])
  else
    (dlg, [])

end Move

def onButtonDown (eEvent : InteractionEvent) (keys : KeyStates) (dlg : CRenderDialog F) :
    CRenderDialog F × List (InteractionMsgData F) :=
  let dlg := dlg.getButtonStatus keys
  (dlg, [dlg.imd eEvent])

def onButtonUp (eEvent : InteractionEvent) (keys : KeyStates) (dlg : CRenderDialog F) :
    CRenderDialog F × List (InteractionMsgData F) :=
  let dlg := dlg.getButtonStatus keys
  if dlg.m_bDragging ≠ 0 then
    (dlg.setDragging 0, [dlg.imd eEvent, dlg.imd .mouseDragEnd])
  else
    (dlg, [dlg.imd eEvent])

def onLButtonDown (keys : KeyStates) (dlg : CRenderDialog F) := dlg.onButtonDown .mouseLbdown keys
def onRButtonDown (keys : KeyStates) (dlg : CRenderDialog F) := dlg.onButtonDown .mouseRbdown keys
def onLButtonUp (keys : KeyStates) (dlg : CRenderDialog F) := dlg.onButtonUp .mouseLbup keys
def onRButtonUp (keys : KeyStates) (dlg : CRenderDialog F) := dlg.onButtonUp .mouseRbup keys

def onMouseWheel (zDelta : Int16) (keys : KeyStates) (dlg : CRenderDialog F) :
    CRenderDialog F × List (InteractionMsgData F) :=
  let dlg := dlg.getButtonStatus keys
  (dlg, [{ dlg.imd .mouseWheel with nData := some zDelta.toInt32 }])

end CRenderDialog

/-! ### The drag -/

/-- What an event has to do with a drag. -/
def InteractionEvent.mark : InteractionEvent → Mark
  | .mouseDragStart => .opens
  | .mouseDragging => .inside
  | .mouseDragEnd => .closes
  | _ => .neutral

def InteractionMsgData.mark (imd : InteractionMsgData F) : Mark := imd.eEvent.mark

@[simp] theorem mark_imd (dlg : CRenderDialog F) (eEvent : InteractionEvent) : (dlg.imd eEvent).mark = eEvent.mark :=
  rfl

@[simp] theorem imd_m_bDragging (dlg : CRenderDialog F) (keys : KeyStates) :
    (dlg.getButtonStatus keys).m_bDragging = dlg.m_bDragging := rfl

@[simp] theorem setDragging_m_bDragging (dlg : CRenderDialog F) (bDragging : Int32) :
    (dlg.setDragging bDragging).m_bDragging = bDragging := rfl

def CRenderDialog.dragging (dlg : CRenderDialog F) : Bool := decide (dlg.m_bDragging ≠ 0)

theorem buttonUp_follow {eEvent : InteractionEvent} (neutral : eEvent.mark = .neutral) (keys : KeyStates)
    (dlg : CRenderDialog F) :
    follow InteractionMsgData.mark dlg.dragging (dlg.onButtonUp eEvent keys).2 =
      some (dlg.onButtonUp eEvent keys).1.dragging := by
  by_cases idle : dlg.m_bDragging = 0
  all_goals simp [CRenderDialog.onButtonUp, CRenderDialog.dragging, idle, follow_cons, neutral,
    show InteractionEvent.mouseDragEnd.mark = .closes from rfl, Mark.next]

section Session
variable [Add F] [Sub F] [Mul F] [Div F] [IntCast F]

def MouseMessage.handle : MouseMessage → CRenderDialog F → CRenderDialog F × List (InteractionMsgData F)
  | .mouseMove point client sampled dwFlags keys => CRenderDialog.onMouseMove point client sampled dwFlags keys
  | .lButtonDown keys => CRenderDialog.onLButtonDown keys
  | .lButtonUp keys => CRenderDialog.onLButtonUp keys
  | .rButtonDown keys => CRenderDialog.onRButtonDown keys
  | .rButtonUp keys => CRenderDialog.onRButtonUp keys
  | .mouseWheel zDelta keys => CRenderDialog.onMouseWheel zDelta keys

/-- A message on which a dialog that is dragging sends an event of the drag. -/
def MouseMessage.Drags : MouseMessage → Prop
  | .mouseMove _ _ _ dwFlags _ => ¬ NewTrack dwFlags
  | .lButtonUp _ => True
  | .rButtonUp _ => True
  | _ => False

/-- A handler takes the drag from where it stands to where it leaves it. -/
theorem handle_follow (m : MouseMessage) (dlg : CRenderDialog F) :
    follow InteractionMsgData.mark dlg.dragging (m.handle dlg).2 = some (m.handle dlg).1.dragging := by
  cases m with
  | mouseMove point client sampled dwFlags keys =>
    by_cases newTrack : NewTrack dwFlags
    · simp only [MouseMessage.handle, CRenderDialog.onMouseMove, if_pos newTrack]
      rfl
    · by_cases idle : dlg.m_bDragging = 0
      all_goals by_cases released : sampled.mouseDown = 0
      all_goals simp [MouseMessage.handle, CRenderDialog.onMouseMove, CRenderDialog.dragging, newTrack, idle, released,
        follow_cons, InteractionEvent.mark, Mark.next]
  | lButtonDown keys => rfl
  | rButtonDown keys => rfl
  | mouseWheel zDelta keys => rfl
  | lButtonUp keys => exact buttonUp_follow rfl keys dlg
  | rButtonUp keys => exact buttonUp_follow rfl keys dlg

theorem handle_silent {m : MouseMessage} {dlg : CRenderDialog F} (silent : ¬ m.Drags) :
    (m.handle dlg).1.m_bDragging = dlg.m_bDragging ∧ ∀ e ∈ (m.handle dlg).2, e.mark = .neutral := by
  cases m with
  | mouseMove point client sampled dwFlags keys =>
    have newTrack : NewTrack dwFlags := Decidable.not_not.mp silent
    simp [MouseMessage.handle, CRenderDialog.onMouseMove, newTrack, InteractionEvent.mark]
  | lButtonDown keys =>
    simp [MouseMessage.handle, CRenderDialog.onLButtonDown, CRenderDialog.onButtonDown, InteractionEvent.mark]
  | rButtonDown keys =>
    simp [MouseMessage.handle, CRenderDialog.onRButtonDown, CRenderDialog.onButtonDown, InteractionEvent.mark]
  | mouseWheel zDelta keys =>
    simp [MouseMessage.handle, CRenderDialog.onMouseWheel, InteractionMsgData.mark, CRenderDialog.imd,
      InteractionEvent.mark]
  | lButtonUp keys => exact absurd trivial silent
  | rButtonUp keys => exact absurd trivial silent

theorem handle_loud {m : MouseMessage} {dlg : CRenderDialog F} (drags : m.Drags) (dragging : dlg.m_bDragging ≠ 0) :
    ∃ e ∈ (m.handle dlg).2, e.mark ≠ .neutral := by
  cases m with
  | mouseMove point client sampled dwFlags keys =>
    have tracked : ¬ NewTrack dwFlags := drags
    by_cases released : sampled.mouseDown = 0
    all_goals simp [MouseMessage.handle, CRenderDialog.onMouseMove, tracked, dragging, released, InteractionEvent.mark]
  | lButtonUp keys =>
    simp [MouseMessage.handle, CRenderDialog.onLButtonUp, CRenderDialog.onButtonUp, dragging, InteractionEvent.mark]
  | rButtonUp keys =>
    simp [MouseMessage.handle, CRenderDialog.onRButtonUp, CRenderDialog.onButtonUp, dragging, InteractionEvent.mark]
  | lButtonDown keys => exact drags.elim
  | rButtonDown keys => exact drags.elim
  | mouseWheel zDelta keys => exact drags.elim

/-! ### A session -/

/-- The dialog after some messages, and what it has sent. -/
def CRenderDialog.session (dlg : CRenderDialog F) : List MouseMessage → CRenderDialog F × List (InteractionMsgData F)
  | [] => (dlg, [])
  | m :: messages =>
    let (dlg, sent) := m.handle dlg
    let (dlg, rest) := dlg.session messages
    (dlg, sent ++ rest)

theorem session_follow (messages : List MouseMessage) (dlg : CRenderDialog F) :
    follow InteractionMsgData.mark dlg.dragging (dlg.session messages).2 = some (dlg.session messages).1.dragging := by
  induction messages generalizing dlg with
  | nil => rfl
  | cons m messages ih =>
    rw [CRenderDialog.session, follow_append, handle_follow]
    exact ih _

/-- A dialog that is dragging from the beginning. -/
theorem session_neutral_iff (messages : List MouseMessage) {dlg : CRenderDialog F} (dragging : dlg.m_bDragging ≠ 0) :
    (∀ e ∈ (dlg.session messages).2, e.mark = .neutral) ↔ ∀ m ∈ messages, ¬ m.Drags := by
  induction messages generalizing dlg with
  | nil => simp [CRenderDialog.session]
  | cons m messages ih =>
    rw [CRenderDialog.session, List.forall_mem_cons]
    by_cases drags : m.Drags
    · obtain ⟨e, sent, loud⟩ := handle_loud drags dragging
      constructor
      · intro neutral
        exact absurd (neutral e (List.mem_append_left _ sent)) loud
      · intro silent
        exact absurd drags silent.1
    · have kept : (m.handle dlg).1.m_bDragging = dlg.m_bDragging ∧ ∀ e ∈ (m.handle dlg).2, e.mark = .neutral :=
        handle_silent drags
      obtain ⟨same, neutral⟩ := kept
      simp only [List.mem_append, or_imp, forall_and, drags, not_false_eq_true, true_and]
      rw [ih (same ▸ dragging)]
      exact and_iff_right neutral

/-- `MOUSE_DRAGGING` and `MOUSE_DRAG_END` only after a `MOUSE_DRAG_START` that was not yet ended, and no
`MOUSE_DRAG_START` before that. -/
def DragsBracketed (sent : List (InteractionMsgData F)) : Prop := WellBracketed InteractionMsgData.mark sent

theorem session_bracketed_iff (messages : List MouseMessage) (dlg : CRenderDialog F) :
    DragsBracketed (dlg.session messages).2 ↔ dlg.m_bDragging = 0 ∨ ∀ m ∈ messages, ¬ m.Drags := by
  have followed := session_follow messages dlg
  rw [DragsBracketed, wellBracketed_iff]
  by_cases idle : dlg.m_bDragging = 0
  · have outside : dlg.dragging = false := by simp [CRenderDialog.dragging, idle]
    rw [outside] at followed
    simp [followed, idle]
  · have inside : dlg.dragging = true := by simp [CRenderDialog.dragging, idle]
    rw [inside] at followed
    rw [← session_neutral_iff messages idle, or_iff_right idle]
    constructor
    · intro ⟨isOpen, accepted⟩
      exact follow_both followed accepted
    · intro neutral
      exact ⟨false, follow_neutral false neutral⟩

/-- The drags of a dialog that the constructor with a template has built, over what lies in memory. -/
theorem construct_bracketed_iff (memory : CRenderDialog F) (client : Int32 × Int32) (messages : List MouseMessage) :
    DragsBracketed ((memory.construct.preSubclassWindow client).session messages).2 ↔
      memory.m_bDragging = 0 ∨ ∀ m ∈ messages, ¬ m.Drags :=
  session_bracketed_iff messages _

/-- The sibling that clears the flag has no such condition. -/
theorem constructDefault_bracketed (memory : CRenderDialog F) (client : Int32 × Int32)
    (messages : List MouseMessage) :
    DragsBracketed ((memory.constructDefault.preSubclassWindow client).session messages).2 :=
  (session_bracketed_iff messages _).mpr (Or.inl rfl)

/-- Memory in which the flag is not zero. -/
def stale : CRenderDialog ℚ := ⟨⟨0, 0⟩, ⟨0, 0, 0⟩, 1, ⟨0, 1⟩, ⟨0, 1⟩⟩

def released : KeyStates := ⟨0, 0, 0⟩

/-- A button that goes up, or the first tracked move, ends a drag that was never started. -/
theorem stale_drag : ¬ DragsBracketed ((stale.construct.preSubclassWindow (640, 480)).session
    [.lButtonUp released]).2 := by
  rw [session_bracketed_iff]
  simp [stale, CRenderDialog.construct, MouseMessage.Drags]

end Session
end ModelPublish.Render
