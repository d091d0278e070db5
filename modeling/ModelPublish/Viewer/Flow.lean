import ModelPublish.Viewer.Dialog

/-!
# Slots and messages

How far each download of one `Load3DScanFromUrl` has come, whatever the order of the threads and the window.
-/

namespace ModelPublish.Viewer
open Cache CModelCache Scan

variable {Shader Texture : Type}

namespace Downloads

def block (D : Downloads) : Kind → Block
  | .info => D.info
  | .model => D.model
  | .ad => D.ad

def callback (D : Downloads) : Kind → List Statement
  | .info => myInfoCallback D.info D.iFileSize
  | .model => myModelCallback D.model
  | .ad => myAdCallback D.ad D.strAdUrl

/-- The message that a callback posts. -/
def message (D : Downloads) : Kind → Message
  | .info => .modelInfo D.iFileSize
  | .model => .modelDownloaded 0
  | .ad => .adDownloaded 0

@[simp] theorem kind_message (D : Downloads) (k : Kind) : (D.message k).kind = k := by cases k <;> rfl

theorem callback_ne_nil (D : Downloads) (k : Kind) : D.callback k ≠ [] := by cases k <;> nofun

theorem callback_eq (D : Downloads) (k : Kind) :
    D.callback k = .setData (D.block k) :: (D.callback k).tail := by cases k <;> rfl

end Downloads

/-- The messages about a slot that wait. -/
def World.mail (w : World Texture) (k : Kind) : List Message := w.queue.filter fun message => message.kind = k

/-- A message about what the cache left in a slot. -/
def Message.FromCache : Message → Prop
  | .modelInfo _ => False
  | .modelDownloaded lParam => lParam = 1
  | .adDownloaded lParam => lParam = 1

/-- How far the download into slot `k` has come. `source` is what the cache left there. -/
inductive Course (D : Downloads) (k : Kind) (fetch : Bool) (source : Option PointerPass)
    (thread : List Statement) (slot : PointerPass) (mail : List Message)
    (processed : List (Message × Option Block)) : Prop
  | given {message : Message} (source_eq : source = some slot)
    (thread_eq : thread = if fetch then D.callback k else []) (mail_eq : mail = [message])
    (cached : message.FromCache)
  | ready (thread_eq : thread = if fetch then D.callback k else []) (empty : slot.pData = none)
    (mail_eq : mail = [])
  | data (fetches : fetch = true) (thread_eq : thread = (D.callback k).tail)
    (filled : slot.pData = some (D.block k).bytes) (mail_eq : mail = [])
  | full (fetches : fetch = true)
    (thread_eq : thread = [.postMessage (D.message k)] ∨
      k = .ad ∧ thread = [.setAdUrl D.strAdUrl, .postMessage (D.message k)])
    (slot_eq : slot = .ofFile (some (D.block k).bytes)) (mail_eq : mail = [])
  | posted (fetches : fetch = true) (thread_eq : thread = [])
    (slot_eq : slot = .ofFile (some (D.block k).bytes)) (mail_eq : mail = [D.message k])
  | used (fetches : fetch = true) (thread_eq : thread = []) (empty : slot.pData = none) (mail_eq : mail = [])
    (used : (D.message k, some (D.block k)) ∈ processed)

/-- How far all three have come. -/
def Flow (D : Downloads) (fetch : Kind → Bool) (source : Kind → Option PointerPass) (w : World Texture) : Prop :=
  ∀ k, Course D k (fetch k) (source k) (w.threads k) (w.dlg.m_PointerPass k) (w.mail k) w.processed

@[simp] theorem PointerPass.block_ofFile (b : Block) : (PointerPass.ofFile (some b.bytes)).block = some b := by
  have size : (Int32.ofNat b.bytes.length).toInt = b.bytes.length := Int32.toInt_ofNat_of_lt b.small
  obtain ⟨bytes, small⟩ := b
  simp only [PointerPass.ofFile, PointerPass.block, Option.getD_some, Option.map_some, Option.some.injEq,
    Block.mk.injEq]
  simp only at size
  rw [size, Int.toNat_natCast, List.take_length]

/-! ### What a step leaves alone -/

section Frame
variable {w w' : World Texture} {k k' : Kind}

@[simp] theorem setSlot_same (w : World Texture) (k : Kind) (p : PointerPass) :
    (w.setSlot k p).dlg.m_PointerPass k = p := Function.update_self ..

@[simp] theorem setSlot_other (w : World Texture) (p : PointerPass) (ne : k' ≠ k) :
    (w.setSlot k p).dlg.m_PointerPass k' = w.dlg.m_PointerPass k' := Function.update_of_ne ne ..

@[simp] theorem setSlot_threads (w : World Texture) (k : Kind) (p : PointerPass) :
    (w.setSlot k p).threads = w.threads := rfl

@[simp] theorem setSlot_mail (w : World Texture) (k : Kind) (p : PointerPass) :
    (w.setSlot k p).mail k' = w.mail k' := rfl

theorem mail_post_same (w : World Texture) (message : Message) :
    (w.post message).mail message.kind = w.mail message.kind ++ [message] := by
  simp [World.mail, World.post, List.filter_append]

theorem mail_post_other (w : World Texture) {message : Message} (ne : message.kind ≠ k) :
    (w.post message).mail k = w.mail k := by
  simp [World.mail, World.post, List.filter_append, ne]

theorem exec_other (w : World Texture) {statement : Statement}
    (own : ∀ message, statement = .postMessage message → message.kind = k) (ne : k' ≠ k) :
    (statement.exec k w).dlg.m_PointerPass k' = w.dlg.m_PointerPass k' ∧
      (statement.exec k w).mail k' = w.mail k' := by
  cases statement with
  | setData pData => exact ⟨setSlot_other w _ ne, rfl⟩
  | setSize iSize => exact ⟨setSlot_other w _ ne, rfl⟩
  | setAdUrl strAdUrl => exact ⟨rfl, rfl⟩
  | postMessage message =>
    refine ⟨rfl, mail_post_other w ?_⟩
    rw [own message rfl]
    exact ne.symm

theorem exec_rest (w : World Texture) (k : Kind) (statement : Statement) :
    (statement.exec k w).threads = w.threads ∧ (statement.exec k w).processed = w.processed ∧
      (statement.exec k w).state = w.state ∧ (statement.exec k w).dlg.m_strSubsid = w.dlg.m_strSubsid ∧
      (statement.exec k w).dlg.m_pModel1 = w.dlg.m_pModel1 ∧ (statement.exec k w).dlg.m_pAdTex = w.dlg.m_pAdTex ∧
      (statement.exec k w).dlg.m_iAdWidth1 = w.dlg.m_iAdWidth1 ∧
      (statement.exec k w).dlg.m_iAdHeight1 = w.dlg.m_iAdHeight1 := by
  cases statement <;> exact ⟨rfl, rfl, rfl, rfl, rfl, rfl, rfl, rfl⟩

end Frame

/-! ### Threads -/

section Steps
variable {D : Downloads} {fetch : Kind → Bool} {source : Kind → Option PointerPass} {w w' : World Texture} {k : Kind}

/-- A callback begins to fill its slot when no message about the slot waits. -/
def SlotFree (k : Kind) (w : World Texture) : Prop :=
  ∀ pData rest, w.threads k = .setData pData :: rest → w.mail k = []

theorem Course.own {fetches : Bool} {left : Option PointerPass} {thread : List Statement} {slot : PointerPass}
    {mail : List Message} {processed : List (Message × Option Block)}
    (h : Course D k fetches left thread slot mail processed) {message : Message}
    (member : .postMessage message ∈ thread) : message.kind = k := by
  have inCallback : .postMessage message ∈ D.callback k → message.kind = k := by
    intro member
    cases k <;> simp_all [Downloads.callback, myInfoCallback, myModelCallback, myAdCallback, Message.kind]
  have inSome : .postMessage message ∈ (if fetches then D.callback k else []) → message.kind = k := by
    cases fetches with
    | true => exact inCallback
    | false => nofun
  cases h with
  | given source_eq thread_eq mail_eq => exact inSome (thread_eq ▸ member)
  | ready thread_eq empty mail_eq => exact inSome (thread_eq ▸ member)
  | data fetches thread_eq filled mail_eq => exact inCallback (List.mem_of_mem_tail (thread_eq ▸ member))
  | full fetches thread_eq slot_eq mail_eq =>
    have last : message = D.message k := by
      rcases thread_eq with eq | ⟨-, eq⟩ <;> rw [eq] at member <;> simpa using member
    rw [last, D.kind_message]
  | posted fetches thread_eq => rw [thread_eq] at member; cases member
  | used fetches thread_eq => rw [thread_eq] at member; cases member

theorem threadStep_nil (none : w.threads k = []) : threadStep k w = w := by rw [threadStep, none]

theorem threadStep_cons {statement : Statement} {rest : List Statement} (next : w.threads k = statement :: rest) :
    threadStep k w = statement.exec k { w with threads := Function.update w.threads k rest } := by
  rw [threadStep, next]

/-- The next statement of a callback is what comes next in its course. -/
theorem Course.exec {statement : Statement} {rest : List Statement}
    (h : Course D k (fetch k) (source k) (statement :: rest) (w.dlg.m_PointerPass k) (w.mail k) w.processed)
    (free : ∀ pData, statement = .setData pData → w.mail k = []) (threads : w.threads k = rest) :
    Course D k (fetch k) (source k) rest ((statement.exec k w).dlg.m_PointerPass k) ((statement.exec k w).mail k)
      w.processed := by
  have starts : statement :: rest = (if fetch k then D.callback k else []) →
      fetch k = true ∧ statement = .setData (D.block k) ∧ rest = (D.callback k).tail := by
    intro thread_eq
    cases fetched : fetch k with
    | false =>
      rw [fetched] at thread_eq
      cases thread_eq
    | true =>
      rw [fetched, if_pos rfl, D.callback_eq] at thread_eq
      cases thread_eq
      exact ⟨rfl, rfl, rfl⟩
  cases h with
  | given source_eq thread_eq mail_eq =>
    obtain ⟨-, rfl, -⟩ := starts thread_eq
    rw [free _ rfl] at mail_eq
    cases mail_eq
  | ready thread_eq empty mail_eq =>
    obtain ⟨fetches, rfl, rfl⟩ := starts thread_eq
    exact .data fetches rfl (by rw [Statement.exec, setSlot_same]) mail_eq
  | data fetches thread_eq filled mail_eq =>
    have parts : statement = .setSize (Int32.ofNat (D.block k).bytes.length) ∧
        (rest = [.postMessage (D.message k)] ∨
          k = .ad ∧ rest = [.setAdUrl D.strAdUrl, .postMessage (D.message k)]) := by
      cases k with
      | info =>
        cases thread_eq
        exact ⟨rfl, Or.inl rfl⟩
      | model =>
        cases thread_eq
        exact ⟨rfl, Or.inl rfl⟩
      | ad =>
        cases thread_eq
        exact ⟨rfl, Or.inr ⟨rfl, rfl⟩⟩
    obtain ⟨rfl, left⟩ := parts
    refine .full fetches left ?_ mail_eq
    rw [Statement.exec, setSlot_same]
    dsimp only
    rw [filled]
    rfl
  | full fetches thread_eq slot_eq mail_eq =>
    rcases thread_eq with last | ⟨rfl, url⟩
    · cases last
      refine .posted fetches rfl slot_eq ?_
      have grown := mail_post_same w (D.message k)
      rw [D.kind_message, mail_eq] at grown
      exact grown
    · cases url
      exact .full fetches (Or.inl rfl) slot_eq mail_eq
  | posted fetches thread_eq => cases thread_eq
  | used fetches thread_eq => cases thread_eq

theorem Flow.thread (h : Flow D fetch source w) (free : SlotFree k w) : Flow D fetch source (threadStep k w) := by
  cases next : w.threads k with
  | nil =>
    rw [threadStep_nil next]
    exact h
  | cons statement rest =>
    rw [threadStep_cons next]
    have own : ∀ message, statement = .postMessage message → message.kind = k := by
      intro message eq
      apply (h k).own
      rw [next, eq]
      exact List.mem_cons_self ..
    intro k'
    obtain ⟨threads, processed, -⟩ := exec_rest { w with threads := Function.update w.threads k rest } k statement
    rw [threads, processed]
    by_cases same : k' = k
    · subst same
      have course := h k'
      rw [next] at course
      dsimp only
      rw [Function.update_self]
      refine Course.exec course ?_ (Function.update_self ..)
      intro pData eq
      rw [eq] at next
      exact free pData rest next
    · obtain ⟨slot, mail⟩ := exec_other { w with threads := Function.update w.threads k rest } own same
      dsimp only
      rw [slot, mail, Function.update_of_ne same]
      exact h k'

theorem Course.more {fetches : Bool} {left : Option PointerPass} {statement : Statement} {rest : List Statement}
    {slot : PointerPass} {mail : List Message} {processed : List (Message × Option Block)}
    (h : Course D k fetches left (statement :: rest) slot mail processed) :
    fetches = true ∧ (rest = [] → statement = .postMessage (D.message k)) := by
  have starts : statement :: rest = (if fetches then D.callback k else []) →
      fetches = true ∧ (rest = [] → statement = .postMessage (D.message k)) := by
    intro thread_eq
    cases fetches with
    | false => cases thread_eq
    | true =>
      refine ⟨rfl, fun empty => ?_⟩
      rw [empty, if_pos rfl] at thread_eq
      cases k <;> cases thread_eq
  cases h with
  | given source_eq thread_eq mail_eq => exact starts thread_eq
  | ready thread_eq empty mail_eq => exact starts thread_eq
  | data fetches thread_eq filled mail_eq =>
    refine ⟨fetches, fun empty => ?_⟩
    rw [empty] at thread_eq
    cases k <;> cases thread_eq
  | full fetches thread_eq slot_eq mail_eq =>
    refine ⟨fetches, fun empty => ?_⟩
    rw [empty] at thread_eq
    rcases thread_eq with eq | ⟨-, eq⟩ <;> cases eq
    rfl
  | posted fetches thread_eq slot_eq mail_eq => cases thread_eq
  | used fetches thread_eq empty mail_eq used => cases thread_eq

theorem Course.url {fetches : Bool} {left : Option PointerPass} {thread : List Statement} {slot : PointerPass}
    {mail : List Message} {processed : List (Message × Option Block)}
    (h : Course D k fetches left thread slot mail processed) {strAdUrl : Wide}
    (member : .setAdUrl strAdUrl ∈ thread) : k = .ad ∧ strAdUrl = D.strAdUrl := by
  have inCallback : .setAdUrl strAdUrl ∈ D.callback k → k = .ad ∧ strAdUrl = D.strAdUrl := by
    intro member
    cases k <;> simp_all [Downloads.callback, myInfoCallback, myModelCallback, myAdCallback]
  have inSome : .setAdUrl strAdUrl ∈ (if fetches then D.callback k else []) → k = .ad ∧ strAdUrl = D.strAdUrl := by
    cases fetches with
    | true => exact inCallback
    | false => nofun
  cases h with
  | given source_eq thread_eq mail_eq => exact inSome (thread_eq ▸ member)
  | ready thread_eq empty mail_eq => exact inSome (thread_eq ▸ member)
  | data fetches thread_eq filled mail_eq => exact inCallback (List.mem_of_mem_tail (thread_eq ▸ member))
  | full fetches thread_eq slot_eq mail_eq =>
    rcases thread_eq with eq | ⟨ad, eq⟩ <;> rw [eq] at member
    · simp at member
    · exact ⟨ad, by simpa using member⟩
  | posted fetches thread_eq => rw [thread_eq] at member; cases member
  | used fetches thread_eq => rw [thread_eq] at member; cases member

/-- The URL is that of the download once its thread has written it. -/
structure UrlStands (D : Downloads) (fetch : Kind → Bool) (before : Wide) (w : World Texture) : Prop where
  kept : fetch .ad = false ∨ .setAdUrl D.strAdUrl ∈ w.threads .ad → w.dlg.m_strAdUrl = before
  written : fetch .ad = true → .setAdUrl D.strAdUrl ∉ w.threads .ad → w.dlg.m_strAdUrl = D.strAdUrl

theorem UrlStands.frame {before : Wide} (h : UrlStands D fetch before w)
    (threads : .setAdUrl D.strAdUrl ∈ w'.threads .ad ↔ .setAdUrl D.strAdUrl ∈ w.threads .ad)
    (url : w'.dlg.m_strAdUrl = w.dlg.m_strAdUrl) : UrlStands D fetch before w' where
  kept due := by
    rw [threads] at due
    rw [url]
    exact h.kept due
  written fetches done := by
    rw [threads] at done
    rw [url]
    exact h.written fetches done

theorem UrlStands.thread {before : Wide} (h : UrlStands D fetch before w) (flow : Flow D fetch source w) (k : Kind) :
    UrlStands D fetch before (threadStep k w) := by
  cases next : w.threads k with
  | nil =>
    rw [threadStep_nil next]
    exact h
  | cons statement rest =>
    rw [threadStep_cons next]
    have course := flow k
    rw [next] at course
    obtain ⟨fetches, -⟩ := course.more
    have same : (∀ strAdUrl, statement ≠ .setAdUrl strAdUrl) → (.setAdUrl D.strAdUrl ∈
        Function.update w.threads k rest .ad ↔ .setAdUrl D.strAdUrl ∈ w.threads .ad) := by
      intro other
      by_cases ad : Kind.ad = k
      · subst ad
        rw [Function.update_self, next, List.mem_cons, or_iff_right (other _).symm]
      · rw [Function.update_of_ne ad]
    cases statement with
    | setAdUrl strAdUrl =>
      obtain ⟨rfl, rfl⟩ := course.url (List.mem_cons_self ..)
      have written : .setAdUrl D.strAdUrl ∉ rest := by
        intro member
        cases course with
        | given source_eq thread_eq => rw [fetches] at thread_eq; cases thread_eq
        | ready thread_eq => rw [fetches] at thread_eq; cases thread_eq
        | data _ thread_eq => cases thread_eq
        | full _ thread_eq =>
          rcases thread_eq with eq | ⟨-, eq⟩ <;> cases eq
          simp at member
        | posted _ thread_eq => cases thread_eq
        | used _ thread_eq => cases thread_eq
      refine ⟨fun due => ?_, fun _ _ => rfl⟩
      rcases due with off | due
      · rw [fetches] at off
        cases off
      · refine absurd ?_ written
        change .setAdUrl D.strAdUrl ∈ Function.update w.threads .ad rest .ad at due
        rwa [Function.update_self] at due
    | setData pData => exact h.frame (same nofun) rfl
    | setSize iSize => exact h.frame (same nofun) rfl
    | postMessage message => exact h.frame (same nofun) rfl

end Steps

/-! ### Messages -/

section Window
variable {target : Target} {graphics : Graphics Shader Texture} {calls : WindowCalls Shader}
  {D : Downloads} {fetch : Kind → Bool} {source : Kind → Option PointerPass} {w next : World Texture}
  {message : Message}

theorem windowProc_slots (h : windowProc target graphics calls message w = some next) :
    next.dlg.m_PointerPass = Function.update w.dlg.m_PointerPass message.kind
        (w.dlg.m_PointerPass message.kind).safeDelete ∧
      next.threads = w.threads ∧ next.queue = w.queue ∧ next.dlg.m_strSubsid = w.dlg.m_strSubsid ∧
      next.dlg.m_strAdUrl = w.dlg.m_strAdUrl := by
  cases message with
  | modelInfo lParam =>
    cases h
    exact ⟨rfl, rfl, rfl, rfl, rfl⟩
  | modelDownloaded lParam =>
    obtain ⟨opens, -, rfl⟩ := Option.map_eq_some_iff.mp h
    cases opens with
    | false => exact ⟨rfl, rfl, rfl, rfl, rfl⟩
    | true =>
      simp only [if_true, modelShown]
      split <;> exact ⟨rfl, rfl, rfl, rfl, rfl⟩
  | adDownloaded lParam =>
    cases h
    simp only [onAdDownloaded]
    split <;> exact ⟨rfl, rfl, rfl, rfl, rfl⟩

theorem messageStep_cases (target : Target) (graphics : Graphics Shader Texture) (calls : WindowCalls Shader)
    (w : World Texture) :
    messageStep target graphics calls w = w ∨
      ∃ message queue next, w.queue = message :: queue ∧
        windowProc target graphics calls message { w with queue } = some next ∧
        messageStep target graphics calls w =
          { next with processed := w.processed ++ [(message, (w.dlg.m_PointerPass message.kind).block)] } := by
  cases waiting : w.queue with
  | nil => exact Or.inl (by rw [messageStep, waiting])
  | cons message queue =>
    cases done : windowProc target graphics calls message { w with queue } with
    | none => exact Or.inl (by simp only [messageStep, waiting, done])
    | some next => exact Or.inr ⟨message, queue, next, rfl, done, by simp only [messageStep, waiting, done]⟩

/-- The message about a slot is the one that its course has come to. -/
theorem Course.take {k : Kind} {fetches : Bool} {left : Option PointerPass} {thread : List Statement}
    {slot : PointerPass} {mail : List Message} {processed : List (Message × Option Block)}
    (h : Course D k fetches left thread slot (message :: mail) processed) :
    mail = [] ∧ Course D k fetches left thread slot.safeDelete [] (processed ++ [(message, slot.block)]) := by
  cases h with
  | given source_eq thread_eq mail_eq =>
    cases mail_eq
    exact ⟨rfl, .ready thread_eq rfl rfl⟩
  | ready thread_eq empty mail_eq => cases mail_eq
  | data fetches thread_eq filled mail_eq => cases mail_eq
  | full fetches thread_eq slot_eq mail_eq => cases mail_eq
  | posted fetches thread_eq slot_eq mail_eq =>
    cases mail_eq
    refine ⟨rfl, .used fetches thread_eq rfl rfl ?_⟩
    rw [slot_eq, PointerPass.block_ofFile]
    exact List.mem_append_right _ (List.mem_singleton_self _)
  | used fetches thread_eq empty mail_eq => cases mail_eq

theorem Course.record {k : Kind} {fetches : Bool} {left : Option PointerPass} {thread : List Statement}
    {slot : PointerPass} {mail : List Message} {processed : List (Message × Option Block)}
    (h : Course D k fetches left thread slot mail processed) (entry : Message × Option Block) :
    Course D k fetches left thread slot mail (processed ++ [entry]) := by
  cases h with
  | given source_eq thread_eq mail_eq cached => exact .given source_eq thread_eq mail_eq cached
  | ready thread_eq empty mail_eq => exact .ready thread_eq empty mail_eq
  | data fetches thread_eq filled mail_eq => exact .data fetches thread_eq filled mail_eq
  | full fetches thread_eq slot_eq mail_eq => exact .full fetches thread_eq slot_eq mail_eq
  | posted fetches thread_eq slot_eq mail_eq => exact .posted fetches thread_eq slot_eq mail_eq
  | used fetches thread_eq empty mail_eq used =>
    exact .used fetches thread_eq empty mail_eq (List.mem_append_left _ used)

theorem mail_cons {queue : List Message} (waiting : w.queue = message :: queue) (k : Kind) :
    w.mail k = if message.kind = k then message :: ({ w with queue } : World Texture).mail k
      else ({ w with queue } : World Texture).mail k := by
  simp only [World.mail, waiting, List.filter_cons, decide_eq_true_eq]

theorem Flow.window (h : Flow D fetch source w) (calls : WindowCalls Shader) :
    Flow D fetch source (messageStep target graphics calls w) := by
  rcases messageStep_cases target graphics calls w with same | ⟨message, queue, next, waiting, done, result⟩
  · rw [same]
    exact h
  · rw [result]
    obtain ⟨slots, threads, rest, -⟩ := windowProc_slots done
    intro k
    have mail : World.mail next k = World.mail { w with queue } k := by rw [World.mail, rest]; rfl
    have split := mail_cons waiting k
    have course := h k
    show Course D k (fetch k) (source k) (next.threads k) (next.dlg.m_PointerPass k) (next.mail k) _
    rw [threads, mail, slots]
    by_cases same : message.kind = k
    · subst same
      rw [split, if_pos rfl] at course
      obtain ⟨empty, taken⟩ := course.take
      rw [Function.update_self, empty]
      exact taken
    · rw [split, if_neg same] at course
      rw [Function.update_of_ne (Ne.symm same)]
      exact course.record _

theorem UrlStands.window {before : Wide} (h : UrlStands D fetch before w) (calls : WindowCalls Shader) :
    UrlStands D fetch before (messageStep target graphics calls w) := by
  rcases messageStep_cases target graphics calls w with same | ⟨message, queue, next, waiting, done, result⟩
  · rw [same]
    exact h
  · obtain ⟨-, threads, -, -, url⟩ := windowProc_slots done
    rw [result]
    exact h.frame (by dsimp only; rw [threads]) url

theorem windowProc_model (folder : Path) {lParam : Nat}
    (h : windowProc target graphics calls (.modelDownloaded lParam) w = some next) :
    ∃ opens, opensModel target graphics calls (w.dlg.m_PointerPass .model).block = some opens ∧
      next.dlg.m_pModel1 = (if opens then (w.dlg.m_PointerPass .model).block else w.dlg.m_pModel1) ∧
      next.dlg.m_pAdTex = w.dlg.m_pAdTex ∧ next.dlg.m_iAdWidth1 = w.dlg.m_iAdWidth1 ∧
      next.dlg.m_iAdHeight1 = w.dlg.m_iAdHeight1 ∧
      next.state =
        if opens = true ∧ lParam = 0 then
          Cache.step folder
            (.addModel (newModel calls w.dlg (w.dlg.m_PointerPass .model).block) calls.addModel) w.state
        else w.state := by
  obtain ⟨opens, opened, rfl⟩ := Option.map_eq_some_iff.mp h
  refine ⟨opens, opened, ?_⟩
  cases opens with
  | false => exact ⟨rfl, rfl, rfl, rfl, rfl⟩
  | true =>
    by_cases zero : lParam = 0
    · simp only [if_true, modelShown, if_pos zero, true_and]
      exact ⟨rfl, rfl, rfl, rfl, rfl⟩
    · simp only [if_true, modelShown, if_neg zero, true_and]
      exact ⟨rfl, rfl, rfl, rfl, rfl⟩

theorem windowProc_ad (folder : Path) {lParam : Nat}
    (h : windowProc target graphics calls (.adDownloaded lParam) w = some next) :
    next.dlg.m_pModel1 = w.dlg.m_pModel1 ∧
      next.dlg.m_pAdTex =
        graphics.createTextureFromFileInMemoryEx w.dlg.m_pAdTex (w.dlg.m_PointerPass .ad).block ∧
      (next.dlg.m_iAdWidth1, next.dlg.m_iAdHeight1) =
        (graphics.imageFromStream (w.dlg.m_PointerPass .ad).block).getD (w.dlg.m_iAdWidth1, w.dlg.m_iAdHeight1) ∧
      next.state =
        if lParam = 0 then
          Cache.step folder (.addAd w.dlg.m_strSubsid (w.dlg.m_PointerPass .ad).block w.dlg.m_strAdUrl calls.addAd)
            w.state
        else w.state := by
  cases h
  by_cases zero : lParam = 0
  · simp only [onAdDownloaded, if_pos zero]
    exact ⟨rfl, rfl, rfl, rfl⟩
  · simp only [onAdDownloaded, if_neg zero]
    exact ⟨rfl, rfl, rfl, rfl⟩

theorem windowProc_info {lParam : Int32} (h : windowProc target graphics calls (.modelInfo lParam) w = some next) :
    next.dlg.m_pModel1 = w.dlg.m_pModel1 ∧ next.dlg.m_pAdTex = w.dlg.m_pAdTex ∧
      next.dlg.m_iAdWidth1 = w.dlg.m_iAdWidth1 ∧ next.dlg.m_iAdHeight1 = w.dlg.m_iAdHeight1 ∧
      next.state = w.state := by
  cases h
  exact ⟨rfl, rfl, rfl, rfl, rfl⟩

end Window

/-! ### From one load to the end of it -/

/-- Nothing is under way and the slots are empty. -/
structure World.Idle (w : World Texture) : Prop extends w.Quiet where
  slots : ∀ k, (w.dlg.m_PointerPass k).pData = none

/-- What `LoadModel` leaves in the slots. -/
def sourceOf (loaded : Option Loaded) : Kind → Option PointerPass
  | .info => none
  | .model => loaded.map fun loaded => .ofFile (some loaded.model)
  | .ad => loaded.map fun loaded => .ofFile loaded.ad

/-- What is downloaded then. -/
def fetchOf (loaded : Option Loaded) : Kind → Bool
  | .info => loaded.isNone
  | .model => loaded.isNone
  | .ad => !loaded.any fun loaded => loaded.ad.isSome && (PointerPass.ofFile loaded.ad).iSize ≠ 0

/-- The viewer once the cache has answered. -/
def World.answered (w : World Texture) (s : Wide) (found : Loaded) : World Texture :=
  (((({ w with dlg := { w.dlg with m_strSubsid := s } } : World Texture).setSlot .model
    (.ofFile (some found.model))).setSlot .ad (.ofFile found.ad)).post (.modelDownloaded 1)).post
    (.adDownloaded 1)

section Load
variable {D : Downloads} {fetch : Kind → Bool} {source : Kind → Option PointerPass} {w : World Texture}

theorem Flow.idle (h : Flow D fetch source w) (quiet : w.Quiet) : w.Idle := by
  refine ⟨quiet, fun k => ?_⟩
  have noMail : w.mail k = [] := by rw [World.mail, quiet.queue]; rfl
  have course := h k
  rw [quiet.threads k, noMail] at course
  cases course with
  | given source_eq thread_eq mail_eq => cases mail_eq
  | ready thread_eq empty mail_eq => exact empty
  | data fetches thread_eq filled mail_eq => cases k <;> cases thread_eq
  | full fetches thread_eq slot_eq mail_eq => rcases thread_eq with eq | ⟨-, eq⟩ <;> cases eq
  | posted fetches thread_eq slot_eq mail_eq => cases mail_eq
  | used fetches thread_eq empty mail_eq used => exact empty

theorem Flow.used (h : Flow D fetch source w) (quiet : w.Quiet) {k : Kind} (fetches : fetch k = true) :
    (D.message k, some (D.block k)) ∈ w.processed := by
  have noMail : w.mail k = [] := by rw [World.mail, quiet.queue]; rfl
  have course := h k
  rw [quiet.threads k, noMail] at course
  cases course with
  | given source_eq thread_eq mail_eq => cases mail_eq
  | ready thread_eq empty mail_eq =>
    rw [fetches, if_pos rfl] at thread_eq
    exact absurd thread_eq.symm (D.callback_ne_nil k)
  | data fetches thread_eq filled mail_eq => cases k <;> cases thread_eq
  | full fetches thread_eq slot_eq mail_eq => rcases thread_eq with eq | ⟨-, eq⟩ <;> cases eq
  | posted fetches thread_eq slot_eq mail_eq => cases mail_eq
  | used fetches thread_eq empty mail_eq used => exact used

/-- No callback has begun, and no message has been processed. -/
def Fresh (D : Downloads) (fetch : Kind → Bool) (source : Kind → Option PointerPass) (w : World Texture) : Prop :=
  ∀ k, w.threads k = (if fetch k then D.callback k else []) ∧
    (source k = none ∧ (w.dlg.m_PointerPass k).pData = none ∧ w.mail k = [] ∨
      ∃ message, source k = some (w.dlg.m_PointerPass k) ∧ w.mail k = [message] ∧ message.FromCache)

theorem Fresh.flow (h : Fresh D fetch source w) : Flow D fetch source w := by
  intro k
  obtain ⟨threads, ⟨-, empty, noMail⟩ | ⟨message, left, mail, cached⟩⟩ := h k
  · exact .ready threads empty noMail
  · exact .given left threads mail cached

theorem Fresh.url (h : Fresh D fetch source w) : UrlStands D fetch w.dlg.m_strAdUrl w where
  kept _ := rfl
  written fetches absent := by
    obtain ⟨threads, -⟩ := h .ad
    rw [threads, fetches] at absent
    exact absurd (by simp [Downloads.callback, myAdCallback]) absent

theorem load_eq (idle : w.Idle) (s : Wide) (D : Downloads) (calls : CModelCache.LoadCalls) :
    let loaded := w.dlg.m_Cache.loadModel w.disk s calls
    Fresh D (fetchOf loaded) (sourceOf loaded) (load3DScanFromUrl s D calls w) ∧
      (load3DScanFromUrl s D calls w).dlg = { w.dlg with
        m_PointerPass := (load3DScanFromUrl s D calls w).dlg.m_PointerPass
        m_bDownloading := (load3DScanFromUrl s D calls w).dlg.m_bDownloading
        m_strSubsid := s } ∧
      (load3DScanFromUrl s D calls w).disk = w.disk := by
  intro loaded
  cases asked : w.dlg.m_Cache.loadModel w.disk s calls with
  | none =>
    have empty := idle.slots .ad
    have result : load3DScanFromUrl s D calls w =
        downloadAd D (downloadModel D (downloadInfo D { w with dlg := { w.dlg with m_strSubsid := s } })) := by
      simp only [load3DScanFromUrl, loadFromCache, asked, empty, Option.isSome_none, Bool.false_and,
        Bool.not_false, if_true]
    have loaded_eq : loaded = none := asked
    rw [result, loaded_eq]
    refine ⟨fun k => ?_, rfl, rfl⟩
    have noMail : w.mail k = [] := by rw [World.mail, idle.queue]; rfl
    exact ⟨by cases k <;> rfl, Or.inl ⟨by cases k <;> rfl, idle.slots k, noMail⟩⟩
  | some found =>
    have loaded_eq : loaded = some found := asked
    have result : load3DScanFromUrl s D calls w =
        if fetchOf (some found) .ad then downloadAd D (w.answered s found) else w.answered s found := by
      simp only [load3DScanFromUrl, loadFromCache, asked, fetchOf, Option.any_some]
      rfl
    rw [result, loaded_eq]
    have queue := idle.queue
    have threads := idle.threads
    cases fetches : fetchOf (some found) .ad with
    | false =>
      refine ⟨fun k => ?_, rfl, rfl⟩
      cases k with
      | info =>
        exact ⟨threads .info, Or.inl ⟨rfl, idle.slots .info,
          by simp [World.mail, World.answered, World.post, World.setSlot, queue, Message.kind]⟩⟩
      | model =>
        exact ⟨threads .model, Or.inr ⟨Message.modelDownloaded 1, rfl,
          by simp [World.mail, World.answered, World.post, World.setSlot, queue, Message.kind], rfl⟩⟩
      | ad =>
        rw [fetches]
        exact ⟨threads .ad, Or.inr ⟨Message.adDownloaded 1, rfl,
          by simp [World.mail, World.answered, World.post, World.setSlot, queue, Message.kind], rfl⟩⟩
    | true =>
      refine ⟨fun k => ?_, rfl, rfl⟩
      cases k with
      | info =>
        exact ⟨threads .info, Or.inl ⟨rfl, idle.slots .info,
          by simp [World.mail, World.answered, World.post, World.setSlot, downloadAd, queue, Message.kind]⟩⟩
      | model =>
        exact ⟨threads .model, Or.inr ⟨Message.modelDownloaded 1, rfl,
          by simp [World.mail, World.answered, World.post, World.setSlot, downloadAd, queue, Message.kind], rfl⟩⟩
      | ad =>
        rw [fetches]
        exact ⟨rfl, Or.inr ⟨Message.adDownloaded 1, rfl,
          by simp [World.mail, World.answered, World.post, World.setSlot, downloadAd, queue, Message.kind], rfl⟩⟩

end Load

end ModelPublish.Viewer
