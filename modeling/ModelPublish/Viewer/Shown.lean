import ModelPublish.Cache.Index
import ModelPublish.Viewer.Flow

/-!
# What the viewer shows

What is on the screen after one `Load3DScanFromUrl`, when what was cached and what was downloaded do not
meet in one slot.
-/

namespace ModelPublish.Viewer
open Cache CModelCache Scan

variable {Shader Texture : Type}

structure Screen (Texture : Type) where
  m_pModel1 : Option Block
  m_pAdTex : Option Texture
  m_iAdWidth1 : Nat
  m_iAdHeight1 : Nat
  m_strAdUrl : Wide
  deriving DecidableEq

def Dialog.screen (dlg : Dialog Texture) : Screen Texture :=
  ⟨dlg.m_pModel1, dlg.m_pAdTex, dlg.m_iAdWidth1, dlg.m_iAdHeight1, dlg.m_strAdUrl⟩

/-- The URL that a click opens, in a window of a height. -/
def Screen.click (s : Screen Texture) (height : Int) (x y : Int) : Option Wide :=
  if s.m_pAdTex.isSome && 0 ≤ x && x < s.m_iAdWidth1 && height - s.m_iAdHeight1 ≤ y && y < height then
    some s.m_strAdUrl
  else none

/-- The message about the slot has been processed, or there never was one. -/
def Done (k : Kind) (w : World Texture) : Prop := w.threads k = [] ∧ w.mail k = []

instance (k : Kind) (w : World Texture) : Decidable (Done k w) := inferInstanceAs (Decidable (_ ∧ _))

/-- One slot gets one block: from the server, or from the cache. -/
def OneSource (D : Downloads) (fetch : Bool) (source : Option PointerPass) (k : Kind) (content : Block) : Prop :=
  fetch = true ∧ source = none ∧ D.block k = content ∨ fetch = false ∧ source = some (.ofFile (some content.bytes))

section Steps
variable {target : Target} {graphics : Graphics Shader Texture} {D : Downloads} {fetch : Kind → Bool}
  {source : Kind → Option PointerPass} {w next : World Texture} {k : Kind}

theorem Flow.slotFree (h : Flow D fetch source w) (apart : source k = none ∨ fetch k = false) : SlotFree k w := by
  intro pData rest head
  have course := h k
  rw [head] at course
  obtain ⟨fetches, -⟩ := course.more
  have fresh : source k = none := apart.resolve_right (by rw [fetches]; exact Bool.false_ne_true.symm)
  cases course with
  | given source_eq thread_eq mail_eq => rw [fresh] at source_eq; cases source_eq
  | ready thread_eq empty mail_eq => exact mail_eq
  | data _ thread_eq filled mail_eq => exact mail_eq
  | full _ thread_eq slot_eq mail_eq => exact mail_eq
  | posted _ thread_eq => cases thread_eq
  | used _ thread_eq => cases thread_eq

theorem Flow.block (h : Flow D fetch source w) {content : Block} (one : OneSource D (fetch k) (source k) k content)
    (waits : w.mail k ≠ []) : (w.dlg.m_PointerPass k).block = some content ∧ w.threads k = [] := by
  have course := h k
  rcases one with ⟨fetches, fresh, block⟩ | ⟨off, left⟩
  · cases course with
    | given source_eq => rw [fresh] at source_eq; cases source_eq
    | ready thread_eq empty mail_eq => exact absurd mail_eq waits
    | data _ thread_eq filled mail_eq => exact absurd mail_eq waits
    | full _ thread_eq slot_eq mail_eq => exact absurd mail_eq waits
    | posted _ thread_eq slot_eq => exact ⟨by rw [slot_eq, PointerPass.block_ofFile, block], thread_eq⟩
    | used _ thread_eq empty mail_eq => exact absurd mail_eq waits
  · rw [off] at course
    cases course with
    | given source_eq thread_eq =>
      rw [left] at source_eq
      have slot := Option.some.inj source_eq
      exact ⟨by rw [← slot, PointerPass.block_ofFile], thread_eq⟩
    | ready thread_eq empty mail_eq => exact absurd mail_eq waits
    | data fetches => cases fetches
    | full fetches => cases fetches
    | posted fetches => cases fetches
    | used fetches => cases fetches

theorem Fresh.due (h : Fresh D fetch source w) {content : Block}
    (one : OneSource D (fetch k) (source k) k content) : ¬ Done k w := by
  rintro ⟨noThread, noMail⟩
  obtain ⟨threads, slot⟩ := h k
  rcases one with ⟨fetches, -⟩ | ⟨-, left⟩
  · rw [noThread, fetches, if_pos rfl] at threads
    exact D.callback_ne_nil k threads.symm
  · rcases slot with ⟨none, -⟩ | ⟨message, -, mail, -⟩
    · rw [left] at none
      cases none
    · rw [noMail] at mail
      cases mail

theorem Flow.done_thread (h : Flow D fetch source w) (k k' : Kind) : Done k' (threadStep k w) ↔ Done k' w := by
  cases head : w.threads k with
  | nil => rw [threadStep_nil head]
  | cons statement rest =>
    rw [threadStep_cons head]
    have course := h k
    have own : ∀ message, statement = .postMessage message → message.kind = k := by
      intro message eq
      apply course.own
      rw [head, eq]
      exact List.mem_cons_self ..
    have threads := (exec_rest { w with threads := Function.update w.threads k rest } k statement).1
    unfold Done
    rw [threads]
    by_cases same : k' = k
    · subst same
      rw [head] at course
      obtain ⟨-, last⟩ := course.more
      constructor
      · rintro ⟨noThread, noMail⟩
        change Function.update w.threads k' rest k' = [] at noThread
        rw [Function.update_self] at noThread
        rw [last noThread, Statement.exec] at noMail
        have grown := mail_post_same { w with threads := Function.update w.threads k' rest } (D.message k')
        rw [D.kind_message, noMail] at grown
        cases List.append_eq_nil_iff.mp grown.symm |>.2
      · rintro ⟨noThread, -⟩
        rw [head] at noThread
        cases noThread
    · obtain ⟨-, mail⟩ := exec_other { w with threads := Function.update w.threads k rest } own same
      rw [mail]
      dsimp only
      rw [Function.update_of_ne same]
      rfl

theorem Flow.done_window (h : Flow D fetch source w) {calls : WindowCalls Shader} {message : Message}
    {queue : List Message} (waiting : w.queue = message :: queue)
    (processes : windowProc target graphics calls message { w with queue } = some next)
    (processed : List (Message × Option Block)) :
    ¬ Done message.kind w ∧ (∀ k, k ≠ message.kind → (Done k { next with processed } ↔ Done k w)) ∧
      ∀ content, OneSource D (fetch message.kind) (source message.kind) message.kind content →
        Done message.kind { next with processed } ∧
        (w.dlg.m_PointerPass message.kind).block = some content := by
  obtain ⟨-, threads, rest, -⟩ := windowProc_slots processes
  have mail : ∀ k, World.mail { next with processed } k = World.mail { w with queue } k := by
    intro k
    simp only [World.mail, rest]
  have threads' : ∀ k, next.threads k = w.threads k := fun k => congrFun threads k
  have own := mail_cons waiting message.kind
  rw [if_pos rfl] at own
  refine ⟨?_, ?_, ?_⟩
  · rintro ⟨-, noMail⟩
    rw [own] at noMail
    cases noMail
  · intro k ne
    have other := mail_cons waiting k
    rw [if_neg (Ne.symm ne)] at other
    unfold Done
    rw [mail, other]
    dsimp only
    rw [threads']
  · intro content one
    obtain ⟨block, noThread⟩ := h.block one (by rw [own]; exact List.cons_ne_nil _ _)
    have course := h message.kind
    rw [own] at course
    refine ⟨⟨(threads' _).trans noThread, ?_⟩, block⟩
    rw [mail]
    exact course.take.1

/-! ### The screen -/

/-- What the two messages make of the screen, before and after. -/
structure Showing (graphics : Graphics Shader Texture) (model ad : Block) (opens : Bool) (before : Dialog Texture)
    (w : World Texture) : Prop where
  model_due : ¬ Done .model w → w.dlg.m_pModel1 = before.m_pModel1
  model_done : Done .model w → w.dlg.m_pModel1 = if opens then some model else before.m_pModel1
  ad_due : ¬ Done .ad w → w.dlg.m_pAdTex = before.m_pAdTex ∧ w.dlg.m_iAdWidth1 = before.m_iAdWidth1 ∧
    w.dlg.m_iAdHeight1 = before.m_iAdHeight1
  ad_done : Done .ad w →
    w.dlg.m_pAdTex = graphics.createTextureFromFileInMemoryEx before.m_pAdTex (some ad) ∧
    (w.dlg.m_iAdWidth1, w.dlg.m_iAdHeight1) =
      (graphics.imageFromStream (some ad)).getD (before.m_iAdWidth1, before.m_iAdHeight1)

section Showing
variable {model ad : Block} {opens : Bool} {before : Dialog Texture}

theorem Showing.frame {w' : World Texture} (h : Showing graphics model ad opens before w)
    (model_iff : Done .model w' ↔ Done .model w) (ad_iff : Done .ad w' ↔ Done .ad w)
    (shown : w'.dlg.m_pModel1 = w.dlg.m_pModel1) (tex : w'.dlg.m_pAdTex = w.dlg.m_pAdTex)
    (width : w'.dlg.m_iAdWidth1 = w.dlg.m_iAdWidth1) (height : w'.dlg.m_iAdHeight1 = w.dlg.m_iAdHeight1) :
    Showing graphics model ad opens before w' := by
  constructor
  · rw [model_iff, shown]
    exact h.model_due
  · rw [model_iff, shown]
    exact h.model_done
  · rw [ad_iff, tex, width, height]
    exact h.ad_due
  · rw [ad_iff, tex, width, height]
    exact h.ad_done

theorem Showing.thread (h : Showing graphics model ad opens before w) (flow : Flow D fetch source w) (k : Kind) :
    Showing graphics model ad opens before (threadStep k w) := by
  have model_iff := flow.done_thread k .model
  have ad_iff := flow.done_thread k .ad
  cases head : w.threads k with
  | nil =>
    rw [threadStep_nil head]
    exact h
  | cons statement rest =>
    rw [threadStep_cons head] at model_iff ad_iff ⊢
    obtain ⟨-, -, -, -, shown, tex, width, height⟩ :=
      exec_rest { w with threads := Function.update w.threads k rest } k statement
    exact h.frame model_iff ad_iff shown tex width height

theorem Showing.window (h : Showing graphics model ad opens before w) (flow : Flow D fetch source w)
    (model_one : OneSource D (fetch .model) (source .model) .model model)
    (ad_one : OneSource D (fetch .ad) (source .ad) .ad ad) {calls : WindowCalls Shader}
    (reads : opensModel target graphics calls (some model) = some opens) :
    Showing graphics model ad opens before (messageStep target graphics calls w) := by
  rcases messageStep_cases target graphics calls w with same | ⟨message, queue, next, waiting, processes, result⟩
  · rw [same]
    exact h
  · rw [result]
    obtain ⟨due, others, done⟩ := flow.done_window waiting processes
      (w.processed ++ [(message, (w.dlg.m_PointerPass message.kind).block)])
    cases message with
    | modelInfo lParam =>
      obtain ⟨shown, tex, width, height, -⟩ := windowProc_info processes
      exact h.frame (others .model nofun) (others .ad nofun) shown tex width height
    | modelDownloaded lParam =>
      obtain ⟨now, block⟩ := done model model_one
      have ad_iff := others .ad nofun
      obtain ⟨opened, opens_eq, shown, tex, width, height, -⟩ := windowProc_model [] processes
      change (w.dlg.m_PointerPass .model).block = some model at block
      change opensModel target graphics calls (w.dlg.m_PointerPass .model).block = some opened at opens_eq
      rw [block, reads] at opens_eq
      cases opens_eq
      constructor
      · intro notDone
        exact absurd now notDone
      · intro _
        apply shown.trans
        dsimp only
        rw [block, h.model_due due]
      · intro adDue
        have held := h.ad_due (mt ad_iff.mpr adDue)
        exact ⟨tex.trans held.1, width.trans held.2.1, height.trans held.2.2⟩
      · intro adDone
        have held := h.ad_done (ad_iff.mp adDone)
        refine ⟨tex.trans held.1, ?_⟩
        dsimp only
        rw [width, height]
        exact held.2
    | adDownloaded lParam =>
      obtain ⟨now, block⟩ := done ad ad_one
      have model_iff := others .model nofun
      obtain ⟨shown, tex, size, -⟩ := windowProc_ad [] processes
      change (w.dlg.m_PointerPass .ad).block = some ad at block
      obtain ⟨tex_eq, width_eq, height_eq⟩ := h.ad_due due
      dsimp only at tex size
      rw [block, tex_eq] at tex
      rw [block, width_eq, height_eq] at size
      constructor
      · intro modelDue
        exact shown.trans (h.model_due (mt model_iff.mpr modelDue))
      · intro modelDone
        exact shown.trans (h.model_done (model_iff.mp modelDone))
      · intro notDone
        exact absurd now notDone
      · intro _
        exact ⟨tex, size⟩

end Showing

end Steps

/-! ### Runs -/

section Runs
variable {target : Target} {graphics : Graphics Shader Texture} {folder : Path}

/-- The screen after a model and an ad have arrived. -/
def Screen.after (graphics : Graphics Shader Texture) (model ad : Block) (opens : Bool) (strAdUrl : Wide)
    (before : Dialog Texture) : Screen Texture :=
  let size := (graphics.imageFromStream (some ad)).getD (before.m_iAdWidth1, before.m_iAdHeight1)
  ⟨if opens then some model else before.m_pModel1,
    graphics.createTextureFromFileInMemoryEx before.m_pAdTex (some ad), size.1, size.2, strAdUrl⟩

/-- What follows a load: threads and messages, and a reader with the same verdict each time. -/
def Reads (target : Target) (graphics : Graphics Shader Texture) (model : Block) (opens : Bool) :
    Input Shader Texture → World Texture → Prop
  | .thread _, _ => True
  | .message calls, _ => opensModel target graphics calls (some model) = some opens
  | _, _ => False

/-- Each slot from one source, all orders come to one screen. -/
theorem run_screen {w : World Texture} (idle : w.Idle) (s : Wide) (D : Downloads) (calls : LoadCalls)
    {model ad : Block} {opens : Bool}
    (model_one : OneSource D (fetchOf (w.dlg.m_Cache.loadModel w.disk s calls) .model)
      (sourceOf (w.dlg.m_Cache.loadModel w.disk s calls) .model) .model model)
    (ad_one : OneSource D (fetchOf (w.dlg.m_Cache.loadModel w.disk s calls) .ad)
      (sourceOf (w.dlg.m_Cache.loadModel w.disk s calls) .ad) .ad ad)
    {inputs : List (Input Shader Texture)}
    (reads : Machine.GoodRun (step target graphics folder) (Reads target graphics model opens)
      (load3DScanFromUrl s D calls w) inputs)
    (quiet : (Machine.run (step target graphics folder) (load3DScanFromUrl s D calls w) inputs).Quiet) :
    (Machine.run (step target graphics folder) (load3DScanFromUrl s D calls w) inputs).dlg.screen =
      Screen.after graphics model ad opens
        (if fetchOf (w.dlg.m_Cache.loadModel w.disk s calls) .ad then D.strAdUrl else w.dlg.m_strAdUrl) w.dlg := by
  obtain ⟨fresh, dlg, -⟩ := load_eq idle s D calls
  generalize w.dlg.m_Cache.loadModel w.disk s calls = loaded at *
  generalize load3DScanFromUrl s D calls w = start at *
  have free : ∀ k, sourceOf loaded k = none ∨ fetchOf loaded k = false := by
    intro k
    cases k with
    | info => exact Or.inl rfl
    | model => exact model_one.imp (fun one => one.2.1) fun one => one.1
    | ad => exact ad_one.imp (fun one => one.2.1) fun one => one.1
  have url := fresh.url
  rw [dlg] at url
  have showing : Showing graphics model ad opens w.dlg start := by
    constructor
    · intro _
      rw [dlg]
    · intro done
      exact absurd done (fresh.due model_one)
    · intro _
      rw [dlg]
      exact ⟨rfl, rfl, rfl⟩
    · intro done
      exact absurd done (fresh.due ad_one)
  have keep : ∀ i v, Reads target graphics model opens i v →
      (Flow D (fetchOf loaded) (sourceOf loaded) v ∧ UrlStands D (fetchOf loaded) w.dlg.m_strAdUrl v ∧
        Showing graphics model ad opens w.dlg v) →
      Flow D (fetchOf loaded) (sourceOf loaded) (step target graphics folder i v) ∧
        UrlStands D (fetchOf loaded) w.dlg.m_strAdUrl (step target graphics folder i v) ∧
        Showing graphics model ad opens w.dlg (step target graphics folder i v) := by
    rintro i v reads ⟨flow, url, showing⟩
    cases i with
    | onInitDialog memory calls => cases reads
    | load3DScanFromUrl strSubsid D calls => cases reads
    | thread k => exact ⟨flow.thread (flow.slotFree (free k)), url.thread flow k, showing.thread flow k⟩
    | message calls => exact ⟨flow.window calls, url.window calls, showing.window flow model_one ad_one reads⟩
  obtain ⟨-, url, showing⟩ := reads.invariant keep ⟨fresh.flow, url, showing⟩
  generalize Machine.run (step target graphics folder) start inputs = last at *
  have done : ∀ k, Done k last := fun k => ⟨quiet.threads k, by rw [World.mail, quiet.queue]; rfl⟩
  obtain ⟨tex, size⟩ := showing.ad_done (done .ad)
  have last_url : last.dlg.m_strAdUrl = if fetchOf loaded .ad then D.strAdUrl else w.dlg.m_strAdUrl := by
    cases fetches : fetchOf loaded .ad with
    | false => exact url.kept (Or.inl fetches)
    | true => exact url.written fetches (by rw [quiet.threads]; exact List.not_mem_nil)
  rw [Dialog.screen, Screen.after, showing.model_done (done .model), tex, last_url, ← size]

theorem oneSource_miss (D : Downloads) (k : Kind) : OneSource D (fetchOf none k) (sourceOf none k) k (D.block k) := by
  cases k <;> exact Or.inl ⟨rfl, rfl, rfl⟩

theorem fetchOf_ad {ad : Block} (some_byte : ad.bytes ≠ []) (model : List UInt8) (thumb : Option (List UInt8)) :
    fetchOf (some ⟨model, some ad.bytes, thumb⟩) .ad = false := by
  have size : (Int32.ofNat ad.bytes.length).toInt = ad.bytes.length := Int32.toInt_ofNat_of_lt ad.small
  have nonzero : Int32.ofNat ad.bytes.length ≠ 0 := by
    intro zero
    rw [zero] at size
    have length : (0 : Int) = ad.bytes.length := size
    exact some_byte (List.length_eq_zero_iff.mp (by omega))
  simp [fetchOf, PointerPass.ofFile, nonzero]

/-- A viewer that has a model, its ad and its URL in the cache shows what a download shows exactly when
`m_strAdUrl` is the URL before: the cache does not give it back. -/
theorem cached_screen_iff {later : World Texture} (idle : later.Idle) {s : Wide} {D : Downloads}
    {hit : LoadCalls} {thumb : Option (List UInt8)}
    (cached : later.dlg.m_Cache.loadModel later.disk s hit = some ⟨D.model.bytes, some D.ad.bytes, thumb⟩)
    (ad : D.ad.bytes ≠ []) {other : CModelCache} {disk : Disk} {miss : LoadCalls}
    (absent : other.loadModel disk s miss = none) {opens : Bool} {fromCache fromServer : List (Input Shader Texture)}
    (reads : Machine.GoodRun (step target graphics folder) (Reads target graphics D.model opens)
      (load3DScanFromUrl s D hit later) fromCache)
    (quiet : (Machine.run (step target graphics folder) (load3DScanFromUrl s D hit later) fromCache).Quiet)
    (reads' : Machine.GoodRun (step target graphics folder) (Reads target graphics D.model opens)
      (load3DScanFromUrl s D miss { later with dlg := { later.dlg with m_Cache := other }, disk }) fromServer)
    (quiet' : (Machine.run (step target graphics folder)
      (load3DScanFromUrl s D miss { later with dlg := { later.dlg with m_Cache := other }, disk }) fromServer).Quiet) :
    (Machine.run (step target graphics folder) (load3DScanFromUrl s D hit later) fromCache).dlg.screen =
      (Machine.run (step target graphics folder)
        (load3DScanFromUrl s D miss { later with dlg := { later.dlg with m_Cache := other }, disk })
        fromServer).dlg.screen ↔ later.dlg.m_strAdUrl = D.strAdUrl := by
  have stays := fetchOf_ad ad D.model.bytes thumb
  have model_hit : OneSource D (fetchOf (later.dlg.m_Cache.loadModel later.disk s hit) .model)
      (sourceOf (later.dlg.m_Cache.loadModel later.disk s hit) .model) .model D.model := by
    rw [cached]
    exact Or.inr ⟨rfl, rfl⟩
  have ad_hit : OneSource D (fetchOf (later.dlg.m_Cache.loadModel later.disk s hit) .ad)
      (sourceOf (later.dlg.m_Cache.loadModel later.disk s hit) .ad) .ad D.ad := by
    rw [cached]
    exact Or.inr ⟨stays, rfl⟩
  have idle' : World.Idle { later with dlg := { later.dlg with m_Cache := other }, disk } :=
    ⟨⟨idle.threads, idle.queue⟩, idle.slots⟩
  have miss_one : ∀ k, OneSource D (fetchOf (other.loadModel disk s miss) k)
      (sourceOf (other.loadModel disk s miss) k) k (D.block k) := by
    rw [absent]
    exact oneSource_miss D
  rw [run_screen idle s D hit model_hit ad_hit reads quiet,
    run_screen idle' s D miss (miss_one .model) (miss_one .ad) reads' quiet', cached, stays]
  dsimp only
  rw [absent]
  simp [Screen.after, fetchOf, Downloads.block]

end Runs

/-! ### A session -/

namespace Session

def modelFile : Block where
  bytes := FileHeader.codec.enc { blank FileHeader.codec "SEYEDOF 3D FORMAT" with uiVersion := formatVersion }
  small := by rw [Packed.Codec.length_enc]; decide

def downloads (strAdUrl : Wide) : Downloads :=
  ⟨⟨[52], by decide⟩, 46, modelFile, ⟨[66, 77], by decide⟩, strAdUrl⟩

/-- A picture is its bytes. -/
def graphics : Graphics Unit (List UInt8) where
  pDevice := some ⟨fun _ => some (), fun data _ => some data, fun _ => 1⟩
  createTextureFromFileInMemoryEx _ data := data.map Block.bytes
  imageFromStream data := data.map fun _ => (1, 1)

def memory : Dialog (List UInt8) where
  m_PointerPass _ := ⟨none, 0⟩
  m_strSubsid := emptyString
  m_strAdUrl := emptyString
  m_pModel1 := none
  m_pAdTex := none
  m_iAdWidth1 := 0
  m_iAdHeight1 := 0
  m_iFileSize := 0
  m_bDownloading := false
  m_Cache := .construct

def material : D3d.D3dModelMaterial Unit :=
  ⟨none, none, ⟨⟨0⟩, ⟨0⟩, ⟨0⟩, ⟨0⟩⟩, ⟨⟨0⟩, ⟨0⟩, ⟨0⟩, ⟨0⟩⟩, ⟨0⟩, ⟨0⟩, ⟨0⟩, ⟨0⟩, [], [], [], [], [], 0, 0, 0, 0, 0⟩

def window : WindowCalls Unit where
  memory := List.replicate 4 default
  materials _ := material
  box := (⟨⟨0⟩, ⟨0⟩, ⟨0⟩⟩, ⟨⟨0⟩, ⟨0⟩, ⟨0⟩⟩)
  thumb := none
  localTime := List.Vector.replicate 8 0
  addModel := addSample
  addAd := ⟨true, true⟩

def loads : LoadCalls := ⟨⟨true, true, fun _ => 0⟩, ⟨true, true, fun _ => 0⟩, ⟨true, true, fun _ => 0⟩⟩

def subscription : Wide := letter 65 A_ne_zero

abbrev Step : Type := Input Unit (List UInt8)

def run (w : World (List UInt8)) (inputs : List Step) : World (List UInt8) :=
  Machine.run (step .win32 graphics [68]) w inputs

def unborn : World (List UInt8) := ⟨memory, fun _ => none, fun _ => [], [], []⟩

/-- The URL is there before the model is processed, and the model is processed before the ad. -/
def downloading : List Step :=
  [.thread .info, .thread .info, .thread .info, .thread .ad, .thread .ad, .thread .ad, .thread .model,
    .thread .model, .thread .model, .thread .ad, .message window, .message window, .message window]

def downloaded (strAdUrl : Wide) : World (List UInt8) :=
  run unborn ([.onInitDialog memory initSample, .load3DScanFromUrl subscription (downloads strAdUrl) loads] ++
    downloading)

def cached (strAdUrl : Wide) : World (List UInt8) := run (downloaded strAdUrl) [.onInitDialog memory initSample]

def again (strAdUrl : Wide) : World (List UInt8) :=
  run (load3DScanFromUrl subscription (downloads strAdUrl) loads (cached strAdUrl))
    [.message window, .message window]

def anew (strAdUrl : Wide) : World (List UInt8) :=
  run (load3DScanFromUrl subscription (downloads strAdUrl) loads
    { cached strAdUrl with dlg := { (cached strAdUrl).dlg with m_Cache := .construct } }) downloading

theorem opens_modelFile : opensModel .win32 graphics window (some modelFile) = some true := by decide +kernel

theorem again_screen : (again emptyString).dlg.screen = (anew emptyString).dlg.screen := by
  have idle : (cached emptyString).Idle := by
    refine ⟨⟨fun k => ?_, rfl⟩, fun k => ?_⟩ <;> cases k <;> rfl
  have loaded : (cached emptyString).dlg.m_Cache.loadModel (cached emptyString).disk subscription loads =
      some ⟨(downloads emptyString).model.bytes, some (downloads emptyString).ad.bytes, some []⟩ := by
    decide +kernel
  have quiet : (again emptyString).Quiet := ⟨fun k => by cases k <;> decide +kernel, by decide +kernel⟩
  have quiet' : (anew emptyString).Quiet := ⟨fun k => by cases k <;> decide +kernel, by decide +kernel⟩
  refine (@cached_screen_iff _ _ .win32 graphics [68] _ idle _ _ _ _ loaded (by decide) _ _ loads rfl true _ _
    ?_ quiet ?_ quiet').mpr rfl
  · exact ⟨opens_modelFile, opens_modelFile, trivial⟩
  · exact ⟨trivial, trivial, trivial, trivial, trivial, trivial, trivial, trivial, trivial, trivial,
      opens_modelFile, opens_modelFile, opens_modelFile, trivial⟩

/-- The entry has the URL, and a click does not open it. -/
theorem again_without_url :
    (downloaded (letter 66 (by decide))).queue = [] ∧
    ((cached (letter 66 (by decide))).dlg.m_Cache.m_CacheTable.map fun e => (wcs e.szSibscriptionId, wcs e.szAdUrl)) =
      [(subscription.chars, [66])] ∧
    (cached (letter 66 (by decide))).dlg.m_Cache.loadModel (cached (letter 66 (by decide))).disk subscription loads =
      some ⟨modelFile.bytes, some [66, 77], some []⟩ ∧
    (again (letter 66 (by decide))).queue = [] ∧
    (downloaded (letter 66 (by decide))).dlg.screen.click 100 0 99 = some (letter 66 (by decide)) ∧
    (again (letter 66 (by decide))).dlg.screen.click 100 0 99 = some emptyString ∧
    (again (letter 66 (by decide))).dlg.screen ≠ (downloaded (letter 66 (by decide))).dlg.screen := by
  decide +kernel

end Session

end ModelPublish.Viewer
