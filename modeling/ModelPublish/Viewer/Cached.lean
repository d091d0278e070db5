import ModelPublish.Cache.Failures
import ModelPublish.Viewer.Shown

/-!
# What the cache keeps of a download

One `Load3DScanFromUrl`, its threads and messages in any order, and what the cache holds when all is over.
-/

namespace ModelPublish.Viewer
open Cache CModelCache Scan

variable {Shader Texture : Type}

/-! ### The cache below the viewer -/

def entryOf (c : CModelCache) (strSubsid : Wide) : Option CacheEntry :=
  (c.searchInCache strSubsid).bind fun i => c.m_CacheTable[i]?

/-- The names are given and the files are written. -/
structure AddWorks (calls : AddCalls) : Prop where
  names : calls.modelName.isSome = true ∧ calls.adName.isSome = true ∧ calls.thumbName.isSome = true
  model : calls.model.opens = true ∧ calls.model.writes = true
  ad : calls.ad.opens = true ∧ calls.ad.writes = true
  thumb : calls.thumb.opens = true ∧ calls.thumb.writes = true

/-- The cache answers what it was told, and its index file holds its table. -/
structure Kept (appData folder : Path) (st : State) (answers : Answers) : Prop where
  stocked : ∃ stored, Stocked appData folder st answers stored
  linked : ∃ stored, Linked Eq appData folder st.cache st.disk stored

/-- What keeps the cache so. -/
def Op.Keeps (appData folder : Path) (op : Op) (st : State) : Prop :=
  op.Sound appData folder st ∧ op.Covered appData st ∧ op.KeepsUrl st

section Cache
variable {appData folder : Path} {st : State} {answers : Answers} {c : CModelCache} {disk : Disk}

theorem Kept.step (h : Kept appData folder st answers) {op : Op} (keeps : Op.Keeps appData folder op st) :
    Kept appData folder (Cache.step folder op st) (answers.tell op (call folder op st).1) := by
  obtain ⟨sound, covered, url⟩ := keeps
  obtain ⟨stored, stocked⟩ := h.stocked
  obtain ⟨stored', linked⟩ := h.linked
  refine ⟨Stocked.step (s := (st, answers)) stocked sound covered, ?_⟩
  refine linked.step (fun _ => rfl) (fun d e same => by rw [same]) sound ?_
  intro block strAdUrl e stores d same
  rw [setUrl_same (url block strAdUrl e stores)]
  exact same

theorem saveMemToFile_works {call : SaveCall} (works : call.opens = true ∧ call.writes = true) (disk : Disk)
    (path : Path) (data : List UInt8) : (saveMemToFile disk call path data).1 = true := by
  rw [saveMemToFile, if_pos works.1, if_pos works.2]

theorem AddWorks.files {calls : AddCalls} (works : AddWorks calls) (m : NewModel) : AddCalls.Files calls m where
  names := works.names
  model := works.model
  ad _ := works.ad
  thumb _ := works.thumb

theorem addModelToCache_works {m : NewModel} {calls : AddCalls} {data : Block} (works : AddWorks calls)
    (opened : c.m_hCacheFile.isSome = true) (stores : c.m_bEnableCacheStore = true)
    (given : m.pModelFileData = some data) (absent : c.searchInCache m.strSubsid = none) :
    (c.addModelToCache disk m calls).1 = true := by
  obtain ⟨handle, opened⟩ := Option.isSome_iff_exists.mp opened
  obtain ⟨model, named⟩ := Option.isSome_iff_exists.mp works.names.1
  have accepted : ¬ Refused c m := by
    rw [Refused, opened, given, stores, absent]
    simp
  obtain ⟨entry, filed⟩ := Option.isSome_iff_exists.mp
    ((fileModel_named disk accepted named).1.mpr (works.files m))
  have made : c.fileModel disk m calls = (some entry, (c.fileModel disk m calls).2) := Prod.ext filed rfl
  rw [addModelToCache, opened, made]

theorem addAdToCache_works {strSubsid strAdUrl : Wide} {e : CacheEntry} {data : Block} {call : SaveCall}
    (opened : c.m_hCacheFile.isSome = true) (stores : c.m_bEnableCacheStore = true)
    (works : call.opens = true ∧ call.writes = true) (found : entryOf c strSubsid = some e)
    (same : wcs e.szAdUrl = strAdUrl.chars) :
    ∃ disk', c.addAdToCache disk strSubsid (some data) strAdUrl call = (true, c, disk') := by
  obtain ⟨i, search, at_i⟩ := Option.bind_eq_some_iff.mp found
  have table : c.m_CacheTable.modify i (setUrl strAdUrl) = c.m_CacheTable := by
    apply List.ext_getElem?
    intro j
    rw [List.getElem?_modify]
    split
    · rename_i here
      rw [← here, at_i]
      simp [setUrl_same same]
    · simp
  have closed : c.m_hCacheFile.isNone = false := by
    rw [← Option.not_isSome, opened]
    rfl
  simp only [addAdToCache, closed, stores, search, at_i, Option.map_some, Option.getD_some, Bool.false_eq_true,
    Bool.true_eq_false, if_false]
  split
  · rename_i failed
    exact absurd (congrArg Prod.fst failed) (by simp [saveMemToFile_works works])
  · rw [table, ← stores]
    exact ⟨_, rfl⟩

end Cache

/-! ### Steps -/

/-- The system calls of a message that was posted by a download succeed. -/
def Works (calls : WindowCalls Shader) (w : World Texture) : Message → Prop
  | .modelInfo _ => True
  | .modelDownloaded lParam => lParam = 0 → AddCalls.Fresh calls.addModel w.disk ∧ calls.addModel.seeks = true ∧
    calls.addModel.writes = true ∧ AddWorks calls.addModel
  | .adDownloaded lParam => lParam = 0 → calls.addAd.opens = true ∧ calls.addAd.writes = true

/-- A downloaded model is one that opens, and a downloaded ad finds its entry, with its URL. -/
def InOrder (target : Target) (graphics : Graphics Shader Texture) (calls : WindowCalls Shader) (w : World Texture) :
    Message → Prop
  | .modelInfo _ => True
  | .modelDownloaded lParam =>
    lParam = 0 → opensModel target graphics calls (w.dlg.m_PointerPass .model).block = some true
  | .adDownloaded lParam => lParam = 0 → ∃ e, entryOf w.dlg.m_Cache w.dlg.m_strSubsid = some e ∧
    wcs e.szAdUrl = w.dlg.m_strAdUrl.chars

/-- What follows a load, when all system calls succeed. -/
def Follows : Input Shader Texture → World Texture → Prop
  | .thread _, _ => True
  | .message calls, w => ∀ message ∈ w.queue.head?, Works calls w message
  | _, _ => False

/-- The order in which the ad is not lost. -/
def Orderly (target : Target) (graphics : Graphics Shader Texture) : Input Shader Texture → World Texture → Prop
  | .thread k, w => SlotFree k w
  | .message calls, w => ∀ message ∈ w.queue.head?, InOrder target graphics calls w message
  | _, _ => True

/-- What the cache has to answer. `adDone` says whether a downloaded ad has been processed. -/
structure Answered (D : Downloads) (loaded : Option Loaded) (adDone : Prop) (l : Loaded) : Prop where
  model : l.model = (loaded.map Loaded.model).getD D.model.bytes
  ad_due : fetchOf loaded .ad = true → ¬ adDone → l.ad = some []
  ad_done : fetchOf loaded .ad = true → adDone → l.ad = some D.ad.bytes
  same : fetchOf loaded .ad = false → loaded = some l

structure Caching (appData folder : Path) (s : Wide) (D : Downloads) (loaded : Option Loaded) (answers : Answers)
    (w : World Texture) : Prop where
  kept : Kept appData folder w.state answers
  opened : w.dlg.m_Cache.m_hCacheFile.isSome = true
  subsid : w.dlg.m_strSubsid = s
  missing : loaded = none → ¬ Done .model w → answers s = none ∧ ¬ Done .ad w
  held : loaded ≠ none ∨ Done .model w → ∃ l, answers s = some l ∧ Answered D loaded (Done .ad w) l
  url : fetchOf loaded .ad = true → Done .ad w →
    ∃ e, entryOf w.dlg.m_Cache s = some e ∧ wcs e.szAdUrl = D.strAdUrl.chars

section Steps
variable {target : Target} {graphics : Graphics Shader Texture} {appData folder : Path} {s : Wide} {D : Downloads}
  {loaded : Option Loaded} {answers : Answers} {w w' next : World Texture}

theorem Caching.frame (h : Caching appData folder s D loaded answers w) (state : w'.state = w.state)
    (subsid : w'.dlg.m_strSubsid = w.dlg.m_strSubsid) (model_iff : Done .model w' ↔ Done .model w)
    (ad_iff : Done .ad w' ↔ Done .ad w) : Caching appData folder s D loaded answers w' := by
  have cache : w'.dlg.m_Cache = w.dlg.m_Cache := congrArg State.cache state
  constructor
  · rw [state]
    exact h.kept
  · rw [cache]
    exact h.opened
  · rw [subsid]
    exact h.subsid
  · rw [model_iff, ad_iff]
    exact h.missing
  · rw [model_iff, ad_iff]
    exact h.held
  · rw [ad_iff, cache]
    exact h.url

/-- What the cache has left in a slot is not stored again. -/
theorem Caching.fromCache (h : Caching appData folder s D loaded answers w) (some_loaded : loaded ≠ none)
    (state : w'.state = w.state) (subsid : w'.dlg.m_strSubsid = w.dlg.m_strSubsid)
    (ad_iff : fetchOf loaded .ad = true → (Done .ad w' ↔ Done .ad w)) :
    Caching appData folder s D loaded answers w' := by
  have cache : w'.dlg.m_Cache = w.dlg.m_Cache := congrArg State.cache state
  refine ⟨?_, ?_, subsid.trans h.subsid, fun none => absurd none some_loaded, fun _ => ?_, fun fetches => ?_⟩
  · rw [state]
    exact h.kept
  · rw [cache]
    exact h.opened
  · obtain ⟨l, answer, answered⟩ := h.held (Or.inl some_loaded)
    exact ⟨l, answer, answered.model, fun fetches due => answered.ad_due fetches (mt (ad_iff fetches).mpr due),
      fun fetches done => answered.ad_done fetches ((ad_iff fetches).mp done), answered.same⟩
  · rw [ad_iff fetches, cache]
    exact h.url fetches

theorem Caching.thread {source : Kind → Option PointerPass} (h : Caching appData folder s D loaded answers w)
    (flow : Flow D (fetchOf loaded) source w) (k : Kind) :
    Caching appData folder s D loaded answers (threadStep k w) := by
  have model_iff := flow.done_thread k .model
  have ad_iff := flow.done_thread k .ad
  cases head : w.threads k with
  | nil =>
    rw [threadStep_nil head]
    exact h
  | cons statement rest =>
    rw [threadStep_cons head] at model_iff ad_iff ⊢
    obtain ⟨-, -, state, subsid, -⟩ :=
      exec_rest { w with threads := Function.update w.threads k rest } k statement
    exact h.frame state subsid model_iff ad_iff

theorem Kept.search (h : Kept appData folder w.state answers) (opened : w.dlg.m_Cache.m_hCacheFile.isSome = true)
    (strSubsid : Wide) : w.dlg.m_Cache.searchInCache strSubsid = none ↔ answers strSubsid = none := by
  obtain ⟨stored, stocked⟩ := h.stocked
  obtain ⟨handle, opened⟩ := Option.isSome_iff_exists.mp opened
  have search := stocked.linked.search opened stocked.enabled.1 strSubsid
  rw [stocked.answers_eq, List.find?_eq_bind_findIdx?_getElem?]
  change w.dlg.m_Cache.searchInCache strSubsid = _ at search
  rw [← search]
  cases found : w.dlg.m_Cache.searchInCache strSubsid with
  | none => simp
  | some i =>
    obtain ⟨e, at_i, -⟩ := searchInCache_found found
    obtain ⟨d, at_i', -⟩ := stocked.linked.found found at_i
    obtain ⟨-, content, there, -⟩ :=
      stocked.shelved.there d (List.mem_of_getElem? at_i') (wcs d.szModelFile) (by simp [filesOf])
    simp [at_i', loadedOf, there]

theorem Kept.covers (h : Kept appData folder w.state answers) {strSubsid : Wide} {l : Loaded}
    (answer : answers strSubsid = some l) (empty : l.ad = some []) (data : Option Block) (strAdUrl : Wide)
    (call : SaveCall) : (Op.addAd strSubsid data strAdUrl call).Covers w.state := by
  obtain ⟨stored, stocked⟩ := h.stocked
  intro block url e stores
  cases stores with
  | addAd stores opens writes found at_i =>
    obtain ⟨d, at_i', same⟩ := stocked.linked.found found at_i
    obtain ⟨handle, opened⟩ := Option.isSome_iff_exists.mp (searchInCache_some found).1
    have search := stocked.linked.search opened stocked.enabled.1 strSubsid
    have told := stocked.answers_eq strSubsid
    rw [answer, List.find?_eq_bind_findIdx?_getElem?, ← search, found, Option.bind_some, at_i',
      Option.bind_some, loadedOf] at told
    obtain ⟨model, -, l_eq⟩ := Option.map_eq_some_iff.mp told.symm
    have adFile : wcs e.szAdFile = wcs d.szAdFile := by
      obtain ⟨_, rfl⟩ := same
      rfl
    have content : w.state.disk (wcs d.szAdFile) = some [] := by
      rw [← empty, ← l_eq]
    rw [adFile, content]
    exact Nat.zero_le _

theorem Flow.head {fetch : Kind → Bool} {source : Kind → Option PointerPass} (h : Flow D fetch source w)
    {message : Message} {queue : List Message} (waiting : w.queue = message :: queue) :
    message.FromCache ∧ source message.kind ≠ none ∧
        w.threads message.kind = (if fetch message.kind then D.callback message.kind else []) ∨
      fetch message.kind = true ∧ message = D.message message.kind ∧
        (w.dlg.m_PointerPass message.kind).block = some (D.block message.kind) ∧ w.threads message.kind = [] := by
  have own := mail_cons waiting message.kind
  rw [if_pos rfl] at own
  have course := h message.kind
  rw [own] at course
  cases course with
  | given source_eq thread_eq mail_eq cached =>
    rw [← List.head_eq_of_cons_eq mail_eq] at cached
    exact Or.inl ⟨cached, by rw [source_eq]; nofun, thread_eq⟩
  | ready thread_eq empty mail_eq => cases mail_eq
  | data fetches thread_eq filled mail_eq => cases mail_eq
  | full fetches thread_eq slot_eq mail_eq => cases mail_eq
  | posted fetches thread_eq slot_eq mail_eq =>
    have same : message = D.message message.kind := List.head_eq_of_cons_eq mail_eq
    exact Or.inr ⟨fetches, same, by rw [slot_eq, PointerPass.block_ofFile], thread_eq⟩
  | used fetches thread_eq empty mail_eq => cases mail_eq

theorem Flow.done_after {fetch : Kind → Bool} {source : Kind → Option PointerPass} (h : Flow D fetch source w)
    {calls : WindowCalls Shader} {message : Message} {queue : List Message} (waiting : w.queue = message :: queue)
    (processes : windowProc target graphics calls message { w with queue } = some next)
    (processed : List (Message × Option Block)) :
    Done message.kind { next with processed } ↔ w.threads message.kind = [] := by
  obtain ⟨-, threads, rest, -⟩ := windowProc_slots processes
  have own := mail_cons waiting message.kind
  rw [if_pos rfl] at own
  have course := h message.kind
  rw [own] at course
  have noMail : World.mail { next with processed } message.kind = [] := by
    rw [← course.take.1]
    simp only [World.mail, rest]
  unfold Done
  rw [noMail]
  dsimp only
  rw [threads]
  exact and_iff_left rfl

theorem Caching.addModel (h : Caching appData folder s D none answers w) (due : ¬ Done .model w)
    {calls : WindowCalls Shader} (fresh : AddCalls.Fresh calls.addModel w.disk) (seeks : calls.addModel.seeks = true)
    (writes : calls.addModel.writes = true) (works : AddWorks calls.addModel) :
    ∃ answers', Kept appData folder
        (Cache.step folder (.addModel (newModel calls w.dlg (some D.model)) calls.addModel) w.state) answers' ∧
      (Cache.step folder (.addModel (newModel calls w.dlg (some D.model)) calls.addModel)
        w.state).cache.m_hCacheFile.isSome = true ∧
      ∃ l, answers' s = some l ∧ l.model = D.model.bytes ∧ l.ad = some [] := by
  obtain ⟨absent, -⟩ := h.missing rfl due
  obtain ⟨stored, stocked⟩ := h.kept.stocked
  have search : w.dlg.m_Cache.searchInCache w.dlg.m_strSubsid = none := by
    rw [h.subsid]
    exact (h.kept.search h.opened s).mpr absent
  have added : (call folder (.addModel (newModel calls w.dlg (some D.model)) calls.addModel) w.state).1 = true :=
    addModelToCache_works works h.opened stocked.enabled.2 rfl search
  have keeps : Op.Keeps appData folder (.addModel (newModel calls w.dlg (some D.model)) calls.addModel) w.state := by
    refine ⟨⟨fresh, seeks, writes⟩, ?_, ?_⟩
    · rintro block url e ⟨⟩
    · rintro block url e ⟨⟩
  have kept := h.kept.step keeps
  rw [added] at kept
  refine ⟨_, kept, ?_, ⟨D.model.bytes, some [], some (blockBytes calls.thumb)⟩, ?_, rfl, rfl⟩
  · rcases addModelToCache_cases fresh (c := w.dlg.m_Cache) (m := newModel calls w.dlg (some D.model)) with
      ⟨disk', result, -, -⟩ | ⟨handle, data, model, ad, thumb, disk', -, -, -, -, result⟩
    · have fails := congrArg Prod.fst result
      change (call folder (.addModel (newModel calls w.dlg (some D.model)) calls.addModel) w.state).1 = false at fails
      rw [added] at fails
      cases fails
    · show (w.dlg.m_Cache.addModelToCache w.disk _ calls.addModel).2.1.m_hCacheFile.isSome = true
      rw [result]
      rfl
  · show Function.update answers w.dlg.m_strSubsid _ s = _
    rw [h.subsid, Function.update_self]
    rfl

theorem Caching.addAd (h : Caching appData folder s D loaded answers w) (fetches : fetchOf loaded .ad = true)
    (due : ¬ Done .ad w) {save : SaveCall} (works : save.opens = true ∧ save.writes = true) {e : CacheEntry}
    (found : entryOf w.dlg.m_Cache w.dlg.m_strSubsid = some e) (url : wcs e.szAdUrl = w.dlg.m_strAdUrl.chars) :
    ∃ answers', Kept appData folder
        (Cache.step folder (.addAd w.dlg.m_strSubsid (some D.ad) w.dlg.m_strAdUrl save) w.state) answers' ∧
      (Cache.step folder (.addAd w.dlg.m_strSubsid (some D.ad) w.dlg.m_strAdUrl save) w.state).cache =
        w.dlg.m_Cache ∧
      (loaded ≠ none ∨ Done .model w) ∧
      ∃ l l', answers s = some l ∧ answers' s = some l' ∧ l' = { l with ad := some D.ad.bytes } := by
  rw [h.subsid] at found ⊢
  obtain ⟨stored, stocked⟩ := h.kept.stocked
  obtain ⟨i, search, at_i⟩ := Option.bind_eq_some_iff.mp found
  have there : loaded ≠ none ∨ Done .model w := by
    by_contra neither
    obtain ⟨none, modelDue⟩ := not_or.mp neither
    obtain ⟨absent, -⟩ := h.missing (not_not.mp none) modelDue
    rw [(h.kept.search h.opened s).mpr absent] at search
    cases search
  obtain ⟨l, answer, answered⟩ := h.held there
  have adds : ∃ disk', w.dlg.m_Cache.addAdToCache w.disk s (some D.ad) w.dlg.m_strAdUrl save =
      (true, w.dlg.m_Cache, disk') := addAdToCache_works h.opened stocked.enabled.2 works found url
  obtain ⟨disk', result⟩ := adds
  have stepped : call folder (.addAd s (some D.ad) w.dlg.m_strAdUrl save) w.state =
      (true, ⟨w.dlg.m_Cache, disk'⟩) := by
    simp only [Cache.call, World.state, result]
  have keeps : Op.Keeps appData folder (.addAd s (some D.ad) w.dlg.m_strAdUrl save) w.state := by
    refine ⟨trivial, h.kept.covers answer (answered.ad_due fetches due) _ _ _, ?_⟩
    intro block strAdUrl e' stores
    cases stores with
    | addAd _ _ _ found' at_i' =>
      change w.dlg.m_Cache.searchInCache s = _ at found'
      rw [search] at found'
      cases found'
      change w.dlg.m_Cache.m_CacheTable[i]? = _ at at_i'
      rw [at_i] at at_i'
      cases at_i'
      exact url
  have kept := h.kept.step keeps
  rw [stepped] at kept
  refine ⟨_, kept, ?_, there, l, { l with ad := some D.ad.bytes }, answer, ?_, rfl⟩
  · rw [Cache.step, stepped]
  · show Function.update answers s _ s = _
    rw [Function.update_self, answer]
    rfl

theorem Caching.modelDownloaded (h : Caching appData folder s D loaded answers w)
    (flow : Flow D (fetchOf loaded) (sourceOf loaded) w) {calls : WindowCalls Shader} {lParam : Nat}
    {queue : List Message} (waiting : w.queue = .modelDownloaded lParam :: queue)
    (processes : windowProc target graphics calls (.modelDownloaded lParam) { w with queue } = some next)
    (works : Works calls w (.modelDownloaded lParam))
    (order : InOrder target graphics calls w (.modelDownloaded lParam)) (processed : List (Message × Option Block)) :
    ∃ answers', Caching appData folder s D loaded answers' { next with processed } := by
  obtain ⟨due, others, -⟩ := flow.done_window waiting processes processed
  obtain ⟨-, -, -, subsid, -⟩ := windowProc_slots processes
  have ad_iff := others .ad nofun
  obtain ⟨opens, opened, -, -, -, -, state⟩ := windowProc_model folder processes
  rcases flow.head waiting with ⟨cached, left, -⟩ | ⟨fetches, same, block, noThread⟩
  · -- the model was in the cache, and stays there
    obtain rfl : lParam = 1 := cached
    rw [if_neg (fun both => absurd both.2 Nat.one_ne_zero)] at state
    have some_loaded : loaded ≠ none := by
      rintro rfl
      exact left rfl
    exact ⟨answers, h.fromCache some_loaded state subsid fun _ => ad_iff⟩
  · -- the model was downloaded, and gets an entry
    obtain rfl : lParam = 0 := by
      cases same
      rfl
    obtain rfl : loaded = none := Option.isNone_iff_eq_none.mp fetches
    change (w.dlg.m_PointerPass .model).block = some D.model at block
    have accepted := order rfl
    change opensModel target graphics calls (w.dlg.m_PointerPass .model).block = some opens at opened
    rw [opened] at accepted
    cases accepted
    obtain ⟨fresh, seeks, writes, addWorks⟩ := works rfl
    rw [if_pos ⟨rfl, rfl⟩] at state
    dsimp only at state
    rw [block] at state
    obtain ⟨answers', kept, isOpen, l, answer, model, ad⟩ := h.addModel due fresh seeks writes addWorks
    obtain ⟨-, adDue⟩ := h.missing rfl due
    have done := (flow.done_after waiting processes processed).mpr noThread
    refine ⟨answers', ?_, ?_, subsid.trans h.subsid, fun _ modelDue => absurd done modelDue, fun _ => ?_,
      fun _ adDone => absurd (ad_iff.mp adDone) adDue⟩
    · show Kept appData folder next.state answers'
      rw [state]
      exact kept
    · show next.state.cache.m_hCacheFile.isSome = true
      rw [state]
      exact isOpen
    · exact ⟨l, answer, model, fun _ _ => ad, fun _ adDone => absurd (ad_iff.mp adDone) adDue, nofun⟩

theorem Caching.adDownloaded (h : Caching appData folder s D loaded answers w) {before : Wide}
    (flow : Flow D (fetchOf loaded) (sourceOf loaded) w) (url : UrlStands D (fetchOf loaded) before w)
    {calls : WindowCalls Shader} {lParam : Nat} {queue : List Message}
    (waiting : w.queue = .adDownloaded lParam :: queue)
    (processes : windowProc target graphics calls (.adDownloaded lParam) { w with queue } = some next)
    (works : Works calls w (.adDownloaded lParam)) (order : InOrder target graphics calls w (.adDownloaded lParam))
    (processed : List (Message × Option Block)) :
    ∃ answers', Caching appData folder s D loaded answers' { next with processed } := by
  obtain ⟨due, others, -⟩ := flow.done_window waiting processes processed
  have after := flow.done_after waiting processes processed
  obtain ⟨-, -, -, subsid, -⟩ := windowProc_slots processes
  have model_iff := others .model nofun
  obtain ⟨-, -, -, state⟩ := windowProc_ad folder processes
  rcases flow.head waiting with ⟨cached, left, thread⟩ | ⟨fetches, same, block, noThread⟩
  · -- the ad was in the cache, or there was none
    obtain rfl : lParam = 1 := cached
    rw [if_neg Nat.one_ne_zero] at state
    have some_loaded : loaded ≠ none := by
      rintro rfl
      exact left rfl
    refine ⟨answers, h.fromCache some_loaded state subsid fun fetches => iff_of_false (fun done => ?_) due⟩
    have noThread := after.mp done
    change w.threads .ad = if fetchOf loaded .ad then D.callback .ad else [] at thread
    rw [fetches, if_pos rfl] at thread
    exact D.callback_ne_nil .ad (thread.symm.trans noThread)
  · -- the ad was downloaded, and joins its entry
    obtain rfl : lParam = 0 := by
      cases same
      rfl
    have adDone : Done .ad { next with processed } := after.mpr noThread
    have written : w.dlg.m_strAdUrl = D.strAdUrl := url.written fetches (by
      change w.threads .ad = [] at noThread
      rw [noThread]
      nofun)
    obtain ⟨e, found, same_url⟩ := order rfl
    rw [if_pos rfl] at state
    dsimp only at state
    change (w.dlg.m_PointerPass .ad).block = some D.ad at block
    rw [block] at state
    obtain ⟨answers', kept, cache, there, l, l', answer, answer', l_eq⟩ :=
      h.addAd fetches due (works rfl) found same_url
    have state' : next.state =
        Cache.step folder (.addAd w.dlg.m_strSubsid (some D.ad) w.dlg.m_strAdUrl calls.addAd) w.state := state
    rw [← state'] at kept cache
    obtain ⟨l'', answer'', answered⟩ := h.held there
    rw [answer] at answer''
    cases answer''
    refine ⟨answers', kept, ?_, subsid.trans h.subsid, ?_, fun _ => ?_, fun _ _ => ⟨e, ?_, ?_⟩⟩
    · show next.state.cache.m_hCacheFile.isSome = true
      rw [cache]
      exact h.opened
    · rw [model_iff]
      intro none modelDue
      rcases there with some_loaded | modelDone
      · exact absurd none some_loaded
      · exact absurd modelDone modelDue
    · refine ⟨l', answer', ?_, fun _ adDue => absurd adDone adDue, fun _ _ => by rw [l_eq], fun off => ?_⟩
      · rw [l_eq]
        exact answered.model
      · change fetchOf loaded .ad = true at fetches
        rw [fetches] at off
        cases off
    · show entryOf next.state.cache s = some e
      rw [cache, ← h.subsid]
      exact found
    · rw [same_url, written]

theorem Caching.window (h : Caching appData folder s D loaded answers w) {before : Wide}
    (flow : Flow D (fetchOf loaded) (sourceOf loaded) w) (url : UrlStands D (fetchOf loaded) before w)
    {calls : WindowCalls Shader} (works : ∀ message ∈ w.queue.head?, Works calls w message)
    (order : ∀ message ∈ w.queue.head?, InOrder target graphics calls w message) :
    ∃ answers', Caching appData folder s D loaded answers' (messageStep target graphics calls w) := by
  rcases messageStep_cases target graphics calls w with same | ⟨message, queue, next, waiting, processes, result⟩
  · rw [same]
    exact ⟨answers, h⟩
  rw [result]
  rw [waiting] at works order
  cases message with
  | modelInfo lParam =>
    obtain ⟨-, others, -⟩ := flow.done_window waiting processes
      (w.processed ++ [(.modelInfo lParam, (w.dlg.m_PointerPass .info).block)])
    obtain ⟨-, -, -, subsid, -⟩ := windowProc_slots processes
    obtain ⟨-, -, -, -, state⟩ := windowProc_info processes
    exact ⟨answers, h.frame state subsid (others .model nofun) (others .ad nofun)⟩
  | modelDownloaded lParam =>
    exact h.modelDownloaded flow waiting processes (works _ rfl) (order _ rfl) _
  | adDownloaded lParam =>
    exact h.adDownloaded flow url waiting processes (works _ rfl) (order _ rfl) _

end Steps

/-! ### Runs -/

/-- What the cache gives for a subscription that was loaded. -/
def Gives (s : Wide) (D : Downloads) (loaded : Option Loaded) (st : State) : Prop :=
  ∀ calls, LoadCalls.Work calls → ∃ l, st.cache.loadModel st.disk s calls = some l ∧ Answered D loaded True l ∧
    (fetchOf loaded .ad = true → ∃ e, entryOf st.cache s = some e ∧ wcs e.szAdUrl = D.strAdUrl.chars)

/-- All that was downloaded has been used and is in the cache, also of a viewer that is started anew. -/
structure FullyCached (appData folder : Path) (s : Wide) (D : Downloads) (loaded : Option Loaded)
    (w : World Texture) : Prop where
  used : ∀ k, fetchOf loaded k = true → (D.message k, some (D.block k)) ∈ w.processed
  slots : ∀ k, (w.dlg.m_PointerPass k).pData = none
  cached : Gives s D loaded w.state
  restarted : ∀ calls, InitCalls.Work calls appData →
    ((w.disk (indexPath appData folder)).getD []).length < 2 ^ 32 →
    Gives s D loaded (Cache.step folder (.restart calls) w.state)

section Runs
variable {target : Target} {graphics : Graphics Shader Texture} {appData folder : Path} {s : Wide} {D : Downloads}
  {loaded : Option Loaded} {answers : Answers} {w : World Texture}

theorem Kept.gives (h : Kept appData folder w.state answers) {l : Loaded} (answer : answers s = some l)
    (answered : Answered D loaded True l)
    (url : fetchOf loaded .ad = true → ∃ e, entryOf w.dlg.m_Cache s = some e ∧ wcs e.szAdUrl = D.strAdUrl.chars) :
    Gives s D loaded w.state := by
  obtain ⟨stored, stocked⟩ := h.stocked
  intro calls work
  exact ⟨l, (stocked.loadModel s work).trans answer, answered, url⟩

theorem Kept.restart (h : Kept appData folder w.state answers) (opened : w.dlg.m_Cache.m_hCacheFile.isSome = true)
    {calls : InitCalls} (work : InitCalls.Work calls appData)
    (small : ((w.disk (indexPath appData folder)).getD []).length < 2 ^ 32) :
    entryOf (Cache.step folder (.restart calls) w.state).cache s = entryOf w.dlg.m_Cache s ∧
      ∃ stored, Stocked appData folder (Cache.step folder (.restart calls) w.state) answers stored := by
  obtain ⟨stored, stocked⟩ := h.stocked
  obtain ⟨stored', linked⟩ := h.linked
  have again := stocked.restart work small
  refine ⟨?_, stored, again⟩
  obtain ⟨handle, opened⟩ := Option.isSome_iff_exists.mp opened
  obtain ⟨-, -, agree⟩ := linked.opened handle opened
  rw [List.forall₂_eq_eq_eq] at agree
  have table : (Cache.step folder (.restart calls) w.state).cache.m_CacheTable = w.dlg.m_Cache.m_CacheTable :=
    (linked.restart_table work small).trans agree
  have isOpen : (Cache.step folder (.restart calls) w.state).cache.m_hCacheFile ≠ none := by
    show ((w.state.cache.cleanUp.setCacheFolder folder).initializeCache w.state.disk calls).2.1.m_hCacheFile ≠ none
    exact initializeCache_opens work rfl
  obtain ⟨handle', opened'⟩ := Option.ne_none_iff_exists'.mp isOpen
  have reads : w.dlg.m_Cache.m_bEnableCacheRead = true := stocked.enabled.1
  rw [entryOf, entryOf, searchInCache, searchInCache, opened', opened, again.enabled.1, reads, table]
  rfl

theorem kept_opened {disk : Disk} (absent : disk (indexPath appData folder) = none) :
    Kept appData folder (Cache.opened folder disk) fun _ => none := by
  have holds : (disk (indexPath appData folder)).getD [] = Packed.Codec.encMany CacheEntry.codec [] := by
    rw [absent]
    rfl
  have none_apart : ∀ e ∈ ([] : List CacheEntry), wcs e.szAdFile ≠ indexPath appData folder := by
    intro e member
    cases member
  refine ⟨⟨[], linked_opened folder holds none_apart, ⟨rfl, rfl⟩, fun _ => rfl, ?_, fun _ => rfl⟩,
    [], linked_opened folder holds none_apart⟩
  constructor
  · intro e member
    cases member
  · intro d member
    cases member

theorem Kept.ad (h : Kept appData folder w.state answers) {l : Loaded} (answer : answers s = some l) :
    ∃ ad : Block, l.ad = some ad.bytes := by
  obtain ⟨stored, stocked⟩ := h.stocked
  rw [stocked.answers_eq] at answer
  obtain ⟨d, found, loads⟩ := Option.bind_eq_some_iff.mp answer
  obtain ⟨model, -, l_eq⟩ := Option.map_eq_some_iff.mp loads
  obtain ⟨-, content, there, small⟩ :=
    stocked.shelved.there d (List.mem_of_find?_eq_some found) (wcs d.szAdFile) (by simp [filesOf])
  exact ⟨⟨content, small⟩, by rw [← l_eq, there]⟩

theorem Fresh.fetching {fetch : Kind → Bool} {source : Kind → Option PointerPass} (h : Fresh D fetch source w)
    {k : Kind} (fetches : fetch k = true) : ¬ Done k w := by
  rintro ⟨noThread, -⟩
  have thread := (h k).1
  rw [noThread, fetches, if_pos rfl] at thread
  exact D.callback_ne_nil k thread.symm

theorem Fresh.caching (fresh : Fresh D (fetchOf loaded) (sourceOf loaded) w)
    (h : Kept appData folder w.state answers) (opened : w.dlg.m_Cache.m_hCacheFile.isSome = true)
    (subsid : w.dlg.m_strSubsid = s) (answer : answers s = loaded) :
    Caching appData folder s D loaded answers w := by
  refine ⟨h, opened, subsid, ?_, ?_, fun fetches done => absurd done (fresh.fetching fetches)⟩
  · rintro rfl -
    exact ⟨answer, fresh.fetching rfl⟩
  · intro there
    cases loaded with
    | none =>
      rcases there with absurd_none | done
      · exact absurd rfl absurd_none
      · exact absurd done (fresh.fetching rfl)
    | some l =>
      refine ⟨l, answer, rfl, fun fetches _ => ?_, fun fetches done => absurd done (fresh.fetching fetches),
        fun _ => rfl⟩
      obtain ⟨ad, ad_eq⟩ := h.ad answer
      by_contra other
      have bytes : ad.bytes ≠ [] := by
        intro empty
        rw [empty] at ad_eq
        exact other ad_eq
      have stays := fetchOf_ad bytes l.model l.thumb
      rw [← ad_eq, fetches] at stays
      cases stays

/-- In whatever order threads and messages come: as long as the window finds an order in which the model
is filed with its URL before its ad, everything is cached. -/
theorem downloads_cached {disk : Disk} (absent : disk (indexPath appData folder) = none) {ops : List Op}
    (good : Machine.GoodRun (Cache.step folder) (Op.Keeps appData folder) (Cache.opened folder disk) ops)
    (state : w.state = Machine.run (Cache.step folder) (Cache.opened folder disk) ops)
    (opened : w.dlg.m_Cache.m_hCacheFile.isSome = true) (idle : w.Idle) (s : Wide) (D : Downloads)
    {calls : LoadCalls} (work : LoadCalls.Work calls) {inputs : List (Input Shader Texture)}
    (orderly : Machine.GoodRun (step target graphics folder) (fun i w => Follows i w ∧ Orderly target graphics i w)
      (load3DScanFromUrl s D calls w) inputs)
    (quiet : (Machine.run (step target graphics folder) (load3DScanFromUrl s D calls w) inputs).Quiet) :
    FullyCached appData folder s D (w.dlg.m_Cache.loadModel w.disk s calls)
      (Machine.run (step target graphics folder) (load3DScanFromUrl s D calls w) inputs) := by
  have keepCache : ∀ op st, Op.Keeps appData folder op st → (∃ answers, Kept appData folder st answers) →
      ∃ answers, Kept appData folder (Cache.step folder op st) answers := by
    rintro op st keeps ⟨answers, kept⟩
    exact ⟨_, kept.step keeps⟩
  obtain ⟨answers, kept⟩ := good.invariant keepCache ⟨_, kept_opened absent⟩
  rw [← state] at kept
  obtain ⟨stored, stocked⟩ := kept.stocked
  have answer : w.dlg.m_Cache.loadModel w.disk s calls = answers s := stocked.loadModel s work
  obtain ⟨fresh, dlg, sameDisk⟩ := load_eq idle s D calls
  generalize w.dlg.m_Cache.loadModel w.disk s calls = loaded at *
  generalize load3DScanFromUrl s D calls w = start at *
  have cache : start.dlg.m_Cache = w.dlg.m_Cache := by rw [dlg]
  have sameState : start.state = w.state := by rw [World.state, cache, sameDisk, World.state]
  have caching : Caching appData folder s D loaded answers start := by
    refine fresh.caching (sameState ▸ kept) (cache ▸ opened) ?_ answer.symm
    rw [dlg]
  have keep : ∀ i v, Follows i v ∧ Orderly target graphics i v →
      (Flow D (fetchOf loaded) (sourceOf loaded) v ∧ UrlStands D (fetchOf loaded) start.dlg.m_strAdUrl v ∧
        ∃ answers, Caching appData folder s D loaded answers v) →
      Flow D (fetchOf loaded) (sourceOf loaded) (step target graphics folder i v) ∧
        UrlStands D (fetchOf loaded) start.dlg.m_strAdUrl (step target graphics folder i v) ∧
        ∃ answers, Caching appData folder s D loaded answers (step target graphics folder i v) := by
    rintro i v ⟨follows, orderly⟩ ⟨flow, url, answers, caching⟩
    cases i with
    | onInitDialog memory calls => cases follows
    | load3DScanFromUrl strSubsid D calls => cases follows
    | thread k => exact ⟨flow.thread orderly, url.thread flow k, answers, caching.thread flow k⟩
    | message calls => exact ⟨flow.window calls, url.window calls, caching.window flow url follows orderly⟩
  obtain ⟨flow, -, answers', caching⟩ := orderly.invariant keep ⟨fresh.flow, fresh.url, answers, caching⟩
  generalize Machine.run (step target graphics folder) start inputs = last at *
  have done : ∀ k, Done k last := fun k => ⟨quiet.threads k, by rw [World.mail, quiet.queue]; rfl⟩
  obtain ⟨l, answer', answered⟩ := caching.held (Or.inr (done .model))
  have answered' : Answered D loaded True l :=
    ⟨answered.model, fun _ notDone => absurd trivial notDone, fun fetches _ => answered.ad_done fetches (done .ad),
      answered.same⟩
  have url : fetchOf loaded .ad = true → ∃ e, entryOf last.dlg.m_Cache s = some e ∧ wcs e.szAdUrl = D.strAdUrl.chars :=
    fun fetches => caching.url fetches (done .ad)
  refine ⟨fun k fetches => flow.used quiet fetches, (flow.idle quiet).slots,
    caching.kept.gives answer' answered' url, ?_⟩
  intro calls work small
  obtain ⟨entry, stored', stocked'⟩ := caching.kept.restart caching.opened work small
  intro calls work
  refine ⟨l, (stocked'.loadModel s work).trans answer', answered', ?_⟩
  rw [entry]
  exact url

end Runs

namespace Session

def started : World (List UInt8) := run unborn [.onInitDialog memory initSample]

def loading : World (List UInt8) :=
  load3DScanFromUrl subscription (downloads (letter 66 B_ne_zero)) loads started

theorem started_idle : started.Idle := by
  refine ⟨⟨fun k => ?_, rfl⟩, fun k => ?_⟩ <;> cases k <;> rfl

/-- The order in which the ad is processed before the model. -/
def adFirst : List Step :=
  [.thread .ad, .thread .ad, .thread .ad, .thread .ad, .message window, .thread .info, .thread .info, .thread .info,
    .thread .model, .thread .model, .thread .model, .message window, .message window]

theorem addSample_works : AddWorks addSample := ⟨⟨rfl, rfl, rfl⟩, ⟨rfl, rfl⟩, ⟨rfl, rfl⟩, ⟨rfl, rfl⟩⟩

theorem downloads_cached_inOrder : FullyCached [85] [68] subscription (downloads (letter 66 (by decide)))
    (started.dlg.m_Cache.loadModel started.disk subscription loads) (run loading downloading) := by
  have opens : Machine.GoodRun (Cache.step [68]) (Op.Keeps [85] [68]) (Cache.opened [68] fun _ => none)
      [.initializeCache initSample] := by
    refine ⟨⟨⟨?_, fun _ => ⟨rfl, by decide⟩⟩, ?_, ?_⟩, trivial⟩
    · rintro path ⟨⟩
      rfl
    · rintro block url e ⟨⟩
    · rintro block url e ⟨⟩
  have quiet : (run loading downloading).Quiet := ⟨fun k => by cases k <;> decide +kernel, by decide +kernel⟩
  refine @downloads_cached _ _ .win32 graphics [85] [68] started _ rfl _ opens rfl rfl started_idle _ _ loads
    ⟨⟨rfl, rfl⟩, ⟨rfl, rfl⟩, ⟨rfl, rfl⟩⟩ downloading ?_ quiet
  refine ⟨⟨trivial, ?_⟩, ⟨trivial, ?_⟩, ⟨trivial, ?_⟩, ⟨trivial, ?_⟩, ⟨trivial, ?_⟩, ⟨trivial, ?_⟩,
    ⟨trivial, ?_⟩, ⟨trivial, ?_⟩, ⟨trivial, ?_⟩, ⟨trivial, ?_⟩, ⟨?_, ?_⟩, ⟨?_, ?_⟩, ⟨?_, ?_⟩, trivial⟩
  iterate 10 exact fun pData rest _ => by decide +kernel
  · rintro message ⟨⟩
    trivial
  · rintro message ⟨⟩
    trivial
  · rintro message ⟨⟩ -
    exact ⟨addNaming_fresh ⟨rfl, rfl, rfl⟩ (by decide), rfl, rfl, addSample_works⟩
  · rintro message ⟨⟩ -
    exact opens_modelFile
  · rintro message ⟨⟩ -
    exact ⟨rfl, rfl⟩
  · rintro message ⟨⟩ -
    exact ⟨newEntry (newModel window (run loading (downloading.take 10)).dlg (some modelFile))
      (letter 1 (by decide)) (letter 2 (by decide)) (letter 3 (by decide)), by decide +kernel, by decide +kernel⟩

/-- All calls succeed, and the ad is lost. -/
theorem ad_lost :
    Machine.GoodRun (step .win32 graphics [68]) Follows loading adFirst ∧ (run loading adFirst).Quiet ∧
      ¬ FullyCached [85] [68] subscription (downloads (letter 66 (by decide)))
        (started.dlg.m_Cache.loadModel started.disk subscription loads) (run loading adFirst) := by
  refine ⟨?_, ⟨fun k => by cases k <;> decide +kernel, by decide +kernel⟩, fun full => ?_⟩
  · refine ⟨trivial, trivial, trivial, trivial, ?_, trivial, trivial, trivial, trivial, trivial, trivial, ?_, ?_,
      trivial⟩
    · rintro message ⟨⟩ -
      exact ⟨rfl, rfl⟩
    · rintro message ⟨⟩
      trivial
    · rintro message ⟨⟩ -
      exact ⟨addNaming_fresh ⟨rfl, rfl, rfl⟩ (by decide), rfl, rfl, addSample_works⟩
  · obtain ⟨l, found, answered, -⟩ := full.cached loads ⟨⟨rfl, rfl⟩, ⟨rfl, rfl⟩, ⟨rfl, rfl⟩⟩
    have ad := answered.ad_done (by decide +kernel) trivial
    have empty : ((run loading adFirst).state.cache.loadModel (run loading adFirst).state.disk subscription loads).map
        Loaded.ad = some (some []) := by decide +kernel
    rw [found, Option.map_some, ad] at empty
    revert empty
    decide

end Session

end ModelPublish.Viewer
