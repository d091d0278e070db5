import ModelPublish.Cache.Index

/-!
# The cache as a store

What `LoadModel` returns, as a function of the calls made before and of what they returned.
-/

namespace ModelPublish.Cache
open Packed CModelCache

/-- What each subscription is answered. -/
abbrev Answers : Type := Wide → Option Loaded

def Answers.tell (answers : Answers) : Op → Bool → Answers
  | .addModel m _, true => Function.update answers m.strSubsid
    (some ⟨blockBytes m.pModelFileData, some (blockBytes m.pAdFileData), some (blockBytes m.pThumbFileData)⟩)
  | .addAd strSubsid data _ _, true => Function.update answers strSubsid
    ((answers strSubsid).map fun loaded => { loaded with ad := some (blockBytes data) })
  | _, _ => answers

/-- A cache together with what was told of its calls. -/
def tellStep (folder : Path) (op : Op) (s : State × Answers) : State × Answers :=
  ((call folder op s.1).2, s.2.tell op (call folder op s.1).1)

/-- The two entries name the same files for the same subscription. -/
def SameFiles (d e : CacheEntry) : Prop := ∃ url, e = { d with szAdUrl := url }

theorem SameFiles.refl (e : CacheEntry) : SameFiles e e := ⟨e.szAdUrl, rfl⟩

theorem SameFiles.setUrl {d e : CacheEntry} (h : SameFiles d e) (url : Wide) : SameFiles d (setUrl url e) := by
  obtain ⟨other, rfl⟩ := h
  exact ⟨_, rfl⟩

def names (id : Wide) (e : CacheEntry) : Bool := wcs e.szSibscriptionId = id.chars

def filesOf (e : CacheEntry) : List Path := [wcs e.szModelFile, wcs e.szAdFile, wcs e.szThumbFile]

def loadedOf (disk : Disk) (e : CacheEntry) : Option Loaded :=
  (disk (wcs e.szModelFile)).map fun model =>
    ⟨model, disk (wcs e.szAdFile), disk (wcs e.szThumbFile)⟩

theorem loadedOf_congr {disk disk' : Disk} {e : CacheEntry}
    (same : ∀ path ∈ filesOf e, disk' path = disk path) : loadedOf disk' e = loadedOf disk e := by
  have model := same _ (List.mem_cons_self ..)
  have ad := same _ (List.mem_cons_of_mem _ (List.mem_cons_self ..))
  have thumb := same _ (List.mem_cons_of_mem _ (List.mem_cons_of_mem _ (List.mem_cons_self ..)))
  rw [loadedOf, loadedOf, model, ad, thumb]

/-- The files of the records are there, none is the index, and the ads lie apart from the rest. -/
structure Shelved (index : Path) (disk : Disk) (stored : List CacheEntry) : Prop where
  there : ∀ e ∈ stored, ∀ path ∈ filesOf e,
    path ≠ index ∧ ∃ content, disk path = some content ∧ content.length < 2 ^ 31
  apart : ∀ d ∈ stored, ∀ e ∈ stored, wcs d.szAdFile ≠ wcs e.szModelFile ∧
    wcs d.szAdFile ≠ wcs e.szThumbFile ∧ (wcs d.szAdFile = wcs e.szAdFile → d = e)

theorem Shelved.frame {index : Path} {disk disk' : Disk} {stored : List CacheEntry}
    (h : Shelved index disk stored) (same : ∀ e ∈ stored, ∀ path ∈ filesOf e, disk' path = disk path) :
    Shelved index disk' stored where
  there e member path file := by
    rw [same e member path file]
    exact h.there e member path file
  apart := h.apart

structure Stocked (appData folder : Path) (st : State) (answers : Answers) (stored : List CacheEntry) :
    Prop where
  linked : Linked SameFiles appData folder st.cache st.disk stored
  enabled : st.cache.m_bEnableCacheRead = true ∧ st.cache.m_bEnableCacheStore = true
  closed : st.cache.m_hCacheFile = none → stored = []
  shelved : Shelved (indexPath appData folder) st.disk stored
  answers_eq : ∀ id, answers id = (stored.find? (names id)).bind (loadedOf st.disk)

/-! ### LoadModel -/

theorem forall₂_findIdx? {α β : Type} {R : α → β → Prop} {l : List α} {l' : List β} {p : α → Bool}
    {q : β → Bool} (h : List.Forall₂ R l l') (same : ∀ a b, R a b → p a = q b) :
    l.findIdx? p = l'.findIdx? q := by
  induction h with
  | nil => rfl
  | cons first rest ih => rw [List.findIdx?_cons, List.findIdx?_cons, same _ _ first, ih]

theorem names_of_sameFiles (id : Wide) {d e : CacheEntry} (h : SameFiles d e) : names id d = names id e := by
  obtain ⟨url, rfl⟩ := h
  rfl

theorem Linked.search {appData folder : Path} {c : CModelCache} {disk : Disk} {stored : List CacheEntry}
    (h : Linked SameFiles appData folder c disk stored) {handle : FileHandle}
    (opened : c.m_hCacheFile = some handle) (reads : c.m_bEnableCacheRead = true) (id : Wide) :
    c.searchInCache id = stored.findIdx? (names id) := by
  obtain ⟨-, -, agree⟩ := h.opened handle opened
  rw [forall₂_findIdx? agree fun d e => names_of_sameFiles id, searchInCache, opened, reads]
  rfl

/-- The system calls of a load succeed. -/
structure LoadCalls.Work (calls : LoadCalls) : Prop where
  model : calls.model.opens = true ∧ calls.model.reads = true
  ad : calls.ad.opens = true ∧ calls.ad.reads = true
  thumb : calls.thumb.opens = true ∧ calls.thumb.reads = true

theorem loadFileToMem_whole {disk : Disk} {call : LoadCall} {path : Path}
    (works : call.opens = true ∧ call.reads = true)
    (there : ∃ content, disk path = some content ∧ content.length < 2 ^ 31) :
    loadFileToMem disk call path = disk path := by
  obtain ⟨content, found, small⟩ := there
  have size : content.length < 2 ^ 32 := Nat.lt_trans small (by decide)
  rw [loadFileToMem_read works.1 works.2 found size, found]

theorem Shelved.loadEntry {index : Path} {disk : Disk} {stored : List CacheEntry}
    (h : Shelved index disk stored) {d e : CacheEntry} (member : d ∈ stored) (same : SameFiles d e)
    {calls : LoadCalls} (work : LoadCalls.Work calls) : loadEntry disk e calls = loadedOf disk d := by
  obtain ⟨url, rfl⟩ := same
  have model := (h.there d member (wcs d.szModelFile) (by simp [filesOf])).2
  have ad := (h.there d member (wcs d.szAdFile) (by simp [filesOf])).2
  have thumb := (h.there d member (wcs d.szThumbFile) (by simp [filesOf])).2
  rw [CModelCache.loadEntry, loadedOf]
  simp only [loadFileToMem_whole work.model model, loadFileToMem_whole work.ad ad,
    loadFileToMem_whole work.thumb thumb]

theorem Stocked.loadModel {appData folder : Path} {st : State} {answers : Answers}
    {stored : List CacheEntry} (h : Stocked appData folder st answers stored) (id : Wide)
    {calls : LoadCalls} (work : LoadCalls.Work calls) :
    st.cache.loadModel st.disk id calls = answers id := by
  rw [h.answers_eq id, CModelCache.loadModel, h.enabled.1]
  cases opened : st.cache.m_hCacheFile with
  | none =>
    rw [h.closed opened]
    rfl
  | some handle =>
    have search := h.linked.search opened h.enabled.1 id
    rw [List.find?_eq_bind_findIdx?_getElem?, ← search]
    cases found : st.cache.searchInCache id with
    | none => rfl
    | some i =>
      obtain ⟨e, at_i, -⟩ := searchInCache_found found
      obtain ⟨d, at_i', same⟩ := h.linked.found found at_i
      have loads := h.shelved.loadEntry (List.mem_of_getElem? at_i') same work
      simp [at_i, at_i', loads]

/-! ### Steps -/

section Steps
variable {appData folder : Path} {st : State} {answers : Answers} {stored : List CacheEntry}

theorem Stocked.frame (h : Stocked appData folder st answers stored) {c' : CModelCache} {disk' : Disk}
    (linked : Linked SameFiles appData folder c' disk' stored)
    (enabled : c'.m_bEnableCacheRead = true ∧ c'.m_bEnableCacheStore = true)
    (closed : c'.m_hCacheFile = none → stored = [])
    (same : ∀ path content, path ≠ indexPath appData folder → st.disk path = some content →
      disk' path = some content) : Stocked appData folder ⟨c', disk'⟩ answers stored := by
  have files : ∀ e ∈ stored, ∀ path ∈ filesOf e, disk' path = st.disk path := by
    intro e member path file
    obtain ⟨other, content, found, -⟩ := h.shelved.there e member path file
    rw [found]
    exact same path content other found
  refine ⟨linked, enabled, closed, h.shelved.frame files, fun id => ?_⟩
  rw [h.answers_eq id]
  cases found : stored.find? (names id) with
  | none => rfl
  | some e => exact (loadedOf_congr (files e (List.mem_of_find?_eq_some found))).symm

theorem initializeCache_rest (c : CModelCache) (disk : Disk) {calls : InitCalls}
    (user : ∀ path ∈ calls.appData, path = appData) :
    (∀ path, path ≠ indexPath appData c.m_szCacheFolder →
      (c.initializeCache disk calls).2.2 path = disk path) ∧
    (c.initializeCache disk calls).2.1.m_bEnableCacheRead = c.m_bEnableCacheRead ∧
    (c.initializeCache disk calls).2.1.m_bEnableCacheStore = c.m_bEnableCacheStore := by
  cases handle : c.m_hCacheFile with
  | some handle' =>
    rw [initializeCache_open handle]
    exact ⟨fun _ _ => rfl, rfl, rfl⟩
  | none =>
    rcases initializeCache_cases disk user handle with
      ⟨full, disk', result, same | created⟩ | ⟨full, pointer, -, result⟩
    · rw [result, same]
      exact ⟨fun _ _ => rfl, rfl, rfl⟩
    · rw [result, created]
      exact ⟨fun _ other => indexed_other disk other, rfl, rfl⟩
    · rw [result]
      exact ⟨fun _ other => indexed_other disk other, rfl, rfl⟩

theorem initializeCache_opens {c : CModelCache} {disk : Disk} {calls : InitCalls}
    (work : InitCalls.Work calls appData) (closed : c.m_hCacheFile = none) :
    (c.initializeCache disk calls).2.1.m_hCacheFile ≠ none := by
  simp only [initializeCache, closed, Option.isSome_none, Bool.false_eq_true, if_false, work.appData,
    openIndex_works work]
  exact Option.some_ne_none _

theorem Stocked.opens (h : Stocked appData folder st answers stored) {c : CModelCache}
    (linked : Linked SameFiles appData folder c st.disk stored)
    (enabled : c.m_bEnableCacheRead = true ∧ c.m_bEnableCacheStore = true) {calls : InitCalls}
    (user : ∀ path ∈ calls.appData, path = appData)
    (reading : c.m_hCacheFile = none → calls.reads = true ∧
      ((st.disk (indexPath appData folder)).getD []).length < 2 ^ 32)
    (closed : (c.initializeCache st.disk calls).2.1.m_hCacheFile = none → stored = []) :
    Stocked appData folder
      ⟨(c.initializeCache st.disk calls).2.1, (c.initializeCache st.disk calls).2.2⟩ answers stored := by
  obtain ⟨others, reads, stores⟩ := initializeCache_rest c st.disk user
  refine h.frame (linked.opens SameFiles.refl user reading) ?_ closed ?_
  · rw [reads, stores]
    exact enabled
  · intro path content other found
    rw [others path (by rw [linked.folder_eq]; exact other)]
    exact found

theorem Stocked.begins (h : Stocked appData folder st answers stored) {calls : InitCalls}
    (sound : (Op.initializeCache calls).Sound appData folder st) :
    Stocked appData folder (step folder (.initializeCache calls) st) answers stored := by
  apply h.opens h.linked h.enabled sound.1 sound.2
  intro closed
  cases handle : st.cache.m_hCacheFile with
  | none => exact h.closed handle
  | some handle' =>
    rw [initializeCache_open handle, handle] at closed
    cases closed

theorem Stocked.restart (h : Stocked appData folder st answers stored) {calls : InitCalls}
    (work : InitCalls.Work calls appData)
    (small : ((st.disk (indexPath appData folder)).getD []).length < 2 ^ 32) :
    Stocked appData folder (step folder (.restart calls) st) answers stored := by
  refine h.opens h.linked.shut ⟨rfl, rfl⟩ ?_ (fun _ => ⟨work.reads, small⟩) ?_
  · rintro path member
    rw [work.appData] at member
    exact (Option.some.inj member).symm
  · intro closed
    exact absurd closed (initializeCache_opens work rfl)

theorem names_newEntry (id : Wide) (m : NewModel) (model ad thumb : Wide) :
    names id (newEntry m model ad thumb) = decide (id = m.strSubsid) := by
  rw [names, newEntry, wcs_wcscpy]
  apply decide_eq_decide.mpr
  exact ⟨fun same => Wide.ext same.symm, fun same => by rw [same]⟩

theorem filesOf_newEntry (m : NewModel) (model ad thumb : Wide) :
    filesOf (newEntry m model ad thumb) = [model.chars, ad.chars, thumb.chars] := by
  simp only [filesOf, newEntry, wcs_wcscpy]

theorem Shelved.append {index : Path} {disk disk' disk'' : Disk} (h : Shelved index disk stored)
    {m : NewModel} {data : Block} {model ad thumb : Wide} (filed : Filed disk disk' m data model ad thumb)
    (there : disk index ≠ none) (beside : ∀ path, path ≠ index → disk'' path = disk' path) :
    Shelved index disk'' (stored ++ [newEntry m model ad thumb]) := by
  have apart_new : ∀ e ∈ stored, ∀ path ∈ filesOf e, ∀ name, disk name = none → path ≠ name := by
    rintro e member path file name new rfl
    obtain ⟨-, content, found, -⟩ := h.there e member path file
    rw [new] at found
    cases found
  have notIndex : ∀ name, disk name = none → name ≠ index := by
    rintro name new rfl
    exact there new
  have small : ∀ data : Option Block, (blockBytes data).length < 2 ^ 31 := by
    intro data
    cases data with
    | none => decide
    | some data => exact data.small
  have adFile : wcs (newEntry m model ad thumb).szAdFile = ad.chars := wcs_wcscpy _ _
  have modelFile : wcs (newEntry m model ad thumb).szModelFile = model.chars := wcs_wcscpy _ _
  have thumbFile : wcs (newEntry m model ad thumb).szThumbFile = thumb.chars := wcs_wcscpy _ _
  constructor
  · intro e member path file
    rcases List.mem_append.mp member with old | new
    · obtain ⟨other, content, found, size⟩ := h.there e old path file
      refine ⟨other, content, ?_, size⟩
      rw [beside path other]
      exact filed.keeps _ _ found
    · rw [List.mem_singleton.mp new, filesOf_newEntry] at file
      have held : ∀ name content, disk name = none → disk' name = some content →
          content.length < 2 ^ 31 →
          name ≠ index ∧ ∃ content, disk'' name = some content ∧ content.length < 2 ^ 31 := by
        intro name content new holds size
        exact ⟨notIndex name new, content, (beside name (notIndex name new)).trans holds, size⟩
      simp only [List.mem_cons, List.not_mem_nil, or_false] at file
      rcases file with rfl | rfl | rfl
      · exact held _ _ filed.newModel filed.modelHolds data.small
      · exact held _ _ filed.newAd filed.adHolds (small _)
      · exact held _ _ filed.newThumb filed.thumbHolds (small _)
  · intro d d_member e e_member
    rcases List.mem_append.mp d_member with d_old | d_new <;>
      rcases List.mem_append.mp e_member with e_old | e_new
    · exact h.apart d d_old e e_old
    · rw [List.mem_singleton.mp e_new, adFile, modelFile, thumbFile]
      have differs := apart_new d d_old (wcs d.szAdFile) (by simp [filesOf])
      refine ⟨differs _ filed.newModel, differs _ filed.newThumb, fun same => ?_⟩
      exact absurd same (differs _ filed.newAd)
    · rw [List.mem_singleton.mp d_new, adFile]
      have differs := fun path file => (apart_new e e_old path file ad.chars filed.newAd).symm
      refine ⟨differs _ (by simp [filesOf]), differs _ (by simp [filesOf]), fun same => ?_⟩
      exact absurd same (differs _ (by simp [filesOf]))
    · rw [List.mem_singleton.mp d_new, List.mem_singleton.mp e_new, adFile, modelFile, thumbFile]
      exact ⟨filed.apart.1, filed.apart.2.2.symm, fun _ => rfl⟩

theorem answers_append {disk disk' : Disk} (old : ∀ id, answers id = (stored.find? (names id)).bind (loadedOf disk))
    (same : ∀ e ∈ stored, loadedOf disk' e = loadedOf disk e) {e : CacheEntry} {new : Wide}
    (fits : ∀ id, names id e = decide (id = new)) (absent : stored.find? (names new) = none) (id : Wide) :
    Function.update answers new (loadedOf disk' e) id =
      ((stored ++ [e]).find? (names id)).bind (loadedOf disk') := by
  rw [List.find?_append]
  by_cases hit : id = new
  · subst hit
    rw [Function.update_self, absent, Option.none_or, List.find?_singleton, fits]
    simp
  · rw [Function.update_of_ne hit, old id]
    cases found : stored.find? (names id) with
    | none =>
      rw [Option.none_or, List.find?_singleton, fits]
      simp [hit]
    | some d =>
      rw [Option.some_or]
      exact (same d (List.mem_of_find?_eq_some found)).symm

theorem Stocked.addModel (h : Stocked appData folder st answers stored) {m : NewModel} {calls : AddCalls}
    (sound : (Op.addModel m calls).Sound appData folder st) :
    ∃ stored', Stocked appData folder (step folder (.addModel m calls) st)
      (answers.tell (.addModel m calls) (call folder (.addModel m calls) st).1) stored' := by
  obtain ⟨fresh, seeks, writes⟩ := sound
  rcases addModelToCache_cases fresh (c := st.cache) (m := m) with ⟨disk', result, closed, keeps⟩ |
    ⟨handle, data, model, ad, thumb, disk', opened, given, search, filed, result⟩
  · refine ⟨stored, ?_⟩
    simp only [step, call, result]
    exact h.frame (h.linked.refused closed keeps) h.enabled h.closed fun path content _ => keeps path content
  · refine ⟨stored ++ [newEntry m model ad thumb], ?_⟩
    simp only [step, call, result, seeks, writes]
    obtain ⟨path, there, -⟩ := h.linked.opened handle opened
    obtain ⟨-, written⟩ := appendRecord_works handle disk' (newEntry m model ad thumb)
    have beside : ∀ other, other ≠ indexPath appData folder →
        (appendRecord handle disk' true true (newEntry m model ad thumb)).2 other = disk' other := by
      intro other ne
      rw [written, path, Disk.set_other _ _ ne]
    have shelved := h.shelved.append filed there beside
    have notIndex : ∀ name, st.disk name = none → name ≠ indexPath appData folder := by
      rintro name new rfl
      exact there new
    have loads : loadedOf (appendRecord handle disk' true true (newEntry m model ad thumb)).2
        (newEntry m model ad thumb) =
        some ⟨blockBytes m.pModelFileData, some (blockBytes m.pAdFileData),
          some (blockBytes m.pThumbFileData)⟩ := by
      simp only [loadedOf, newEntry, wcs_wcscpy]
      rw [← newEntry, beside _ (notIndex _ filed.newModel), beside _ (notIndex _ filed.newAd),
        beside _ (notIndex _ filed.newThumb), filed.modelHolds, filed.adHolds, filed.thumbHolds, given]
      rfl
    refine ⟨h.linked.append SameFiles.refl opened filed, h.enabled, fun closed => (by cases closed), shelved, ?_⟩
    have absent : stored.find? (names m.strSubsid) = none := by
      rw [h.linked.search opened h.enabled.1] at search
      rw [List.find?_eq_bind_findIdx?_getElem?, search]
      rfl
    intro id
    show Function.update answers m.strSubsid _ id = _
    rw [← loads]
    refine answers_append h.answers_eq ?_ (fun id => names_newEntry id m model ad thumb) absent id
    intro e member
    apply loadedOf_congr
    intro path file
    obtain ⟨other, content, found, -⟩ := h.shelved.there e member path file
    rw [beside path other, filed.keeps _ _ found, found]

/-- An ad that is at least as long as the one it replaces. -/
def Op.Covers (st : State) (op : Op) : Prop :=
  ∀ block url e, op.Stores st.cache block url e →
    ((st.disk (wcs e.szAdFile)).getD []).length ≤ block.bytes.length

theorem Shelved.setAd {index : Path} {disk : Disk} (h : Shelved index disk stored) (d : CacheEntry)
    (block : Block) :
    Shelved index (disk.set (wcs d.szAdFile) block.bytes) stored where
  there e member path file := by
    obtain ⟨notIndex, content, found, small⟩ := h.there e member path file
    refine ⟨notIndex, ?_⟩
    by_cases hit : path = wcs d.szAdFile
    · exact ⟨block.bytes, by rw [hit, Disk.set_same], block.small⟩
    · exact ⟨content, by rw [Disk.set_other _ _ hit, found], small⟩
  apart := h.apart

theorem answers_setAd {index : Path} {disk : Disk} (shelved : Shelved index disk stored)
    (old : ∀ id, answers id = (stored.find? (names id)).bind (loadedOf disk)) {d : CacheEntry} {id : Wide}
    (member : d ∈ stored) (d_found : stored.find? (names id) = some d) (block : Block) (id' : Wide) :
    Function.update answers id ((answers id).map fun loaded => { loaded with ad := some block.bytes }) id' =
      (stored.find? (names id')).bind (loadedOf (disk.set (wcs d.szAdFile) block.bytes)) := by
  by_cases hit : id' = id
  · subst hit
    obtain ⟨modelApart, thumbApart, -⟩ := shelved.apart d member d member
    have told := old id'
    rw [d_found, Option.bind_some] at told
    rw [Function.update_self, told, d_found, Option.bind_some, loadedOf, loadedOf,
      Disk.set_other _ _ modelApart.symm, Disk.set_other _ _ thumbApart.symm, Disk.set_same,
      Option.map_map]
    rfl
  · rw [Function.update_of_ne hit, old id']
    cases found : stored.find? (names id') with
    | none => rfl
    | some e =>
      have e_hit : names id' e = true := List.find?_some found
      have d_hit : names id d = true := List.find?_some d_found
      have e_names : wcs e.szSibscriptionId = id'.chars := of_decide_eq_true e_hit
      have d_names : wcs d.szSibscriptionId = id.chars := of_decide_eq_true d_hit
      have ne : d ≠ e := by
        rintro rfl
        exact hit (Wide.ext (e_names.symm.trans d_names))
      obtain ⟨model, thumb, ad⟩ := shelved.apart d member e (List.mem_of_find?_eq_some found)
      symm
      apply loadedOf_congr
      intro path file
      apply Disk.set_other
      simp only [filesOf, List.mem_cons, List.not_mem_nil, or_false] at file
      rcases file with rfl | rfl | rfl
      · exact model.symm
      · exact fun same => ne (ad same.symm)
      · exact thumb.symm

theorem Stocked.addAd (h : Stocked appData folder st answers stored) {id url : Wide} {data : Option Block}
    {save : SaveCall} (covers : (Op.addAd id data url save).Covers st) :
    Stocked appData folder (step folder (.addAd id data url save) st)
      (answers.tell (.addAd id data url save) (call folder (.addAd id data url save) st).1) stored := by
  have linked := h.linked.addAd
    (fun d e same => by obtain ⟨_, rfl⟩ := same; rfl) id url data save fun _ url e _ d same => same.setUrl url
  rcases addAdToCache_cases st.cache st.disk id url data save with ⟨disk', result, made⟩ |
    ⟨i, e, block, isOpen, stores, rfl, search, at_i, opens, writes, result⟩
  · rw [result] at linked
    simp only [step, Cache.call, result]
    refine h.frame linked h.enabled h.closed fun path content _ found => ?_
    rcases made with rfl | ⟨i, e, -, -, rfl⟩
    · exact found
    · by_cases same : path = wcs e.szAdFile
      · rw [same] at found ⊢
        rw [Disk.set_same, found, Option.getD_some]
      · rw [Disk.set_other _ _ same, found]
  · obtain ⟨handle, opened⟩ := Option.isSome_iff_exists.mp isOpen
    obtain ⟨d, at_i', same⟩ := h.linked.found search at_i
    have d_member := List.mem_of_getElem? at_i'
    have d_found : stored.find? (names id) = some d := by
      rw [h.linked.search opened h.enabled.1] at search
      rw [List.find?_eq_bind_findIdx?_getElem?, search]
      exact at_i'
    have adFile : wcs e.szAdFile = wcs d.szAdFile := by
      obtain ⟨_, rfl⟩ := same
      rfl
    have covered := covers block url e (.addAd stores opens writes search at_i)
    rw [adFile] at covered
    have whole : patch ((st.disk (wcs d.szAdFile)).getD []) 0 block.bytes = block.bytes := by
      rw [patch_start, List.drop_eq_nil_of_le covered, List.append_nil]
    rw [result, adFile, whole] at linked
    simp only [step, Cache.call, result, adFile, whole]
    exact ⟨linked, h.enabled, h.closed, h.shelved.setAd d block,
      answers_setAd h.shelved h.answers_eq d_member d_found block⟩

end Steps

/-! ### Runs -/

/-- Reading and storing stay on, a restart opens the index, and no stored ad is shorter than the one
it replaces. -/
def Op.Covered (appData : Path) (st : State) : Op → Prop
  | .restart calls => InitCalls.Work calls appData
  | .enableCache bEnable => bEnable = true
  | .enableCacheRead bEnable => bEnable = true
  | .enableCacheStore bEnable => bEnable = true
  | op => op.Covers st

theorem Stocked.step {appData folder : Path} {s : State × Answers} {stored : List CacheEntry}
    (h : Stocked appData folder s.1 s.2 stored) {op : Op} (sound : op.Sound appData folder s.1)
    (covered : op.Covered appData s.1) :
    ∃ stored', Stocked appData folder (tellStep folder op s).1 (tellStep folder op s).2 stored' := by
  cases op with
  | initializeCache calls => exact ⟨stored, h.begins sound⟩
  | restart calls => exact ⟨stored, h.restart covered sound.2.2⟩
  | addModel m calls => exact h.addModel sound
  | addAd id data url save => exact ⟨stored, h.addAd covered⟩
  | loadModel id calls => exact ⟨stored, h⟩
  | enableCache bEnable =>
    obtain rfl : bEnable = true := covered
    exact ⟨stored, h.frame (h.linked.enable true true) ⟨rfl, rfl⟩ h.closed fun _ _ _ found => found⟩
  | enableCacheRead bEnable =>
    obtain rfl : bEnable = true := covered
    exact ⟨stored, h.frame (h.linked.enable true _) ⟨rfl, h.enabled.2⟩ h.closed fun _ _ _ found => found⟩
  | enableCacheStore bEnable =>
    obtain rfl : bEnable = true := covered
    exact ⟨stored, h.frame (h.linked.enable _ true) ⟨h.enabled.1, rfl⟩ h.closed fun _ _ _ found => found⟩

/-- What the cache loads is what was added. -/
def AnswersHold (s : State × Answers) : Prop :=
  ∀ id calls, LoadCalls.Work calls → s.1.cache.loadModel s.1.disk id calls = s.2 id

theorem loads_what_was_added {appData folder : Path} {disk : Disk}
    (absent : disk (indexPath appData folder) = none) (ops : List Op)
    (good : Machine.GoodRun (tellStep folder)
      (fun op s => op.Sound appData folder s.1 ∧ op.Covered appData s.1)
      (opened folder disk, fun _ => none) ops) :
    AnswersHold (Machine.run (tellStep folder) (opened folder disk, fun _ => none) ops) := by
  have keep : ∀ op s, op.Sound appData folder s.1 ∧ op.Covered appData s.1 →
      (∃ stored, Stocked appData folder s.1 s.2 stored) →
      ∃ stored, Stocked appData folder (tellStep folder op s).1 (tellStep folder op s).2 stored := by
    rintro op s ⟨sound, covered⟩ ⟨stored, stocked⟩
    exact stocked.step sound covered
  have start : Stocked appData folder (opened folder disk) (fun _ => none) [] := by
    refine ⟨linked_opened folder (by rw [absent]; rfl) (by simp), ⟨rfl, rfl⟩, fun _ => rfl, ?_, fun _ => rfl⟩
    constructor
    · intro e member
      cases member
    · intro d member
      cases member
  obtain ⟨stored, stocked⟩ := good.invariant keep ⟨[], start⟩
  intro id calls work
  exact stocked.loadModel id work

theorem goodRun_tellStep {folder : Path} {p : Op → State → Prop} (st : State) (answers : Answers)
    (ops : List Op) : Machine.GoodRun (tellStep folder) (fun op s => p op s.1) (st, answers) ops ↔
      Machine.GoodRun (step folder) p st ops := by
  induction ops generalizing st answers with
  | nil => exact Iff.rfl
  | cons op ops ih => exact and_congr_right fun _ => ih _ _

theorem loads_what_was_added_longerAd :
    AnswersHold (Machine.run (tellStep [68]) (opened [68] fun _ => none, fun _ => none)
      (modelThenAd none (letter 66 (by decide)) (letter 67 (by decide)))) := by
  apply @loads_what_was_added [85] [68] _ rfl _
  rw [goodRun_tellStep (p := fun op st => op.Sound [85] [68] st ∧ op.Covered [85] st)]
  obtain ⟨first, second, third, -⟩ := modelThenAd_sound none (letter 66 (by decide)) (letter 67 (by decide))
  refine ⟨⟨first, ?_⟩, ⟨second, ?_⟩, ⟨third, ?_⟩, trivial⟩
  · rintro block url e ⟨⟩
  · rintro block url e ⟨⟩
  · intro block url e stores
    cases stores with
    | addAd _ _ _ found at_i =>
      cases found
      cases at_i
      decide +kernel

/-- Behind a shorter ad the end of the old one stays in the file. -/
theorem loads_rest_of_longer_ad :
    Machine.GoodRun (tellStep [68]) (fun op s => op.Sound [85] [68] s.1)
      (opened [68] fun _ => none, fun _ => none)
      (modelThenAd (some ⟨[1, 2], by decide⟩) (letter 66 (by decide)) (letter 66 (by decide))) ∧
    ¬ AnswersHold (Machine.run (tellStep [68]) (opened [68] fun _ => none, fun _ => none)
      (modelThenAd (some ⟨[1, 2], by decide⟩) (letter 66 (by decide)) (letter 66 (by decide)))) := by
  refine ⟨(goodRun_tellStep _ _ _).mpr (modelThenAd_sound _ _ _), fun hold => ?_⟩
  have loads := hold (letter 65 (by decide)) ⟨⟨true, true, fun _ => 0⟩, ⟨true, true, fun _ => 0⟩,
    ⟨true, true, fun _ => 0⟩⟩ ⟨⟨rfl, rfl⟩, ⟨rfl, rfl⟩, ⟨rfl, rfl⟩⟩
  revert loads
  decide +kernel

end ModelPublish.Cache
