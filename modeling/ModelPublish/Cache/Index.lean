import ModelPublish.Cache.Calls
import ModelPublish.Machine.Run

/-!
# The table and the index file

What the table has to do with the records of `cache.dat`, after any run of calls.
-/

namespace ModelPublish.Cache
open Packed CModelCache

section Lists
variable {α β : Type} {R : α → β → Prop} {l : List α} {l' : List β} {i : Nat}

theorem forall₂_modify {f : β → β} (h : List.Forall₂ R l l')
    (keep : ∀ a b, l'[i]? = some b → R a b → R a (f b)) : List.Forall₂ R l (l'.modify i f) := by
  induction h generalizing i with
  | nil => simp
  | cons first rest ih =>
    cases i with
    | zero =>
      rw [List.modify_zero_cons]
      exact List.Forall₂.cons (keep _ _ rfl first) rest
    | succ i =>
      rw [List.modify_succ_cons]
      exact List.Forall₂.cons first (ih fun a b at_i => keep a b at_i)

theorem forall₂_getElem? {b : β} (h : List.Forall₂ R l l') (at_i : l'[i]? = some b) :
    ∃ a, l[i]? = some a ∧ R a b := by
  induction h generalizing i with
  | nil => cases at_i
  | cons first rest ih =>
    cases i with
    | zero =>
      cases at_i
      exact ⟨_, rfl, first⟩
    | succ i => exact ih at_i

end Lists

/-- `stored` are the records of the index file, and an open table agrees with them up to `same`. -/
structure Linked (same : CacheEntry → CacheEntry → Prop) (appData folder : Path) (c : CModelCache)
    (disk : Disk) (stored : List CacheEntry) : Prop where
  folder_eq : c.m_szCacheFolder = folder
  holds : (disk (indexPath appData folder)).getD [] = CacheEntry.codec.encMany stored
  apart : ∀ e ∈ stored, wcs e.szAdFile ≠ indexPath appData folder
  opened : ∀ h, c.m_hCacheFile = some h → h.path = indexPath appData folder ∧
    disk (indexPath appData folder) ≠ none ∧ List.Forall₂ same stored c.m_CacheTable
  closed : c.m_hCacheFile = none → c.m_CacheTable = []

/-- The ad that a call stores, its URL, and the entry it belongs to. -/
inductive Op.Stores (c : CModelCache) : Op → Block → Wide → CacheEntry → Prop
  | addAd {id url : Wide} {block : Block} {call : SaveCall} {i : Nat} {e : CacheEntry}
    (stores : c.m_bEnableCacheStore = true) (opens : call.opens = true) (writes : call.writes = true)
    (found : c.searchInCache id = some i) (at_i : c.m_CacheTable[i]? = some e) :
    Stores c (.addAd id (some block) url call) block url e

section Steps
variable {same : CacheEntry → CacheEntry → Prop} {appData folder : Path} {c : CModelCache}
  {disk : Disk} {stored : List CacheEntry}

theorem linked_opened (folder : Path)
    (holds : (disk (indexPath appData folder)).getD [] = CacheEntry.codec.encMany stored)
    (apart : ∀ e ∈ stored, wcs e.szAdFile ≠ indexPath appData folder) :
    Linked same appData folder (opened folder disk).cache (opened folder disk).disk stored where
  folder_eq := rfl
  holds := holds
  apart := apart
  opened _ opened := by cases opened
  closed _ := rfl

theorem Linked.shut (h : Linked same appData folder c disk stored) :
    Linked same appData folder (c.cleanUp.setCacheFolder folder) disk stored where
  folder_eq := rfl
  holds := h.holds
  apart := h.apart
  opened _ opened := by cases opened
  closed _ := rfl

theorem Linked.enable (h : Linked same appData folder c disk stored) (read store : Bool) :
    Linked same appData folder { c with m_bEnableCacheRead := read, m_bEnableCacheStore := store } disk
      stored where
  folder_eq := h.folder_eq
  holds := h.holds
  apart := h.apart
  opened := h.opened
  closed := h.closed

theorem Linked.frame {disk' : Disk} (h : Linked same appData folder c disk stored)
    (index : disk' (indexPath appData folder) = disk (indexPath appData folder)) :
    Linked same appData folder c disk' stored where
  folder_eq := h.folder_eq
  holds := by rw [index, h.holds]
  apart := h.apart
  opened handle opened := by
    rw [index]
    exact h.opened handle opened
  closed := h.closed

theorem Linked.made (h : Linked same appData folder c disk stored) :
    Linked same appData folder c (indexed disk (indexPath appData folder)) stored where
  folder_eq := h.folder_eq
  holds := by rw [indexed_same, Option.getD_some, h.holds]
  apart := h.apart
  opened handle opened := by
    obtain ⟨path, -, agree⟩ := h.opened handle opened
    rw [indexed_same]
    exact ⟨path, Option.some_ne_none _, agree⟩
  closed := h.closed

theorem Linked.opens (refl : ∀ e, same e e) (h : Linked same appData folder c disk stored)
    {calls : InitCalls} (user : ∀ path ∈ calls.appData, path = appData)
    (reading : c.m_hCacheFile = none → calls.reads = true ∧
      ((disk (indexPath appData folder)).getD []).length < 2 ^ 32) :
    Linked same appData folder (c.initializeCache disk calls).2.1 (c.initializeCache disk calls).2.2
      stored := by
  cases handle : c.m_hCacheFile with
  | some handle' =>
    rw [initializeCache_open handle]
    exact h
  | none =>
    obtain ⟨reads, small⟩ := reading handle
    have empty := h.closed handle
    have index : indexPath appData c.m_szCacheFolder = indexPath appData folder := by rw [h.folder_eq]
    have made := h.made
    rcases initializeCache_cases disk user handle with
      ⟨full, disk', result, same | created⟩ | ⟨full, pointer, -, result⟩
    · rw [result, same]
      exact ⟨h.folder_eq, h.holds, h.apart, h.opened, h.closed⟩
    · rw [result, created, index]
      exact ⟨made.folder_eq, made.holds, made.apart, made.opened, made.closed⟩
    · rw [result, index, empty, reads, readTable_small small, h.holds, records_encMany]
      refine ⟨h.folder_eq, made.holds, h.apart, ?_, fun closed => by cases closed⟩
      intro handle' opened
      cases opened
      refine ⟨rfl, ?_, List.forall₂_same.mpr fun e _ => refl e⟩
      dsimp only
      rw [indexed_same]
      exact Option.some_ne_none _

theorem Linked.append (refl : ∀ e, same e e) (h : Linked same appData folder c disk stored)
    {handle : FileHandle} (opened : c.m_hCacheFile = some handle) {disk' : Disk} {m : NewModel}
    {data : Block} {model ad thumb : Wide} (filed : Filed disk disk' m data model ad thumb) :
    Linked same appData folder
      { c with
        m_hCacheFile := some (appendRecord handle disk' true true (newEntry m model ad thumb)).1
        m_CacheTable := c.m_CacheTable ++ [newEntry m model ad thumb] }
      (appendRecord handle disk' true true (newEntry m model ad thumb)).2
      (stored ++ [newEntry m model ad thumb]) := by
  obtain ⟨path, there, agree⟩ := h.opened handle opened
  obtain ⟨content, found⟩ := Option.ne_none_iff_exists'.mp there
  obtain ⟨samePath, written⟩ := appendRecord_works handle disk' (newEntry m model ad thumb)
  have holds := h.holds
  rw [found, Option.getD_some] at holds
  rw [path, filed.keeps _ _ found, Option.getD_some, holds] at written
  constructor
  · exact h.folder_eq
  · rw [written, Disk.set_same, Option.getD_some, Codec.encMany_append, Codec.encMany_cons,
      Codec.encMany_nil, List.append_nil]
  · intro e member
    rcases List.mem_append.mp member with old | new
    · exact h.apart e old
    · have adFile : wcs (newEntry m model ad thumb).szAdFile = ad.chars := wcs_wcscpy _ _
      rw [List.mem_singleton.mp new, adFile]
      intro clash
      rw [← clash, filed.newAd] at found
      cases found
  · intro handle' opened'
    cases opened'
    rw [written, Disk.set_same]
    exact ⟨samePath.trans path, Option.some_ne_none _, List.rel_append agree (.cons (refl _) .nil)⟩
  · intro closed
    cases closed

theorem Linked.refused {disk' : Disk} (h : Linked same appData folder c disk stored)
    (closed : c.m_hCacheFile = none → disk' = disk) (keeps : Keeps disk disk') :
    Linked same appData folder c disk' stored := by
  cases opened : c.m_hCacheFile with
  | none => exact h.frame (by rw [closed opened])
  | some handle =>
    obtain ⟨content, found⟩ := Option.ne_none_iff_exists'.mp (h.opened handle opened).2.1
    exact h.frame ((keeps _ _ found).trans found.symm)

theorem Linked.addModel (refl : ∀ e, same e e) (h : Linked same appData folder c disk stored)
    {m : NewModel} {calls : AddCalls} (fresh : AddCalls.Fresh calls disk) (seeks : calls.seeks = true)
    (writes : calls.writes = true) :
    ∃ stored', Linked same appData folder (c.addModelToCache disk m calls).2.1
      (c.addModelToCache disk m calls).2.2 stored' := by
  rcases addModelToCache_cases fresh (c := c) (m := m) with
    ⟨disk', result, closed, keeps⟩ | ⟨handle, data, model, ad, thumb, disk', opened, -, -, filed, result⟩
  · refine ⟨stored, ?_⟩
    rw [result]
    exact h.refused closed keeps
  · refine ⟨stored ++ [newEntry m model ad thumb], ?_⟩
    rw [result, seeks, writes]
    exact h.append refl opened filed

theorem Linked.found (h : Linked same appData folder c disk stored) {id : Wide} {i : Nat}
    {e : CacheEntry} (found : c.searchInCache id = some i) (at_i : c.m_CacheTable[i]? = some e) :
    ∃ d, stored[i]? = some d ∧ same d e := by
  obtain ⟨handle, opened⟩ := Option.isSome_iff_exists.mp (searchInCache_some found).1
  exact forall₂_getElem? (h.opened handle opened).2.2 at_i

theorem Linked.addAd (files : ∀ d e, same d e → e.szAdFile = d.szAdFile)
    (h : Linked same appData folder c disk stored) (id url : Wide) (data : Option Block) (call : SaveCall)
    (edits : ∀ block url' e, (Op.addAd id data url call).Stores c block url' e →
      ∀ d, same d e → same d (setUrl url' e)) :
    Linked same appData folder (c.addAdToCache disk id data url call).2.1
      (c.addAdToCache disk id data url call).2.2 stored := by
  have beside : ∀ i e content, c.searchInCache id = some i → c.m_CacheTable[i]? = some e →
      disk.set (wcs e.szAdFile) content (indexPath appData folder) = disk (indexPath appData folder) := by
    intro i e content found at_i
    obtain ⟨d, at_i', related⟩ := h.found found at_i
    apply Disk.set_other
    rw [files d e related]
    exact (h.apart d (List.mem_of_getElem? at_i')).symm
  rcases addAdToCache_cases c disk id url data call with ⟨disk', result, unchanged | ⟨i, e, at_i, found, made⟩⟩ |
      ⟨i, e, block, -, stores, given, found, at_i, opens, writes, result⟩
  · rw [result, unchanged]
    exact h
  · rw [result, made]
    exact h.frame (beside i e _ found at_i)
  · rw [result]
    have framed := h.frame (beside i e (patch ((disk (wcs e.szAdFile)).getD []) 0 block.bytes) found at_i)
    refine ⟨h.folder_eq, framed.holds, h.apart, ?_, ?_⟩
    · intro handle opened
      obtain ⟨path, there, agree⟩ := framed.opened handle opened
      refine ⟨path, there, forall₂_modify agree fun d e' at_i' related => ?_⟩
      obtain rfl : e' = e := Option.some.inj (at_i'.symm.trans at_i)
      subst given
      exact edits block url e' (.addAd stores opens writes found at_i) d related
    · intro closed
      rw [h.closed closed] at at_i
      cases at_i

end Steps

/-! ### Runs -/

/-- The system calls that decide what the index file and the table hold succeed, temporary names are
new, and the index is read as long as its size is a `DWORD`. -/
def Op.Sound (appData folder : Path) (st : State) : Op → Prop
  | .initializeCache calls => (∀ path ∈ calls.appData, path = appData) ∧
    (st.cache.m_hCacheFile = none → calls.reads = true ∧
      ((st.disk (indexPath appData folder)).getD []).length < 2 ^ 32)
  | .restart calls => (∀ path ∈ calls.appData, path = appData) ∧ calls.reads = true ∧
    ((st.disk (indexPath appData folder)).getD []).length < 2 ^ 32
  | .addModel _ calls => AddCalls.Fresh calls st.disk ∧ calls.seeks = true ∧ calls.writes = true
  | _ => True

/-- An ad that is stored comes with the URL its entry has already. -/
def Op.KeepsUrl (st : State) (op : Op) : Prop :=
  ∀ block url e, op.Stores st.cache block url e → wcs e.szAdUrl = url.chars

theorem setUrl_same {url : Wide} {e : CacheEntry} (same : wcs e.szAdUrl = url.chars) : setUrl url e = e := by
  rw [setUrl, wcscpy_self same]

/-- One call keeps the table and the index together, if the relation between them survives the call's
own change to an entry. -/
theorem Linked.step {same : CacheEntry → CacheEntry → Prop} (refl : ∀ e, same e e)
    (files : ∀ d e, same d e → e.szAdFile = d.szAdFile) {appData folder : Path} {st : State}
    {stored : List CacheEntry} (h : Linked same appData folder st.cache st.disk stored) {op : Op}
    (sound : op.Sound appData folder st)
    (edits : ∀ block url e, op.Stores st.cache block url e → ∀ d, same d e → same d (setUrl url e)) :
    ∃ stored', Linked same appData folder (step folder op st).cache (step folder op st).disk stored' := by
  cases op with
  | initializeCache calls => exact ⟨stored, h.opens refl sound.1 sound.2⟩
  | restart calls => exact ⟨stored, h.shut.opens refl sound.1 fun _ => sound.2⟩
  | addModel m calls => exact h.addModel refl sound.1 sound.2.1 sound.2.2
  | addAd id data url call => exact ⟨stored, h.addAd files id url data call edits⟩
  | loadModel id calls => exact ⟨stored, h⟩
  | enableCache bEnable => exact ⟨stored, h.enable bEnable bEnable⟩
  | enableCacheRead bEnable => exact ⟨stored, h.enable bEnable _⟩
  | enableCacheStore bEnable => exact ⟨stored, h.enable _ bEnable⟩

/-- The open table is what the index file holds, and what a restart makes of it. -/
def IndexFollows (appData folder : Path) (st : State) : Prop :=
  st.cache.m_hCacheFile.isSome = true →
    st.cache.m_CacheTable = records ((st.disk (indexPath appData folder)).getD []) ∧
    ∀ calls, InitCalls.Work calls appData →
      ((st.disk (indexPath appData folder)).getD []).length < 2 ^ 32 →
      (step folder (.restart calls) st).cache.m_CacheTable = st.cache.m_CacheTable

theorem Linked.restart_table {appData folder : Path} {st : State} {stored : List CacheEntry}
    {same : CacheEntry → CacheEntry → Prop}
    (h : Linked same appData folder st.cache st.disk stored) {calls : InitCalls}
    (work : InitCalls.Work calls appData)
    (small : ((st.disk (indexPath appData folder)).getD []).length < 2 ^ 32) :
    (Cache.step folder (.restart calls) st).cache.m_CacheTable = stored := by
  have fresh := freshTable_eq work folder small
  rw [h.holds, records_encMany] at fresh
  exact fresh

theorem Linked.follows {appData folder : Path} {st : State} {stored : List CacheEntry}
    (h : Linked Eq appData folder st.cache st.disk stored) : IndexFollows appData folder st := by
  intro isOpen
  obtain ⟨handle, opened⟩ := Option.isSome_iff_exists.mp isOpen
  obtain ⟨-, -, agree⟩ := h.opened handle opened
  rw [List.forall₂_eq_eq_eq] at agree
  rw [h.holds, records_encMany, ← agree]
  exact ⟨rfl, fun calls work small => h.restart_table work (by rwa [h.holds])⟩

/-- As long as no ad is stored with a new URL, the index file and the table stay the same. -/
theorem table_follows_index {appData folder : Path} {disk : Disk} {stored : List CacheEntry}
    (holds : (disk (indexPath appData folder)).getD [] = CacheEntry.codec.encMany stored)
    (apart : ∀ e ∈ stored, wcs e.szAdFile ≠ indexPath appData folder) (ops : List Op)
    (good : Machine.GoodRun (step folder) (fun op st => op.Sound appData folder st ∧ op.KeepsUrl st)
      (opened folder disk) ops) :
    IndexFollows appData folder (Machine.run (step folder) (opened folder disk) ops) := by
  have keep : ∀ op st, op.Sound appData folder st ∧ op.KeepsUrl st →
      (∃ stored, Linked Eq appData folder st.cache st.disk stored) →
      ∃ stored, Linked Eq appData folder (step folder op st).cache (step folder op st).disk stored := by
    rintro op st ⟨sound, keeps⟩ ⟨stored, linked⟩
    refine linked.step (fun _ => rfl) (fun d e same => by rw [same]) sound ?_
    intro block url e stores d same
    rw [setUrl_same (keeps block url e stores)]
    exact same
  obtain ⟨stored, linked⟩ := good.invariant keep ⟨stored, linked_opened folder holds apart⟩
  exact linked.follows

/-! ### A model and an ad -/

def letter (c : UInt16) (nonzero : c ≠ 0) : Wide where
  chars := [c]
  fits := by simp [maxPath]
  free := by
    rw [List.mem_singleton]
    exact nonzero.symm

theorem A_ne_zero : (65 : UInt16) ≠ 0 := by decide

theorem B_ne_zero : (66 : UInt16) ≠ 0 := by decide

def initSample : InitCalls := ⟨some [85], true, ⟨true, true⟩, true, true⟩

def addNaming (model ad thumb : Wide) : AddCalls :=
  ⟨some model, some ad, some thumb, ⟨true, true⟩, ⟨true, true⟩, ⟨true, true⟩, true, true⟩

def addSample : AddCalls := addNaming (letter 1 (by decide)) (letter 2 (by decide)) (letter 3 (by decide))

def addOther : AddCalls := addNaming (letter 4 (by decide)) (letter 5 (by decide)) (letter 6 (by decide))

def plainModel (id : Wide) : NewModel :=
  ⟨id, some ⟨[7], by decide⟩, none, letter 66 B_ne_zero, none, List.Vector.replicate 8 0⟩

def modelThenAd (ad : Option Block) (url later : Wide) : List Op :=
  [.initializeCache initSample,
    .addModel ⟨letter 65 A_ne_zero, some ⟨[7], by decide⟩, ad, url, none, List.Vector.replicate 8 0⟩
      addSample,
    .addAd (letter 65 A_ne_zero) (some ⟨[9], by decide⟩) later ⟨true, true⟩]

theorem addNaming_fresh {disk : Disk} {model ad thumb : Wide}
    (new : disk model.chars = none ∧ disk ad.chars = none ∧ disk thumb.chars = none)
    (apart : ad.chars ≠ model.chars ∧ thumb.chars ≠ model.chars ∧ thumb.chars ≠ ad.chars) :
    AddCalls.Fresh (addNaming model ad thumb) disk := by
  obtain ⟨newModel, newAd, newThumb⟩ := new
  obtain ⟨adModel, thumbModel, thumbAd⟩ := apart
  constructor
  · rintro name ⟨⟩
    exact newModel
  · rintro name ⟨⟩
    refine ⟨newAd, ?_⟩
    rintro other ⟨⟩
    exact adModel
  · rintro name ⟨⟩
    refine ⟨newThumb, ?_, ?_⟩
    · rintro other ⟨⟩
      exact thumbModel
    · rintro other ⟨⟩
      exact thumbAd

theorem modelThenAd_sound (ad : Option Block) (url later : Wide) :
    Machine.GoodRun (step [68]) (fun op st => op.Sound [85] [68] st) (opened [68] fun _ => none)
      (modelThenAd ad url later) := by
  refine ⟨⟨?_, fun _ => ⟨rfl, by decide⟩⟩, ⟨addNaming_fresh ⟨rfl, rfl, rfl⟩ (by decide), rfl, rfl⟩, trivial, trivial⟩
  rintro path ⟨⟩
  rfl

theorem table_follows_index_sameUrl :
    IndexFollows [85] [68] (Machine.run (step [68]) (opened [68] fun _ => none)
      (modelThenAd none (letter 66 (by decide)) (letter 66 (by decide)))) := by
  have none_apart : ∀ e ∈ ([] : List CacheEntry), wcs e.szAdFile ≠ indexPath [85] [68] := by
    intro e member
    cases member
  apply table_follows_index rfl none_apart _
  obtain ⟨first, second, third, -⟩ := modelThenAd_sound none (letter 66 (by decide)) (letter 66 (by decide))
  refine ⟨⟨first, ?_⟩, ⟨second, ?_⟩, ⟨third, ?_⟩, trivial⟩
  · rintro block url e ⟨⟩
  · rintro block url e ⟨⟩
  · intro block url e stores
    cases stores with
    | addAd _ _ _ found at_i =>
      cases found
      cases at_i
      decide +kernel

/-- The URL of an ad that arrives later is in the table alone. -/
theorem table_leaves_index :
    Machine.GoodRun (step [68]) (fun op st => op.Sound [85] [68] st) (opened [68] fun _ => none)
      (modelThenAd none (letter 66 (by decide)) (letter 67 (by decide))) ∧
    ¬ IndexFollows [85] [68] (Machine.run (step [68]) (opened [68] fun _ => none)
      (modelThenAd none (letter 66 (by decide)) (letter 67 (by decide)))) := by
  refine ⟨modelThenAd_sound _ _ _, fun follows => ?_⟩
  obtain ⟨same, -⟩ := follows rfl
  revert same
  decide +kernel

end ModelPublish.Cache
