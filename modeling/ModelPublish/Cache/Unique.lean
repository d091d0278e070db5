import ModelPublish.Cache.Failures

/-!
# One entry for each subscription

Which ids the table and the index file hold after any run of calls. Records may fail to be written, or may be
written over others.
-/

namespace ModelPublish.Cache
open Packed CModelCache

def idOf (e : CacheEntry) : List UInt16 := wcs e.szSibscriptionId

/-- No two entries have the same id. -/
def Distinct (table : List CacheEntry) : Prop := (table.map idOf).Nodup

instance (table : List CacheEntry) : Decidable (Distinct table) := inferInstanceAs (Decidable (List.Nodup _))

/-- Neither the table nor the index file has two entries of one id. -/
def OneEach (appData folder : Path) (st : State) : Prop :=
  Distinct st.cache.m_CacheTable ∧ Distinct (records ((st.disk (indexPath appData folder)).getD []))

section Lists
variable {before behind : List CacheEntry} {e : CacheEntry}

theorem Distinct.replace (h : Distinct (before ++ behind)) (new : ∀ d ∈ before ++ behind, idOf d ≠ idOf e) :
    Distinct (before ++ e :: behind.tail) := by
  have rest : (before ++ behind.tail).Sublist (before ++ behind) :=
    List.Sublist.append_left (List.tail_sublist behind) before
  have absent : idOf e ∉ (before ++ behind.tail).map idOf := by
    intro member
    obtain ⟨d, old, same⟩ := List.mem_map.mp member
    exact new d (rest.subset old) same
  have distinct : ((before ++ behind.tail).map idOf).Nodup := h.sublist (rest.map idOf)
  rw [Distinct, List.map_append, List.map_cons, List.nodup_middle, ← List.map_append]
  exact List.nodup_cons.mpr ⟨absent, distinct⟩

theorem patch_encMany (before behind : List CacheEntry) (e : CacheEntry) :
    patch (CacheEntry.codec.encMany (before ++ behind)) (before.length * CacheEntry.codec.size)
      (CacheEntry.codec.enc e) = CacheEntry.codec.encMany (before ++ e :: behind.tail) := by
  rw [← Codec.length_encMany, Codec.encMany_append, Codec.encMany_append, Codec.encMany_cons]
  cases behind with
  | nil => rw [Codec.encMany_nil, List.append_nil, patch_end, List.tail_nil, Codec.encMany_nil, List.append_nil]
  | cons d behind =>
    have same : (CacheEntry.codec.enc e).length = (CacheEntry.codec.enc d).length := by
      rw [Codec.length_enc, Codec.length_enc]
    rw [Codec.encMany_cons, ← List.append_assoc, patch_inside _ _ same, List.append_assoc, List.tail_cons]

theorem map_modify_setUrl {α : Type} {g : CacheEntry → α} (url : Wide) (same : ∀ e, g (setUrl url e) = g e)
    (table : List CacheEntry) (i : Nat) : (table.modify i (setUrl url)).map g = table.map g := by
  apply List.ext_getElem?
  intro j
  rw [List.getElem?_map, List.getElem?_map, List.getElem?_modify]
  split <;> cases table[j]? <;> simp [same]

end Lists

/-- `stored` are the records of the index file. Their ids are all in an open table, and the file pointer
stands between two of them. -/
structure Single (appData folder : Path) (c : CModelCache) (disk : Disk) (stored : List CacheEntry) : Prop where
  folder_eq : c.m_szCacheFolder = folder
  holds : (disk (indexPath appData folder)).getD [] = CacheEntry.codec.encMany stored
  table : Distinct c.m_CacheTable
  distinct : Distinct stored
  apart : ∀ e ∈ stored ++ c.m_CacheTable, wcs e.szAdFile ≠ indexPath appData folder
  opened : ∀ h, c.m_hCacheFile = some h → h.path = indexPath appData folder ∧
    disk (indexPath appData folder) ≠ none ∧ (∃ n ≤ stored.length, h.pointer = n * CacheEntry.codec.size) ∧
    ∀ e ∈ stored, idOf e ∈ c.m_CacheTable.map idOf
  closed : c.m_hCacheFile = none → c.m_CacheTable = []

section Steps
variable {appData folder : Path} {c : CModelCache} {disk : Disk} {stored : List CacheEntry}

theorem single_opened (folder : Path) (empty : (disk (indexPath appData folder)).getD [] = []) :
    Single appData folder (opened folder disk).cache (opened folder disk).disk [] where
  folder_eq := rfl
  holds := empty
  table := List.nodup_nil
  distinct := List.nodup_nil
  apart _ member := by cases member
  opened _ opened := by cases opened
  closed _ := rfl

theorem Single.shut (h : Single appData folder c disk stored) :
    Single appData folder (c.cleanUp.setCacheFolder folder) disk stored where
  folder_eq := rfl
  holds := h.holds
  table := List.nodup_nil
  distinct := h.distinct
  apart e member := by
    rcases List.mem_append.mp member with old | new
    · exact h.apart e (List.mem_append_left _ old)
    · cases new
  opened _ opened := by cases opened
  closed _ := rfl

theorem Single.enable (h : Single appData folder c disk stored) (read store : Bool) :
    Single appData folder { c with m_bEnableCacheRead := read, m_bEnableCacheStore := store } disk stored where
  folder_eq := h.folder_eq
  holds := h.holds
  table := h.table
  distinct := h.distinct
  apart := h.apart
  opened := h.opened
  closed := h.closed

theorem Single.frame {disk' : Disk} (h : Single appData folder c disk stored)
    (index : disk' (indexPath appData folder) = disk (indexPath appData folder)) :
    Single appData folder c disk' stored where
  folder_eq := h.folder_eq
  holds := by rw [index, h.holds]
  table := h.table
  distinct := h.distinct
  apart := h.apart
  opened handle opened := by
    rw [index]
    exact h.opened handle opened
  closed := h.closed

theorem Single.opens (h : Single appData folder c disk stored) {calls : InitCalls}
    (user : ∀ path ∈ calls.appData, path = appData)
    (reading : c.m_hCacheFile = none → calls.reads = true ∧
      ((disk (indexPath appData folder)).getD []).length < 2 ^ 32) :
    Single appData folder (c.initializeCache disk calls).2.1 (c.initializeCache disk calls).2.2 stored := by
  cases handle : c.m_hCacheFile with
  | some handle' =>
    rw [initializeCache_open handle]
    exact h
  | none =>
    obtain ⟨reads, small⟩ := reading handle
    have empty := h.closed handle
    have index : indexPath appData c.m_szCacheFolder = indexPath appData folder := by rw [h.folder_eq]
    have made : Single appData folder c (indexed disk (indexPath appData folder)) stored := by
      refine ⟨h.folder_eq, ?_, h.table, h.distinct, h.apart, ?_, h.closed⟩
      · rw [indexed_same, Option.getD_some, h.holds]
      · intro handle' opened
        rw [handle] at opened
        cases opened
    rcases initializeCache_cases disk user handle with
      ⟨full, disk', result, same | created⟩ | ⟨full, pointer, start, result⟩
    · rw [result, same]
      exact ⟨h.folder_eq, h.holds, h.table, h.distinct, h.apart, h.opened, h.closed⟩
    · rw [result, created, index]
      exact ⟨made.folder_eq, made.holds, made.table, made.distinct, made.apart, made.opened, made.closed⟩
    · rw [index, Nat.mod_eq_of_lt small, h.holds, Codec.length_encMany,
        Nat.mul_div_cancel _ (by rw [CacheEntry.size]; decide)] at start
      rw [result, index, empty, reads, readTable_small small, h.holds, records_encMany]
      refine ⟨h.folder_eq, made.holds, h.distinct, h.distinct, ?_, ?_, nofun⟩
      · intro e member
        exact h.apart e (List.mem_append_left _ ((List.mem_append.mp member).elim id id))
      · rintro handle' ⟨⟩
        refine ⟨rfl, ?_, ⟨stored.length, Nat.le_refl _, start⟩, fun e member => List.mem_map_of_mem member⟩
        dsimp only
        rw [indexed_same]
        exact Option.some_ne_none _

theorem appendRecord_records {h : FileHandle} {n : Nat} {disk : Disk} (seeks writes : Bool) {e : CacheEntry}
    (holds : disk h.path = some (CacheEntry.codec.encMany stored)) (inside : n ≤ stored.length)
    (pointer : h.pointer = n * CacheEntry.codec.size) (distinct : Distinct stored)
    (new : ∀ d ∈ stored, idOf d ≠ idOf e) :
    ∃ stored' n', n' ≤ stored'.length ∧ (∀ d ∈ stored', d ∈ stored ∨ d = e) ∧ Distinct stored' ∧
      (appendRecord h disk seeks writes e).1 = ⟨h.path, n' * CacheEntry.codec.size⟩ ∧
      (appendRecord h disk seeks writes e).2 h.path = some (CacheEntry.codec.encMany stored') := by
  have ends : (if seeks then h.toEnd disk else h) =
      ⟨h.path, (if seeks then stored.length else n) * CacheEntry.codec.size⟩ := by
    cases seeks with
    | true => rw [if_pos rfl, if_pos rfl, FileHandle.toEnd, holds, Option.getD_some, Codec.length_encMany]
    | false => rw [if_neg Bool.false_ne_true, if_neg Bool.false_ne_true, ← pointer]
  have place : (if seeks then stored.length else n) ≤ stored.length := by
    split
    · exact Nat.le_refl _
    · exact inside
  generalize (if seeks then stored.length else n) = k at ends place
  simp only [appendRecord, ends]
  cases writes with
  | false => exact ⟨stored, k, place, fun d old => Or.inl old, distinct, rfl, holds⟩
  | true =>
    obtain ⟨before, behind, rfl, length⟩ : ∃ before behind, stored = before ++ behind ∧ before.length = k :=
      ⟨stored.take k, stored.drop k, (List.take_append_drop k stored).symm, List.length_take_of_le place⟩
    have size : (CacheEntry.codec.enc e).length = CacheEntry.codec.size := Codec.length_enc _ _
    refine ⟨before ++ e :: behind.tail, k + 1, ?_, ?_, distinct.replace new, ?_, ?_⟩
    · rw [List.length_append, List.length_cons]
      omega
    · intro d member
      rcases List.mem_append.mp member with front | rest
      · exact Or.inl (List.mem_append_left _ front)
      · rcases List.mem_cons.mp rest with same | tail
        · exact Or.inr same
        · exact Or.inl (List.mem_append_right _ (List.mem_of_mem_tail tail))
    · simp only [if_true, FileHandle.write, size, Nat.add_one_mul]
    · simp only [if_true, FileHandle.write, Disk.set_same, holds, Option.getD_some, ← length, patch_encMany]

theorem searchInCache_absent {id : Wide} {h : FileHandle} (opened : c.m_hCacheFile = some h)
    (reads : c.m_bEnableCacheRead = true) (absent : c.searchInCache id = none) :
    ∀ e ∈ c.m_CacheTable, idOf e ≠ id.chars := by
  simp only [searchInCache, opened, reads, Option.isNone_some, Bool.false_eq_true, Bool.true_eq_false,
    if_false, List.findIdx?_eq_none_iff, decide_eq_false_iff_not] at absent
  exact absent

theorem Single.addModel (h : Single appData folder c disk stored) {m : NewModel} {calls : AddCalls}
    (fresh : AddCalls.Fresh calls disk)
    (unknown : ¬ Refused c m → AddCalls.Files calls m → c.m_bEnableCacheRead = false →
      ∀ e ∈ c.m_CacheTable, idOf e ≠ m.strSubsid.chars) :
    ∃ stored', Single appData folder (c.addModelToCache disk m calls).2.1
      (c.addModelToCache disk m calls).2.2 stored' := by
  rcases fileModel_cases fresh (c := c) (m := m) with
    ⟨disk', result, closed, keeps⟩ | ⟨data, model, ad, thumb, disk', isOpen, -, absent, filed, result⟩
  · refine ⟨stored, ?_⟩
    rw [addModelToCache_unfiled result]
    cases opened : c.m_hCacheFile with
    | none => exact h.frame (by rw [closed opened])
    | some handle =>
      obtain ⟨content, found⟩ := Option.ne_none_iff_exists'.mp (h.opened handle opened).2.1
      exact h.frame ((keeps _ _ found).trans found.symm)
  · obtain ⟨handle, opened⟩ := Option.isSome_iff_exists.mp isOpen
    obtain ⟨path, there, ⟨n, inside, pointer⟩, known⟩ := h.opened handle opened
    obtain ⟨content, found⟩ := Option.ne_none_iff_exists'.mp there
    obtain ⟨accepted, files⟩ := fileModel_made result
    have new : ∀ e ∈ c.m_CacheTable, idOf e ≠ m.strSubsid.chars := by
      cases reads : c.m_bEnableCacheRead with
      | true => exact searchInCache_absent opened reads absent
      | false => exact unknown accepted files reads
    have id_eq : idOf (newEntry m model ad thumb) = m.strSubsid.chars := wcs_wcscpy _ _
    have newStored : ∀ d ∈ stored, idOf d ≠ idOf (newEntry m model ad thumb) := by
      intro d member
      obtain ⟨e, old, same⟩ := List.mem_map.mp (known d member)
      rw [id_eq, ← same]
      exact new e old
    have holds : disk' handle.path = some (CacheEntry.codec.encMany stored) := by
      rw [path, filed.keeps _ _ found, ← h.holds, found, Option.getD_some]
    obtain ⟨stored', n', inside', from_old, distinct', handle', holds'⟩ :=
      appendRecord_records calls.seeks calls.writes holds inside pointer h.distinct newStored
    have apartNew : wcs (newEntry m model ad thumb).szAdFile ≠ indexPath appData folder := by
      have adFile : wcs (newEntry m model ad thumb).szAdFile = ad.chars := wcs_wcscpy _ _
      rw [adFile]
      intro clash
      rw [← clash, filed.newAd] at found
      cases found
    refine ⟨stored', ?_⟩
    rw [addModelToCache, result, opened]
    dsimp only
    rw [path] at handle' holds'
    rw [handle']
    refine ⟨h.folder_eq, by rw [holds', Option.getD_some], ?_, distinct', ?_, ?_,
      fun closed => absurd closed (Option.some_ne_none _)⟩
    · have absentId : idOf (newEntry m model ad thumb) ∉ c.m_CacheTable.map idOf := by
        intro member
        obtain ⟨e, old, same⟩ := List.mem_map.mp member
        exact new e old (same.trans id_eq)
      rw [Distinct, List.map_append, List.nodup_append]
      refine ⟨h.table, List.nodup_singleton _, ?_⟩
      rintro x old y last rfl
      rw [List.map_singleton, List.mem_singleton] at last
      exact absentId (last ▸ old)
    · intro e member
      rcases List.mem_append.mp member with record | row
      · rcases from_old e record with old | rfl
        · exact h.apart e (List.mem_append_left _ old)
        · exact apartNew
      · rcases List.mem_append.mp row with old | last
        · exact h.apart e (List.mem_append_right _ old)
        · rw [List.mem_singleton.mp last]
          exact apartNew
    · rintro handle'' ⟨⟩
      refine ⟨rfl, by rw [holds']; exact Option.some_ne_none _, ⟨n', inside', rfl⟩, fun e record => ?_⟩
      rw [List.map_append, List.mem_append]
      rcases from_old e record with old | rfl
      · exact Or.inl (known e old)
      · exact Or.inr (by simp)

theorem Single.addAd (h : Single appData folder c disk stored) (id url : Wide) (data : Option Block)
    (call : SaveCall) :
    Single appData folder (c.addAdToCache disk id data url call).2.1
      (c.addAdToCache disk id data url call).2.2 stored := by
  have beside : ∀ (i : Nat) e content, c.m_CacheTable[i]? = some e →
      disk.set (wcs e.szAdFile) content (indexPath appData folder) = disk (indexPath appData folder) := by
    intro i e content at_i
    exact Disk.set_other _ _ (h.apart e (List.mem_append_right _ (List.mem_of_getElem? at_i))).symm
  rcases addAdToCache_cases c disk id url data call with ⟨disk', result, unchanged | ⟨i, e, at_i, -, made⟩⟩ |
      ⟨i, e, block, isOpen, -, -, -, at_i, -, -, result⟩
  · rw [result, unchanged]
    exact h
  · rw [result, made]
    exact h.frame (beside i e _ at_i)
  · rw [result]
    have framed := h.frame (beside i e (patch ((disk (wcs e.szAdFile)).getD []) 0 block.bytes) at_i)
    have ids := map_modify_setUrl (g := idOf) url (fun _ => rfl) c.m_CacheTable i
    have ads := map_modify_setUrl (g := fun e : CacheEntry => wcs e.szAdFile) url (fun _ => rfl) c.m_CacheTable i
    refine ⟨h.folder_eq, framed.holds, ?_, h.distinct, ?_, ?_, ?_⟩
    · rw [Distinct, ids]
      exact h.table
    · intro e' member
      rcases List.mem_append.mp member with old | row
      · exact h.apart e' (List.mem_append_left _ old)
      · have file := List.mem_map_of_mem (f := fun e : CacheEntry => wcs e.szAdFile) row
        rw [ads] at file
        obtain ⟨d, old, same⟩ := List.mem_map.mp file
        rw [← same]
        exact h.apart d (List.mem_append_right _ old)
    · intro handle opened
      rw [ids]
      exact framed.opened handle opened
    · intro closed
      rw [closed] at isOpen
      cases isOpen

end Steps

/-! ### Runs -/

/-- The folder of the user stays the same, temporary names are new, and the index is read as long as its size
is a `DWORD`. -/
def Op.Steady (appData folder : Path) (st : State) : Op → Prop
  | .initializeCache calls => (∀ path ∈ calls.appData, path = appData) ∧
    (st.cache.m_hCacheFile = none → calls.reads = true ∧
      ((st.disk (indexPath appData folder)).getD []).length < 2 ^ 32)
  | .restart calls => (∀ path ∈ calls.appData, path = appData) ∧ calls.reads = true ∧
    ((st.disk (indexPath appData folder)).getD []).length < 2 ^ 32
  | .addModel _ calls => AddCalls.Fresh calls st.disk
  | _ => True

/-- A model that is added while the cache is not read is one that has no entry. -/
def Op.Unknown (st : State) : Op → Prop
  | .addModel m calls => ¬ Refused st.cache m → AddCalls.Files calls m → st.cache.m_bEnableCacheRead = false →
    ∀ e ∈ st.cache.m_CacheTable, idOf e ≠ m.strSubsid.chars
  | _ => True

theorem Single.step {appData folder : Path} {st : State} {stored : List CacheEntry}
    (h : Single appData folder st.cache st.disk stored) {op : Op} (steady : op.Steady appData folder st)
    (unknown : op.Unknown st) :
    ∃ stored', Single appData folder (step folder op st).cache (step folder op st).disk stored' := by
  cases op with
  | initializeCache calls => exact ⟨stored, h.opens steady.1 steady.2⟩
  | restart calls => exact ⟨stored, h.shut.opens steady.1 fun _ => steady.2⟩
  | addModel m calls => exact h.addModel steady unknown
  | addAd id data url call => exact ⟨stored, h.addAd id url data call⟩
  | loadModel id calls => exact ⟨stored, h⟩
  | enableCache bEnable => exact ⟨stored, h.enable bEnable bEnable⟩
  | enableCacheRead bEnable => exact ⟨stored, h.enable bEnable _⟩
  | enableCacheStore bEnable => exact ⟨stored, h.enable _ bEnable⟩

/-- From an empty index on, no id is stored twice while each model added with reading switched off is new. -/
theorem one_entry_each {appData folder : Path} {disk : Disk}
    (empty : (disk (indexPath appData folder)).getD [] = []) (ops : List Op)
    (good : Machine.GoodRun (step folder) (fun op st => op.Steady appData folder st ∧ op.Unknown st)
      (opened folder disk) ops) :
    OneEach appData folder (Machine.run (step folder) (opened folder disk) ops) := by
  have keep : ∀ op st, op.Steady appData folder st ∧ op.Unknown st →
      (∃ stored, Single appData folder st.cache st.disk stored) →
      ∃ stored, Single appData folder (step folder op st).cache (step folder op st).disk stored := by
    intro op st ⟨steady, unknown⟩ ⟨stored, single⟩
    exact single.step steady unknown
  obtain ⟨stored, single⟩ := good.invariant keep ⟨[], single_opened folder empty⟩
  refine ⟨single.table, ?_⟩
  rw [single.holds, records_encMany]
  exact single.distinct

/-! ### Two models with reading switched off between them -/

def addedTwice (first second : Wide) : List Op :=
  [.initializeCache initSample, .addModel (plainModel first) addSample, .enableCacheRead false,
    .addModel (plainModel second) addOther]

theorem addedTwice_steady (first second : Wide) :
    Machine.GoodRun (step [68]) (fun op st => op.Steady [85] [68] st) (opened [68] fun _ => none)
      (addedTwice first second) := by
  refine ⟨⟨?_, fun _ => ⟨rfl, by decide⟩⟩, addNaming_fresh ⟨rfl, rfl, rfl⟩ (by decide), trivial,
    addNaming_fresh ⟨rfl, rfl, rfl⟩ (by decide), trivial⟩
  rintro path ⟨⟩
  rfl

theorem one_entry_each_letters :
    OneEach [85] [68] (Machine.run (step [68]) (opened [68] fun _ => none)
      (addedTwice (letter 65 (by decide)) (letter 97 (by decide)))) := by
  apply one_entry_each rfl _
  obtain ⟨first, second, third, fourth, -⟩ := addedTwice_steady (letter 65 (by decide)) (letter 97 (by decide))
  refine ⟨⟨first, trivial⟩, ⟨second, ?_⟩, ⟨third, trivial⟩, ⟨fourth, ?_⟩, trivial⟩
  · intro _ _ off
    cases off
  · intro _ _ _
    decide +kernel

theorem two_entries_of_one_id :
    Machine.GoodRun (step [68]) (fun op st => op.Steady [85] [68] st) (opened [68] fun _ => none)
      (addedTwice (letter 65 (by decide)) (letter 65 (by decide))) ∧
    ¬ OneEach [85] [68] (Machine.run (step [68]) (opened [68] fun _ => none)
      (addedTwice (letter 65 (by decide)) (letter 65 (by decide)))) := by
  refine ⟨addedTwice_steady _ _, fun each => ?_⟩
  have table := each.1
  revert table
  decide +kernel

end ModelPublish.Cache
