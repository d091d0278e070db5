import ModelPublish.Cache.ModelCache

/-!
# What a call to the cache can do

One lemma for each function of the cache, over every outcome of the system calls it makes. What is
taken from the system is that the folder of the user stays the same and that a temporary name is new.
-/

namespace ModelPublish.Cache
open Packed CModelCache

/-- Files that were there are there unchanged. -/
def Keeps (disk disk' : Disk) : Prop := ∀ path content, disk path = some content → disk' path = some content

theorem Keeps.set_new {disk disk' : Disk} {path : Path} (h : Keeps disk disk') (new : disk path = none)
    (content : List UInt8) : Keeps disk (disk'.set path content) := by
  intro other content' found
  have ne : other ≠ path := by
    intro same
    rw [same, new] at found
    cases found
  rw [Disk.set_other _ _ ne]
  exact h other content' found

/-! ### Files -/

theorem saveMemToFile_saved {disk disk' : Disk} {call : SaveCall} {path : Path} {data : List UInt8}
    (h : saveMemToFile disk call path data = (true, disk')) :
    call.opens = true ∧ call.writes = true ∧
      disk' = disk.set path (patch ((disk path).getD []) 0 data) := by
  unfold saveMemToFile at h
  split at h
  · rename_i opens
    split at h
    · rename_i writes
      cases h
      exact ⟨opens, writes, rfl⟩
    · cases h
  · cases h

theorem saveMemToFile_failed {disk disk' : Disk} {call : SaveCall} {path : Path} {data : List UInt8}
    (h : saveMemToFile disk call path data = (false, disk')) :
    disk' = disk ∨ disk' = disk.set path ((disk path).getD []) := by
  unfold saveMemToFile at h
  split at h
  · split at h
    · cases h
    · cases h
      exact Or.inr rfl
  · cases h
    exact Or.inl rfl

theorem saveMemToFile_new {disk disk' : Disk} {call : SaveCall} {path : Path} {data : List UInt8}
    (empty : disk path = some []) (h : saveMemToFile disk call path data = (true, disk')) :
    disk' = disk.set path data := by
  rw [(saveMemToFile_saved h).2.2, empty, Option.getD_some, patch_start, List.drop_nil, List.append_nil]

theorem Keeps.saveMemToFile {disk disk' disk'' : Disk} {path : Path} (h : Keeps disk disk')
    (new : disk path = none) {saved : Bool} {call : SaveCall} {data : List UInt8}
    (call' : saveMemToFile disk' call path data = (saved, disk'')) : Keeps disk disk'' := by
  cases saved with
  | true =>
    rw [(saveMemToFile_saved call').2.2]
    exact h.set_new new _
  | false =>
    rcases saveMemToFile_failed call' with same | created
    · rw [same]
      exact h
    · rw [created]
      exact h.set_new new _

theorem loadFileToMem_read {disk : Disk} {call : LoadCall} {path : Path} {content : List UInt8}
    (opens : call.opens = true) (reads : call.reads = true) (found : disk path = some content)
    (small : content.length < 2 ^ 32) : loadFileToMem disk call path = some content := by
  rw [loadFileToMem, if_pos opens, found]
  simp only [Option.map_some, if_pos reads, Nat.mod_eq_of_lt small, List.take_length]

/-! ### Initialize -/

def indexPath (appData folder : Path) : Path := appData ++ 92 :: folder ++ indexName

/-- The disk once the index file is there. -/
def indexed (disk : Disk) (index : Path) : Disk := if (disk index).isSome then disk else disk.set index []

theorem indexed_same (disk : Disk) (index : Path) :
    indexed disk index index = some ((disk index).getD []) := by
  unfold indexed
  cases found : disk index with
  | some content => simpa using found
  | none => simp [Disk.set_same]

theorem indexed_other (disk : Disk) {index path : Path} (ne : path ≠ index) :
    indexed disk index path = disk path := by
  unfold indexed
  split
  · rfl
  · exact Disk.set_other disk [] ne

theorem indexed_eq_set (disk : Disk) (index : Path) :
    disk.set index ((disk index).getD []) = indexed disk index := by
  funext path
  by_cases same : path = index
  · rw [same, Disk.set_same, indexed_same]
  · rw [Disk.set_other _ _ same, indexed_other _ same]

section Calls
variable {c : CModelCache} {disk : Disk}

/-- All of its system calls succeed. -/
structure InitCalls.Work (calls : InitCalls) (appData : Path) : Prop where
  appData : calls.appData = some appData
  opens : calls.opens = true
  saves : calls.saves.opens = true ∧ calls.saves.writes = true
  reopens : calls.reopens = true
  reads : calls.reads = true

theorem openIndex_cases (disk : Disk) (calls : InitCalls) (szFile : Path) :
    (openIndex disk calls szFile = (some ⟨szFile, 0⟩, indexed disk szFile)) ∨
      ∃ disk', openIndex disk calls szFile = (none, disk') ∧ (disk' = disk ∨ disk' = indexed disk szFile) := by
  unfold openIndex
  split
  · rename_i there
    left
    have found : (disk szFile).isSome = true := by
      rw [Bool.and_eq_true] at there
      exact there.2
    rw [indexed, if_pos found]
  · cases saved : saveMemToFile disk calls.saves szFile [] with
    | mk saved' disk' =>
      have made : disk' = disk ∨ disk' = indexed disk szFile := by
        cases saved' with
        | true =>
          right
          rw [(saveMemToFile_saved saved).2.2, patch_start, List.nil_append, List.length_nil,
            List.drop_zero, indexed_eq_set]
        | false => exact (saveMemToFile_failed saved).imp id fun created => created.trans (indexed_eq_set _ _)
      simp only
      split
      · rename_i reopened
        left
        rcases made with same | created
        · have found : (disk szFile).isSome = true := by
            simp only [Bool.and_eq_true] at reopened
            rw [← same]
            exact reopened.2
          rw [same, indexed, if_pos found]
        · rw [created]
      · right
        exact ⟨disk', rfl, made⟩

theorem openIndex_works {calls : InitCalls} {appData : Path} (work : InitCalls.Work calls appData)
    (disk : Disk) (szFile : Path) : openIndex disk calls szFile = (some ⟨szFile, 0⟩, indexed disk szFile) := by
  rcases openIndex_cases disk calls szFile with opens | ⟨disk', fails, -⟩
  · exact opens
  · exfalso
    unfold openIndex at fails
    rw [work.opens, work.reopens] at fails
    cases found : disk szFile with
    | some content => simp [found] at fails
    | none => simp [found, saveMemToFile, work.saves, Disk.set_same] at fails

theorem initializeCache_open {calls : InitCalls} {h : FileHandle} (opened : c.m_hCacheFile = some h) :
    c.initializeCache disk calls = (false, c, disk) := by
  simp [initializeCache, opened]

theorem initializeCache_cases (disk : Disk) {calls : InitCalls} {appData : Path}
    (user : ∀ path ∈ calls.appData, path = appData) (closed : c.m_hCacheFile = none) :
    (∃ full disk', c.initializeCache disk calls = (false, { c with m_szCacheFullPath := full }, disk') ∧
      (disk' = disk ∨ disk' = indexed disk (indexPath appData c.m_szCacheFolder))) ∨
    ∃ full pointer, pointer = ((disk (indexPath appData c.m_szCacheFolder)).getD []).length % 2 ^ 32 /
        CacheEntry.codec.size * CacheEntry.codec.size ∧ c.initializeCache disk calls = (true,
      { c with
        m_szCacheFullPath := full
        m_hCacheFile := some ⟨indexPath appData c.m_szCacheFolder, pointer⟩
        m_CacheTable := readTable
          (((disk (indexPath appData c.m_szCacheFolder)).getD []).length % 2 ^ 32)
          ((disk (indexPath appData c.m_szCacheFolder)).getD []) calls.reads c.m_CacheTable },
      indexed disk (indexPath appData c.m_szCacheFolder)) := by
  obtain ⟨folder, full, handle, store, read, table⟩ := c
  dsimp only at closed
  subst closed
  unfold initializeCache
  cases known : calls.appData with
  | none => exact Or.inl ⟨full, disk, rfl, Or.inl rfl⟩
  | some path =>
    have path_eq : path = appData := user path known
    subst path_eq
    have index : path ++ 92 :: folder ++ indexName = indexPath path folder := rfl
    simp only [Option.isSome_none, Bool.false_eq_true, if_false, index]
    rcases openIndex_cases disk calls (indexPath path folder) with opens | ⟨disk', fails, made⟩
    · right
      simp only [opens, indexed_same, Option.getD_some]
      exact ⟨_, _, rfl, by rw [Nat.zero_add]⟩
    · left
      simp only [fails]
      exact ⟨_, disk', rfl, made⟩

theorem readTable_all (dwSize : Nat) (content : List UInt8) :
    readTable dwSize content true [] = CacheEntry.codec.decMany (dwSize / CacheEntry.codec.size) content := by
  rw [readTable]
  split
  · rename_i none
    rw [none]
    rfl
  · rfl

theorem readTable_small {content : List UInt8} (small : content.length < 2 ^ 32) :
    readTable (content.length % 2 ^ 32) content true [] = records content := by
  rw [Nat.mod_eq_of_lt small, readTable_all]
  rfl

theorem freshTable_eq {calls : InitCalls} {appData : Path} (work : InitCalls.Work calls appData)
    (folder : Path) (small : ((disk (indexPath appData folder)).getD []).length < 2 ^ 32) :
    ((construct.setCacheFolder folder).initializeCache disk calls).2.1.m_CacheTable =
      records ((disk (indexPath appData folder)).getD []) := by
  have index : appData ++ 92 :: folder ++ indexName = indexPath appData folder := rfl
  have folder_eq : (construct.setCacheFolder folder).m_szCacheFolder = folder := rfl
  have handle : (construct.setCacheFolder folder).m_hCacheFile = none := rfl
  have table : (construct.setCacheFolder folder).m_CacheTable = [] := rfl
  simp only [initializeCache, handle, Option.isSome_none, Bool.false_eq_true, if_false, work.appData,
    folder_eq, index, openIndex_works work, indexed_same, Option.getD_some, work.reads, table,
    readTable_small small]

/-! ### Entries -/

theorem searchInCache_some {id : Wide} {i : Nat} (h : c.searchInCache id = some i) :
    c.m_hCacheFile.isSome = true ∧ c.m_bEnableCacheRead = true ∧
      c.m_CacheTable.findIdx? (fun entry => wcs entry.szSibscriptionId = id.chars) = some i := by
  unfold searchInCache at h
  split at h
  · cases h
  rename_i opened
  split at h
  · cases h
  rename_i reads
  exact ⟨by simpa [Option.isNone_iff_eq_none, Option.isSome_iff_ne_none] using opened, by simpa using reads, h⟩

theorem searchInCache_found {id : Wide} {i : Nat} (h : c.searchInCache id = some i) :
    ∃ e, c.m_CacheTable[i]? = some e ∧ wcs e.szSibscriptionId = id.chars := by
  obtain ⟨inside, found, -⟩ := List.findIdx?_eq_some_iff_getElem.mp (searchInCache_some h).2.2
  exact ⟨c.m_CacheTable[i], List.getElem?_eq_getElem inside, of_decide_eq_true found⟩

/-- The bytes behind a pointer that may be null. -/
def blockBytes (data : Option Block) : List UInt8 := (data.map Block.bytes).getD []

/-- Each name is new when it is handed out. -/
structure AddCalls.Fresh (calls : AddCalls) (disk : Disk) : Prop where
  model : ∀ name ∈ calls.modelName, disk name.chars = none
  ad : ∀ name ∈ calls.adName, disk name.chars = none ∧
    ∀ model ∈ calls.modelName, name.chars ≠ model.chars
  thumb : ∀ name ∈ calls.thumbName, disk name.chars = none ∧
    (∀ model ∈ calls.modelName, name.chars ≠ model.chars) ∧ ∀ ad ∈ calls.adName, name.chars ≠ ad.chars

/-- The disk with the three files of a model that is being added. -/
structure Filed (disk disk' : Disk) (m : NewModel) (data : Block) (model ad thumb : Wide) : Prop where
  keeps : Keeps disk disk'
  newModel : disk model.chars = none
  newAd : disk ad.chars = none
  newThumb : disk thumb.chars = none
  apart : ad.chars ≠ model.chars ∧ thumb.chars ≠ model.chars ∧ thumb.chars ≠ ad.chars
  modelHolds : disk' model.chars = some data.bytes
  adHolds : disk' ad.chars = some (blockBytes m.pAdFileData)
  thumbHolds : disk' thumb.chars = some (blockBytes m.pThumbFileData)

theorem saveOptional_saved {disk disk' : Disk} {call : SaveCall} {path : Path} {data : Option Block}
    (empty : disk path = some []) (h : saveOptional disk call path data = (true, disk')) :
    disk' path = some (blockBytes data) ∧ ∀ other, other ≠ path → disk' other = disk other := by
  cases data with
  | none =>
    cases h
    exact ⟨empty, fun _ _ => rfl⟩
  | some data =>
    rw [saveMemToFile_new empty h]
    exact ⟨Disk.set_same _ _ _, fun other ne => Disk.set_other _ _ ne⟩

theorem Keeps.saveOptional {disk disk' disk'' : Disk} {path : Path} (h : Keeps disk disk')
    (new : disk path = none) {saved : Bool} {call : SaveCall} {data : Option Block}
    (call' : saveOptional disk' call path data = (saved, disk'')) : Keeps disk disk'' := by
  cases data with
  | none =>
    cases call'
    exact h
  | some data => exact h.saveMemToFile new call'

theorem fileModel_cases {m : NewModel} {calls : AddCalls} (fresh : AddCalls.Fresh calls disk) :
    (∃ disk', c.fileModel disk m calls = (none, disk') ∧
      (c.m_hCacheFile = none → disk' = disk) ∧ Keeps disk disk') ∨
    ∃ data model ad thumb disk', c.m_hCacheFile.isSome = true ∧ m.pModelFileData = some data ∧
      c.searchInCache m.strSubsid = none ∧ Filed disk disk' m data model ad thumb ∧
      c.fileModel disk m calls = (some (newEntry m model ad thumb), disk') := by
  have nothing : Keeps disk disk := fun _ _ found => found
  unfold fileModel
  split
  · exact Or.inl ⟨disk, rfl, fun _ => rfl, nothing⟩
  · exact Or.inl ⟨disk, rfl, fun _ => rfl, nothing⟩
  rename_i handle data opened given
  have notClosed {disk' : Disk} : c.m_hCacheFile = none → disk' = disk := by
    intro closed
    rw [opened] at closed
    cases closed
  split
  · exact Or.inl ⟨disk, rfl, notClosed, nothing⟩
  split
  · exact Or.inl ⟨disk, rfl, notClosed, nothing⟩
  rename_i absent
  cases modelName : calls.modelName with
  | none => exact Or.inl ⟨disk, rfl, notClosed, nothing⟩
  | some model =>
  have newModel := fresh.model model modelName
  have keeps₁ := nothing.set_new newModel []
  cases adName : calls.adName with
  | none => exact Or.inl ⟨_, rfl, notClosed, keeps₁⟩
  | some ad =>
  obtain ⟨newAd, adModel⟩ := fresh.ad ad adName
  replace adModel := adModel model modelName
  have keeps₂ := keeps₁.set_new newAd []
  cases thumbName : calls.thumbName with
  | none => exact Or.inl ⟨_, rfl, notClosed, keeps₂⟩
  | some thumb =>
  obtain ⟨newThumb, thumbModel, thumbAd⟩ := fresh.thumb thumb thumbName
  replace thumbModel := thumbModel model modelName
  replace thumbAd := thumbAd ad adName
  have keeps₃ := keeps₂.set_new newThumb []
  simp only [getTempFileName, Option.map_some]
  have modelEmpty : (((disk.set model.chars []).set ad.chars []).set thumb.chars []) model.chars =
      some [] := by
    rw [Disk.set_other _ _ thumbModel.symm, Disk.set_other _ _ adModel.symm, Disk.set_same]
  have adEmpty : (((disk.set model.chars []).set ad.chars []).set thumb.chars []) ad.chars =
      some [] := by
    rw [Disk.set_other _ _ thumbAd.symm, Disk.set_same]
  have thumbEmpty : (((disk.set model.chars []).set ad.chars []).set thumb.chars []) thumb.chars =
      some [] := Disk.set_same _ _ _
  generalize ((disk.set model.chars []).set ad.chars []).set thumb.chars [] = disk₃ at *
  split
  · rename_i disk₄ failed
    exact Or.inl ⟨disk₄, rfl, notClosed, keeps₃.saveMemToFile newModel failed⟩
  rename_i disk₄ modelSaved
  have keeps₄ := keeps₃.saveMemToFile newModel modelSaved
  have set₄ := saveMemToFile_new modelEmpty modelSaved
  split
  · rename_i disk₅ failed
    exact Or.inl ⟨disk₅, rfl, notClosed, keeps₄.saveOptional newAd failed⟩
  rename_i disk₅ adSaved
  have keeps₅ := keeps₄.saveOptional newAd adSaved
  have adEmpty₄ : disk₄ ad.chars = some [] := by rw [set₄, Disk.set_other _ _ adModel, adEmpty]
  obtain ⟨adHolds, adOther⟩ := saveOptional_saved adEmpty₄ adSaved
  split
  · rename_i disk₆ failed
    exact Or.inl ⟨disk₆, rfl, notClosed, keeps₅.saveOptional newThumb failed⟩
  rename_i disk₆ thumbSaved
  have thumbEmpty₅ : disk₅ thumb.chars = some [] := by
    rw [adOther _ thumbAd, set₄, Disk.set_other _ _ thumbModel, thumbEmpty]
  obtain ⟨thumbHolds, thumbOther⟩ := saveOptional_saved thumbEmpty₅ thumbSaved
  right
  refine ⟨data, model, ad, thumb, disk₆, by rw [opened]; rfl, given, by simpa using absent,
    ⟨keeps₅.saveOptional newThumb thumbSaved, newModel, newAd, newThumb,
      ⟨adModel, thumbModel, thumbAd⟩, ?_, ?_, thumbHolds⟩, rfl⟩
  · rw [thumbOther _ thumbModel.symm, adOther _ adModel.symm, set₄, Disk.set_same]
  · rw [thumbOther _ thumbAd.symm, adHolds]

theorem addModelToCache_cases {m : NewModel} {calls : AddCalls} (fresh : AddCalls.Fresh calls disk) :
    (∃ disk', c.addModelToCache disk m calls = (false, c, disk') ∧
      (c.m_hCacheFile = none → disk' = disk) ∧ Keeps disk disk') ∨
    ∃ h data model ad thumb disk', c.m_hCacheFile = some h ∧ m.pModelFileData = some data ∧
      c.searchInCache m.strSubsid = none ∧ Filed disk disk' m data model ad thumb ∧
      c.addModelToCache disk m calls = (true,
        { c with
          m_hCacheFile := some
            (appendRecord h disk' calls.seeks calls.writes (newEntry m model ad thumb)).1
          m_CacheTable := c.m_CacheTable ++ [newEntry m model ad thumb] },
        (appendRecord h disk' calls.seeks calls.writes (newEntry m model ad thumb)).2) := by
  rcases fileModel_cases fresh (c := c) (m := m) with
    ⟨disk', result, same, keeps⟩ | ⟨data, model, ad, thumb, disk', isOpen, given, absent, filed, result⟩
  · left
    refine ⟨disk', ?_, same, keeps⟩
    rw [addModelToCache, result]
    cases c.m_hCacheFile <;> rfl
  · right
    obtain ⟨h, opened⟩ := Option.isSome_iff_exists.mp isOpen
    refine ⟨h, data, model, ad, thumb, disk', opened, given, absent, filed, ?_⟩
    rw [addModelToCache, result, opened]

theorem appendRecord_works (h : FileHandle) (disk : Disk) (entry : CacheEntry) :
    (appendRecord h disk true true entry).1.path = h.path ∧
      (appendRecord h disk true true entry).2 =
        disk.set h.path ((disk h.path).getD [] ++ CacheEntry.codec.enc entry) := by
  refine ⟨rfl, ?_⟩
  simp only [appendRecord, if_true, FileHandle.toEnd, FileHandle.write, patch_end]

theorem addAdToCache_cases (c : CModelCache) (disk : Disk) (id url : Wide) (data : Option Block)
    (call : SaveCall) :
    (∃ disk', c.addAdToCache disk id data url call = (false, c, disk') ∧
      (disk' = disk ∨ ∃ i e, c.m_CacheTable[i]? = some e ∧ c.searchInCache id = some i ∧
        disk' = disk.set (wcs e.szAdFile) ((disk (wcs e.szAdFile)).getD []))) ∨
    ∃ i e block, c.m_hCacheFile.isSome = true ∧ c.m_bEnableCacheStore = true ∧ data = some block ∧
      c.searchInCache id = some i ∧ c.m_CacheTable[i]? = some e ∧
      call.opens = true ∧ call.writes = true ∧
      c.addAdToCache disk id data url call = (true,
        { c with m_CacheTable := c.m_CacheTable.modify i (setUrl url) },
        disk.set (wcs e.szAdFile) (patch ((disk (wcs e.szAdFile)).getD []) 0 block.bytes)) := by
  unfold addAdToCache
  split
  · exact Or.inl ⟨disk, rfl, Or.inl rfl⟩
  rename_i block
  split
  · exact Or.inl ⟨disk, rfl, Or.inl rfl⟩
  rename_i opened
  split
  · exact Or.inl ⟨disk, rfl, Or.inl rfl⟩
  rename_i stores
  split
  · exact Or.inl ⟨disk, rfl, Or.inl rfl⟩
  rename_i i found
  obtain ⟨e, at_i, -⟩ := searchInCache_found found
  simp only [at_i, Option.map_some, Option.getD_some]
  split
  · rename_i disk' failed
    refine Or.inl ⟨disk', rfl, ?_⟩
    exact (saveMemToFile_failed failed).imp_right fun made => ⟨i, e, at_i, found, made⟩
  · rename_i disk' saved
    obtain ⟨opens, writes, rfl⟩ := saveMemToFile_saved saved
    right
    exact ⟨i, e, block, (searchInCache_some found).1, by simpa using stores, rfl, found, at_i, opens,
      writes, rfl⟩

end Calls

end ModelPublish.Cache
