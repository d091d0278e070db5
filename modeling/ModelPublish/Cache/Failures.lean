import ModelPublish.Cache.Store

/-!
# AddModelToCache when system calls fail

What is left of a model that was to be added, for each way in which the calls can fail.
-/

namespace ModelPublish.Cache
open Packed CModelCache

/-- No file is gone. -/
def Grows (disk disk' : Disk) : Prop := ∀ path, (disk path).isSome = true → (disk' path).isSome = true

theorem Grows.set {disk disk' : Disk} (h : Grows disk disk') (path : Path) (content : List UInt8) :
    Grows disk (disk'.set path content) := by
  intro other there
  by_cases same : other = path
  · rw [same, Disk.set_same]
    rfl
  · rw [Disk.set_other _ _ same]
    exact h other there

theorem Grows.saveMemToFile {disk disk' disk'' : Disk} (h : Grows disk disk') {call : SaveCall} {path : Path}
    {data : List UInt8} {saved : Bool} (save : saveMemToFile disk' call path data = (saved, disk'')) :
    Grows disk disk'' := by
  cases saved with
  | true =>
    rw [(saveMemToFile_saved save).2.2]
    exact h.set _ _
  | false =>
    rcases saveMemToFile_failed save with same | created
    · rw [same]
      exact h
    · rw [created]
      exact h.set _ _

theorem Grows.saveOptional {disk disk' disk'' : Disk} (h : Grows disk disk') {call : SaveCall} {path : Path}
    {data : Option Block} {saved : Bool} (save : saveOptional disk' call path data = (saved, disk'')) :
    Grows disk disk'' := by
  cases data with
  | none =>
    cases save
    exact h
  | some data => exact h.saveMemToFile save

section Files
variable {c : CModelCache} {disk : Disk} {m : NewModel} {calls : AddCalls}

/-- `AddModelToCache` returns before its first call to the system. -/
def Refused (c : CModelCache) (m : NewModel) : Prop :=
  c.m_hCacheFile = none ∨ m.pModelFileData = none ∨ c.m_bEnableCacheStore = false ∨
    (c.searchInCache m.strSubsid).isSome = true

/-- A file is opened and written, if there is data for it. -/
def SaveCall.Saves (call : SaveCall) (data : Option Block) : Prop :=
  data.isSome = true → call.opens = true ∧ call.writes = true

/-- Every file of the model gets its name and its data. -/
structure AddCalls.Files (calls : AddCalls) (m : NewModel) : Prop where
  names : calls.modelName.isSome = true ∧ calls.adName.isSome = true ∧ calls.thumbName.isSome = true
  model : calls.model.opens = true ∧ calls.model.writes = true
  ad : calls.ad.Saves m.pAdFileData
  thumb : calls.thumb.Saves m.pThumbFileData

theorem saved_iff {disk' : Disk} {call : SaveCall} {path : Path} {data : List UInt8} {saved : Bool}
    (save : saveMemToFile disk call path data = (saved, disk')) :
    saved = true ↔ call.opens = true ∧ call.writes = true := by
  have result : saved = (saveMemToFile disk call path data).1 := by rw [save]
  rw [result, saveMemToFile]
  cases call.opens <;> cases call.writes <;> simp

theorem optionalSaved_iff {disk' : Disk} {call : SaveCall} {path : Path} {data : Option Block} {saved : Bool}
    (save : saveOptional disk call path data = (saved, disk')) : saved = true ↔ call.Saves data := by
  cases data with
  | none =>
    cases save
    simp [SaveCall.Saves]
  | some data =>
    rw [saved_iff save]
    simp [SaveCall.Saves]

theorem fileModel_refused (refused : Refused c m) : c.fileModel disk m calls = (none, disk) := by
  unfold fileModel
  split
  · rfl
  · rfl
  · rename_i opened given
    split
    · rfl
    · rename_i stores
      split
      · rfl
      · rename_i absent
        exfalso
        rcases refused with closed | missing | off | found
        · rw [opened] at closed
          cases closed
        · rw [given] at missing
          cases missing
        · exact stores off
        · exact absent found

theorem fileModel_unnamed (unnamed : calls.modelName = none) : c.fileModel disk m calls = (none, disk) := by
  by_cases refused : Refused c m
  · exact fileModel_refused refused
  · simp only [Refused, not_or, Bool.not_eq_true, Bool.not_eq_false] at refused
    obtain ⟨opened, given, stores, absent⟩ := refused
    obtain ⟨h, opened⟩ := Option.ne_none_iff_exists'.mp opened
    obtain ⟨data, given⟩ := Option.ne_none_iff_exists'.mp given
    simp only [fileModel, opened, given, stores, absent, unnamed, getTempFileName, Option.map_none,
      Bool.true_eq_false, Bool.false_eq_true, if_false]

/-- Once its first file is named, that file is there whatever fails later, and the entry is made when
nothing fails. -/
theorem fileModel_named (disk : Disk) {model : Wide} (accepted : ¬ Refused c m) (named : calls.modelName = some model) :
    ((c.fileModel disk m calls).1.isSome = true ↔ AddCalls.Files calls m) ∧
      ((c.fileModel disk m calls).2 model.chars).isSome = true := by
  simp only [Refused, not_or, Bool.not_eq_true, Bool.not_eq_false] at accepted
  obtain ⟨opened, given, stores, absent⟩ := accepted
  obtain ⟨h, opened⟩ := Option.ne_none_iff_exists'.mp opened
  obtain ⟨data, given⟩ := Option.ne_none_iff_exists'.mp given
  have there : ((disk.set model.chars []) model.chars).isSome = true := by
    rw [Disk.set_same]
    rfl
  have grows : Grows (disk.set model.chars []) (disk.set model.chars []) := fun _ there => there
  simp only [fileModel, opened, given, stores, absent, named, getTempFileName, Option.map_some,
    Bool.true_eq_false, Bool.false_eq_true, if_false]
  cases adName : calls.adName with
  | none =>
    refine ⟨⟨fun made => absurd made Bool.false_ne_true, fun files => ?_⟩, there⟩
    have missing := files.names.2.1
    rw [adName] at missing
    cases missing
  | some ad =>
  replace grows := grows.set ad.chars []
  simp only [Option.map_some]
  cases thumbName : calls.thumbName with
  | none =>
    refine ⟨⟨fun made => absurd made Bool.false_ne_true, fun files => ?_⟩, grows _ there⟩
    have missing := files.names.2.2
    rw [thumbName] at missing
    cases missing
  | some thumb =>
  replace grows := grows.set thumb.chars []
  simp only [Option.map_some]
  split
  · rename_i disk₁ failed
    refine ⟨⟨fun made => absurd made Bool.false_ne_true, fun files => ?_⟩, grows.saveMemToFile failed _ there⟩
    cases (saved_iff failed).mpr files.model
  rename_i disk₁ modelSaved
  replace grows := grows.saveMemToFile modelSaved
  have modelWorks := (saved_iff modelSaved).mp rfl
  split
  · rename_i disk₂ failed
    refine ⟨⟨fun made => absurd made Bool.false_ne_true, fun files => ?_⟩, grows.saveOptional failed _ there⟩
    cases (optionalSaved_iff failed).mpr files.ad
  rename_i disk₂ adSaved
  replace grows := grows.saveOptional adSaved
  have adWorks := (optionalSaved_iff adSaved).mp rfl
  split
  · rename_i disk₃ failed
    refine ⟨⟨fun made => absurd made Bool.false_ne_true, fun files => ?_⟩, grows.saveOptional failed _ there⟩
    cases (optionalSaved_iff failed).mpr files.thumb
  · rename_i disk₃ thumbSaved
    have thumbWorks := (optionalSaved_iff thumbSaved).mp rfl
    refine ⟨⟨fun _ => ⟨?_, modelWorks, adWorks, thumbWorks⟩, fun _ => rfl⟩,
      grows.saveOptional thumbSaved _ there⟩
    rw [named, adName, thumbName]
    exact ⟨rfl, rfl, rfl⟩

theorem fileModel_made {disk' : Disk} {entry : CacheEntry} (made : c.fileModel disk m calls = (some entry, disk')) :
    ¬ Refused c m ∧ AddCalls.Files calls m := by
  have accepted : ¬ Refused c m := by
    intro refused
    rw [fileModel_refused refused] at made
    cases made
  refine ⟨accepted, ?_⟩
  cases named : calls.modelName with
  | none =>
    rw [fileModel_unnamed named] at made
    cases made
  | some model =>
    apply (fileModel_named disk accepted named).1.mp
    rw [made]
    rfl

/-! ### The record -/

theorem appendRecord_whole {h : FileHandle} {seeks writes : Bool} (entry : CacheEntry) {content : List UInt8}
    (holds : disk h.path = some content) :
    (appendRecord h disk seeks writes entry).2 h.path = some (content ++ CacheEntry.codec.enc entry) ↔
      writes = true ∧ (seeks = true ∨ h.pointer = content.length) := by
  have size : (CacheEntry.codec.enc entry).length = 2620 := CacheEntry.codec.length_enc entry
  cases writes with
  | false =>
    cases seeks <;>
    · simp only [appendRecord, Bool.false_eq_true, if_false, holds, Option.some.injEq, false_and, iff_false]
      intro same
      have longer := congrArg List.length same
      rw [List.length_append] at longer
      omega
  | true =>
    cases seeks with
    | true =>
      rw [(appendRecord_works h disk entry).2, holds]
      simp [Disk.set_same]
    | false =>
      simp only [appendRecord, Bool.false_eq_true, if_false, if_true, FileHandle.write, holds, Option.getD_some,
        Disk.set_same, Option.some.injEq, true_and, false_or]
      constructor
      · intro same
        have longer := congrArg List.length same
        simp only [patch, List.length_append, List.length_take, List.length_replicate, List.length_drop] at longer
        omega
      · intro atEnd
        rw [atEnd, patch_end]

end Files

/-! ### All or nothing -/

section AddModelToCache
variable (c : CModelCache) (disk : Disk) (m : NewModel) (calls : AddCalls)

/-- A call that returns false leaves the table, the index file and the set of files as they were. One that
returns true puts an entry behind the table and behind the index, and its files hold the data. -/
structure AllOrNothing : Prop where
  nothing : (c.addModelToCache disk m calls).1 = false →
    (c.addModelToCache disk m calls).2.1.m_CacheTable = c.m_CacheTable ∧
    (∀ h ∈ c.m_hCacheFile, (c.addModelToCache disk m calls).2.2 h.path = disk h.path) ∧
    ∀ path, ((c.addModelToCache disk m calls).2.2 path).isSome = (disk path).isSome
  all : (c.addModelToCache disk m calls).1 = true → ∃ model ad thumb,
    (c.addModelToCache disk m calls).2.1.m_CacheTable = c.m_CacheTable ++ [newEntry m model ad thumb] ∧
    (∀ h ∈ c.m_hCacheFile, (c.addModelToCache disk m calls).2.2 h.path =
      some ((disk h.path).getD [] ++ CacheEntry.codec.enc (newEntry m model ad thumb))) ∧
    loadedOf (c.addModelToCache disk m calls).2.2 (newEntry m model ad thumb) =
      some ⟨blockBytes m.pModelFileData, some (blockBytes m.pAdFileData), some (blockBytes m.pThumbFileData)⟩

/-- The files are saved, and the record goes to the end of the index. -/
def Succeeds : Prop :=
  AddCalls.Files calls m ∧ calls.writes = true ∧
    (calls.seeks = true ∨ ∀ h ∈ c.m_hCacheFile, h.pointer = ((disk h.path).getD []).length)

end AddModelToCache

section Outcome
variable {c : CModelCache} {disk : Disk} {m : NewModel} {calls : AddCalls}

theorem addModelToCache_unfiled {disk' : Disk} (unfiled : c.fileModel disk m calls = (none, disk')) :
    c.addModelToCache disk m calls = (false, c, disk') := by
  rw [addModelToCache, unfiled]
  cases c.m_hCacheFile <;> rfl

theorem AllOrNothing.unchanged (same : c.fileModel disk m calls = (none, disk)) : AllOrNothing c disk m calls := by
  constructor
  · rw [addModelToCache_unfiled same]
    exact fun _ => ⟨rfl, fun _ _ => rfl, fun _ => rfl⟩
  · rw [addModelToCache_unfiled same]
    exact nofun

theorem Filed.loadedOf {disk' : Disk} {data : Block} {model ad thumb : Wide}
    (filed : Filed disk disk' m data model ad thumb) (given : m.pModelFileData = some data) :
    loadedOf disk' (newEntry m model ad thumb) =
      some ⟨blockBytes m.pModelFileData, some (blockBytes m.pAdFileData), some (blockBytes m.pThumbFileData)⟩ := by
  simp only [Cache.loadedOf, newEntry, wcs_wcscpy, filed.modelHolds, filed.adHolds, filed.thumbHolds, given,
    Option.map_some, blockBytes, Option.getD_some]

theorem appendRecord_other (h : FileHandle) (disk : Disk) (seeks writes : Bool) (entry : CacheEntry) {path : Path}
    (other : path ≠ h.path) : (appendRecord h disk seeks writes entry).2 path = disk path := by
  cases seeks <;> cases writes <;>
    simp [appendRecord, FileHandle.write, FileHandle.toEnd, Disk.set_other, other]

/-- A call whose first file is named is all or nothing exactly when nothing fails after that. -/
theorem allOrNothing_named (fresh : AddCalls.Fresh calls disk)
    (there : ∀ h ∈ c.m_hCacheFile, (disk h.path).isSome = true) {model : Wide} (accepted : ¬ Refused c m)
    (named : calls.modelName = some model) : AllOrNothing c disk m calls ↔ Succeeds c disk m calls := by
  obtain ⟨files, made⟩ := fileModel_named disk accepted named
  rcases fileModel_cases fresh (c := c) (m := m) with
    ⟨disk', result, -, -⟩ | ⟨data, szModel, szAd, szThumb, disk', isOpen, given, -, filed, result⟩
  · rw [result] at files made
    apply iff_of_false
    · intro h
      have kept := (h.nothing (by rw [addModelToCache_unfiled result])).2.2 model.chars
      rw [addModelToCache_unfiled result, made, fresh.model model named] at kept
      cases kept
    · intro succeeds
      cases files.mpr succeeds.1
  · obtain ⟨h, opened⟩ := Option.isSome_iff_exists.mp isOpen
    obtain ⟨content, found⟩ := Option.isSome_iff_exists.mp (there h opened)
    have holds := filed.keeps _ _ found
    have added : c.addModelToCache disk m calls = (true,
        { c with
          m_hCacheFile := some (appendRecord h disk' calls.seeks calls.writes (newEntry m szModel szAd szThumb)).1
          m_CacheTable := c.m_CacheTable ++ [newEntry m szModel szAd szThumb] },
        (appendRecord h disk' calls.seeks calls.writes (newEntry m szModel szAd szThumb)).2) := by
      rw [addModelToCache, result, opened]
    rw [result] at files
    constructor
    · intro whole
      obtain ⟨model', ad', thumb', table, index, -⟩ := whole.all (by rw [added])
      rw [added] at table index
      have same : newEntry m szModel szAd szThumb = newEntry m model' ad' thumb' := by simpa using table
      replace index := index h opened
      rw [← same, found, Option.getD_some, appendRecord_whole _ holds] at index
      refine ⟨files.mp rfl, index.1, index.2.imp_right fun atEnd h' opened' => ?_⟩
      obtain rfl : h = h' := Option.some.inj (opened.symm.trans opened')
      rw [found, atEnd, Option.getD_some]
    · rintro ⟨-, writes, atEnd⟩
      have index := (appendRecord_whole (newEntry m szModel szAd szThumb) holds).mpr
        ⟨writes, atEnd.imp_right fun atEnd => by rw [atEnd h opened, found, Option.getD_some]⟩
      constructor
      · rw [added]
        intro failed
        cases failed
      · intro _
        refine ⟨szModel, szAd, szThumb, ?_⟩
        rw [added]
        refine ⟨rfl, ?_, ?_⟩
        · intro h' opened'
          obtain rfl : h = h' := Option.some.inj (opened.symm.trans opened')
          rw [found, Option.getD_some]
          exact index
        · refine Eq.trans (loadedOf_congr fun path file => ?_) (filed.loadedOf given)
          apply appendRecord_other
          rw [filesOf_newEntry] at file
          rintro rfl
          have new : disk h.path = none := by
            simp only [List.mem_cons, List.not_mem_nil, or_false] at file
            rcases file with same | same | same
            · rw [same, filed.newModel]
            · rw [same, filed.newAd]
            · rw [same, filed.newThumb]
          rw [found] at new
          cases new

theorem addModelToCache_allOrNothing (fresh : AddCalls.Fresh calls disk)
    (there : ∀ h ∈ c.m_hCacheFile, (disk h.path).isSome = true) :
    AllOrNothing c disk m calls ↔ Refused c m ∨ calls.modelName = none ∨ Succeeds c disk m calls := by
  by_cases refused : Refused c m
  · exact iff_of_true (AllOrNothing.unchanged (fileModel_refused refused)) (Or.inl refused)
  · cases named : calls.modelName with
    | none => exact iff_of_true (AllOrNothing.unchanged (fileModel_unnamed named)) (Or.inr (Or.inl rfl))
    | some model =>
      rw [allOrNothing_named fresh there refused named]
      simp [refused]

end Outcome

/-! ### A model with an ad and a thumbnail -/

/-- A viewer that has just made its index file. -/
def indexMade : State := step [68] (.initializeCache initSample) (opened [68] fun _ => none)

def threeFiles : NewModel :=
  { plainModel (letter 65 A_ne_zero) with
    pAdFileData := some ⟨[1, 2], by decide⟩
    pThumbFileData := some ⟨[3], by decide⟩ }

theorem indexMade_there : ∀ h ∈ indexMade.cache.m_hCacheFile, (indexMade.disk h.path).isSome = true := by
  rintro h ⟨⟩
  rfl

theorem addSample_fresh : AddCalls.Fresh addSample indexMade.disk :=
  addNaming_fresh ⟨rfl, rfl, rfl⟩ (by decide)

theorem addModelToCache_all_works : AllOrNothing indexMade.cache indexMade.disk threeFiles addSample := by
  refine (addModelToCache_allOrNothing addSample_fresh indexMade_there).mpr (Or.inr (Or.inr ⟨?_, rfl, Or.inl rfl⟩))
  exact ⟨⟨rfl, rfl, rfl⟩, ⟨rfl, rfl⟩, fun _ => ⟨rfl, rfl⟩, fun _ => ⟨rfl, rfl⟩⟩

theorem threeFiles_accepted : ¬ Refused indexMade.cache threeFiles := by
  simp only [Refused, not_or]
  exact ⟨Option.some_ne_none _, Option.some_ne_none _, Bool.false_ne_true.symm, by decide⟩

/-- A second name that cannot be had leaves the first file behind, and a record that cannot be written is
missing in the index only. -/
theorem addModelToCache_half :
    ¬ AllOrNothing indexMade.cache indexMade.disk threeFiles { addSample with adName := none } ∧
    ¬ AllOrNothing indexMade.cache indexMade.disk threeFiles { addSample with writes := false } := by
  constructor
  · have fresh : AddCalls.Fresh { addSample with adName := none } indexMade.disk :=
      ⟨addSample_fresh.model, nofun, fun name named => ⟨(addSample_fresh.thumb name named).1,
        (addSample_fresh.thumb name named).2.1, nofun⟩⟩
    rw [allOrNothing_named fresh indexMade_there threeFiles_accepted rfl]
    intro succeeds
    cases succeeds.1.names.2.1
  · have fresh : AddCalls.Fresh { addSample with writes := false } indexMade.disk :=
      ⟨addSample_fresh.model, addSample_fresh.ad, addSample_fresh.thumb⟩
    rw [allOrNothing_named fresh indexMade_there threeFiles_accepted rfl]
    intro succeeds
    cases succeeds.2.1

end ModelPublish.Cache
