import ModelPublish.Cache.Unique

/-!
# An index file of any length

What a viewer finds of the entries that were added to an index file it did not write itself. `Initialize`
counts whole records from the start of the file, and a record is added at the end of it.
-/

namespace ModelPublish.Cache
open Packed CModelCache

/-- What is written for a model, from what is given to `AddModelToCache` and the names its files get. -/
def entryFor (a : NewModel × AddCalls) : Option CacheEntry := do
  pure (newEntry a.1 (← a.2.modelName) (← a.2.adName) (← a.2.thumbName))

def addedEntries (adds : List (NewModel × AddCalls)) : List CacheEntry := adds.filterMap entryFor

def addOp (a : NewModel × AddCalls) : Op := .addModel a.1 a.2

/-- The call returns true, and its record is written. -/
def Op.Adds (folder : Path) (op : Op) (st : State) : Prop :=
  (call folder op st).1 = true ∧ ∀ m calls, op = .addModel m calls →
    AddCalls.Fresh calls st.disk ∧ calls.seeks = true ∧ calls.writes = true

/-- The table ends with the entries, and each is the one a search for its id leads to, unless an older one has
that id. -/
structure Intact (added : List CacheEntry) (c : CModelCache) : Prop where
  last : added <:+ c.m_CacheTable
  found : ∀ older e newer id, c.m_CacheTable = older ++ e :: newer → newer.length < added.length →
    id.chars = idOf e → c.searchInCache id = some older.length ∨ ∃ d ∈ older, idOf d = idOf e

/-- The bytes of an index file that `Initialize` makes entries of. -/
def wholeRecords (content : List UInt8) : List UInt8 :=
  content.take (content.length % 2 ^ 32 / CacheEntry.codec.size * CacheEntry.codec.size)

/-- The file is made of whole records and its size is a `DWORD`. -/
def Aligned (content : List UInt8) (added : List CacheEntry) : Prop :=
  content.length % CacheEntry.codec.size = 0 ∧ (content ++ CacheEntry.codec.encMany added).length < 2 ^ 32

/-- The records that `Initialize` counts when so many have been added behind these bytes. -/
def counted (content : List UInt8) (added : Nat) : Nat :=
  (content.length + added * CacheEntry.codec.size) % 2 ^ 32 / CacheEntry.codec.size

/-- What lies in these bytes behind the records that are counted before the last so many. -/
def leftover (content : List UInt8) (added : Nat) : List UInt8 :=
  content.drop ((counted content added - added) * CacheEntry.codec.size)

/-- The added records are read too early, but moving them by the leftover bytes changes nothing. -/
def Coincides (content : List UInt8) (added : List CacheEntry) : Prop :=
  added.length ≤ counted content added.length ∧
    CacheEntry.codec.encMany added <+: leftover content added.length ++ CacheEntry.codec.encMany added

theorem codec_size_pos : 0 < CacheEntry.codec.size := by
  rw [CacheEntry.size]
  decide

/-- Below 2^32 bytes the leftover is what lies behind the last whole record. -/
theorem leftover_small {content : List UInt8} {added : Nat}
    (small : content.length + added * CacheEntry.codec.size < 2 ^ 32) :
    added ≤ counted content added ∧
      leftover content added = content.drop (content.length / CacheEntry.codec.size * CacheEntry.codec.size) := by
  have count : counted content added = content.length / CacheEntry.codec.size + added := by
    rw [counted, Nat.mod_eq_of_lt small, Nat.add_mul_div_right _ _ codec_size_pos]
  rw [leftover, count, Nat.add_sub_cancel]
  exact ⟨Nat.le_add_left _ _, rfl⟩

/-- The last records that `Initialize` makes entries of are those that were added. -/
theorem coincides_iff (content : List UInt8) (added : List CacheEntry) : Coincides content added ↔
    CacheEntry.codec.encMany added <:+ wholeRecords (content ++ CacheEntry.codec.encMany added) := by
  have length := Codec.length_encMany CacheEntry.codec added
  have count : (content ++ CacheEntry.codec.encMany added).length % 2 ^ 32 / CacheEntry.codec.size =
      counted content added.length := by
    rw [List.length_append, length, counted]
  have all : counted content added.length * CacheEntry.codec.size ≤
      content.length + added.length * CacheEntry.codec.size :=
    Nat.le_trans (Nat.div_mul_le_self _ _) (Nat.mod_le _ _)
  by_cases enough : added.length ≤ counted content added.length
  swap
  · refine iff_of_false (fun coincides => enough coincides.1) fun behind => enough ?_
    have shorter := behind.length_le
    rw [wholeRecords, count, length, List.length_take] at shorter
    exact Nat.le_of_mul_le_mul_right (Nat.le_trans shorter (Nat.min_le_left _ _)) codec_size_pos
  have split : counted content added.length * CacheEntry.codec.size =
      (counted content added.length - added.length) * CacheEntry.codec.size +
        added.length * CacheEntry.codec.size := by
    rw [← Nat.add_mul, Nat.sub_add_cancel enough]
  have inside : (counted content added.length - added.length) * CacheEntry.codec.size ≤ content.length := by omega
  have parts : wholeRecords (content ++ CacheEntry.codec.encMany added) =
      content.take ((counted content added.length - added.length) * CacheEntry.codec.size) ++
        (leftover content added.length ++ CacheEntry.codec.encMany added).take
          (added.length * CacheEntry.codec.size) := by
    rw [wholeRecords, count, split, List.take_add, List.take_append_of_le_length inside,
      List.drop_append_of_le_length inside, leftover]
  have room : ((leftover content added.length ++ CacheEntry.codec.encMany added).take
      (added.length * CacheEntry.codec.size)).length = (CacheEntry.codec.encMany added).length := by
    rw [List.length_take, List.length_append, length]
    omega
  rw [Coincides, parts, List.prefix_iff_eq_take, length]
  constructor
  · intro ⟨_, same⟩
    rw [← same]
    exact List.suffix_append _ _
  · intro ⟨before, same⟩
    exact ⟨enough, List.append_inj_right' same room.symm⟩

theorem Aligned.coincides {content : List UInt8} {added : List CacheEntry} (h : Aligned content added) :
    Coincides content added := by
  obtain ⟨whole, small⟩ := h
  rw [List.length_append, Codec.length_encMany] at small
  obtain ⟨enough, rest⟩ := leftover_small small
  refine ⟨enough, ?_⟩
  rw [rest, Nat.div_mul_cancel (Nat.dvd_of_mod_eq_zero whole), List.drop_length]
  exact List.prefix_rfl

/-- Below 2^32 bytes, what was left over is a cut copy of the first record that was added. -/
theorem Coincides.cut {content : List UInt8} {e : CacheEntry} {added : List CacheEntry}
    (h : Coincides content (e :: added))
    (small : content.length + (e :: added).length * CacheEntry.codec.size < 2 ^ 32) :
    content.drop (content.length / CacheEntry.codec.size * CacheEntry.codec.size) <+: CacheEntry.codec.enc e := by
  have moved := h.2
  rw [(leftover_small small).2, Codec.encMany_cons] at moved
  have shorter : (content.drop (content.length / CacheEntry.codec.size * CacheEntry.codec.size)).length ≤
      (CacheEntry.codec.enc e).length := by
    have rest := Nat.mod_lt content.length codec_size_pos
    rw [Nat.mod_eq_sub_div_mul] at rest
    rw [List.length_drop, Codec.length_enc]
    omega
  have front : content.drop (content.length / CacheEntry.codec.size * CacheEntry.codec.size) <+:
      CacheEntry.codec.enc e ++ CacheEntry.codec.encMany added :=
    List.prefix_of_prefix_length_le (List.prefix_append _ _) moved (by rw [List.length_append]; omega)
  exact List.prefix_of_prefix_length_le front (List.prefix_append _ _) shorter

section Runs
variable {appData folder : Path} {st : State}

theorem fileModel_entry {c : CModelCache} {disk disk' : Disk} {m : NewModel} {calls : AddCalls} {entry : CacheEntry}
    (made : c.fileModel disk m calls = (some entry, disk')) : entryFor (m, calls) = some entry := by
  obtain ⟨-, files⟩ := fileModel_made made
  obtain ⟨model, modelName⟩ := Option.isSome_iff_exists.mp files.names.1
  obtain ⟨ad, adName⟩ := Option.isSome_iff_exists.mp files.names.2.1
  obtain ⟨thumb, thumbName⟩ := Option.isSome_iff_exists.mp files.names.2.2
  have entry_eq : entry = newEntry m model ad thumb := by
    unfold fileModel at made
    simp only [getTempFileName, modelName, adName, thumbName, Option.map_some] at made
    split at made
    · cases made
    · cases made
    split at made
    · cases made
    split at made
    · cases made
    split at made
    · cases made
    split at made
    · cases made
    split at made
    · cases made
    · cases made
      rfl
  rw [entry_eq, entryFor]
  simp only [modelName, adName, thumbName]
  rfl

theorem addModel_appends {c : CModelCache} {disk : Disk} {a : NewModel × AddCalls} {h : FileHandle}
    {content : List UInt8} (opened : c.m_hCacheFile = some h) (holds : disk h.path = some content)
    (fresh : AddCalls.Fresh a.2 disk) (seeks : a.2.seeks = true) (writes : a.2.writes = true)
    (added : (c.addModelToCache disk a.1 a.2).1 = true) :
    ∃ e h', entryFor a = some e ∧ (c.addModelToCache disk a.1 a.2).2.1.m_hCacheFile = some h' ∧ h'.path = h.path ∧
      (c.addModelToCache disk a.1 a.2).2.2 h.path = some (content ++ CacheEntry.codec.enc e) := by
  obtain ⟨m, calls⟩ := a
  rcases fileModel_cases fresh (c := c) (m := m) with
    ⟨disk', result, -, -⟩ | ⟨data, model, ad, thumb, disk', -, -, -, filed, result⟩
  · rw [addModelToCache_unfiled result] at added
    cases added
  · have holds' := filed.keeps _ _ holds
    obtain ⟨path, written⟩ := appendRecord_works h disk' (newEntry m model ad thumb)
    refine ⟨newEntry m model ad thumb, _, fileModel_entry result, ?_, path, ?_⟩
    · rw [addModelToCache, result, opened]
      dsimp only
      rw [seeks, writes]
    · rw [addModelToCache, result, opened]
      dsimp only
      rw [seeks, writes, written, Disk.set_same, holds', Option.getD_some]

/-- The index file is open, and holds this. -/
def Holds (index : Path) (content : List UInt8) (st : State) : Prop :=
  (∃ h, st.cache.m_hCacheFile = some h ∧ h.path = index) ∧ st.disk index = some content

theorem adds_append {index : Path} (adds : List (NewModel × AddCalls)) :
    ∀ {content : List UInt8} {st : State}, Holds index content st →
      Machine.GoodRun (step folder) (Op.Adds folder) st (adds.map addOp) →
      Holds index (content ++ CacheEntry.codec.encMany (addedEntries adds))
        (Machine.run (step folder) st (adds.map addOp)) := by
  induction adds with
  | nil =>
    intro content st holds good
    simpa [addedEntries] using holds
  | cons a adds ih =>
    intro content st holds good
    obtain ⟨⟨h, opened, rfl⟩, there⟩ := holds
    obtain ⟨⟨result, works⟩, good⟩ := good
    obtain ⟨fresh, seeks, writes⟩ := works a.1 a.2 rfl
    obtain ⟨e, h', entry, opened', path, written⟩ := addModel_appends opened there fresh seeks writes result
    have kept := ih ⟨⟨h', opened', path⟩, written⟩ good
    rw [List.append_assoc, ← Codec.encMany_cons] at kept
    rw [addedEntries, List.filterMap_cons_some entry]
    exact kept

theorem initialize_holds {disk : Disk} {calls : InitCalls} (work : InitCalls.Work calls appData) :
    Holds (indexPath appData folder) ((disk (indexPath appData folder)).getD [])
      (step folder (.initializeCache calls) (opened folder disk)) := by
  have closed : (construct.setCacheFolder folder).m_hCacheFile = none := rfl
  have user : ∀ path ∈ calls.appData, path = appData := by
    intro path member
    rw [work.appData] at member
    exact (Option.some.inj member).symm
  have opens : ((construct.setCacheFolder folder).initializeCache disk calls).2.1.m_hCacheFile ≠ none :=
    initializeCache_opens work closed
  rcases initializeCache_cases disk user closed with ⟨full, disk', result, -⟩ | ⟨full, pointer, -, result⟩
  · rw [result] at opens
    exact absurd closed opens
  · rw [Holds, step, call, opened, result]
    exact ⟨⟨_, rfl, rfl⟩, indexed_same _ _⟩

theorem restart_reads {content : List UInt8} (holds : st.disk (indexPath appData folder) = some content)
    {calls : InitCalls} (work : InitCalls.Work calls appData) :
    CacheEntry.codec.encMany (step folder (.restart calls) st).cache.m_CacheTable = wholeRecords content ∧
      (step folder (.restart calls) st).cache.m_bEnableCacheRead = true ∧
      (step folder (.restart calls) st).cache.m_hCacheFile ≠ none := by
  have closed : (st.cache.cleanUp.setCacheFolder folder).m_hCacheFile = none := rfl
  have user : ∀ path ∈ calls.appData, path = appData := by
    intro path member
    rw [work.appData] at member
    exact (Option.some.inj member).symm
  have opens : ((st.cache.cleanUp.setCacheFolder folder).initializeCache st.disk calls).2.1.m_hCacheFile ≠ none :=
    initializeCache_opens work closed
  rcases initializeCache_cases st.disk user closed with ⟨full, disk', result, -⟩ | ⟨full, pointer, -, result⟩
  · rw [result] at opens
    exact absurd closed opens
  · have folder_eq : (st.cache.cleanUp.setCacheFolder folder).m_szCacheFolder = folder := rfl
    have empty : (st.cache.cleanUp.setCacheFolder folder).m_CacheTable = [] := rfl
    have inside : content.length % 2 ^ 32 / CacheEntry.codec.size * CacheEntry.codec.size ≤ content.length :=
      Nat.le_trans (Nat.div_mul_le_self _ _) (Nat.mod_le _ _)
    rw [step, call, result]
    refine ⟨?_, rfl, Option.some_ne_none _⟩
    dsimp only
    rw [folder_eq, holds, Option.getD_some, empty, work.reads, readTable_all, Codec.encMany_decMany _ _ _ inside]
    rfl

theorem search_first {c : CModelCache} {older newer : List CacheEntry} {e : CacheEntry} {id : Wide}
    (opened : c.m_hCacheFile ≠ none) (reads : c.m_bEnableCacheRead = true)
    (table : c.m_CacheTable = older ++ e :: newer) (named : id.chars = idOf e) :
    c.searchInCache id = some older.length ∨ ∃ d ∈ older, idOf d = idOf e := by
  obtain ⟨h, opened⟩ := Option.ne_none_iff_exists'.mp opened
  have here : decide (wcs e.szSibscriptionId = id.chars) = true := by
    rw [named]
    exact decide_eq_true rfl
  simp only [searchInCache, opened, reads, table, Option.isNone_some, Bool.false_eq_true, Bool.true_eq_false,
    if_false, List.findIdx?_append, List.findIdx?_cons, here, if_true, Option.map_some, Nat.zero_add]
  cases first : older.findIdx? fun d => decide (wcs d.szSibscriptionId = id.chars) with
  | none =>
    left
    rfl
  | some i =>
    right
    obtain ⟨inside, same, -⟩ := List.findIdx?_eq_some_iff_getElem.mp first
    exact ⟨older[i], List.getElem_mem inside, (of_decide_eq_true same).trans named⟩

/-- Entries that are added to an index file of any content are found by the next viewer exactly when the file was
made of whole records, or by chance. -/
theorem damaged_index_iff {disk : Disk} {first again : InitCalls} (begins : InitCalls.Work first appData)
    (adds : List (NewModel × AddCalls))
    (good : Machine.GoodRun (step folder) (Op.Adds folder) (step folder (.initializeCache first) (opened folder disk))
      (adds.map addOp)) (work : InitCalls.Work again appData) :
    Intact (addedEntries adds) (step folder (.restart again)
        (Machine.run (step folder) (step folder (.initializeCache first) (opened folder disk))
          (adds.map addOp))).cache ↔
      adds = [] ∨ Aligned ((disk (indexPath appData folder)).getD []) (addedEntries adds) ∨
        Coincides ((disk (indexPath appData folder)).getD []) (addedEntries adds) := by
  obtain ⟨-, holds⟩ := adds_append adds (initialize_holds begins) good
  obtain ⟨table, reads, opened⟩ := restart_reads holds work
  have meets : addedEntries adds <:+ (step folder (.restart again)
      (Machine.run (step folder) (step folder (.initializeCache first) (Cache.opened folder disk))
        (adds.map addOp))).cache.m_CacheTable ↔
      Coincides ((disk (indexPath appData folder)).getD []) (addedEntries adds) := by
    rw [← Codec.encMany_suffix CacheEntry.codec codec_size_pos, table, coincides_iff]
  constructor
  · intro intact
    exact Or.inr (Or.inr (meets.mp intact.last))
  · intro condition
    have last : Coincides ((disk (indexPath appData folder)).getD []) (addedEntries adds) := by
      rcases condition with rfl | aligned | coincides
      · exact ⟨Nat.zero_le _, List.nil_prefix⟩
      · exact aligned.coincides
      · exact coincides
    exact ⟨meets.mpr last, fun older e newer id parts _ named => search_first opened reads parts named⟩

end Runs

/-! ### A model behind a file of some bytes -/

def strayIndex (content : List UInt8) : Disk := Disk.set (fun _ => none) (indexPath [85] [68]) content

def addedOne : List (NewModel × AddCalls) := [(plainModel (letter 65 A_ne_zero), addSample)]

theorem initSample_works : InitCalls.Work initSample [85] := ⟨rfl, rfl, ⟨rfl, rfl⟩, rfl, rfl⟩

theorem addedOne_adds (content : List UInt8)
    (result : (call [68] (addOp (plainModel (letter 65 (by decide)), addSample))
      (step [68] (.initializeCache initSample) (opened [68] (strayIndex content)))).1 = true)
    (new : ∀ path, path ≠ indexPath [85] [68] →
      (step [68] (.initializeCache initSample) (opened [68] (strayIndex content))).disk path = none) :
    Machine.GoodRun (step [68]) (Op.Adds [68])
      (step [68] (.initializeCache initSample) (opened [68] (strayIndex content))) (addedOne.map addOp) := by
  refine ⟨⟨result, ?_⟩, trivial⟩
  rintro m calls ⟨⟩
  refine ⟨addNaming_fresh ⟨new _ ?_, new _ ?_, new _ ?_⟩ (by decide), rfl, rfl⟩ <;> decide

theorem strayIndex_new (content : List UInt8) {path : Path} (other : path ≠ indexPath [85] [68]) :
    (step [68] (.initializeCache initSample) (opened [68] (strayIndex content))).disk path = none := by
  have user : ∀ path ∈ initSample.appData, path = [85] := by
    rintro path ⟨⟩
    rfl
  have rest := (initializeCache_rest (construct.setCacheFolder [68]) (strayIndex content) user).1 path other
  exact rest.trans (Disk.set_other _ _ other)

theorem damaged_index_iff_whole :
    Intact (addedEntries addedOne) (step [68] (.restart initSample)
      (Machine.run (step [68]) (step [68] (.initializeCache initSample)
        (opened [68] (strayIndex (CacheEntry.codec.enc .zero)))) (addedOne.map addOp))).cache := by
  have added := addedOne_adds (CacheEntry.codec.enc .zero) (by decide +kernel)
    fun path other => strayIndex_new _ other
  refine (damaged_index_iff initSample_works addedOne added initSample_works).mpr (Or.inr (Or.inl ?_))
  exact ⟨by decide +kernel, by decide +kernel⟩

/-- Behind one stray byte, the model that was added is lost. -/
theorem stray_byte_loses :
    Machine.GoodRun (step [68]) (Op.Adds [68])
      (step [68] (.initializeCache initSample) (opened [68] (strayIndex [0]))) (addedOne.map addOp) ∧
    ¬ Intact (addedEntries addedOne) (step [68] (.restart initSample)
      (Machine.run (step [68]) (step [68] (.initializeCache initSample) (opened [68] (strayIndex [0])))
        (addedOne.map addOp))).cache := by
  refine ⟨addedOne_adds [0] (by decide +kernel) fun path other => strayIndex_new _ other, fun intact => ?_⟩
  have last := intact.last
  revert last
  decide +kernel

end ModelPublish.Cache
