import ModelPublish.Cache.Index

/-!
# Two viewers on one cache

Both have `cache.dat` open, each with a file pointer of its own. `Initialize` and `AddModelToCache` are
cut at their calls on that file, and the calls of the two come in any order.
-/

namespace ModelPublish.Cache
open Packed CModelCache

/-- Where a viewer stands in the function it runs. -/
inductive Phase where
  | opened
  | sized (dwSize : Nat)
  | idle
  | adding (entry : CacheEntry)
  | sought (entry : CacheEntry)
  deriving DecidableEq

structure Viewer where
  cache : CModelCache
  phase : Phase

inductive FileStep where
  | getFileSize
  | readFile (ok : Bool)
  | fileModel (m : NewModel) (calls : AddCalls)
  | setFilePointer (ok : Bool)
  | writeFile (ok : Bool)

namespace Viewer

def indexFile (v : Viewer) (disk : Disk) : List UInt8 :=
  ((v.cache.m_hCacheFile.bind fun h => disk h.path).getD [])

def getFileSize (v : Viewer) (disk : Disk) : Viewer :=
  match v.phase with
  | .opened => { v with phase := .sized ((v.indexFile disk).length % 2 ^ 32) }
  | _ => v

def readFile (v : Viewer) (disk : Disk) (ok : Bool) : Viewer :=
  match v.phase with
  | .sized dwSize =>
    let iBytes := dwSize / CacheEntry.codec.size * CacheEntry.codec.size
    ⟨{ v.cache with
        m_hCacheFile := v.cache.m_hCacheFile.map fun h => { h with pointer := h.pointer + iBytes }
        m_CacheTable := readTable dwSize (v.indexFile disk) ok v.cache.m_CacheTable }, .idle⟩
  | _ => v

def fileModel (v : Viewer) (disk : Disk) (m : NewModel) (calls : AddCalls) : Viewer × Disk :=
  match v.phase with
  | .idle =>
    match v.cache.fileModel disk m calls with
    | (none, disk) => (v, disk)
    | (some entry, disk) =>
      (⟨{ v.cache with m_CacheTable := v.cache.m_CacheTable ++ [entry] }, .adding entry⟩, disk)
  | _ => (v, disk)

def setFilePointer (v : Viewer) (disk : Disk) (ok : Bool) : Viewer :=
  match v.phase with
  | .adding entry =>
    ⟨{ v.cache with
        m_hCacheFile := v.cache.m_hCacheFile.map fun h => if ok then h.toEnd disk else h }, .sought entry⟩
  | _ => v

def writeFile (v : Viewer) (disk : Disk) (ok : Bool) : Viewer × Disk × List CacheEntry :=
  match v.phase, v.cache.m_hCacheFile with
  | .sought entry, some h =>
    let (h, disk) := if ok then h.write disk (CacheEntry.codec.enc entry) else (h, disk)
    (⟨{ v.cache with m_hCacheFile := some h }, .idle⟩, disk, [entry])
  | _, _ => (v, disk, [])

/-- One call of a viewer, with the entries of the calls to `AddModelToCache` that return true by it. A
call that is not the next one does nothing. -/
def move (v : Viewer) (disk : Disk) : FileStep → Viewer × Disk × List CacheEntry
  | .getFileSize => (v.getFileSize disk, disk, [])
  | .readFile ok => (v.readFile disk ok, disk, [])
  | .fileModel m calls => ((v.fileModel disk m calls).1, (v.fileModel disk m calls).2, [])
  | .setFilePointer ok => (v.setFilePointer disk ok, disk, [])
  | .writeFile ok => v.writeFile disk ok

end Viewer

structure Shared where
  disk : Disk
  viewer : Bool → Viewer
  added : List CacheEntry

def Shared.step (i : Bool × FileStep) (s : Shared) : Shared :=
  let (v, disk, added) := (s.viewer i.1).move s.disk i.2
  ⟨disk, Function.update s.viewer i.1 v, s.added ++ added⟩

def Shared.opened (appData folder : Path) (disk : Disk) : Shared where
  disk := disk
  viewer _ := ⟨{ construct.setCacheFolder folder with
    m_szCacheFullPath := appData ++ 92 :: folder
    m_hCacheFile := some ⟨indexPath appData folder, 0⟩ }, .opened⟩
  added := []

/-! ### One viewer alone -/

/-- Without the other, the calls of a viewer are `AddModelToCache`. -/
theorem move_addModelToCache {c : CModelCache} {disk : Disk} {m : NewModel} {calls : AddCalls}
    {handle : FileHandle} (opened : c.m_hCacheFile = some handle) :
    let first := Viewer.move ⟨c, .idle⟩ disk (.fileModel m calls)
    let second := first.1.move first.2.1 (.setFilePointer calls.seeks)
    let third := second.1.move second.2.1 (.writeFile calls.writes)
    c.addModelToCache disk m calls = (!third.2.2.isEmpty, third.1.cache, third.2.1) := by
  simp only [Viewer.move, Viewer.fileModel]
  cases filed : c.fileModel disk m calls with
  | mk entry disk' =>
    cases entry with
    | none => simp [addModelToCache, filed, opened, Viewer.setFilePointer, Viewer.writeFile]
    | some entry =>
      cases seeks : calls.seeks <;> cases writes : calls.writes <;>
        simp [addModelToCache, filed, opened, appendRecord, seeks, writes, Viewer.setFilePointer,
          Viewer.writeFile]

/-- And the two calls after the index is open are the rest of `Initialize`. -/
theorem move_initializeCache {appData folder : Path} {disk : Disk} {calls : InitCalls}
    (user : calls.appData = some appData) (there : (disk (indexPath appData folder)).isSome = true)
    (opens : calls.opens = true) :
    let start := (Shared.opened appData folder disk).viewer true
    let first := start.move disk .getFileSize
    let second := first.1.move first.2.1 (.readFile calls.reads)
    (construct.setCacheFolder folder).initializeCache disk calls = (true, second.1.cache, second.2.1) := by
  have index : appData ++ 92 :: folder ++ indexName = indexPath appData folder := rfl
  have found : openIndex disk calls (indexPath appData folder) = (some ⟨indexPath appData folder, 0⟩, disk) := by
    rw [openIndex, opens, there]
    rfl
  simp [initializeCache, construct, setCacheFolder, user, index, found, Viewer.move, Shared.opened,
    Viewer.indexFile, Viewer.getFileSize, Viewer.readFile]

/-! ### Both -/

/-- What a viewer that comes later finds in the index. -/
def Complete (appData folder : Path) (initial : List CacheEntry) (s : Shared) : Prop :=
  ∀ calls, InitCalls.Work calls appData → ((s.disk (indexPath appData folder)).getD []).length < 2 ^ 32 →
    ∀ e, e ∈ ((construct.setCacheFolder folder).initializeCache s.disk calls).2.1.m_CacheTable ↔
      e ∈ initial ∨ e ∈ s.added

structure Together (index : Path) (initial : List CacheEntry) (s : Shared) : Prop where
  holds : s.disk index = some (CacheEntry.codec.encMany (initial ++ s.added))
  handles : ∀ p, ∃ h, (s.viewer p).cache.m_hCacheFile = some h ∧ h.path = index

/-- Temporary names are new, and a record is written where the index file ends. -/
def AtEnd (index : Path) (i : Bool × FileStep) (s : Shared) : Prop :=
  match i with
  | (_, .fileModel _ calls) => AddCalls.Fresh calls s.disk
  | (p, .writeFile ok) => ∀ entry h, (s.viewer p).phase = .sought entry →
    (s.viewer p).cache.m_hCacheFile = some h → ok = true ∧ some h.pointer = (s.disk index).map List.length
  | _ => True

theorem move_appends {v : Viewer} {disk : Disk} {i : FileStep} {index : Path} {content : List UInt8}
    {h : FileHandle} (opened : v.cache.m_hCacheFile = some h) (path : h.path = index)
    (found : disk index = some content)
    (fresh : ∀ m calls, i = .fileModel m calls → AddCalls.Fresh calls disk)
    (atEnd : ∀ ok entry, i = .writeFile ok → v.phase = .sought entry →
      ok = true ∧ h.pointer = content.length) :
    (∃ h', (v.move disk i).1.cache.m_hCacheFile = some h' ∧ h'.path = index) ∧
      (v.move disk i).2.1 index = some (content ++ CacheEntry.codec.encMany (v.move disk i).2.2) := by
  have same : (∃ h', v.cache.m_hCacheFile = some h' ∧ h'.path = index) ∧
      disk index = some (content ++ CacheEntry.codec.encMany []) := by
    rw [Codec.encMany_nil, List.append_nil]
    exact ⟨⟨h, opened, path⟩, found⟩
  cases i with
  | getFileSize =>
    unfold Viewer.move Viewer.getFileSize
    cases v.phase <;> exact same
  | readFile ok =>
    unfold Viewer.move Viewer.readFile
    cases v.phase with
    | sized dwSize =>
      refine ⟨⟨⟨h.path, h.pointer + dwSize / CacheEntry.codec.size * CacheEntry.codec.size⟩, ?_, path⟩,
        same.2⟩
      rw [opened]
      rfl
    | _ => exact same
  | fileModel m calls =>
    unfold Viewer.move Viewer.fileModel
    cases v.phase with
    | idle =>
      rcases fileModel_cases (fresh m calls rfl) (c := v.cache) (m := m) with
        ⟨disk', result, -, keeps⟩ | ⟨data, model, ad, thumb, disk', -, -, -, filed, result⟩
      · simp only [result]
        exact ⟨same.1, keeps _ _ same.2⟩
      · simp only [result]
        exact ⟨same.1, filed.keeps _ _ same.2⟩
    | _ => exact same
  | setFilePointer ok =>
    unfold Viewer.move Viewer.setFilePointer
    cases v.phase with
    | adding entry =>
      refine ⟨⟨if ok then h.toEnd disk else h, ?_, ?_⟩, same.2⟩
      · rw [opened]
        rfl
      · cases ok <;> exact path
    | _ => exact same
  | writeFile ok =>
    unfold Viewer.move Viewer.writeFile
    cases phase : v.phase with
    | sought entry =>
      obtain ⟨rfl, pointer⟩ := atEnd ok entry rfl phase
      simp only [opened, if_true, FileHandle.write, path, found, Option.getD_some, pointer, patch_end,
        Disk.set_same, Codec.encMany_cons, Codec.encMany_nil, List.append_nil]
      exact ⟨⟨_, rfl, rfl⟩, trivial⟩
    | _ => exact same

theorem Together.step {index : Path} {initial : List CacheEntry} {s : Shared}
    (h : Together index initial s) {i : Bool × FileStep} (atEnd : AtEnd index i s) :
    Together index initial (s.step i) := by
  obtain ⟨p, call⟩ := i
  obtain ⟨handle, opened, path⟩ := h.handles p
  have fresh : ∀ m calls, call = .fileModel m calls → AddCalls.Fresh calls s.disk := by
    rintro m calls rfl
    exact atEnd
  have ends : ∀ ok entry, call = .writeFile ok → (s.viewer p).phase = .sought entry →
      ok = true ∧ handle.pointer = (CacheEntry.codec.encMany (initial ++ s.added)).length := by
    rintro ok entry rfl phase
    obtain ⟨works, pointer⟩ := atEnd entry handle phase opened
    rw [h.holds] at pointer
    exact ⟨works, Option.some.inj pointer⟩
  obtain ⟨own, grown⟩ := move_appends opened path h.holds fresh ends
  constructor
  · rw [← Codec.encMany_append, List.append_assoc] at grown
    exact grown
  · intro q
    show ∃ h, (Function.update s.viewer p _ q).cache.m_hCacheFile = some h ∧ h.path = index
    by_cases same : q = p
    · rw [same, Function.update_self]
      exact own
    · rw [Function.update_of_ne same]
      exact h.handles q

/-- Whatever the order, no record is lost as long as each is written at the end of the file. -/
theorem no_entry_lost {appData folder : Path} {disk : Disk} {initial : List CacheEntry}
    (holds : disk (indexPath appData folder) = some (CacheEntry.codec.encMany initial))
    (schedule : List (Bool × FileStep))
    (good : Machine.GoodRun Shared.step (AtEnd (indexPath appData folder)) (.opened appData folder disk)
      schedule) :
    Complete appData folder initial (Machine.run Shared.step (.opened appData folder disk) schedule) := by
  have start : Together (indexPath appData folder) initial (.opened appData folder disk) := by
    constructor
    · rw [Shared.opened, List.append_nil]
      exact holds
    · intro p
      exact ⟨_, rfl, rfl⟩
  have together := good.invariant (fun _ _ atEnd h => Together.step h atEnd) start
  intro calls work small e
  rw [freshTable_eq work folder small, together.holds, Option.getD_some, records_encMany,
    List.mem_append]

/-- Calls that all succeed, with temporary names that are new. -/
def FileStep.Fair (disk : Disk) : FileStep → Prop
  | .getFileSize => True
  | .readFile ok => ok = true
  | .fileModel _ calls => AddCalls.Fresh calls disk
  | .setFilePointer ok => ok = true
  | .writeFile ok => ok = true

def emptyIndex : Disk := Disk.set (fun _ => none) (indexPath [85] [68]) []

/-- Both viewers read the index and save the files of a model each, and then go on as `rest` says. -/
def bothAdd (rest : List (Bool × FileStep)) : List (Bool × FileStep) :=
  [(true, .getFileSize), (true, .readFile true), (false, .getFileSize), (false, .readFile true),
    (true, .fileModel (plainModel (letter 65 A_ne_zero)) addSample),
    (false, .fileModel (plainModel (letter 97 (by decide))) addOther)] ++ rest

theorem no_entry_lost_inTurn :
    Complete [85] [68] [] (Machine.run Shared.step (.opened [85] [68] emptyIndex)
      (bothAdd [(true, .setFilePointer true), (true, .writeFile true),
        (false, .setFilePointer true), (false, .writeFile true)])) := by
  apply no_entry_lost (Disk.set_same _ _ _) _
  refine ⟨trivial, trivial, trivial, trivial, addNaming_fresh ⟨rfl, rfl, rfl⟩ (by decide),
    addNaming_fresh ⟨rfl, rfl, rfl⟩ (by decide), trivial, ?_, trivial, ?_, trivial⟩
  · rintro entry h ⟨⟩ ⟨⟩
    exact ⟨rfl, by decide +kernel⟩
  · rintro entry h ⟨⟩ ⟨⟩
    exact ⟨rfl, by decide +kernel⟩

/-- Two viewers that both seek before either writes lose a record. -/
theorem entry_lost :
    let schedule := bothAdd [(true, .setFilePointer true), (false, .setFilePointer true),
      (true, .writeFile true), (false, .writeFile true)]
    let s := Machine.run Shared.step (.opened [85] [68] emptyIndex) schedule
    Machine.GoodRun Shared.step (fun i s => i.2.Fair s.disk) (.opened [85] [68] emptyIndex) schedule ∧
      (∀ p, (s.viewer p).phase = .idle) ∧ ¬ Complete [85] [68] [] s := by
  refine ⟨?_, by decide +kernel, fun complete => ?_⟩
  · exact ⟨trivial, rfl, trivial, rfl, addNaming_fresh ⟨rfl, rfl, rfl⟩ (by decide),
      addNaming_fresh ⟨rfl, rfl, rfl⟩ (by decide), rfl, rfl, rfl, rfl, trivial⟩
  · have found := complete initSample ⟨rfl, rfl, ⟨rfl, rfl⟩, rfl, rfl⟩ (by decide +kernel)
      (newEntry (plainModel (letter 65 A_ne_zero)) (letter 1 (by decide)) (letter 2 (by decide))
        (letter 3 (by decide)))
    revert found
    decide +kernel

end ModelPublish.Cache
