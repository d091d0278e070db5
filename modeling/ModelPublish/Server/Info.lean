import ModelPublish.Machine.Run
import ModelPublish.Server.Files
import ModelPublish.Server.Lookups

/-!
# The header of a model

`OnGetInfo` beside `OnGetModel`. It opens the file under a name that no file has, so that it only finds a model
that has been saved as text before.
-/

namespace ModelPublish.Server
open Machine Reply

section Reach
variable {host : Host} {w : World host.mysql.collation}

/-- Before anything is published there is no file and no row of one. -/
structure Initial {c : Collation} (w : World c) : Prop where
  rows : w.db.files.rows = []
  files : ∀ path, w.files path = none

/-- The server comes to this by requests alone. -/
def Reachable (host : Host) (w : World host.mysql.collation) : Prop :=
  ∃ start turns, Initial start ∧ w = run (turn host) start turns

theorem Initial.ownFiles (h : Initial w) : OwnFiles host w := by
  refine ⟨fun row member => ?_, fun path found => ?_⟩
  · rw [h.rows] at member
    exact absurd member List.not_mem_nil
  · rw [h.files] at found
    cases found

theorem ownFiles_turn (t : Turn) (own : OwnFiles host w) : OwnFiles host (turn host t w) :=
  Prog.Within.run (I := fun s : Connection × World host.mysql.collation => OwnFiles host s.2) (fun _ _ => ownFiles_exec)
    (handle_within t.request t.method fun _ => covers_owns) own

theorem Reachable.ownFiles (h : Reachable host w) : OwnFiles host w := by
  obtain ⟨start, turns, initial, rfl⟩ := h
  exact run_invariant (fun t _ => ownFiles_turn t) initial.ownFiles turns

end Reach

section Info
variable {host : Host} {env : Env} {params : Params} {w : World host.mysql.collation}

def Succeeds {c : Collation} (r : Except Stop Reply × World c) : Prop :=
  ∃ reply, r.1 = .ok reply ∧ reply.errorCode = .ok

/-- The fields of a reply to `OnGetInfo`. -/
def infoAndSize {c : Collation} (r : Except Stop Reply × World c) : Except Stop (Option WString × Option Nat) :=
  r.1.map fun reply => (reply.info, reply.size)

/-- With this as the file that is saved for `path`, or with none. -/
def World.withSaved {c : Collation} (w : World c) (path : CString) (content : Option (List UInt8)) : World c :=
  { w with files := Function.update w.files (path ++ base64Suffix) content }

/-- The header is replied when the model is, it is the header of the file, and it does not depend on whether
the file has been saved as text. -/
structure InfoAgrees (host : Host) (env : Env) (params : Params) (w : World host.mysql.collation) : Prop where
  code : Succeeds (runAlone host env (onGetInfo host env params .initial) w) ↔
    Succeeds (runAlone host env (onGetModel host env params .initial) w)
  header : ∀ reply, (runAlone host env (onGetInfo host env params .initial) w).1 = .ok reply →
    reply.errorCode = .ok → ∃ file content info, foundFile host env params w = .ok (some file) ∧
      w.files (modelPath host file) = some content ∧ reply.info = some info ∧
      host.base64.decode (host.page.narrow 0 info) = content.take 64
  saved : ∀ file ∈ w.db.files.rows, ∀ content,
    infoAndSize (runAlone host env (onGetInfo host env params .initial)
      (w.withSaved (modelPath host file) (some content))) =
    infoAndSize (runAlone host env (onGetInfo host env params .initial) (w.withSaved (modelPath host file) none))

theorem succeeds_of_code {c : Collation} {r : Except Stop Reply × World c} (h : r.1.map Reply.errorCode = .ok .ok) :
    Succeeds r := by
  obtain ⟨_ | reply, w⟩ := r
  · cases h
  · exact ⟨reply, rfl, Except.ok.inj h⟩

theorem NotFound.not_succeeds {r : Except Stop Reply × World host.mysql.collation} (h : NotFound host w r) :
    ¬ Succeeds r := by
  obtain ⟨reply, refused, -, rfl⟩ := h
  rintro ⟨other, ⟨⟩, code⟩
  exact refused.code.1 code

theorem NotFound.infoAndSize {r : Except Stop Reply × World host.mysql.collation} (h : NotFound host w r) :
    infoAndSize r = .ok (none, none) := by
  obtain ⟨reply, refused, size, rfl⟩ := h
  rw [Server.infoAndSize, Except.map, refused.bare.info, size]

theorem run_getInfo_unsaved {file : FileAddress} (own : OwnFiles host w)
    (found : foundFile host env params w = .ok (some file))
    (unsaved : w.files (modelPath host file ++ base64Suffix) = none) :
    NotFound host w (runAlone host env (onGetInfo host env params .initial) w) := by
  have comes := @run_getFile host env params w (sendInfo host)
  rw [found] at comes
  have alone : runAlone host env (onGetInfo host env params .initial) w =
      runOn host env (sendInfo host (modelPath host file) env .initial) (statement 3) w := comes
  obtain ⟨uuid, named⟩ := own.rows file (mem_of_foundFile found)
  have absent : w.files (modelPath host file ++ modelFileExtension) = none := by
    rw [modelPath, named, blobString_eq ((plain_uuid uuid).append plain_modelFileExtension)]
    cases twice : w.files
        (fullFilePathName host modelFilePath (uuid.chars ++ modelFileExtension) ++ modelFileExtension) with
    | none => rfl
    | some content => exact absurd (own.files _ (by rw [twice]; rfl)) (not_ownPath_twice uuid)
  rw [alone, runOn_sendInfo, unsaved, absent]
  exact notFound_outcome (by decide) (by decide)

theorem run_getInfo_saved {file : FileAddress} {content : List UInt8} (short : content.length < 2 ^ 31)
    (found : foundFile host env params w = .ok (some file))
    (saved : w.files (modelPath host file ++ base64Suffix) = some content) :
    ∃ info, infoAndSize (runAlone host env (onGetInfo host env params .initial) w) =
      .ok (some info, some content.length) := by
  have comes := @run_getFile host env params w (sendInfo host)
  rw [found] at comes
  have alone : runAlone host env (onGetInfo host env params .initial) w =
      runOn host env (sendInfo host (modelPath host file) env .initial) (statement 3) w := comes
  rw [alone, runOn_sendInfo, saved]
  dsimp only
  rw [if_pos short]
  exact ⟨_, rfl⟩

theorem ownFiles_withSaved (own : OwnFiles host w) (path : CString) (content : Option (List UInt8)) :
    OwnFiles host (w.withSaved path content) := by
  refine ⟨own.rows, fun other found => ?_⟩
  by_cases same : other = path ++ base64Suffix
  · exact .inr (.inr ⟨path, same⟩)
  · rw [World.withSaved] at found
    dsimp only at found
    rw [Function.update_of_ne same] at found
    exact own.files other found

theorem infoAgrees_of_not_found (none_found : ∀ file, foundFile host env params w ≠ .ok (some file)) :
    InfoAgrees host env params w := by
  have info := fun w => @run_getFile host env params w (sendInfo host)
  have model := @run_getFile host env params w (sendModel host)
  have same : ∀ path content, foundFile host env params (w.withSaved path content) = foundFile host env params w :=
    fun path content => rfl
  cases found : foundFile host env params w with
  | error e =>
    have stops : ∀ w, foundFile host env params w = .error e →
        runAlone host env (onGetInfo host env params .initial) w = (.error e, w) := by
      intro w found
      have comes := info w
      rw [found] at comes
      exact comes
    rw [found] at model
    have stops' : runAlone host env (onGetModel host env params .initial) w = (.error e, w) := model
    refine ⟨?_, ?_, ?_⟩
    · rw [stops w found, stops']
    · intro reply returned
      rw [stops w found] at returned
      cases returned
    · intro file member content
      rw [stops _ ((same _ _).trans found), stops _ ((same _ _).trans found)]
      rfl
  | ok row =>
    cases row with
    | some file => exact absurd found (none_found file)
    | none =>
      have ends : ∀ w, foundFile host env params w = .ok none →
          NotFound host w (runAlone host env (onGetInfo host env params .initial) w) := by
        intro w found
        have comes := info w
        rw [found] at comes
        exact comes
      rw [found] at model
      have ends' : NotFound host w (runAlone host env (onGetModel host env params .initial) w) := model
      refine ⟨iff_of_false (ends w found).not_succeeds ends'.not_succeeds, ?_, ?_⟩
      · intro reply returned code
        exact absurd ⟨reply, returned, code⟩ (ends w found).not_succeeds
      · intro file member content
        rw [(ends _ ((same _ _).trans found)).infoAndSize, (ends _ ((same _ _).trans found)).infoAndSize]

/-- In every state that the server comes to, the header agrees with the model if and only if the subscription
leads to no file. -/
theorem info_agrees_iff (reachable : Reachable host w) :
    InfoAgrees host env params w ↔ ∀ file, foundFile host env params w ≠ .ok (some file) := by
  refine ⟨fun agrees file found => ?_, infoAgrees_of_not_found⟩
  have alike := agrees.saved file (mem_of_foundFile found) []
  have unsaved : NotFound host (w.withSaved (modelPath host file) none) (runAlone host env
      (onGetInfo host env params .initial) (w.withSaved (modelPath host file) none)) :=
    run_getInfo_unsaved (ownFiles_withSaved reachable.ownFiles _ _) found (Function.update_self _ _ _)
  have empty : ([] : List UInt8).length < 2 ^ 31 := by decide
  obtain ⟨info, saved⟩ := run_getInfo_saved (w := w.withSaved (modelPath host file) (some [])) empty found
    (Function.update_self _ _ _)
  rw [saved, unsaved.infoAndSize] at alike
  cases alike

end Info

/-! ### A header before the model -/

def afterPublishing : World Small.host.mysql.collation := run (turn Small.host) Small.world Small.publish

theorem reachable_afterPublishing : Reachable Small.host afterPublishing :=
  ⟨Small.world, Small.publish, ⟨rfl, fun _ => rfl⟩, rfl⟩

theorem asked_afterPublishing :
    foundFile Small.host Small.env [Small.field "subsid" "x"] afterPublishing = .ok none ∧
    ((runAlone Small.host Small.env (onGetModel Small.host Small.env [Small.field "subsid" "ABCDEFGH"] .initial)
      afterPublishing).1.map Reply.errorCode) = .ok .ok ∧
    ((runAlone Small.host Small.env (onGetInfo Small.host Small.env [Small.field "subsid" "ABCDEFGH"] .initial)
      afterPublishing).1.map Reply.errorCode) = .ok .couldNotOpenFile := by decide +kernel

theorem header_agrees_unknown : InfoAgrees Small.host Small.env [Small.field "subsid" "x"] afterPublishing := by
  apply (info_agrees_iff reachable_afterPublishing).mpr
  intro file found
  rw [asked_afterPublishing.1] at found
  cases found

/-- The model is there, but its header is refused. -/
theorem header_refused : Reachable Small.host afterPublishing ∧
    ¬ InfoAgrees Small.host Small.env [Small.field "subsid" "ABCDEFGH"] afterPublishing := by
  obtain ⟨-, model, info⟩ := asked_afterPublishing
  refine ⟨reachable_afterPublishing, fun agrees => ?_⟩
  obtain ⟨reply, returned, code⟩ := agrees.code.mpr (succeeds_of_code model)
  rw [returned, Except.map, code] at info
  cases info

end ModelPublish.Server
