import ModelPublish.Server.Outcomes
import ModelPublish.Server.Stages

/-!
# From a subscription to a file

The look-ups of the downloads: which file or which ad they come to, and that this is all that a download does
before it opens a file.
-/

namespace ModelPublish.Server
open Machine Reply

section Lookups
variable (host : Host) (env : Env) (params : Params) (w : World host.mysql.collation)

def foundFile : Except Stop (Option FileAddress) :=
  if env.connects then do
    let rows ← checkedSubscription host env params .opened w
    if lastInt rows (·.modelId) = -1 then pure none
    else if env.fails 1 then .error .sqlException
    else match w.db.models.find? (lastInt rows (·.modelId)) with
      | none => pure none
      | some model =>
        if model.pcFileId.getD 0 = -1 then pure none
        else if env.fails 2 then .error .sqlException
        else pure (w.db.files.find? (model.pcFileId.getD 0))
  else .error .sqlException

def foundAd : Except Stop (Option Advertisement) :=
  if env.connects then do
    let rows ← checkedSubscription host env params .opened w
    if lastInt rows (·.adId) = -1 then pure none
    else if env.fails 1 then .error .sqlException
    else pure (w.db.ads.find? (lastInt rows (·.adId)))
  else .error .sqlException

/-- What a download ends with when it finds nothing to open. -/
def NotFound (r : Except Stop Reply × World host.mysql.collation) : Prop :=
  ∃ reply : Reply, reply.Refused ∧ reply.size = none ∧ r = (.ok reply, w)

/-- A download ends as its look-ups do, and goes on with a row that they find. -/
def ComesTo {β : Type} (go : β → Except Stop Reply × World host.mysql.collation) :
    Except Stop (Option β) → Except Stop Reply × World host.mysql.collation → Prop
  | .error e, r => r = (.error e, w)
  | .ok none, r => NotFound host w r
  | .ok (some row), r => r = go row

variable {host env params w} {send : CString → Env → Reply → Program Reply}

theorem mem_of_foundFile {file : FileAddress} (found : foundFile host env params w = .ok (some file)) :
    file ∈ w.db.files.rows := by
  rw [foundFile] at found
  split at found
  · cases checked : checkedSubscription host env params .opened w with
    | error e =>
      rw [checked] at found
      cases found
    | ok rows =>
      rw [checked, ok_bind] at found
      repeat' split at found
      all_goals first
        | cases found
        | exact (Table.mem_of_find? (Except.ok.inj found)).1
  · cases found

/-- A download of a model that opens its file with `send`. -/
def getFile (host : Host) (send : CString → Env → Reply → Program Reply) (env : Env) (params : Params)
    (reply : Reply) : Program Reply := do
  connect
  let (iModelId, reply) ← fetchSubscription host params (·.modelId) reply
  let (iFileId, reply) ← fetchModel iModelId reply
  fetchFile host send iFileId env reply

theorem notFound_outcome {message : String} {code : ErrorCode} {status : Status}
    (notOk : code ≠ .ok ∧ code ≠ .unknownClient) (failed : status ≠ .ok) :
    NotFound host w (.ok (Reply.initial.outcome message code status), w) :=
  ⟨_, refused_initial.outcome _ notOk failed, rfl, rfl⟩

theorem notFound_lookedUp {rows : List Subscription} {message : String} {code : ErrorCode} {status : Status}
    (notOk : code ≠ .ok ∧ code ≠ .unknownClient) (failed : status ≠ .ok) :
    NotFound host w (.ok (lookedUp rows message code status .initial), w) := by
  rw [lookedUp]
  split
  · exact notFound_outcome notOk failed
  · exact ⟨_, refused_initial, rfl, rfl⟩

theorem lookedUp_of_lastInt {rows : List Subscription} {column : Subscription → Option Int} {message : String}
    {code : ErrorCode} {status : Status} {reply : Reply} (found : lastInt rows column ≠ -1) :
    lookedUp rows message code status reply = reply := by
  rw [lookedUp, if_neg]
  intro empty
  rw [List.isEmpty_iff.mp empty] at found
  exact found rfl

theorem run_getFile : ComesTo host w
    (fun file => runOn host env (send (modelPath host file) env .initial) (statement 3) w)
    (foundFile host env params w) (runAlone host env (getFile host send env params .initial) w) := by
  have alone : runAlone host env (getFile host send env params .initial) w =
    runOn host env (getFile host send env params .initial) .opened w := rfl
  rw [alone, getFile, runOn_connect, foundFile]
  by_cases connects : env.connects = true
  swap
  · rw [if_neg connects, if_neg connects]
    rfl
  rw [if_pos connects, if_pos connects, runOn_fetchSubscription]
  cases checked : checkedSubscription host env params .opened w with
  | error e => rfl
  | ok rows =>
    rw [ok_bind]
    dsimp only
    rw [runOn_fetchModel, show Connection.opened.next.statements = 1 from rfl]
    by_cases skipped : lastInt rows (·.modelId) = -1
    · rw [if_pos skipped, if_pos skipped, runOn_fetchFile, if_pos rfl]
      exact notFound_lookedUp (by decide) (by decide)
    rw [if_neg skipped, if_neg skipped, lookedUp_of_lastInt skipped]
    by_cases fails : env.fails 1 = true
    · rw [if_pos fails, if_pos fails]
      rfl
    rw [if_neg fails, if_neg fails]
    cases w.db.models.find? (lastInt rows (·.modelId)) with
    | none =>
      dsimp only
      rw [runOn_fetchFile, if_pos rfl]
      exact notFound_outcome (by decide) (by decide)
    | some model =>
      dsimp only
      rw [runOn_fetchFile, show Connection.opened.next.next.statements = 2 from rfl]
      by_cases skipped : model.pcFileId.getD 0 = -1
      · rw [if_pos skipped, if_pos skipped]
        exact ⟨_, refused_initial, rfl, rfl⟩
      rw [if_neg skipped, if_neg skipped]
      by_cases fails : env.fails 2 = true
      · rw [if_pos fails, if_pos fails]
        rfl
      rw [if_neg fails, if_neg fails]
      cases w.db.files.find? (model.pcFileId.getD 0) with
      | none => exact notFound_outcome (by decide) (by decide)
      | some file => rfl

theorem run_onGetAd : ComesTo host w (fun ad => runOn host env (sendAd host (adPath host ad) env
      { Reply.initial with url := some (jsonString (host.page.widen (blobString ad.adUrl))) }) (statement 2) w)
    (foundAd host env params w) (runAlone host env (onGetAd host env params .initial) w) := by
  have alone : runAlone host env (onGetAd host env params .initial) w =
    runOn host env (onGetAd host env params .initial) .opened w := rfl
  rw [alone, onGetAd, runOn_connect, foundAd]
  by_cases connects : env.connects = true
  swap
  · rw [if_neg connects, if_neg connects]
    rfl
  rw [if_pos connects, if_pos connects, runOn_fetchSubscription]
  cases checked : checkedSubscription host env params .opened w with
  | error e => rfl
  | ok rows =>
    rw [ok_bind]
    dsimp only
    rw [runOn_fetchAd, show Connection.opened.next.statements = 1 from rfl]
    by_cases skipped : lastInt rows (·.adId) = -1
    · rw [if_pos skipped, if_pos skipped]
      exact notFound_lookedUp (by decide) (by decide)
    rw [if_neg skipped, if_neg skipped, lookedUp_of_lastInt skipped]
    by_cases fails : env.fails 1 = true
    · rw [if_pos fails, if_pos fails]
      rfl
    rw [if_neg fails, if_neg fails]
    cases w.db.ads.find? (lastInt rows (·.adId)) with
    | none => exact notFound_outcome (by decide) (by decide)
    | some ad => rfl

end Lookups
end ModelPublish.Server
