import ModelPublish.Machine.Interleaving
import ModelPublish.Server.Subscriptions

/-!
# Two subscriptions at once

Two requests for new subscriptions, each on a connection of its own, take turns call by call. Between the check
that a hash is free and the `INSERT` of a row with it, the other request may insert the same hash.
-/

namespace ModelPublish.Server
open Machine Reply

section Requests
variable {host : Host} {env : Env} {params : Params} {f : SubscriptionFields} {iOwnerId : Int}

/-- The tables that the look-ups of the two requests read are as at the start. -/
def SameLookups (w t : World host.mysql.collation) : Prop :=
  t.db.owners = w.db.owners ∧ t.db.models = w.db.models ∧ t.db.ads = w.db.ads

/-- A request with a valid user, owner, model and ad. -/
structure Granted (host : Host) (env : Env) (params : Params) (w : World host.mysql.collation)
    (f : SubscriptionFields) (iOwnerId : Int) : Prop where
  works : env.Works
  typed : WellTyped params f
  texts : ∃ user pass owner : CString, fieldText host params "user" = .ok user ∧
    fieldText host params "pass" = .ok pass ∧ fieldText host params "owner" = .ok owner ∧
    (Sql.Whole user ∧ Sql.Whole pass ∧ Sql.Whole owner) ∧
    lastInt ((Query.user user pass).result w.db 0) (fun row => some row.id) ≠ -1 ∧
    lastInt ((Query.owner owner).result w.db 0) (fun row => some row.id) = iOwnerId
  owner : iOwnerId ≠ -1
  model : (w.db.models.find? f.modelId).isSome
  ad : (w.db.ads.find? f.adId).isSome

variable {w : World host.mysql.collation} {α : Type} {con last : Connection} {n : Nat} {q : Program α}

theorem bind_field {key : String} {p : CString} (text : fieldText host params key = .ok p) (k : CString → Program α) :
    (stringAt params key >>= fun s => buffer host s >>= k) = k p := by
  unfold fieldText at text
  unfold stringAt
  cases found : params.lookup (wide key) with
  | none =>
    rw [found] at text
    cases text
  | some value =>
    rw [found] at text
    cases value with
    | string s =>
      dsimp only at text ⊢
      rw [Prog.pure_bind, buffer]
      by_cases full : (host.page.narrowInto 0 256 s).length = 256
      · rw [if_pos full] at text
        cases text
      · rw [if_neg full] at text ⊢
        cases text
        rfl
    | _ => cases text

theorem bind_number {key : String} {m : Int} (number : fieldNumber params key = .ok m) (k : Int → Program α) :
    (integerAt params key >>= k) = k m := by
  unfold fieldNumber at number
  unfold integerAt
  cases found : params.lookup (wide key) with
  | none =>
    rw [found] at number
    cases number
  | some value =>
    rw [found] at number
    cases value with
    | number value =>
      cases number
      rfl
    | _ => cases number

theorem exec_query {p : Query} {t : World host.mysql.collation} (works : env.Works)
    (whole : ∀ s ∈ p.template.strings, Sql.Whole s) : exec host env (.executeQuery p) (con, t) =
      (.ok (p.result t.db con.lastInsertId), con.next, t) := by
  rw [exec, works.fails, MySQL.executeQuery, if_pos ((Sql.Template.intact_iff (query_clean p)).mpr whole)]
  rfl

theorem leads_query {p : Query} {r : p.Result} {k : p.Result → Program α} (works : env.Works)
    (whole : ∀ s ∈ p.template.strings, Sql.Whole s)
    (answers : ∀ t, SameLookups w t → p.result t.db con.lastInsertId = r)
    (rest : Leads (exec host env) (SameLookups w) q last (k r) con.next n) :
    Leads (exec host env) (SameLookups w) q last (executeQuery p >>= k) con (n + 1) := by
  refine Leads.ask ?_ rest
  intro t same
  rw [exec_query works whole, answers t same]

theorem exec_insert {t : World host.mysql.collation} {after : Database host.mysql.collation}
    {ownerId modelId adId : Int} {seed k : Nat} (works : env.Works)
    (inserted : t.db.insertSubscription ownerId modelId adId (candidate host seed k) = some after) :
    exec host env (.executeUpdate (.subscription ownerId modelId adId (candidate host seed k))) (con, t) =
      (.ok 1, ⟨con.statements + 1, t.db.subscriptions.next⟩, { t with db := after }) := by
  rw [exec, works.fails, MySQL.executeUpdate,
    if_pos ((Sql.Template.intact_iff (update_clean _)).mpr whole_subscription), Update.change, inserted]
  rfl

theorem exists_of_lastInt {rows : List OwnerDesc} {m : Int} (h : lastInt rows (fun row => some row.id) = m)
    (some_row : m ≠ -1) : ∃ row ∈ rows, row.id = m := by
  rcases List.eq_nil_or_concat rows with rfl | ⟨front, row, rfl⟩
  · exact absurd h.symm some_row
  · rw [List.concat_eq_append, lastInt, List.foldl_append] at h
    exact ⟨row, by simp, h⟩

theorem Granted.takes {t : World host.mysql.collation} {hash : CString} (granted : Granted host env params w f iOwnerId)
    (same : SameLookups w t) (fits : host.mysql.collation.fits 32 hash = true)
    (room : ¬ Database.Full t.db.subscriptions)
    (fresh : ∀ row ∈ t.db.subscriptions.rows, host.mysql.collation.hashed hash row = false) :
    t.db.Takes iOwnerId f.modelId f.adId hash := by
  obtain ⟨-, -, owner, -, -, -, -, -, named⟩ := granted.texts
  obtain ⟨row, member, rfl⟩ := exists_of_lastInt named granted.owner
  refine ⟨room, fits, ⟨known_some.mpr ?_, known_some.mpr ?_, known_some.mpr ?_⟩, fresh⟩
  · rw [same.1]
    exact Table.isSome_of_mem (List.mem_of_mem_filter member)
  · rw [same.2.1]
    exact granted.model
  · rw [same.2.2]
    exact granted.ad

/-- What a request goes on with after it has chosen its hash. -/
def insertHash (host : Host) (f : SubscriptionFields) (iOwnerId : Int) (reply : Reply) (szHash : CString) :
    Program Reply :=
  insertLast (.subscription iOwnerId f.modelId f.adId szHash)
    (fun _ reply => { reply with subscriptionId := some (jsonString (host.page.widen szHash)) }) reply

/-- Up to the choice of the hash a request goes its way alone. -/
theorem leads_onCreateSubscription (granted : Granted host env params w f iOwnerId) : ∃ reply con,
    Leads (exec host env) (SameLookups w)
      (chooseHash host env.tickCount env.attempts 0 >>= insertHash host f iOwnerId reply) con
      (onCreateSubscription host env params .initial) .opened 5 := by
  obtain ⟨works, typed, ⟨user, pass, owner, userText, passText, ownerText, ⟨userWhole, passWhole, ownerWhole⟩,
    userKnown, ownerNamed⟩, known, model, ad⟩ := granted
  obtain ⟨modelRow, modelFound⟩ := Option.isSome_iff_exists.mp model
  obtain ⟨adRow, adFound⟩ := Option.isSome_iff_exists.mp ad
  refine ⟨?_, ?_, ?_⟩
  rotate_left 2
  rw [onCreateSubscription]
  refine Leads.ask (r := ()) (fun t same => by rw [exec, works.connects]; rfl) ?_
  rw [fetchUser]
  simp only [Prog.bind_assoc]
  rw [bind_field userText, bind_field passText]
  refine leads_query (r := (Query.user user pass).result w.db 0) works
    (List.forall_mem_cons.mpr ⟨userWhole, List.forall_mem_singleton.mpr passWhole⟩) ?_ ?_
  · intro t same
    rw [Query.result, same.1]
    rfl
  rw [Prog.pure_bind]
  dsimp only
  rw [fetchOwner, if_pos userKnown]
  simp only [Prog.bind_assoc]
  rw [bind_field ownerText]
  refine leads_query (r := (Query.owner owner).result w.db 0) works (List.forall_mem_singleton.mpr ownerWhole) ?_ ?_
  · intro t same
    rw [Query.result, same.1]
    rfl
  rw [Prog.pure_bind, ownerNamed]
  dsimp only
  rw [bind_number (number_of_wellTyped typed.modelId typed.modelInt), modelExists, if_pos known]
  simp only [Prog.bind_assoc]
  refine leads_query (p := .modelDescQuoted f.modelId) (r := some modelRow) works
    (List.forall_mem_singleton.mpr (plain_decimal _).whole) ?_ ?_
  · intro t same
    rw [Query.result, same.2.1, modelFound]
  dsimp only
  rw [Prog.pure_bind]
  dsimp only
  rw [bind_number (number_of_wellTyped typed.adId typed.adInt), adExists, if_pos known]
  simp only [Prog.bind_assoc]
  refine leads_query (p := .advertisementQuoted f.adId) (r := some adRow) works
    (List.forall_mem_singleton.mpr (plain_decimal _).whole) ?_ ?_
  · intro t same
    rw [Query.result, same.2.2, adFound]
  exact .here

end Requests

/-! ### Steps -/

/-- The two requests, which share the tables and the files. -/
abbrev Pair (host : Host) : Type :=
  Threads Call.result Stop Reply Bool Connection (World host.mysql.collation)

section Steps
variable {host : Host} (env : Bool → Env) (params : Bool → Params) (w : World host.mysql.collation)
  (f : Bool → SubscriptionFields) (iOwnerId : Bool → Int)

def atOnce : Pair host :=
  ⟨fun i => (onCreateSubscription host (env i) (params i) .initial, .opened), w⟩

/-- The hash of the row that a request inserts next. -/
def pendingHash : Program Reply → Option CString
  | .call (.executeUpdate (.subscription _ _ _ hashId)) _ => some hashId
  | _ => none

/-- The request whose turn it is does not insert a hash that is in the table by then, nor into a table that is
full, and does not give up the search for a hash. -/
def Unhindered (i : Bool) (s : Pair host) : Prop :=
  (∀ hash ∈ pendingHash (s.threads i).1, ¬ Database.Full s.state.db.subscriptions ∧
    ∀ row ∈ s.state.db.subscriptions.rows, host.mysql.collation.hashed hash row = false) ∧
  ((Threads.step (fun i => exec host (env i)) i s).threads i).1.stopped ≠ some .endless

instance (i : Bool) (s : Pair host) : Decidable (Unhindered env i s) := inferInstanceAs (Decidable (_ ∧ _))

/-- How far a request has come, which row it has inserted, and how many calls it may still make. -/
inductive Progress (i : Bool) : Program Reply → Connection → Option Subscription → Nat → Prop where
  | looking {p : Program Reply} {con con' : Connection} {reply : Reply} {attempts k n : Nat}
    (leads : Leads (exec host (env i)) (SameLookups w)
      (chooseHash host (env i).tickCount attempts k >>= insertHash host (f i) (iOwnerId i) reply) con' p con n) :
    Progress i p con none (n + attempts + 2)
  | inserting {con : Connection} {reply : Reply} {k : Nat} :
    Progress i (insertHash host (f i) (iOwnerId i) reply (candidate host (env i).tickCount k)) con none 2
  | inserted {con : Connection} {reply : Reply} {row : Subscription} {k : Nat} (given : con.lastInsertId ≠ -1)
    (hashed : row.hashId = some (candidate host (env i).tickCount k)) :
    Progress i (executeQuery .lastInsertId >>= fun res => match res with
      | none => pure (reply.outcome "Model id not found!" .modelNotFound .notFound)
      | some id => pure (if id ≠ -1 then
        { reply.success with
          subscriptionId := some (jsonString (host.page.widen (candidate host (env i).tickCount k))) } else reply))
      con (some row) 1
  | finished {con : Connection} {reply : Reply} {row : Subscription} {hash : CString} (code : reply.errorCode = .ok)
    (returned : reply.subscriptionId = some (widened hash)) (hashed : row.hashId = some hash) :
    Progress i (.done reply) con (some row) 0

variable {env params w f iOwnerId}

/-- A call of one request, from tables in which its look-ups are as at the start. -/
theorem Progress.step {i : Bool} {p : Program Reply} {con : Connection} {o : Option Subscription} {m : Nat}
    {t : World host.mysql.collation} (progress : Progress env w f iOwnerId i p con o m)
    (granted : Granted host (env i) (params i) w (f i) (iOwnerId i)) (same : SameLookups w t)
    (goes_on : ∀ e, p ≠ .stop e)
    (unused : ∀ hash ∈ pendingHash p, ¬ Database.Full t.db.subscriptions ∧
      ∀ row ∈ t.db.subscriptions.rows, host.mysql.collation.hashed hash row = false) :
    ∃ p' con' t' o' m' added, Prog.step (exec host (env i)) (p, con, t) = (p', con', t') ∧
      Progress env w f iOwnerId i p' con' o' m' ∧ m' ≤ m - 1 ∧ SameLookups w t' ∧
      t'.db.subscriptions.rows = t.db.subscriptions.rows ++ added ∧ o'.toList = o.toList ++ added := by
  have works := granted.works
  cases progress with
  | @looking _ _ con' reply attempts k n leads =>
    cases leads with
    | call answers rest =>
      refine ⟨_, _, t, none, _, [], ?_, .looking rest, ?_, same, by simp, rfl⟩
      · rw [Prog.step, answers t same]
      · omega
    | here =>
      cases attempts with
      | zero => exact absurd rfl (goes_on .endless)
      | succ attempts =>
        have whole : ∀ p ∈ (Query.subscription (candidate host (env i).tickCount k)).template.strings, Sql.Whole p :=
          List.forall_mem_singleton.mpr (plain_candidate host (env i).tickCount k).whole
        rw [chooseHash, Prog.bind_assoc, executeQuery, Prog.step_ask, exec_query works whole, Query.result]
        dsimp only
        by_cases free : (t.db.subscriptions.rows.filter
            (host.mysql.collation.hashed (candidate host (env i).tickCount k))).isEmpty
        · rw [if_pos free, Prog.pure_bind]
          refine ⟨_, _, t, none, _, [], rfl, .inserting, ?_, same, by simp, rfl⟩
          omega
        · rw [if_neg free]
          refine ⟨_, _, t, none, _, [], rfl, .looking .here, ?_, same, by simp, rfl⟩
          omega
  | @inserting _ reply k =>
    have free := unused _ rfl
    have takes := granted.takes same (candidate_fits _ k) free.1 free.2
    obtain ⟨after, inserted⟩ := Database.insertSubscription_of_takes takes
    obtain ⟨-, rows, ads, models, owners⟩ := Database.takes_of_insertSubscription inserted
    have positive := t.db.subscriptions.counts
    rw [insertHash, insertLast, executeUpdate, Prog.step_ask, exec_insert works inserted]
    dsimp only
    rw [if_neg Nat.one_ne_zero]
    refine ⟨_, _, _, some _, _, [_], rfl, .inserted ?_ rfl, Nat.le_refl _, ?_, rows, rfl⟩
    · dsimp only
      omega
    · exact ⟨owners.trans same.1, models.trans same.2.1, ads.trans same.2.2⟩
  | @inserted _ reply row k given hashed =>
    rw [executeQuery, Prog.step_ask, exec_query works (by rintro s ⟨⟩), Query.result]
    dsimp only
    rw [if_pos given]
    refine ⟨_, _, t, some row, _, [], rfl, .finished rfl ?_ hashed, Nat.le_refl _, same, by simp, by simp⟩
    exact congrArg some (jsonString_candidate _ k)
  | finished code returned hashed =>
    exact ⟨_, _, t, _, _, [], rfl, .finished code returned hashed, Nat.le_refl _, same, by simp, by simp⟩

theorem Progress.endless {i : Bool} {e : Stop} {con : Connection} {o : Option Subscription} {m : Nat}
    (progress : Progress env w f iOwnerId i (.stop e) con o m) : e = .endless := by
  generalize stopped : Prog.stop e = p at progress
  cases progress with
  | @looking _ _ con' reply attempts k n leads =>
    cases leads with
    | call => cases stopped
    | here =>
      cases attempts with
      | zero =>
        cases stopped
        rfl
      | succ attempts => cases stopped
  | inserting => cases stopped
  | inserted => cases stopped
  | finished => cases stopped

/-- Neither request has failed, and the rows are those at the start and those that the two have inserted. -/
structure Going (env : Bool → Env) (w : World host.mysql.collation) (f : Bool → SubscriptionFields)
    (iOwnerId : Bool → Int) (o : Bool → Option Subscription) (n : Bool → Nat) (s : Pair host) : Prop where
  same : SameLookups w s.state
  alive : ∀ i e, (s.threads i).1 ≠ .stop e
  progress : ∀ i, ∃ m ≤ n i, Progress env w f iOwnerId i (s.threads i).1 (s.threads i).2 (o i) m
  rows : ∃ added, s.state.db.subscriptions.rows = w.db.subscriptions.rows ++ added ∧
    added.Perm ((o false).toList ++ (o true).toList)

theorem perm_update {o : Bool → Option Subscription} {i : Bool} {row : Option Subscription}
    {added new : List Subscription} (perm : added.Perm ((o false).toList ++ (o true).toList))
    (more : row.toList = (o i).toList ++ new) :
    (added ++ new).Perm ((Function.update o i row false).toList ++ (Function.update o i row true).toList) := by
  apply (perm.append_right new).trans
  cases i with
  | false =>
    rw [Function.update_self, Function.update_of_ne (by decide), more, List.append_assoc, List.append_assoc]
    exact List.Perm.append_left _ List.perm_append_comm
  | true =>
    rw [Function.update_self, Function.update_of_ne (by decide), more, List.append_assoc]

theorem Going.step {o : Bool → Option Subscription} {n : Bool → Nat} {s : Pair host} {i : Bool}
    (granted : ∀ i, Granted host (env i) (params i) w (f i) (iOwnerId i)) (going : Going env w f iOwnerId o n s)
    (unhindered : Unhindered env i s) : ∃ o', Going env w f iOwnerId o' (Function.update n i (n i - 1))
      (Threads.step (fun i => exec host (env i)) i s) := by
  obtain ⟨m, le, progress⟩ := going.progress i
  obtain ⟨p', con', t', o', m', new, step, progress', le', same', rows', more⟩ :=
    progress.step (granted i) going.same (going.alive i) unhindered.1
  have stepped : Threads.step (fun i => exec host (env i)) i s = ⟨Function.update s.threads i (p', con'), t'⟩ := by
    rw [Threads.step, step]
  have not_endless := unhindered.2
  rw [stepped] at not_endless ⊢
  dsimp only at not_endless
  rw [Function.update_self] at not_endless
  obtain ⟨added, rows, perm⟩ := going.rows
  refine ⟨Function.update o i o', same', ?_, ?_, added ++ new, ?_, perm_update perm more⟩
  · intro j e
    dsimp only
    by_cases turn : j = i
    · subst turn
      rw [Function.update_self]
      intro stopped
      dsimp only at stopped not_endless
      rw [stopped] at progress' not_endless
      rw [progress'.endless] at not_endless
      exact not_endless rfl
    · rw [Function.update_of_ne turn]
      exact going.alive j e
  · intro j
    dsimp only
    by_cases turn : j = i
    · subst turn
      rw [Function.update_self, Function.update_self, Function.update_self]
      exact ⟨m', by omega, progress'⟩
    · rw [Function.update_of_ne turn, Function.update_of_ne turn, Function.update_of_ne turn]
      exact going.progress j
  · rw [rows', rows, List.append_assoc]

theorem Progress.done {i : Bool} {p : Program Reply} {con : Connection} {o : Option Subscription} {m : Nat}
    (progress : Progress env w f iOwnerId i p con o m) (last : m = 0) :
    ∃ reply hash row, p = .done reply ∧ o = some row ∧ reply.errorCode = .ok ∧
      reply.subscriptionId = some (widened hash) ∧ row.hashId = some hash := by
  cases progress with
  | looking => exact absurd last (by omega)
  | inserting => cases last
  | inserted => cases last
  | finished code returned hashed => exact ⟨_, _, _, rfl, rfl, code, returned, hashed⟩

theorem hashes_differ {db : Database host.mysql.collation} {old added : List Subscription} {row row' : Subscription}
    {hash hash' : CString} (rows : db.subscriptions.rows = old ++ added) (perm : added.Perm [row, row'])
    (hashed : row.hashId = some hash) (hashed' : row'.hashId = some hash') : hash ≠ hash' := by
  have unique := db.unique
  rw [rows, List.pairwise_append] at unique
  have symmetric : ∀ {s t : Subscription},
      (∀ hash, t.hashId = some hash → host.mysql.collation.hashed hash s = false) →
        ∀ hash, s.hashId = some hash → host.mysql.collation.hashed hash t = false := by
    intro s t differ hash own
    rw [Collation.hashed]
    cases other : t.hashId with
    | none => rfl
    | some hash' =>
      have apart := differ hash' other
      rw [Collation.hashed, own, Option.any_some] at apart
      rw [Option.any_some, host.mysql.collation.symm, apart]
  have apart := List.rel_of_pairwise_cons ((perm.pairwise_iff symmetric).mp unique.2.1) (List.mem_singleton_self row')
    hash' hashed'
  rintro rfl
  rw [Collation.hashed, hashed, Option.any_some, host.mysql.collation.refl] at apart
  cases apart

theorem widened_injective {p q : CString} (same : widened p = widened q) : p = q := by
  refine List.map_injective_iff.mpr ?_ same
  intro a b equal
  have values := congrArg UInt16.toNat equal
  rw [UInt8.toNat_toUInt16, UInt8.toNat_toUInt16] at values
  exact UInt8.toNat_inj.mp values

end Steps

section Runs
variable {host : Host} {env : Bool → Env} {params : Bool → Params} {w : World host.mysql.collation}
  {f : Bool → SubscriptionFields}

/-- Both requests have got `MS_ERROR_OK` and ids that differ, and the table has gained their two rows. -/
def BothServed (w : World host.mysql.collation) (s : Pair host) : Prop :=
  ∃ (reply : Bool → Reply) (hash : Bool → CString) (row : Bool → Subscription),
    (∀ i, (s.threads i).1 = .done (reply i) ∧ (reply i).errorCode = .ok ∧
      (reply i).subscriptionId = some (widened (hash i)) ∧ (row i).hashId = some (hash i)) ∧
    widened (hash false) ≠ widened (hash true) ∧
    ∃ added, s.state.db.subscriptions.rows = w.db.subscriptions.rows ++ added ∧
      added.Perm [row false, row true]

theorem Going.served {iOwnerId : Bool → Int} {o : Bool → Option Subscription} {n : Bool → Nat} {s : Pair host}
    (going : Going env w f iOwnerId o n s) (last : ∀ i, n i = 0) : BothServed w s := by
  have done : ∀ i, ∃ reply hash row, (s.threads i).1 = .done reply ∧ o i = some row ∧ reply.errorCode = .ok ∧
      reply.subscriptionId = some (widened hash) ∧ row.hashId = some hash := by
    intro i
    obtain ⟨m, le, progress⟩ := going.progress i
    have zero := last i
    exact progress.done (by omega)
  choose reply hash row ended inserted code returned hashed using done
  obtain ⟨added, rows, perm⟩ := going.rows
  rw [inserted false, inserted true] at perm
  refine ⟨reply, hash, row, fun i => ⟨ended i, code i, returned i, hashed i⟩, ?_, added, rows, perm⟩
  intro same
  exact hashes_differ rows perm (hashed false) (hashed true) (widened_injective same)

/-- In every run in which no request inserts a hash that is taken by then, no request fails, and both are served
after as many steps as they need. -/
theorem subscriptions_do_not_collide
    (granted : ∀ i, ∃ iOwnerId, Granted host (env i) (params i) w (f i) iOwnerId) {schedule : List Bool}
    (good : GoodRun (Threads.step fun i => exec host (env i)) (Unhindered env) (atOnce env params w) schedule) :
    (∀ i e, ((run (Threads.step fun i => exec host (env i)) (atOnce env params w) schedule).threads i).1 ≠ .stop e) ∧
      ((∀ i, (env i).attempts + 7 ≤ schedule.count i) →
        BothServed w (run (Threads.step fun i => exec host (env i)) (atOnce env params w) schedule)) := by
  choose iOwnerId granted using granted
  have start : Going env w f iOwnerId (fun _ => none) (fun i => (env i).attempts + 7) (atOnce env params w) := by
    refine ⟨⟨rfl, rfl, rfl⟩, ?_, ?_, [], by simp [atOnce], by simp⟩
    · rintro i e ⟨⟩
    · intro i
      obtain ⟨reply, con, leads⟩ := leads_onCreateSubscription (granted i)
      exact ⟨_, by omega, .looking leads⟩
  obtain ⟨o, going⟩ := good.countdown (I := fun n s => ∃ o, Going env w f iOwnerId o n s)
    (by
      rintro n i s unhindered ⟨o, going⟩
      exact going.step granted unhindered) ⟨_, start⟩
  refine ⟨going.alive, fun enough => going.served fun i => ?_⟩
  have steps := enough i
  omega

end Runs
/-! ### The same owner twice -/

def patientEnv (_ : Bool) : Env := Small.env.patient 2

def twice : Pair Small.host := atOnce patientEnv (fun _ => Small.subscription 1) publishedWorld

def afterBoth (schedule : List Bool) : Pair Small.host :=
  run (Threads.step fun i => exec Small.host (patientEnv i)) twice schedule

theorem granted_twice : Granted Small.host (Small.env.patient 2) (Small.subscription 1) publishedWorld
    (subscribe 1) 1 where
  works := works_small.patient 2
  typed := wellTyped_subscribe.1
  texts := by
    have whole : Sql.Whole (ascii "u") ∧ Sql.Whole (ascii "p") := by
      constructor <;> exact Sql.whole_of_free (by decide) (by decide) (by decide)
    refine ⟨ascii "u", ascii "p", ascii "u", rfl, rfl, rfl, ⟨whole.1, whole.2, whole.1⟩, ?_, rfl⟩
    exact (by decide : (1 : Int) ≠ -1)
  owner := by decide
  model := rfl
  ad := rfl

def inTurn : List Bool := List.replicate 9 false ++ List.replicate 9 true

theorem served_in_turn : BothServed publishedWorld (afterBoth inTurn) := by
  have good : GoodRun (Threads.step fun i => exec Small.host (patientEnv i)) (Unhindered patientEnv) twice inTurn := by
    decide +kernel
  have served := @subscriptions_do_not_collide Small.host patientEnv (fun _ => Small.subscription 1) publishedWorld
    (fun _ => subscribe 1) (fun i => ⟨1, granted_twice⟩) inTurn good
  apply served.2
  intro i
  cases i <;> decide

/-- Call by call at the same tick, both find the same hash free, and the second `INSERT` fails. -/
def alternately : List Bool := (List.replicate 9 [false, true]).flatten

theorem same_tick_collides : (∀ i, (patientEnv i).attempts + 7 ≤ alternately.count i) ∧
    ¬ BothServed publishedWorld (afterBoth alternately) := by
  refine ⟨by decide, ?_⟩
  have failed : ((afterBoth alternately).threads true).1.stopped = some .sqlException := by decide +kernel
  rintro ⟨reply, hash, row, ended, -⟩
  rw [(ended true).1] at failed
  cases failed

end ModelPublish.Server
