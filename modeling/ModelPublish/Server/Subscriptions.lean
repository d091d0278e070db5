import ModelPublish.Server.Outcomes
import ModelPublish.Server.Stages

/-!
# New subscriptions

When `OnCreateSubscription` succeeds. The handler takes -1 for no ad, but the table wants an ad for each
subscription.
-/

namespace ModelPublish.Server
open Machine Reply

/-- The connection opens, and no statement fails but for what is in it. -/
structure Env.Works (env : Env) : Prop where
  connects : env.connects = true
  fails : ∀ n, env.fails n = false

theorem Env.Works.patient {env : Env} (h : env.Works) (attempts : Nat) : (env.patient attempts).Works :=
  ⟨h.connects, h.fails⟩

structure SubscriptionFields where
  user : WString
  pass : WString
  owner : WString
  modelId : Int
  adId : Int

/-- The fields of a request have these values, of the types that the handler reads. -/
structure WellTyped (params : Params) (f : SubscriptionFields) : Prop where
  user : params.lookup (wide "user") = some (.string f.user)
  pass : params.lookup (wide "pass") = some (.string f.pass)
  owner : params.lookup (wide "owner") = some (.string f.owner)
  modelId : params.lookup (wide "model_id") = some (.number f.modelId)
  adId : params.lookup (wide "ad_id") = some (.number f.adId)
  modelInt : f.modelId.bmod (2 ^ 32) = f.modelId
  adInt : f.adId.bmod (2 ^ 32) = f.adId

section Stages
variable (host : Host) (env : Env) (params : Params) (w : World host.mysql.collation)

/-- The owner is known by the name and the password, both named rows are there, and the ad is one or none. -/
def Valid (f : SubscriptionFields) : Prop :=
  (∃ o ∈ w.db.owners.rows, host.mysql.collation.same o.username (host.page.narrow 0 f.user) = true ∧
    ∃ password, o.password = some password ∧ host.mysql.collation.same password (host.page.narrow 0 f.pass) = true) ∧
  (∃ o ∈ w.db.owners.rows, host.mysql.collation.same o.username (host.page.narrow 0 f.owner) = true) ∧
  (w.db.models.find? f.modelId).isSome ∧ (f.adId = -1 ∨ (w.db.ads.find? f.adId).isSome)

/-- Asked for this subscription, `OnGetModel` comes to the row of the model. -/
def FindsModel (id : WString) (iModelId : Int) : Prop :=
  ∀ (env : Env) (params : Params), env.Works → params.lookup (wide "subsid") = some (.string id) →
    ∃ rows model, checkedSubscription host env params .opened w = .ok rows ∧
      lastInt rows (·.modelId) = iModelId ∧ iModelId ≠ -1 ∧ w.db.models.find? iModelId = some model

/-- One row more, which is what was asked for, under a hash that no row had. -/
structure Created (f : SubscriptionFields) (w' : World host.mysql.collation) (reply : Reply) (hash : CString)
    (row : Subscription) : Prop where
  rows : w'.db.subscriptions.rows = w.db.subscriptions.rows ++ [row]
  owner : ∃ o ∈ w.db.owners.rows, host.mysql.collation.same o.username (host.page.narrow 0 f.owner) = true ∧
    row.ownerId = some o.id
  model : row.modelId = some f.modelId
  ad : row.adId = some f.adId ∨ f.adId = -1 ∧ row.adId = none
  hashed : row.hashId = some hash
  fresh : ∀ s ∈ w.db.subscriptions.rows, host.mysql.collation.hashed hash s = false
  returned : reply.subscriptionId = some (widened hash)
  found : FindsModel host w' (widened hash) f.modelId

/-- A reply of `MS_ERROR_OK` is for what is valid, and then the row is there. Otherwise there is none. -/
def CreatesRightly (f : SubscriptionFields) : Except Stop Reply × World host.mysql.collation → Prop
  | (.ok reply, w') =>
    if reply.errorCode = .ok then Valid host w f ∧ ∃ hash row, Created host w f w' reply hash row
    else ¬ Valid host w f ∧ w'.db.subscriptions.rows = w.db.subscriptions.rows
  | (.error _, _) => False

/-- The id that the look-ups for the user and the owner come to. -/
def lookedUpOwner : Except Stop Int := do
  let users ← checkedUser host env params .opened w
  if lastInt users (fun row => some row.id) ≠ -1 then
    let owners ← checkedOwner host env params (statement 1) w
    pure (lastInt owners fun row => some row.id)
  else pure (-1)

/-- What the handler goes on with. -/
def Accepted (f : SubscriptionFields) (iOwnerId : Int) : Prop :=
  iOwnerId ≠ -1 ∧ (w.db.models.find? f.modelId).isSome ∧ (f.adId = -1 ∨ (w.db.ads.find? f.adId).isSome)

/-- The row can be inserted, with the hash of one of the first attempts, and be found again. -/
def Insertable (f : SubscriptionFields) (iOwnerId : Int) (attempts : Nat) : Prop :=
  (∃ o ∈ w.db.owners.rows, host.mysql.collation.same o.username (host.page.narrow 0 f.owner) = true ∧
    o.id = iOwnerId) ∧
  (w.db.ads.find? f.adId).isSome ∧ f.modelId ≠ -1 ∧ ¬ Database.Full w.db.subscriptions ∧
  ∃ j, j < attempts ∧ FirstFree host w env.tickCount j

variable {host env params w} {α : Type} {reply : Reply} {con : Connection} {f : SubscriptionFields}

theorem createsRightly_refused (refused : reply.Refused) :
    CreatesRightly host w f (.ok reply, w) ↔ ¬ Valid host w f := by
  rw [CreatesRightly, if_neg refused.code.1]
  exact and_iff_left rfl

theorem createsRightly_ok {w' : World host.mysql.collation} (code : reply.errorCode = .ok) :
    CreatesRightly host w f (.ok reply, w') ↔
      Valid host w f ∧ ∃ hash row, Created host w f w' reply hash row := by
  rw [CreatesRightly, if_pos code]

theorem runOn_modelExists {iOwnerId iModelId : Int} (works : env.Works) (known : iOwnerId ≠ -1)
    (refused : reply.Refused) (k : Bool × Reply → Program α) : ∃ reply', reply'.Refused ∧
      runOn host env (modelExists iOwnerId iModelId reply >>= k) con w =
        runOn host env (k ((w.db.models.find? iModelId).isSome, reply')) con.next w := by
  rw [modelExists, if_pos known, Prog.bind_assoc, runOn_plain (q := .modelDescQuoted iModelId)
    (List.forall_mem_singleton.mpr (plain_decimal iModelId).whole), works.fails, Query.result]
  cases w.db.models.find? iModelId with
  | none => exact ⟨_, refused.outcome _ (by decide) (by decide), rfl⟩
  | some model => exact ⟨reply, refused, rfl⟩

theorem runOn_adExists {iOwnerId iAdId : Int} (works : env.Works) (known : iOwnerId ≠ -1)
    (refused : reply.Refused) (k : Bool × Reply → Program α) : ∃ reply', reply'.Refused ∧
      runOn host env (adExists iOwnerId iAdId reply >>= k) con w =
        runOn host env (k ((w.db.ads.find? iAdId).isSome || decide (iAdId = -1), reply')) con.next w := by
  rw [adExists, if_pos known, Prog.bind_assoc, runOn_plain (q := .advertisementQuoted iAdId)
    (List.forall_mem_singleton.mpr (plain_decimal iAdId).whole), works.fails, Query.result]
  cases w.db.ads.find? iAdId with
  | none => exact ⟨_, refused.outcome _ (by decide) (by decide), rfl⟩
  | some ad => exact ⟨reply, refused, rfl⟩

/-- The loop comes to the first free hash, if it may try that often. -/
theorem runOn_chooseHash {seed attempts k : Nat} (works : ∀ n, env.fails n = false)
    (next : CString → Program α) :
    (∃ j con', k ≤ j ∧ j < k + attempts ∧ (∀ i, k ≤ i → i < j → ¬ HashFree host w seed i) ∧
      HashFree host w seed j ∧ runOn host env (chooseHash host seed attempts k >>= next) con w =
        runOn host env (next (candidate host seed j)) con' w) ∨
    ((∀ j, k ≤ j → j < k + attempts → ¬ HashFree host w seed j) ∧
      runOn host env (chooseHash host seed attempts k >>= next) con w = (.error .endless, w)) := by
  induction attempts generalizing k con with
  | zero =>
    right
    refine ⟨fun j low high => ?_, rfl⟩
    omega
  | succ attempts ih =>
    rw [chooseHash, Prog.bind_assoc, runOn_plain (q := .subscription (candidate host seed k))
      (List.forall_mem_singleton.mpr (plain_candidate host seed k).whole), works, Query.result]
    by_cases free : HashFree host w seed k
    · left
      refine ⟨k, con.next, Nat.le_refl k, by omega, fun i low high => by omega, free, ?_⟩
      rw [if_neg (by decide), if_pos (isEmpty_hashed.mpr free)]
      rfl
    · rw [if_neg (by decide), if_neg fun empty => free (isEmpty_hashed.mp empty)]
      have taken : ∀ i, k ≤ i → ¬ k + 1 ≤ i → ¬ HashFree host w seed i := by
        intro i low high
        obtain rfl : i = k := by omega
        exact free
      rcases @ih con.next (k + 1) with ⟨j, con', low, high, before, last, run⟩ | ⟨none, run⟩
      · left
        refine ⟨j, con', by omega, by omega, fun i from_k to_j => ?_, last, run⟩
        by_cases later : k + 1 ≤ i
        · exact before i later to_j
        · exact taken i from_k later
      · right
        refine ⟨fun i from_k to_end => ?_, run⟩
        by_cases later : k + 1 ≤ i
        · exact none i later (by omega)
        · exact taken i from_k later

def newSubscription (w : World host.mysql.collation) (f : SubscriptionFields) (iOwnerId : Int) (hash : CString) :
    Subscription :=
  ⟨w.db.subscriptions.next, some iOwnerId, some f.modelId, some f.adId, some hash⟩

theorem whole_subscription {seed k : Nat} {iOwnerId iModelId iAdId : Int} :
    ∀ p ∈ (Update.subscription iOwnerId iModelId iAdId (candidate host seed k)).template.strings, Sql.Whole p :=
  List.forall_mem_cons.mpr ⟨(plain_decimal iAdId).whole,
    List.forall_mem_singleton.mpr (plain_candidate host seed k).whole⟩

theorem candidate_fits (seed k : Nat) : host.mysql.collation.fits 32 (candidate host seed k) = true := by
  refine host.mysql.collation.fits_ascii 32 _ ?_ fun c member => (plain_candidate host seed k c member).2.1
  rw [candidate, List.length_map, List.length_range]
  decide

theorem lookup_candidate {seed k : Nat} (params : Params)
    (asks : params.lookup (wide "subsid") = some (.string (widened (candidate host seed k)))) :
    fieldText host params "subsid" = .ok (candidate host seed k) := by
  have narrow := host.page.narrow_ascii 0 (candidate host seed k)
    fun c member => (plain_candidate host seed k c member).2.1
  have eight : (candidate host seed k).length = 8 := by rw [candidate, List.length_map, List.length_range]
  rw [fieldText, asks]
  dsimp only
  rw [CodePage.narrowInto, narrow, eight, if_pos (by decide : 8 ≤ 256), eight]
  rfl

theorem jsonString_candidate (seed k : Nat) :
    jsonString (host.page.widen (candidate host seed k)) = widened (candidate host seed k) := by
  rw [host.page.widen_ascii _ fun c member => (plain_candidate host seed k c member).2.1, jsonString,
    List.takeWhile_eq_self_iff]
  intro c member
  obtain ⟨b, among, rfl⟩ := List.mem_map.mp member
  have low := (plain_candidate host seed k b among).1
  rw [decide_eq_true_eq, ne_eq, ← UInt16.toNat_inj, UInt8.toNat_toUInt16]
  rw [UInt8.le_iff_toNat_le] at low
  intro zero
  rw [zero] at low
  exact absurd low (by decide)

theorem findsModel_new {seed j : Nat} {iOwnerId : Int} {db : Database host.mysql.collation}
    {files : CString → Option (List UInt8)} (free : HashFree host w seed j)
    (model : (w.db.models.find? f.modelId).isSome)
    (some_model : f.modelId ≠ -1) (models : db.models = w.db.models) (rows : db.subscriptions.rows =
      w.db.subscriptions.rows ++ [newSubscription w f iOwnerId (candidate host seed j)]) :
    FindsModel host ⟨db, files⟩ (widened (candidate host seed j)) f.modelId := by
  intro env params works asks
  obtain ⟨row, found⟩ := Option.isSome_iff_exists.mp model
  refine ⟨[newSubscription w f iOwnerId (candidate host seed j)], row, ?_, rfl, some_model, by rw [models, found]⟩
  rw [checkedSubscription, lookup_candidate params asks, ok_bind, answer_eq (q := .subscription (candidate host seed j))
    _ _ (List.forall_mem_singleton.mpr (plain_candidate host seed j).whole), works.fails, Query.result]
  have old : w.db.subscriptions.rows.filter (host.mysql.collation.hashed (candidate host seed j)) = [] := by
    rw [List.filter_eq_nil_iff]
    intro s member
    rw [free s member]
    decide
  have new : host.mysql.collation.hashed (candidate host seed j)
      (newSubscription w f iOwnerId (candidate host seed j)) = true := by
    rw [Collation.hashed, newSubscription]
    exact host.mysql.collation.refl _
  rw [if_neg (by decide), rows, List.filter_append, old, List.filter_singleton, new]
  rfl

theorem createsRightly_insert {iOwnerId : Int} {attempts : Nat} (works : env.Works)
    (model : (w.db.models.find? f.modelId).isSome) :
    CreatesRightly host w f (runOn host (env.patient attempts)
        (insertSubscription host (env.patient attempts) iOwnerId f.modelId f.adId true reply) con w) ↔
      Valid host w f ∧ Insertable host env w f iOwnerId attempts := by
  rw [insertSubscription, if_pos rfl]
  rcases @runOn_chooseHash host (env.patient attempts) w _ con env.tickCount attempts 0 works.fails (fun szHash =>
    insertLast (.subscription iOwnerId f.modelId f.adId szHash)
      (fun _ reply => { reply with subscriptionId := some (jsonString (host.page.widen szHash)) }) reply)
    with ⟨j, con', -, within, before, free, run⟩ | ⟨none, run⟩
  swap
  · refine iff_of_false ?_ ?_
    · rw [show (env.patient attempts).tickCount = env.tickCount from rfl,
        show (env.patient attempts).attempts = attempts from rfl, run]
      exact not_false
    · rintro ⟨-, -, -, -, -, j, within, -, free⟩
      exact none j (Nat.zero_le j) (by omega) free
  rw [show (env.patient attempts).tickCount = env.tickCount from rfl,
    show (env.patient attempts).attempts = attempts from rfl, run, runOn_insertLast, changes_eq _ _ whole_subscription,
    if_neg (by rw [Env.patient, works.fails]; decide), Update.change]
  cases inserted : w.db.insertSubscription iOwnerId f.modelId f.adId (candidate host env.tickCount j) with
  | none =>
    apply iff_of_false not_false
    rintro ⟨-, ⟨o, member, -, rfl⟩, ad, -, room, -⟩
    have takes : w.db.Takes o.id f.modelId f.adId (candidate host env.tickCount j) :=
      ⟨room, candidate_fits _ j, ⟨known_some.mpr (Table.isSome_of_mem member), known_some.mpr model,
        known_some.mpr ad⟩, free⟩
    obtain ⟨after, taken⟩ := Database.insertSubscription_of_takes takes
    rw [taken] at inserted
    cases inserted
  | some after =>
    obtain ⟨takes, rows, -, models, -⟩ := Database.takes_of_insertSubscription inserted
    have positive := w.db.subscriptions.counts
    rw [Option.map_some]
    dsimp only
    rw [if_neg Nat.one_ne_zero, if_neg (by rw [Env.patient, works.fails]; decide), if_pos (by omega),
      createsRightly_ok rfl]
    apply and_congr_right
    intro _
    constructor
    · rintro ⟨hash, row, created⟩
      have same : row = newSubscription w f iOwnerId (candidate host env.tickCount j) := by
        have both := created.rows.symm.trans rows
        simpa [newSubscription] using both
      obtain ⟨o, member, named, own⟩ := created.owner
      rw [same] at own
      obtain rfl : iOwnerId = o.id := Option.some.inj own
      obtain ⟨-, -, -, -, some_model, -⟩ := created.found
        ⟨true, fun _ => false, .whole, env.uuid, 0, env.memory, 0⟩ [(wide "subsid", .string (widened hash))]
        ⟨rfl, fun _ => rfl⟩ (by rw [List.lookup_cons_self])
      exact ⟨⟨o, member, named, rfl⟩, takes.known.2.2 _ rfl, some_model, takes.room,
        j, by omega, fun i lt => before i (Nat.zero_le i) lt, free⟩
    · rintro ⟨⟨o, member, named, rfl⟩, -, some_model, -, -⟩
      refine ⟨candidate host env.tickCount j, newSubscription w f o.id (candidate host env.tickCount j), ?_⟩
      constructor
      · exact rows
      · exact ⟨o, member, named, rfl⟩
      · rfl
      · exact .inl rfl
      · rfl
      · exact free
      · exact congrArg some (jsonString_candidate env.tickCount j)
      · exact findsModel_new free model some_model models rows

theorem number_of_wellTyped {key : String} {n : Int} (typed : params.lookup (wide key) = some (.number n))
    (int : n.bmod (2 ^ 32) = n) : fieldNumber params key = .ok n := by
  rw [fieldNumber, typed]
  exact congrArg Except.ok int

theorem createsRightly_owner {iOwnerId : Int} {attempts : Nat} (works : env.Works) (typed : WellTyped params f)
    (refused : reply.Refused) :
    CreatesRightly host w f (runOn host (env.patient attempts) (do
        let iModelId ← integerAt params "model_id"
        let (bModelExists, reply) ← modelExists iOwnerId iModelId reply
        let iAdId ← integerAt params "ad_id"
        let (bAdExists, reply) ← adExists iOwnerId iAdId reply
        insertSubscription host (env.patient attempts) iOwnerId iModelId iAdId (bAdExists && bModelExists) reply)
        con w) ↔
      (Accepted host w f iOwnerId ↔ Valid host w f) ∧ (Valid host w f → Insertable host env w f iOwnerId attempts) := by
  have works' := works.patient attempts
  rw [runOn_number, number_of_wellTyped typed.modelId typed.modelInt]
  dsimp only
  by_cases known : iOwnerId = -1
  · rw [modelExists, if_neg (not_not_intro known), Prog.pure_bind]
    dsimp only
    rw [runOn_number, number_of_wellTyped typed.adId typed.adInt]
    dsimp only
    rw [adExists, if_neg (not_not_intro known), Prog.pure_bind]
    apply (createsRightly_refused refused).trans
    have rejected : ¬ Accepted host w f iOwnerId := fun accepted => accepted.1 known
    tauto
  obtain ⟨reply', refused', models⟩ := @runOn_modelExists host _ w _ _ con _ f.modelId works' known refused
    (fun x => do
      let iAdId ← integerAt params "ad_id"
      let (bAdExists, reply) ← adExists iOwnerId iAdId x.2
      insertSubscription host (env.patient attempts) iOwnerId f.modelId iAdId (bAdExists && x.1) reply)
  apply (Eq.to_iff (congrArg (CreatesRightly host w f) models)).trans
  rw [runOn_number, number_of_wellTyped typed.adId typed.adInt]
  dsimp only
  obtain ⟨reply'', refused'', ads⟩ := @runOn_adExists host _ w _ _ con.next _ f.adId works' known refused'
    (fun x => insertSubscription host (env.patient attempts) iOwnerId f.modelId f.adId
      (x.1 && (w.db.models.find? f.modelId).isSome) x.2)
  apply (Eq.to_iff (congrArg (CreatesRightly host w f) ads)).trans
  by_cases accepted : Accepted host w f iOwnerId
  · obtain ⟨-, model, ad⟩ := accepted
    have found : (((w.db.ads.find? f.adId).isSome || decide (f.adId = -1)) &&
        (w.db.models.find? f.modelId).isSome) = true := by
      rw [model, Bool.and_true, Bool.or_eq_true, decide_eq_true_eq]
      exact ad.symm
    rw [found]
    apply (createsRightly_insert works model).trans
    have accepted : Accepted host w f iOwnerId := ⟨known, model, ad⟩
    tauto
  · have missing : (((w.db.ads.find? f.adId).isSome || decide (f.adId = -1)) &&
        (w.db.models.find? f.modelId).isSome) = false := by
      rw [Bool.eq_false_iff]
      intro found
      rw [Bool.and_eq_true, Bool.or_eq_true, decide_eq_true_eq] at found
      exact accepted ⟨known, found.2, found.1.symm⟩
    rw [missing, insertSubscription, if_neg (by decide)]
    apply (createsRightly_refused refused'').trans
    tauto

theorem createsRightly_iff {attempts : Nat} (works : env.Works) (typed : WellTyped params f) :
    CreatesRightly host w f (runAlone host (env.patient attempts)
        (onCreateSubscription host (env.patient attempts) params .initial) w) ↔
      ∃ iOwnerId, lookedUpOwner host env params w = .ok iOwnerId ∧
        (Accepted host w f iOwnerId ↔ Valid host w f) ∧
        (Valid host w f → Insertable host env w f iOwnerId attempts) := by
  change CreatesRightly host w f (runOn host (env.patient attempts)
    (onCreateSubscription host (env.patient attempts) params .initial) .opened w) ↔ _
  have same : ∀ con, checkedUser host (env.patient attempts) params con w = checkedUser host env params con w :=
    fun con => rfl
  have same' : ∀ con, checkedOwner host (env.patient attempts) params con w = checkedOwner host env params con w :=
    fun con => rfl
  rw [onCreateSubscription, runOn_connect, if_pos (works.patient attempts).connects, runOn_fetchUser, same,
    lookedUpOwner]
  cases users : checkedUser host env params .opened w with
  | error e =>
    apply iff_of_false not_false
    rintro ⟨iOwnerId, ⟨⟩, -⟩
  | ok rows =>
    rw [ok_bind]
    dsimp only
    have refused : (lookedUp rows "Invalid username or password!" .invalidUserPass .forbidden .initial).Refused :=
      lookedUp_refused rows (by decide) (by decide) refused_initial
    by_cases known : (lastInt rows fun row => some row.id) ≠ -1
    · rw [if_pos known, runOn_fetchOwner _ known, same']
      have second : Connection.opened.next = statement 1 := rfl
      rw [second]
      cases owners : checkedOwner host env params (statement 1) w with
      | error e =>
        apply iff_of_false not_false
        rintro ⟨iOwnerId, ⟨⟩, -⟩
      | ok owners =>
        apply (createsRightly_owner works typed (lookedUp_refused _ (by decide) (by decide) refused)).trans
        rw [ok_bind]
        refine ⟨fun h => ⟨_, rfl, h⟩, ?_⟩
        rintro ⟨iOwnerId, ⟨⟩, h⟩
        exact h
    · rw [if_neg known, fetchOwner, if_neg known, Prog.pure_bind]
      apply (createsRightly_owner works typed refused).trans
      refine ⟨fun h => ⟨_, rfl, h⟩, ?_⟩
      rintro ⟨iOwnerId, ⟨⟩, h⟩
      exact h

theorem lookedUpOwner_plain {user pass owner : CString} (works : env.Works)
    (userText : fieldText host params "user" = .ok user) (passText : fieldText host params "pass" = .ok pass)
    (ownerText : fieldText host params "owner" = .ok owner) (userWhole : Sql.Whole user) (passWhole : Sql.Whole pass)
    (ownerWhole : Sql.Whole owner) : lookedUpOwner host env params w =
      .ok (if lastInt ((Query.user user pass).result w.db 0) (fun row => some row.id) ≠ -1 then
        lastInt ((Query.owner owner).result w.db 0) fun row => some row.id else -1) := by
  rw [lookedUpOwner, checkedUser, userText, passText, ok_bind, ok_bind, answer_eq (q := .user user pass) _ _
    (List.forall_mem_cons.mpr ⟨userWhole, List.forall_mem_singleton.mpr passWhole⟩), works.fails,
    if_neg (by decide), answered, ok_bind]
  by_cases known : lastInt ((Query.user user pass).result w.db 0) (fun row => some row.id) ≠ -1
  · rw [if_pos known]
    apply (if_pos known).trans
    rw [checkedOwner, ownerText, ok_bind, answer_eq (q := .owner owner) _ _ (List.forall_mem_singleton.mpr ownerWhole),
      works.fails, if_neg (by decide)]
    rfl
  · rw [if_neg known]
    exact if_neg known

end Stages

section Requests
variable {host : Host} {env : Env} {params : Params} {w : World host.mysql.collation} {f : SubscriptionFields}

/-- A subscription is created exactly when it should be, if and only if the look-ups for user and owner tell what
is valid, and what is valid can be inserted. -/
theorem creates_when_valid (works : env.Works) (typed : WellTyped params f) :
    (∃ attempts, CreatesRightly host w f (runAlone host (env.patient attempts)
        (onCreateSubscription host (env.patient attempts) params .initial) w)) ↔
      ∃ iOwnerId, lookedUpOwner host env params w = .ok iOwnerId ∧
        (Accepted host w f iOwnerId ↔ Valid host w f) ∧
        (Valid host w f → ∃ attempts, Insertable host env w f iOwnerId attempts) := by
  constructor
  · rintro ⟨attempts, rightly⟩
    obtain ⟨iOwnerId, owner, agree, insertable⟩ := (createsRightly_iff works typed).mp rightly
    exact ⟨iOwnerId, owner, agree, fun valid => ⟨attempts, insertable valid⟩⟩
  · rintro ⟨iOwnerId, owner, agree, insertable⟩
    by_cases valid : Valid host w f
    · obtain ⟨attempts, insertable⟩ := insertable valid
      exact ⟨attempts, (createsRightly_iff works typed).mpr ⟨iOwnerId, owner, agree, fun _ => insertable⟩⟩
    · exact ⟨0, (createsRightly_iff works typed).mpr ⟨iOwnerId, owner, agree, fun yes => absurd yes valid⟩⟩

/-- Without an ad no subscription is created, whatever else is right. -/
theorem not_created_without_ad (works : env.Works) (typed : WellTyped params f) (valid : Valid host w f)
    (noAd : (w.db.ads.find? f.adId).isSome = false) (attempts : Nat) :
    ¬ CreatesRightly host w f (runAlone host (env.patient attempts)
      (onCreateSubscription host (env.patient attempts) params .initial) w) := by
  intro rightly
  obtain ⟨iOwnerId, -, -, insertable⟩ := (createsRightly_iff works typed).mp rightly
  obtain ⟨-, ad, -⟩ := insertable valid
  rw [noAd] at ad
  cases ad

end Requests

/-! ### Two requests -/

def publishedWorld : World Small.host.mysql.collation := ⟨Small.published, fun _ => none⟩

def subscribe (adId : Int) : SubscriptionFields := ⟨wide "u", wide "p", wide "u", 1, adId⟩

theorem works_small : Small.env.Works := ⟨rfl, fun _ => rfl⟩

theorem wellTyped_subscribe : WellTyped (Small.subscription 1) (subscribe 1) ∧
    WellTyped (Small.subscription (-1)) (subscribe (-1)) :=
  ⟨⟨rfl, rfl, rfl, rfl, rfl, rfl, rfl⟩, ⟨rfl, rfl, rfl, rfl, rfl, rfl, rfl⟩⟩

theorem valid_subscribe {adId : Int} (ad : adId = -1 ∨ adId = 1) :
    Valid Small.host publishedWorld (subscribe adId) := by
  refine ⟨⟨⟨1, ascii "u", some (ascii "p")⟩, List.mem_singleton_self _, rfl, ascii "p", rfl, rfl⟩,
    ⟨⟨1, ascii "u", some (ascii "p")⟩, List.mem_singleton_self _, rfl⟩, rfl, ?_⟩
  rcases ad with rfl | rfl
  · exact .inl rfl
  · exact .inr rfl

theorem subscribed : ∃ attempts, CreatesRightly Small.host publishedWorld (subscribe 1)
    (runAlone Small.host (Small.env.patient attempts)
      (onCreateSubscription Small.host (Small.env.patient attempts) (Small.subscription 1) .initial) publishedWorld) := by
  have whole : Sql.Whole (ascii "u") ∧ Sql.Whole (ascii "p") := by
    constructor <;> exact Sql.whole_of_free (by decide) (by decide) (by decide)
  have owner : lookedUpOwner Small.host Small.env (Small.subscription 1) publishedWorld = .ok 1 :=
    (lookedUpOwner_plain works_small rfl rfl rfl whole.1 whole.2 whole.1).trans rfl
  rw [creates_when_valid works_small wellTyped_subscribe.1]
  refine ⟨1, owner, iff_of_true ⟨by decide, rfl, .inr rfl⟩ (valid_subscribe (.inr rfl)), fun _ => ⟨1, ?_⟩⟩
  refine ⟨⟨⟨1, ascii "u", some (ascii "p")⟩, List.mem_singleton_self _, rfl, rfl⟩, rfl, by decide, by decide, 0,
    Nat.one_pos, ?_, ?_⟩
  · exact fun i lt => absurd lt (Nat.not_lt_zero i)
  · exact fun s member => absurd member List.not_mem_nil

/-- A request that says -1 for no ad ends in an `SQLException`. -/
theorem no_ad_fails : Valid Small.host publishedWorld (subscribe (-1)) ∧
    ¬ ∃ attempts, CreatesRightly Small.host publishedWorld (subscribe (-1))
      (runAlone Small.host (Small.env.patient attempts)
        (onCreateSubscription Small.host (Small.env.patient attempts) (Small.subscription (-1)) .initial)
        publishedWorld) := by
  have valid := valid_subscribe (.inl rfl)
  refine ⟨valid, ?_⟩
  rintro ⟨attempts, rightly⟩
  exact not_created_without_ad works_small wellTyped_subscribe.2 valid rfl attempts rightly

end ModelPublish.Server
