import ModelPublish.Server.Downloads

/-!
# A subscription from its creation on

The row that `OnCreateSubscription` inserts stays, and no row but this one ever has its hash: whatever is
requested in between, the id leads to the model and to the ad that it was created for.
-/

namespace ModelPublish.Server
open Machine Reply

/-- An `int` of the tables. -/
def IsInt (n : Int) : Prop := -2 ^ 31 ≤ n ∧ n < 2 ^ 31

instance (n : Int) : Decidable (IsInt n) := inferInstanceAs (Decidable (_ ∧ _))

theorem IsInt.bmod {n : Int} (int : IsInt n) : n.bmod (2 ^ 32) = n := by
  obtain ⟨low, high⟩ := int
  rw [Int.bmod_eq_iff (by decide)]
  omega

/-- The ids that uploads answer. -/
def Database.Ints {c : Collation} (db : Database c) : Prop :=
  (∀ model ∈ db.models.rows, IsInt model.id) ∧ ∀ ad ∈ db.ads.rows, IsInt ad.id

/-- What an `INSERT` does besides whose text is read otherwise than it was meant: ids are `int`s, and
no subscription goes. -/
structure MySQL.KeepsKeys (mysql : MySQL) : Prop extends mysql.AddsRows where
  ints : ∀ u db changed, mysql.otherChange u db = some changed → db.Ints → changed.db.Ints
  subscriptions : ∀ u db changed, mysql.otherChange u db = some changed →
    ∀ row ∈ db.subscriptions.rows, row ∈ changed.db.subscriptions.rows

/-- There is a row with this hash, for this model and this ad. -/
def Subscribed {c : Collation} (hash : CString) (iModelId iAdId : Int) (w : World c) : Prop :=
  ∃ row ∈ w.db.subscriptions.rows, row.hashId = some hash ∧ row.modelId = some iModelId ∧ row.adId = some iAdId

/-! ### One hash, one row -/

theorem hashed_exclusive {c : Collation} {hash : CString} {s t : Subscription}
    (apart : ∀ h, t.hashId = some h → c.hashed h s = false) (first : c.hashed hash s = true) :
    c.hashed hash t = false := by
  cases kept : t.hashId with
  | none => simp [Collation.hashed, kept]
  | some h =>
    rw [Collation.hashed, Option.any_eq_true] at first
    obtain ⟨g, some_g, same⟩ := first
    have differs := apart h kept
    rw [Collation.hashed, some_g, Option.any_some] at differs
    rw [Collation.hashed, kept, Option.any_some, Bool.eq_false_iff]
    intro second
    rw [c.symm] at second
    exact Bool.false_ne_true (differs.symm.trans (c.trans _ _ _ same second))

theorem Database.filter_hashed {c : Collation} {db : Database c} {row : Subscription} {hash : CString}
    (member : row ∈ db.subscriptions.rows) (kept : row.hashId = some hash) :
    db.subscriptions.rows.filter (c.hashed hash) = [row] := by
  have own : c.hashed hash row = true := by
    rw [Collation.hashed, kept, Option.any_some]
    exact c.refl hash
  have among : row ∈ db.subscriptions.rows.filter (c.hashed hash) := List.mem_filter.mpr ⟨member, own⟩
  have apart := db.unique.filter (c.hashed hash)
  cases rows : db.subscriptions.rows.filter (c.hashed hash) with
  | nil =>
    rw [rows] at among
    exact absurd among List.not_mem_nil
  | cons s rest =>
    have hashed : ∀ t ∈ s :: rest, c.hashed hash t = true := by
      rw [← rows]
      exact fun t inside => (List.mem_filter.mp inside).2
    rw [rows] at apart among
    -- Two rows with the hash would be two rows with one key.
    cases rest with
    | nil => rw [List.mem_singleton.mp among]
    | cons t rest =>
      have differs :=
        hashed_exclusive ((List.pairwise_cons.mp apart).1 t List.mem_cons_self) (hashed s List.mem_cons_self)
      rw [hashed t (List.mem_cons_of_mem _ List.mem_cons_self)] at differs
      cases differs

/-! ### What stays -/

section Changes
variable {c : Collation} {db : Database c} {changed : Changed c}

theorem isInt_next {α : Type} {id : α → Int} (t : Table α id) (room : ¬ Database.Full t) : IsInt t.next := by
  have positive := t.counts
  rw [Database.Full] at room
  exact ⟨by omega, by omega⟩

theorem change_ints {u : Update} (h : u.change db = some changed) (ints : db.Ints) : changed.db.Ints := by
  have others := MySQL.change_keeps h
  obtain ⟨models, ads⟩ := ints
  cases u with
  | fileAddress filePathName base64FilePathName size =>
    obtain ⟨ads', models', -, -⟩ := others
    exact ⟨models'.symm ▸ models, ads'.symm ▸ ads⟩
  | subscription ownerId modelId adId hashId =>
    obtain ⟨ads', -, models', -⟩ := others
    exact ⟨models'.symm ▸ models, ads'.symm ▸ ads⟩
  | modelDesc pcFileId mobileFileId name desc =>
    obtain ⟨after, inserted, rfl⟩ := Option.map_eq_some_iff.mp h
    rw [Database.insertModel, Option.ite_none_left_eq_some, Option.dite_none_right_eq_some] at inserted
    obtain ⟨room, -, ⟨⟩⟩ := inserted
    refine ⟨?_, ads⟩
    intro model member
    rcases List.mem_append.mp member with old | new
    · exact models model old
    · obtain rfl := List.mem_singleton.mp new
      exact isInt_next db.models fun full => room (.inl full)
  | advertisement filePathName ownerId adUrl =>
    obtain ⟨after, inserted, rfl⟩ := Option.map_eq_some_iff.mp h
    rw [Database.insertAd, Option.ite_none_left_eq_some] at inserted
    obtain ⟨room, ⟨⟩⟩ := inserted
    refine ⟨models, ?_⟩
    intro ad member
    rcases List.mem_append.mp member with old | new
    · exact ads ad old
    · obtain rfl := List.mem_singleton.mp new
      exact isInt_next db.ads fun full => room (.inl full)

theorem change_subscriptions {u : Update} (h : u.change db = some changed) :
    ∀ row ∈ db.subscriptions.rows, row ∈ changed.db.subscriptions.rows := by
  have others := MySQL.change_keeps h
  cases u with
  | fileAddress filePathName base64FilePathName size => exact fun row member => others.2.2.2 ▸ member
  | modelDesc pcFileId mobileFileId name desc => exact fun row member => others.2.2.2 ▸ member
  | advertisement filePathName ownerId adUrl => exact fun row member => others.2.2.2 ▸ member
  | subscription ownerId modelId adId hashId =>
    obtain ⟨after, inserted, rfl⟩ := Option.map_eq_some_iff.mp h
    obtain ⟨-, rows, -⟩ := Database.takes_of_insertSubscription inserted
    intro row member
    dsimp only
    rw [rows]
    exact List.mem_append_left _ member

end Changes

section Run
variable {host : Host} {env : Env} {w : World host.mysql.collation}

/-- A statement about the tables that holds before and after each `INSERT` holds before and after each call. -/
theorem exec_keeps {P : Database host.mysql.collation → Prop}
    (inserts : ∀ u db changed, host.mysql.executeUpdate u db = some changed → P db → P changed.db) (c : Call)
    (s : Connection × World host.mysql.collation) (holds : P s.2.db) : P (exec host env c s).2.2.db := by
  obtain ⟨con, w⟩ := s
  cases c with
  | connect => exact holds
  | executeQuery q => exact holds
  | readFile path => exact holds
  | writeFile path data =>
    rw [exec]
    cases writeFile env w.files path data <;> exact holds
  | executeUpdate u =>
    rw [exec]
    by_cases fails : env.fails con.statements = true
    · rw [if_pos fails]
      exact holds
    rw [if_neg fails]
    cases inserted : host.mysql.executeUpdate u w.db with
    | none => exact holds
    | some changed => exact inserts u w.db changed inserted holds

theorem turn_keeps {P : Database host.mysql.collation → Prop}
    (inserts : ∀ u db changed, host.mysql.executeUpdate u db = some changed → P db → P changed.db) (t : Turn)
    (holds : P w.db) : P (turn host t w).db :=
  Prog.Within.run (I := fun s : Connection × World host.mysql.collation => P s.2.db)
    (fun c s _ => exec_keeps inserts c s) (handle_within t.request t.method covers_all) holds

theorem run_keeps {P : Database host.mysql.collation → Prop}
    (inserts : ∀ u db changed, host.mysql.executeUpdate u db = some changed → P db → P changed.db)
    (turns : List Turn) (holds : P w.db) : P (run (turn host) w turns).db := by
  induction turns generalizing w with
  | nil => exact holds
  | cons t turns ih => exact ih (turn_keeps inserts t holds)

theorem executeUpdate_ints (keeps : host.mysql.KeepsKeys) (u : Update) (db : Database host.mysql.collation)
    (changed : Changed host.mysql.collation) (h : host.mysql.executeUpdate u db = some changed) (ints : db.Ints) :
    changed.db.Ints := by
  rw [MySQL.executeUpdate] at h
  split at h
  · exact change_ints h ints
  · exact keeps.ints u db changed h ints

theorem executeUpdate_subscription (keeps : host.mysql.KeepsKeys) (row : Subscription) (u : Update)
    (db : Database host.mysql.collation) (changed : Changed host.mysql.collation)
    (h : host.mysql.executeUpdate u db = some changed) (member : row ∈ db.subscriptions.rows) :
    row ∈ changed.db.subscriptions.rows := by
  rw [MySQL.executeUpdate] at h
  split at h
  · exact change_subscriptions h row member
  · exact keeps.subscriptions u db changed h row member

theorem Subscribed.afterRun {hash : CString} {iModelId iAdId : Int} (keeps : host.mysql.KeepsKeys)
    (subscribed : Subscribed hash iModelId iAdId w) (turns : List Turn) :
    Subscribed hash iModelId iAdId (run (turn host) w turns) := by
  obtain ⟨row, member, refers⟩ := subscribed
  have stays : row ∈ (run (turn host) w turns).db.subscriptions.rows :=
    run_keeps (P := fun db => row ∈ db.subscriptions.rows) (executeUpdate_subscription keeps row) turns member
  exact ⟨row, stays, refers⟩

end Run

/-! ### Its creation -/

/-- The id that is answered is that of a row for this model and this ad. -/
def SubscribedAs (host : Host) (iModelId iAdId : Int) (reply : Reply) (w : World host.mysql.collation) : Prop :=
  ∃ seed j, reply.subscriptionId = some (widened (candidate host seed j)) ∧
    Subscribed (candidate host seed j) iModelId iAdId w

section Creation
variable {host : Host} {env : Env} {params : Params} {w : World host.mysql.collation} {con : Connection}
  {reply : Reply} {P : Reply → World host.mysql.collation → Prop} {iModelId iAdId iOwnerId : Int}

theorem ifOk_query {q : Query} {k : q.Result → Program Reply}
    (after : ∀ r con', IfOk P (runOn host env (k r) con' w)) :
    IfOk P (runOn host env (executeQuery q >>= k) con w) := by
  rw [runOn_query]
  cases answer host env con w q with
  | none => exact ifOk_error
  | some r => exact after r _

theorem ifOk_modelExists {k : Bool × Reply → Program Reply} (refused : reply.Refused)
    (after : ∀ found reply' con', reply'.Refused → IfOk P (runOn host env (k (found, reply')) con' w)) :
    IfOk P (runOn host env (modelExists iOwnerId iModelId reply >>= k) con w) := by
  rw [modelExists]
  split
  · rw [Prog.bind_assoc]
    refine ifOk_query fun row con' => ?_
    cases row with
    | none => exact after _ _ _ (refused.outcome _ (by decide) (by decide))
    | some row => exact after _ _ _ refused
  · exact after _ _ _ refused

theorem ifOk_adExists {k : Bool × Reply → Program Reply} (refused : reply.Refused)
    (after : ∀ found reply' con', reply'.Refused → IfOk P (runOn host env (k (found, reply')) con' w)) :
    IfOk P (runOn host env (adExists iOwnerId iAdId reply >>= k) con w) := by
  rw [adExists]
  split
  · rw [Prog.bind_assoc]
    refine ifOk_query fun row con' => ?_
    cases row with
    | none => exact after _ _ _ (refused.outcome _ (by decide) (by decide))
    | some row => exact after _ _ _ refused
  · exact after _ _ _ refused

/-- Whatever hash the loop comes to, it is one of its own. -/
theorem ifOk_chooseHash {seed attempts k : Nat} {next : CString → Program Reply}
    (after : ∀ j con', IfOk P (runOn host env (next (candidate host seed j)) con' w)) :
    IfOk P (runOn host env (chooseHash host seed attempts k >>= next) con w) := by
  induction attempts generalizing k con with
  | zero => exact ifOk_error
  | succ attempts ih =>
    rw [chooseHash, Prog.bind_assoc]
    refine ifOk_query fun res con' => ?_
    split
    · exact after k con'
    · exact ih

theorem ifOk_insertSubscription {found : Bool} (refused : reply.Refused) :
    IfOk (SubscribedAs host iModelId iAdId)
      (runOn host env (insertSubscription host env iOwnerId iModelId iAdId found reply) con w) := by
  rw [insertSubscription]
  split
  swap
  · exact ifOk_refused refused
  refine ifOk_chooseHash fun j con' => ?_
  rw [runOn_insertLast, changes_eq _ _ whole_subscription, Update.change]
  by_cases fails : env.fails con'.statements = true
  · rw [if_pos fails]
    exact ifOk_error
  rw [if_neg fails]
  cases inserted : w.db.insertSubscription iOwnerId iModelId iAdId (candidate host env.tickCount j) with
  | none => exact ifOk_error
  | some after =>
    obtain ⟨-, rows, -⟩ := Database.takes_of_insertSubscription inserted
    rw [Option.map_some]
    dsimp only
    rw [if_neg Nat.one_ne_zero]
    split
    · exact ifOk_error
    split
    · intro reply' returned _
      obtain rfl := Except.ok.inj returned
      refine ⟨env.tickCount, j, congrArg some (jsonString_candidate env.tickCount j),
        ⟨w.db.subscriptions.next, some iOwnerId, some iModelId, some iAdId, some (candidate host env.tickCount j)⟩,
        ?_, rfl, rfl, rfl⟩
      dsimp only
      rw [rows]
      exact List.mem_append_right _ List.mem_cons_self
    · exact ifOk_refused refused

theorem ifOk_createSubscription (model : fieldNumber params "model_id" = .ok iModelId)
    (ad : fieldNumber params "ad_id" = .ok iAdId) : IfOk (SubscribedAs host iModelId iAdId)
      (runAlone host env (onCreateSubscription host env params .initial) w) := by
  change IfOk _ (runOn host env (onCreateSubscription host env params .initial) .opened w)
  have owned {reply : Reply} {con : Connection} {iOwnerId : Int} (refused : reply.Refused) :
      IfOk (SubscribedAs host iModelId iAdId) (runOn host env (do
        let iModelId ← integerAt params "model_id"
        let model ← modelExists iOwnerId iModelId reply
        let iAdId ← integerAt params "ad_id"
        let ad ← adExists iOwnerId iAdId model.2
        insertSubscription host env iOwnerId iModelId iAdId (ad.1 && model.1) ad.2) con w) := by
    rw [runOn_number, model]
    refine ifOk_modelExists refused fun bModelExists reply' con' refused' => ?_
    dsimp only
    rw [runOn_number, ad]
    exact ifOk_adExists refused' fun bAdExists reply'' con'' refused'' => ifOk_insertSubscription refused''
  rw [onCreateSubscription, runOn_connect]
  split
  swap
  · exact ifOk_error
  rw [runOn_fetchUser]
  cases checkedUser host env params .opened w with
  | error e => exact ifOk_error
  | ok rows =>
    have refused : (lookedUp rows "Invalid username or password!" .invalidUserPass .forbidden .initial).Refused :=
      lookedUp_refused rows (by decide) (by decide) refused_initial
    dsimp only
    by_cases known : (lastInt rows fun row => some row.id) = -1
    · rw [fetchOwner, if_neg (not_not_intro known), Prog.pure_bind]
      exact owned refused
    rw [runOn_fetchOwner _ known]
    cases checkedOwner host env params Connection.opened.next w with
    | error e => exact ifOk_error
    | ok owners => exact owned (lookedUp_refused owners (by decide) (by decide) refused)

end Creation

/-! ### Its id -/

/-- The one of both ids that is for this kind of upload. -/
def Item.among (iModelId iAdId : Int) : Item → Int
  | model => iModelId
  | ad => iAdId

/-- The column of the row is what an item was uploaded as. -/
theorem Subscribed.requested {host : Host} {env : Env} {params : Params} {w : World host.mysql.collation}
    {seed j : Nat} {iModelId iAdId : Int} (subscribed : Subscribed (candidate host seed j) iModelId iAdId w)
    (asks : params.lookup (wide "subsid") = some (.string (widened (candidate host seed j)))) (works : env.Works)
    (whole : env.saving = .whole) (item : Item) :
    Requested host item (item.among iModelId iAdId) env params w where
  works := works
  whole := whole
  refers := by
    obtain ⟨row, member, kept, model, ad⟩ := subscribed
    refine ⟨[row], ?_, ?_⟩
    · rw [checkedSubscription, lookup_candidate params asks, ok_bind,
        answer_eq (q := .subscription (candidate host seed j)) _ _
          (List.forall_mem_singleton.mpr (plain_candidate host seed j).whole), works.fails,
        if_neg Bool.false_ne_true, Query.result, Database.filter_hashed member kept]
      rfl
    · cases item with
      | model => exact congrArg (Option.getD · 0) model
      | ad => exact congrArg (Option.getD · 0) ad

end ModelPublish.Server
