import ModelPublish.Server.Listener

/-!
# One call after the other

What each call and each stage of the handlers comes to, so that a handler can be followed through.
-/

namespace ModelPublish.Server
open Machine

def statement (n : Nat) : Connection := ⟨n, 0⟩

section Given
variable (host : Host) (env : Env) (params : Params)

/-- What a query on a connection is answered. -/
def answer (con : Connection) (w : World host.mysql.collation) (q : Query) : Option q.Result :=
  if env.fails con.statements then none else host.mysql.executeQuery q w.db con.lastInsertId

def changes (con : Connection) (w : World host.mysql.collation) (u : Update) :
    Option (Changed host.mysql.collation) :=
  if env.fails con.statements then none else host.mysql.executeUpdate u w.db

def fieldText (key : String) : Except Stop CString :=
  match params.lookup (wide key) with
  | some (.string s) =>
    let sz := host.page.narrowInto 0 256 s
    if sz.length = 256 then .error .undefined else .ok sz
  | _ => .error .jsonException

def fieldNumber (key : String) : Except Stop Int :=
  match params.lookup (wide key) with
  | some (.number value) => .ok (value.bmod (2 ^ 32))
  | _ => .error .jsonException

/-- The program returns, to whatever. -/
def Returns {α : Type} (p : Program α) (s : Connection × World host.mysql.collation) : Prop :=
  ∃ a s', p.run (exec host env) s = (.ok a, s')

end Given

section Runs
variable {host : Host} {env : Env} {params : Params} {α β : Type} {con : Connection}
  {w : World host.mysql.collation} {s : Connection × World host.mysql.collation}

theorem run_connect (k : Unit → Program α) : (connect >>= k).run (exec host env) s =
    if env.connects then (k ()).run (exec host env) s else (.error .sqlException, s) := by
  rw [Prog.run_bind, connect, Prog.run_ask, exec]
  cases env.connects <;> rfl

theorem run_query (q : Query) (k : q.Result → Program α) :
    (executeQuery q >>= k).run (exec host env) (con, w) =
      match answer host env con w q with
      | none => (.error .sqlException, con.next, w)
      | some r => (k r).run (exec host env) (con.next, w) := by
  rw [Prog.run_bind, executeQuery, Prog.run_ask, exec, answer]
  by_cases fails : env.fails con.statements = true
  · rw [if_pos fails, if_pos fails]
  · rw [if_neg fails, if_neg fails]
    cases host.mysql.executeQuery q w.db con.lastInsertId <;> rfl

theorem run_update (u : Update) (k : Nat → Program α) :
    (executeUpdate u >>= k).run (exec host env) (con, w) =
      match changes host env con w u with
      | none => (.error .sqlException, con.next, w)
      | some changed => (k changed.rows).run (exec host env)
        (⟨con.statements + 1, changed.id⟩, { w with db := changed.db }) := by
  rw [Prog.run_bind, executeUpdate, Prog.run_ask, exec, changes]
  by_cases fails : env.fails con.statements = true
  · rw [if_pos fails, if_pos fails]
  · rw [if_neg fails, if_neg fails]
    cases host.mysql.executeUpdate u w.db <;> rfl

theorem run_readFile (path : CString) (k : Option (List UInt8) → Program α) :
    (readFile path >>= k).run (exec host env) s = (k (s.2.files path)).run (exec host env) s := by
  rw [Prog.run_bind, readFile, Prog.run_ask]
  rfl

theorem run_saveFile (path : CString) (data : List UInt8) (k : Unit → Program α) :
    (saveFile path data >>= k).run (exec host env) (con, w) =
      match writeFile env w.files path data with
      | none => (.error .undefined, con, w)
      | some files => (k ()).run (exec host env) (con, { w with files := files }) := by
  rw [Prog.run_bind, saveFile, Prog.run_ask, exec]
  cases writeFile env w.files path data <;> rfl

theorem writeFile_isSome {files : CString → Option (List UInt8)} {path : CString} {data : List UInt8} :
    (∃ after, writeFile env files path data = some after) ↔ env.saving ≠ .refused := by
  unfold writeFile
  cases env.saving <;> simp [Saving.stored]

theorem writeFile_none {files : CString → Option (List UInt8)} {path : CString} {data : List UInt8} :
    writeFile env files path data = none ↔ env.saving = .refused := by
  rw [← not_iff_not, ← ne_eq, Option.ne_none_iff_exists', writeFile_isSome]

/-- A field that is converted into its buffer, and what is done with the text. -/
theorem field_eq (key : String) (k : CString → Program α) :
    (stringAt params key >>= fun s => buffer host s >>= k) =
      match fieldText host params key with
      | .error e => .stop e
      | .ok p => k p := by
  rw [stringAt, fieldText]
  cases params.lookup (wide key) with
  | none => rfl
  | some value =>
    cases value with
    | string t =>
      rw [Prog.pure_bind, buffer]
      dsimp only
      by_cases full : (host.page.narrowInto 0 256 t).length = 256
      · rw [if_pos full, if_pos full]
        rfl
      · rw [if_neg full, if_neg full]
        rfl
    | _ => rfl

theorem run_field (key : String) (k : CString → Program α) :
    (stringAt params key >>= fun s => buffer host s >>= k).run (exec host env) s =
      match fieldText host params key with
      | .error e => (.error e, s)
      | .ok p => (k p).run (exec host env) s := by
  rw [field_eq]
  cases fieldText host params key <;> rfl

theorem run_number (key : String) (k : Int → Program α) :
    (integerAt params key >>= k).run (exec host env) s =
      match fieldNumber params key with
      | .error e => (.error e, s)
      | .ok n => (k n).run (exec host env) s := by
  rw [integerAt, fieldNumber]
  cases params.lookup (wide key) with
  | none => rfl
  | some value => cases value <;> rfl

/-! ### What returns -/

@[simp] theorem returns_pure (a : α) : Returns host env (pure a) s := ⟨a, s, rfl⟩

@[simp] theorem not_returns_stop (e : Stop) : ¬ Returns host env (.stop e : Program α) s := by
  rintro ⟨a, s', ran⟩
  cases ran

theorem returns_connect (k : Unit → Program α) :
    Returns host env (connect >>= k) s ↔ env.connects = true ∧ Returns host env (k ()) s := by
  rw [Returns, run_connect]
  split
  · rename_i connects
    exact ⟨fun h => ⟨connects, h⟩, fun h => h.2⟩
  · rename_i refused
    refine ⟨?_, fun h => absurd h.1 refused⟩
    rintro ⟨a, s', ran⟩
    cases ran

theorem returns_query (q : Query) (k : q.Result → Program α) :
    Returns host env (executeQuery q >>= k) (con, w) ↔
      ∃ r, answer host env con w q = some r ∧ Returns host env (k r) (con.next, w) := by
  rw [Returns, run_query]
  cases answer host env con w q with
  | none => simp
  | some r => simp [Returns]

theorem returns_update (u : Update) (k : Nat → Program α) :
    Returns host env (executeUpdate u >>= k) (con, w) ↔
      ∃ changed, changes host env con w u = some changed ∧ Returns host env (k changed.rows)
        (⟨con.statements + 1, changed.id⟩, { w with db := changed.db }) := by
  rw [Returns, run_update]
  cases changes host env con w u with
  | none => simp
  | some changed => simp [Returns]

theorem returns_readFile (path : CString) (k : Option (List UInt8) → Program α) :
    Returns host env (readFile path >>= k) s ↔ Returns host env (k (s.2.files path)) s := by
  rw [Returns, run_readFile, Returns]

theorem returns_saveFile (path : CString) (data : List UInt8) (k : Unit → Program α) :
    Returns host env (saveFile path data >>= k) (con, w) ↔
      ∃ files, writeFile env w.files path data = some files ∧
        Returns host env (k ()) (con, { w with files := files }) := by
  rw [Returns, run_saveFile]
  cases writeFile env w.files path data with
  | none => simp
  | some files => simp [Returns]

theorem returns_field (key : String) (k : CString → Program α) :
    Returns host env (stringAt params key >>= fun s => buffer host s >>= k) s ↔
      ∃ p, fieldText host params key = .ok p ∧ Returns host env (k p) s := by
  rw [Returns, run_field]
  cases fieldText host params key with
  | error e => simp
  | ok p => simp [Returns]

theorem returns_number (key : String) (k : Int → Program α) :
    Returns host env (integerAt params key >>= k) s ↔
      ∃ n, fieldNumber params key = .ok n ∧ Returns host env (k n) s := by
  rw [Returns, run_number]
  cases fieldNumber params key with
  | error e => simp
  | ok n => simp [Returns]

theorem returns_ite {c : Prop} [Decidable c] {p q : Program α} :
    Returns host env (if c then p else q) s ↔ (c → Returns host env p s) ∧ (¬ c → Returns host env q s) := by
  split <;> simp [*]

end Runs
end ModelPublish.Server
