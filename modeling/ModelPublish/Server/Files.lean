import ModelPublish.Server.Footprint
import ModelPublish.Server.Steps

/-!
# The files of the server

Which files and which rows of files there are after any number of requests. A file that a row names never has
the extension twice.
-/

namespace ModelPublish.Server
open Machine

/-- A file that the server may have written: a model, an ad, or what it has saved of one as text. -/
def OwnPath (host : Host) (path : CString) : Prop :=
  (∃ uuid : Uuid, path = fullFilePathName host modelFilePath (uuid.chars ++ modelFileExtension)) ∨
  (∃ uuid : Uuid, path = fullFilePathName host adFilePath (uuid.chars ++ adFileExtension)) ∨
  ∃ saved, path = saved ++ base64Suffix

structure OwnFiles (host : Host) {c : Collation} (w : World c) : Prop where
  rows : ∀ row ∈ w.db.files.rows, ∃ uuid : Uuid, row.filePathName = uuid.chars ++ modelFileExtension
  files : ∀ path, (w.files path).isSome → OwnPath host path

/-- A call that keeps to the files of the server. -/
def Owns (host : Host) (env : Env) : Call → Prop
  | .executeUpdate u => OwnRow env u
  | .writeFile path _ => OwnPath host path
  | _ => True

section Paths
variable {host : Host} {env : Env} {params : Params}

theorem covers_owns : Covers host env params (Owns host env) where
  connect := trivial
  query := fun _ _ => trivial
  hash := fun _ _ => trivial
  update := fun _ _ own => own
  read := fun _ => trivial
  model := fun _ => .inl ⟨env.uuid, rfl⟩
  ad := fun _ => .inr (.inl ⟨env.uuid, rfl⟩)
  saved := fun path _ => .inr (.inr ⟨path, rfl⟩)

theorem getLast_of_append {p q : CString} (some_char : q ≠ []) : (p ++ q).getLast? = q.getLast? := by
  rw [List.getLast?_append, List.getLast?_eq_some_getLast some_char, Option.some_or]

theorem modelFileExtension_ne_saved (p saved : CString) : p ++ modelFileExtension ≠ saved ++ base64Suffix := by
  intro same
  have last := congrArg List.getLast? same
  rw [getLast_of_append (by decide), getLast_of_append (by decide)] at last
  exact absurd last (by decide)

theorem adFileExtension_ne_saved (p saved : CString) : p ++ adFileExtension ≠ saved ++ base64Suffix := by
  intro same
  have last := congrArg List.getLast? same
  rw [getLast_of_append (by decide), getLast_of_append (by decide)] at last
  exact absurd last (by decide)

theorem modelFilePath_ne_adFilePath (p q : CString) :
    fullFilePathName host modelFilePath p ≠ fullFilePathName host adFilePath q := by
  rw [fullFilePathName, fullFilePathName, List.append_assoc, List.append_assoc]
  intro same
  have heads : some (77 : UInt8) = some 65 := congrArg List.head? (List.append_cancel_left same)
  exact absurd heads (by decide)

theorem not_ownPath_twice (uuid : Uuid) : ¬ OwnPath host
    (fullFilePathName host modelFilePath (uuid.chars ++ modelFileExtension) ++ modelFileExtension) := by
  rintro (⟨other, same⟩ | ⟨other, same⟩ | ⟨saved, same⟩)
  · rw [fullFilePathName, fullFilePathName, List.append_assoc] at same
    have lengths := congrArg List.length (List.append_cancel_left same)
    simp only [List.length_append, uuid.length, other.length] at lengths
    exact absurd lengths (by decide)
  · rw [fullFilePathName, List.append_assoc] at same
    exact modelFilePath_ne_adFilePath _ _ same
  · exact modelFileExtension_ne_saved _ _ same

end Paths

section Keeps
variable {host : Host} {env : Env} {c : Call} {s : Connection × World host.mysql.collation}

theorem ownFiles_exec (owns : Owns host env c) (own : OwnFiles host s.2) : OwnFiles host (exec host env c s).2.2 := by
  obtain ⟨con, w⟩ := s
  cases c with
  | connect => exact own
  | executeQuery q => exact own
  | readFile path => exact own
  | writeFile path data =>
    rw [exec]
    cases written : writeFile env w.files path data with
    | none => exact own
    | some files =>
      obtain ⟨content, -, rfl⟩ := Option.map_eq_some_iff.mp written
      refine ⟨own.rows, fun other found => ?_⟩
      by_cases same : other = path
      · rw [same]
        exact owns
      · dsimp only at found
        rw [Function.update_of_ne same] at found
        exact own.files other found
  | executeUpdate u =>
    rw [exec]
    by_cases fails : env.fails con.statements = true
    · rw [if_pos fails]
      exact own
    rw [if_neg fails]
    cases inserted : host.mysql.executeUpdate u w.db with
    | none => exact own
    | some changed =>
      refine ⟨?_, own.files⟩
      have keeps := MySQL.executeUpdate_keeps inserted
      cases u with
      | fileAddress filePathName base64FilePathName size =>
        obtain ⟨rfl, rfl⟩ := owns
        dsimp only
        rw [(executeUpdate_fileRow inserted).2]
        intro row member
        rcases List.mem_append.mp member with old | new
        · exact own.rows row old
        · rw [List.mem_singleton.mp new]
          exact ⟨env.uuid, rfl⟩
      | modelDesc => exact keeps.2.1 ▸ own.rows
      | advertisement => exact keeps.1 ▸ own.rows
      | subscription => exact keeps.2.1 ▸ own.rows

end Keeps
end ModelPublish.Server
