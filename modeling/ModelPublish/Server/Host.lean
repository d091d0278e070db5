import ModelPublish.Machine.Program
import ModelPublish.Server.Database

/-!
# What the server runs on

Strings and JSON as the handlers see them, and the calls they make: to MySQL and to the files of the
server. A request is also given what the system hands out: a UUID, the tick count, memory that was not
written yet, and which of its calls fail.
-/

namespace ModelPublish.Server
open Machine (Prog)

/-- `wstring`. -/
abbrev WString : Type := List UInt16

def wide (s : String) : WString := s.toList.map fun c => c.toNat.toUInt16

def widened (p : CString) : WString := p.map UInt8.toUInt16

/-- The ANSI code page. For a character it lacks, `WideCharToMultiByte` writes the one it is given. -/
structure CodePage where
  narrow : UInt8 → WString → CString
  widen : CString → WString
  narrow_ascii : ∀ d p, (∀ c ∈ p, c < 128) → narrow d (widened p) = p
  widen_ascii : ∀ p, (∀ c ∈ p, c < 128) → widen p = widened p

/-- `atlenc.h`. -/
structure Base64 where
  encode : List UInt8 → CString
  decode : CString → List UInt8
  requiredLength : Nat → Nat

/-- `web::uri`. `decode` throws when a `%` is not followed by two hexadecimal digits. -/
structure Uri where
  decode : WString → Option WString
  splitPath : WString → List WString
  splitQuery : WString → List (WString × WString)

structure Host where
  page : CodePage
  base64 : Base64
  uri : Uri
  mysql : MySQL
  m_szServerRootFolder : CString
  /-- What `rand` returns after `srand ( seed )`, call by call. -/
  rand : Nat → Nat → Nat

inductive Json where
  | null
  | boolean (b : Bool)
  | number (value : Int)
  | string (s : WString)
  | array (items : List Json)
  | object (fields : List (WString × Json))

/-- How a handler is left other than by returning. -/
inductive Stop where
  | jsonException
  | sqlException
  | uriException
  | atlException
  /-- The program does something that C++ leaves undefined. -/
  | undefined
  /-- The loop for a hash went on as often as it was let. -/
  | endless
  deriving DecidableEq

/-! ### The reply -/

/-- The `MS_ERROR_` codes. -/
inductive ErrorCode where
  | ok
  | subscriptionNotFound
  | modelNotFound
  | fileAddressNotFound
  | couldNotOpenFile
  | adNotFound
  | unknownClient
  | unknownMethod
  | db
  | invalidUserPass
  | unknown
  deriving DecidableEq

/-- `GlobalDefines.h`. -/
def ErrorCode.value : ErrorCode → Nat
  | ok => 0
  | subscriptionNotFound => 1
  | modelNotFound => 2
  | fileAddressNotFound => 3
  | couldNotOpenFile => 4
  | adNotFound => 5
  | unknownClient => 6
  | unknownMethod => 7
  | db => 8
  | invalidUserPass => 9
  | unknown => 100

inductive Status where
  | ok
  | badRequest
  | forbidden
  | notFound
  | serviceUnavailable
  deriving DecidableEq

def Status.value : Status → Nat
  | ok => 200
  | badRequest => 400
  | forbidden => 403
  | notFound => 404
  | serviceUnavailable => 503

/-- `answer` and `http_result`. -/
structure Reply where
  errorMessage : String
  errorCode : ErrorCode
  httpResult : Status
  model : Option WString := none
  ad : Option WString := none
  url : Option WString := none
  info : Option WString := none
  size : Option Nat := none
  modelId : Option Int := none
  adId : Option Int := none
  subscriptionId : Option WString := none
  deriving DecidableEq

namespace Reply

def initial : Reply := { errorMessage := "Unknown error", errorCode := .unknown, httpResult := .serviceUnavailable }

/-- The three fields that each outcome sets. -/
def outcome (r : Reply) (message : String) (code : ErrorCode) (status : Status) : Reply :=
  { r with errorMessage := message, errorCode := code, httpResult := status }

def success (r : Reply) : Reply := r.outcome "Success" .ok .ok

end Reply

/-! ### Calls -/

/-- What becomes of a file that is opened with `"wb"` and written. -/
inductive Saving where
  | refused
  | partly (n : Nat)
  | whole
  deriving DecidableEq

def Saving.stored (data : List UInt8) : Saving → Option (List UInt8)
  | refused => none
  | partly n => some (data.take n)
  | whole => some data

structure Uuid where
  chars : CString
  length : chars.length = 36
  plain : ∀ c ∈ chars, c = 45 ∨ (48 ≤ c ∧ c ≤ 57) ∨ (97 ≤ c ∧ c ≤ 102)
  deriving DecidableEq

/-- What the system gives to one request. `fails n` is about its statement number `n`. -/
structure Env where
  connects : Bool
  fails : Nat → Bool
  saving : Saving
  uuid : Uuid
  tickCount : Nat
  memory : Nat → UInt8
  /-- How many hashes the loop for a new one may try. -/
  attempts : Nat

inductive Call where
  | connect
  | executeQuery (q : Query)
  | executeUpdate (u : Update)
  | readFile (path : CString)
  | writeFile (path : CString) (data : List UInt8)

abbrev Call.result : Call → Type
  | connect => Unit
  | executeQuery q => q.Result
  | executeUpdate _ => Nat
  | readFile _ => Option (List UInt8)
  | writeFile _ _ => Unit

abbrev Program : Type → Type := Prog Call.result Stop

structure World (c : Collation) where
  db : Database c
  files : CString → Option (List UInt8)

/-- A connection: the statements it has carried so far and its `LAST_INSERT_ID`. -/
structure Connection where
  statements : Nat
  lastInsertId : Int

def Connection.opened : Connection := ⟨0, 0⟩

def Connection.next (con : Connection) : Connection := { con with statements := con.statements + 1 }

section Calls
variable (host : Host) (env : Env)

def writeFile (files : CString → Option (List UInt8)) (path : CString) (data : List UInt8) :
    Option (CString → Option (List UInt8)) :=
  (env.saving.stored data).map fun content => Function.update files path (some content)

/-- A file that does not open for writing is a `NULL` that `fwrite` is called with. -/
def exec : (c : Call) → Connection × World host.mysql.collation →
    Except Stop c.result × Connection × World host.mysql.collation
  | .connect, s => (if env.connects then .ok () else .error .sqlException, s)
  | .executeQuery q, (con, w) =>
    (if env.fails con.statements then .error .sqlException
      else match host.mysql.executeQuery q w.db con.lastInsertId with
        | none => .error .sqlException
        | some result => .ok result, con.next, w)
  | .executeUpdate u, (con, w) =>
    if env.fails con.statements then (.error .sqlException, con.next, w)
    else match host.mysql.executeUpdate u w.db with
      | none => (.error .sqlException, con.next, w)
      | some changed => (.ok changed.rows, ⟨con.statements + 1, changed.id⟩, { w with db := changed.db })
  | .readFile path, (con, w) => (.ok (w.files path), con, w)
  | .writeFile path data, (con, w) =>
    match writeFile env w.files path data with
    | none => (.error .undefined, con, w)
    | some files => (.ok (), con, { w with files := files })

end Calls

def connect : Program Unit := .ask Call.connect

def executeQuery (q : Query) : Program q.Result := .ask (Call.executeQuery q)

def executeUpdate (u : Update) : Program Nat := .ask (Call.executeUpdate u)

def readFile (path : CString) : Program (Option (List UInt8)) := .ask (Call.readFile path)

def saveFile (path : CString) (data : List UInt8) : Program Unit := .ask (Call.writeFile path data)

end ModelPublish.Server
