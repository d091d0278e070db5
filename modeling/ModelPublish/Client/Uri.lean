import ModelPublish.Server.Host
import ModelPublish.Text.Percent

/-!
# web::uri

URIs as the C++ REST SDK reads, builds, encodes and splits them.
-/

namespace ModelPublish.Rest
open Server

/-! ### Characters -/

/-- Of the character as a `char`. -/
def isAlnum (c : UInt16) : Bool :=
  let ch := c.toUInt8
  (48 ≤ ch && ch ≤ 57) || (65 ≤ ch && ch ≤ 90) || (97 ≤ ch && ch ≤ 122)

def isUnreserved (c : UInt16) : Bool := isAlnum c || (wide "-._~").contains c

def isGenDelim (c : UInt16) : Bool := (wide ":/?#[]@").contains c

def isSubDelim (c : UInt16) : Bool := (wide "!$&'()*+,;=").contains c

def isReserved (c : UInt16) : Bool := isGenDelim c || isSubDelim c

def isSchemeCharacter (c : UInt16) : Bool := isAlnum c || (wide "+-.").contains c

def isUserInfoCharacter (c : UInt16) : Bool := isUnreserved c || isSubDelim c || (wide "%:").contains c

def isAuthorityCharacter (c : UInt16) : Bool := isUnreserved c || isSubDelim c || (wide "%@:[]").contains c

def isPathCharacter (c : UInt16) : Bool := isUnreserved c || isSubDelim c || (wide "%/:@").contains c

def isQueryCharacter (c : UInt16) : Bool := isPathCharacter c || c == 63

def isFragmentCharacter (c : UInt16) : Bool := isQueryCharacter c

def isAlpha (c : UInt16) : Bool := (65 ≤ c && c ≤ 90) || (97 ≤ c && c ≤ 122)

def isDigit (c : UInt16) : Bool := 48 ≤ c && c ≤ 57

def toLower (c : UInt16) : UInt16 := if 65 ≤ c ∧ c ≤ 90 then c + 32 else c

theorem ascii_of_isQueryCharacter {ch : UInt8} (legal : isQueryCharacter ch.toUInt16 = true) : ch < 128 := by
  have all : ∀ n < 256, isQueryCharacter n.toUInt8.toUInt16 = true → n < 128 := by decide +kernel
  have value : ch.toNat.toUInt8 = ch := UInt8.ofNat_toNat
  exact UInt8.lt_iff_toNat_lt.mpr (all ch.toNat ch.toNat_lt (by rw [value]; exact legal))

/-! ### Parsing and joining -/

/-- `uri_components`, and so a `uri` and a `uri_builder`. -/
structure Components where
  scheme : WString := []
  userInfo : WString := []
  host : WString := []
  port : Int := -1
  path : WString := wide "/"
  query : WString := []
  fragment : WString := []
  deriving DecidableEq

/-- A component that runs to a character of `stops`, and what is behind it. -/
def scanTo (stops : WString) (legal : UInt16 → Bool) (p : WString) : Option (WString × WString) :=
  let component := p.takeWhile fun c => !stops.contains c
  if component.all legal then some (component, p.dropWhile fun c => !stops.contains c) else none

/-- A colon before the first slash ends a scheme. -/
def readScheme (p : WString) : Option (WString × WString) :=
  if (p.dropWhile fun c => c != 58 && c != 47).head? = some 58 then
    match p.takeWhile (· != 58) with
    | c :: scheme =>
      if isAlpha c ∧ scheme.all isSchemeCharacter then some (c :: scheme, (p.dropWhile (· != 58)).tail) else none
    | [] => none
  else some ([], p)

/-- What stands behind two slashes. -/
def readServer : WString → Option (WString × WString)
  | 47 :: 47 :: p => scanTo (wide "/?#") isAuthorityCharacter p
  | p => some ([], p)

structure Authority where
  userInfo : WString
  host : WString
  port : Int

/-- The digits behind a last colon are the port. `scanString` is `scan_string<int>`. -/
def readAuthority (scanString : WString → Int) (authority : WString) : Authority :=
  let before := authority.rdropWhile isDigit
  let (host, port) := if before.getLast? = some 58 then (before.dropLast, scanString (authority.rtakeWhile isDigit))
    else (authority, 0)
  match host.dropWhile isUserInfoCharacter with
  | 64 :: rest => ⟨host.takeWhile isUserInfoCharacter, rest, port⟩
  | _ => ⟨[], host, port⟩

/-- The path, the query and the fragment. -/
def readResource (p : WString) : Option (WString × WString × WString) := do
  let (path, p) ← if p.head?.any isPathCharacter then scanTo (wide "?#") isPathCharacter p else some (wide "/", p)
  let (query, p) ← match p with
    | 63 :: p => scanTo (wide "#") isQueryCharacter p
    | p => some ([], p)
  let (fragment, _) ← match p with
    | 35 :: p => scanTo [] isFragmentCharacter p
    | p => some ([], p)
  some (path, query, fragment)

section Reading
variable (scanString : WString → Int)

/-- `parse_from` and `write_to`. -/
def parse (encoded : WString) : Option Components := do
  let (scheme, p) ← readScheme (encoded.takeWhile (· != 0))
  let (authority, p) ← readServer p
  let (path, query, fragment) ← readResource p
  let ⟨userInfo, host, port⟩ := readAuthority scanString authority
  some ⟨scheme.map toLower, userInfo, host.map toLower, port, path, query, fragment⟩

/-- What `join` does to the components. -/
def Components.canonical (c : Components) : Components :=
  { c with
    scheme := c.scheme.map toLower
    host := c.host.map toLower
    path := if c.host ≠ [] ∧ c.path.head? ≠ some 47 then 47 :: c.path else c.path }

def address (host : WString) (port : Int) : WString := host ++ if 0 < port then 58 :: widened (decimal port) else []

def Components.authority (c : Components) : WString :=
  (if c.userInfo = [] then [] else c.userInfo ++ wide "@") ++ address c.host c.port

/-- What `join` returns. -/
def Components.text (c : Components) : WString :=
  (if c.scheme = [] then [] else c.scheme ++ wide ":") ++ (if c.host = [] then [] else wide "//" ++ c.authority) ++
    c.path ++ (if c.query = [] then [] else wide "?" ++ c.query) ++
    (if c.fragment = [] then [] else wide "#" ++ c.fragment)

/-- `uri ( const char_t* )`. -/
def ofString (uri_string : WString) : Option Components := (parse scanString uri_string).map Components.canonical

/-- `uri ( const uri_components& )`, which throws when the joined text is invalid. -/
def Components.toUri (c : Components) : Option Components :=
  if (parse scanString c.canonical.text).isSome then some c.canonical else none

def Components.resource (c : Components) : Option Components :=
  Components.toUri scanString { path := c.path, query := c.query, fragment := c.fragment }

end Reading

/-! ### Encoding and splitting -/

def shouldEncodeQuery (ch : UInt8) : Bool :=
  (Percent.narrow (wide "&;=%+")).contains ch || !isQueryCharacter ch.toUInt16

def encodeQueryImpl (raw : List UInt8) : WString := Percent.encode shouldEncodeQuery raw

def shouldEncodeUri (ch : UInt8) : Bool := !isUnreserved ch.toUInt16 && !isReserved ch.toUInt16

/-- `encode_uri` for a full URI. -/
def encodeUri (raw : WString) : Option WString := (Percent.toUtf8 raw).map (Percent.encode shouldEncodeUri)

def decode (encoded : WString) : Option WString := Percent.decode encoded >>= Percent.ofUtf8

def splitPath (path : WString) : List WString := (path.splitOn 47).filter (· ≠ [])

/-- Pairs end at `&`, and behind the last `&` at `;`. -/
def pairs (query : WString) : List WString :=
  (query.splitOn 38).dropLast ++ ((query.splitOn 38).getLastD []).splitOn 59

def keyValue (pair : WString) : Option (WString × WString) :=
  if pair.contains 61 then some (pair.takeWhile (· != 61), (pair.dropWhile (· != 61)).tail) else none

/-- The value that a key has got last stands first. -/
def splitQuery (query : WString) : List (WString × WString) := ((pairs query).filterMap keyValue).reverse

def uri : Server.Uri := ⟨decode, splitPath, splitQuery⟩

/-! ### uri_builder -/

/-- One of the separator between the two. -/
def adjoin (separator : UInt16) (before behind : WString) : WString :=
  if before.getLast? = some separator ∧ behind.head? = some separator then before.dropLast ++ behind
  else if before.getLast? ≠ some separator ∧ behind.head? ≠ some separator then before ++ separator :: behind
  else before ++ behind

namespace Components
variable (c : Components)

def appendPath (path : WString) : Components :=
  if path = [] ∨ path = wide "/" then c
  else if c.path = [] ∨ c.path = wide "/" then
    { c with path := if path.head? ≠ some 47 then 47 :: path else path }
  else { c with path := adjoin 47 c.path path }

def appendQuery (query : WString) : Components :=
  if query = [] then c
  else if c.query = [] then { c with query := query }
  else { c with query := adjoin 38 c.query query }

/-- A pair, encoded. -/
def appendQueryPair (name value : WString) : Option Components := do
  let name ← Percent.toUtf8 name
  let value ← Percent.toUtf8 value
  some (c.appendQuery (encodeQueryImpl name ++ wide "=" ++ encodeQueryImpl value))

def append (relative_uri : Components) : Components :=
  let c := (c.appendPath relative_uri.path).appendQuery relative_uri.query
  { c with fragment := c.fragment ++ relative_uri.fragment }

end Components

theorem Components.appendQueryPair_ascii (c : Components) {name value : WString} (nameAscii : ∀ ch ∈ name, ch < 128)
    (valueAscii : ∀ ch ∈ value, ch < 128) :
    c.appendQueryPair name value = some (c.appendQuery
      (encodeQueryImpl (Percent.narrow name) ++ wide "=" ++ encodeQueryImpl (Percent.narrow value))) := by
  rw [Components.appendQueryPair, Percent.toUtf8_ascii nameAscii, Percent.toUtf8_ascii valueAscii]
  rfl

theorem adjoin_apart {separator : UInt16} {before behind : WString} (last : before.getLast? ≠ some separator)
    (head : behind.head? ≠ some separator) : adjoin separator before behind = before ++ separator :: behind := by
  rw [adjoin, if_neg (fun both => last both.1), if_pos ⟨last, head⟩]

/-! ### What is read of a text that was built -/

theorem apart {legal : UInt16 → Bool} {c d : UInt16} (good : legal c = true) (bad : legal d = false) : c ≠ d := by
  intro same
  rw [same, bad] at good
  cases good

theorem scanTo_eq {stops : WString} {legal : UInt16 → Bool} {component rest : WString}
    (within : ∀ c ∈ component, legal c = true ∧ c ∉ stops)
    (stop : rest = [] ∨ ∃ c behind, rest = c :: behind ∧ c ∈ stops) :
    scanTo stops legal (component ++ rest) = some (component, rest) := by
  have inside : ∀ c ∈ component, (!stops.contains c) = true := by
    intro c member
    simpa using (within c member).2
  have ends : rest.takeWhile (fun c => !stops.contains c) = [] ∧
      rest.dropWhile (fun c => !stops.contains c) = rest := by
    rcases stop with rfl | ⟨c, behind, rfl, isStop⟩
    · exact ⟨rfl, rfl⟩
    · have outside : ¬ (!stops.contains c) = true := by simpa using isStop
      exact ⟨List.takeWhile_cons_of_neg outside, List.dropWhile_cons_of_neg outside⟩
  have legals : component.all legal = true := List.all_eq_true.mpr fun c member => (within c member).1
  rw [scanTo, List.takeWhile_append_of_pos inside, List.dropWhile_append_of_pos inside, ends.1, ends.2,
    List.append_nil]
  exact if_pos legals

theorem readResource_eq {path query : WString} (somePath : path ≠ [])
    (pathLegal : ∀ c ∈ path, isPathCharacter c = true) (queryLegal : ∀ c ∈ query, isQueryCharacter c = true) :
    readResource (path ++ 63 :: query) = some (path, query, []) := by
  have first : (path ++ 63 :: query).head?.any isPathCharacter = true := by
    cases path with
    | nil => exact absurd rfl somePath
    | cons c path => simpa using pathLegal c List.mem_cons_self
  have path_scan : scanTo (wide "?#") isPathCharacter (path ++ 63 :: query) = some (path, 63 :: query) := by
    refine scanTo_eq ?_ (Or.inr ⟨63, query, rfl, by decide⟩)
    intro c member
    have legal := pathLegal c member
    have query_apart := apart (d := 63) legal (by decide)
    have hash_apart := apart (d := 35) legal (by decide)
    exact ⟨legal, by simp [wide, query_apart, hash_apart]⟩
  have query_scan : scanTo (wide "#") isQueryCharacter query = some (query, []) := by
    have within : ∀ c ∈ query, isQueryCharacter c = true ∧ c ∉ wide "#" := by
      intro c member
      have legal := queryLegal c member
      have hash_apart := apart (d := 35) legal (by decide)
      exact ⟨legal, by simp [wide, hash_apart]⟩
    have whole := scanTo_eq within (Or.inl rfl)
    rwa [List.append_nil] at whole
  rw [readResource, if_pos first, path_scan]
  simp [query_scan]

theorem keyValue_eq (key : WString) (free : 61 ∉ key) (value : WString) :
    keyValue (key ++ 61 :: value) = some (key, value) := by
  have inside : ∀ c ∈ key, (c != 61) = true := by
    intro c member
    have other : c ≠ 61 := fun same => free (same ▸ member)
    simpa using other
  rw [keyValue, if_pos (by simp), List.takeWhile_append_of_pos inside, List.dropWhile_append_of_pos inside]
  simp

/-- Pairs that are joined by `&` are split into the same ones. -/
theorem pairs_intercalate {front : List WString} {last : WString} (frontFree : ∀ pair ∈ front, 38 ∉ pair)
    (lastFree : 38 ∉ last ∧ 59 ∉ last) : pairs ([38].intercalate (front ++ [last])) = front ++ [last] := by
  have free : ∀ pair ∈ front ++ [last], 38 ∉ pair := by
    intro pair member
    rcases List.mem_append.mp member with front | back
    · exact frontFree pair front
    · rw [List.mem_singleton.mp back]
      exact lastFree.1
  rw [pairs, List.splitOn_intercalate 38 free (by simp), List.dropLast_concat, List.getLastD_concat,
    List.splitOn_eq_singleton lastFree.2]

theorem takeWhile_nonzero {legal : UInt16 → Bool} {s : WString} (free : legal 0 = false)
    (all : ∀ c ∈ s, legal c = true) (rest : WString) :
    (s ++ rest).takeWhile (· != 0) = s ++ rest.takeWhile (· != 0) := by
  refine List.takeWhile_append_of_pos fun c member => ?_
  simpa using apart (all c member) free

theorem head_dropWhile_append {f : UInt16 → Bool} {s : WString} {c : UInt16} (head : (s.dropWhile f).head? = some c)
    (rest : WString) : ((s ++ rest).dropWhile f).head? = some c := by
  have found : (s.dropWhile f).isEmpty = false := by
    cases dropped : s.dropWhile f with
    | nil =>
      rw [dropped] at head
      cases head
    | cons d behind => rfl
  rw [List.dropWhile_append, found, if_neg Bool.false_ne_true, List.head?_append, head]
  rfl

/-- A path and a query that can stand alone: no colon comes before the first slash. -/
structure Resource (path query : WString) : Prop where
  pathLegal : ∀ c ∈ path, isPathCharacter c = true
  queryLegal : ∀ c ∈ query, isQueryCharacter c = true
  relative : (path.dropWhile fun c => c != 58 && c != 47).head? = some 47
  single : ∀ rest, path ≠ 47 :: 47 :: rest
  someQuery : query ≠ []

namespace Resource
variable {path query : WString} (scanString : WString → Int) (h : Resource path query)
include h

theorem somePath : path ≠ [] := by
  intro none
  have relative := h.relative
  rw [none] at relative
  cases relative

theorem parse : Rest.parse scanString (path ++ 63 :: query) = some { port := 0, path := path, query := query } := by
  have text : (path ++ 63 :: query).takeWhile (· != 0) = path ++ 63 :: query := by
    rw [takeWhile_nonzero (by decide) h.pathLegal, List.takeWhile_cons_of_pos (by decide)]
    have tail := takeWhile_nonzero (by decide) h.queryLegal []
    simpa using tail
  have scheme : readScheme (path ++ 63 :: query) = some ([], path ++ 63 :: query) := by
    rw [readScheme, head_dropWhile_append h.relative]
    rfl
  have notTwo : ∀ p, path ++ 63 :: query ≠ 47 :: 47 :: p := by
    intro p same
    rcases path with _ | ⟨c, _ | ⟨d, path⟩⟩
    · exact h.somePath rfl
    · simp at same
    · simp only [List.cons_append, List.cons.injEq] at same
      exact h.single path (by rw [same.1, same.2.1])
  have server : readServer (path ++ 63 :: query) = some ([], path ++ 63 :: query) := by
    unfold readServer
    split
    · exact absurd ‹_› (notTwo _)
    · rfl
  simp only [Rest.parse, text, scheme, server, Option.bind_eq_bind, Option.bind_some,
    readResource_eq h.somePath h.pathLegal h.queryLegal]
  rfl

theorem text {port : Int} : Components.text { port := port, path := path, query := query } = path ++ 63 :: query := by
  simp [Components.text, h.someQuery, wide]

theorem ofString :
    Rest.ofString scanString (path ++ 63 :: query) = some { port := 0, path := path, query := query } := by
  rw [Rest.ofString, h.parse scanString]
  rfl

theorem of_components {c : Components} (samePath : c.path = path) (sameQuery : c.query = query)
    (none : c.fragment = []) : c.resource scanString = some { path := path, query := query } := by
  have same : Components.canonical { path := path, query := query } = { path := path, query := query } := rfl
  rw [Components.resource, samePath, sameQuery, none, Components.toUri, same, h.text, h.parse scanString]
  rfl

theorem resource {port : Int} :
    Components.resource scanString { port := port, path := path, query := query } =
      some { path := path, query := query } :=
  h.of_components scanString rfl rfl rfl

end Resource

/-- A URI that was built for a server, with no user, and so with what is read of its address. -/
theorem parse_http (scanString : WString → Int) {authority path query : WString}
    (legal : ∀ c ∈ authority, isAuthorityCharacter c = true) (pathLegal : ∀ c ∈ path, isPathCharacter c = true)
    (rooted : path.head? = some 47) (queryLegal : ∀ c ∈ query, isQueryCharacter c = true) :
    parse scanString (wide "http://" ++ authority ++ path ++ 63 :: query) =
      some
        { scheme := wide "http"
          userInfo := (readAuthority scanString authority).userInfo
          host := (readAuthority scanString authority).host.map toLower
          port := (readAuthority scanString authority).port
          path := path
          query := query } := by
  have somePath : path ≠ [] := by
    intro none
    rw [none] at rooted
    cases rooted
  have text : (wide "http://" ++ authority ++ path ++ 63 :: query).takeWhile (· != 0) =
      wide "http://" ++ authority ++ path ++ 63 :: query := by
    have tail := takeWhile_nonzero (by decide) queryLegal []
    have scheme : (wide "http://").all (· != 0) = true := by decide
    rw [List.append_assoc, List.append_assoc, List.takeWhile_append_of_pos (List.all_eq_true.mp scheme),
      takeWhile_nonzero (by decide) legal, takeWhile_nonzero (by decide) pathLegal,
      List.takeWhile_cons_of_pos (by decide)]
    simpa using tail
  have scheme : readScheme (wide "http://" ++ authority ++ path ++ 63 :: query) =
      some (wide "http", 47 :: 47 :: (authority ++ path ++ 63 :: query)) := by
    simp only [List.append_assoc]
    rfl
  have behind : scanTo (wide "/?#") isAuthorityCharacter (authority ++ path ++ 63 :: query) =
      some (authority, path ++ 63 :: query) := by
    rw [List.append_assoc]
    refine scanTo_eq ?_ ?_
    · intro c member
      have good := legal c member
      have slash_apart := apart (d := 47) good (by decide)
      have query_apart := apart (d := 63) good (by decide)
      have hash_apart := apart (d := 35) good (by decide)
      exact ⟨good, by simp [wide, slash_apart, query_apart, hash_apart]⟩
    · cases path with
      | nil => exact absurd rfl somePath
      | cons c path =>
        cases rooted
        exact Or.inr ⟨47, path ++ 63 :: query, rfl, by decide⟩
  have server : readServer (47 :: 47 :: (authority ++ path ++ 63 :: query)) = some (authority, path ++ 63 :: query) :=
    behind
  simp only [parse, text, scheme, server, Option.bind_eq_bind, Option.bind_some,
    readResource_eq somePath pathLegal queryLegal]
  rfl

/-! ### Servers -/

theorem toLower_cases (c : UInt16) :
    toLower c = c ∨ ∃ n < 91, 65 ≤ n ∧ c = n.toUInt16 ∧ toLower c = n.toUInt16 + 32 := by
  unfold toLower
  by_cases upper : 65 ≤ c ∧ c ≤ 90
  · rw [if_pos upper]
    simp only [UInt16.le_iff_toNat_le] at upper
    have value : c.toNat.toUInt16 = c := UInt16.ofNat_toNat
    refine Or.inr ⟨c.toNat, Nat.lt_succ_of_le upper.2, upper.1, value.symm, ?_⟩
    rw [value]
  · exact Or.inl (if_neg upper)

theorem toLower_toLower (c : UInt16) : toLower (toLower c) = toLower c := by
  have low : ∀ n < 91, 65 ≤ n → toLower (n.toUInt16 + 32) = n.toUInt16 + 32 := by decide
  rcases toLower_cases c with same | ⟨n, high, upper, rfl, lower⟩
  · rw [same, same]
  · rw [lower]
    exact low n high upper

theorem lower_lower (s : WString) : (s.map toLower).map toLower = s.map toLower := by
  rw [List.map_map]
  exact List.map_congr_left fun c _ => toLower_toLower c

theorem isAuthorityCharacter_toLower {c : UInt16} (legal : isAuthorityCharacter c = true) :
    isAuthorityCharacter (toLower c) = true := by
  have low : ∀ n < 91, 65 ≤ n → isAuthorityCharacter (n.toUInt16 + 32) = true := by decide
  rcases toLower_cases c with same | ⟨n, high, upper, rfl, lower⟩
  · rw [same]
    exact legal
  · rw [lower]
    exact low n high upper

theorem decimal_legal {port : Int} (positive : 0 < port) :
    ∀ c ∈ widened (decimal port), isAuthorityCharacter c = true := by
  have digits : ∀ n < 58, 48 ≤ n → isAuthorityCharacter n.toUInt8.toUInt16 = true := by decide
  intro c member
  rw [decimal, if_neg (by omega), List.nil_append, widened, List.map_map] at member
  obtain ⟨digit, among, rfl⟩ := List.mem_map.mp member
  have bounds := Nat.isDigit_of_mem_toDigits (by decide) (by decide) among
  simp only [Char.isDigit, Bool.and_eq_true, decide_eq_true_eq, UInt32.le_iff_toNat_le] at bounds
  exact digits digit.toNat (Nat.lt_succ_of_le bounds.2) bounds.1

theorem address_legal {host : WString} (legal : ∀ c ∈ host, isAuthorityCharacter c = true) (port : Int) :
    ∀ c ∈ address host port, isAuthorityCharacter c = true := by
  intro c member
  rcases List.mem_append.mp member with inside | behind
  · exact legal c inside
  · by_cases positive : 0 < port
    · rw [if_pos positive] at behind
      rcases List.mem_cons.mp behind with rfl | digit
      · decide
      · exact decimal_legal positive c digit
    · rw [if_neg positive] at behind
      cases behind

/-- Of a server only characters are read that stand in the authority. -/
theorem readAuthority_legal (scanString : WString → Int) {authority : WString}
    (legal : ∀ c ∈ authority, isAuthorityCharacter c = true) :
    (∀ c ∈ (readAuthority scanString authority).userInfo, isAuthorityCharacter c = true) ∧
      ∀ c ∈ (readAuthority scanString authority).host, isAuthorityCharacter c = true := by
  have host : ∀ c ∈ (if (authority.rdropWhile isDigit).getLast? = some 58
      then ((authority.rdropWhile isDigit).dropLast, scanString (authority.rtakeWhile isDigit))
      else (authority, 0)).1, isAuthorityCharacter c = true := by
    intro c member
    split at member
    · exact legal c ((List.rdropWhile_prefix isDigit authority).subset (List.mem_of_mem_dropLast member))
    · exact legal c member
  unfold readAuthority
  dsimp only
  split
  · rename_i rest behind
    refine ⟨fun c member => host c (List.takeWhile_subset _ member), fun c member => host c ?_⟩
    apply (List.dropWhile_suffix isUserInfoCharacter).subset
    rw [behind]
    exact List.mem_cons_of_mem 64 member
  · exact ⟨fun c member => absurd member List.not_mem_nil, host⟩

theorem scanTo_legal {stops p component rest : WString} {legal : UInt16 → Bool}
    (scanned : scanTo stops legal p = some (component, rest)) : ∀ c ∈ component, legal c = true := by
  unfold scanTo at scanned
  dsimp only at scanned
  split at scanned
  · rename_i all
    cases scanned
    exact List.all_eq_true.mp all
  · cases scanned

/-- The host of a URI is in lower case, of characters that may stand in an authority. -/
theorem host_legal {scanString : WString → Int} {s : WString} {c : Components} (read : ofString scanString s = some c) :
    (∀ ch ∈ c.host, isAuthorityCharacter ch = true) ∧ c.host.map toLower = c.host := by
  obtain ⟨parsed, parses, rfl⟩ := Option.map_eq_some_iff.mp read
  simp only [parse, Option.bind_eq_bind, Option.bind_eq_some_iff, Option.some.injEq] at parses
  obtain ⟨⟨scheme, p⟩, _, ⟨authority, p'⟩, scanned, ⟨path, query, fragment⟩, _, rfl⟩ := parses
  have legal : ∀ ch ∈ authority, isAuthorityCharacter ch = true := by
    dsimp only at scanned
    unfold readServer at scanned
    split at scanned
    · exact scanTo_legal scanned
    · cases scanned
      exact fun ch member => absurd member List.not_mem_nil
  refine ⟨?_, lower_lower _⟩
  intro ch member
  simp only [Components.canonical, lower_lower] at member
  obtain ⟨d, among, rfl⟩ := List.mem_map.mp member
  exact isAuthorityCharacter_toLower ((readAuthority_legal scanString legal).2 d among)

/-- A URI of a server, in lower case, with a path and a query. -/
structure OfServer (c : Components) : Prop where
  scheme : c.scheme = wide "http"
  host : c.host ≠ []
  lower : c.host.map toLower = c.host
  legal : ∀ ch ∈ c.authority, isAuthorityCharacter ch = true
  resource : Resource c.path c.query
  rooted : c.path.head? = some 47
  fragment : c.fragment = []

namespace OfServer
variable {c : Components} (h : OfServer c)
include h

theorem canonical : c.canonical = c := by
  have scheme : c.scheme.map toLower = c.scheme := by
    rw [h.scheme]
    decide
  simp [Components.canonical, h.lower, scheme, h.rooted]

theorem text : c.text = wide "http://" ++ c.authority ++ c.path ++ 63 :: c.query := by
  have some_scheme : wide "http" ≠ [] := by decide
  rw [Components.text, h.scheme, if_neg some_scheme, if_neg h.host, if_neg h.resource.someQuery, if_pos h.fragment]
  simp [wide]

theorem toUri (scanString : WString → Int) : c.toUri scanString = some c := by
  have parses := parse_http scanString h.legal h.resource.pathLegal h.rooted h.resource.queryLegal
  rw [Components.toUri, h.canonical, h.text, parses]
  rfl

end OfServer

/-- The URI as it is read from its text. -/
def Components.reread (scanString : WString → Int) (c : Components) : Components :=
  let ⟨userInfo, host, port⟩ := readAuthority scanString c.authority
  ⟨wide "http", userInfo, host.map toLower, port, c.path, c.query, []⟩

theorem OfServer.reread {c : Components} (h : OfServer c) {scanString : WString → Int}
    (named : (readAuthority scanString c.authority).host ≠ []) : OfServer (c.reread scanString) where
  scheme := rfl
  host := by simpa [Components.reread] using named
  lower := lower_lower _
  legal := by
    have legal := readAuthority_legal scanString h.legal
    intro ch member
    rcases List.mem_append.mp member with user | address
    · split at user
      · cases user
      · rcases List.mem_append.mp user with inside | sign
        · exact legal.1 ch inside
        · rw [List.mem_singleton.mp sign]
          decide
    · refine address_legal ?_ _ ch address
      intro d inside
      obtain ⟨e, among, rfl⟩ := List.mem_map.mp inside
      exact isAuthorityCharacter_toLower (legal.2 e among)
  resource := h.resource
  rooted := h.rooted
  fragment := rfl

theorem OfServer.moved {c : Components} (h : OfServer c) {path query : WString} (resource : Resource path query)
    (rooted : path.head? = some 47) : OfServer { c with path := path, query := query } :=
  { h with resource := resource, rooted := rooted }

theorem OfServer.ofString {c : Components} (h : OfServer c) (scanString : WString → Int) :
    ofString scanString c.text = some (c.reread scanString) := by
  have parses := parse_http scanString h.legal h.resource.pathLegal h.rooted h.resource.queryLegal
  rw [Rest.ofString, h.text, parses, Option.map_some]
  have scheme : (wide "http").map toLower = wide "http" := by decide
  simp [Components.canonical, Components.reread, toLower_toLower, scheme, h.rooted]

end ModelPublish.Rest
