import ModelPublish.Obj.Loader

/-!
# Two scanners in one line

`InspectFaceLine` counts the vertices of a face line, and the face loop walks to them by rules of its
own. They stay together if and only if the vertices come first and have all the slashes that are looked for.
-/

namespace ModelPublish.Obj
open Text Packed

/-- What lies behind each space that `InspectFaceLine` counts. -/
def counted : Chars → List Chars
  | [] => []
  | c :: s =>
    if c = 0 then []
    else if c = space ∧ isCharNumber (at0 s) = true then s :: counted s
    else counted s

/-- The words behind the spaces of a line. Two spaces have an empty word between them. -/
def words : Chars → List Chars
  | [] => []
  | c :: s => if c = space then s.takeWhile (fun b => b ≠ space) :: words s else words s

/-- A word that begins with a digit. -/
def isVertex (w : Chars) : Bool := isCharNumber (at0 w)

/-- How many slashes a round of the face loop looks for. -/
def slashes (has : Components) : Nat := has.hasTexCoords.toNat + has.hasNormals.toNat

/-- `s` is what is left of a token from one of its characters on, or from its end on. -/
def Inside (token s : Chars) : Prop := ∃ q, token = q ++ s ∧ space ∉ q ∧ 0 ∉ q

/-- All numbers of a round are in this token: `atoi` begins there, after the white space that it skips. -/
def ReadsFrom (token : Chars) (p : Pointers) : Prop :=
  p.v.dropWhile isSpace = token ∧ Inside token (p.t.dropWhile isSpace) ∧ Inside token (p.n.dropWhile isSpace)

/-- The components that the face loop looks for. -/
def lineComponents (buffer : Chars) : Components := (inspectFaceLine buffer).2.getD ⟨false, false⟩

/-- The loop never leaves the string that is in the buffer, and each round reads from the token that was
counted for it. -/
def InStep (buffer : Chars) : Prop :=
  (rounds (lineComponents buffer) (inspectFaceLine buffer).1 (cstr buffer)).isSome ∧
    ∃ ps, rounds (lineComponents buffer) (inspectFaceLine buffer).1 buffer = some ps ∧
      List.Forall₂ ReadsFrom (counted (buffer.drop 1)) ps

def isBlank (w : Chars) : Bool := w.all isSpace

/-- What comes behind slash number `k`. -/
def behind : Nat → Chars → Option Chars
  | 0, s => some s
  | k + 1, s => (skipTo slash s).bind (behind k)

/-- How many slashes the first vertex makes the loop look for. -/
def firstSlashes (ws : List Chars) : Nat :=
  slashes (((ws.find? isVertex).map inspectVertexDefinition).getD ⟨false, false⟩)

/-- A word has `k` slashes, and something behind the last of them unless it is the last word. -/
def legible (k : Nat) (w : Chars) (last : Bool) : Bool := (behind k w).any fun r => last || !isBlank r

/-- The words of a line, where all vertices are legible. Other words come behind all vertices. Blank ones may
also stand before the last vertex, and before any vertex if there are slashes to look for. -/
def InOrder (k : Nat) : List Chars → Prop
  | [] => True
  | w :: ws =>
    if isVertex w then legible k w ws.isEmpty ∧ InOrder k ws
    else ws.countP isVertex = 0 ∨ (isBlank w ∧ (0 < k ∨ ws.countP isVertex = 1) ∧ InOrder k ws)

instance (k : Nat) : ∀ ws, Decidable (InOrder k ws)
  | [] => isTrue trivial
  | w :: ws =>
    have := instDecidableInOrder k ws
    inferInstanceAs (Decidable (if isVertex w then legible k w ws.isEmpty ∧ InOrder k ws
      else ws.countP isVertex = 0 ∨ (isBlank w ∧ (0 < k ∨ ws.countP isVertex = 1) ∧ InOrder k ws)))

section Counting

theorem inspectFrom_succ (n : Nat) (first : Option Components) (s : Chars) :
    inspectFrom (n + 1) first s = (n + 1 + (counted s).length, first) := by
  induction s generalizing n with
  | nil => rfl
  | cons c s ih =>
    unfold inspectFrom counted
    by_cases nul : c = 0
    · rw [if_pos nul, if_pos nul]
      rfl
    rw [if_neg nul, if_neg nul]
    by_cases other : c = space
    swap
    · rw [if_pos other, if_neg (fun both => other both.1)]
      exact ih n
    rw [if_neg (not_not_intro other)]
    by_cases digit : isCharNumber (at0 s) = true
    · rw [if_neg (not_not_intro digit), if_pos (And.intro other digit), if_pos (by omega), ih (n + 1),
        List.length_cons]
      congr 1
      omega
    · rw [if_pos digit, if_neg (fun both => digit both.2)]
      exact ih n

theorem inspectFrom_zero (s : Chars) :
    inspectFrom 0 none s = ((counted s).length, (counted s).head?.map inspectVertexDefinition) := by
  induction s with
  | nil => rfl
  | cons c s ih =>
    unfold inspectFrom counted
    by_cases nul : c = 0
    · rw [if_pos nul, if_pos nul]
      rfl
    rw [if_neg nul, if_neg nul]
    by_cases other : c = space
    swap
    · rw [if_pos other, if_neg (fun both => other both.1)]
      exact ih
    rw [if_neg (not_not_intro other)]
    by_cases digit : isCharNumber (at0 s) = true
    · rw [if_neg (not_not_intro digit), if_pos (And.intro other digit), inspectFrom_succ, List.length_cons,
        if_neg (not_not_intro rfl), List.head?_cons, Option.map_some]
      congr 1
      omega
    · rw [if_pos digit, if_neg (fun both => digit both.2)]
      exact ih

theorem inspectFaceLine_eq (buffer : Chars) : inspectFaceLine buffer =
    ((counted (buffer.drop 1)).length, (counted (buffer.drop 1)).head?.map inspectVertexDefinition) :=
  inspectFrom_zero _

end Counting

/-! ### Word by word -/

/-- Where a word ends. -/
def Ended (s : Chars) : Prop := s = [] ∨ ∃ r, s = space :: r

section Words
variable {q w s : Chars}

theorem words_free (free : space ∉ q) (s : Chars) : words (q ++ s) = words s := by
  induction q with
  | nil => rfl
  | cons c q ih =>
    have other : c ≠ space := fun same => free (same ▸ List.mem_cons_self)
    rw [List.cons_append, words, if_neg other]
    exact ih fun member => free (List.mem_cons_of_mem c member)

theorem takeWhile_word (free : space ∉ w) (ended : Ended s) : (w ++ s).takeWhile (fun b => b ≠ space) = w := by
  rw [List.takeWhile_append_of_pos (by intro b member; exact decide_eq_true fun same => free (same ▸ member))]
  rcases ended with rfl | ⟨r, rfl⟩
  · exact List.append_nil w
  · rw [List.takeWhile_cons_of_neg (by simp), List.append_nil]

theorem words_word (free : space ∉ q) (solid : space ∉ w) (ended : Ended s) :
    words (q ++ space :: (w ++ s)) = w :: words s := by
  rw [words_free free, words, if_pos rfl, takeWhile_word solid ended, words_free solid]

theorem counted_free (free : space ∉ q) (noNul : 0 ∉ q) (s : Chars) : counted (q ++ s) = counted s := by
  induction q with
  | nil => rfl
  | cons c q ih =>
    have other : c ≠ space := fun same => free (same ▸ List.mem_cons_self)
    have char : c ≠ 0 := fun same => noNul (same ▸ List.mem_cons_self)
    rw [List.cons_append, counted, if_neg char, if_neg fun both => other both.1]
    exact ih (fun member => free (List.mem_cons_of_mem c member)) fun member => noNul (List.mem_cons_of_mem c member)

theorem at0_word (ended : Ended s) : isCharNumber (at0 (w ++ s)) = isVertex w := by
  cases w with
  | cons c w => rfl
  | nil => rcases ended with rfl | ⟨r, rfl⟩ <;> rfl

theorem counted_word (free : space ∉ q) (noNul : 0 ∉ q) (solid : space ∉ w) (noNul' : 0 ∉ w)
    (first : isCharNumber (at0 (w ++ s)) = isVertex w) :
    counted (q ++ space :: (w ++ s)) = if isVertex w then (w ++ s) :: counted s else counted s := by
  rw [counted_free free noNul, counted, if_neg (by decide), first, counted_free solid noNul']
  by_cases vertex : isVertex w = true
  · rw [if_pos ⟨rfl, vertex⟩, if_pos vertex]
  · rw [if_neg fun both => vertex both.2, if_neg vertex]

theorem split_word (s : Chars) : ∃ w r, s = w ++ r ∧ space ∉ w ∧ Ended r := by
  cases found : skipTo space s with
  | none =>
    refine ⟨s, [], (List.append_nil s).symm, ?_, .inl rfl⟩
    intro member
    obtain ⟨q, t, rfl, free⟩ := List.eq_append_cons_of_mem member
    rw [skipTo_append free] at found
    cases found
  | some t =>
    obtain ⟨q, free, rfl⟩ := skipTo_eq found
    exact ⟨q, space :: t, rfl, free, .inr ⟨t, rfl⟩⟩

theorem first_word (s : Chars) : space ∉ s ∨
    ∃ q w r, s = q ++ space :: (w ++ r) ∧ space ∉ q ∧ space ∉ w ∧ Ended r := by
  obtain ⟨q, t, rfl, free, ended⟩ := split_word s
  rcases ended with rfl | ⟨t, rfl⟩
  · left
    rwa [List.append_nil]
  · right
    obtain ⟨w, r, rfl, solid, ended⟩ := split_word t
    exact ⟨q, w, r, rfl, free, solid, ended⟩

theorem words_isEmpty (ended : Ended s) : (words s).isEmpty = s.isEmpty := by
  rcases ended with rfl | ⟨r, rfl⟩ <;> rfl

theorem length_counted (noNul : 0 ∉ s) : (counted s).length = (words s).countP isVertex := by
  induction s with
  | nil => rfl
  | cons c s ih =>
    have tail : 0 ∉ s := fun member => noNul (List.mem_cons_of_mem c member)
    have char : c ≠ 0 := fun same => noNul (same ▸ List.mem_cons_self)
    unfold counted words
    rw [if_neg char]
    by_cases other : c = space
    swap
    · rw [if_neg other, if_neg fun both => other both.1]
      exact ih tail
    rw [if_pos other, List.countP_cons]
    obtain ⟨w, r, rfl, solid, ended⟩ := split_word s
    rw [at0_word ended, takeWhile_word solid ended]
    by_cases vertex : isVertex w = true
    · rw [if_pos ⟨other, vertex⟩, if_pos vertex, List.length_cons, ih tail]
    · rw [if_neg fun both => vertex both.2, if_neg vertex, ih tail, Nat.add_zero]

theorem Ended.stops (ended : Ended s) : Stops s := by
  rcases ended with rfl | ⟨r, rfl⟩
  · exact stops_nil
  · exact stops_space r

theorem head_counted (noNul : 0 ∉ s) : (counted s).head?.map inspectVertexDefinition =
    ((words s).find? isVertex).map inspectVertexDefinition := by
  induction s with
  | nil => rfl
  | cons c s ih =>
    have tail : 0 ∉ s := fun member => noNul (List.mem_cons_of_mem c member)
    have char : c ≠ 0 := fun same => noNul (same ▸ List.mem_cons_self)
    unfold counted words
    rw [if_neg char]
    by_cases other : c = space
    swap
    · rw [if_neg other, if_neg fun both => other both.1]
      exact ih tail
    obtain ⟨w, r, rfl, solid, ended⟩ := split_word s
    rw [if_pos other, at0_word ended, takeWhile_word solid ended]
    by_cases vertex : isVertex w = true
    · rw [if_pos (And.intro other vertex), List.find?_cons_of_pos vertex, List.head?_cons, Option.map_some,
        Option.map_some, inspectVertexDefinition_append ended.stops]
    · rw [if_neg fun both => vertex both.2, List.find?_cons_of_neg vertex]
      exact ih tail

theorem counted_shrinks {s : Chars} : (counted s).Pairwise (fun a b => b.length < a.length) ∧
    ∀ t ∈ counted s, t.length < s.length := by
  induction s with
  | nil => exact ⟨List.Pairwise.nil, by simp [counted]⟩
  | cons c s ih =>
    unfold counted
    obtain ⟨ordered, short⟩ := ih
    have within : ∀ t ∈ counted s, t.length < (c :: s).length :=
      fun t member => Nat.lt_succ_of_lt (short t member)
    split
    · exact ⟨List.Pairwise.nil, by simp⟩
    split
    · refine ⟨List.Pairwise.cons short ordered, ?_⟩
      intro t member
      rcases List.mem_cons.mp member with rfl | later
      · exact Nat.lt_succ_self _
      · exact within t later
    · exact ⟨ordered, within⟩

end Words

/-! ### Round by round -/

section Rounds
variable {has : Components} {k : Nat} {q w s r : Chars}

theorem skipTo_free {c : UInt8} (free : c ∉ q) (s : Chars) : skipTo c (q ++ s) = skipTo c s := by
  induction q with
  | nil => rfl
  | cons b q ih =>
    have other : b ≠ c := fun same => free (same ▸ List.mem_cons_self)
    rw [List.cons_append, skipTo, if_neg other]
    exact ih fun member => free (List.mem_cons_of_mem b member)

theorem pointers_eq (has : Components) (s : Chars) : pointers has s = (skipTo space s).bind fun v =>
    (behindSlash has.hasTexCoords v).bind fun t => (behind (slashes has) v).map fun n => ⟨v, t, n⟩ := by
  unfold pointers slashes
  cases skipTo space s with
  | none => rfl
  | some v =>
    rcases has with ⟨_ | _, _ | _⟩
    · rfl
    · cases h : skipTo slash v <;> simp [behindSlash, behind, h]
    · cases h : skipTo slash v <;> simp [behindSlash, behind, h]
    · cases h : skipTo slash v with
      | none => simp [behindSlash, h]
      | some t => cases h' : skipTo slash t <;> simp [behindSlash, behind, h, h']

theorem behindSlash_some {v n : Chars} (h : behind (slashes has) v = some n) :
    ∃ t, behindSlash has.hasTexCoords v = some t := by
  rcases has with ⟨_ | _, normals⟩
  · exact ⟨v, rfl⟩
  · cases normals <;> exact (Option.bind_eq_some_iff.mp h).imp fun t both => both.1

theorem rounds_free (free : space ∉ q) (m : Nat) (s : Chars) : rounds has m (q ++ s) = rounds has m s := by
  cases m with
  | zero => rfl
  | succ m =>
    unfold rounds
    rw [pointers_eq, pointers_eq, skipTo_free free]

theorem behind_suffix {s x : Chars} (h : behind k s = some x) : x <:+ s := by
  induction k generalizing s with
  | zero =>
    cases h
    exact List.suffix_refl _
  | succ k ih =>
    unfold behind at h
    obtain ⟨t, found, next⟩ := Option.bind_eq_some_iff.mp h
    obtain ⟨q, _, rfl⟩ := skipTo_eq found
    exact (ih next).trans ((List.suffix_cons slash t).trans (List.suffix_append q _))

theorem slash_suffix {s t : Chars} (h : slash :: t <:+ s) : slash :: t <:+ s.dropWhile isSpace := by
  obtain ⟨q, rfl⟩ := h
  induction q with
  | nil => exact List.suffix_refl _
  | cons b q ih =>
    rw [List.cons_append, List.dropWhile_cons]
    split
    · exact ih
    · exact List.suffix_append (b :: q) _

theorem Inside.earlier {token s t : Chars} (h : Inside token t) (later : t <:+ s) (part : s <:+ token) :
    Inside token s := by
  obtain ⟨q, rfl, free, noNul⟩ := h
  obtain ⟨q', whole⟩ := part
  obtain ⟨q'', rfl⟩ := later
  rw [← List.append_assoc] at whole
  cases List.append_cancel_right whole
  refine ⟨q', List.append_assoc q' q'' t, ?_, ?_⟩
  · exact fun member => free (List.mem_append_left q'' member)
  · exact fun member => noNul (List.mem_append_left q'' member)

/-- If a round begins its first number in a token and its last one too, then so does it any other. -/
theorem readsFrom_iff {token v t n : Chars} (coords : behindSlash has.hasTexCoords v = some t)
    (last : behind (slashes has) v = some n) :
    ReadsFrom token ⟨v, t, n⟩ ↔ v.dropWhile isSpace = token ∧ Inside token (n.dropWhile isSpace) := by
  constructor
  · rintro ⟨start, _, inside⟩
    exact ⟨start, inside⟩
  · rintro ⟨rfl, inside⟩
    refine ⟨rfl, ?_, inside⟩
    rcases has with ⟨_ | _, normals⟩
    · cases coords
      exact ⟨[], rfl, List.not_mem_nil, List.not_mem_nil⟩
    · obtain ⟨a, _, rfl⟩ := skipTo_eq coords
      have first : slash :: t <:+ (a ++ slash :: t).dropWhile isSpace := slash_suffix (List.suffix_append a _)
      have part := (List.dropWhile_suffix isSpace).trans ((List.suffix_cons slash t).trans first)
      refine inside.earlier ?_ part
      cases normals with
      | false =>
        have last : (behindSlash true (a ++ slash :: t)).bind (behind 0) = some n := last
        rw [coords] at last
        cases last
        exact List.suffix_refl _
      | true =>
        have last : (behindSlash true (a ++ slash :: t)).bind (behind 1) = some n := last
        rw [coords, Option.bind_some, behind] at last
        obtain ⟨n', found, same⟩ := Option.bind_eq_some_iff.mp last
        cases same
        obtain ⟨b, _, rfl⟩ := skipTo_eq found
        exact (List.dropWhile_suffix isSpace).trans
          ((List.suffix_cons slash n).trans (slash_suffix (List.suffix_append b _)))

/-- As many rounds as there are tokens, each reading from its own. -/
def Follows (has : Components) (tokens : List Chars) (s : Chars) : Prop :=
  ∃ ps, rounds has tokens.length s = some ps ∧ List.Forall₂ ReadsFrom tokens ps

theorem follows_nil (s : Chars) : Follows has [] s := ⟨[], rfl, .nil⟩

theorem follows_free (free : space ∉ q) (tokens : List Chars) (s : Chars) :
    Follows has tokens (q ++ s) ↔ Follows has tokens s := by
  unfold Follows
  rw [rounds_free free]

theorem follows_cons {token v : Chars} (found : skipTo space s = some v) (tokens : List Chars) :
    Follows has (token :: tokens) s ↔ ∃ n, behind (slashes has) v = some n ∧ v.dropWhile isSpace = token ∧
      Inside token (n.dropWhile isSpace) ∧ Follows has tokens n := by
  unfold Follows
  rw [List.length_cons, rounds, pointers_eq, found, Option.bind_some]
  constructor
  · rintro ⟨ps, walked, reads⟩
    obtain ⟨p, here, walked⟩ := Option.bind_eq_some_iff.mp walked
    obtain ⟨t, coords, here⟩ := Option.bind_eq_some_iff.mp here
    obtain ⟨n, last, rfl⟩ := Option.map_eq_some_iff.mp here
    obtain ⟨ps', further, same⟩ := Option.bind_eq_some_iff.mp walked
    cases same
    cases reads with
    | cons first reads =>
      obtain ⟨start, inside⟩ := (readsFrom_iff coords last).mp first
      exact ⟨n, last, start, inside, ps', further, reads⟩
  · rintro ⟨n, last, start, inside, ps, walked, reads⟩
    obtain ⟨t, coords⟩ := behindSlash_some last
    refine ⟨⟨v, t, n⟩ :: ps, ?_, .cons ((readsFrom_iff coords last).mpr ⟨start, inside⟩) reads⟩
    simp [coords, last, walked]

theorem behind_append {x : Chars} (h : behind k w = some x) (r : Chars) : behind k (w ++ r) = some (x ++ r) := by
  induction k generalizing w with
  | zero =>
    cases h
    rfl
  | succ k ih =>
    unfold behind at h
    obtain ⟨t, found, next⟩ := Option.bind_eq_some_iff.mp h
    obtain ⟨q, free, rfl⟩ := skipTo_eq found
    rw [List.append_assoc, List.cons_append, behind, skipTo_append free]
    exact ih next

theorem behind_cases {y : Chars} (h : behind k (w ++ r) = some y) :
    (∃ x, behind k w = some x ∧ y = x ++ r) ∨ (y <:+ r ∧ y.length < r.length) := by
  induction k generalizing w with
  | zero =>
    cases h
    exact .inl ⟨w, rfl, rfl⟩
  | succ k ih =>
    unfold behind at h
    obtain ⟨t, found, next⟩ := Option.bind_eq_some_iff.mp h
    by_cases slash_in : slash ∈ w
    · obtain ⟨q, w', rfl, free⟩ := List.eq_append_cons_of_mem slash_in
      rw [List.append_assoc, List.cons_append, skipTo_append free] at found
      cases found
      rcases ih next with ⟨x, same, rfl⟩ | beyond
      · left
        refine ⟨x, ?_, rfl⟩
        rw [behind, skipTo_append free]
        exact same
      · exact .inr beyond
    · rw [skipTo_free slash_in] at found
      obtain ⟨q, _, rfl⟩ := skipTo_eq found
      have suffix := behind_suffix next
      right
      constructor
      · exact suffix.trans ((List.suffix_cons slash t).trans (List.suffix_append q _))
      · have := suffix.length_le
        rw [List.length_append, List.length_cons]
        omega

theorem legible_iff {last : Bool} :
    legible k w last = true ↔ ∃ x, behind k w = some x ∧ (last = true ∨ isBlank x = false) := by
  unfold legible
  simp [Option.any_eq_true]

theorem Inside.reaches {y : Chars} (h : Inside (w ++ r) y) (ended : Ended r) : r.length ≤ y.length := by
  rcases ended with rfl | ⟨r, rfl⟩
  · exact Nat.zero_le _
  obtain ⟨q, whole, free, -⟩ := h
  rw [← Nat.not_lt]
  intro short
  have lengths := congrArg List.length whole
  simp only [List.length_append, List.length_cons] at lengths short
  have front : q = (w ++ space :: r).take q.length := by
    rw [whole, List.take_left]
  apply free
  rw [front, List.take_append]
  apply List.mem_append_right
  have more : q.length - w.length = q.length - w.length - 1 + 1 := by omega
  rw [more, List.take_succ_cons]
  exact List.mem_cons_self

theorem skip_solid (solid : ¬ isBlank w = true) (r : Chars) :
    (w ++ r).dropWhile isSpace = w.dropWhile isSpace ++ r := by
  rw [List.dropWhile_append, if_neg]
  rw [List.isEmpty_iff, List.dropWhile_eq_nil_iff]
  exact fun blank => solid (List.all_eq_true.mpr blank)

theorem inside_vertex {x : Chars} (solid : space ∉ w) (noNul : 0 ∉ w) (part : x <:+ w) (ended : Ended r) :
    Inside (w ++ r) ((x ++ r).dropWhile isSpace) ↔ (r.isEmpty = true ∨ isBlank x = false) := by
  by_cases blank : isBlank x = true
  · have skipped : (x ++ r).dropWhile isSpace = r.dropWhile isSpace :=
      List.dropWhile_append_of_pos (List.all_eq_true.mp blank)
    rw [skipped, blank]
    constructor
    · intro inside
      have reaches := inside.reaches ended
      rcases ended with rfl | ⟨r, rfl⟩
      · exact .inl rfl
      · rw [List.dropWhile_cons_of_pos (by decide), List.length_cons] at reaches
        exact absurd ((List.dropWhile_suffix isSpace).length_le) (Nat.not_le_of_lt reaches)
    · intro last
      have none : r = [] := by simpa using last
      subst none
      exact ⟨w, rfl, solid, noNul⟩
  · obtain ⟨q, whole⟩ := (List.dropWhile_suffix isSpace).trans part
    rw [skip_solid blank, Bool.not_eq_true _ |>.mp blank]
    simp only [or_true, iff_true]
    refine ⟨q, by rw [← List.append_assoc, whole], ?_, ?_⟩
    · exact fun member => solid (whole ▸ List.mem_append_left _ member)
    · exact fun member => noNul (whole ▸ List.mem_append_left _ member)

theorem follows_vertex (vertex : isVertex w = true) (free : space ∉ q) (solid : space ∉ w) (noNul : 0 ∉ w)
    (ended : Ended r) (tokens : List Chars) :
    Follows has ((w ++ r) :: tokens) (q ++ space :: (w ++ r)) ↔
      legible (slashes has) w r.isEmpty = true ∧ Follows has tokens r := by
  have start : (w ++ r).dropWhile isSpace = w ++ r := by
    cases w with
    | nil => cases vertex
    | cons c w =>
      have digit : isDigit c = true := vertex
      exact List.dropWhile_cons_of_neg (by rw [isSpace_of_isDigit digit]; decide)
  rw [follows_cons (skipTo_append free _), legible_iff]
  constructor
  · rintro ⟨n, last, -, inside, further⟩
    rcases behind_cases last with ⟨x, here, rfl⟩ | ⟨-, short⟩
    · have piece := behind_suffix here
      rw [inside_vertex solid noNul piece ended] at inside
      rw [follows_free fun member => solid (piece.mem member)] at further
      exact ⟨⟨x, here, inside⟩, further⟩
    · have reaches := inside.reaches ended
      have skipped := (List.dropWhile_suffix isSpace (l := n)).length_le
      omega
  · rintro ⟨⟨x, here, inside⟩, further⟩
    have piece := behind_suffix here
    refine ⟨x ++ r, behind_append here r, start, (inside_vertex solid noNul piece ended).mpr inside, ?_⟩
    rwa [follows_free fun member => solid (piece.mem member)]

theorem behind_free (positive : 0 < k) (free : slash ∉ q) (s : Chars) : behind k (q ++ s) = behind k s := by
  cases k with
  | zero => exact absurd positive (Nat.lt_irrefl 0)
  | succ k => rw [behind, behind, skipTo_free free]

theorem blank_free {w : Chars} (blank : isBlank w = true) : slash ∉ w := fun member =>
  absurd (List.all_eq_true.mp blank slash member) (by decide)

theorem follows_other {token : Chars} {tokens : List Chars} (free : space ∉ q) (solid : space ∉ w)
    (ended : Ended r) (rest : counted r = token :: tokens) :
    Follows has (token :: tokens) (q ++ space :: (w ++ r)) ↔ isBlank w = true ∧
      (0 < slashes has ∨ (token :: tokens).length = 1) ∧ Follows has (token :: tokens) r := by
  obtain ⟨ordered, short⟩ := counted_shrinks (s := r)
  rw [rest] at ordered short
  have shorter := short token List.mem_cons_self
  rcases ended with rfl | ⟨r, rfl⟩
  · cases rest
  rw [follows_cons (skipTo_append free _), follows_cons (show skipTo space (space :: r) = some r from rfl)]
  by_cases blank : isBlank w = true
  swap
  · constructor
    · rintro ⟨n, -, start, -, -⟩
      rw [skip_solid blank] at start
      rw [← start, List.length_append] at shorter
      omega
    · rintro ⟨same, -, -⟩
      exact absurd same blank
  have skipped : (w ++ space :: r).dropWhile isSpace = r.dropWhile isSpace := by
    rw [List.dropWhile_append_of_pos (List.all_eq_true.mp blank), List.dropWhile_cons_of_pos (by decide)]
  rw [skipped]
  simp only [blank, true_and]
  rcases Nat.eq_zero_or_pos (slashes has) with none | some_slash
  swap
  · have noSlash : slash ∉ w ++ [space] := by
      intro member
      rcases List.mem_append.mp member with first | second
      · exact blank_free blank first
      · exact absurd (List.mem_singleton.mp second) (by decide)
    have same := behind_free some_slash noSlash r
    rw [List.append_assoc, List.singleton_append] at same
    rw [same]
    simp only [some_slash, true_or, true_and]
  rw [none]
  cases tokens with
  | nil =>
    simp only [behind, Option.some.injEq, exists_eq_left', List.length_singleton, or_true, true_and, skipped,
      follows_nil, and_true]
  | cons token' tokens =>
    constructor
    · rintro ⟨n, same, start, -, further⟩
      cases same
      rw [follows_cons (skipTo_append solid _)] at further
      obtain ⟨n', -, start', -, -⟩ := further
      rw [start] at start'
      have less := List.rel_of_pairwise_cons ordered (List.mem_cons_self (a := token') (l := tokens))
      rw [start'] at less
      exact absurd less (Nat.lt_irrefl _)
    · rintro ⟨one, -⟩
      simp at one

theorem follows_iff {s : Chars} (noNul : 0 ∉ s) :
    Follows has (counted s) s ↔ InOrder (slashes has) (words s) := by
  induction size : s.length using Nat.strong_induction_on generalizing s with
  | _ m ih =>
    rcases first_word s with free | ⟨q, w, r, rfl, free, solid, ended⟩
    · have none : words s = [] := by
        have := words_free free []
        rwa [List.append_nil] at this
      have nothing := length_counted noNul
      rw [none] at nothing ⊢
      rw [List.eq_nil_of_length_eq_zero nothing]
      exact iff_of_true (follows_nil s) trivial
    have noNul_q : 0 ∉ q := fun member => noNul (List.mem_append_left _ member)
    have noNul_w : 0 ∉ w := fun member =>
      noNul (List.mem_append_right q (List.mem_cons_of_mem space (List.mem_append_left r member)))
    have noNul_r : 0 ∉ r := fun member =>
      noNul (List.mem_append_right q (List.mem_cons_of_mem space (List.mem_append_right w member)))
    have later : Follows has (counted r) r ↔ InOrder (slashes has) (words r) := by
      refine ih r.length ?_ noNul_r rfl
      rw [← size]
      simp only [List.length_append, List.length_cons]
      omega
    rw [counted_word free noNul_q solid noNul_w (at0_word ended), words_word free solid ended, InOrder]
    by_cases vertex : isVertex w = true
    · rw [if_pos vertex, if_pos vertex, follows_vertex vertex free solid noNul_w ended, later, words_isEmpty ended]
    rw [if_neg vertex, if_neg vertex, ← length_counted noNul_r, ← later]
    cases rest : counted r with
    | nil => exact iff_of_true (follows_nil _) (.inl rfl)
    | cons token tokens =>
      rw [follows_other free solid ended rest]
      simp

end Rounds

/-! ### In the buffer -/

section Buffer
variable {has : Components} {s rest : Chars}

theorem counted_nul (s rest : Chars) (noNul : 0 ∉ s) :
    counted (s ++ 0 :: rest) = (counted s).map (· ++ 0 :: rest) := by
  induction s with
  | nil => rfl
  | cons c s ih =>
    have tail : 0 ∉ s := fun member => noNul (List.mem_cons_of_mem c member)
    have char : c ≠ 0 := fun same => noNul (same ▸ List.mem_cons_self)
    have next : at0 (s ++ 0 :: rest) = at0 s := by cases s <;> rfl
    rw [List.cons_append, counted, counted, if_neg char, if_neg char, next, ih tail]
    split <;> rfl

def Pointers.extend (rest : Chars) (p : Pointers) : Pointers := ⟨p.v ++ rest, p.t ++ rest, p.n ++ rest⟩

theorem skipTo_extend {c : UInt8} {t : Chars} (h : skipTo c s = some t) (rest : Chars) :
    skipTo c (s ++ rest) = some (t ++ rest) := by
  obtain ⟨q, free, rfl⟩ := skipTo_eq h
  rw [List.append_assoc, List.cons_append, skipTo_append free]

theorem pointers_extend {p : Pointers} (h : pointers has s = some p) (rest : Chars) :
    pointers has (s ++ rest) = some (p.extend rest) := by
  rw [pointers_eq] at h ⊢
  obtain ⟨v, found, h⟩ := Option.bind_eq_some_iff.mp h
  obtain ⟨t, coords, h⟩ := Option.bind_eq_some_iff.mp h
  obtain ⟨n, last, rfl⟩ := Option.map_eq_some_iff.mp h
  have coords' : behindSlash has.hasTexCoords (v ++ rest) = some (t ++ rest) := by
    cases present : has.hasTexCoords with
    | false =>
      rw [present] at coords
      cases coords
      rfl
    | true =>
      rw [present] at coords
      exact skipTo_extend coords rest
  rw [skipTo_extend found, Option.bind_some, coords', Option.bind_some, behind_append last]
  rfl

theorem rounds_extend {m : Nat} {ps : List Pointers} (h : rounds has m s = some ps) (rest : Chars) :
    rounds has m (s ++ rest) = some (ps.map (Pointers.extend rest)) := by
  induction m generalizing s ps with
  | zero =>
    cases h
    rfl
  | succ m ih =>
    unfold rounds at h ⊢
    obtain ⟨p, here, h⟩ := Option.bind_eq_some_iff.mp h
    obtain ⟨ps', further, same⟩ := Option.bind_eq_some_iff.mp h
    cases same
    rw [pointers_extend here]
    simp [Pointers.extend, ih further]

theorem inside_extend {token t : Chars} : Inside (token ++ 0 :: rest) (t ++ 0 :: rest) ↔ Inside token t := by
  unfold Inside
  simp only [← List.append_assoc, List.append_cancel_right_eq]

theorem readsFrom_extend {token : Chars} {p : Pointers} :
    ReadsFrom (token ++ 0 :: rest) (p.extend (0 :: rest)) ↔ ReadsFrom token p := by
  have skips : ∀ s : Chars, (s ++ 0 :: rest).dropWhile isSpace = s.dropWhile isSpace ++ 0 :: rest := by
    intro s
    rw [List.dropWhile_append]
    split
    · rename_i gone
      rw [List.isEmpty_iff.mp gone]
      rfl
    · rfl
  unfold ReadsFrom Pointers.extend
  rw [skips, skips, skips, inside_extend, inside_extend, List.append_cancel_right_eq]

theorem slashes_lineComponents (noNul : 0 ∉ s) (inside : counted (s ++ 0 :: rest) = counted ((s ++ 0 :: rest).drop 1)) :
    slashes (lineComponents (s ++ 0 :: rest)) = firstSlashes (words s) := by
  unfold lineComponents firstSlashes
  rw [inspectFaceLine_eq, ← inside, counted_nul s rest noNul, List.head?_map, Option.map_map, ← head_counted noNul]
  congr 2
  cases (counted s).head? with
  | none => rfl
  | some t => exact congrArg some (inspectVertexDefinition_append (stops_nul rest) t)

theorem followed_in_buffer (noNul : 0 ∉ s) :
    Follows has (counted s) s ↔ (rounds has (counted (s ++ 0 :: rest)).length s).isSome ∧
      ∃ ps, rounds has (counted (s ++ 0 :: rest)).length (s ++ 0 :: rest) = some ps ∧
        List.Forall₂ ReadsFrom (counted (s ++ 0 :: rest)) ps := by
  rw [counted_nul s rest noNul, List.length_map]
  constructor
  · rintro ⟨ps, walked, reads⟩
    refine ⟨by rw [walked]; rfl, _, rounds_extend walked _, ?_⟩
    rw [List.forall₂_map_left_iff, List.forall₂_map_right_iff]
    exact reads.imp fun _ _ => readsFrom_extend.mpr
  · rintro ⟨within, ps, walked, reads⟩
    obtain ⟨ps', walked'⟩ := Option.isSome_iff_exists.mp within
    rw [rounds_extend walked' _] at walked
    cases walked
    rw [List.forall₂_map_left_iff, List.forall₂_map_right_iff] at reads
    exact ⟨ps', walked', reads.imp fun _ _ => readsFrom_extend.mp⟩

end Buffer

/-- The two scanners agree on a line if and only if its words are in order. -/
theorem inStep_iff {buffer : Chars} (face : startsWith "f " buffer = true) (terminated : 0 ∈ buffer) :
    InStep buffer ↔ InOrder (firstSlashes (words (cstr buffer))) (words (cstr buffer)) := by
  obtain ⟨s, rest, rfl, noNul⟩ := List.eq_append_cons_of_mem terminated
  have whole : cstr (s ++ 0 :: rest) = s := by
    rw [cstr_append noNul, cstr_zero, List.append_nil]
  have counts : counted ((s ++ 0 :: rest).drop 1) = counted (s ++ 0 :: rest) := by
    obtain ⟨t, same⟩ := List.isPrefixOf_iff_prefix.mp face
    rw [← same]
    exact (counted_free (q := [102]) (by decide) (by decide) (space :: t)).symm
  unfold InStep
  rw [whole, inspectFaceLine_eq, counts, ← slashes_lineComponents noNul counts.symm]
  exact (followed_in_buffer noNul).symm.trans (follows_iff noNul)

/-- The second vertex has no slash, and the loop looks for one behind the end of the line. -/
theorem outOfStep : ∃ buffer, buffer.length = lineBuffSize ∧ startsWith "f " buffer = true ∧ 0 ∈ buffer ∧
    ¬ InStep buffer := by
  refine ⟨chars "f 1/2 3" ++ 0 :: List.replicate (lineBuffSize - 8) 0, ?_, by decide, by simp, ?_⟩
  · rw [List.length_append, List.length_cons, List.length_replicate]
    rfl
  · intro ⟨within, _⟩
    exact absurd within (by decide)

theorem inStep_triangle : InStep (chars "f 1/2 3/4  5/6" ++ 0 :: List.replicate (lineBuffSize - 15) 47) := by
  apply (inStep_iff (by decide) _).mpr
  · decide
  · exact List.mem_append_right _ List.mem_cons_self

end ModelPublish.Obj
