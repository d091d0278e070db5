import ModelPublish.Lz4.Restores

/-!
# Ways through the price table

Every position of the table is reached by a literal or by a usable match, whatever it was priced at.
The walk back from the last position turns such a table into a way that leaves from `ip`.
-/

namespace Lz4

variable {src : List UInt8}

theorem entry_set (opt : Array Optimal) {pos : Nat} (e : Optimal) (q : Nat)
    (inside : pos < opt.size) :
    entry (opt.setIfInBounds pos e) q = if q = pos then e else entry opt q := by
  simp only [entry, Array.getD_eq_getD_getElem?, Array.getElem?_setIfInBounds]
  split
  · rename_i same
    rw [if_pos same.symm]
    rfl
  · rename_i other
    rw [if_neg (Ne.symm other)]

theorem entry_set_other (opt : Array Optimal) {pos q : Nat} (e : Optimal) (other : q ≠ pos) :
    entry (opt.setIfInBounds pos e) q = entry opt q := by
  simp only [entry, Array.getD_eq_getD_getElem?, Array.getElem?_setIfInBounds,
    if_neg (Ne.symm other)]

/-- How a position is reached: by a literal, or by a match that ends there. -/
def Reached (src : List UInt8) (ip pos : Nat) (e : Optimal) : Prop :=
  e.mlen = 1 ∨ e.mlen ≤ pos ∧ Usable src (ip + (pos - e.mlen)) e.off e.mlen

theorem reached_match (cur : Nat) {ip offset length ml pos : Nat} {e : Optimal}
    (usable : Usable src (ip + cur) offset length) (long : minMatch ≤ ml) (le : ml ≤ length)
    (place : pos = cur + ml) (mlen : e.mlen = ml) (off : e.off = offset) :
    Reached src ip pos e := by
  subst place mlen off
  refine .inr ⟨Nat.le_add_left _ _, ?_⟩
  rw [Nat.add_sub_cancel]
  exact usable.shorter le long

/-- The first `count` positions of the table are priced. -/
structure Filled (src : List UInt8) (ip : Nat) (opt : Array Optimal) (count : Nat) : Prop where
  size : opt.size = optNum + trailingLiterals
  reached : ∀ pos < count, Reached src ip pos (entry opt pos)

theorem Filled.fewer {ip count fewer : Nat} {opt : Array Optimal} (h : Filled src ip opt count)
    (le : fewer ≤ count) : Filled src ip opt fewer :=
  ⟨h.size, fun pos small => h.reached pos (Nat.lt_of_lt_of_le small le)⟩

/-- Pricing a position anew keeps the table, and at its end extends it. -/
theorem Filled.set {ip count pos : Nat} {opt : Array Optimal} {e : Optimal}
    (h : Filled src ip opt count) (inside : pos < optNum + trailingLiterals)
    (reached : Reached src ip pos e) :
    Filled src ip (opt.setIfInBounds pos e) (if pos = count then count + 1 else count) := by
  refine ⟨by rw [Array.size_setIfInBounds, h.size], fun q small => ?_⟩
  rw [entry_set opt e q (by rw [h.size]; exact inside)]
  split
  · rename_i same
    rw [same]
    exact reached
  · rename_i other
    refine h.reached q ?_
    split at small <;> omega

theorem Filled.keep {ip count pos : Nat} {opt : Array Optimal} {e : Optimal}
    (h : Filled src ip opt count) (inside : pos < optNum + trailingLiterals)
    (reached : Reached src ip pos e) : Filled src ip (opt.setIfInBounds pos e) count :=
  (h.set inside reached).fewer (by split <;> omega)

theorem Filled.extend {ip count : Nat} {opt : Array Optimal} {e : Optimal}
    (h : Filled src ip opt count) (inside : count < optNum + trailingLiterals)
    (reached : Reached src ip count e) : Filled src ip (opt.setIfInBounds count e) (count + 1) :=
  (h.set inside reached).fewer (by rw [if_pos rfl])

/-! ### The loops that price -/

theorem setLiterals_filled {ip : Nat} {opt : Array Optimal} (size : opt.size = optNum + trailingLiterals)
    (llen : Nat) {rounds : Nat} (few : rounds ≤ minMatch) :
    Filled src ip (setLiterals opt llen rounds) rounds := by
  induction rounds with
  | zero => exact ⟨size, fun pos small => absurd small (Nat.not_lt_zero pos)⟩
  | succ rounds ih =>
    refine (ih (by omega)).extend ?_ (.inl rfl)
    simp only [minMatch, optNum, trailingLiterals] at few ⊢
    omega

theorem setMatches_filled (llen : Nat) {ip offset length : Nat} {opt : Array Optimal}
    (h : Filled src ip opt minMatch) (usable : Usable src ip offset length)
    (short : length < optNum) {rounds : Nat} (few : minMatch + rounds ≤ length + 1) :
    Filled src ip (setMatches opt llen offset rounds) (minMatch + rounds) := by
  induction rounds with
  | zero => exact h
  | succ rounds ih =>
    refine (ih (by omega)).extend (by omega) ?_
    exact reached_match 0 usable (Nat.le_add_right _ _) (by omega) (by omega) rfl rfl

theorem setTrailing_filled {ip lastMatchPos : Nat} {opt : Array Optimal}
    (h : Filled src ip opt (lastMatchPos + 1)) (short : lastMatchPos < optNum) {rounds : Nat}
    (few : rounds ≤ trailingLiterals) :
    Filled src ip (setTrailing opt lastMatchPos rounds) (lastMatchPos + 1 + rounds) := by
  induction rounds with
  | zero => exact h
  | succ rounds ih =>
    have filled := ih (by omega)
    rw [Nat.add_right_comm, Nat.add_assoc] at filled
    rw [show lastMatchPos + 1 + (rounds + 1) = lastMatchPos + (rounds + 1) + 1 by omega, setTrailing]
    exact filled.extend (by omega) (.inl rfl)

theorem literalsBefore_filled {ip count cur baseLitlen : Nat} {opt : Array Optimal}
    (h : Filled src ip opt count) (short : cur < optNum) {rounds : Nat}
    (few : rounds ≤ trailingLiterals) :
    Filled src ip (literalsBefore opt cur baseLitlen rounds) count := by
  induction rounds with
  | zero => exact h
  | succ rounds ih =>
    have filled := ih (by omega)
    unfold literalsBefore
    simp only
    split
    · exact filled.keep (by omega) (.inl rfl)
    · exact filled

theorem setMatchAt_filled {ip cur matchML offset : Nat} {t : Table}
    (h : Filled src ip t.opt (t.lastMatchPos + 1 + trailingLiterals))
    (before : cur < t.lastMatchPos) (usable : Usable src (ip + cur) offset matchML)
    (short : cur + matchML < optNum) {rounds : Nat} (few : minMatch + rounds ≤ matchML + 1) :
    let t' := setMatchAt t cur matchML offset rounds
    Filled src ip t'.opt (max (t.lastMatchPos + 1 + trailingLiterals) (cur + minMatch + rounds)) ∧
      (t'.lastMatchPos = t.lastMatchPos ∨
        minMatch + rounds = matchML + 1 ∧ t.lastMatchPos < cur + matchML ∧
          t'.lastMatchPos = cur + matchML) := by
  induction rounds with
  | zero =>
    refine ⟨?_, .inl rfl⟩
    rw [Nat.max_eq_left (by simp only [minMatch, trailingLiterals]; omega)]
    exact h
  | succ rounds ih =>
    obtain ⟨filled, same⟩ := ih (by omega)
    have stays : (setMatchAt t cur matchML offset rounds).lastMatchPos = t.lastMatchPos := by
      obtain same | ⟨all, -⟩ := same
      · exact same
      · omega
    unfold setMatchAt
    simp only
    generalize setMatchAt t cur matchML offset rounds = t' at filled stays
    have reached (price : Int) (litlen : Nat) : Reached src ip (cur + (minMatch + rounds))
        ⟨price, offset, minMatch + rounds, litlen⟩ :=
      reached_match cur usable (Nat.le_add_right _ _) (by omega) rfl rfl rfl
    split
    · refine ⟨?_, ?_⟩
      · have set := filled.set (by omega) (reached (matchPrice t'.opt cur (minMatch + rounds))
          (if (entry t'.opt cur).mlen = 1 then (entry t'.opt cur).litlen else 0))
        refine set.fewer ?_
        split <;> omega
      · simp only
        split
        · exact .inr ⟨by omega, by omega, by omega⟩
        · exact .inl stays
    · rename_i kept
      refine ⟨filled.fewer (by omega), .inl stays⟩

/-- What the parser keeps true of its prices. -/
structure Table.Sound (src : List UInt8) (ip : Nat) (t : Table) : Prop where
  short : t.lastMatchPos < optNum
  filled : Filled src ip t.opt (t.lastMatchPos + 1 + trailingLiterals)

theorem Table.Sound.enter {ip cur length offset : Nat} {t : Table} (h : t.Sound src ip)
    (before : cur < t.lastMatchPos) (usable : Usable src (ip + cur) offset length)
    (short : cur + length < optNum) :
    (t.enter cur length offset).Sound src ip ∧
      t.lastMatchPos ≤ (t.enter cur length offset).lastMatchPos := by
  have last := h.short
  have long := usable.long
  have begun : Filled src ip (literalsBefore t.opt cur (entry t.opt cur).litlen (minMatch - 1))
      (t.lastMatchPos + 1 + trailingLiterals) :=
    literalsBefore_filled h.filled (by omega) (by decide)
  have all : minMatch + (length + 1 - minMatch) = length + 1 := by omega
  obtain ⟨filled, lastMatchPos⟩ := setMatchAt_filled
    (t := { t with opt := literalsBefore t.opt cur (entry t.opt cur).litlen (minMatch - 1) })
    begun before usable short (Nat.le_of_eq all)
  unfold Table.enter
  simp only at filled lastMatchPos ⊢
  generalize setMatchAt _ cur length offset (length + 1 - minMatch) = t' at filled lastMatchPos ⊢
  have upTo : t'.lastMatchPos < optNum ∧ t.lastMatchPos ≤ t'.lastMatchPos ∧
      t'.lastMatchPos + 1 ≤
        max (t.lastMatchPos + 1 + trailingLiterals) (cur + minMatch + (length + 1 - minMatch)) := by
    obtain same | ⟨-, further, same⟩ := lastMatchPos <;> omega
  exact ⟨⟨upTo.1, setTrailing_filled (filled.fewer upTo.2.2) upTo.1 (Nat.le_refl _)⟩, upTo.2.1⟩

/-- The table behind the first match. -/
theorem Table.sound_first (llen : Nat) {ip length offset : Nat} {opt : Array Optimal}
    (size : opt.size = optNum + trailingLiterals) (usable : Usable src ip offset length)
    (short : length < optNum) :
    Table.Sound src ip
      ⟨setTrailing (setMatches (setLiterals opt llen minMatch) llen offset (length + 1 - minMatch))
        length trailingLiterals, length⟩ := by
  have long := usable.long
  have all : minMatch + (length + 1 - minMatch) = length + 1 := by omega
  have filled := setMatches_filled llen (setLiterals_filled size llen (Nat.le_refl _))
    usable short (Nat.le_of_eq all)
  exact ⟨short, setTrailing_filled (filled.fewer (Nat.le_of_eq all.symm)) short (Nat.le_refl _)⟩

/-! ### The step chosen -/

/-- What `encode` is handed: a priced table up to `cur`, and a literal or a match that leaves it. -/
structure Choice.Sound (src : List UInt8) (ip : Nat) (c : Choice) : Prop where
  ctx : c.ctx.Sound
  searched : c.ctx.nextToUpdate ≤ ip + c.lastMatchPos + prefixStart
  filled : Filled src ip c.opt (c.cur + 1)
  short : c.cur < optNum
  further : c.cur < c.lastMatchPos
  upTo : c.lastMatchPos ≤ c.cur + c.bestMlen
  step : c.bestMlen = 1 ∨ Usable src (ip + c.cur) c.bestOff c.bestMlen

theorem Table.Sound.finish {ip : Nat} {t : Table} {ctx : Context} (h : t.Sound src ip)
    (sound : ctx.Sound) (some : 0 < t.lastMatchPos)
    (searched : ctx.nextToUpdate ≤ ip + t.lastMatchPos + prefixStart) :
    (t.finish ctx).Sound src ip := by
  have reached := h.filled.reached t.lastMatchPos (by omega)
  have long : 0 < (entry t.opt t.lastMatchPos).mlen ∧
      (entry t.opt t.lastMatchPos).mlen ≤ t.lastMatchPos := by
    obtain one | ⟨le, usable⟩ := reached
    · omega
    · exact ⟨Nat.lt_of_lt_of_le (by decide) usable.long, le⟩
  exact
    { ctx := sound
      searched := searched
      filled := h.filled.fewer (by simp only [Table.finish]; omega)
      short := Nat.lt_of_le_of_lt (Nat.sub_le _ _) h.short
      further := by simp only [Table.finish]; omega
      upTo := by simp only [Table.finish]; omega
      step := reached.imp_right And.right }

/-- A search, and where it leaves the tables. -/
theorem findLongerMatch_usable (arch : Arch) (minLen nbSearches : Nat) {ctx : Context} {ip : Nat}
    (sound : ctx.Sound) (ahead : ctx.nextToUpdate ≤ ip + prefixStart)
    (early : ip + mfLimit < src.length) (small : src.length ≤ maxInputSize) :
    let found := findLongerMatch arch src ctx ip (src.length - lastLiteralsLength) minLen nbSearches
    found.1.Sound ∧ found.1.nextToUpdate = ip + prefixStart ∧
      ∀ length offset, found.2 = some (length, offset) → Usable src ip offset length := by
  refine ⟨sound.insert src ahead, Context.insert_nextToUpdate ctx ip, fun length offset found => ?_⟩
  simp only [mfLimit] at early
  obtain ⟨-, long, inside, repeats⟩ := findLongerMatch_found sound ahead
    (by simp only [minMatch, lastLiteralsLength]; omega) (Nat.sub_le _ _) small found
  simp only [lastLiteralsLength] at inside
  exact ⟨repeats, long, early, by simp only [lastLiteralsLength]; omega⟩

theorem furtherPositions_sound (arch : Arch) (level : Level) {ip : Nat}
    (small : src.length ≤ maxInputSize) (rounds : Nat) {ctx : Context} {t : Table}
    (sound : ctx.Sound) (h : t.Sound src ip) (left : 0 < rounds) (begun : rounds < optNum)
    (before : optNum - rounds ≤ t.lastMatchPos)
    (searched : ctx.nextToUpdate ≤ ip + (optNum - rounds) + prefixStart) :
    (furtherPositions arch level src ip rounds ctx t).Sound src ip := by
  induction rounds generalizing ctx t with
  | zero => exact absurd left (Nat.lt_irrefl 0)
  | succ rounds ih =>
    have short := h.short
    unfold furtherPositions
    simp only
    generalize place : optNum - (rounds + 1) = cur at before searched ⊢
    split
    · rename_i here
      have next : optNum - rounds = cur + 1 := by omega
      split
      · exact ih sound h (by omega) (by omega) (by omega) (by omega)
      · generalize minimum : (if level.fullUpdate then minMatch - 1 else t.lastMatchPos - cur) =
          minLen
        obtain ⟨searching, advanced, found⟩ :=
          findLongerMatch_usable arch minLen level.nbSearches sound searched here.2 small
        generalize findLongerMatch arch src ctx (ip + cur) (src.length - lastLiteralsLength) minLen
          level.nbSearches = newMatch at searching advanced found ⊢
        split
        · exact ih searching h (by omega) (by omega) (by omega) (by omega)
        · rename_i length offset isSome
          have usable := found length offset isSome
          have long := usable.long
          simp only [minMatch] at long
          split
          · exact
              { ctx := searching
                searched := by simp only; omega
                filled := h.filled.fewer (by simp only; omega)
                short := by simp only; omega
                further := Nat.lt_succ_self _
                upTo := by simp only; omega
                step := .inr usable }
          · obtain ⟨entered, grown⟩ := h.enter here.1 usable (by omega)
            exact ih searching entered (by omega) (by omega) (by omega) (by omega)
    · exact h.finish sound (by omega) (by omega)

/-! ### The way back and the way there -/

/-- A way from a position to `stop`: every position on it is told the step that leaves it. -/
inductive Way (src : List UInt8) (ip : Nat) (opt : Array Optimal) (stop : Nat) : Nat → Prop where
  | done : Way src ip opt stop stop
  | literal {pos : Nat} : (entry opt pos).mlen = 1 → Way src ip opt stop (pos + 1) →
      Way src ip opt stop pos
  | sequence {pos : Nat} : Usable src (ip + pos) (entry opt pos).off (entry opt pos).mlen →
      Way src ip opt stop (pos + (entry opt pos).mlen) → Way src ip opt stop pos

/-- What lies before a way does not matter to it. -/
theorem Way.set {ip stop pos earlier : Nat} {opt : Array Optimal} {e : Optimal}
    (h : Way src ip opt stop pos) (before : earlier < pos) :
    Way src ip (opt.setIfInBounds earlier e) stop pos := by
  induction h with
  | done => exact .done
  | @literal pos one _ ih =>
    refine .literal ?_ (ih (by omega))
    rwa [entry_set_other opt e (by omega)]
  | @sequence pos usable _ ih =>
    refine .sequence ?_ ?_
    · rwa [entry_set_other opt e (by omega)]
    · rw [entry_set_other opt e (by omega)]
      exact ih (by omega)

theorem size_reverseTraversal (rounds cur mlen off : Nat) (opt : Array Optimal) :
    (reverseTraversal rounds cur mlen off opt).size = opt.size := by
  induction rounds generalizing cur mlen off opt with
  | zero => rfl
  | succ rounds ih =>
    unfold reverseTraversal
    simp only
    split
    · exact Array.size_setIfInBounds
    · rw [ih, Array.size_setIfInBounds]

/-- The walk back leaves a way from the start. -/
theorem reverseTraversal_way {ip stop rounds cur mlen off : Nat} {opt : Array Optimal}
    (enough : cur < rounds) (inside : cur < optNum) (filled : Filled src ip opt (cur + 1))
    (step : mlen = 1 ∨ Usable src (ip + cur) off mlen) (way : Way src ip opt stop (cur + mlen)) :
    Way src ip (reverseTraversal rounds cur mlen off opt) stop 0 := by
  induction rounds generalizing cur mlen off opt with
  | zero => exact absurd enough (Nat.not_lt_zero _)
  | succ rounds ih =>
    have reached := filled.reached cur (Nat.lt_succ_self _)
    unfold reverseTraversal
    simp only
    generalize next : entry opt cur = before at reached ⊢
    have here : entry (opt.setIfInBounds cur { before with mlen := mlen, off := off }) cur =
        { before with mlen := mlen, off := off } := by
      rw [entry_set opt _ cur (by rw [filled.size]; omega), if_pos rfl]
    have long : 0 < mlen := by
      obtain one | usable := step
      · omega
      · exact Nat.lt_of_lt_of_le (by decide) usable.long
    have on : Way src ip (opt.setIfInBounds cur { before with mlen := mlen, off := off }) stop cur := by
      have rest := way.set (e := { before with mlen := mlen, off := off })
        (show cur < cur + mlen by omega)
      obtain one | usable := step
      · refine .literal ?_ ?_
        · rw [here]
          exact one
        · rw [show cur + 1 = cur + mlen by omega]
          exact rest
      · refine .sequence ?_ ?_ <;> rw [here]
        · exact usable
        · exact rest
    split
    · rename_i last
      have start : cur = 0 := by
        obtain one | ⟨le, -⟩ := reached <;> omega
      subst start
      exact on
    · rename_i more
      have back : 0 < before.mlen := by
        obtain one | ⟨-, usable⟩ := reached
        · omega
        · exact Nat.lt_of_lt_of_le (by decide) usable.long
      refine ih (by omega) (by omega) ?_ (reached.imp_right And.right) ?_
      · refine ⟨by rw [Array.size_setIfInBounds, filled.size], fun pos small => ?_⟩
        rw [entry_set_other opt _ (by omega)]
        exact filled.reached pos (by omega)
      · rwa [Nat.sub_add_cancel (by omega)]

/-- Encoding a way keeps the output sound and covers the positions asked for. -/
theorem encodeRecorded_sound {limit : Option Nat} {ip stop lastMatchPos rounds rPos : Nat}
    {opt : Array Optimal} {out next : Output} (way : Way src ip opt stop rPos)
    (upTo : lastMatchPos ≤ stop) (enough : lastMatchPos ≤ rounds + rPos) (h : out.Sound src)
    (place : out.ip = ip + rPos)
    (written : encodeRecorded src limit opt lastMatchPos rounds rPos out = some next) :
    next.Sound src ∧ ip + lastMatchPos ≤ next.ip := by
  induction rounds generalizing rPos out with
  | zero =>
    obtain rfl := Option.some.inj written
    exact ⟨h, by omega⟩
  | succ rounds ih =>
    unfold encodeRecorded at written
    simp only at written
    split at written
    · rename_i more
      cases way with
      | done => omega
      | literal one rest =>
        rw [if_pos one] at written
        exact ih rest (by omega) h.literal (by simp only; omega) written
      | sequence usable rest =>
        have long := usable.long
        simp only [minMatch] at long
        rw [if_neg (by omega)] at written
        obtain ⟨after, encoded, written⟩ := Option.bind_eq_some_iff.mp written
        obtain ⟨sound, moved⟩ := h.sequence (place ▸ usable) encoded
        exact ih rest (by omega) sound (by omega) written
    · obtain rfl := Option.some.inj written
      exact ⟨h, by omega⟩

theorem encodeRecorded_noLimit (opt : Array Optimal) (lastMatchPos rounds rPos : Nat)
    (out : Output) : (encodeRecorded src none opt lastMatchPos rounds rPos out).isSome := by
  induction rounds generalizing rPos out with
  | zero => rfl
  | succ rounds ih =>
    unfold encodeRecorded
    simp only
    split
    · split
      · exact ih _ _
      · obtain ⟨after, encoded⟩ := Option.isSome_iff_exists.mp
          (encodeSequence_noLimit src out (entry opt rPos).mlen
            (out.ip - (entry opt rPos).off))
        rw [encoded]
        exact ih _ _
    · rfl

end Lz4
