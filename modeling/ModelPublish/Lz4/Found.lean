import ModelPublish.Lz4.Search

/-!
# What the match finder finds

The tables decide which candidates are tried. What is returned was compared byte for byte, a
machine word at a time.
-/

namespace Lz4

variable {src : List UInt8}

/-! ### Words and their bytes -/

theorem readWord_mod (size front place : Nat) (le : front ≤ size) :
    readWord src size place % 256 ^ front = readWord src front place := by
  induction front generalizing size place with
  | zero => rw [Nat.pow_zero, Nat.mod_one]; rfl
  | succ front ih =>
    obtain ⟨size, rfl⟩ : ∃ n, size = n + 1 := ⟨size - 1, by omega⟩
    have byte := (byteAt src place).toNat_lt
    have quotient (tail : Nat) : ((byteAt src place).toNat + 256 * tail) / 256 = tail := by omega
    rw [readWord, readWord, Nat.pow_succ', Nat.mod_mul, quotient, ih size (place + 1) (by omega)]
    omega

theorem readWord_eq_iff (size p q : Nat) :
    readWord src size p = readWord src size q ↔
      ∀ i < size, byteAt src (p + i) = byteAt src (q + i) := by
  induction size generalizing p q with
  | zero => simp [readWord]
  | succ size ih =>
    have first := (byteAt src p).toNat_lt
    have second := (byteAt src q).toNat_lt
    have split : readWord src (size + 1) p = readWord src (size + 1) q ↔
        byteAt src p = byteAt src q ∧ readWord src size (p + 1) = readWord src size (q + 1) := by
      rw [readWord, readWord, ← UInt8.toNat_inj]
      omega
    rw [split, ih]
    constructor
    · rintro ⟨head, tail⟩ i small
      cases i with
      | zero => exact head
      | succ i =>
        have same := tail i (by omega)
        rwa [Nat.add_right_comm, Nat.add_right_comm q] at same
    · intro same
      refine ⟨same 0 (Nat.succ_pos _), fun i small => ?_⟩
      rw [Nat.add_right_comm, Nat.add_right_comm q]
      exact same (i + 1) (by omega)

theorem le_trailingZeros_iff (bits val k : Nat) :
    k ≤ trailingZeros bits val ↔ k ≤ bits ∧ val % 2 ^ k = 0 := by
  induction bits generalizing val k with
  | zero =>
    constructor
    · intro le
      obtain rfl : k = 0 := Nat.le_zero.mp le
      exact ⟨le, Nat.mod_one _⟩
    · exact And.left
  | succ bits ih =>
    cases k with
    | zero => simp [Nat.mod_one]
    | succ k =>
      have halves : val % 2 ^ (k + 1) = 0 ↔ val % 2 = 0 ∧ val / 2 % 2 ^ k = 0 := by
        rw [Nat.pow_succ', Nat.mod_mul]
        omega
      rw [trailingZeros, halves]
      split
      · rename_i even
        have tail := ih (val / 2) k
        constructor
        · intro le
          have := tail.mp (by omega)
          exact ⟨by omega, even, this.2⟩
        · rintro ⟨le, -, zero⟩
          have := tail.mpr ⟨by omega, zero⟩
          omega
      · rename_i odd
        constructor
        · intro le
          omega
        · rintro ⟨-, even, -⟩
          exact absurd even odd

/-- The number of low bytes two different words share. -/
theorem le_nbCommonBytes_iff (src : List UInt8) (arch : Arch) (p q k : Nat) (le : k ≤ arch.stepSize) :
    k ≤ nbCommonBytes arch
        (readWord src arch.stepSize q ^^^ readWord src arch.stepSize p) ↔
      ∀ i < k, byteAt src (q + i) = byteAt src (p + i) := by
  have bytes : k ≤ nbCommonBytes arch
      (readWord src arch.stepSize q ^^^ readWord src arch.stepSize p) ↔
      (readWord src arch.stepSize q ^^^ readWord src arch.stepSize p) % 256 ^ k = 0 := by
    rw [nbCommonBytes, Nat.le_div_iff_mul_le (by decide), Nat.mul_comm, le_trailingZeros_iff,
      Nat.pow_mul]
    exact and_iff_right (Nat.mul_le_mul_left 8 le)
  rw [bytes, ← readWord_eq_iff, show (256 : Nat) = 2 ^ 8 from rfl, ← Nat.pow_mul,
    Nat.xor_mod_two_pow, Nat.pow_mul, show (2 : Nat) ^ 8 = 256 from rfl, readWord_mod _ _ _ le,
    readWord_mod _ _ _ le, Nat.xor_eq_zero_iff]

/-! ### `LZ4_count` -/

/-- `n` is the number of bytes before `limit` that agree, counted from `p` and from `q`. -/
structure Common (src : List UInt8) (p q limit n : Nat) : Prop where
  inside : p + n ≤ max p limit
  same : ∀ i < n, byteAt src (q + i) = byteAt src (p + i)
  stops : p + n < limit → byteAt src (q + n) ≠ byteAt src (p + n)

theorem Common.add {p q limit front n : Nat} (before : p + front ≤ limit)
    (agree : ∀ i < front, byteAt src (q + i) = byteAt src (p + i))
    (h : Common src (p + front) (q + front) limit n) : Common src p q limit (front + n) where
  inside := by have := h.inside; omega
  same i small := by
    by_cases near : i < front
    · exact agree i near
    · have same := h.same (i - front) (by omega)
      rwa [show q + front + (i - front) = q + i by omega,
        show p + front + (i - front) = p + i by omega] at same
  stops more := by
    have stops := h.stops (by omega)
    rwa [Nat.add_assoc, Nat.add_assoc] at stops

/-- Two bytes and one: enough for a rest of three, or before a difference among four. -/
theorem common_two {p q limit : Nat}
    (few : limit ≤ p + 3 ∨ ∃ i < 4, byteAt src (q + i) ≠ byteAt src (p + i)) :
    let two := if p + 1 < limit ∧ readWord src 2 q = readWord src 2 p then 2 else 0
    let one := if p + two < limit ∧ byteAt src (q + two) = byteAt src (p + two) then 1 else 0
    Common src p q limit (two + one) := by
  intro two one
  have pair : readWord src 2 q = readWord src 2 p ↔
      byteAt src q = byteAt src p ∧ byteAt src (q + 1) = byteAt src (p + 1) := by
    rw [readWord_eq_iff]
    constructor
    · intro same
      exact ⟨same 0 (by decide), same 1 (by decide)⟩
    · rintro ⟨first, second⟩ i small
      obtain rfl | rfl : i = 0 ∨ i = 1 := by omega
      · exact first
      · exact second
  by_cases both : p + 1 < limit ∧ readWord src 2 q = readWord src 2 p
  · have isTwo : two = 2 := if_pos both
    obtain ⟨first, second⟩ := pair.mp both.2
    have agree : ∀ i < 2, byteAt src (q + i) = byteAt src (p + i) := by
      intro i small
      obtain rfl | rfl : i = 0 ∨ i = 1 := by omega
      · exact first
      · exact second
    have rest : Common src (p + 2) (q + 2) limit one := by
      simp only [one, isTwo]
      split
      · rename_i third
        refine ⟨by omega, fun i small => ?_, fun more => ?_⟩
        · obtain rfl : i = 0 := by omega
          exact third.2
        · obtain short | ⟨i, small, differ⟩ := few
          · omega
          · obtain rfl : i = 3 := by
              by_contra other
              have : i = 0 ∨ i = 1 ∨ i = 2 := by omega
              obtain rfl | rfl | rfl := this
              · exact differ first
              · exact differ second
              · exact differ third.2
            exact differ
      · rename_i third
        exact ⟨by omega, fun i small => absurd small (Nat.not_lt_zero _),
          fun more same => third ⟨more, same⟩⟩
    rw [isTwo]
    exact Common.add (by omega) agree rest
  · have isZero : two = 0 := if_neg both
    simp only [one, isZero, Nat.zero_add, Nat.add_zero]
    split
    · rename_i first
      refine ⟨by omega, fun i small => ?_, fun more same => both ⟨more, pair.mpr ⟨first.2, same⟩⟩⟩
      obtain rfl : i = 0 := by omega
      exact first.2
    · rename_i first
      exact ⟨by omega, fun i small => absurd small (Nat.not_lt_zero _),
        fun more same => first ⟨more, same⟩⟩

theorem countTail_common (arch : Arch) {p q limit : Nat}
    (short : limit ≤ p + (arch.stepSize - 1)) :
    Common src p q limit (countTail arch src p q limit) := by
  unfold countTail
  by_cases word : arch.stepSize = 8 ∧ p + 3 < limit ∧ read32 src q = read32 src p
  · have agree := (readWord_eq_iff 4 q p).mp word.2.2
    have rest : Common src (p + 4) (q + 4) limit _ := common_two (Or.inl (by omega))
    simp only [if_pos word, Nat.add_assoc]
    simp only [Nat.add_assoc] at rest
    exact Common.add (by omega) agree (by simpa only [Nat.add_assoc] using rest)
  · have few : limit ≤ p + 3 ∨ ∃ i < 4, byteAt src (q + i) ≠ byteAt src (p + i) := by
      by_cases long : p + 3 < limit
      · refine .inr ?_
        by_contra none
        push Not at none
        have same : read32 src q = read32 src p := (readWord_eq_iff 4 q p).mpr none
        refine word ⟨?_, long, same⟩
        cases arch
        · simp only [Arch.stepSize] at short
          omega
        · rfl
      · exact .inl (by omega)
    simp only [if_neg word, Nat.add_zero, Nat.zero_add]
    exact common_two few

/-- Counting a word at a time gives what counting byte by byte would. -/
theorem count_common (src : List UInt8) (arch : Arch) (p q limit : Nat) :
    Common src p q limit (count arch src p q limit) := by
  induction p, q using count.induct arch src limit with
  | case1 p q word diff equal ih =>
    rw [count, if_pos word, if_pos equal]
    have agree := (readWord_eq_iff arch.stepSize q p).mp (Nat.xor_eq_zero_iff.mp equal)
    exact Common.add (by omega) agree ih
  | case2 p q word diff differ =>
    rw [count, if_pos word, if_neg differ]
    have common := le_nbCommonBytes_iff src arch p q
    have less : nbCommonBytes arch diff < arch.stepSize := by
      by_contra full
      have same := (common _ (Nat.le_refl _)).mp (Nat.le_of_not_lt full)
      exact differ (Nat.xor_eq_zero_iff.mpr ((readWord_eq_iff _ _ _).mpr same))
    refine ⟨?_, (common _ (Nat.le_of_lt less)).mp (Nat.le_refl _), fun _ same => ?_⟩
    · change p + nbCommonBytes arch diff ≤ _
      omega
    · have before := (common _ (Nat.le_of_lt less)).mp (Nat.le_refl _)
      have more := (common (nbCommonBytes arch diff + 1) less).mpr fun i small => by
        obtain lt | rfl := Nat.lt_succ_iff_lt_or_eq.mp small
        · exact before i lt
        · exact same
      exact absurd more (Nat.not_succ_le_self _)
  | case3 p q word =>
    rw [count, if_neg word]
    exact countTail_common arch (Nat.le_of_not_lt word)

/-! ### Candidates only move back -/

theorem sub32_of_le {a b : Nat} (le : b ≤ a) (word : a < 2 ^ 32) : sub32 a b = a - b := by
  unfold sub32
  omega

theorem reverseCountTail_le (iLow pattern size ip : Nat) :
    reverseCountTail src iLow pattern size ip ≤ ip - iLow := by
  induction size generalizing ip with
  | zero => exact Nat.zero_le _
  | succ size ih =>
    rw [reverseCountTail]
    split
    · rename_i more
      have := ih (ip - 1)
      omega
    · exact Nat.zero_le _

theorem reverseCountPattern_le (src : List UInt8) (ip iLow pattern : Nat) :
    reverseCountPattern src ip iLow pattern ≤ ip - iLow := by
  induction ip using reverseCountPattern.induct src iLow pattern with
  | case1 ip more ih =>
    rw [reverseCountPattern, if_pos more]
    omega
  | case2 ip more =>
    rw [reverseCountPattern, if_neg more]
    exact reverseCountTail_le _ _ _ _

/-- The tables know only places behind the next one to enter. -/
structure Context.Sound (ctx : Context) : Prop where
  start : prefixStart ≤ ctx.nextToUpdate
  behind : ∀ h, ctx.lastOf h < ctx.nextToUpdate
  near : ∀ idx, ctx.deltaNext idx ≤ maxDistance

theorem getD_replicate_le (size value i : Nat) : (Array.replicate size value).getD i 0 ≤ value := by
  rw [Array.getD_eq_getD_getElem?, Array.getElem?_replicate]
  split
  · exact Nat.le_refl _
  · exact Nat.zero_le _

theorem prefixStart_pos : 0 < prefixStart := by decide

theorem Context.sound_init : Context.init.Sound where
  start := by
    unfold Context.init
    exact Nat.le_refl _
  behind h := by
    unfold Context.lastOf Context.init
    exact Nat.lt_of_le_of_lt (getD_replicate_le _ _ h) prefixStart_pos
  near idx := by
    unfold Context.deltaNext Context.init
    exact getD_replicate_le _ _ _

theorem Context.init_nextToUpdate : Context.init.nextToUpdate = prefixStart := by
  rw [Context.init]

theorem getD_setIfInBounds (table : Array Nat) (i value j : Nat) :
    (table.setIfInBounds i value).getD j 0 = value ∨
      (table.setIfInBounds i value).getD j 0 = table.getD j 0 := by
  simp only [Array.getD_eq_getD_getElem?, Array.getElem?_setIfInBounds]
  split
  · split
    · exact .inl rfl
    · rename_i outside
      rw [Array.getElem?_eq_none (by omega)]
      exact .inr rfl
  · exact .inr rfl

theorem Context.insertOne_hashTable (ctx : Context) (src : List UInt8) (idx : Nat) :
    (ctx.insertOne src idx).hashTable =
      ctx.hashTable.setIfInBounds (hashPtr src (idx - prefixStart)) idx := by
  rw [Context.insertOne]

theorem Context.insertOne_chainTable (ctx : Context) (src : List UInt8) (idx : Nat) :
    (ctx.insertOne src idx).chainTable =
      ctx.chainTable.setIfInBounds (idx % 65536) (ctx.delta src idx) := by
  rw [Context.insertOne]

theorem Context.insertOne_lastOf (ctx : Context) (src : List UInt8) (idx h : Nat) :
    (ctx.insertOne src idx).lastOf h = idx ∨
      (ctx.insertOne src idx).lastOf h = ctx.lastOf h := by
  rw [Context.lastOf, Context.lastOf, Context.insertOne_hashTable]
  exact getD_setIfInBounds _ _ _ _

theorem Context.insertOne_deltaNext (ctx : Context) (src : List UInt8) (idx i : Nat) :
    (ctx.insertOne src idx).deltaNext i = ctx.delta src idx ∨
      (ctx.insertOne src idx).deltaNext i = ctx.deltaNext i := by
  rw [Context.deltaNext, Context.deltaNext, Context.insertOne_chainTable]
  exact getD_setIfInBounds _ _ _ _

theorem Context.delta_le (ctx : Context) (src : List UInt8) (idx : Nat) : ctx.delta src idx ≤ maxDistance := by
  rw [Context.delta]
  exact Nat.min_le_right _ _

theorem Context.insertRange_tables (src : List UInt8) (rounds idx : Nat) (ctx : Context)
    (behind : ∀ h, ctx.lastOf h < idx) (near : ∀ i, ctx.deltaNext i ≤ maxDistance) :
    let entered := (List.range' idx rounds).foldl (fun ctx idx => ctx.insertOne src idx) ctx
    (∀ h, entered.lastOf h < idx + rounds) ∧ ∀ i, entered.deltaNext i ≤ maxDistance := by
  induction rounds generalizing idx ctx with
  | zero => exact ⟨behind, near⟩
  | succ rounds ih =>
    have after : ∀ h, (ctx.insertOne src idx).lastOf h < idx + 1 := by
      intro h
      obtain same | same := ctx.insertOne_lastOf src idx h
      · rw [same]
        exact Nat.lt_succ_self _
      · rw [same]
        exact Nat.lt_succ_of_lt (behind h)
    have chained : ∀ i, (ctx.insertOne src idx).deltaNext i ≤ maxDistance := by
      intro i
      obtain same | same := ctx.insertOne_deltaNext src idx i
      · rw [same]
        exact ctx.delta_le src idx
      · rw [same]
        exact near i
    rw [List.range'_succ, List.foldl_cons, show idx + (rounds + 1) = idx + 1 + rounds by omega]
    exact ih (idx + 1) _ after chained

theorem Context.Sound.insert (src : List UInt8) {ctx : Context} {ip : Nat} (h : ctx.Sound)
    (ahead : ctx.nextToUpdate ≤ ip + prefixStart) : (ctx.insert src ip).Sound := by
  obtain ⟨behind, near⟩ := Context.insertRange_tables src
    (ip + prefixStart - ctx.nextToUpdate) ctx.nextToUpdate ctx h.behind h.near
  rw [Nat.add_sub_cancel' ahead] at behind
  unfold Context.insert
  exact ⟨Nat.le_add_left _ _, behind, near⟩

theorem Context.insert_nextToUpdate (ctx : Context) (ip : Nat) :
    (ctx.insert src ip).nextToUpdate = ip + prefixStart := by
  rw [Context.insert]

/-- The candidate lies before `ip`, and a match already found is one. -/
structure Walk.Sound (src : List UInt8) (ip iHighLimit minLen : Nat) (w : Walk) : Prop where
  before : w.matchIndex < ip + prefixStart
  found : minLen < w.longest → minMatch ≤ w.longest ∧ ip + w.longest ≤ iHighLimit ∧
    w.matchpos < ip ∧ ip ≤ w.matchpos + maxDistance ∧
    ∀ i < w.longest, byteAt src (w.matchpos + i) = byteAt src (ip + i)

theorem lowLimit_spec (ip : Nat) :
    prefixStart ≤ lowLimit ip ∧ ip + prefixStart ≤ lowLimit ip + maxDistance := by
  unfold lowLimit prefixStart maxDistance
  split <;> omega

theorem Walk.Sound.compare (arch : Arch) {ip iHighLimit minLen : Nat} {w : Walk}
    (h : w.Sound src ip iHighLimit minLen) (room : ip + minMatch ≤ iHighLimit)
    (low : lowLimit ip ≤ w.matchIndex) :
    (w.compare arch src ip iHighLimit).Sound src ip iHighLimit minLen := by
  unfold Walk.compare
  simp only
  obtain ⟨start, near⟩ := lowLimit_spec ip
  have before := h.before
  split
  · rename_i same
    split
    · refine ⟨h.before, fun _ => ?_⟩
      have four := (readWord_eq_iff 4 (w.matchIndex - prefixStart) ip).mp same.2
      have common := count_common src arch (ip + minMatch)
        (w.matchIndex - prefixStart + minMatch) iHighLimit
      have whole := Common.add room four common
      have inside := whole.inside
      refine ⟨Nat.le_add_right _ _, ?_, ?_, ?_, whole.same⟩
      · change ip + (minMatch + _) ≤ iHighLimit
        simp only [minMatch] at inside room ⊢
        omega
      · change w.matchIndex - prefixStart < ip
        omega
      · change ip ≤ w.matchIndex - prefixStart + maxDistance
        omega
    · exact h
  · exact h

theorem Walk.detect_fields (src : List UInt8) (arch : Arch) (ip iHighLimit : Nat) (w : Walk) :
    (w.detect arch src ip iHighLimit).matchIndex = w.matchIndex ∧
    (w.detect arch src ip iHighLimit).longest = w.longest ∧
    (w.detect arch src ip iHighLimit).matchpos = w.matchpos := by
  unfold Walk.detect
  simp only
  split
  · split <;> exact ⟨rfl, rfl, rfl⟩
  · exact ⟨rfl, rfl, rfl⟩

theorem Walk.leap_fields (src : List UInt8) (arch : Arch) (ip iHighLimit : Nat) (w : Walk)
    (word : w.matchIndex < 2 ^ 32) :
    (w.leap arch src ip iHighLimit).matchIndex ≤ w.matchIndex ∧
    (w.leap arch src ip iHighLimit).longest = w.longest ∧
    (w.leap arch src ip iHighLimit).matchpos = w.matchpos := by
  unfold Walk.leap
  simp only
  split
  · rename_i good
    have back := reverseCountPattern_le src (w.matchIndex - prefixStart)
      (if ip ≤ maxDistance then 0 else ip - maxDistance) (read32 src ip)
    generalize reverseCountPattern src (w.matchIndex - prefixStart)
      (if ip ≤ maxDistance then 0 else ip - maxDistance) (read32 src ip) = backLength at back ⊢
    generalize countPattern arch src (w.matchIndex - prefixStart + 4) iHighLimit
      (read32 src ip) + 4 = forwardPatternLength
    split
    · refine ⟨?_, rfl, rfl⟩
      simp only [sub32]
      omega
    · refine ⟨?_, rfl, rfl⟩
      simp only [sub32]
      omega
  · exact ⟨Nat.le_refl _, rfl, rfl⟩

theorem Walk.next_fields (src : List UInt8) (arch : Arch) (ip iHighLimit : Nat) {ctx : Context} (sound : ctx.Sound)
    (w : Walk) (low : prefixStart ≤ w.matchIndex) (word : w.matchIndex < 2 ^ 32) :
    (w.next arch src ip iHighLimit ctx).matchIndex ≤ w.matchIndex ∧
    (w.next arch src ip iHighLimit ctx).longest = w.longest ∧
    (w.next arch src ip iHighLimit ctx).matchpos = w.matchpos := by
  have near := sound.near w.matchIndex
  simp only [prefixStart, maxDistance] at low near
  have moved : sub32 w.matchIndex (ctx.deltaNext w.matchIndex) ≤ w.matchIndex := by
    rw [sub32_of_le (by omega) word]
    exact Nat.sub_le _ _
  unfold Walk.next
  simp only
  split
  · generalize back : ({ w with
      matchIndex := sub32 w.matchIndex (ctx.deltaNext w.matchIndex) } : Walk) = v
    have fields : v.matchIndex ≤ w.matchIndex ∧ v.longest = w.longest ∧
        v.matchpos = w.matchpos := by
      subst back
      exact ⟨moved, rfl, rfl⟩
    obtain ⟨index, longest, matchpos⟩ := Walk.detect_fields src arch ip iHighLimit v
    obtain ⟨index', longest', matchpos'⟩ := Walk.leap_fields src arch ip iHighLimit
      (v.detect arch src ip iHighLimit) (by omega)
    exact ⟨by omega, by omega, by omega⟩
  · exact ⟨moved, rfl, rfl⟩

theorem Walk.Sound.walkChain (arch : Arch) {ip iHighLimit minLen : Nat} {ctx : Context}
    (sound : ctx.Sound) (room : ip + minMatch ≤ iHighLimit) (word : ip + prefixStart ≤ 2 ^ 32)
    {w : Walk} (h : w.Sound src ip iHighLimit minLen) (nbAttempts : Nat) :
    (walkChain arch src ip iHighLimit ctx nbAttempts w).Sound src ip iHighLimit minLen := by
  induction nbAttempts generalizing w with
  | zero => exact h
  | succ nbAttempts ih =>
    rw [Lz4.walkChain]
    split
    · rename_i low
      have compared := h.compare arch room low
      have same : (w.compare arch src ip iHighLimit).matchIndex = w.matchIndex := by
        unfold Walk.compare
        simp only
        split
        · split <;> rfl
        · rfl
      have before := compared.before
      obtain ⟨start, -⟩ := lowLimit_spec ip
      obtain ⟨index, longest, matchpos⟩ :=
        Walk.next_fields src arch ip iHighLimit sound (w.compare arch src ip iHighLimit) (by omega) (by omega)
      refine ih ⟨by omega, fun longer => ?_⟩
      rw [longest] at longer ⊢
      rw [matchpos]
      exact compared.found longer
    · exact h

/-- Whatever the tables hold, what is found repeats the source. -/
theorem findLongerMatch_found {arch : Arch} {ctx : Context} {ip iHighLimit minLen nbSearches : Nat}
    (sound : ctx.Sound) (ahead : ctx.nextToUpdate ≤ ip + prefixStart)
    (room : ip + minMatch ≤ iHighLimit) (ends : iHighLimit ≤ src.length)
    (small : src.length ≤ maxInputSize) {longest offset : Nat}
    (found : (findLongerMatch arch src ctx ip iHighLimit minLen nbSearches).2 =
      some (longest, offset)) :
    minLen < longest ∧ minMatch ≤ longest ∧ ip + longest ≤ iHighLimit ∧
      Repeats src ip offset longest := by
  have inserted := sound.insert src ahead
  have word : ip + prefixStart ≤ 2 ^ 32 := by
    simp only [maxInputSize, prefixStart, minMatch] at *
    omega
  have begins : Walk.Sound src ip iHighLimit minLen
      ⟨(ctx.insert src ip).lastOf (hashPtr src ip), minLen, 0, .untested, 0⟩ :=
    ⟨inserted.behind _, fun longer => absurd longer (Nat.lt_irrefl _)⟩
  have walked := begins.walkChain arch inserted room word nbSearches
  simp only [findLongerMatch] at found
  generalize walkChain arch src ip iHighLimit (ctx.insert src ip) nbSearches _ = w at walked found
  split at found
  · cases found
  · rename_i longer
    obtain ⟨rfl, rfl⟩ := Prod.mk.inj (Option.some.inj found)
    obtain ⟨long, inside, earlier, near, same⟩ := walked.found (Nat.lt_of_not_le longer)
    refine ⟨Nat.lt_of_not_le longer, long, inside, ?_⟩
    exact
      { back := by omega
        near := by omega
        within := Nat.sub_le _ _
        inside := by omega
        same := fun i small => by
          rw [show ip + i - (ip - w.matchpos) = w.matchpos + i by omega]
          exact same i small }

end Lz4
