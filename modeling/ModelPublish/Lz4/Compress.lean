import ModelPublish.Lz4.Ways

/-!
# `LZ4_compress_HC` meets its contract

With the capacity `LZ4_compressBound` asks for, the output is never checked against the end of the
destination. It stays inside all the same, and decodes to the source.
-/

namespace Lz4

variable {src : List UInt8}

/-- What the rounds of the main loop keep true. -/
structure State.Sound (src : List UInt8) (s : State) : Prop where
  ctx : s.ctx.Sound
  searched : s.ctx.nextToUpdate ≤ s.out.ip + prefixStart
  size : s.opt.size = optNum + trailingLiterals
  out : s.out.Sound src

theorem Level.sufficient_lt (level : Level) : level.sufficient < optNum := by
  unfold Level.sufficient
  split
  · decide
  · omega

theorem State.Sound.round {arch : Arch} {level : Level} {limit : Option Nat} {s next : State}
    (h : s.Sound src) (small : src.length ≤ maxInputSize) (early : s.out.ip + mfLimit < src.length)
    (moved : s.round arch level src limit = some next) :
    next.Sound src ∧ s.out.ip < next.out.ip := by
  obtain ⟨searching, advanced, found⟩ := findLongerMatch_usable arch (minMatch - 1)
    level.nbSearches h.ctx h.searched early small
  have sufficient := level.sufficient_lt
  unfold State.round at moved
  simp only at moved
  generalize findLongerMatch arch src s.ctx s.out.ip (src.length - lastLiteralsLength)
    (minMatch - 1) level.nbSearches = firstMatch at searching advanced found moved
  split at moved
  · obtain rfl := Option.some.inj moved
    exact ⟨⟨searching, by simp only; omega, h.size, h.out.literal⟩, Nat.lt_succ_self _⟩
  · rename_i length offset isSome
    have usable := found length offset isSome
    have long := usable.long
    simp only [minMatch] at long
    split at moved
    · obtain ⟨out, encoded, rfl⟩ := Option.map_eq_some_iff.mp moved
      obtain ⟨sound, ip⟩ := h.out.sequence usable encoded
      exact ⟨⟨searching, by simp only; omega, h.size, sound⟩, by simp only; omega⟩
    · rename_i priced
      have table := Table.sound_first (s.out.ip - s.out.anchor) h.size usable (by omega)
      have chosen := furtherPositions_sound arch level small (optNum - 1) searching table
        (by decide) (by decide) (by simp only [optNum]; omega) (by simp only [optNum] at *; omega)
      generalize furtherPositions arch level src s.out.ip (optNum - 1) firstMatch.1 _ = choice
        at chosen moved
      obtain ⟨out, encoded, rfl⟩ := Option.map_eq_some_iff.mp moved
      have way := reverseTraversal_way (Nat.lt_succ_self _) chosen.short chosen.filled chosen.step
        .done
      obtain ⟨sound, ip⟩ := encodeRecorded_sound way chosen.upTo (Nat.le_refl _) h.out rfl encoded
      have further := chosen.further
      have searched := chosen.searched
      refine ⟨⟨chosen.ctx, by simp only; omega, ?_, sound⟩, by simp only; omega⟩
      rw [size_reverseTraversal]
      exact chosen.filled.size

theorem State.round_noLimit (src : List UInt8) (arch : Arch) (level : Level) (s : State) :
    (s.round arch level src none).isSome := by
  unfold State.round
  simp only
  split
  · rfl
  · split
    · rw [Option.isSome_map]
      exact encodeSequence_noLimit src _ _ _
    · rw [Option.isSome_map]
      exact encodeRecorded_noLimit _ _ _ _ _

/-- As many rounds as bytes are enough: the loop ends because its condition fails. -/
theorem State.Sound.rounds {arch : Arch} {level : Level} {limit : Option Nat}
    (small : src.length ≤ maxInputSize) {rounds : Nat} {s last : State} (h : s.Sound src)
    (enough : src.length ≤ s.out.ip + rounds)
    (run : State.rounds arch level src limit rounds s = some last) :
    last.Sound src ∧ src.length ≤ last.out.ip + mfLimit := by
  induction rounds generalizing s with
  | zero =>
    obtain rfl := Option.some.inj run
    exact ⟨h, by omega⟩
  | succ rounds ih =>
    rw [State.rounds] at run
    split at run
    · rename_i early
      obtain ⟨next, moved, run⟩ := Option.bind_eq_some_iff.mp run
      obtain ⟨sound, further⟩ := h.round small early moved
      exact ih sound (by omega) run
    · obtain rfl := Option.some.inj run
      exact ⟨h, by omega⟩

theorem State.sound_start (stack : Vector Optimal (optNum + trailingLiterals)) :
    State.Sound src ⟨.init, stack.toArray, ⟨0, 0, [], 0⟩⟩ where
  ctx := Context.sound_init
  searched := Nat.le_trans (Nat.le_of_eq Context.init_nextToUpdate) (Nat.le_add_left _ _)
  size := stack.size_toArray
  out := Output.sound_nil

theorem State.rounds_noLimit (src : List UInt8) (arch : Arch) (level : Level) (rounds : Nat) (s : State) :
    (State.rounds arch level src none rounds s).isSome := by
  induction rounds generalizing s with
  | zero => rfl
  | succ rounds ih =>
    rw [State.rounds]
    split
    · obtain ⟨next, moved⟩ := Option.isSome_iff_exists.mp (State.round_noLimit src arch level s)
      rw [moved]
      exact ih next
    · rfl

theorem lastRun_eq (literals : List UInt8) : lastRun literals = lastLiterals literals := by
  rw [lastRun, lastLiterals, runBytes_eq]

theorem length_lastRun (literals : List UInt8) :
    (lastRun literals).length = literals.length + 1 + (literals.length + 255 - 15) / 255 := by
  rw [lastRun_eq, lastLiterals_eq, List.length_cons, List.length_append, length_behindNibble]
  split <;> omega

/-- What a call writes is a block of the source. It is no longer than `LZ4_compressBound` allows,
no copy goes further, and it keeps to the limit where there is one. -/
theorem compressOptimal_written {arch : Arch} {level : Level} {limit : Option Nat}
    {stack : Vector Optimal (optNum + trailingLiterals)} {op : List UInt8} {touched : Nat}
    (small : src.length ≤ maxInputSize)
    (written : compressOptimal arch level limit stack src = some (op, touched)) :
    decompressFast op src.length = .done op.length src ∧ 0 < op.length ∧
      op.length ≤ compressBound src.length ∧ touched ≤ compressBound src.length ∧
      ∀ oend ∈ limit, op.length ≤ oend := by
  obtain ⟨s, run, last⟩ := Option.bind_eq_some_iff.mp written
  obtain ⟨sound, -⟩ := (State.sound_start stack).rounds small (by simp only; omega) run
  have out := sound.out
  have inside := out.inside
  have compact := out.compact
  have touched' := out.touched
  have length : (src.drop s.out.anchor).length = src.length - s.out.anchor := List.length_drop
  simp only at last
  split at last
  · cases last
  · rename_i fits
    obtain ⟨rfl, rfl⟩ := Prod.mk.inj (Option.some.inj last)
    have size := length_lastRun (src.drop s.out.anchor)
    have total : (s.out.op ++ lastRun (src.drop s.out.anchor)).length ≤
        src.length + src.length / 255 + 16 := by
      rw [List.length_append]
      omega
    rw [compressBound, if_neg (by omega)]
    refine ⟨?_, ?_, total, Nat.max_le.mpr ⟨touched', total⟩, fun oend limited => ?_⟩
    · rw [lastRun_eq]
      exact out.stands.decodes inside
    · rw [List.length_append]
      omega
    · simp only [Option.mem_def] at limited
      simp only [limited, exceeds, Option.any_some, decide_eq_true_eq] at fits
      rw [List.length_append]
      omega

theorem compressOptimal_noLimit (arch : Arch) (level : Level)
    (stack : Vector Optimal (optNum + trailingLiterals)) (src : List UInt8) :
    (compressOptimal arch level none stack src).isSome := by
  obtain ⟨s, run⟩ := Option.isSome_iff_exists.mp
    (State.rounds_noLimit src arch level src.length ⟨.init, stack.toArray, ⟨0, 0, [], 0⟩⟩)
  rw [compressOptimal, run]
  rfl

/-- The contract the file format rests on, met by the code itself: whatever the stack held, whatever
the level's search parameters and for both machine words. -/
theorem compressHC_restores (arch : Arch) (level : Level)
    (stack : Vector Optimal (optNum + trailingLiterals)) :
    CompressHC (compressHC arch level stack) := by
  have call (src : List UInt8) (capacity : Nat) (room : compressBound src.length ≤ capacity) :
      ∃ touched, compressOptimal arch level none stack src =
        some (compressHC arch level stack src capacity, touched) := by
    obtain ⟨⟨op, touched⟩, written⟩ := Option.isSome_iff_exists.mp
      (compressOptimal_noLimit arch level stack src)
    refine ⟨touched, ?_⟩
    rw [compressHC, if_neg (by omega), written]
  constructor
  · intro src capacity small room
    obtain ⟨touched, written⟩ := call src capacity room
    obtain ⟨-, some, bound, -⟩ := compressOptimal_written small written
    exact ⟨some, bound⟩
  · intro src capacity small room
    obtain ⟨touched, written⟩ := call src capacity room
    exact (compressOptimal_written small written).1

/-- Whatever the capacity: nothing, or a block of the source that fits it. -/
theorem compressHC_fits (arch : Arch) (level : Level)
    (stack : Vector Optimal (optNum + trailingLiterals)) (src : List UInt8) (dstCapacity : Nat)
    (small : src.length ≤ maxInputSize) :
    compressHC arch level stack src dstCapacity = [] ∨
      (compressHC arch level stack src dstCapacity).length ≤ dstCapacity ∧
        decompressFast (compressHC arch level stack src dstCapacity) src.length =
          .done (compressHC arch level stack src dstCapacity).length src := by
  unfold compressHC
  simp only
  split
  · exact .inl rfl
  · rename_i op touched written
    obtain ⟨decodes, -, bound, -, limited⟩ := compressOptimal_written small written
    refine .inr ⟨?_, decodes⟩
    by_cases tight : dstCapacity < compressBound src.length
    · exact limited dstCapacity (if_pos tight)
    · omega

/-- A cleared stack. -/
def clear : Vector Optimal (optNum + trailingLiterals) := Vector.replicate _ ⟨0, 0, 0, 0⟩

theorem compressHC_fits_three :
    [1, 2, 3].length ≤ maxInputSize ∧
      (compressHC .x64 .twelve clear [1, 2, 3] 4 = [] ∨
        (compressHC .x64 .twelve clear [1, 2, 3] 4).length ≤ 4 ∧
          decompressFast (compressHC .x64 .twelve clear [1, 2, 3] 4) 3 =
            .done (compressHC .x64 .twelve clear [1, 2, 3] 4).length [1, 2, 3]) :=
  ⟨by decide, compressHC_fits .x64 .twelve clear [1, 2, 3] 4 (by decide)⟩

/-- Where nothing checks the output, the main loop goes on until its condition fails, and no copy of eight bytes
goes past the capacity. -/
theorem compressOptimal_inside (arch : Arch) (level : Level)
    (stack : Vector Optimal (optNum + trailingLiterals)) (src : List UInt8) (dstCapacity : Nat)
    (small : src.length ≤ maxInputSize) (room : compressBound src.length ≤ dstCapacity) :
    ∃ last op touched,
      State.rounds arch level src none src.length ⟨.init, stack.toArray, ⟨0, 0, [], 0⟩⟩ = some last ∧
      ¬ last.out.ip + mfLimit < src.length ∧
      compressOptimal arch level none stack src = some (op, touched) ∧ touched ≤ dstCapacity := by
  obtain ⟨last, run⟩ := Option.isSome_iff_exists.mp
    (State.rounds_noLimit src arch level src.length ⟨.init, stack.toArray, ⟨0, 0, [], 0⟩⟩)
  obtain ⟨-, ended⟩ := (State.sound_start stack).rounds small (by simp only; omega) run
  obtain ⟨⟨op, touched⟩, written⟩ := Option.isSome_iff_exists.mp
    (compressOptimal_noLimit arch level stack src)
  obtain ⟨-, -, -, inside, -⟩ := compressOptimal_written small written
  exact ⟨last, op, touched, run, by omega, written, Nat.le_trans inside room⟩

theorem compressOptimal_inside_run :
    ∃ last op touched,
      State.rounds .x32 .eleven (List.replicate 1000 7) none 1000 ⟨.init, clear.toArray, ⟨0, 0, [], 0⟩⟩ = some last ∧
      ¬ last.out.ip + mfLimit < 1000 ∧
      compressOptimal .x32 .eleven none clear (List.replicate 1000 7) = some (op, touched) ∧ touched ≤ 1019 := by
  have length : (List.replicate 1000 (7 : UInt8)).length = 1000 := List.length_replicate
  have inside := compressOptimal_inside .x32 .eleven clear (List.replicate 1000 7) 1019 (by rw [length]; decide)
    (by rw [length]; decide)
  rw [length] at inside
  exact inside

end Lz4
