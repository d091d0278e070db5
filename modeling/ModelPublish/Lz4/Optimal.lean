import ModelPublish.Lz4.Found

/-!
# The optimal parser

`LZ4HC_compress_optimal`, which `LZ4_compress_HC` runs at its highest levels. From `ip` on it prices
every way to reach the next positions, walks back from the last one reached, and writes the
sequences of the way it came by.
-/

namespace Lz4

/-! ### `LZ4HC_encodeSequence` -/

/-- Where the parser stands: the next byte, the first byte not written yet and what is written.
`touched` is one past the last byte of the destination that any copy has reached. -/
structure Output where
  ip : Nat
  anchor : Nat
  op : List UInt8
  touched : Nat

def runBytes (len : Nat) : List UInt8 :=
  if 255 ≤ len then 255 :: runBytes (len - 255) else [UInt8.ofNat len]
termination_by len

/-- The match length behind its token, two bytes a round. -/
def matchBytes (length : Nat) : List UInt8 :=
  if 510 ≤ length then 255 :: 255 :: matchBytes (length - 510)
  else if 255 ≤ length then [255, UInt8.ofNat (length - 255)]
  else [UInt8.ofNat length]
termination_by length

/-- `(limit) && (op > oend)`, where no limit is no `oend`. -/
def exceeds (limit : Option Nat) (op : Nat) : Bool := limit.any fun oend => decide (oend < op)

/-- `LZ4_wildCopy` goes on by eights until it has passed its end, once at least. -/
def wildCopyEnd (op length : Nat) : Nat := op + 8 * max 1 ((length + 7) / 8)

/-- `none` where the output limit is reached. -/
def encodeSequence (src : List UInt8) (limit : Option Nat) (out : Output)
    (matchLength matchPos : Nat) : Option Output :=
  let length := out.ip - out.anchor
  let op := out.op.length + 1
  if exceeds limit (op + length / 256 + length + (2 + 1 + lastLiteralsLength)) then none
  else
    let token : UInt8 := if 15 ≤ length then 0xF0 else UInt8.ofNat (16 * length)
    let run := if 15 ≤ length then runBytes (length - 15) else []
    let literals := (src.drop out.anchor).take length
    let offset := (out.ip - matchPos) % 65536
    let copied := run ++ literals ++ [UInt8.ofNat offset, UInt8.ofNat (offset / 256)]
    let wild := wildCopyEnd (op + run.length) length
    let op := op + copied.length
    let length := matchLength - minMatch
    if exceeds limit (op + length / 256 + (1 + lastLiteralsLength)) then none
    else
      let token := token + if 15 ≤ length then 15 else UInt8.ofNat length
      let behind := if 15 ≤ length then matchBytes (length - 15) else []
      some
        { ip := out.ip + matchLength
          anchor := out.ip + matchLength
          op := out.op ++ token :: (copied ++ behind)
          touched := max out.touched (max wild (op + behind.length)) }

/-! ### Prices -/

def optNum : Nat := 4096
def trailingLiterals : Nat := 3

/-- `LZ4HC_optimal_t`: the last step of the cheapest way to a position. -/
structure Optimal where
  price : Int
  off : Nat
  mlen : Nat
  litlen : Nat

def entry (opt : Array Optimal) (pos : Nat) : Optimal := opt.getD pos ⟨0, 0, 0, 0⟩

def literalsPrice (litlen : Nat) : Int :=
  if 15 ≤ litlen then litlen + (1 + (litlen - 15 : Nat) / 255 : Nat) else litlen

def sequencePrice (litlen mlen : Nat) : Int :=
  1 + 2 + literalsPrice litlen + if 19 ≤ mlen then (1 + (mlen - 19) / 255 : Nat) else 0

/-- The first positions, reached by literals. -/
def setLiterals (opt : Array Optimal) (llen : Nat) : Nat → Array Optimal
  | 0 => opt
  | rPos + 1 => (setLiterals opt llen rPos).setIfInBounds rPos
      ⟨literalsPrice (llen + rPos), 0, 1, llen + rPos⟩

/-- The positions the initial match reaches. -/
def setMatches (opt : Array Optimal) (llen offset : Nat) : Nat → Array Optimal
  | 0 => opt
  | rounds + 1 =>
    let mlen := minMatch + rounds
    (setMatches opt llen offset rounds).setIfInBounds mlen
      ⟨sequencePrice llen mlen, offset, mlen, llen⟩

/-- The positions behind the last one reached, by literals. -/
def setTrailing (opt : Array Optimal) (lastMatchPos : Nat) : Nat → Array Optimal
  | 0 => opt
  | rounds + 1 =>
    let opt := setTrailing opt lastMatchPos rounds
    let addLit := rounds + 1
    opt.setIfInBounds (lastMatchPos + addLit)
      ⟨(entry opt lastMatchPos).price + literalsPrice addLit, 0, 1, addLit⟩

/-- `before match`: the next positions by literals, where that is cheaper. -/
def literalsBefore (opt : Array Optimal) (cur baseLitlen : Nat) : Nat → Array Optimal
  | 0 => opt
  | rounds + 1 =>
    let opt := literalsBefore opt cur baseLitlen rounds
    let litlen := rounds + 1
    let price := (entry opt cur).price - literalsPrice baseLitlen + literalsPrice (baseLitlen + litlen)
    if price < (entry opt (cur + litlen)).price then
      opt.setIfInBounds (cur + litlen) ⟨price, 0, 1, baseLitlen + litlen⟩
    else opt

/-- The positions priced so far. -/
structure Table where
  opt : Array Optimal
  lastMatchPos : Nat

/-- The price of a match at `cur`, behind the literals that lead there. -/
def matchPrice (opt : Array Optimal) (cur ml : Nat) : Int :=
  if (entry opt cur).mlen = 1 then
    let ll := (entry opt cur).litlen
    (if ll < cur then (entry opt (cur - ll)).price else 0) + sequencePrice ll ml
  else (entry opt cur).price + sequencePrice 0 ml

/-- `set prices using match at position = cur`. -/
def setMatchAt (t : Table) (cur matchML offset : Nat) : Nat → Table
  | 0 => t
  | rounds + 1 =>
    let t := setMatchAt t cur matchML offset rounds
    let ml := minMatch + rounds
    let pos := cur + ml
    let price := matchPrice t.opt cur ml
    if t.lastMatchPos + trailingLiterals < pos ∨ price ≤ (entry t.opt pos).price then
      { opt := t.opt.setIfInBounds pos
          ⟨price, offset, ml, if (entry t.opt cur).mlen = 1 then (entry t.opt cur).litlen else 0⟩
        lastMatchPos := if ml = matchML ∧ t.lastMatchPos < pos then pos else t.lastMatchPos }
    else t

/-! ### The way there and back -/

/-- What the level asks for: `nbSearches`, `sufficient_len` and `fullUpdate`. -/
structure Level where
  nbSearches : Nat
  sufficientLen : Nat
  fullUpdate : Bool

def Level.twelve : Level := ⟨2 ^ 13, optNum, true⟩
def Level.eleven : Level := ⟨512, 128, false⟩

def Level.sufficient (level : Level) : Nat :=
  if optNum ≤ level.sufficientLen then optNum - 1 else level.sufficientLen

/-- At `encode`: the table, and the last step to take. -/
structure Choice where
  ctx : Context
  opt : Array Optimal
  lastMatchPos : Nat
  cur : Nat
  bestMlen : Nat
  bestOff : Nat

def Table.finish (t : Table) (ctx : Context) : Choice where
  ctx := ctx
  opt := t.opt
  lastMatchPos := t.lastMatchPos
  cur := t.lastMatchPos - (entry t.opt t.lastMatchPos).mlen
  bestMlen := (entry t.opt t.lastMatchPos).mlen
  bestOff := (entry t.opt t.lastMatchPos).off

/-- `not useful to search here`. -/
def skips (level : Level) (opt : Array Optimal) (cur : Nat) : Bool :=
  decide ((entry opt (cur + 1)).price ≤ (entry opt cur).price) &&
    (!level.fullUpdate || decide ((entry opt (cur + minMatch)).price < (entry opt cur).price + 3))

/-- The table with the match found at `cur`. -/
def Table.enter (t : Table) (cur len off : Nat) : Table :=
  let opt := literalsBefore t.opt cur (entry t.opt cur).litlen (minMatch - 1)
  let t := setMatchAt { t with opt := opt } cur len off (len + 1 - minMatch)
  { t with opt := setTrailing t.opt t.lastMatchPos trailingLiterals }

/-- `check further positions`, from `cur` on. No position reaches `LZ4_OPT_NUM`, which bounds the
rounds. -/
def furtherPositions (arch : Arch) (level : Level) (src : List UInt8) (ip : Nat) :
    Nat → Context → Table → Choice
  | 0, ctx, t => t.finish ctx
  | rounds + 1, ctx, t =>
    let cur := optNum - (rounds + 1)
    if cur < t.lastMatchPos ∧ ip + cur + mfLimit < src.length then
      if skips level t.opt cur then furtherPositions arch level src ip rounds ctx t
      else
        let minLen := if level.fullUpdate then minMatch - 1 else t.lastMatchPos - cur
        let newMatch := findLongerMatch arch src ctx (ip + cur) (src.length - lastLiteralsLength)
          minLen level.nbSearches
        match newMatch.2 with
        | none => furtherPositions arch level src ip rounds newMatch.1 t
        | some (len, off) =>
          if level.sufficient < len ∨ optNum ≤ len + cur then
            ⟨newMatch.1, t.opt, cur + 1, cur, len, off⟩
          else furtherPositions arch level src ip rounds newMatch.1 (t.enter cur len off)
    else t.finish ctx

/-- `reverse traversal`: every position of the way is told the step that leaves it. -/
def reverseTraversal : Nat → Nat → Nat → Nat → Array Optimal → Array Optimal
  | 0, _, _, _, opt => opt
  | rounds + 1, candidatePos, selectedMatchLength, selectedOffset, opt =>
    let next := entry opt candidatePos
    let opt := opt.setIfInBounds candidatePos
      { next with mlen := selectedMatchLength, off := selectedOffset }
    if candidatePos < next.mlen then opt
    else reverseTraversal rounds (candidatePos - next.mlen) next.mlen next.off opt

/-- `encode all recorded sequences in order`. -/
def encodeRecorded (src : List UInt8) (limit : Option Nat) (opt : Array Optimal)
    (lastMatchPos : Nat) : Nat → Nat → Output → Option Output
  | 0, _, out => some out
  | rounds + 1, rPos, out =>
    if rPos < lastMatchPos then
      let ml := (entry opt rPos).mlen
      if ml = 1 then
        encodeRecorded src limit opt lastMatchPos rounds (rPos + 1) { out with ip := out.ip + 1 }
      else
        (encodeSequence src limit out ml (out.ip - (entry opt rPos).off)).bind
          (encodeRecorded src limit opt lastMatchPos rounds (rPos + ml))
    else some out

/-- What the rounds of the main loop hand on. `opt` is never cleared. -/
structure State where
  ctx : Context
  opt : Array Optimal
  out : Output

def State.round (arch : Arch) (level : Level) (src : List UInt8) (limit : Option Nat) (s : State) :
    Option State :=
  let ip := s.out.ip
  let llen := ip - s.out.anchor
  let firstMatch := findLongerMatch arch src s.ctx ip (src.length - lastLiteralsLength)
    (minMatch - 1) level.nbSearches
  match firstMatch.2 with
  | none => some { s with ctx := firstMatch.1, out := { s.out with ip := ip + 1 } }
  | some (len, off) =>
    if level.sufficient < len then
      (encodeSequence src limit s.out len (ip - off)).map fun out =>
        { s with ctx := firstMatch.1, out := out }
    else
      let opt := setMatches (setLiterals s.opt llen minMatch) llen off (len + 1 - minMatch)
      let choice := furtherPositions arch level src ip (optNum - 1) firstMatch.1
        ⟨setTrailing opt len trailingLiterals, len⟩
      let opt := reverseTraversal (choice.cur + 1) choice.cur choice.bestMlen choice.bestOff
        choice.opt
      (encodeRecorded src limit opt choice.lastMatchPos choice.lastMatchPos 0 s.out).map fun out =>
        { ctx := choice.ctx, opt := opt, out := out }

/-- The main loop. Every round moves `ip`, which bounds the rounds. -/
def State.rounds (arch : Arch) (level : Level) (src : List UInt8) (limit : Option Nat) :
    Nat → State → Option State
  | 0, s => some s
  | rounds + 1, s =>
    if s.out.ip + mfLimit < src.length then
      (s.round arch level src limit).bind (State.rounds arch level src limit rounds)
    else some s

/-- `Encode Last Literals`. -/
def lastRun (literals : List UInt8) : List UInt8 :=
  if 15 ≤ literals.length then 0xF0 :: (runBytes (literals.length - 15) ++ literals)
  else UInt8.ofNat (16 * literals.length) :: literals

/-- The whole output, with the bytes any copy has touched, or nothing where the limit is reached. -/
def compressOptimal (arch : Arch) (level : Level) (limit : Option Nat)
    (stack : Vector Optimal (optNum + trailingLiterals)) (src : List UInt8) : Option (List UInt8 × Nat) :=
  (State.rounds arch level src limit src.length ⟨.init, stack.toArray, ⟨0, 0, [], 0⟩⟩).bind fun s =>
    let literals := src.drop s.out.anchor
    let op := s.out.op ++ lastRun literals
    if exceeds limit (s.out.op.length + literals.length + 1 + (literals.length + 255 - 15) / 255)
    then none
    else some (op, max s.out.touched op.length)

/-- `LZ4_compress_HC` at the levels of the optimal parser, with whatever its stack held before.
Returning 0 is the empty list. -/
def compressHC (arch : Arch) (level : Level) (stack : Vector Optimal (optNum + trailingLiterals))
    (src : List UInt8) (dstCapacity : Nat) : List UInt8 :=
  let limit := if dstCapacity < compressBound src.length then some dstCapacity else none
  match compressOptimal arch level limit stack src with
  | none => []
  | some (op, _) => op

end Lz4
