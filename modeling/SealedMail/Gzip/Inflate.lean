import SealedMail.Gzip.PrefixCode

/-!
# Inflating

Compressed data is a row of blocks. A block holds bytes as they are, or symbols of two prefix
codes: bytes, and copies of earlier output. A copy from before the start of the output yields
zeros. Output is decoded only as far as it is asked for, and each of its bytes comes with how much
of the data it takes to know it.
-/

namespace SealedMail.Gzip

/-- What a symbol of a block stands for. -/
inductive Token where
  | literal (x : UInt8)
  | copy (length distance : Nat)
  | endOfBlock
  deriving DecidableEq

/-- The least value and the number of further bits for each kind of length. -/
def lengthKinds : List (Nat × Nat) :=
  [(3, 0), (4, 0), (5, 0), (6, 0), (7, 0), (8, 0), (9, 0), (10, 0), (11, 1), (13, 1), (15, 1),
    (17, 1), (19, 2), (23, 2), (27, 2), (31, 2), (35, 3), (43, 3), (51, 3), (59, 3), (67, 4),
    (83, 4), (99, 4), (115, 4), (131, 5), (163, 5), (195, 5), (227, 5), (258, 0)]

/-- The least value and the number of further bits for each kind of distance. -/
def distanceKinds : List (Nat × Nat) :=
  [(1, 0), (2, 0), (3, 0), (4, 0), (5, 1), (7, 1), (9, 2), (13, 2), (17, 3), (25, 3), (33, 4),
    (49, 4), (65, 5), (97, 5), (129, 6), (193, 6), (257, 7), (385, 7), (513, 8), (769, 8),
    (1025, 9), (1537, 9), (2049, 10), (3073, 10), (4097, 11), (6145, 11), (8193, 12), (12289, 12),
    (16385, 13), (24577, 13)]

def readValue (kinds : List (Nat × Nat)) (kind : Nat) : BitReader Nat :=
  match kinds[kind]? with
  | some (least, width) => do return least + (← BitReader.number width)
  | none => BitReader.corrupt

/-- The two codes of a block. -/
structure Codes where
  literals : PrefixCode
  distances : PrefixCode

def Codes.readToken (codes : Codes) : BitReader Token := do
  let symbol ← codes.literals.read
  if symbol < 256 then return .literal (UInt8.ofNat symbol)
  else if symbol = 256 then return .endOfBlock
  else
    let length ← readValue lengthKinds (symbol - 257)
    let distance ← readValue distanceKinds (← codes.distances.read)
    return .copy length distance

/-- The code for bytes and lengths that is used without being sent. -/
def fixedLiterals : List Nat :=
  List.replicate 144 8 ++ List.replicate 112 9 ++ List.replicate 24 7 ++ List.replicate 8 8

def fixedDistances : List Nat := List.replicate 32 5

def Codes.ofLengths (literals distances : List Nat) : BitReader Codes :=
  match PrefixCode.ofLengths? literals, PrefixCode.ofLengths? distances with
  | some literals, some distances => pure ⟨literals, distances⟩
  | _, _ => BitReader.corrupt

/-- The order in which the lengths of the code for lengths are sent. -/
def lengthOrder : List Nat := [16, 17, 18, 0, 8, 7, 9, 6, 10, 5, 11, 4, 12, 3, 13, 2, 14, 1, 15]

def readNumbers (width : Nat) : Nat → BitReader (List Nat)
  | 0 => pure []
  | count + 1 => do
    let n ← BitReader.number width
    return n :: (← readNumbers width count)

/-- The next run of lengths, after a given one. -/
def readRun (code : PrefixCode) (last : Option Nat) : BitReader (List Nat) := do
  let symbol ← code.read
  if symbol < 16 then return [symbol]
  else if symbol = 16 then
    match last with
    | some length => return List.replicate (3 + (← BitReader.number 2)) length
    | none => BitReader.corrupt
  else if symbol = 17 then return List.replicate (3 + (← BitReader.number 3)) 0
  else return List.replicate (11 + (← BitReader.number 7)) 0

/-- The given number of lengths, of which those in `done` are read, the last one first. -/
def readLengths (code : PrefixCode) (count : Nat) : Nat → List Nat → BitReader (List Nat)
  | 0, _ => BitReader.corrupt
  | fuel + 1, done => do
    if done.length < count then
      let run ← readRun code done.head?
      readLengths code count fuel (run.reverse ++ done)
    else if done.length = count then return done.reverse
    else BitReader.corrupt

/-- The codes at the start of a block. -/
def Codes.read : BitReader Codes := do
  let literals := 257 + (← BitReader.number 5)
  let distances := 1 + (← BitReader.number 5)
  let given := 4 + (← BitReader.number 4)
  -- symbols beyond these have no meaning
  if literals ≤ 286 ∧ distances ≤ 30 then
    let sent := lengthOrder.zip (← readNumbers 3 given)
    let lengths := (List.range 19).map fun symbol => (sent.lookup symbol).getD 0
    match PrefixCode.complete? lengths with
    | none => BitReader.corrupt
    | some code =>
      let count := literals + distances
      -- the lengths of both codes are one row, and a run may go across
      let lengths ← readLengths code count (count + 1) []
      Codes.ofLengths (lengths.take literals) (lengths.drop literals)
  else BitReader.corrupt

/-- A byte of the output. -/
structure OutputByte where
  value : UInt8
  /-- How many bytes of the data are taken when this one is the next to be written. -/
  before : Nat
  /-- How many of them are taken when this one is written. -/
  after : Nat

/-- Output that is decoded byte by byte. It ends with what is left of the data, or with why there is
no more output. -/
inductive Decoding where
  | ended (ending : Except Stop BitStream)
  | byte (x : OutputByte) (next : Unit → Decoding)

/-- The output after those bytes of it that are already there, and how it ends. -/
def Decoding.collect (output : ByteArray) : Decoding → ByteArray × Except Stop BitStream
  | .ended ending => (output, ending)
  | .byte x next => (next ()).collect (output.push x.value)

/-- All of the output and what is left of the data, if the data is complete. -/
def Decoding.complete? (decoding : Decoding) : Option (Bytes × BitStream) :=
  match decoding.collect .empty with
  | (output, .ok s) => some (output.data.toList, s)
  | (_, .error _) => none

/-- What is decoded after the given output. -/
abbrev Continuation := BitStream → ByteArray → Decoding

/-- A copy of the bytes at a distance from the end of the output. -/
def copyBack (taken distance : Nat) (next : ByteArray → Decoding) :
    Nat → ByteArray → Decoding
  | 0, output => next output
  | length + 1, output =>
    let value := if distance ≤ output.size then (output[output.size - distance]?).getD 0 else 0
    .byte ⟨value, taken, taken⟩ fun _ => copyBack taken distance next length (output.push value)

/-- The symbols of a block up to its end. -/
def inflateSymbols (codes : Codes) (next : Continuation) : Nat → Continuation
  | 0, _, _ => .ended (.error .truncated)
  | fuel + 1, s, output =>
    match codes.readToken s with
    | .error stop => .ended (.error stop)
    | .ok (.literal x, s) =>
      .byte ⟨x, s.taken, s.taken⟩ fun _ => inflateSymbols codes next fuel s (output.push x)
    | .ok (.copy length distance, s) =>
      copyBack s.taken distance (inflateSymbols codes next fuel s) length output
    | .ok (.endOfBlock, s) => next s output

def copyStored (next : Continuation) : Nat → Bytes → Nat → ByteArray → Decoding
  | 0, b, taken, output => next ⟨[], b, taken⟩ output
  | _ + 1, [], _, _ => .ended (.error .truncated)
  | length + 1, x :: rest, taken, output =>
    .byte ⟨x, taken, taken + 1⟩ fun _ => copyStored next length rest (taken + 1) (output.push x)

/-- The bytes of a block that holds them as they are, from the next whole byte on. -/
def inflateStored (next : Continuation) (s : BitStream) (output : ByteArray) : Decoding :=
  match s.rest with
  | a₀ :: a₁ :: b₀ :: b₁ :: rest =>
    let taken := s.taken + 4
    -- the length comes twice, the second time with all bits inverted
    if b₀ = ~~~a₀ ∧ b₁ = ~~~a₁ then
      copyStored next (a₀.toNat + 256 * a₁.toNat) rest taken output
    else .ended (.error (.corrupt taken))
  | _ => .ended (.error .truncated)

def inflateBlock (kind : Nat) (next : Continuation) (s : BitStream) (output : ByteArray) :
    Decoding :=
  let coded (codes : BitReader Codes) : Decoding :=
    match codes s with
    | .error stop => .ended (.error stop)
    -- a symbol takes at least one bit, so the fuel is enough
    | .ok (codes, s) => inflateSymbols codes next s.bound s output
  match kind with
  | 0 => inflateStored next s output
  | 1 => coded (Codes.ofLengths fixedLiterals fixedDistances)
  | 2 => coded Codes.read
  | _ => .ended (.error (.corrupt s.taken))

/-- A block says first whether it is the last one and of which kind it is. -/
def readBlockHeader : BitReader (Bool × Nat) := do
  let last ← BitReader.bit
  return (last, ← BitReader.number 2)

/-- The blocks up to the last one. -/
def inflateBlocks : Nat → Continuation
  | 0, _, _ => .ended (.error .truncated)
  | fuel + 1, s, output =>
    match readBlockHeader s with
    | .error stop => .ended (.error stop)
    | .ok ((last, kind), s) =>
      inflateBlock kind (if last then fun s _ => .ended (.ok s) else inflateBlocks fuel) s output

/-- The output of compressed data that comes after so many other bytes. -/
def inflate (taken : Nat) (b : Bytes) : Decoding :=
  let s : BitStream := ⟨[], b, taken⟩
  inflateBlocks s.bound s .empty

end SealedMail.Gzip
