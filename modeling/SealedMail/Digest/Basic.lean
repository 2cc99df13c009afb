import SealedMail.Bytes.Basic

/-!
# Digests

The family of hash functions that SHA-256 and SHA-512 belong to. A digest is taken of the whole
message at once, block after block of the padded bytes, or by a hasher that is fed the message in
parts, and where the parts end makes no difference.
-/

namespace SealedMail.Digest

/-- The eight words that a hash function works on. -/
structure State (W : Type) where
  a : W
  b : W
  c : W
  d : W
  e : W
  f : W
  g : W
  h : W
  deriving DecidableEq

/-- What tells one hash function of the family from another. -/
structure Variant (W : Type) where
  /-- Bytes in a word; sixteen words make a block. -/
  wordSize : Nat
  ofNat : Nat → W
  toNat : W → Nat
  add : W → W → W
  xor : W → W → W
  and : W → W → W
  not : W → W
  /-- The two mixings of a word for the rounds, and the two for the words that follow a block. -/
  roundA : W → W
  roundE : W → W
  scheduleEarly : W → W
  scheduleLate : W → W
  /-- The constants of the rounds. -/
  constants : List W
  start : State W

variable {W : Type} (v : Variant W)

namespace Variant

def blockSize : Nat := 16 * v.wordSize

def words (block : Bytes) : List W := (block.pieces v.wordSize).map fun piece => v.ofNat piece.toNat

@[specialize] def step (s : State W) (k : W) : State W :=
  let choice := v.xor (v.and s.e s.f) (v.and (v.not s.e) s.g)
  let majority := v.xor (v.xor (v.and s.a s.b) (v.and s.a s.c)) (v.and s.b s.c)
  let t := v.add (v.add (v.add s.h (v.roundE s.e)) choice) k
  ⟨v.add t (v.add (v.roundA s.a) majority), s.a, s.b, s.c, v.add s.d t, s.e, s.f, s.g⟩

/-- The word sixteen places after the first of the given words. -/
@[specialize] def nextWord (window : List W) : W :=
  let word (i : Nat) : W := window.getD i (v.ofNat 0)
  v.add (v.add (word 0) (v.scheduleEarly (word 1))) (v.add (word 9) (v.scheduleLate (word 14)))

@[specialize] def rounds : List W → List W → State W → State W
  | [], _, s => s
  | k :: constants, window, s =>
    let word := window.headD (v.ofNat 0)
    rounds constants (window.tail ++ [nextWord v window]) (step v s (v.add k word))

@[specialize] def compress (s : State W) (block : Bytes) : State W :=
  let t := rounds v v.constants (v.words block) s
  ⟨v.add s.a t.a, v.add s.b t.b, v.add s.c t.c, v.add s.d t.d,
    v.add s.e t.e, v.add s.f t.f, v.add s.g t.g, v.add s.h t.h⟩

def output (s : State W) : Bytes :=
  [s.a, s.b, s.c, s.d, s.e, s.f, s.g, s.h].flatMap fun word => Bytes.ofNat v.wordSize (v.toNat word)

/-- What follows a message of the given length: a set bit, then zeros up to the end of a block,
whose last two words are the length in bits. -/
def padding (length : Nat) : Bytes :=
  let lengthSize := 2 * v.wordSize
  let used := (length + 1 + lengthSize) % v.blockSize
  0x80 :: (List.replicate (if used = 0 then 0 else v.blockSize - used) 0 ++
    Bytes.ofNat lengthSize (8 * length))

/-- The state after the whole blocks at the front of the bytes, and the rest of the bytes. -/
@[specialize] def absorb (s : State W) (b : Bytes) : State W × Bytes :=
  match h : b.drop (v.blockSize - 1) with
  | [] => (s, b)
  | _ :: rest =>
    have : rest.length < b.length := by
      have := congrArg List.length h
      simp only [List.length_drop, List.length_cons] at this
      omega
    absorb (compress v s (b.take v.blockSize)) rest
termination_by b.length

def digest (b : Bytes) : Bytes :=
  v.output (((b ++ v.padding b.length).pieces v.blockSize).foldl (compress v) v.start)

end Variant

/-- A digest of which part of the message was taken. -/
structure Hasher (W : Type) where
  state : State W
  /-- Bytes that do not make a block yet. -/
  pending : Bytes
  length : Nat

namespace Hasher

def start : Hasher W := ⟨v.start, [], 0⟩

@[specialize] def update (hasher : Hasher W) (b : Bytes) : Hasher W :=
  let (state, pending) := v.absorb hasher.state (hasher.pending ++ b)
  ⟨state, pending, hasher.length + b.length⟩

@[specialize] def finish (hasher : Hasher W) : Bytes :=
  v.output (v.absorb hasher.state (hasher.pending ++ v.padding hasher.length)).1

end Hasher

end SealedMail.Digest
