import SealedMail.Gzip.Crc32
import SealedMail.Gzip.Inflate

/-!
# Decoding in passes

Data comes in by buffers, and output is handed on in chunks. In between it is decoded in passes: a
pass ends where no more of the data is at hand or where the window, which keeps the latest output,
has been filled to its end. The output of a pass is handed on before the next pass begins. Only a
chunk that takes up all of it and has room left goes on into the next pass, and only if the window
was what ended the first. A fault takes away the output of its pass and the chunk that went on into
this pass. Where the data was found to end too early, that chunk is still handed on, and nothing
after it.
-/

namespace SealedMail.Gzip

def windowSize : Nat := 32768

def bufferSize : Nat := 32768

/-- How data comes in: how many bytes there are, and from which one on they come by buffers. -/
structure Source where
  size : Nat
  start : Nat

/-- How much of the data is at hand for a pass before which so much is taken: all up to the end of
the buffer with the next byte. There is no bound once all is taken, as nothing more is to come. -/
def Source.supply? (source : Source) (taken : Nat) : Option Nat :=
  if taken < source.size then
    let buffers := (taken - source.start) / bufferSize + 1
    some (min source.size (source.start + buffers * bufferSize))
  else none

/-- Output on its way to the receiver. -/
inductive Passes where
  /-- Nothing more is to come, and what comes after the data fits it or not. -/
  | finished (fits : Bool)
  | broken
  /-- The data was known to have ended when this output was decoded, but is not complete. -/
  | cutOff (data : Bytes)
  /-- The output of a pass, and whether a chunk may go on into the next one. -/
  | pass (data : Bytes) (goesOn : Bool) (next : Unit → Passes)

namespace Passes

/-- The chunks of at most the given size that are handed on, and whether they are all of the output.
The first one holds already what is in `begun`. A size of 0 counts as 1. -/
def chunks (size : Nat) (begun : Bytes) : Passes → List Bytes × Bool
  | finished fits => (begun.pieces size, fits)
  | broken => ([], false)
  | cutOff data => (((begun ++ data).pieces size).take 1, false)
  | pass data goesOn next =>
    let b := begun ++ data
    if goesOn && b.length < size then (next ()).chunks size b
    else
      let later := (next ()).chunks size []
      (b.pieces size ++ later.1, later.2)

/-- Hands on the chunks one by one, each as soon as it is decoded, and fails at the end if they are
not all of the output. -/
@[specialize]
def handOn {m : Type → Type} [Monad m] (size : Nat) (receive : Bytes → m Unit) (fail : m Unit)
    (begun : Bytes) : Passes → m Unit
  | finished fits => do
    (begun.pieces size).forM receive
    unless fits do fail
  | broken => fail
  | cutOff data => do
    (((begun ++ data).pieces size).take 1).forM receive
    fail
  | pass data goesOn next => do
    let b := begun ++ data
    if goesOn && b.length < size then (next ()).handOn size receive fail b
    else
      (b.pieces size).forM receive
      (next ()).handOn size receive fail []

/-- Handing on is to receive the chunks in order. -/
theorem handOn_eq {m : Type → Type} [Monad m] [LawfulMonad m] (size : Nat)
    (receive : Bytes → m Unit) (fail : m Unit) (begun : Bytes) (passes : Passes) :
    passes.handOn size receive fail begun =
      (do (passes.chunks size begun).1.forM receive
          unless (passes.chunks size begun).2 do fail) := by
  induction passes generalizing begun with
  | finished fits => rfl
  | broken => simp [handOn, chunks]
  | cutOff data => simp [handOn, chunks]
  | pass data goesOn next ih =>
    simp only [handOn, chunks]
    split
    · exact ih () _
    · simp [ih]

end Passes

/-- A pass under way. -/
structure Pass where
  /-- How much of the data is at hand, if there is a bound. -/
  supply? : Option Nat
  /-- How much of the window is filled. -/
  filled : Nat
  /-- The output of this pass, the last byte first. -/
  done : List UInt8
  /-- What is kept of the output of the passes before. -/
  sum : Checksum

namespace Pass

def reaches (pass : Pass) (n : Nat) : Bool := pass.supply?.all fun supply => n ≤ supply

def data (pass : Pass) : Bytes := pass.done.reverse

def total (pass : Pass) : Checksum := pass.sum.add pass.data

/-- The window has room for a byte, and what it takes to know the byte is at hand. -/
def hasRoom (pass : Pass) (x : OutputByte) : Bool :=
  pass.filled < windowSize && pass.reaches x.after

def push (pass : Pass) (x : OutputByte) : Pass :=
  { pass with filled := pass.filled + 1, done := x.value :: pass.done }

/-- Whether a chunk may go on into the pass that begins with a byte: the window is full, and not all
of the data at hand is taken. -/
def goesOn (pass : Pass) (x : OutputByte) : Bool :=
  pass.filled = windowSize && pass.supply?.all fun supply => x.before < supply

/-- The pass that begins with a byte. -/
def following (source : Source) (pass : Pass) (x : OutputByte) : Pass where
  supply? :=
    if pass.goesOn x then pass.supply?
    else source.supply? (if pass.reaches x.before then x.before else x.after - 1)
  filled := pass.filled % windowSize + 1
  done := [x.value]
  sum := pass.total

end Pass

/-- The passes that decode output, of which one is under way. What comes after the data must fit all
of the output, of which the checksum tells enough. -/
def Decoding.passes (source : Source) (fits : Checksum → BitStream → Bool) (pass : Pass) :
    Decoding → Passes
  | .byte x next =>
    if pass.hasRoom x then (next ()).passes source fits (pass.push x)
    else .pass pass.data (pass.goesOn x) fun _ =>
      (next ()).passes source fits (pass.following source x)
  | .ended (.ok s) => .pass pass.data false fun _ => .finished (fits pass.total s)
  | .ended (.error (.corrupt taken)) =>
    if pass.reaches taken then .broken else .pass pass.data false fun _ => .broken
  | .ended (.error .truncated) =>
    -- without a bound it was known before the pass that no more data comes
    if pass.supply?.isSome then .pass pass.data false fun _ => .broken else .cutOff pass.data

end SealedMail.Gzip
