/-!
# Byte strings

Byte strings are lists, so that laws of the envelopes are laws of `++`, `take` and `drop`. This
module holds their meeting with text (UTF-8), with numbers of a fixed width (most significant
byte first), their combination by exclusive or, and their division into pieces of one size.
-/

namespace SealedMail

abbrev Bytes := List UInt8

namespace Bytes

/-- The bytes of a text in UTF-8. -/
def ofString (s : String) : Bytes := s.toUTF8.data.toList

/-- The text that the bytes spell in UTF-8, if they spell one. -/
def toString? (b : Bytes) : Option String := String.fromUTF8? b.toByteArray

/-- The bytes of a string are its encoding in UTF-8. -/
theorem toByteArray_ofString (s : String) : (ofString s).toByteArray = s.toUTF8 := by
  apply ByteArray.ext
  simp [ofString]

/-- A string is read back from its bytes. -/
@[simp]
theorem toString?_ofString (s : String) : toString? (ofString s) = some s := by
  simp [toString?, toByteArray_ofString, String.fromUTF8?, String.fromUTF8, s.isValidUTF8]

/-- The number that the bytes write, most significant byte first. -/
def toNat (b : Bytes) : Nat := b.foldl (fun n x => n * 256 + x.toNat) 0

/-- The last `width` base-256 digits of `n` in front of `tail`. -/
def ofNatOnto : Nat → Nat → Bytes → Bytes
  | 0, _, tail => tail
  | width + 1, n, tail => ofNatOnto width (n / 256) (UInt8.ofNat (n % 256) :: tail)

/-- The number `n` in exactly `width` bytes, most significant first; what does not fit is cut. -/
def ofNat (width n : Nat) : Bytes := ofNatOnto width n []

/-- Writing a number onto some bytes puts it in front of them. -/
theorem ofNatOnto_eq (width n : Nat) (tail : Bytes) :
    ofNatOnto width n tail = ofNat width n ++ tail := by
  induction width generalizing n tail with
  | zero => rfl
  | succ width ih => rw [ofNat, ofNatOnto, ofNatOnto, ih, ih _ [_]]; simp

/-- The last byte of a number is its remainder. -/
theorem ofNat_succ (width n : Nat) :
    ofNat (width + 1) n = ofNat width (n / 256) ++ [UInt8.ofNat (n % 256)] :=
  ofNatOnto_eq width (n / 256) _

/-- A number takes as many bytes as it is given. -/
@[simp]
theorem length_ofNat (width n : Nat) : (ofNat width n).length = width := by
  induction width generalizing n with
  | zero => rfl
  | succ width ih => simp [ofNat_succ, ih]

/-- A further byte moves the number up by one place. -/
theorem toNat_append_singleton (b : Bytes) (x : UInt8) :
    toNat (b ++ [x]) = toNat b * 256 + x.toNat := by
  simp [toNat]

def ofUInt32 (n : UInt32) : Bytes := ofNat 4 n.toNat

/-- The number in the first four bytes, and what follows them; nothing if there are fewer. -/
def readUInt32? : Bytes → Option (UInt32 × Bytes)
  | a :: b :: c :: d :: rest => some (UInt32.ofNat (toNat [a, b, c, d]), rest)
  | _ => none

/-- A number of 32 bits takes four bytes. -/
@[simp]
theorem length_ofUInt32 (n : UInt32) : (ofUInt32 n).length = 4 := length_ofNat 4 n.toNat

/-- The bytes combined pairwise by exclusive or, as far as both reach. -/
def xor (a b : Bytes) : Bytes := List.zipWith (· ^^^ ·) a b

/-- Bytes are combined as far as both go. -/
@[simp]
theorem length_xor (a b : Bytes) : (xor a b).length = min a.length b.length := by
  simp [xor]

/-- A mask that is long enough takes itself away again. -/
theorem xor_xor (a mask : Bytes) (h : a.length ≤ mask.length) : xor (xor a mask) mask = a := by
  induction a generalizing mask with
  | nil => rfl
  | cons x a ih =>
    cases mask with
    | nil => simp at h
    | cons y mask =>
      have := ih mask (by simpa using h)
      simp only [xor, List.zipWith_cons_cons] at this ⊢
      rw [this, UInt8.xor_assoc, UInt8.xor_self, UInt8.xor_zero]

/-- The pieces of `b`, each of `size + 1` bytes but perhaps the last, in front of which those in
`done` are put in reverse. -/
def piecesOnto (size : Nat) (b : Bytes) (done : List Bytes) : List Bytes :=
  match b with
  | [] => done.reverse
  | x :: rest => piecesOnto size (rest.drop size) ((x :: rest.take size) :: done)
termination_by b.length
decreasing_by rw [List.length_drop, List.length_cons]; omega

/-- The consecutive pieces of `size` bytes, the last one perhaps shorter; a size of 0 counts
as 1. -/
def pieces (size : Nat) (b : Bytes) : List Bytes := piecesOnto (size - 1) b []

/-- The pieces that are done stand in front of the others, in reverse. -/
theorem piecesOnto_eq (size : Nat) (b : Bytes) (done : List Bytes) :
    piecesOnto size b done = done.reverse ++ piecesOnto size b [] := by
  induction h : b.length using Nat.strongRecOn generalizing b done with
  | ind n ih =>
    cases b with
    | nil => simp [piecesOnto]
    | cons x rest =>
      have shorter : (rest.drop size).length < n := by
        rw [← h, List.length_drop, List.length_cons]; omega
      rw [piecesOnto, piecesOnto, ih _ shorter _ _ rfl, ih _ shorter _ [_] rfl]
      simp

@[simp]
theorem pieces_nil (size : Nat) : pieces size [] = [] := by simp [pieces, piecesOnto]

/-- The first piece takes at least one byte, and the others are made of the rest. -/
theorem pieces_cons (size : Nat) (x : UInt8) (rest : Bytes) :
    pieces size (x :: rest) =
      (x :: rest.take (size - 1)) :: pieces size (rest.drop (size - 1)) := by
  rw [pieces, piecesOnto, piecesOnto_eq]
  rfl

/-- The pieces together are the bytes. -/
@[simp]
theorem flatten_pieces (size : Nat) (b : Bytes) : (pieces size b).flatten = b := by
  induction h : b.length using Nat.strongRecOn generalizing b with
  | ind n ih =>
    cases b with
    | nil => simp
    | cons x rest =>
      rw [pieces_cons, List.flatten_cons, ih _ _ _ rfl]
      · simp
      · rw [← h, List.length_drop, List.length_cons]; omega

end Bytes

end SealedMail
