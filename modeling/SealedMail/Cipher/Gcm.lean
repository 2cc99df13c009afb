import SealedMail.Cipher.Aes

/-!
# Galois counter mode

Authenticated encryption with AES-256: the text is combined with the encryptions of successive
counters, and a tag of sixteen bytes follows it. The tag is a polynomial in the blocks of the
ciphertext over the field of `2 ^ 128` elements. No further data is authenticated. An
initialisation vector may have any length; only one of twelve bytes is used as it is.
-/

namespace SealedMail.Gcm

/-- A polynomial over the field of two elements below degree 128. The coefficient of the lowest
degree is the highest bit. -/
structure Element where
  high : UInt64
  low : UInt64
  deriving DecidableEq

namespace Element

/-- The element that the first sixteen bytes make; zeros stand for missing bytes. -/
def ofBytes (b : Bytes) : Element :=
  let word (b : Bytes) : UInt64 :=
    (List.range 8).foldl (fun n i => (n <<< 8) ||| (b.getD i 0).toUInt64) 0
  ⟨word b, word (b.drop 8)⟩

def toBytes (x : Element) : Bytes := Bytes.ofNat 8 x.high.toNat ++ Bytes.ofNat 8 x.low.toNat

/-- An element of the field has 16 bytes. -/
@[simp]
theorem length_toBytes (x : Element) : x.toBytes.length = 16 := by simp [toBytes]

def add (x y : Element) : Element := ⟨x.high ^^^ y.high, x.low ^^^ y.low⟩

/-- The product with the polynomial `x`. -/
def double (x : Element) : Element :=
  ⟨(x.high >>> 1) ^^^ (if x.low &&& 1 = 0 then 0 else 0xe100000000000000),
    (x.low >>> 1) ||| (x.high <<< 63)⟩

/-- Adds to `sum` the products of `y` with the terms of a word, and multiplies `y` on. -/
def accumulate : Nat → UInt64 → Element × Element → Element × Element
  | 0, _, state => state
  | bits + 1, word, (sum, y) =>
    let sum := if word >>> 63 = 0 then sum else sum.add y
    accumulate bits (word <<< 1) (sum, y.double)

def multiply (x y : Element) : Element :=
  (accumulate 64 x.low (accumulate 64 x.high (⟨0, 0⟩, y))).1

end Element

/-- The bytes filled up with zeros to whole blocks. -/
def padded (b : Bytes) : Bytes := b ++ List.replicate ((16 - b.length % 16) % 16) 0

/-- The polynomial with the blocks of `b` as coefficients, at the point `h`. -/
def hash (h : Element) (b : Bytes) : Element :=
  (b.pieces 16).foldl (fun sum block => (sum.add (.ofBytes block)).multiply h) ⟨0, 0⟩

/-- The point at which the polynomial of a key is taken. -/
def hashPoint (key : Aes.Schedule) : Element :=
  .ofBytes (Aes.encrypt key (.ofBytes [])).toBytes

/-- The counter before the first one of the text. -/
def startCounter (key : Aes.Schedule) (iv : Bytes) : Bytes :=
  if iv.length = 12 then iv ++ [0, 0, 0, 1]
  else
    (hash (hashPoint key) (padded iv ++ Bytes.ofNat 16 (8 * iv.length))).toBytes

/-- The counter `steps` further on; only its last four bytes count. -/
def counter (start : Bytes) (steps : Nat) : Bytes :=
  start.take 12 ++ Bytes.ofNat 4 (Bytes.toNat (start.drop 12) + steps)

/-- The encryptions of as many counters as cover `length` bytes, and of one more. -/
def keystream (key : Aes.Schedule) (start : Bytes) (length : Nat) : Bytes :=
  (List.range (length / 16 + 1)).flatMap fun i =>
    (Aes.encrypt key (.ofBytes (counter start (i + 1)))).toBytes

def tagSize : Nat := 16

def tag (key : Aes.Schedule) (start ciphertext : Bytes) : Bytes :=
  let polynomial := hash (hashPoint key)
    (padded ciphertext ++ (Bytes.ofNat 8 0 ++ Bytes.ofNat 8 (8 * ciphertext.length)))
  Bytes.xor polynomial.toBytes (Aes.encrypt key (.ofBytes start)).toBytes

/-- The text combined with the keystream, which encrypts and decrypts. -/
def combine (key : Aes.Schedule) (start text : Bytes) : Bytes :=
  Bytes.xor text (keystream key start text.length)

def encrypt (key iv text : Bytes) : Bytes :=
  let schedule := Aes.Schedule.ofKey key
  let start := startCounter schedule iv
  let ciphertext := combine schedule start text
  ciphertext ++ tag schedule start ciphertext

def decrypt? (key iv sealed : Bytes) : Option Bytes :=
  if sealed.length < tagSize then none
  else
    let schedule := Aes.Schedule.ofKey key
    let start := startCounter schedule iv
    let ciphertext := sealed.take (sealed.length - tagSize)
    if sealed.drop (sealed.length - tagSize) = tag schedule start ciphertext then
      some (combine schedule start ciphertext)
    else none

/-- Every tag has the same length. -/
@[simp]
theorem length_tag (key : Aes.Schedule) (start ciphertext : Bytes) :
    (tag key start ciphertext).length = tagSize := by
  simp [tag, tagSize]

/-- The keystream comes in whole blocks, and is longer than what it was made for. -/
theorem length_keystream (key : Aes.Schedule) (start : Bytes) (length : Nat) :
    (keystream key start length).length = 16 * (length / 16 + 1) := by
  have blocks (n : Nat) : ((List.range n).map fun _ => 16).sum = 16 * n := by
    induction n with
    | zero => rfl
    | succ n ih => rw [List.range_succ, List.map_append, List.sum_append, ih]; simp; omega
  simp only [keystream, List.length_flatMap, Aes.Block.length_toBytes, blocks]

/-- A text is as long as what it is combined to. -/
@[simp]
theorem length_combine (key : Aes.Schedule) (start text : Bytes) :
    (combine key start text).length = text.length := by
  simp only [combine, Bytes.length_xor, length_keystream]
  omega

/-- The keystream takes itself away again. -/
@[simp]
theorem combine_combine (key : Aes.Schedule) (start text : Bytes) :
    combine key start (combine key start text) = text := by
  rw [combine, length_combine, combine, Bytes.xor_xor]
  rw [length_keystream]
  omega

/-- What was encrypted is decrypted to the text. -/
theorem decrypt?_encrypt (key iv text : Bytes) :
    decrypt? key iv (encrypt key iv text) = some text := by
  simp [decrypt?, encrypt]

end SealedMail.Gcm
