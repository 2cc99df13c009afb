import SealedMail.Bytes.Basic

/-!
# AES-256

The block cipher in its forward direction, which is the only one that counter mode needs. A block
is four columns of four bytes. The substitution of bytes is computed from its definition, as the
inverse in the field of 256 elements followed by an affine map, and kept in a table.
-/

namespace SealedMail.Aes

/-- Four bytes of a block, from top to bottom. -/
structure Column where
  r₀ : UInt8
  r₁ : UInt8
  r₂ : UInt8
  r₃ : UInt8
  deriving DecidableEq

structure Block where
  c₀ : Column
  c₁ : Column
  c₂ : Column
  c₃ : Column
  deriving DecidableEq

namespace Column

def toBytes (c : Column) : Bytes := [c.r₀, c.r₁, c.r₂, c.r₃]

/-- The column that the first four bytes make; zeros stand for missing bytes. -/
def ofBytes (b : Bytes) : Column := ⟨b.getD 0 0, b.getD 1 0, b.getD 2 0, b.getD 3 0⟩

def xor (c d : Column) : Column := ⟨c.r₀ ^^^ d.r₀, c.r₁ ^^^ d.r₁, c.r₂ ^^^ d.r₂, c.r₃ ^^^ d.r₃⟩

@[inline] def map (f : UInt8 → UInt8) (c : Column) : Column := ⟨f c.r₀, f c.r₁, f c.r₂, f c.r₃⟩

def turn (c : Column) : Column := ⟨c.r₁, c.r₂, c.r₃, c.r₀⟩

end Column

namespace Block

/-- The bytes of a block, column after column. -/
def toBytes (b : Block) : Bytes :=
  b.c₀.toBytes ++ (b.c₁.toBytes ++ (b.c₂.toBytes ++ b.c₃.toBytes))

/-- The block that the first sixteen bytes make; zeros stand for missing bytes. -/
def ofBytes (b : Bytes) : Block :=
  ⟨.ofBytes b, .ofBytes (b.drop 4), .ofBytes (b.drop 8), .ofBytes (b.drop 12)⟩

/-- A block has 16 bytes. -/
@[simp]
theorem length_toBytes (b : Block) : b.toBytes.length = 16 := rfl

def xor (a b : Block) : Block := ⟨a.c₀.xor b.c₀, a.c₁.xor b.c₁, a.c₂.xor b.c₂, a.c₃.xor b.c₃⟩

@[inline] def map (f : Column → Column) (b : Block) : Block := ⟨f b.c₀, f b.c₁, f b.c₂, f b.c₃⟩

/-- Every row turned left by its number. -/
def shiftRows : Block → Block
  | ⟨⟨a₀, b₀, c₀, d₀⟩, ⟨a₁, b₁, c₁, d₁⟩, ⟨a₂, b₂, c₂, d₂⟩, ⟨a₃, b₃, c₃, d₃⟩⟩ =>
    ⟨⟨a₀, b₁, c₂, d₃⟩, ⟨a₁, b₂, c₃, d₀⟩, ⟨a₂, b₃, c₀, d₁⟩, ⟨a₃, b₀, c₁, d₂⟩⟩

end Block

/-- The product with the polynomial `x` in the field of 256 elements. -/
def double (x : UInt8) : UInt8 := (x <<< 1) ^^^ (if x < 0x80 then 0 else 0x1b)

/-- The product in the field of 256 elements, over the given number of low bits of the second
factor. -/
def multiply : Nat → UInt8 → UInt8 → UInt8
  | 0, _, _ => 0
  | bits + 1, x, y => (if y &&& 1 = 0 then 0 else x) ^^^ multiply bits (double x) (y >>> 1)

/-- The power with an exponent of the given binary digits, the lowest first. -/
def power (x : UInt8) : List Bool → UInt8
  | [] => 1
  | bit :: bits => multiply 8 (if bit then x else 1) (power (multiply 8 x x) bits)

/-- The inverse in the field of 256 elements, which is the power 254; zero stays zero. -/
def inverse (x : UInt8) : UInt8 := power x [false, true, true, true, true, true, true, true]

/-- The byte turned left by a number of bits from 1 to 7. -/
def turn (x : UInt8) (n : UInt8) : UInt8 := (x <<< n) ||| (x >>> (8 - n))

/-- The affine map of the inverse. -/
def substitution (x : UInt8) : UInt8 :=
  let y := inverse x
  y ^^^ turn y 1 ^^^ turn y 2 ^^^ turn y 3 ^^^ turn y 4 ^^^ 0x63

def substitutions : Array UInt8 :=
  (List.range 256).toArray.map fun n => substitution (UInt8.ofNat n)

def substitute (x : UInt8) : UInt8 := substitutions.getD x.toNat 0

/-- The product of a column with the mixing polynomial. -/
def mix (c : Column) : Column :=
  let all := c.r₀ ^^^ c.r₁ ^^^ c.r₂ ^^^ c.r₃
  ⟨c.r₀ ^^^ all ^^^ double (c.r₀ ^^^ c.r₁), c.r₁ ^^^ all ^^^ double (c.r₁ ^^^ c.r₂),
    c.r₂ ^^^ all ^^^ double (c.r₂ ^^^ c.r₃), c.r₃ ^^^ all ^^^ double (c.r₃ ^^^ c.r₀)⟩

/-- A key as the round keys that are made of it: the one before the first round, those of the
middle rounds, and the one of the last round. -/
structure Schedule where
  first : Block
  middle : List Block
  last : Block

/-- The round keys after the two at hand. Each pair of them is made from the pair before, the first
of a pair with the next power of `x`. -/
def roundKeys (fuel : Nat) (constant : UInt8) (p q : Block) : List Block :=
  match fuel with
  | 0 => []
  | fuel + 1 =>
    let chain (b : Block) (c : Column) : Block :=
      let c₀ := b.c₀.xor c
      let c₁ := b.c₁.xor c₀
      let c₂ := b.c₂.xor c₁
      ⟨c₀, c₁, c₂, b.c₃.xor c₂⟩
    let p' := chain p ((q.c₃.turn.map substitute).xor ⟨constant, 0, 0, 0⟩)
    let q' := chain q (p'.c₃.map substitute)
    p' :: q' :: roundKeys fuel (double constant) p' q'

/-- The round keys of a key of 32 bytes. -/
def Schedule.ofKey (key : Bytes) : Schedule :=
  let p := Block.ofBytes key
  let q := Block.ofBytes (key.drop 16)
  -- seven pairs are one key more than there are rounds left
  let later := roundKeys 7 1 p q
  ⟨p, q :: later.take 12, later.getD 12 p⟩

/-- A round but the last. -/
def round (state key : Block) : Block :=
  (((state.map (Column.map substitute)).shiftRows).map mix).xor key

def encrypt (key : Schedule) (block : Block) : Block :=
  let state := key.middle.foldl round (block.xor key.first)
  ((state.map (Column.map substitute)).shiftRows).xor key.last

end SealedMail.Aes
