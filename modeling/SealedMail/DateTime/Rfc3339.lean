import SealedMail.DateTime.Basic

/-!
# RFC 3339

Reading allows either letter case, a blank between date and time, the minus sign of typesetting in
an offset, and any number of fraction digits, of which nine count. Writing has one form: the
fewest of 0, 3, 6 or 9 fraction digits that lose nothing, and the letter Z for offset zero.
-/

namespace SealedMail.DateTime

/-- The last `width` decimal digits of `n`. -/
def digits : Nat → Nat → List Char
  | 0, _ => []
  | width + 1, n => digits width (n / 10) ++ [Nat.digitChar (n % 10)]

/-- The number that the next `width` characters spell, all of them digits, and what follows. -/
def number? (width : Nat) (cs : List Char) : Option (Nat × List Char) :=
  let run := cs.take width
  if run.length = width ∧ run.all Char.isDigit then
    some (Nat.ofDigitChars 10 run 0, cs.drop width)
  else none

def after? (c : Char) : List Char → Option (List Char)
  | [] => none
  | d :: rest => if d = c then some rest else none

/-- What follows the mark between date and time. -/
def afterDate? : List Char → Option (List Char)
  | 'T' :: rest | 't' :: rest | ' ' :: rest => some rest
  | _ => none

/-- The nanoseconds of an optional fraction, and what follows. Digits after the ninth are
skipped. -/
def fraction? : List Char → Option (Nat × List Char)
  | '.' :: rest =>
    let run := rest.takeWhile Char.isDigit
    let kept := run.take 9
    if run.isEmpty then none
    else some (Nat.ofDigitChars 10 kept 0 * Nat.pow 10 (9 - kept.length), rest.dropWhile Char.isDigit)
  | cs => some (0, cs)

/-- An offset is negative after a hyphen and after the minus sign U+2212. -/
def offsetSign? : List Char → Option (Int × List Char)
  | '+' :: rest => some (1, rest)
  | '-' :: rest | '\u2212' :: rest => some (-1, rest)
  | _ => none

/-- The offset from UTC in minutes, and what follows. -/
def offset? : List Char → Option (Int × List Char)
  | 'Z' :: rest | 'z' :: rest => some (0, rest)
  | cs => do
    let (sign, cs) ← offsetSign? cs
    let (hours, cs) ← number? 2 cs
    let cs ← after? ':' cs
    let (minutes, cs) ← number? 2 cs
    if minutes ≤ 59 then some (sign * (hours * 60 + minutes : Nat), cs) else none

/-- The fields that a text spells, not yet checked for their ranges. -/
def fields? (cs : List Char) : Option DateFields := do
  let (year, cs) ← number? 4 cs
  let cs ← after? '-' cs
  let (month, cs) ← number? 2 cs
  let cs ← after? '-' cs
  let (day, cs) ← number? 2 cs
  let cs ← afterDate? cs
  let (hour, cs) ← number? 2 cs
  let cs ← after? ':' cs
  let (minute, cs) ← number? 2 cs
  let cs ← after? ':' cs
  let (second, cs) ← number? 2 cs
  let (nanosecond, cs) ← fraction? cs
  let (offset, cs) ← offset? cs
  if cs.isEmpty then some ⟨year, month, day, hour, minute, second, nanosecond, offset⟩ else none

def ofString? (text : String) : Option DateTime :=
  match fields? text.toList with
  | some d => if h : d.Valid then some ⟨d, h⟩ else none
  | none => none

/-- The fraction of a second, as short as it can be in groups of three digits. -/
def fractionChars (nanosecond : Nat) : List Char :=
  if nanosecond = 0 then []
  else if nanosecond % 1000000 = 0 then '.' :: digits 3 (nanosecond / 1000000)
  else if nanosecond % 1000 = 0 then '.' :: digits 6 (nanosecond / 1000)
  else '.' :: digits 9 nanosecond

def offsetChars (offset : Int) : List Char :=
  if offset = 0 then ['Z']
  else
    (if offset < 0 then '-' else '+') ::
      (digits 2 (offset.natAbs / 60) ++ ':' :: digits 2 (offset.natAbs % 60))

def chars (d : DateFields) : List Char :=
  digits 4 d.year ++ '-' :: (digits 2 d.month ++ '-' :: (digits 2 d.day ++ 'T' ::
    (digits 2 d.hour ++ ':' :: (digits 2 d.minute ++ ':' :: (digits 2 d.second ++
      (fractionChars d.nanosecond ++ offsetChars d.offset))))))

def render (d : DateTime) : String := String.ofList (chars d.toDateFields)

end SealedMail.DateTime
