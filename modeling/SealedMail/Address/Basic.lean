/-!
# Addresses

An account is addressed by `user#domain`. The user part is lower-case letters and digits in runs
that single dots, hyphens or underscores separate, at most 64 in all. The domain has at least two
labels separated by dots, of at most 63 characters each and 255 in all; a label is runs of letters
and digits that single hyphens separate, and the last label starts with a letter. Upper-case
letters are read as lower-case ones, so an account has one address.
-/

namespace SealedMail

namespace Address

/-- A lower-case letter or a digit. -/
def isPlain (c : Char) : Bool := ('a' ≤ c && c ≤ 'z') || ('0' ≤ c && c ≤ '9')

/-- The text is runs of letters and digits, with exactly one separator between two runs. -/
def isRuns (isSeparator : Char → Bool) (cs : List Char) : Bool :=
  (cs.splitOnP isSeparator).all fun run => !run.isEmpty && run.all isPlain

def isUsername (cs : List Char) : Bool :=
  cs.length ≤ 64 && isRuns (fun c => c = '.' || c = '-' || c = '_') cs

def isLabel (cs : List Char) : Bool := cs.length ≤ 63 && isRuns (· = '-') cs

def startsWithLetter : List Char → Bool
  | [] => false
  | c :: _ => 'a' ≤ c && c ≤ 'z'

def isDomain (cs : List Char) : Bool :=
  let labels := cs.splitOnP (· = '.')
  cs.length ≤ 255 && 2 ≤ labels.length && labels.all isLabel &&
    (labels.getLast?.map startsWithLetter).getD false

/-- The lower case of a character. Beyond ASCII only the Kelvin sign has a lower case that may
stand in an address; the others are left alone and so refused later. -/
def lower (c : Char) : Char := if c = '\u212a' then 'k' else c.toLower

end Address

/-- The address of an account, in lower case. -/
structure Address where
  username : String
  domain : String
  username_valid : Address.isUsername username.toList = true
  domain_valid : Address.isDomain domain.toList = true
  deriving DecidableEq

namespace Address

def text (a : Address) : String := a.username ++ "#" ++ a.domain

def ofParts? (user domain : List Char) : Option Address :=
  if hu : isUsername user = true then
    if hd : isDomain domain = true then
      some ⟨String.ofList user, String.ofList domain, by simpa using hu, by simpa using hd⟩
    else none
  else none

/-- The address that a text spells in any letter case. -/
def ofString? (input : String) : Option Address :=
  match input.toList.splitOnP (· = '#') with
  | [user, domain] => ofParts? (user.map lower) (domain.map lower)
  | _ => none

instance : LT Address := ⟨fun a b => a.text.toList < b.text.toList⟩

instance (a b : Address) : Decidable (a < b) :=
  inferInstanceAs (Decidable (a.text.toList < b.text.toList))

end Address

end SealedMail
