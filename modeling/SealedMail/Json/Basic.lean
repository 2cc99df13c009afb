import SealedMail.Json.Numeral

/-!
# JSON values

The value of a document. The fields of an object are kept in the order of their names, each name
once, so that two objects with the same fields are the same value. A number is an integer of
64 bits, or else a numeral that nothing reads as a number.
-/

namespace SealedMail

inductive Json where
  | null
  | bool (b : Bool)
  | integer (n : Int)
  | real (n : Json.Numeral)
  | string (s : String)
  | array (items : List Json)
  | object (fields : List (String × Json))
  deriving Inhabited

namespace Json

/-- The fields with the given one put in the place of its name, replacing a field of that name. -/
def put (name : String) (value : Json) : List (String × Json) → List (String × Json)
  | [] => [(name, value)]
  | (other, old) :: rest =>
    if name = other then (name, value) :: rest
    else if name.toList < other.toList then (name, value) :: (other, old) :: rest
    else (other, old) :: put name value rest

/-- The object with the given fields; of two fields of one name the later counts. -/
def ofFields (fields : List (String × Json)) : Json :=
  .object (fields.foldl (fun sorted field => put field.1 field.2 sorted) [])

def isObject : Json → Bool
  | .object _ => true
  | _ => false

/-- The field of the given name; null where there is none, and in what is not an object. -/
def field (json : Json) (name : String) : Json :=
  match json with
  | .object fields => (fields.lookup name).getD .null
  | _ => .null

end Json

end SealedMail
