/-!
# Compression modes

Whether the parts of a message are compressed before they are sealed.
-/

namespace SealedMail

/-- How the body and the attachments of a message are compressed. -/
inductive Compression where
  | gzip
  | none
  deriving DecidableEq, Repr

def Compression.name : Compression → String
  | .gzip => "gzip"
  | .none => "none"

def Compression.ofName? : String → Option Compression
  | "gzip" => some .gzip
  | "none" => some .none
  | _ => Option.none

end SealedMail
