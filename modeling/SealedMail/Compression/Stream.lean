import SealedMail.Compression.Mode
import SealedMail.Error.Message
import SealedMail.Gzip.Member

/-!
# Compressing and expanding

The parts of a message under a compression mode. Data can be expanded at once or handed on in
chunks, which are decoded as they are asked for; a receiver that refuses a chunk gets no more of
them.
-/

namespace SealedMail.Compression

def compress : Compression → Bytes → Bytes
  | .gzip, b => Gzip.compress b
  | .none, b => b

def decompress : Compression → Bytes → Except MailError Bytes
  | .gzip, b => (Gzip.decompress? b).elim (.error (.invalid .gzip)) .ok
  | .none, b => .ok b

/-- Hands on the data that was compressed, in chunks of at most `size` bytes. -/
@[specialize]
def decompressTo {m : Type → Type} [Monad m] [MonadExceptOf MailError m] (mode : Compression)
    (size : Nat) (b : Bytes) (receive : Bytes → m Unit) : m Unit :=
  match mode with
  | .gzip => (Gzip.passes b).handOn size receive (throw (.invalid .gzip)) []
  | .none => (b.pieces size).forM receive

end SealedMail.Compression
