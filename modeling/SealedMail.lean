import SealedMail.Address.Basic
import SealedMail.Address.Set
import SealedMail.Attachment.Concat
import SealedMail.Attachment.Pipeline
import SealedMail.Attachment.Sink
import SealedMail.Attachment.Splitter
import SealedMail.Attachment.Trace
import SealedMail.Body.Basic
import SealedMail.Body.Reader
import SealedMail.Bytes.Base64
import SealedMail.Bytes.Basic
import SealedMail.Bytes.Hex
import SealedMail.Cipher.Aes
import SealedMail.Cipher.Gcm
import SealedMail.Compression.Mode
import SealedMail.Compression.Stream
import SealedMail.Config
import SealedMail.DateTime.Basic
import SealedMail.DateTime.Rfc3339
import SealedMail.Delivery.Basic
import SealedMail.Delivery.Record
import SealedMail.Digest.Basic
import SealedMail.Digest.Sha256
import SealedMail.Digest.Sha512
import SealedMail.Entropy
import SealedMail.Error.Cause
import SealedMail.Error.Message
import SealedMail.Field
import SealedMail.Gzip.BitStream
import SealedMail.Gzip.Crc32
import SealedMail.Gzip.Deflate
import SealedMail.Gzip.Inflate
import SealedMail.Gzip.Member
import SealedMail.Gzip.Passes
import SealedMail.Gzip.PrefixCode
import SealedMail.Incoming.Decoding
import SealedMail.Incoming.Opening
import SealedMail.Json.Basic
import SealedMail.Json.Document
import SealedMail.Json.Numeral
import SealedMail.Json.Printer
import SealedMail.Json.Reader
import SealedMail.KeyCache
import SealedMail.KeyPair
import SealedMail.KeyRing
import SealedMail.KeySafe
import SealedMail.Limits
import SealedMail.Message
import SealedMail.Meta.Envelope
import SealedMail.Meta.State
import SealedMail.Outgoing.Encoding
import SealedMail.Outgoing.Sealing
import SealedMail.Proofs.Address
import SealedMail.Proofs.Attachment.Checking
import SealedMail.Proofs.Attachment.Delivery
import SealedMail.Proofs.Attachment.RoundTrip
import SealedMail.Proofs.Attachment.Splitter
import SealedMail.Proofs.Base64
import SealedMail.Proofs.Body
import SealedMail.Proofs.Bytes
import SealedMail.Proofs.DateTime
import SealedMail.Proofs.Digest
import SealedMail.Proofs.EndToEnd
import SealedMail.Proofs.Gzip.Extension
import SealedMail.Proofs.Gzip.RoundTrip
import SealedMail.Proofs.Json.Literals
import SealedMail.Proofs.Json.Objects
import SealedMail.Proofs.Json.RoundTrip
import SealedMail.Proofs.KeySafe
import SealedMail.Proofs.Meta
import SealedMail.Proofs.Packing
import SealedMail.Proofs.Results
import SealedMail.Proofs.Rsa.Numbers
import SealedMail.Proofs.Rsa.Oaep
import SealedMail.Proofs.Rsa.Pss
import SealedMail.Proofs.Runs
import SealedMail.Proofs.Sealing
import SealedMail.Proofs.SignedContent
import SealedMail.Proofs.SymmetricKey
import SealedMail.Rsa.Arithmetic
import SealedMail.Rsa.Der
import SealedMail.Rsa.Generation
import SealedMail.Rsa.KeyFormat
import SealedMail.Rsa.Mask
import SealedMail.Rsa.Numbers
import SealedMail.Rsa.Oaep
import SealedMail.Rsa.Pss
import SealedMail.SignedContent
import SealedMail.Store.Basic
import SealedMail.Store.Drafts
import SealedMail.Store.Received
import SealedMail.Store.Table
import SealedMail.SymmetricKey
import SealedMail.Proofs.Reading
import SealedMail.Proofs.Store.History
import SealedMail.Proofs.Store.Keeping
import SealedMail.Proofs.Store.Sent
import SealedMail.Proofs.Store.Conversations
import SealedMail.Proofs.Store.Delivery
import SealedMail.Proofs.Store.Received
import SealedMail.Proofs.Attachment.Receiving
import SealedMail.Proofs.Store.Downloads
import SealedMail.Proofs.Store.Soundness
import SealedMail.Proofs.Refusal
import SealedMail.Proofs.Store.Replies
import SealedMail.Proofs.Store.Keys
import SealedMail.Proofs.KeyCache
import SealedMail.Proofs.Store.Links
import SealedMail.Proofs.Store.DraftFiles
import SealedMail.Proofs.Store.Writes
import SealedMail.Proofs.Store.Frame
import SealedMail.Proofs.SizeLimits
import SealedMail.Proofs.Schema
import SealedMail.Proofs.StateSchema
import SealedMail.Proofs.Framing
import SealedMail.Proofs.Authentication
import SealedMail.Proofs.Confinement
import SealedMail.Proofs.KeySafeSchema
import SealedMail.Proofs.Streaming
import SealedMail.Proofs.Attachment.Bounds
import SealedMail.Proofs.Attachment.Intake
import SealedMail.Proofs.Attachment.Aftermath
import SealedMail.Proofs.Delivery.Order
import SealedMail.Proofs.Delivery.Records
import SealedMail.Proofs.Delivery.Sameness
import SealedMail.Proofs.Address.Spelling
import SealedMail.Proofs.Attachment.DigestFilter
import SealedMail.Proofs.Attachment.Progress
import SealedMail.Proofs.DateTime.Calendar
import SealedMail.Proofs.DateTime.Canonical
import SealedMail.Proofs.Address.Canonical
