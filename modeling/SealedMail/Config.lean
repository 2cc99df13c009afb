import SealedMail.Compression.Mode
import SealedMail.Json.Printer
import SealedMail.Json.Reader
import SealedMail.Limits

/-!
# Settings

Settings are a JSON document whose fields all have defaults. A record may be written as an object,
whose unknown fields are skipped and whose known fields may stand once, or as an array of its
fields in order, whose tail may be missing. What is skipped need only be a document. Settings that
could not carry any message are refused.
-/

namespace SealedMail

/-- The settings of sending and receiving. -/
structure Config where
  limits : Limits := {}
  verifySignatures : Bool := true
  compression : Compression := .gzip
  attachmentChunk : Nat := 64 * 1024
  deriving DecidableEq, Repr

/-- A setting with a value that makes no sense. -/
inductive SettingFault where
  | emptyChunk
  | limitsTooSmall
  deriving DecidableEq, Repr

def SettingFault.message : SettingFault → String
  | .emptyChunk => "Invalid config value: attachment_chunk_bytes must be positive"
  | .limitsTooSmall => "Invalid config value: size limits are too small to hold any message"

/-- Why settings cannot be used. -/
inductive ConfigError where
  /-- There is no such file, or it is not text. -/
  | unreadable
  /-- The text is not a document of settings. -/
  | malformed
  | invalid (fault : SettingFault)
  deriving DecidableEq, Repr

namespace Config

open Json (Document TextUnit)

/-- The documents that stand for the named fields of a record, nothing for a field left out. -/
def slots? (names : List String) : Document → Option (List (Option Document))
  | .array items =>
    if items.length ≤ names.length then
      some (items.map some ++ List.replicate (names.length - items.length) none)
    else none
  | .object fields => do
    let named ← fields.mapM fun (name, value) => (Json.text? name).map fun name => (name, value)
    -- a field may stand only once
    names.mapM fun name =>
      match named.filter fun field => field.1 = name with
      | [] => some none
      | [field] => some (some field.2)
      | _ => none
  | _ => none

/-- The value of a field, or the default where the field is left out. -/
def slot {α : Type} (read : Document → Option α) (default : α) : Option Document → Option α
  | none => some default
  | some doc => read doc

def readBool : Document → Option Bool
  | .bool b => some b
  | _ => none

/-- A size in bytes, below `2 ^ 64`. -/
def readSize : Document → Option Nat
  | .number n =>
    match n.integer? with
    | some (.ofNat n) => some n
    | _ => none
  | _ => none

/-- A compression mode, written as its name or as an object with null under its name. -/
def readCompression : Document → Option Compression
  | .string units => (Json.text? units).bind Compression.ofName?
  | .object [(units, .null)] => (Json.text? units).bind Compression.ofName?
  | _ => none

def readLimits (doc : Document) : Option Limits := do
  let fields := ["key_safe_max_bytes", "content_max_bytes", "meta_max_bytes",
    "attachments_max_bytes"]
  let default : Limits := {}
  match ← slots? fields doc with
  | [keySafe, content, metadata, attachments] =>
    return {
      keySafe := ← slot readSize default.keySafe keySafe
      content := ← slot readSize default.content content
      metadata := ← slot readSize default.metadata metadata
      attachments := ← slot readSize default.attachments attachments }
  | _ => none

/-- Settings, not yet checked for their sense. -/
def readConfig (doc : Document) : Option Config := do
  let fields := ["limits", "verify_signatures", "compression", "attachment_chunk_bytes"]
  let default : Config := {}
  match ← slots? fields doc with
  | [limits, verify, compression, chunk] =>
    return {
      limits := ← slot readLimits default.limits limits
      verifySignatures := ← slot readBool default.verifySignatures verify
      compression := ← slot readCompression default.compression compression
      attachmentChunk := ← slot readSize default.attachmentChunk chunk }
  | _ => none

/-- Refuses settings under which nothing could be received. -/
def validate (config : Config) : Except ConfigError Unit :=
  if config.attachmentChunk = 0 then .error (.invalid .emptyChunk)
  -- the number of a key pair has four bytes, and so has the version of a state
  else if config.limits.keySafe ≤ 4 ∨ config.limits.content = 0 ∨ config.limits.metadata < 4 then
    .error (.invalid .limitsTooSmall)
  else .ok ()

def ofString (text : String) : Except ConfigError Config :=
  match (Document.ofString? text).bind readConfig with
  | none => .error .malformed
  | some config => (validate config).map fun _ => config

/-- The settings in a file with the given contents, if there is such a file. -/
def ofFile (contents : Option Bytes) : Except ConfigError Config :=
  match contents.bind Bytes.toString? with
  | none => .error .unreadable
  | some text => ofString text

/-- A field of a record in the order of its declaration. -/
def fieldText (name : String) (value : List Char) : List Char := Json.quote name ++ ':' :: value

/-- A record as a compact object, its fields in the given order. -/
def recordText : List (String × List Char) → List Char
  | [] => ['{', '}']
  | (name, value) :: rest =>
    '{' :: (fieldText name value ++ rest.flatMap (fun field => ',' :: fieldText field.1 field.2) ++
      ['}'])

/-- The settings as compact text, every field in the order of its declaration. -/
def render (config : Config) : String :=
  let size (n : Nat) : List Char := Json.decimal n
  String.ofList (recordText [
    ("limits", recordText [
      ("key_safe_max_bytes", size config.limits.keySafe),
      ("content_max_bytes", size config.limits.content),
      ("meta_max_bytes", size config.limits.metadata),
      ("attachments_max_bytes", size config.limits.attachments)]),
    ("verify_signatures", Json.chars (.bool config.verifySignatures)),
    ("compression", Json.quote config.compression.name),
    ("attachment_chunk_bytes", size config.attachmentChunk)])

end Config

end SealedMail
