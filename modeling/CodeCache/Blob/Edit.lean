import CodeCache.Bytes
import CodeCache.Header
import CodeCache.Script.Payload

/-! # Sealed blobs

What the reference engine writes and accepts. The header holds a magic word, the checksum of the
payload, the length field of the source and three words that identify the engine build; the payload
follows. A blob is accepted together with a source, of which only the length counts. Of the build
words only those at the given offsets are compared. Edits change the bytes of a blob, to try out
what an engine makes of damaged ones. -/

namespace CodeCache.Blob

def magic : UInt32 := 0xC0DE0A5E

abbrev Fingerprint := Vector UInt32 3

inductive Rejection where
  | truncated
  | badMagic
  | sourceMismatch (recorded supplied : UInt32)
  | fingerprint (offset : Nat)
  | checksum
  | payload
deriving DecidableEq, Repr

def checksum (payload : Bytes) : UInt32 := (Digest.hash payload).word 0

def sourceField (units : Nat) : UInt32 := UInt32.ofNat (units % 0x80000000 + 0x80000000)

def encode (s : Script) (units : Nat) (f : Fingerprint) : Bytes :=
  let payload := Payload.encode s
  Bytes.ofWord magic ++ Bytes.ofWord (checksum payload) ++ Bytes.ofWord (sourceField units)
    ++ f.toList.flatMap Bytes.ofWord ++ payload

def agrees (blob : Bytes) (f : Fingerprint) (offset : Nat) : Bool :=
  f[(offset - 12) / 4]? = some (blob.word offset)

/-- The script of a blob that goes with a source of `units` UTF-16 units. -/
def decode (blob : Bytes) (units : Nat) (f : Fingerprint) (offsets : List Nat) :
    Except Rejection Script :=
  let payload := blob.drop Header.size
  if blob.length < Header.size then .error .truncated
  else if blob.word 0 ≠ magic then .error .badMagic
  else if blob.word Header.fieldOffset ≠ sourceField units then
    .error (.sourceMismatch (blob.word Header.fieldOffset) (sourceField units))
  else
    match offsets.find? fun o => !agrees blob f o with
    | some offset => .error (.fingerprint offset)
    | none =>
      if blob.word 4 ≠ checksum payload then .error .checksum
      else
        match Payload.decode payload with
        | some s => .ok s
        | none => .error .payload

inductive Edit where
  | truncate (size : Nat)
  | append (bytes : Bytes)
  | put (offset : Nat) (bytes : Bytes)
  | reseal
deriving DecidableEq, Repr

def Edit.apply (blob : Bytes) : Edit → Bytes
  | truncate size => blob.take size
  | append bytes => blob ++ bytes
  | put offset bytes =>
    (blob.take offset ++ bytes ++ blob.drop (offset + bytes.length)).take blob.length
  | reseal =>
    if blob.length < Header.size then blob
    else blob.take 4 ++ Bytes.ofWord (checksum (blob.drop Header.size)) ++ blob.drop 8

end CodeCache.Blob
