import CardDuel.Enumerated

/-!
# Binary codecs

A codec writes values as bytes and reads them back from the front of a byte list.
Integers are little-endian in a fixed width, lengths are eight bytes wide, values
of enumerated types are written as their place in four bytes, and a leading byte
tells whether an optional value is there.
-/

namespace CardDuel

structure Codec (α : Type) where
  encode : α → List UInt8
  /-- Reads a value from the front and answers with what is left. -/
  decode : List UInt8 → Option (α × List UInt8)

namespace Codec

variable {α β : Type}

/-- Whether reading gives back what was written, for every value that fits. -/
def RoundTrips (codec : Codec α) (fits : α → Prop) : Prop :=
  ∀ value rest, fits value → codec.decode (codec.encode value ++ rest) = some (value, rest)

def bytesOf : Nat → Nat → List UInt8
  | 0, _ => []
  | width + 1, number => UInt8.ofNat (number % 256) :: bytesOf width (number / 256)

def readBytes : Nat → List UInt8 → Option (Nat × List UInt8)
  | 0, bytes => some (0, bytes)
  | _ + 1, [] => none
  | width + 1, byte :: bytes => do
    let (high, rest) ← readBytes width bytes
    return (byte.toNat + 256 * high, rest)

/-- Natural numbers of a given width in bytes. -/
def natural (width : Nat) : Codec Nat where
  encode number := bytesOf width number
  decode bytes := readBytes width bytes

def imap (codec : Codec α) (wrap : α → β) (unwrap : β → α) : Codec β where
  encode value := codec.encode (unwrap value)
  decode bytes := (codec.decode bytes).map fun read => (wrap read.1, read.2)

/-- Integers in two's complement of a given width in bytes. -/
def integer (width : Nat) : Codec Int :=
  (natural width).imap (fun number => Int.bmod number (Nat.pow 256 width))
    (fun number => (number % (Nat.pow 256 width : Nat)).toNat)

def enumerated (α : Type) [Enumerated α] [DecidableEq α] : Codec α where
  encode value := bytesOf 4 (Enumerated.index value)
  decode bytes := do
    let (place, rest) ← readBytes 4 bytes
    let value ← Enumerated.ofIndex? place
    return (value, rest)

def pair (first : Codec α) (second : Codec β) : Codec (α × β) where
  encode values := first.encode values.1 ++ second.encode values.2
  decode bytes := do
    let (one, rest) ← first.decode bytes
    let (two, rest) ← second.decode rest
    return ((one, two), rest)

def optional (codec : Codec α) : Codec (Option α) where
  encode
    | none => [0]
    | some value => 1 :: codec.encode value
  decode
    | [] => none
    | mark :: bytes =>
      if mark = 0 then some (none, bytes)
      else if mark = 1 then (codec.decode bytes).map fun read => (some read.1, read.2)
      else none

def readMany (codec : Codec α) : Nat → List UInt8 → Option (List α × List UInt8)
  | 0, bytes => some ([], bytes)
  | count + 1, bytes => do
    let (value, rest) ← codec.decode bytes
    let (values, rest) ← readMany codec count rest
    return (value :: values, rest)

def list (codec : Codec α) : Codec (List α) where
  encode values := bytesOf 8 values.length ++ values.flatMap codec.encode
  decode bytes := do
    let (count, rest) ← readBytes 8 bytes
    readMany codec count rest

def textBytes (text : String) : List UInt8 :=
  text.toUTF8.data.toList

def text : Codec String where
  encode text := bytesOf 8 (textBytes text).length ++ textBytes text
  decode bytes := do
    let (size, rest) ← readBytes 8 bytes
    if rest.length < size then none
    else do
      let text ← String.fromUTF8? ⟨(rest.take size).toArray⟩
      return (text, rest.drop size)

end Codec

end CardDuel
