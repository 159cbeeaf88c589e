import Mathlib.Algebra.Group.Nat.Defs
import Wayring.Error

/-!
# Wire framing

Message headers and argument cursors.  Words are in the byte order of the
machine.
-/

namespace Wayring

/-- The byte order of a machine. -/
inductive Endian
  | little
  | big
  deriving DecidableEq, Repr

/-- The machine that both ends of a connection run on. -/
class Native where
  endian : Endian

namespace Wire

/-- The length of a header. -/
def headerLen : Nat := 8

/-- The longest message that a header can tell of. -/
def maxMessageLen : Nat := 2 ^ 16 - 1

section Words

variable [Native]

/-- The value of some bytes, most significant byte first. -/
def fromDigits (bytes : List UInt8) : Nat :=
  bytes.foldl (fun value byte => value * 256 + byte.toNat) 0

/-- The last bytes of a value, most significant byte first. -/
def toDigits : Nat → Nat → List UInt8
  | 0, _ => []
  | count + 1, value =>
      toDigits count (value / 256) ++ [UInt8.ofNat (value % 256)]

/-- Read a word of any width. -/
def readWord (bytes : List UInt8) : Nat :=
  match Native.endian with
  | .big => fromDigits bytes
  | .little => fromDigits bytes.reverse

/-- A word of some width in bytes. -/
def writeWord (width value : Nat) : List UInt8 :=
  match Native.endian with
  | .big => toDigits width value
  | .little => (toDigits width value).reverse

/-- The first word. -/
def readU32 (bytes : List UInt8) : Nat := readWord (bytes.take 4)

/-- A number as a word. -/
def writeU32 (value : Nat) : List UInt8 := writeWord 4 value

end Words

/-- A message header. -/
structure Header where
  objectId : Nat
  opcode : Nat
  size : Nat
  deriving DecidableEq, Repr

namespace Header

variable [Native]

/-- No header until all its bytes are there. -/
def decode (bytes : List UInt8) : Except Error (Option Header) :=
  if bytes.length < headerLen then .ok none
  else
    let objectId := readU32 bytes
    let word := readU32 (bytes.drop 4)
    let size := word / 2 ^ 16
    if objectId = 0 then .error .nullSender
    else if size < headerLen then .error .invalidSize
    else if size % 4 ≠ 0 then .error .unalignedSize
    else .ok (some { objectId, opcode := word % 2 ^ 16, size })

/-- The bytes of a header. -/
def encode (header : Header) : Except Error (List UInt8) :=
  if header.objectId = 0 then .error .nullSender
  else if header.size < headerLen then .error .invalidSize
  else if header.size % 4 ≠ 0 then .error .unalignedSize
  else
    .ok (writeU32 header.objectId ++
      writeU32 (header.size * 2 ^ 16 + header.opcode))

end Header

/-- A complete message. -/
structure Message where
  header : Header
  payload : List UInt8
  deriving DecidableEq, Repr

/-- Decode the first complete message. -/
def Message.decode [Native] (bytes : List UInt8) :
    Except Error (Option Message) :=
  match Header.decode bytes with
  | .error cause => .error cause
  | .ok none => .ok none
  | .ok (some header) =>
      if bytes.length < header.size then .ok none
      else
        .ok (some
          { header
            payload := (bytes.take header.size).drop headerLen })

/-! ## Arguments -/

/-- A cursor over the payload of a message. -/
structure Arguments where
  remaining : List UInt8
  deriving DecidableEq, Repr

namespace Arguments

/-- The next bytes. -/
def take
    (arguments : Arguments)
    (length : Nat) : Except Error (List UInt8 × Arguments) :=
  if arguments.remaining.length < length then .error .unexpectedEnd
  else
    .ok (arguments.remaining.take length,
      { remaining := arguments.remaining.drop length })

variable [Native]

/-- Read an unsigned argument. -/
def uint (arguments : Arguments) : Except Error (UInt32 × Arguments) := do
  let (bytes, arguments) ← arguments.take 4
  .ok (UInt32.ofNat (readU32 bytes), arguments)

/-- Read a signed argument. -/
def int (arguments : Arguments) : Except Error (Int32 × Arguments) := do
  let (value, arguments) ← arguments.uint
  .ok (value.toInt32, arguments)

/-- Round up to a multiple of four. -/
def padded (length : Nat) : Nat := (length + 3) / 4 * 4

/-- No string when its length is zero.  Its trailing NUL is left out. -/
def string
    (arguments : Arguments) : Except Error (Option (List UInt8) × Arguments) := do
  let (length, arguments) ← arguments.uint
  if length.toNat = 0 then .ok (none, arguments)
  else
    let (bytes, arguments) ← arguments.take (padded length.toNat)
    let value := bytes.take length.toNat
    let stringBytes := value.take (length.toNat - 1)
    if value.getLast? ≠ some 0 ∨ stringBytes.contains 0 then
      .error .invalidString
    else .ok (some stringBytes, arguments)

/-- Read an array argument. -/
def array (arguments : Arguments) : Except Error (List UInt8 × Arguments) := do
  let (length, arguments) ← arguments.uint
  let (bytes, arguments) ← arguments.take (padded length.toNat)
  .ok (bytes.take length.toNat, arguments)

omit [Native] in
/-- Nothing may be left. -/
def finish (arguments : Arguments) : Except Error Unit :=
  if arguments.remaining.length ≠ 0 then .error .trailingArguments else .ok ()

end Arguments
end Wire
end Wayring
