import Wayring.Objects.Namespace
import Wayring.Transport.Queue

/-!
# Generated codecs

The code that the generator emits for one message: a payload type, the size of
a payload, an encoder that writes through a reservation, and a decoder that
reads arguments and pops descriptors.  All three follow the message's
signature, argument by argument.
-/

namespace Wayring
namespace Codec

/-- The type of an argument, with its annotations.  Only strings, objects, and
arrays can be null, and only integers can have an enumeration. -/
inductive ArgumentType
  | int
  | uint
  | fixed
  /-- An integer with an enumeration, which may have the other sign. -/
  | enumeration (signed : Bool)
  | string (allowNull : Bool)
  | object (interface : Option String) (allowNull : Bool)
  | newId (interface : String)
  | dynamicNewId
  | array (allowNull : Bool)
  | fd
  deriving DecidableEq, Repr

/-- The arguments of a message. -/
abbrev Signature := List ArgumentType

/-- A new object whose interface the message names. -/
structure DynamicNewId where
  interface : List UInt8
  version : UInt32
  id : UInt32
  deriving DecidableEq, Repr

/-- The type that the generator gives to an argument. -/
def ArgumentType.Field : ArgumentType → Type
  | .int => Int32
  | .uint => UInt32
  | .fixed => Int32
  | .enumeration true => Int32
  | .enumeration false => UInt32
  | .string true => Option (List UInt8)
  | .string false => List UInt8
  | .object _ true => Option UInt32
  | .object _ false => UInt32
  | .newId _ => UInt32
  | .dynamicNewId => DynamicNewId
  | .array true => Option (List UInt8)
  | .array false => List UInt8
  | .fd => Fd

/-- The payload of a message. -/
def Payload : Signature → Type
  | [] => Unit
  | type :: rest => type.Field × Payload rest

/-- The descriptors of a payload, in the order of its arguments. -/
def Payload.fds : (signature : Signature) → Payload signature → List Fd
  | [], _ => []
  | .fd :: rest, payload =>
      (payload.1 : Fd) :: Payload.fds rest payload.2
  | _ :: rest, payload => Payload.fds rest payload.2

/-- Descriptor arguments of a message. -/
def fdCount (signature : Signature) : Nat :=
  signature.countP (· = .fd)

/-! ## Sizes -/

/-- Add to a size that has to fit a `usize`. -/
def addSize (size more : Nat) : Except Error Nat :=
  if size + more ≥ usizeLimit then .error .lengthOverflow
  else .ok (size + more)

/-- The size of a string or an array with its length. -/
def variableSize (length terminator : Nat) : Except Error Nat := do
  let wireLength ← addSize length terminator
  if wireLength > maxU32 then .error .lengthOverflow
  else
    let _ ← addSize wireLength 3
    addSize 4 (Wire.Arguments.padded wireLength)

/-- Add the size of a string, which has no NUL inside. -/
def stringSize (size : Nat) (bytes : List UInt8) : Except Error Nat :=
  if bytes.contains 0 then .error .invalidString
  else do
    let more ← variableSize bytes.length 1
    addSize size more

/-- Add the size of an array. -/
def arraySize (size : Nat) (bytes : List UInt8) : Except Error Nat := do
  let more ← variableSize bytes.length 0
  addSize size more

/-- Add the size of an ID that is not null. -/
def idSize (size : Nat) (id : UInt32) : Except Error Nat :=
  if id = 0 then .error .nullObject else .ok (size + 4)

/-- Check an argument, and add its size. -/
def fieldSize :
    (type : ArgumentType) → Nat → type.Field → Except Error Nat
  | .int, size, _ => .ok (size + 4)
  | .uint, size, _ => .ok (size + 4)
  | .fixed, size, _ => .ok (size + 4)
  | .enumeration _, size, _ => .ok (size + 4)
  | .string true, size, value =>
      match (value : Option (List UInt8)) with
      | none => .ok (size + 4)
      | some bytes => stringSize size bytes
  | .string false, size, value => stringSize size value
  | .object _ true, size, _ => .ok (size + 4)
  | .object _ false, size, value => idSize size value
  | .newId _, size, value => idSize size value
  | .dynamicNewId, size, value =>
      let value : DynamicNewId := value
      if value.id = 0 then .error .nullObject
      else do
        let size ← stringSize size value.interface
        .ok (size + 8)
  | .array true, size, value =>
      match (value : Option (List UInt8)) with
      | none => .ok (size + 4)
      | some bytes => arraySize size bytes
  | .array false, size, value => arraySize size value
  | .fd, size, _ => .ok size

/-- The size of a message with its arguments added. -/
def payloadSize :
    (signature : Signature) → Nat → Payload signature → Except Error Nat
  | [], size, _ => .ok size
  | type :: rest, size, payload => do
      let size ← fieldSize type size payload.1
      payloadSize rest size payload.2

/-- The size of a message (`requestSize` and `eventSize`). -/
def messageSize
    (signature : Signature)
    (payload : Payload signature) : Except Error Nat := do
  let size ← payloadSize signature Wire.headerLen payload
  if size > Wire.maxMessageLen then .error .messageTooLarge else .ok size

/-! ## Encoding -/

section Encoding

variable [Native]

/-- The pieces that an argument is written in. -/
def writeU32 (value : UInt32) : List (List UInt8) :=
  [Wire.writeU32 value.toNat]

/-- The parts of a string: its length, its bytes and zeros. -/
def writeString : Option (List UInt8) → List (List UInt8)
  | none => writeU32 0
  | some bytes =>
      let wireLength := bytes.length + 1
      writeU32 (UInt32.ofNat wireLength) ++
        [bytes, List.replicate (1 + (4 - wireLength % 4) % 4) 0]

/-- The parts of an array: its length, its items and zeros. -/
def writeArray (value : Option (List UInt8)) : List (List UInt8) :=
  let bytes := value.getD []
  writeU32 (UInt32.ofNat bytes.length) ++
    [bytes, List.replicate ((4 - bytes.length % 4) % 4) 0]

/-- The parts that are written for one argument. -/
def encodeField :
    (type : ArgumentType) → type.Field → List (List UInt8)
  | .int, value => writeU32 (value : Int32).toUInt32
  | .uint, value => writeU32 value
  | .fixed, value => writeU32 (value : Int32).toUInt32
  | .enumeration true, value => writeU32 (value : Int32).toUInt32
  | .enumeration false, value => writeU32 value
  | .string true, value => writeString value
  | .string false, value => writeString (some value)
  | .object _ true, value => writeU32 ((value : Option UInt32).getD 0)
  | .object _ false, value => writeU32 value
  | .newId _, value => writeU32 value
  | .dynamicNewId, value =>
      let value : DynamicNewId := value
      writeString (some value.interface) ++ writeU32 value.version ++
        writeU32 value.id
  | .array true, value => writeArray value
  | .array false, value => writeArray (some value)
  | .fd, _ => []

/-- The parts that are written for all arguments. -/
def encodeFields :
    (signature : Signature) → Payload signature → List (List UInt8)
  | [], _ => []
  | type :: rest, payload =>
      encodeField type payload.1 ++ encodeFields rest payload.2

/-- Write pieces one after the other. -/
def writeAll :
    List (List UInt8) → Tx.Reservation → SharedBlocks →
      Except Error Unit × Tx.Reservation × SharedBlocks
  | [], reservation, blocks => (.ok (), reservation, blocks)
  | piece :: rest, reservation, blocks =>
      match reservation.write blocks piece with
      | (.error cause, reservation, blocks) =>
          (.error cause, reservation, blocks)
      | (.ok _, reservation, blocks) => writeAll rest reservation blocks

/-- Write and commit a reserved message. -/
def fill
    (reservation : Tx.Reservation)
    (queue : Tx.Queue)
    (storage : Storage)
    (header : Wire.Header)
    (pieces : List (List UInt8))
    (fds : List Fd)
    (room : Nat) : Except Error Unit × Tx.Reservation × Tx.Queue × Storage :=
  match header.encode with
  | .error cause => (.error cause, reservation, queue, storage)
  | .ok bytes =>
      match writeAll (bytes :: pieces) reservation storage.blocks with
      | (.error cause, reservation, blocks) =>
          (.error cause, reservation, queue, { storage with blocks })
      | (.ok _, reservation, blocks) =>
          reservation.commit queue { storage with blocks } fds room

/-- Put a message on a queue.  A reservation that cannot be committed is
aborted. -/
def encode
    (signature : Signature)
    (opcode : Nat)
    (queue : Tx.Queue)
    (storage : Storage)
    (objectId : UInt32)
    (payload : Payload signature)
    (room : Tx.Room) : Except Error Unit × Tx.Queue × Storage :=
  if objectId = 0 then (.error .nullSender, queue, storage)
  else
    match messageSize signature payload with
    | .error cause => (.error cause, queue, storage)
    | .ok size =>
        match queue.reserve storage.blocks size room.blocks with
        | (.error cause, queue, blocks) =>
            (.error cause, queue, { storage with blocks })
        | (.ok reservation, queue, blocks) =>
            match fill reservation queue { storage with blocks }
                { objectId := objectId.toNat, opcode, size }
                (encodeFields signature payload)
                (Payload.fds signature payload) room.fds with
            | (.error cause, reservation, queue, storage) =>
                let (_, _, queue, blocks) :=
                  reservation.abort queue storage.blocks
                (.error cause, queue, { storage with blocks })
            | (.ok _, _, queue, storage) => (.ok (), queue, storage)

end Encoding

/-! ## Decoding -/

/-- What the bytes of a message say about an argument. -/
def ArgumentType.Read : ArgumentType → Type
  | .fd => Unit
  | type => type.Field

/-- The arguments of a message without its descriptors. -/
def Decoded : Signature → Type
  | [] => Unit
  | type :: rest => type.Read × Decoded rest

section Decoding

variable [Native]

open Wire (Arguments)

/-- A string that is not null. -/
def requiredString
    (arguments : Arguments) : Except Error (List UInt8 × Arguments) := do
  let (value, arguments) ← arguments.string
  match value with
  | none => .error .unexpectedNull
  | some bytes => .ok (bytes, arguments)

/-- An ID that is not null. -/
def requiredId
    (arguments : Arguments) : Except Error (UInt32 × Arguments) := do
  let (id, arguments) ← arguments.uint
  if id = 0 then .error .nullObject else .ok (id, arguments)

/-- Read one argument. -/
def decodeField :
    (type : ArgumentType) → Arguments → Except Error (type.Read × Arguments)
  | .int, arguments => arguments.int
  | .uint, arguments => arguments.uint
  | .fixed, arguments => arguments.int
  | .enumeration true, arguments => do
      let (value, arguments) ← arguments.uint
      .ok (value.toInt32, arguments)
  | .enumeration false, arguments => arguments.uint
  | .string true, arguments => arguments.string
  | .string false, arguments => requiredString arguments
  | .object _ true, arguments => do
      let (id, arguments) ← arguments.uint
      .ok (if id = 0 then none else some id, arguments)
  | .object _ false, arguments => requiredId arguments
  | .newId _, arguments => requiredId arguments
  | .dynamicNewId, arguments => do
      let (interface, arguments) ← requiredString arguments
      let (version, arguments) ← arguments.uint
      let (id, arguments) ← requiredId arguments
      .ok (({ interface, version, id } : DynamicNewId), arguments)
  | .array true, arguments => do
      let (value, arguments) ← arguments.array
      .ok (if value = [] then none else some value, arguments)
  | .array false, arguments => arguments.array
  | .fd, arguments => .ok ((), arguments)

/-- Read all arguments, in order. -/
def decodeFields :
    (signature : Signature) → Arguments →
      Except Error (Decoded signature × Arguments)
  | [], arguments => .ok ((), arguments)
  | type :: rest, arguments => do
      let (value, arguments) ← decodeField type arguments
      let (values, arguments) ← decodeFields rest arguments
      .ok ((value, values), arguments)

/-- The objects that a decoder may check arguments against. -/
inductive Validation
  | none
  | request (get : Nat → Option Object)
  | event (eventArgument : Nat → Except Error (Option Object))

omit [Native] in
/-- Check one object.  An event may name an object that is destroyed already,
which reads as none. -/
def Validation.check
    (validation : Validation)
    (interface : Option String)
    (id : UInt32) : Except Error (Option UInt32) :=
  match validation with
  | .none => .ok (some id)
  | .request get =>
      match get id.toNat with
      | .none => .error .unknownObject
      | .some object =>
          if ∃ name ∈ interface, object.interface.name ≠ name then
            .error .wrongInterface
          else .ok (some id)
  | .event eventArgument =>
      match eventArgument id.toNat with
      | .error cause => .error cause
      | .ok .none => .ok .none
      | .ok (.some object) =>
          if ∃ name ∈ interface, object.interface.name ≠ name then
            .error .wrongInterface
          else .ok (some id)

omit [Native] in
/-- Check the object that an argument names. -/
def validateField
    (validation : Validation) :
    (type : ArgumentType) → type.Read → Except Error type.Read
  | .object interface true, value =>
      match (value : Option UInt32) with
      | none => .ok none
      | some id => validation.check interface id
  | .object interface false, value => do
      let checked ← validation.check interface (value : UInt32)
      .ok (checked.getD 0)
  | _, value => .ok value

omit [Native] in
/-- Check the objects that the arguments name, in order. -/
def validateFields
    (validation : Validation) :
    (signature : Signature) → Decoded signature →
      Except Error (Decoded signature)
  | [], values => .ok values
  | type :: rest, values => do
      let value ← validateField validation type values.1
      let later ← validateFields validation rest values.2
      .ok (value, later)

omit [Native] in
/-- Complete an argument.  Descriptors come from a queue. -/
def popField :
    (type : ArgumentType) → type.Read → FdQueue → SharedFds →
      Except Error type.Field × FdQueue × SharedFds
  | .fd, _, queue, fds => queue.pop fds
  | .int, value, queue, fds => (.ok value, queue, fds)
  | .uint, value, queue, fds => (.ok value, queue, fds)
  | .fixed, value, queue, fds => (.ok value, queue, fds)
  | .enumeration _, value, queue, fds => (.ok value, queue, fds)
  | .string _, value, queue, fds => (.ok value, queue, fds)
  | .object _ _, value, queue, fds => (.ok value, queue, fds)
  | .newId _, value, queue, fds => (.ok value, queue, fds)
  | .dynamicNewId, value, queue, fds => (.ok value, queue, fds)
  | .array _, value, queue, fds => (.ok value, queue, fds)

omit [Native] in
/-- Take a descriptor for every descriptor argument, in order. -/
def popFields :
    (signature : Signature) → Decoded signature → FdQueue → SharedFds →
      Except Error (Payload signature) × FdQueue × SharedFds
  | [], _, queue, fds => (.ok (), queue, fds)
  | type :: rest, values, queue, fds =>
      match popField type values.1 queue fds with
      | (.error cause, queue, fds) => (.error cause, queue, fds)
      | (.ok value, queue, fds) =>
          let (result, queue, fds) := popFields rest values.2 queue fds
          (result.map fun payload => (value, payload), queue, fds)

/-- What the bytes of a message say, after all checks. -/
def read
    (signature : Signature)
    (validation : Validation)
    (bytes : List UInt8) : Except Error (Decoded signature) := do
  let (values, arguments) ← decodeFields signature { remaining := bytes }
  arguments.finish
  validateFields validation signature values

/-- Decode a message.  Descriptors are popped when all else is in order. -/
def decode
    (signature : Signature)
    (validation : Validation)
    (bytes : List UInt8)
    (queue : FdQueue)
    (fds : SharedFds) : Except Error (Payload signature) × FdQueue × SharedFds :=
  match read signature validation bytes with
  | .error cause => (.error cause, queue, fds)
  | .ok values =>
      if 0 < fdCount signature ∧ queue.count < fdCount signature then
        (.error .empty, queue, fds)
      else popFields signature values queue fds

end Decoding
end Codec
end Wayring
