import Wayring.Scanner.Document

/-!
# The code generator

The generator writes a Zig source file from the interfaces of parsed protocols.
Most of the file is fixed text; what varies are the names that are copied into
it.  The emitters here list these copies in the order of the file, with where
they stand: between the quotes of an identifier, between the quotes of a string
literal, or bare behind a fixed word.  The fixed text and the numbers around
them are left out.
-/

namespace Wayring
namespace Scanner
namespace Generator

/-- What the generator refuses. -/
inductive Error
  | duplicateInterface
  | invalidEnumType
  | invalidEnumValue
  deriving DecidableEq, Repr

/-- A name that is copied into the file. -/
inductive Copy
  /-- Between the quotes of an identifier. -/
  | identifier (name : List UInt8)
  /-- Between the quotes of a string literal. -/
  | literal (name : List UInt8)
  /-- In a plain identifier, behind a fixed word. -/
  | bare (name : List UInt8)
  deriving DecidableEq, Repr

/-- The copies of every element of a list. -/
def emitEach
    (emit : α → Scan Error (List Copy))
    (elements : List α) : Scan Error (List Copy) := do
  return (← elements.mapM emit).flatten

/-- Requests or events. -/
inductive Direction
  | request
  | event
  deriving DecidableEq, Repr

/-- Whether a protocol has an interface. -/
def hasInterface (protocol : Protocol) (name : List UInt8) : Bool :=
  protocol.interfaces.any (·.name == name)

/-- The arguments of a message that make an object. -/
def newIds (message : Message) : List Argument :=
  message.arguments.filter (·.type == .newId)

/-- The arguments of a message that are objects. -/
def objects (message : Message) : List Argument :=
  message.arguments.filter (·.type == .object)

/-- The arguments of a message that are descriptors. -/
def fds (message : Message) : List Argument :=
  message.arguments.filter (·.type == .fd)

/-! ## Types and values -/

/-- A reference to an enum, with the interface it belongs to in front. -/
def emitEnumReference (reference : List UInt8) : List Copy :=
  (reference.splitOn 0x2e).map .identifier

/-- Copy the type of an argument. -/
def emitType (argument : Argument) : List Copy :=
  match argument.enumName with
  | some reference => emitEnumReference reference
  | none => []

/-- Copy the expression that decodes an argument. -/
def emitDecodeExpression (argument : Argument) : Scan Error (List Copy) :=
  match argument.enumName with
  | some reference =>
      match argument.type with
      | .int | .uint => return emitEnumReference reference
      | _ => Scan.fail .invalidEnumType
  | none =>
      match argument.type with
      | .fd => .error .outOfRange
      | _ => return []

/-- Copy the interface that a check falls back to. -/
def emitChildInterface (parent child : List UInt8) : List Copy :=
  if parent = child then [] else [.identifier child]

/-- The value of an object, which is decoded into a variable or a field of the
payload. -/
def emitObjectValue (name : List UInt8) (decoded : Bool) : List Copy :=
  if decoded then [.bare name] else [.identifier name]

/-- Copy the check of an object argument. -/
def emitObjectValidation
    (argument : Argument)
    (decoded eventDecode : Bool) : List Copy :=
  emitObjectValue argument.name decoded ++
    (if eventDecode then [.bare argument.name] else []) ++
      argument.interface.toList.map .literal

/-! ## Enums -/

/-- A reference to an enum, from an interface, names the enum of an owner. -/
def enumReferenceMatches
    (reference consumerName ownerName enumName : List UInt8) : Bool :=
  if reference = enumName then consumerName == ownerName
  else
    match reference.idxOf? 0x2e with
    | none => false
    | some separator =>
        reference.take separator == ownerName &&
          reference.drop (separator + 1) == enumName

/-- Whether the arguments that name an enum are signed. -/
def inspectEnumArguments
    (consumerName ownerName enumName : List UInt8)
    (arguments : List Argument)
    (signed : Option Bool) : Scan Error (Option Bool) :=
  arguments.foldlM
    (fun signed argument =>
      match argument.enumName with
      | none => return signed
      | some reference =>
          if enumReferenceMatches reference consumerName ownerName enumName then
            match argument.type with
            | .int => return some true
            | .uint => return some (signed.getD false)
            | _ => Scan.fail .invalidEnumType
          else return signed)
    signed

/-- The use of an enum decides whether it is signed, and where it is not used,
its values do. -/
def enumIsSigned
    (protocol : Protocol)
    (ownerName : List UInt8)
    (protocolEnum : Enum) : Scan Error Bool := do
  let signed ← protocol.interfaces.foldlM
    (fun signed interface => do
      let signed ← interface.requests.foldlM
        (fun signed message =>
          inspectEnumArguments interface.name ownerName protocolEnum.name
            message.arguments signed)
        signed
      interface.events.foldlM
        (fun signed message =>
          inspectEnumArguments interface.name ownerName protocolEnum.name
            message.arguments signed)
        signed)
    none
  match signed with
  | some signed => return signed
  | none => return protocolEnum.entries.any (·.value < 0)

/-- Copy an entry; its value has to fit its type. -/
def emitEntry (signed : Bool) (entry : Entry) : Scan Error (List Copy) := do
  let fits : Bool :=
    if signed then -2 ^ 31 ≤ entry.value && entry.value < 2 ^ 31
    else 0 ≤ entry.value && entry.value < 2 ^ 32
  Scan.reject (!fits) .invalidEnumValue
  return [.identifier entry.name]

/-- Copy the enums of an interface. -/
def emitEnums (protocol : Protocol) (interface : Interface) : Scan Error (List Copy) :=
  emitEach
    (fun protocolEnum => do
      let signed ← enumIsSigned protocol interface.name protocolEnum
      let entries ← emitEach (emitEntry signed) protocolEnum.entries
      return .identifier protocolEnum.name :: entries)
    interface.enums

/-! ## Codecs -/

/-- Copy the decoder of a message. -/
def emitDecoderCase
    (message : Message)
    (supportsObjectValidation eventDecode : Bool) : Scan Error (List Copy) := do
  let decoded ← emitEach
    (fun argument =>
      if argument.type = .fd then return []
      else do
        let expression ← emitDecodeExpression argument
        return .bare argument.name :: emitType argument ++ expression)
    message.arguments
  let validation :=
    if supportsObjectValidation then
      (objects message).flatMap fun argument =>
        emitObjectValidation argument true eventDecode
    else []
  return decoded ++ validation ++ (fds message).map (.bare ·.name) ++
    .identifier message.name ::
      message.arguments.flatMap fun argument =>
        [.identifier argument.name, .bare argument.name]

/-- Copy the checks of the objects of the messages. -/
def emitObjectValidator (messages : List Message) : List Copy :=
  messages.flatMap fun message =>
    if (objects message).isEmpty then []
    else
      .identifier message.name ::
        (objects message).flatMap fun argument => emitObjectValidation argument false false

/-- Copy the size of an argument. -/
def emitSizeValidation (argument : Argument) : List Copy :=
  match argument.type with
  | .int | .uint | .fixed | .fd => []
  | .object => if argument.allowNull then [] else [.identifier argument.name]
  | .newId =>
      match argument.interface with
      | none => [.identifier argument.name, .identifier argument.name]
      | some _ => if argument.allowNull then [] else [.identifier argument.name]
  | .string | .array => [.identifier argument.name]

/-- Copy the encoding of an argument. -/
def emitEncodeArgument (argument : Argument) : List Copy :=
  match argument.type, argument.interface with
  | .fd, _ => []
  | .newId, none =>
      [.identifier argument.name, .identifier argument.name, .identifier argument.name]
  | _, _ => [.identifier argument.name]

/-- Copy the encoder of a message. -/
def emitMessageEncoder (message : Message) : List Copy :=
  [.bare message.name, .bare message.name] ++
    message.arguments.flatMap emitSizeValidation ++
      [.bare message.name, .bare message.name] ++
        message.arguments.flatMap emitSizeValidation ++
          message.arguments.flatMap emitEncodeArgument ++
            (fds message).map (.identifier ·.name) ++ [.identifier message.name]

/-- Copy the encoders of the messages. -/
def emitEncoder (messages : List Message) : List Copy :=
  (messages.flatMap fun message => [.identifier message.name, .bare message.name]) ++
    (messages.flatMap fun message => [.identifier message.name, .bare message.name]) ++
      messages.flatMap emitMessageEncoder

/-- Copy the debug output of an argument. -/
def emitDebugArgument (argument : Argument) : List Copy :=
  let item : List Copy :=
    if argument.type = .newId ∧ argument.allowNull = true then
      [.identifier argument.name]
    else []
  item ++
    match argument.type with
    | .object => argument.interface.toList.map .literal ++ [.identifier argument.name]
    | .newId =>
        match argument.interface with
        | some interface =>
            .literal interface ::
              if argument.allowNull then [] else [.identifier argument.name]
        | none =>
            if argument.allowNull then []
            else [.identifier argument.name, .identifier argument.name]
    | _ => [.identifier argument.name]

/-- Copy the debug output of the messages. -/
def emitDebugger (messages : List Message) : List Copy :=
  messages.flatMap fun message =>
    .identifier message.name :: .literal message.name ::
      message.arguments.flatMap emitDebugArgument

/-- Copy the requests or the events of an interface. -/
def emitDirection
    (direction : Direction)
    (messages : List Message) : Scan Error (List Copy) := do
  let hasObjects := messages.any fun message => !(objects message).isEmpty
  let union := messages.flatMap fun message =>
    [.identifier message.name, .bare message.name]
  let payloads := messages.flatMap fun message =>
    .bare message.name ::
      message.arguments.flatMap fun argument =>
        .identifier argument.name :: emitType argument
  let decoder ← emitEach
    (fun message => emitDecoderCase message hasObjects (direction == .event)) messages
  let validator := if hasObjects then emitObjectValidator messages else []
  return union ++ payloads ++ decoder ++ validator ++ emitEncoder messages ++
    emitDebugger messages

/-! ## Constructors -/

/-- The fields that an application fills in for a message that makes objects. -/
def emitPayload (message : Message) : List Copy :=
  message.arguments.flatMap fun argument =>
    .identifier argument.name ::
      if argument.type = .newId then [] else emitType argument

/-- The values of a message whose objects were made. -/
def emitValues (message : Message) : List Copy :=
  message.arguments.flatMap fun argument =>
    .identifier argument.name ::
      if argument.type ≠ .newId then [.identifier argument.name]
      else if argument.interface.isSome then []
      else [.identifier argument.name, .identifier argument.name]

/-- An object of an interface of another file is compared with its name. -/
def emitForeignCheck (protocol : Protocol) (argument : Argument) : List Copy :=
  match argument.interface with
  | some child =>
      if hasInterface protocol child then []
      else [.identifier argument.name, .literal child]
  | none => []

/-- An object of a request is made before the request is sent. -/
def emitNewObject
    (protocol : Protocol)
    (interface : Interface)
    (argument : Argument) : List Copy :=
  let name := Copy.identifier argument.name
  (if argument.allowNull then [name] else []) ++
    match argument.interface with
    | some child =>
        (if hasInterface protocol child then
            emitChildInterface interface.name child ++
              emitChildInterface interface.name child
          else [name, name]) ++
          if argument.allowNull then [] else [name]
    | none => if argument.allowNull then [] else [name, name, name]

/-- Copy the constructors of the requests. -/
def emitClientConstructors (protocol : Protocol) (interface : Interface) : List Copy :=
  interface.requests.flatMap fun message =>
    if (newIds message).isEmpty then []
    else
      let names := (newIds message).map (.identifier ·.name)
      .bare message.name :: emitPayload message ++
        .bare message.name :: names ++
          [.bare message.name, .bare message.name, .bare message.name] ++
            (newIds message).flatMap (emitForeignCheck protocol) ++
              (newIds message).flatMap (emitNewObject protocol interface) ++
                .identifier message.name :: emitValues message ++ names

/-- The objects that a message announces are checked before they are made. -/
def emitAnnouncedCheck (protocol : Protocol) (argument : Argument) : List Copy :=
  match argument.interface with
  | some _ => emitForeignCheck protocol argument
  | none =>
      [.identifier argument.name, .identifier argument.name, .identifier argument.name,
        .identifier argument.name]

/-- The objects that a message announces are made. -/
def emitAnnounced
    (protocol : Protocol)
    (interface : Interface)
    (argument : Argument) : List Copy :=
  let name := Copy.identifier argument.name
  name ::
    match argument.interface with
    | some child =>
        if hasInterface protocol child then
          emitChildInterface interface.name child ++
            emitChildInterface interface.name child ++ [name]
        else [name, name, name]
    | none => [name, name, name]

/-- Messages of the peer that make objects: both sides emit the same names. -/
def emitAdmissions
    (protocol : Protocol)
    (interface : Interface)
    (messages : List Message) : List Copy :=
  messages.flatMap fun message =>
    if (newIds message).isEmpty then []
    else
      let names := (newIds message).map (.identifier ·.name)
      .bare message.name :: names ++ .bare message.name :: names ++
        [.bare message.name, .bare message.name, .bare message.name,
          .bare message.name] ++
          (newIds message).flatMap (emitAnnouncedCheck protocol) ++
            (newIds message).flatMap (emitAnnounced protocol interface) ++ names

/-- Copy how a server admits the objects of requests. -/
def emitServerAdmissions (protocol : Protocol) (interface : Interface) : List Copy :=
  emitAdmissions protocol interface interface.requests

/-- Copy how a client admits the objects of events. -/
def emitClientEventAdmissions (protocol : Protocol) (interface : Interface) : List Copy :=
  emitAdmissions protocol interface interface.events

/-- The objects of an event are checked before they are made. -/
def emitEventCheck (protocol : Protocol) (argument : Argument) : List Copy :=
  match argument.interface with
  | some _ => emitForeignCheck protocol argument
  | none =>
      if argument.allowNull then [.identifier argument.name]
      else [.identifier argument.name, .identifier argument.name]

/-- An object of an event is made before the event is sent. -/
def emitNewEventObject
    (protocol : Protocol)
    (interface : Interface)
    (argument : Argument) : List Copy :=
  let name := Copy.identifier argument.name
  (if argument.allowNull then [name] else []) ++
    (match argument.interface with
    | some child =>
        if hasInterface protocol child then
          emitChildInterface interface.name child ++
            emitChildInterface interface.name child
        else if argument.allowNull then [] else [name, name]
    | none => if argument.allowNull then [] else [name, name]) ++
      if argument.allowNull then [] else [name]

/-- Copy the constructors of the events. -/
def emitServerEventConstructors
    (protocol : Protocol)
    (interface : Interface) : List Copy :=
  interface.events.flatMap fun message =>
    if (newIds message).isEmpty then []
    else
      let names := (newIds message).map (.identifier ·.name)
      .bare message.name :: emitPayload message ++
        .bare message.name :: names ++
          [.bare message.name, .bare message.name, .bare message.name] ++
            (newIds message).flatMap (emitEventCheck protocol) ++
              (newIds message).flatMap (emitNewEventObject protocol interface) ++
                .identifier message.name :: emitValues message ++ names

/-! ## Files -/

/-- Copy all that is generated for an interface. -/
def emitInterface (protocol : Protocol) (interface : Interface) : Scan Error (List Copy) := do
  let enums ← emitEnums protocol interface
  let requests ← emitDirection .request interface.requests
  let events ← emitDirection .event interface.events
  return [.identifier interface.name, .literal interface.name] ++ enums ++ requests ++
    emitClientConstructors protocol interface ++ emitServerAdmissions protocol interface ++
      events ++ emitServerEventConstructors protocol interface ++
        emitClientEventAdmissions protocol interface

/-- Copy all that is generated for a protocol. -/
def generate (protocol : Protocol) : Scan Error (List Copy) :=
  emitEach (emitInterface protocol) protocol.interfaces

/-- Generate one file for several protocols, whose interfaces must have
different names. -/
def generateProtocols (protocols : List Protocol) : Scan Error (List Copy) := do
  let interfaces ← (protocols.flatMap (·.interfaces)).foldlM
    (fun (interfaces : List Interface) interface => do
      Scan.reject (interfaces.any (·.name == interface.name)) .duplicateInterface
      return interfaces ++ [interface])
    []
  generate { name := Debug.bytesOf "combined", interfaces }

end Generator
end Scanner
end Wayring
