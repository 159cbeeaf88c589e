import Wayring.Scanner.Tokens

/-!
# The protocol parser

The parser consumes the tags of a protocol file one by one.  It keeps the
element of each level that is open: the interface, in it a message or an enum,
in an enum an entry.  An element is moved into the one around it when it is
closed.  Descriptions and everything in them are ignored.
-/

namespace Wayring
namespace Scanner

open Debug (bytesOf)

/-! ## The parsed protocol -/

/-- The types of arguments. -/
inductive ArgumentType
  | int
  | uint
  | fixed
  | string
  | object
  | newId
  | array
  | fd
  deriving DecidableEq, Repr

/-- The argument type of a name. -/
def stringToEnum (name : List UInt8) : Option ArgumentType :=
  [(bytesOf "int", ArgumentType.int), (bytesOf "uint", .uint), (bytesOf "fixed", .fixed),
    (bytesOf "string", .string), (bytesOf "object", .object),
    (bytesOf "new_id", .newId), (bytesOf "array", .array),
    (bytesOf "fd", .fd)].lookup name

/-- An argument of a message. -/
structure Argument where
  name : List UInt8
  type : ArgumentType
  interface : Option (List UInt8) := none
  enumName : Option (List UInt8) := none
  allowNull : Bool := false
  deriving DecidableEq, Repr

/-- A request or an event. -/
structure Message where
  name : List UInt8
  opcode : Nat
  since : Nat
  deprecatedSince : Option Nat
  destructor : Bool
  arguments : List Argument
  deriving DecidableEq, Repr

/-- A named value of an enum. -/
structure Entry where
  name : List UInt8
  value : Int
  since : Nat
  deprecatedSince : Option Nat
  deriving DecidableEq, Repr

/-- An enum of an interface. -/
structure Enum where
  name : List UInt8
  since : Nat
  bitfield : Bool
  entries : List Entry
  deriving DecidableEq, Repr

/-- An interface of a protocol. -/
structure Interface where
  name : List UInt8
  version : Nat
  requests : List Message
  events : List Message
  enums : List Enum
  deriving DecidableEq, Repr

/-- What a file describes. -/
structure Protocol where
  name : List UInt8
  interfaces : List Interface
  deriving DecidableEq, Repr

/-! ## Elements that are still open -/

/-- Requests or events. -/
inductive MessageKind
  | request
  | event
  deriving DecidableEq, Repr

/-- A message that is not closed yet. -/
structure MessageBuilder where
  name : List UInt8
  kind : MessageKind
  since : Nat
  deprecatedSince : Option Nat
  destructor : Bool
  arguments : List Argument := []
  deriving DecidableEq, Repr

/-- An enum that is not closed yet. -/
structure EnumBuilder where
  name : List UInt8
  since : Nat
  bitfield : Bool
  entries : List Entry := []
  deriving DecidableEq, Repr

/-- An interface that is not closed yet. -/
structure InterfaceBuilder where
  name : List UInt8
  version : Nat
  requests : List Message := []
  events : List Message := []
  enums : List Enum := []
  deriving DecidableEq, Repr

namespace InterfaceBuilder

/-- The messages of one kind. -/
def messages (interface : InterfaceBuilder) : MessageKind → List Message
  | .request => interface.requests
  | .event => interface.events

/-- Append a message to those of its kind. -/
def append
    (interface : InterfaceBuilder)
    (kind : MessageKind)
    (message : Message) : InterfaceBuilder :=
  match kind with
  | .request => { interface with requests := interface.requests ++ [message] }
  | .event => { interface with events := interface.events ++ [message] }

end InterfaceBuilder

/-! ## Names -/

/-- An ASCII letter. -/
def isAlphabetic (byte : UInt8) : Bool :=
  0x41 ≤ byte && byte ≤ 0x5a || 0x61 ≤ byte && byte ≤ 0x7a

/-- An ASCII letter or digit. -/
def isAlphanumeric (byte : UInt8) : Bool :=
  isAlphabetic byte || 0x30 ≤ byte && byte ≤ 0x39

/-- A name has to be one in the generated code. -/
def validateName (name : List UInt8) : Scan Error Unit :=
  match name with
  | [] => Scan.fail .invalidName
  | first :: rest => do
      Scan.reject (!(isAlphabetic first || first == 0x5f)) .invalidName
      Scan.reject (rest.any fun byte => !(isAlphanumeric byte || byte == 0x5f))
        .invalidName

/-- No name of a list is the given one. -/
def ensureUnique
    (names : List (List UInt8))
    (name : List UInt8) : Scan Error Unit :=
  Scan.reject (names.contains name) .duplicateName

/-- An interface has to have a new name. -/
def ensureUniqueInterface
    (interfaces : List Interface)
    (name : List UInt8) : Scan Error Unit :=
  ensureUnique (interfaces.map (·.name)) name

/-- A message has to have a new name. -/
def ensureUniqueMessage
    (messages : List Message)
    (name : List UInt8) : Scan Error Unit :=
  ensureUnique (messages.map (·.name)) name

/-! ## The parser -/

/-- What was read of a file. -/
structure Parser where
  /-- Whether the allocator has room, for each of its calls. -/
  room : Nat → Bool
  /-- The calls of the allocator so far. -/
  allocations : Nat := 0
  protocolName : Option (List UInt8) := none
  protocolOpen : Bool := false
  protocolClosed : Bool := false
  interfaces : List Interface := []
  interface : Option InterfaceBuilder := none
  message : Option MessageBuilder := none
  enumeration : Option EnumBuilder := none
  entryOpen : Bool := false
  ignoredDepth : Nat := 0

namespace Parser

/-- Ask the allocator for room. -/
def allocate (parser : Parser) : Scan Error Parser :=
  if parser.room parser.allocations then
    return { parser with allocations := parser.allocations + 1 }
  else Scan.fail .outOfMemory

/-- Close the message that is open. -/
def finishMessage (parser : Parser) : Scan Error Parser := do
  let builder ← Scan.require parser.message .unexpectedElement
  let interface ← Scan.unwrap parser.interface
  let destination := interface.messages builder.kind
  Scan.reject (0xffff < destination.length) .tooManyMessages
  let parser ← parser.allocate
  let opcode ← Scan.narrow destination.length 0xffff
  let parser ← parser.allocate
  let message :=
    { name := builder.name
      opcode
      since := builder.since
      deprecatedSince := builder.deprecatedSince
      destructor := builder.destructor
      arguments := builder.arguments }
  return { parser with
    message := none
    interface := some (interface.append builder.kind message) }

/-- Close the enum that is open. -/
def finishEnum (parser : Parser) : Scan Error Parser := do
  let builder ← Scan.require parser.enumeration .unexpectedElement
  let parser ← parser.allocate
  let interface ← Scan.unwrap parser.interface
  let parser ← parser.allocate
  let value :=
    { name := builder.name
      since := builder.since
      bitfield := builder.bitfield
      entries := builder.entries }
  return { parser with
    enumeration := none
    interface := some { interface with enums := interface.enums ++ [value] } }

/-- Close the interface that is open. -/
def finishInterface (parser : Parser) : Scan Error Parser := do
  let builder ← Scan.require parser.interface .unexpectedElement
  let parser ← parser.allocate
  let parser ← parser.allocate
  let parser ← parser.allocate
  let parser ← parser.allocate
  let interface :=
    { name := builder.name
      version := builder.version
      requests := builder.requests
      events := builder.events
      enums := builder.enums }
  return { parser with
    interface := none
    interfaces := parser.interfaces ++ [interface] }

/-- Read a tag of a protocol. -/
def protocolTag (parser : Parser) (tag : Tag) : Scan Error Parser :=
  match tag.kind with
  | .start => do
      Scan.reject (parser.protocolOpen || parser.protocolClosed) .unexpectedElement
      tag.attributes.ensureOnly [bytesOf "name"]
      let name ← tag.attributes.required (bytesOf "name")
      validateName name
      return { parser with protocolName := some name, protocolOpen := true }
  | .close => do
      Scan.reject
        (!parser.protocolOpen || parser.interface.isSome || parser.message.isSome ||
          parser.enumeration.isSome)
        .unexpectedElement
      return { parser with protocolOpen := false, protocolClosed := true }
  | .empty => Scan.fail .unexpectedElement

/-- Read a tag of an interface. -/
def interfaceTag (parser : Parser) (tag : Tag) : Scan Error Parser := do
  Scan.reject
    (!parser.protocolOpen || parser.message.isSome || parser.enumeration.isSome)
    .unexpectedElement
  match tag.kind with
  | .start => do
      Scan.reject parser.interface.isSome .unexpectedElement
      tag.attributes.ensureOnly [bytesOf "name", bytesOf "version", bytesOf "frozen"]
      let name ← tag.attributes.required (bytesOf "name")
      validateName name
      ensureUniqueInterface parser.interfaces name
      let version ← tag.attributes.requiredUnsigned (bytesOf "version")
      Scan.reject (version = 0) .invalidVersion
      let _ ← tag.attributes.optionalBoolean (bytesOf "frozen")
      return { parser with interface := some { name, version } }
  | .close => parser.finishInterface
  | .empty => Scan.fail .unexpectedElement

/-- Open the element of a message. -/
def openMessage
    (parser : Parser)
    (tag : Tag)
    (kind : MessageKind) : Scan Error Parser := do
  Scan.reject parser.message.isSome .unexpectedElement
  tag.attributes.ensureOnly
    [bytesOf "name", bytesOf "type", bytesOf "since", bytesOf "deprecated-since"]
  let name ← tag.attributes.required (bytesOf "name")
  validateName name
  let interface ← Scan.unwrap parser.interface
  ensureUniqueMessage (interface.messages kind) name
  let since := (← tag.attributes.optionalUnsigned (bytesOf "since")).getD 1
  Scan.reject (since = 0 || interface.version < since) .invalidVersion
  let messageType ← tag.attributes.optional (bytesOf "type")
  Scan.reject (messageType.any (· != bytesOf "destructor")) .unexpectedElement
  let deprecatedSince ← tag.attributes.optionalUnsigned (bytesOf "deprecated-since")
  return { parser with
    message := some
      { name, kind, since, deprecatedSince, destructor := messageType.isSome } }

/-- Read a tag of a message. -/
def messageTag
    (parser : Parser)
    (tag : Tag)
    (kind : MessageKind) : Scan Error Parser := do
  Scan.reject (parser.interface.isNone || parser.enumeration.isSome)
    .unexpectedElement
  match tag.kind with
  | .start => parser.openMessage tag kind
  | .empty => (← parser.openMessage tag kind).finishMessage
  | .close => do
      Scan.reject (parser.message.all (·.kind ≠ kind)) .unexpectedElement
      parser.finishMessage

/-- The types whose wire form has a null value. -/
def nullable : ArgumentType → Bool
  | .string | .object | .array => true
  | _ => false

/-- Read a tag of an argument. -/
def argumentTag (parser : Parser) (tag : Tag) : Scan Error Parser := do
  Scan.reject (tag.kind ≠ .empty || parser.message.isNone) .unexpectedElement
  tag.attributes.ensureOnly
    [bytesOf "name", bytesOf "type", bytesOf "interface", bytesOf "enum",
      bytesOf "allow-null", bytesOf "summary"]
  let name ← tag.attributes.required (bytesOf "name")
  validateName name
  let message ← Scan.unwrap parser.message
  ensureUnique (message.arguments.map (·.name)) name
  let typeName ← tag.attributes.required (bytesOf "type")
  let type ← Scan.require (stringToEnum typeName) .invalidArgumentType
  let allowNull := (← tag.attributes.optionalBoolean (bytesOf "allow-null")).getD false
  Scan.reject (allowNull && !nullable type) .invalidNullability
  let interface ← tag.attributes.optional (bytesOf "interface")
  let enumName ← tag.attributes.optional (bytesOf "enum")
  let parser ← parser.allocate
  let argument := { name, type, interface, enumName, allowNull }
  return { parser with
    message := some { message with arguments := message.arguments ++ [argument] } }

/-- Open the element of an enum. -/
def openEnum (parser : Parser) (tag : Tag) : Scan Error Parser := do
  Scan.reject parser.enumeration.isSome .unexpectedElement
  tag.attributes.ensureOnly [bytesOf "name", bytesOf "since", bytesOf "bitfield"]
  let name ← tag.attributes.required (bytesOf "name")
  validateName name
  let interface ← Scan.unwrap parser.interface
  ensureUnique (interface.enums.map (·.name)) name
  let since := (← tag.attributes.optionalUnsigned (bytesOf "since")).getD 1
  Scan.reject (since = 0 || interface.version < since) .invalidVersion
  let bitfield := (← tag.attributes.optionalBoolean (bytesOf "bitfield")).getD false
  return { parser with enumeration := some { name, since, bitfield } }

/-- Read a tag of an enum. -/
def enumTag (parser : Parser) (tag : Tag) : Scan Error Parser := do
  Scan.reject
    (parser.interface.isNone || parser.message.isSome || parser.entryOpen)
    .unexpectedElement
  match tag.kind with
  | .start => parser.openEnum tag
  | .empty => (← parser.openEnum tag).finishEnum
  | .close => parser.finishEnum

/-- Add an entry to the open enum. -/
def appendEntry (parser : Parser) (tag : Tag) : Scan Error Parser := do
  tag.attributes.ensureOnly
    [bytesOf "name", bytesOf "value", bytesOf "summary", bytesOf "since",
      bytesOf "deprecated-since"]
  let name ← tag.attributes.required (bytesOf "name")
  let enumeration ← Scan.unwrap parser.enumeration
  ensureUnique (enumeration.entries.map (·.name)) name
  let since := (← tag.attributes.optionalUnsigned (bytesOf "since")).getD 1
  let interface ← Scan.unwrap parser.interface
  Scan.reject (since = 0 || interface.version < since) .invalidVersion
  let value ← tag.attributes.requiredInteger (bytesOf "value")
  let deprecatedSince ← tag.attributes.optionalUnsigned (bytesOf "deprecated-since")
  let parser ← parser.allocate
  let entry := { name, value, since, deprecatedSince }
  return { parser with
    enumeration := some { enumeration with entries := enumeration.entries ++ [entry] } }

/-- Read a tag of an entry. -/
def entryTag (parser : Parser) (tag : Tag) : Scan Error Parser := do
  Scan.reject parser.enumeration.isNone .unexpectedElement
  match tag.kind with
  | .start => do
      Scan.reject parser.entryOpen .unexpectedElement
      let parser ← parser.appendEntry tag
      return { parser with entryOpen := true }
  | .empty => do
      Scan.reject parser.entryOpen .unexpectedElement
      parser.appendEntry tag
  | .close => do
      Scan.reject (!parser.entryOpen) .unexpectedElement
      return { parser with entryOpen := false }

/-- The elements that are ignored with everything in them. -/
def isIgnored (name : List UInt8) : Bool :=
  name == bytesOf "description" || name == bytesOf "copyright"

/-- Read a tag; those of other elements are ignored. -/
def consume (parser : Parser) (tag : Tag) : Scan Error Parser :=
  if 0 < parser.ignoredDepth then
    match tag.kind with
    | .start => return { parser with ignoredDepth := parser.ignoredDepth + 1 }
    | .close => return { parser with ignoredDepth := parser.ignoredDepth - 1 }
    | .empty => return parser
  else if isIgnored tag.name then
    match tag.kind with
    | .start => return { parser with ignoredDepth := 1 }
    | _ => return parser
  else if tag.name = bytesOf "protocol" then parser.protocolTag tag
  else if tag.name = bytesOf "interface" then parser.interfaceTag tag
  else if tag.name = bytesOf "request" then parser.messageTag tag .request
  else if tag.name = bytesOf "event" then parser.messageTag tag .event
  else if tag.name = bytesOf "arg" then parser.argumentTag tag
  else if tag.name = bytesOf "enum" then parser.enumTag tag
  else if tag.name = bytesOf "entry" then parser.entryTag tag
  else Scan.fail .unexpectedElement

/-- The protocol, once everything is closed. -/
def finish (parser : Parser) : Scan Error Protocol := do
  Scan.reject
    (!parser.protocolClosed || parser.protocolOpen || parser.interface.isSome ||
      parser.message.isSome || parser.enumeration.isSome ||
      parser.ignoredDepth != 0)
    .malformedXml
  let name ← Scan.require parser.protocolName .malformedXml
  let parser ← parser.allocate
  return { name, interfaces := parser.interfaces }

end Parser

/-- Parse a protocol file. -/
def Protocol.parse (room : Nat → Bool) (xml : List UInt8) : Scan Error Protocol := do
  let parser ← Scan.loop
    (fun (parser, tokenizer) => do
      match ← Tokenizer.next tokenizer with
      | (none, _) => return .inr parser
      | (some tag, tokenizer) => return .inl (← Parser.consume parser tag, tokenizer))
    (xml.length + 1)
    (({ room } : Parser), ({ xml } : Tokenizer))
  parser.finish

end Scanner
end Wayring
