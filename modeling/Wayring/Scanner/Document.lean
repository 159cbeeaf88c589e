import Wayring.Scanner.Parser

/-!
# Protocol documents

A protocol file without its ignored parts is a tree of four levels: the
protocol, its interfaces, their messages and enums, and the arguments and
entries of these.  Each element is one empty tag, or stands between a start tag
and an end tag of the same name.  A document says which tags it is written as
and which protocol it describes; both are read off the tree, level by level.
-/

namespace Wayring
namespace Scanner

open Debug (bytesOf)

/-- An element of a document, with the end tag it has unless it is empty. -/
structure Element (child : Type) where
  opening : Tag
  children : List child := []
  closing : Option Tag := none

namespace Element

/-- The tags of an element in document order. -/
def tags
    (childTags : child → List Tag)
    (element : Element child) : List Tag :=
  element.opening :: element.children.flatMap childTags ++ element.closing.toList

/-- The tags of an element belong together: an empty tag alone, or a start tag
and an end tag of one name. -/
def Formed (name : List UInt8) (element : Element child) : Prop :=
  element.opening.name = name ∧
    match element.closing with
    | none => element.opening.kind = .empty ∧ element.children = []
    | some closing =>
        element.opening.kind = .start ∧ closing.kind = .close ∧ closing.name = name

end Element

/-- The name of the elements of one kind of message. -/
def MessageKind.name : MessageKind → List UInt8
  | .request => bytesOf "request"
  | .event => bytesOf "event"

/-- A message or an enum of an interface.  The arguments of a message are
single tags, and nothing stands in an entry of an enum. -/
inductive Member
  | message (kind : MessageKind) (element : Element Tag)
  | enumeration (element : Element (Element Empty))

/-- A whole protocol file. -/
abbrev Document := Element (Element Member)

/-! ## The tags of a document -/

/-- The tags of an entry: nothing stands between them. -/
def entryTags (entry : Element Empty) : List Tag :=
  entry.tags fun child => nomatch child

namespace Member

/-- The tags of a member. -/
def tags : Member → List Tag
  | .message _ element => element.tags fun argument => [argument]
  | .enumeration element => element.tags entryTags

/-- The tags of a member nest as they should. -/
def Formed : Member → Prop
  | .message kind element =>
      element.Formed kind.name ∧
        ∀ argument ∈ element.children,
          argument.name = bytesOf "arg" ∧ argument.kind = .empty
  | .enumeration element =>
      element.Formed (bytesOf "enum") ∧
        ∀ entry ∈ element.children, entry.Formed (bytesOf "entry")

end Member

/-- The tags of an interface. -/
def interfaceTags (interface : Element Member) : List Tag := interface.tags Member.tags

/-- The elements of an interface belong together. -/
def InterfaceFormed (interface : Element Member) : Prop :=
  interface.Formed (bytesOf "interface") ∧
    ∀ member ∈ interface.children, member.Formed

namespace Document

/-- The tags of a document. -/
def tags (document : Document) : List Tag := Element.tags interfaceTags document

/-- The tags of a document nest as they should. -/
def Formed (document : Document) : Prop :=
  Element.Formed (bytesOf "protocol") document ∧
    ∀ interface ∈ document.children, InterfaceFormed interface

end Document

/-- The tags that a tokenizer yields until it is at the end of its file. -/
inductive Yields : Tokenizer → List Tag → Prop
  | done
      (ends : tokenizer.next = .ok (none, rest)) :
      Yields tokenizer []
  | tag
      (reads : tokenizer.next = .ok (some tag, rest))
      (later : Yields rest tags) :
      Yields tokenizer (tag :: tags)

/-- The tags of a file outside the elements that are ignored, at a depth of
ignored elements. -/
def significant : Nat → List Tag → List Tag
  | _, [] => []
  | 0, tag :: tags =>
      if Parser.isIgnored tag.name then
        significant (if tag.kind = .start then 1 else 0) tags
      else tag :: significant 0 tags
  | depth + 1, tag :: tags =>
      match tag.kind with
      | .start => significant (depth + 2) tags
      | .close => significant depth tags
      | .empty => significant (depth + 1) tags

/-! ## What a document describes -/

namespace Tag

/-- What the opening tag of an interface says. -/
def interface (tag : Tag) : Scan Error InterfaceBuilder := do
  let name ← tag.attributes.required (bytesOf "name")
  let version ← tag.attributes.requiredUnsigned (bytesOf "version")
  return { name, version }

/-- What the opening tag of a message says. -/
def message (tag : Tag) (kind : MessageKind) : Scan Error MessageBuilder := do
  let name ← tag.attributes.required (bytesOf "name")
  let since := (← tag.attributes.optionalUnsigned (bytesOf "since")).getD 1
  let messageType ← tag.attributes.optional (bytesOf "type")
  let deprecatedSince ← tag.attributes.optionalUnsigned (bytesOf "deprecated-since")
  return { name, kind, since, deprecatedSince, destructor := messageType.isSome }

/-- What the tag of an argument says. -/
def argument (tag : Tag) : Scan Error Argument := do
  let name ← tag.attributes.required (bytesOf "name")
  let typeName ← tag.attributes.required (bytesOf "type")
  let type ← Scan.require (stringToEnum typeName) .invalidArgumentType
  let allowNull := (← tag.attributes.optionalBoolean (bytesOf "allow-null")).getD false
  let interface ← tag.attributes.optional (bytesOf "interface")
  let enumName ← tag.attributes.optional (bytesOf "enum")
  return { name, type, interface, enumName, allowNull }

/-- What the opening tag of an enum says. -/
def enumeration (tag : Tag) : Scan Error EnumBuilder := do
  let name ← tag.attributes.required (bytesOf "name")
  let since := (← tag.attributes.optionalUnsigned (bytesOf "since")).getD 1
  let bitfield := (← tag.attributes.optionalBoolean (bytesOf "bitfield")).getD false
  return { name, since, bitfield }

/-- What the tag of an entry says. -/
def entry (tag : Tag) : Scan Error Entry := do
  let name ← tag.attributes.required (bytesOf "name")
  let since := (← tag.attributes.optionalUnsigned (bytesOf "since")).getD 1
  let value ← tag.attributes.requiredInteger (bytesOf "value")
  let deprecatedSince ← tag.attributes.optionalUnsigned (bytesOf "deprecated-since")
  return { name, value, since, deprecatedSince }

end Tag

/-- A message that is closed at a position of its interface. -/
def MessageBuilder.close (builder : MessageBuilder) (opcode : Nat) : Message where
  name := builder.name
  opcode := opcode
  since := builder.since
  deprecatedSince := builder.deprecatedSince
  destructor := builder.destructor
  arguments := builder.arguments

/-- The enum that was built. -/
def EnumBuilder.close (builder : EnumBuilder) : Enum where
  name := builder.name
  since := builder.since
  bitfield := builder.bitfield
  entries := builder.entries

/-- The interface that was built. -/
def InterfaceBuilder.close (builder : InterfaceBuilder) : Interface where
  name := builder.name
  version := builder.version
  requests := builder.requests
  events := builder.events
  enums := builder.enums

/-- The message that an element describes. -/
def messageOf
    (kind : MessageKind)
    (element : Element Tag)
    (opcode : Nat) : Scan Error Message := do
  let builder ← element.opening.message kind
  let arguments ← element.children.mapM Tag.argument
  return { builder with arguments }.close opcode

/-- The enum that an element describes. -/
def enumOf (element : Element (Element Empty)) : Scan Error Enum := do
  let builder ← element.opening.enumeration
  let entries ← element.children.mapM fun entry => entry.opening.entry
  return { builder with entries }.close

namespace Member

/-- The element of a message of a kind. -/
def ofKind (kind : MessageKind) : Member → Option (Element Tag)
  | .message other element => if other = kind then some element else none
  | .enumeration _ => none

/-- The element of an enum. -/
def enum : Member → Option (Element (Element Empty))
  | .message _ _ => none
  | .enumeration element => some element

end Member

/-- The messages of one kind, in document order, with their positions as
opcodes. -/
def messagesOf
    (kind : MessageKind)
    (members : List Member) : Scan Error (List Message) :=
  (members.filterMap (·.ofKind kind)).zipIdx.mapM fun (element, opcode) =>
    messageOf kind element opcode

/-- The enums, in document order. -/
def enumsOf (members : List Member) : Scan Error (List Enum) :=
  (members.filterMap (·.enum)).mapM enumOf

/-- The interface that an element describes. -/
def interfaceOf (element : Element Member) : Scan Error Interface := do
  let builder ← element.opening.interface
  let requests ← messagesOf .request element.children
  let events ← messagesOf .event element.children
  let enums ← enumsOf element.children
  return { builder with requests, events, enums }.close

/-- The protocol that a document describes. -/
def Document.protocol (document : Document) : Scan Error Protocol := do
  let name ← document.opening.attributes.required (bytesOf "name")
  let interfaces ← document.children.mapM interfaceOf
  return { name, interfaces }

/-! ## Appending -/

/-- A list is read by its head and its rest. -/
theorem mapM_cons_ok
    {read : α → Scan ε β}
    (returned : (element :: elements).mapM read = .ok results) :
    ∃ result rest, read element = .ok result ∧ elements.mapM read = .ok rest ∧
      results = result :: rest := by
  rw [List.mapM_cons] at returned
  cases first : read element with
  | error halt =>
      rw [first] at returned
      cases returned
  | ok result =>
      cases others : elements.mapM read with
      | error halt =>
          rw [first, others] at returned
          cases returned
      | ok rest =>
          rw [first, others] at returned
          exact ⟨result, rest, rfl, rfl, (Except.ok.inj returned).symm⟩

/-- As many are read as there are. -/
theorem mapM_length
    {elements : List α}
    {results : List β}
    {read : α → Scan ε β}
    (returned : elements.mapM read = .ok results) :
    results.length = elements.length := by
  induction elements generalizing results with
  | nil =>
      cases returned
      rfl
  | cons element elements inductionHypothesis =>
      obtain ⟨result, rest, -, others, rfl⟩ := mapM_cons_ok returned
      rw [List.length_cons, List.length_cons, inductionHypothesis others]

/-- Reading one more element after those that were read. -/
theorem mapM_snoc
    {read : α → Scan ε β}
    (before : elements.mapM read = .ok results)
    (last : read element = .ok result) :
    (elements ++ [element]).mapM read = .ok (results ++ [result]) := by
  rw [List.mapM_append, before]
  change (do
    let later ← [element].mapM read
    return results ++ later) = _
  rw [List.mapM_cons, last]
  rfl

/-- Reading the messages of an interface with one more message. -/
theorem messagesOf_snoc
    (before : messagesOf kind members = .ok messages)
    (last : messageOf kind element messages.length = .ok message) :
    messagesOf kind (members ++ [.message kind element]) =
      .ok (messages ++ [message]) := by
  have position : (members.filterMap (·.ofKind kind)).length = messages.length := by
    rw [mapM_length before, List.length_zipIdx]
  have added : [Member.message kind element].filterMap (·.ofKind kind) = [element] := by
    simp [Member.ofKind]
  rw [messagesOf, List.filterMap_append, added, List.zipIdx_append]
  refine mapM_snoc before ?_
  rw [Nat.zero_add, position]
  exact last

/-- A member of another sort leaves the messages of a kind as they are. -/
theorem messagesOf_other
    (other : member.ofKind kind = none) :
    messagesOf kind (members ++ [member]) = messagesOf kind members := by
  rw [messagesOf, List.filterMap_append, List.filterMap_cons_none other,
    List.filterMap_nil, List.append_nil]
  rfl

/-- One enum more. -/
theorem enumsOf_snoc
    (before : enumsOf members = .ok enums)
    (last : enumOf element = .ok value) :
    enumsOf (members ++ [.enumeration element]) = .ok (enums ++ [value]) := by
  rw [enumsOf, List.filterMap_append]
  exact mapM_snoc before last

/-- A message is no enum. -/
theorem enumsOf_other
    (other : member.enum = none) :
    enumsOf (members ++ [member]) = enumsOf members := by
  rw [enumsOf, List.filterMap_append, List.filterMap_cons_none other,
    List.filterMap_nil, List.append_nil]
  rfl

end Scanner
end Wayring
