import Wayring.Scanner.Document

/-!
# Steps of the parser

What the parser does with one tag, as a relation: the element that the tag
opens, closes or is, with the conditions under which the parser accepts it.
The parser never reads outside its text and never opens an option that is
empty, because the element around an open element is open.
-/

namespace Wayring
namespace Scanner

open Debug (bytesOf)

/-- A name that the parser accepts. -/
def ValidName (name : List UInt8) : Prop := validateName name = .ok ()

/-! ## What a tag may open -/

/-- A tag opens a message in an interface. -/
structure InterfaceBuilder.Opens
    (interface : InterfaceBuilder)
    (tag : Tag)
    (kind : MessageKind)
    (builder : MessageBuilder) : Prop where
  reads : tag.message kind = .ok builder
  valid : ValidName builder.name
  unique : builder.name ∉ (interface.messages kind).map (·.name)
  since : 1 ≤ builder.since ∧ builder.since ≤ interface.version

/-- A tag opens an enum in an interface. -/
structure InterfaceBuilder.OpensEnum
    (interface : InterfaceBuilder)
    (tag : Tag)
    (builder : EnumBuilder) : Prop where
  reads : tag.enumeration = .ok builder
  valid : ValidName builder.name
  unique : builder.name ∉ interface.enums.map (·.name)
  since : 1 ≤ builder.since ∧ builder.since ≤ interface.version

/-- A tag is an argument of a message. -/
structure MessageBuilder.Takes
    (message : MessageBuilder)
    (tag : Tag)
    (argument : Argument) : Prop where
  reads : tag.argument = .ok argument
  valid : ValidName argument.name
  unique : argument.name ∉ message.arguments.map (·.name)
  nullable : argument.allowNull = true → Parser.nullable argument.type = true

/-- A tag is an entry of an enum in an interface of a version. -/
structure EnumBuilder.Takes
    (enumeration : EnumBuilder)
    (version : Nat)
    (tag : Tag)
    (entry : Entry) : Prop where
  reads : tag.entry = .ok entry
  unique : entry.name ∉ enumeration.entries.map (·.name)
  since : 1 ≤ entry.since ∧ entry.since ≤ version

namespace InterfaceBuilder

/-- The interface with a message that is closed. -/
def withMessage
    (interface : InterfaceBuilder)
    (builder : MessageBuilder) : InterfaceBuilder :=
  interface.append builder.kind
    (builder.close (interface.messages builder.kind).length)

/-- The interface with an enum that is closed. -/
def withEnum
    (interface : InterfaceBuilder)
    (builder : EnumBuilder) : InterfaceBuilder :=
  { interface with enums := interface.enums ++ [builder.close] }

end InterfaceBuilder

/-! ## Steps -/

/-- What a tag outside the ignored elements does. -/
inductive Effect (parser : Parser) (tag : Tag) : Parser → Prop
  | protocolStart
      (named : tag.name = bytesOf "protocol")
      (kind : tag.kind = .start)
      (fresh : parser.protocolOpen = false ∧ parser.protocolClosed = false)
      (reads : tag.attributes.required (bytesOf "name") = .ok name)
      (valid : ValidName name) :
      Effect parser tag
        { parser with protocolName := some name, protocolOpen := true }
  | protocolClose
      (named : tag.name = bytesOf "protocol")
      (kind : tag.kind = .close)
      (within : parser.protocolOpen = true)
      (between : parser.interface = none ∧ parser.message = none ∧
        parser.enumeration = none) :
      Effect parser tag { parser with protocolOpen := false, protocolClosed := true }
  | interfaceStart
      (named : tag.name = bytesOf "interface")
      (kind : tag.kind = .start)
      (within : parser.protocolOpen = true)
      (between : parser.interface = none ∧ parser.message = none ∧
        parser.enumeration = none)
      (reads : tag.interface = .ok builder)
      (valid : ValidName builder.name)
      (unique : builder.name ∉ parser.interfaces.map (·.name))
      (version : 1 ≤ builder.version) :
      Effect parser tag { parser with interface := some builder }
  | interfaceClose
      (named : tag.name = bytesOf "interface")
      (kind : tag.kind = .close)
      (within : parser.interface = some builder)
      (between : parser.message = none ∧ parser.enumeration = none) :
      Effect parser tag
        { parser with
          allocations := calls
          interface := none
          interfaces := parser.interfaces ++ [builder.close] }
  | messageStart
      (messageKind : MessageKind)
      (named : tag.name = messageKind.name)
      (kind : tag.kind = .start)
      (within : parser.interface = some interface)
      (between : parser.message = none ∧ parser.enumeration = none)
      (opens : interface.Opens tag messageKind builder) :
      Effect parser tag { parser with message := some builder }
  | messageEmpty
      (messageKind : MessageKind)
      (named : tag.name = messageKind.name)
      (kind : tag.kind = .empty)
      (within : parser.interface = some interface)
      (between : parser.message = none ∧ parser.enumeration = none)
      (opens : interface.Opens tag messageKind builder) :
      Effect parser tag
        { parser with
          allocations := calls
          message := none
          interface := some (interface.withMessage builder) }
  | messageClose
      (named : tag.name = builder.kind.name)
      (kind : tag.kind = .close)
      (within : parser.interface = some interface)
      (opened : parser.message = some builder) :
      Effect parser tag
        { parser with
          allocations := calls
          message := none
          interface := some (interface.withMessage builder) }
  | argument
      (named : tag.name = bytesOf "arg")
      (kind : tag.kind = .empty)
      (within : parser.message = some message)
      (takes : message.Takes tag argument) :
      Effect parser tag
        { parser with
          allocations := calls
          message := some
            { message with arguments := message.arguments ++ [argument] } }
  | enumStart
      (named : tag.name = bytesOf "enum")
      (kind : tag.kind = .start)
      (within : parser.interface = some interface)
      (between : parser.message = none ∧ parser.enumeration = none)
      (opens : interface.OpensEnum tag builder) :
      Effect parser tag { parser with enumeration := some builder }
  | enumEmpty
      (named : tag.name = bytesOf "enum")
      (kind : tag.kind = .empty)
      (within : parser.interface = some interface)
      (between : parser.message = none ∧ parser.enumeration = none)
      (opens : interface.OpensEnum tag builder) :
      Effect parser tag
        { parser with
          allocations := calls
          enumeration := none
          interface := some (interface.withEnum builder) }
  | enumClose
      (named : tag.name = bytesOf "enum")
      (kind : tag.kind = .close)
      (within : parser.interface = some interface)
      (opened : parser.enumeration = some builder)
      (between : parser.entryOpen = false) :
      Effect parser tag
        { parser with
          allocations := calls
          enumeration := none
          interface := some (interface.withEnum builder) }
  | entryStart
      (named : tag.name = bytesOf "entry")
      (kind : tag.kind = .start)
      (inside : parser.interface = some interface)
      (within : parser.enumeration = some enumeration)
      (between : parser.entryOpen = false)
      (takes : enumeration.Takes interface.version tag entry) :
      Effect parser tag
        { parser with
          allocations := calls
          enumeration := some
            { enumeration with entries := enumeration.entries ++ [entry] }
          entryOpen := true }
  | entryEmpty
      (named : tag.name = bytesOf "entry")
      (kind : tag.kind = .empty)
      (inside : parser.interface = some interface)
      (within : parser.enumeration = some enumeration)
      (between : parser.entryOpen = false)
      (takes : enumeration.Takes interface.version tag entry) :
      Effect parser tag
        { parser with
          allocations := calls
          enumeration := some
            { enumeration with entries := enumeration.entries ++ [entry] } }
  | entryClose
      (named : tag.name = bytesOf "entry")
      (kind : tag.kind = .close)
      (opened : parser.entryOpen = true) :
      Effect parser tag { parser with entryOpen := false }

/-- What any tag does: the tags of an ignored element are counted, and the
others have an effect. -/
inductive Step (parser : Parser) (tag : Tag) : Parser → Prop
  | ignored
      (same : ∀ tags, significant parser.ignoredDepth (tag :: tags) =
        significant depth tags) :
      Step parser tag { parser with ignoredDepth := depth }
  | effect
      (outside : parser.ignoredDepth = 0)
      (significant : Parser.isIgnored tag.name = false)
      (effect : Effect parser tag next) :
      Step parser tag next

/-! ## The parser takes steps -/

/-- An open element stands in an open element. -/
structure Parser.Nested (parser : Parser) : Prop where
  message : parser.message.isSome = true → parser.interface.isSome = true
  enumeration : parser.enumeration.isSome = true → parser.interface.isSome = true
  entry : parser.entryOpen = true → parser.enumeration.isSome = true
  exclusive : parser.message = none ∨ parser.enumeration = none

namespace Parser

theorem allocate_meets (parser : Parser) :
    Scan.Meets parser.allocate fun next =>
      ∃ calls, next = { parser with allocations := calls } :=
  Scan.Meets.ite (fun _ => ⟨_, rfl⟩) fun _ => trivial

theorem validateName_safe (name : List UInt8) : Scan.Safe (validateName name) := by
  cases name with
  | nil => exact trivial
  | cons first rest =>
      exact Scan.Meets.bind (Scan.Meets.reject _) fun _ _ =>
        (Scan.Meets.reject _).mono fun _ _ => trivial

/-- A name that passes is valid. -/
theorem validateName_meets (name : List UInt8) :
    Scan.Meets (validateName name) fun _ => ValidName name :=
  Scan.Meets.of_forall (validateName_safe name) fun _ valid => valid

/-- A name that passes is new. -/
theorem ensureUnique_meets
    (names : List (List UInt8))
    (name : List UInt8) :
    Scan.Meets (ensureUnique names name) fun _ => name ∉ names :=
  (Scan.Meets.reject _).mono fun _ absent => by
    rwa [List.contains_eq_mem, decide_eq_false_iff_not] at absent

/-- A message that is finished was open, and belongs to its interface. -/
theorem finishMessage_meets
    {parser : Parser}
    {interface : InterfaceBuilder}
    (within : parser.interface = some interface) :
    Scan.Meets parser.finishMessage fun next =>
      ∃ builder calls, parser.message = some builder ∧
        next = { parser with
          allocations := calls
          message := none
          interface := some (interface.withMessage builder) } := by
  refine Scan.Meets.bind (Scan.Meets.require _) fun builder opened => ?_
  refine Scan.Meets.bind (Scan.Meets.unwrap (by rw [within]; rfl)) fun found isFound => ?_
  rw [within, Option.some.injEq] at isFound
  subst isFound
  refine Scan.Meets.bind (Scan.Meets.reject _) fun _ fits => ?_
  refine Scan.Meets.bind (allocate_meets _) ?_
  rintro _ ⟨calls, rfl⟩
  refine Scan.Meets.bind (Scan.Meets.narrow (by simpa using fits)) ?_
  rintro _ rfl
  refine Scan.Meets.bind (allocate_meets _) ?_
  rintro _ ⟨later, rfl⟩
  exact ⟨builder, later, opened, rfl⟩

/-- An enum that is finished was open, and belongs to its interface. -/
theorem finishEnum_meets
    {parser : Parser}
    {interface : InterfaceBuilder}
    (within : parser.interface = some interface) :
    Scan.Meets parser.finishEnum fun next =>
      ∃ builder calls, parser.enumeration = some builder ∧
        next = { parser with
          allocations := calls
          enumeration := none
          interface := some (interface.withEnum builder) } := by
  refine Scan.Meets.bind (Scan.Meets.require _) fun builder opened => ?_
  refine Scan.Meets.bind (allocate_meets _) ?_
  rintro _ ⟨calls, rfl⟩
  refine Scan.Meets.bind (Scan.Meets.unwrap (by rw [within]; rfl)) fun found isFound => ?_
  rw [within, Option.some.injEq] at isFound
  subst isFound
  refine Scan.Meets.bind (allocate_meets _) ?_
  rintro _ ⟨later, rfl⟩
  exact ⟨builder, later, opened, rfl⟩

/-- An interface that is finished was open, and belongs to its protocol. -/
theorem finishInterface_meets (parser : Parser) :
    Scan.Meets parser.finishInterface fun next =>
      ∃ builder calls, parser.interface = some builder ∧
        next = { parser with
          allocations := calls
          interface := none
          interfaces := parser.interfaces ++ [builder.close] } := by
  refine Scan.Meets.bind (Scan.Meets.require _) fun builder opened => ?_
  refine Scan.Meets.bind (allocate_meets _) ?_
  rintro _ ⟨first, rfl⟩
  refine Scan.Meets.bind (allocate_meets _) ?_
  rintro _ ⟨second, rfl⟩
  refine Scan.Meets.bind (allocate_meets _) ?_
  rintro _ ⟨third, rfl⟩
  refine Scan.Meets.bind (allocate_meets _) ?_
  rintro _ ⟨calls, rfl⟩
  exact ⟨builder, calls, opened, rfl⟩

/-- The effect of a tag of a protocol. -/
theorem protocolTag_meets
    (parser : Parser)
    (named : tag.name = bytesOf "protocol") :
    Scan.Meets (parser.protocolTag tag) (Effect parser tag) := by
  cases kind : tag.kind with
  | start =>
      rw [protocolTag, kind]
      refine Scan.Meets.bind (Scan.Meets.reject _) fun _ fresh => ?_
      refine Scan.Meets.bind (tag.attributes.ensureOnly_safe _) fun _ _ => ?_
      refine Scan.Meets.bind (tag.attributes.required_safe _).returns ?_
      rintro name ⟨reads, -⟩
      refine Scan.Meets.bind (validateName_meets name) fun _ valid => ?_
      exact .protocolStart named kind (by simpa using fresh) reads valid
  | close =>
      rw [protocolTag, kind]
      refine Scan.Meets.bind (Scan.Meets.reject _) fun _ guarded => ?_
      simp only [Bool.or_eq_false_iff, Bool.not_eq_false', Option.isSome_eq_false_iff,
        Option.isNone_iff_eq_none, and_assoc] at guarded
      exact .protocolClose named kind guarded.1 guarded.2
  | empty =>
      rw [protocolTag, kind]
      exact trivial

/-- The guard of a tag that needs an open place between other elements. -/
theorem isNone_of_isSome_eq_false
    {value : Option α}
    (absent : value.isSome = false) : value = none := by
  rwa [Option.isSome_eq_false_iff, Option.isNone_iff_eq_none] at absent

/-- The effect of a tag of an interface. -/
theorem interfaceTag_meets
    (parser : Parser)
    (named : tag.name = bytesOf "interface") :
    Scan.Meets (parser.interfaceTag tag) (Effect parser tag) := by
  refine Scan.Meets.bind (Scan.Meets.reject _) fun _ guarded => ?_
  simp only [Bool.or_eq_false_iff, Bool.not_eq_false', Option.isSome_eq_false_iff,
    Option.isNone_iff_eq_none] at guarded
  obtain ⟨⟨within, noMessage⟩, noEnum⟩ := guarded
  cases kind : tag.kind with
  | start =>
      refine Scan.Meets.bind (Scan.Meets.reject _) fun _ noInterface => ?_
      refine Scan.Meets.bind (tag.attributes.ensureOnly_safe _) fun _ _ => ?_
      refine Scan.Meets.bind (tag.attributes.required_safe _).returns ?_
      rintro name ⟨nameIs, -⟩
      refine Scan.Meets.bind (validateName_meets name) fun _ valid => ?_
      refine Scan.Meets.bind (ensureUnique_meets _ _) fun _ unique => ?_
      refine Scan.Meets.bind (tag.attributes.requiredUnsigned_safe _).returns ?_
      rintro version ⟨versionIs, -⟩
      refine Scan.Meets.bind (Scan.Meets.reject _) fun _ positive => ?_
      refine Scan.Meets.bind (tag.attributes.optionalBoolean_safe _) fun _ _ => ?_
      refine .interfaceStart named kind within
        ⟨isNone_of_isSome_eq_false noInterface, noMessage, noEnum⟩ ?_ valid unique ?_
      · rw [Tag.interface, nameIs, versionIs]
        rfl
      · exact Nat.one_le_iff_ne_zero.mpr (by simpa using positive)
  | close =>
      refine (finishInterface_meets parser).mono ?_
      rintro _ ⟨builder, calls, opened, rfl⟩
      exact .interfaceClose named kind opened ⟨noMessage, noEnum⟩
  | empty => exact trivial

/-- A message is opened inside its interface. -/
theorem openMessage_meets
    {parser : Parser}
    {interface : InterfaceBuilder}
    (within : parser.interface = some interface)
    (kind : MessageKind) :
    Scan.Meets (parser.openMessage tag kind) fun next =>
      parser.message = none ∧
        ∃ builder, builder.kind = kind ∧ interface.Opens tag kind builder ∧
          next = { parser with message := some builder } := by
  refine Scan.Meets.bind (Scan.Meets.reject _) fun _ noMessage => ?_
  refine Scan.Meets.bind (tag.attributes.ensureOnly_safe _) fun _ _ => ?_
  refine Scan.Meets.bind (tag.attributes.required_safe _).returns ?_
  rintro name ⟨nameIs, -⟩
  refine Scan.Meets.bind (validateName_meets name) fun _ valid => ?_
  refine Scan.Meets.bind (Scan.Meets.unwrap (by rw [within]; rfl)) fun found isFound => ?_
  rw [within, Option.some.injEq] at isFound
  subst isFound
  refine Scan.Meets.bind (ensureUnique_meets _ _) fun _ unique => ?_
  refine Scan.Meets.bind (tag.attributes.optionalUnsigned_safe _).returns ?_
  rintro since ⟨sinceIs, -⟩
  refine Scan.Meets.bind (Scan.Meets.reject _) fun _ bounded => ?_
  refine Scan.Meets.bind (tag.attributes.optional_safe _).returns ?_
  rintro messageType ⟨typeIs, -⟩
  refine Scan.Meets.bind (Scan.Meets.reject _) fun _ _ => ?_
  refine Scan.Meets.bind (tag.attributes.optionalUnsigned_safe _).returns ?_
  rintro deprecatedSince ⟨deprecatedIs, -⟩
  refine ⟨isNone_of_isSome_eq_false noMessage, _, rfl, ⟨?_, valid, unique, ?_⟩, rfl⟩
  · rw [Tag.message, nameIs, sinceIs, typeIs, deprecatedIs]
    rfl
  · simp only [Bool.or_eq_false_iff, decide_eq_false_iff_not] at bounded
    dsimp only
    omega

/-- The effect of a tag of a message. -/
theorem messageTag_meets
    (parser : Parser)
    (messageKind : MessageKind)
    (named : tag.name = messageKind.name) :
    Scan.Meets (parser.messageTag tag messageKind) (Effect parser tag) := by
  refine Scan.Meets.bind (Scan.Meets.reject _) fun _ guarded => ?_
  rw [Bool.or_eq_false_iff] at guarded
  obtain ⟨hasInterface, noEnum⟩ := guarded
  cases within : parser.interface with
  | none =>
      rw [within] at hasInterface
      cases hasInterface
  | some interface =>
      have noEnum := isNone_of_isSome_eq_false noEnum
      cases kind : tag.kind with
      | start =>
          refine (openMessage_meets within messageKind).mono ?_
          rintro _ ⟨noMessage, builder, -, opens, rfl⟩
          exact .messageStart messageKind named kind within ⟨noMessage, noEnum⟩ opens
      | empty =>
          refine Scan.Meets.bind (openMessage_meets within messageKind) ?_
          rintro opened ⟨noMessage, builder, -, opens, openedIs⟩
          have opensIn : opened.interface = some interface := by rw [openedIs, within]
          subst openedIs
          refine (finishMessage_meets opensIn).mono ?_
          rintro _ ⟨closed, calls, isClosed, rfl⟩
          rw [← Option.some.inj isClosed]
          exact .messageEmpty messageKind named kind within ⟨noMessage, noEnum⟩ opens
      | close =>
          refine Scan.Meets.bind (Scan.Meets.reject _) fun _ sameKind => ?_
          refine (finishMessage_meets within).mono ?_
          rintro _ ⟨builder, calls, opened, rfl⟩
          refine .messageClose ?_ kind within opened
          rw [opened] at sameKind
          rw [named, ← show builder.kind = messageKind by simpa using sameKind]

/-- The effect of a tag of an argument. -/
theorem argumentTag_meets
    (parser : Parser)
    (named : tag.name = bytesOf "arg") :
    Scan.Meets (parser.argumentTag tag) (Effect parser tag) := by
  refine Scan.Meets.bind (Scan.Meets.reject _) fun _ guarded => ?_
  rw [Bool.or_eq_false_iff, decide_eq_false_iff_not, not_not] at guarded
  obtain ⟨kind, hasMessage⟩ := guarded
  cases within : parser.message with
  | none =>
      rw [within] at hasMessage
      cases hasMessage
  | some message =>
      refine Scan.Meets.bind (tag.attributes.ensureOnly_safe _) fun _ _ => ?_
      refine Scan.Meets.bind (tag.attributes.required_safe _).returns ?_
      rintro name ⟨nameIs, -⟩
      refine Scan.Meets.bind (validateName_meets name) fun _ valid => ?_
      refine Scan.Meets.bind (Scan.Meets.unwrap rfl) fun found isFound => ?_
      cases isFound
      refine Scan.Meets.bind (ensureUnique_meets _ _) fun _ unique => ?_
      refine Scan.Meets.bind (tag.attributes.required_safe _).returns ?_
      rintro typeName ⟨typeNameIs, -⟩
      refine Scan.Meets.bind (Scan.Meets.require _) fun type typeIs => ?_
      refine Scan.Meets.bind (tag.attributes.optionalBoolean_safe _).returns ?_
      rintro allowNull ⟨allowNullIs, -⟩
      refine Scan.Meets.bind (Scan.Meets.reject _) fun _ nullability => ?_
      refine Scan.Meets.bind (tag.attributes.optional_safe _).returns ?_
      rintro interface ⟨interfaceIs, -⟩
      refine Scan.Meets.bind (tag.attributes.optional_safe _).returns ?_
      rintro enumName ⟨enumIs, -⟩
      refine Scan.Meets.bind (allocate_meets _) ?_
      rintro _ ⟨calls, rfl⟩
      refine .argument named kind within ⟨?_, valid, unique, ?_⟩
      · have typeRead : Scan.require (stringToEnum typeName) .invalidArgumentType =
            (.ok type : Scan Error ArgumentType) := by
          rw [typeIs]
          rfl
        simp only [Tag.argument, nameIs, typeNameIs, allowNullIs, interfaceIs, enumIs,
          Scan.ok_bind, typeRead]
        rfl
      · intro isNullable
        simp only [Bool.and_eq_false_iff, Bool.not_eq_false'] at nullability
        exact nullability.resolve_left (by simpa using isNullable)

/-- An enum is opened inside its interface. -/
theorem openEnum_meets
    {parser : Parser}
    {interface : InterfaceBuilder}
    (within : parser.interface = some interface) :
    Scan.Meets (parser.openEnum tag) fun next =>
      parser.enumeration = none ∧
        ∃ builder, interface.OpensEnum tag builder ∧
          next = { parser with enumeration := some builder } := by
  refine Scan.Meets.bind (Scan.Meets.reject _) fun _ noEnum => ?_
  refine Scan.Meets.bind (tag.attributes.ensureOnly_safe _) fun _ _ => ?_
  refine Scan.Meets.bind (tag.attributes.required_safe _).returns ?_
  rintro name ⟨nameIs, -⟩
  refine Scan.Meets.bind (validateName_meets name) fun _ valid => ?_
  refine Scan.Meets.bind (Scan.Meets.unwrap (by rw [within]; rfl)) fun found isFound => ?_
  rw [within, Option.some.injEq] at isFound
  subst isFound
  refine Scan.Meets.bind (ensureUnique_meets _ _) fun _ unique => ?_
  refine Scan.Meets.bind (tag.attributes.optionalUnsigned_safe _).returns ?_
  rintro since ⟨sinceIs, -⟩
  refine Scan.Meets.bind (Scan.Meets.reject _) fun _ bounded => ?_
  refine Scan.Meets.bind (tag.attributes.optionalBoolean_safe _).returns ?_
  rintro bitfield ⟨bitfieldIs, -⟩
  refine ⟨isNone_of_isSome_eq_false noEnum, _, ⟨?_, valid, unique, ?_⟩, rfl⟩
  · rw [Tag.enumeration, nameIs, sinceIs, bitfieldIs]
    rfl
  · simp only [Bool.or_eq_false_iff, decide_eq_false_iff_not] at bounded
    dsimp only
    omega

/-- The effect of a tag of an enum. -/
theorem enumTag_meets
    (parser : Parser)
    (named : tag.name = bytesOf "enum") :
    Scan.Meets (parser.enumTag tag) (Effect parser tag) := by
  refine Scan.Meets.bind (Scan.Meets.reject _) fun _ guarded => ?_
  rw [Bool.or_eq_false_iff, Bool.or_eq_false_iff] at guarded
  obtain ⟨⟨hasInterface, noMessage⟩, between⟩ := guarded
  cases within : parser.interface with
  | none =>
      rw [within] at hasInterface
      cases hasInterface
  | some interface =>
      have noMessage := isNone_of_isSome_eq_false noMessage
      cases kind : tag.kind with
      | start =>
          refine (openEnum_meets within).mono ?_
          rintro _ ⟨noEnum, builder, opens, rfl⟩
          exact .enumStart named kind within ⟨noMessage, noEnum⟩ opens
      | empty =>
          refine Scan.Meets.bind (openEnum_meets within) ?_
          rintro opened ⟨noEnum, builder, opens, openedIs⟩
          have opensIn : opened.interface = some interface := by rw [openedIs, within]
          subst openedIs
          refine (finishEnum_meets opensIn).mono ?_
          rintro _ ⟨closed, calls, isClosed, rfl⟩
          rw [← Option.some.inj isClosed]
          exact .enumEmpty named kind within ⟨noMessage, noEnum⟩ opens
      | close =>
          refine (finishEnum_meets within).mono ?_
          rintro _ ⟨builder, calls, opened, rfl⟩
          exact .enumClose named kind within opened between

/-- An entry is added to the open enum. -/
theorem appendEntry_meets
    {parser : Parser}
    {interface : InterfaceBuilder}
    {enumeration : EnumBuilder}
    (inside : parser.interface = some interface)
    (within : parser.enumeration = some enumeration) :
    Scan.Meets (parser.appendEntry tag) fun next =>
      ∃ entry calls, enumeration.Takes interface.version tag entry ∧
        next = { parser with
          allocations := calls
          enumeration := some
            { enumeration with entries := enumeration.entries ++ [entry] } } := by
  refine Scan.Meets.bind (tag.attributes.ensureOnly_safe _) fun _ _ => ?_
  refine Scan.Meets.bind (tag.attributes.required_safe _).returns ?_
  rintro name ⟨nameIs, -⟩
  refine Scan.Meets.bind (Scan.Meets.unwrap (by rw [within]; rfl)) fun found isFound => ?_
  rw [within, Option.some.injEq] at isFound
  subst isFound
  refine Scan.Meets.bind (ensureUnique_meets _ _) fun _ unique => ?_
  refine Scan.Meets.bind (tag.attributes.optionalUnsigned_safe _).returns ?_
  rintro since ⟨sinceIs, -⟩
  refine Scan.Meets.bind (Scan.Meets.unwrap (by rw [inside]; rfl)) fun found isFound => ?_
  rw [inside, Option.some.injEq] at isFound
  subst isFound
  refine Scan.Meets.bind (Scan.Meets.reject _) fun _ bounded => ?_
  refine Scan.Meets.bind (tag.attributes.requiredInteger_safe _).returns ?_
  rintro value ⟨valueIs, -⟩
  refine Scan.Meets.bind (tag.attributes.optionalUnsigned_safe _).returns ?_
  rintro deprecatedSince ⟨deprecatedIs, -⟩
  refine Scan.Meets.bind (allocate_meets _) ?_
  rintro _ ⟨calls, rfl⟩
  refine ⟨_, calls, ⟨?_, unique, ?_⟩, rfl⟩
  · rw [Tag.entry, nameIs, sinceIs, valueIs, deprecatedIs]
    rfl
  · simp only [Bool.or_eq_false_iff, decide_eq_false_iff_not] at bounded
    dsimp only
    omega

/-- The effect of a tag of an entry. -/
theorem entryTag_meets
    {parser : Parser}
    (nested : parser.Nested)
    (named : tag.name = bytesOf "entry") :
    Scan.Meets (parser.entryTag tag) (Effect parser tag) := by
  refine Scan.Meets.bind (Scan.Meets.reject _) fun _ hasEnum => ?_
  cases within : parser.enumeration with
  | none =>
      rw [within] at hasEnum
      cases hasEnum
  | some enumeration =>
      obtain ⟨interface, inside⟩ : ∃ interface, parser.interface = some interface :=
        Option.isSome_iff_exists.mp (nested.enumeration (by rw [within]; rfl))
      cases kind : tag.kind with
      | start =>
          refine Scan.Meets.bind (Scan.Meets.reject _) fun _ between => ?_
          refine Scan.Meets.bind (appendEntry_meets inside within) ?_
          rintro _ ⟨entry, calls, takes, rfl⟩
          exact .entryStart named kind inside within between takes
      | empty =>
          refine Scan.Meets.bind (Scan.Meets.reject _) fun _ between => ?_
          refine (appendEntry_meets inside within).mono ?_
          rintro _ ⟨entry, calls, takes, rfl⟩
          exact .entryEmpty named kind inside within between takes
      | close =>
          refine Scan.Meets.bind (Scan.Meets.reject _) fun _ opened => ?_
          rw [← within]
          exact .entryClose named kind (by simpa using opened)

/-- The parser never leaves its text, and what it does with a tag is a step. -/
theorem consume_meets
    {parser : Parser}
    (nested : parser.Nested)
    (tag : Tag) :
    Scan.Meets (parser.consume tag) (Step parser tag) := by
  refine Scan.Meets.ite ?_ ?_
  · intro ignoring
    obtain ⟨depth, depthIs⟩ : ∃ depth, parser.ignoredDepth = depth + 1 :=
      ⟨parser.ignoredDepth - 1, by omega⟩
    cases kind : tag.kind with
    | start => exact .ignored fun tags => by rw [depthIs, significant, kind]
    | close => exact .ignored fun tags => by rw [depthIs, significant, kind]; rfl
    | empty => exact .ignored fun tags => by rw [depthIs, significant, kind]
  · intro notIgnoring
    have outside : parser.ignoredDepth = 0 := by omega
    refine Scan.Meets.ite ?_ ?_
    · intro ignored
      cases kind : tag.kind with
      | start =>
          refine .ignored fun tags => ?_
          rw [outside, significant, if_pos ignored, if_pos kind]
      | close =>
          refine .ignored fun tags => ?_
          rw [outside, significant, if_pos ignored, if_neg (by rw [kind]; decide)]
      | empty =>
          refine .ignored fun tags => ?_
          rw [outside, significant, if_pos ignored, if_neg (by rw [kind]; decide)]
    · intro notIgnored
      have isSignificant := Bool.eq_false_iff.mpr notIgnored
      have effects : ∀ {scan : Scan Error Parser},
          Scan.Meets scan (Effect parser tag) → Scan.Meets scan (Step parser tag) :=
        fun meets => meets.mono fun _ effect => .effect outside isSignificant effect
      refine Scan.Meets.ite (fun named => effects (protocolTag_meets parser named)) ?_
      intro _
      refine Scan.Meets.ite (fun named => effects (interfaceTag_meets parser named)) ?_
      intro _
      refine Scan.Meets.ite
        (fun named => effects (messageTag_meets parser .request named)) ?_
      intro _
      refine Scan.Meets.ite
        (fun named => effects (messageTag_meets parser .event named)) ?_
      intro _
      refine Scan.Meets.ite (fun named => effects (argumentTag_meets parser named)) ?_
      intro _
      refine Scan.Meets.ite (fun named => effects (enumTag_meets parser named)) ?_
      intro _
      exact Scan.Meets.ite (fun named => effects (entryTag_meets nested named))
        fun _ => trivial

end Parser
end Scanner
end Wayring
