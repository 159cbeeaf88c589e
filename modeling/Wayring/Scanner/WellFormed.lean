import Wayring.Scanner.Steps

/-!
# Well-formed protocols

The names of a level are distinct, versions stay within the version of their
interface, opcodes are positions, and only arguments with a null value in their
wire form may be null.  The parser keeps this for the elements it has closed and
for those that are still open.
-/

namespace Wayring
namespace Scanner

open Debug (bytesOf)

/-! ## What well-formed means -/

/-- A message is within the version of its interface. -/
structure Message.WellFormed (version : Nat) (message : Message) : Prop where
  valid : ValidName message.name
  since : 1 ≤ message.since ∧ message.since ≤ version
  argumentNames : (message.arguments.map (·.name)).Nodup
  validArguments : ∀ argument ∈ message.arguments, ValidName argument.name
  nullability : ∀ argument ∈ message.arguments, argument.allowNull = true →
    argument.type = .string ∨ argument.type = .object ∨ argument.type = .array

/-- An enum is within the version of its interface. -/
structure Enum.WellFormed (version : Nat) (value : Enum) : Prop where
  valid : ValidName value.name
  since : 1 ≤ value.since ∧ value.since ≤ version
  entryNames : (value.entries.map (·.name)).Nodup
  entries : ∀ entry ∈ value.entries, 1 ≤ entry.since ∧ entry.since ≤ version

/-- The messages of one kind: their names are distinct and their opcodes are
their positions. -/
structure MessagesWellFormed (version : Nat) (messages : List Message) : Prop where
  names : (messages.map (·.name)).Nodup
  opcodes : messages.map (·.opcode) = List.range messages.length
  each : ∀ message ∈ messages, message.WellFormed version

/-- An interface has names once and well formed members. -/
structure Interface.WellFormed (interface : Interface) : Prop where
  valid : ValidName interface.name
  version : 1 ≤ interface.version
  requests : MessagesWellFormed interface.version interface.requests
  events : MessagesWellFormed interface.version interface.events
  enumNames : (interface.enums.map (·.name)).Nodup
  enums : ∀ value ∈ interface.enums, value.WellFormed interface.version

/-- A protocol has its interfaces once, each well formed. -/
structure Protocol.WellFormed (protocol : Protocol) : Prop where
  interfaceNames : (protocol.interfaces.map (·.name)).Nodup
  interfaces : ∀ interface ∈ protocol.interfaces, interface.WellFormed

/-! ## Closing elements -/

theorem nodup_snoc
    {values : List α}
    (distinct : values.Nodup)
    (absent : value ∉ values) :
    (values ++ [value]).Nodup :=
  List.nodup_append.mpr ⟨distinct, List.nodup_singleton value, by
    rintro other isOther _ last rfl
    rw [List.mem_singleton] at last
    exact absent (last ▸ isOther)⟩

theorem forall_snoc
    {holds : α → Prop}
    (before : ∀ value ∈ values, holds value)
    (last : holds value) :
    ∀ other ∈ values ++ [value], holds other := by
  intro other isOther
  rcases List.mem_append.mp isOther with isBefore | isLast
  · exact before other isBefore
  · rw [List.mem_singleton.mp isLast]
    exact last

theorem messagesWellFormed_nil (version : Nat) : MessagesWellFormed version [] :=
  ⟨List.nodup_nil, rfl, by simp⟩

/-- A message is appended under the next opcode. -/
theorem MessagesWellFormed.snoc
    {messages : List Message}
    (wellFormed : MessagesWellFormed version messages)
    {builder : MessageBuilder}
    (closes : (builder.close messages.length).WellFormed version)
    (unique : builder.name ∉ messages.map (·.name)) :
    MessagesWellFormed version (messages ++ [builder.close messages.length]) where
  names := by
    rw [List.map_append]
    exact nodup_snoc wellFormed.names unique
  opcodes := by
    rw [List.map_append, wellFormed.opcodes, List.length_append, List.length_singleton,
      List.range_succ]
    rfl
  each := forall_snoc wellFormed.each closes

/-- The opcode of a message says nothing about whether it is well-formed. -/
theorem MessageBuilder.wellFormed_close
    {builder : MessageBuilder}
    (closes : (builder.close opcode).WellFormed version)
    (later : Nat) :
    (builder.close later).WellFormed version :=
  ⟨closes.valid, closes.since, closes.argumentNames, closes.validArguments,
    closes.nullability⟩

namespace InterfaceBuilder

@[simp] theorem withMessage_name
    (interface : InterfaceBuilder)
    (builder : MessageBuilder) :
    (interface.withMessage builder).name = interface.name := by
  unfold withMessage append
  cases builder.kind <;> rfl

@[simp] theorem withMessage_version
    (interface : InterfaceBuilder)
    (builder : MessageBuilder) :
    (interface.withMessage builder).version = interface.version := by
  unfold withMessage append
  cases builder.kind <;> rfl

@[simp] theorem withMessage_enums
    (interface : InterfaceBuilder)
    (builder : MessageBuilder) :
    (interface.withMessage builder).enums = interface.enums := by
  unfold withMessage append
  cases builder.kind <;> rfl

/-- A message comes last among those of its kind. -/
theorem withMessage_messages
    (interface : InterfaceBuilder)
    (builder : MessageBuilder) :
    (interface.withMessage builder).messages builder.kind =
      interface.messages builder.kind ++
        [builder.close (interface.messages builder.kind).length] := by
  unfold withMessage append
  cases builder.kind <;> rfl

/-- The messages of the other kind stay as they are. -/
theorem withMessage_messages_other
    (interface : InterfaceBuilder)
    {builder : MessageBuilder}
    (other : builder.kind ≠ kind) :
    (interface.withMessage builder).messages kind = interface.messages kind := by
  unfold withMessage append
  cases isKind : builder.kind <;> cases kind
  · exact absurd isKind other
  · rfl
  · rfl
  · exact absurd isKind other

/-- An interface with one message more is well formed. -/
theorem wellFormed_withMessage
    {interface : InterfaceBuilder}
    (wellFormed : interface.close.WellFormed)
    {builder : MessageBuilder}
    (closes : (builder.close 0).WellFormed interface.version)
    (unique : builder.name ∉ (interface.messages builder.kind).map (·.name)) :
    (interface.withMessage builder).close.WellFormed := by
  have closes := builder.wellFormed_close closes
    (interface.messages builder.kind).length
  unfold withMessage
  cases kind : builder.kind with
  | request =>
      rw [kind] at unique closes
      exact { wellFormed with requests := wellFormed.requests.snoc closes unique }
  | event =>
      rw [kind] at unique closes
      exact { wellFormed with events := wellFormed.events.snoc closes unique }

/-- An interface with one enum more is well formed. -/
theorem wellFormed_withEnum
    {interface : InterfaceBuilder}
    (wellFormed : interface.close.WellFormed)
    {builder : EnumBuilder}
    (closes : builder.close.WellFormed interface.version)
    (unique : builder.name ∉ interface.enums.map (·.name)) :
    (interface.withEnum builder).close.WellFormed where
  valid := wellFormed.valid
  version := wellFormed.version
  requests := wellFormed.requests
  events := wellFormed.events
  enumNames := by
    change ((interface.enums ++ [builder.close]).map (·.name)).Nodup
    rw [List.map_append]
    exact nodup_snoc wellFormed.enumNames unique
  enums := forall_snoc wellFormed.enums closes

end InterfaceBuilder

/-! ## Opening elements -/

/-- A new message has no arguments. -/
theorem Tag.message_arguments
    {tag : Tag}
    {messageKind : MessageKind}
    {builder : MessageBuilder}
    (reads : tag.message messageKind = .ok builder) :
    builder.kind = messageKind ∧ builder.arguments = [] := by
  simp only [Tag.message, Scan.bind_eq_ok] at reads
  obtain ⟨name, -, since, -, messageType, -, deprecatedSince, -, isBuilder⟩ := reads
  rw [← Except.ok.inj isBuilder]
  exact ⟨rfl, rfl⟩

/-- A new enum has no entries. -/
theorem Tag.enumeration_entries
    {tag : Tag}
    {builder : EnumBuilder}
    (reads : tag.enumeration = .ok builder) :
    builder.entries = [] := by
  simp only [Tag.enumeration, Scan.bind_eq_ok] at reads
  obtain ⟨name, -, since, -, bitfield, -, isBuilder⟩ := reads
  rw [← Except.ok.inj isBuilder]

/-- A new interface has no members. -/
theorem Tag.interface_members
    {tag : Tag}
    {builder : InterfaceBuilder}
    (reads : tag.interface = .ok builder) :
    builder.requests = [] ∧ builder.events = [] ∧ builder.enums = [] := by
  simp only [Tag.interface, Scan.bind_eq_ok] at reads
  obtain ⟨name, -, version, -, isBuilder⟩ := reads
  rw [← Except.ok.inj isBuilder]
  exact ⟨rfl, rfl, rfl⟩

/-- A new interface is well formed. -/
theorem InterfaceBuilder.wellFormed_opened
    {tag : Tag}
    {builder : InterfaceBuilder}
    (reads : tag.interface = .ok builder)
    (valid : ValidName builder.name)
    (version : 1 ≤ builder.version) :
    builder.close.WellFormed := by
  obtain ⟨noRequests, noEvents, noEnums⟩ := Tag.interface_members reads
  refine ⟨valid, version, ?_, ?_, ?_, ?_⟩
  · change MessagesWellFormed _ builder.requests
    rw [noRequests]
    exact messagesWellFormed_nil _
  · change MessagesWellFormed _ builder.events
    rw [noEvents]
    exact messagesWellFormed_nil _
  · change (builder.enums.map (·.name)).Nodup
    rw [noEnums]
    exact List.nodup_nil
  · change ∀ value ∈ builder.enums, _
    rw [noEnums]
    simp

/-- A new message is well formed. -/
theorem InterfaceBuilder.Opens.wellFormed
    {interface : InterfaceBuilder}
    (opens : interface.Opens tag messageKind builder) :
    (builder.close 0).WellFormed interface.version where
  valid := opens.valid
  since := opens.since
  argumentNames := by
    change (builder.arguments.map (·.name)).Nodup
    rw [(tag.message_arguments opens.reads).2]
    exact List.nodup_nil
  validArguments argument isArgument := by
    change argument ∈ builder.arguments at isArgument
    rw [(tag.message_arguments opens.reads).2] at isArgument
    cases isArgument
  nullability argument isArgument := by
    change argument ∈ builder.arguments at isArgument
    rw [(tag.message_arguments opens.reads).2] at isArgument
    cases isArgument

/-- A new enum is well formed. -/
theorem InterfaceBuilder.OpensEnum.wellFormed
    {interface : InterfaceBuilder}
    (opens : interface.OpensEnum tag builder) :
    builder.close.WellFormed interface.version where
  valid := opens.valid
  since := opens.since
  entryNames := by
    change (builder.entries.map (·.name)).Nodup
    rw [tag.enumeration_entries opens.reads]
    exact List.nodup_nil
  entries entry isEntry := by
    change entry ∈ builder.entries at isEntry
    rw [tag.enumeration_entries opens.reads] at isEntry
    cases isEntry

/-- A message with one argument more is well formed. -/
theorem MessageBuilder.Takes.wellFormed
    {message : MessageBuilder}
    (takes : message.Takes tag argument)
    (closes : (message.close 0).WellFormed version) :
    ({ message with arguments := message.arguments ++ [argument] }.close 0).WellFormed
      version where
  valid := closes.valid
  since := closes.since
  argumentNames := by
    change ((message.arguments ++ [argument]).map (·.name)).Nodup
    rw [List.map_append]
    exact nodup_snoc closes.argumentNames takes.unique
  validArguments := forall_snoc closes.validArguments takes.valid
  nullability := by
    refine forall_snoc closes.nullability fun isNullable => ?_
    have hasNull := takes.nullable isNullable
    cases type : argument.type <;> rw [type] at hasNull <;> simp [Parser.nullable] at hasNull ⊢

/-- An enum with one entry more is well formed. -/
theorem EnumBuilder.Takes.wellFormed
    {enumeration : EnumBuilder}
    (takes : enumeration.Takes version tag entry)
    (closes : enumeration.close.WellFormed version) :
    ({ enumeration with entries := enumeration.entries ++ [entry] }.close).WellFormed
      version where
  valid := closes.valid
  since := closes.since
  entryNames := by
    change ((enumeration.entries ++ [entry]).map (·.name)).Nodup
    rw [List.map_append]
    exact nodup_snoc closes.entryNames takes.unique
  entries := forall_snoc closes.entries takes.since

/-! ## The parser keeps its elements well-formed -/

/-- The elements that are closed are well-formed, and the open ones would be if
they were closed now. -/
structure Parser.Sound (parser : Parser) : Prop where
  nested : parser.Nested
  names : (parser.interfaces.map (·.name)).Nodup
  interfaces : ∀ interface ∈ parser.interfaces, interface.WellFormed
  interface : ∀ builder, parser.interface = some builder →
    builder.close.WellFormed ∧ builder.name ∉ parser.interfaces.map (·.name)
  message : ∀ interface builder, parser.interface = some interface →
    parser.message = some builder →
      (builder.close 0).WellFormed interface.version ∧
        builder.name ∉ (interface.messages builder.kind).map (·.name)
  enumeration : ∀ interface builder, parser.interface = some interface →
    parser.enumeration = some builder →
      builder.close.WellFormed interface.version ∧
        builder.name ∉ interface.enums.map (·.name)

namespace Parser

/-- A new parser is sound. -/
theorem sound_initial (room : Nat → Bool) : Sound { room } where
  nested := ⟨by simp, by simp, by simp, .inl rfl⟩
  names := List.nodup_nil
  interfaces := by simp
  interface := by simp
  message := by simp
  enumeration := by simp

theorem Sound.closed_message
    {parser : Parser}
    {interface : InterfaceBuilder}
    (sound : parser.Sound)
    (within : parser.interface = some interface)
    (noEnum : parser.enumeration = none)
    (closes : (builder.close 0).WellFormed interface.version)
    (unique : builder.name ∉ (interface.messages builder.kind).map (·.name)) :
    Sound
      { parser with
        allocations := calls
        message := none
        interface := some (interface.withMessage builder) } := by
  obtain ⟨wellFormed, interfaceUnique⟩ := sound.interface _ within
  refine
    { nested := ⟨by simp, fun _ => rfl, sound.nested.entry, .inl rfl⟩
      names := sound.names
      interfaces := sound.interfaces
      interface := ?_
      message := by simp
      enumeration := ?_ }
  · rintro _ ⟨⟩
    refine ⟨interface.wellFormed_withMessage wellFormed closes unique, ?_⟩
    rwa [InterfaceBuilder.withMessage_name]
  · intro _ value _ opened
    cases noEnum.symm.trans opened

theorem Sound.closed_enum
    {parser : Parser}
    {interface : InterfaceBuilder}
    (sound : parser.Sound)
    (within : parser.interface = some interface)
    (noMessage : parser.message = none)
    (between : parser.entryOpen = false)
    (closes : builder.close.WellFormed interface.version)
    (unique : builder.name ∉ interface.enums.map (·.name)) :
    Sound
      { parser with
        allocations := calls
        enumeration := none
        interface := some (interface.withEnum builder) } := by
  obtain ⟨wellFormed, interfaceUnique⟩ := sound.interface _ within
  refine
    { nested := ⟨fun _ => rfl, by simp, ?_, .inr rfl⟩
      names := sound.names
      interfaces := sound.interfaces
      interface := ?_
      message := ?_
      enumeration := by simp }
  · intro opened
    cases between.symm.trans opened
  · rintro _ ⟨⟩
    exact ⟨interface.wellFormed_withEnum wellFormed closes unique, interfaceUnique⟩
  · intro _ message _ opened
    cases noMessage.symm.trans opened

theorem Sound.taken_entry
    {parser : Parser}
    {interface : InterfaceBuilder}
    {enumeration : EnumBuilder}
    (sound : parser.Sound)
    (inside : parser.interface = some interface)
    (within : parser.enumeration = some enumeration)
    (takes : enumeration.Takes interface.version tag entry) :
    Sound
      { parser with
        allocations := calls
        enumeration := some
          { enumeration with entries := enumeration.entries ++ [entry] } } := by
  refine
    { sound with
      nested :=
        ⟨sound.nested.message, fun _ => by rw [inside]; rfl, fun _ => rfl, ?_⟩
      enumeration := ?_ }
  · refine .inl (sound.nested.exclusive.resolve_right ?_)
    rw [within]
    exact Option.some_ne_none _
  · rintro other builder isInside ⟨⟩
    rw [← Option.some.inj (inside.symm.trans isInside)]
    obtain ⟨closes, unique⟩ := sound.enumeration _ _ inside within
    exact ⟨takes.wellFormed closes, unique⟩

theorem Sound.entered
    {parser : Parser}
    (sound : parser.Sound)
    (opened : parser.enumeration.isSome = true) :
    Sound { parser with entryOpen := true } :=
  { sound with nested := { sound.nested with entry := fun _ => opened } }

/-- What a tag does keeps the elements well-formed. -/
theorem Sound.effect
    {parser next : Parser}
    (sound : parser.Sound)
    (effect : Effect parser tag next) :
    next.Sound := by
  cases effect with
  | protocolStart named kind fresh reads valid =>
      exact { sound with nested := { sound.nested with } }
  | protocolClose named kind within between =>
      exact { sound with nested := { sound.nested with } }
  | interfaceStart named kind within between reads valid unique version =>
      obtain ⟨-, noMessage, noEnum⟩ := between
      refine
        { nested := ⟨fun _ => rfl, fun _ => rfl, sound.nested.entry, .inl noMessage⟩
          names := sound.names
          interfaces := sound.interfaces
          interface := ?_
          message := ?_
          enumeration := ?_ }
      · rintro builder ⟨⟩
        exact ⟨InterfaceBuilder.wellFormed_opened reads valid version, unique⟩
      · intro interface builder _ opened
        cases noMessage.symm.trans opened
      · intro interface builder _ opened
        cases noEnum.symm.trans opened
  | interfaceClose named kind within between =>
      obtain ⟨noMessage, noEnum⟩ := between
      obtain ⟨closes, unique⟩ := sound.interface _ within
      refine
        { nested := ?_
          names := ?_
          interfaces := forall_snoc sound.interfaces closes
          interface := by simp
          message := by simp
          enumeration := by simp }
      · refine ⟨?_, ?_, sound.nested.entry, .inl noMessage⟩
        · intro opened
          rw [noMessage] at opened
          cases opened
        · intro opened
          rw [noEnum] at opened
          cases opened
      · rw [List.map_append]
        exact nodup_snoc sound.names unique
  | messageStart messageKind named kind within between opens =>
      refine
        { sound with
          nested :=
            ⟨fun _ => by rw [within]; rfl, sound.nested.enumeration, sound.nested.entry,
              .inr between.2⟩
          message := ?_ }
      rintro interface builder inside ⟨⟩
      rw [← Option.some.inj (within.symm.trans inside)]
      refine ⟨opens.wellFormed, ?_⟩
      rw [(Tag.message_arguments opens.reads).1]
      exact opens.unique
  | messageEmpty messageKind named kind within between opens =>
      refine sound.closed_message within between.2 opens.wellFormed ?_
      rw [(Tag.message_arguments opens.reads).1]
      exact opens.unique
  | messageClose named kind within opened =>
      obtain ⟨closes, unique⟩ := sound.message _ _ within opened
      refine sound.closed_message within ?_ closes unique
      refine sound.nested.exclusive.resolve_left ?_
      rw [opened]
      exact Option.some_ne_none _
  | argument named kind within takes =>
      refine
        { sound with
          nested :=
            ⟨fun _ => sound.nested.message (by rw [within]; rfl),
              sound.nested.enumeration, sound.nested.entry, ?_⟩
          message := ?_ }
      · refine .inr (sound.nested.exclusive.resolve_left ?_)
        rw [within]
        exact Option.some_ne_none _
      · rintro interface builder inside ⟨⟩
        obtain ⟨closes, unique⟩ := sound.message _ _ inside within
        exact ⟨takes.wellFormed closes, unique⟩
  | enumStart named kind within between opens =>
      refine
        { sound with
          nested :=
            ⟨sound.nested.message, fun _ => by rw [within]; rfl, fun _ => rfl,
              .inl between.1⟩
          enumeration := ?_ }
      rintro interface builder inside ⟨⟩
      rw [← Option.some.inj (within.symm.trans inside)]
      exact ⟨opens.wellFormed, opens.unique⟩
  | enumEmpty named kind within between opens =>
      refine sound.closed_enum within between.1 ?_ opens.wellFormed opens.unique
      cases entry : parser.entryOpen with
      | false => rfl
      | true =>
          have opened := sound.nested.entry entry
          rw [between.2] at opened
          cases opened
  | enumClose named kind within opened between =>
      obtain ⟨closes, unique⟩ := sound.enumeration _ _ within opened
      refine sound.closed_enum within ?_ between closes unique
      refine sound.nested.exclusive.resolve_right ?_
      rw [opened]
      exact Option.some_ne_none _
  | entryStart named kind inside within between takes =>
      exact (sound.taken_entry inside within takes).entered rfl
  | entryEmpty named kind inside within between takes =>
      exact sound.taken_entry inside within takes
  | entryClose named kind opened =>
      exact { sound with nested := { sound.nested with entry := by simp } }

/-- Every tag is read soundly. -/
theorem Sound.step
    {parser next : Parser}
    (sound : parser.Sound)
    (step : Step parser tag next) :
    next.Sound := by
  cases step with
  | ignored same => exact { sound with nested := { sound.nested with } }
  | effect outside isSignificant effect => exact sound.effect effect

end Parser
end Scanner
end Wayring
