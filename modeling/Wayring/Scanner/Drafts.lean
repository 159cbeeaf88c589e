import Wayring.Scanner.WellFormed

/-!
# Drafts of documents

What the parser has read so far is a draft: a document whose last elements are
still open.  Every tag extends the draft at its end, and what the draft
describes is what the parser has built.  A draft that is complete is the
document of the file.
-/

namespace Wayring
namespace Scanner

open Debug (bytesOf)

/-- A message or an enum that is open, with the entry that is open in it. -/
inductive OpenMember
  | message (kind : MessageKind) (opening : Tag) (arguments : List Tag)
  | enumeration
      (opening : Tag)
      (entries : List (Element Empty))
      (entry : Option Tag)

/-- The tags of a member that is not closed yet. -/
def OpenMember.tags : OpenMember → List Tag
  | .message _ opening arguments => opening :: arguments
  | .enumeration opening entries entry =>
      opening :: entries.flatMap entryTags ++ entry.toList

/-- An interface that is open. -/
structure OpenInterface where
  opening : Tag
  members : List Member := []
  member : Option OpenMember := none

/-- The tags of an interface that is not closed yet. -/
def OpenInterface.tags (interface : OpenInterface) : List Tag :=
  interface.opening :: interface.members.flatMap Member.tags ++
    interface.member.elim [] OpenMember.tags

/-- A document whose last elements may be open. -/
inductive Draft
  | before
  | inside
      (opening : Tag)
      (interfaces : List (Element Member))
      (interface : Option OpenInterface)
  | after (document : Document)

/-- The tags that were read so far. -/
def Draft.tags : Draft → List Tag
  | .before => []
  | .inside opening interfaces interface =>
      opening :: interfaces.flatMap interfaceTags ++ interface.elim [] OpenInterface.tags
  | .after document => document.tags

/-! ## What the parser has built -/

/-- The open message or enum of the parser is the one of the draft. -/
inductive MemberRead (parser : Parser) : Option OpenMember → Prop
  | absent
      (message : parser.message = none)
      (enumeration : parser.enumeration = none)
      (entry : parser.entryOpen = false) :
      MemberRead parser none
  | message
      (opened : parser.message = some builder)
      (enumeration : parser.enumeration = none)
      (entry : parser.entryOpen = false)
      (named : opening.name = builder.kind.name)
      (kind : opening.kind = .start)
      (reads : opening.message builder.kind = .ok { builder with arguments := [] })
      (read : arguments.mapM Tag.argument = .ok builder.arguments)
      (formed : ∀ argument ∈ arguments,
        argument.name = bytesOf "arg" ∧ argument.kind = .empty) :
      MemberRead parser (some (.message builder.kind opening arguments))
  | enumeration
      (message : parser.message = none)
      (opened : parser.enumeration = some builder)
      (between : parser.entryOpen = false)
      (named : opening.name = bytesOf "enum")
      (kind : opening.kind = .start)
      (reads : opening.enumeration = .ok { builder with entries := [] })
      (read : (entries.mapM fun entry => entry.opening.entry) = .ok builder.entries)
      (formed : ∀ entry ∈ entries, entry.Formed (bytesOf "entry")) :
      MemberRead parser (some (.enumeration opening entries none))
  | entry
      (message : parser.message = none)
      (opened : parser.enumeration = some builder)
      (within : parser.entryOpen = true)
      (named : opening.name = bytesOf "enum")
      (kind : opening.kind = .start)
      (reads : opening.enumeration = .ok { builder with entries := [] })
      (read : (entries.mapM fun entry => entry.opening.entry) = .ok before)
      (formed : ∀ entry ∈ entries, entry.Formed (bytesOf "entry"))
      (entryNamed : tag.name = bytesOf "entry")
      (entryKind : tag.kind = .start)
      (entryReads : tag.entry = .ok entry)
      (last : builder.entries = before ++ [entry]) :
      MemberRead parser (some (.enumeration opening entries (some tag)))

/-- The members of an interface that are closed are those of the parser. -/
structure MembersRead
    (builder : InterfaceBuilder)
    (opening : Tag)
    (members : List Member) : Prop where
  named : opening.name = bytesOf "interface"
  kind : opening.kind = .start
  reads : opening.interface =
    .ok { builder with requests := [], events := [], enums := [] }
  messages : ∀ messageKind,
    messagesOf messageKind members = .ok (builder.messages messageKind)
  enums : enumsOf members = .ok builder.enums
  formed : ∀ member ∈ members, member.Formed

/-- The open interface of the parser is the one of the draft. -/
inductive InterfaceRead (parser : Parser) : Option OpenInterface → Prop
  | absent
      (interface : parser.interface = none)
      (member : MemberRead parser none) :
      InterfaceRead parser none
  | inside
      (opened : parser.interface = some builder)
      (members : MembersRead builder opening closed)
      (member : MemberRead parser open?) :
      InterfaceRead parser (some { opening, members := closed, member := open? })

/-- What the parser has built is what the draft describes. -/
inductive DraftRead (parser : Parser) : Draft → Prop
  | before
      (state : parser.protocolOpen = false ∧ parser.protocolClosed = false)
      (interfaces : parser.interfaces = [])
      (interface : InterfaceRead parser none) :
      DraftRead parser .before
  | inside
      (state : parser.protocolOpen = true ∧ parser.protocolClosed = false)
      (named : opening.name = bytesOf "protocol")
      (kind : opening.kind = .start)
      (reads : opening.attributes.required (bytesOf "name") = .ok name)
      (nameIs : parser.protocolName = some name)
      (read : interfaces.mapM interfaceOf = .ok parser.interfaces)
      (formed : ∀ interface ∈ interfaces, InterfaceFormed interface)
      (interface : InterfaceRead parser interface?) :
      DraftRead parser (.inside opening interfaces interface?)
  | after
      (state : parser.protocolOpen = false ∧ parser.protocolClosed = true)
      (interface : InterfaceRead parser none)
      (formed : document.Formed)
      (nameIs : parser.protocolName = some name)
      (reads : document.protocol = .ok { name, interfaces := parser.interfaces }) :
      DraftRead parser (.after document)

/-! ## Closing a member -/

/-- A message is moved into the interface around it. -/
theorem MembersRead.withMessage
    {interface : InterfaceBuilder}
    (read : MembersRead interface opening members)
    {builder : MessageBuilder}
    {element : Element Tag}
    (formed : (Member.message builder.kind element).Formed)
    (describes : ∀ opcode, messageOf builder.kind element opcode =
      .ok (builder.close opcode)) :
    MembersRead (interface.withMessage builder) opening
      (members ++ [.message builder.kind element]) where
  named := read.named
  kind := read.kind
  reads := by
    rw [read.reads, interface.withMessage_name, interface.withMessage_version]
  messages messageKind := by
    by_cases same : builder.kind = messageKind
    · subst same
      rw [messagesOf_snoc (read.messages _) (describes _),
        interface.withMessage_messages]
    · rw [messagesOf_other (by rw [Member.ofKind, if_neg same]), read.messages,
        interface.withMessage_messages_other same]
  enums := by rw [enumsOf_other rfl, read.enums, interface.withMessage_enums]
  formed := forall_snoc read.formed formed

/-- An enum is moved into the interface around it. -/
theorem MembersRead.withEnum
    {interface : InterfaceBuilder}
    (read : MembersRead interface opening members)
    {builder : EnumBuilder}
    {element : Element (Element Empty)}
    (formed : (Member.enumeration element).Formed)
    (describes : enumOf element = .ok builder.close) :
    MembersRead (interface.withEnum builder) opening
      (members ++ [.enumeration element]) where
  named := read.named
  kind := read.kind
  reads := read.reads
  messages messageKind := by
    rw [messagesOf_other rfl, read.messages]
    cases messageKind <;> rfl
  enums := enumsOf_snoc read.enums describes
  formed := forall_snoc read.formed formed

/-- The message that an element reads as. -/
theorem messageOf_eq
    {builder : MessageBuilder}
    {element : Element Tag}
    (reads : element.opening.message messageKind = .ok { builder with arguments := [] })
    (read : element.children.mapM Tag.argument = .ok builder.arguments)
    (opcode : Nat) :
    messageOf messageKind element opcode = .ok (builder.close opcode) := by
  rw [messageOf, reads, Scan.ok_bind, read]
  rfl

/-- The enum that an element reads as. -/
theorem enumOf_eq
    {builder : EnumBuilder}
    {element : Element (Element Empty)}
    (reads : element.opening.enumeration = .ok { builder with entries := [] })
    (read : (element.children.mapM fun entry => entry.opening.entry) =
      .ok builder.entries) :
    enumOf element = .ok builder.close := by
  rw [enumOf, reads, Scan.ok_bind, read]
  rfl

/-- The interface that an element reads as. -/
theorem interfaceOf_eq
    {builder : InterfaceBuilder}
    (read : MembersRead builder opening members)
    (closing : Option Tag) :
    interfaceOf { opening, children := members, closing } = .ok builder.close := by
  rw [interfaceOf, read.reads, Scan.ok_bind, read.messages, Scan.ok_bind,
    read.messages, Scan.ok_bind, read.enums]
  rfl

/-- Everything but the open interface is the same. -/
structure SameDocument (parser next : Parser) : Prop where
  state : next.protocolOpen = parser.protocolOpen ∧
    next.protocolClosed = parser.protocolClosed
  protocolName : next.protocolName = parser.protocolName
  interfaces : next.interfaces = parser.interfaces

/-- The draft of a parser in an interface, and how it changes with what stands
in the interface. -/
theorem DraftRead.within
    {parser : Parser}
    {builder : InterfaceBuilder}
    (read : DraftRead parser draft)
    (within : parser.interface = some builder) :
    ∃ root interfaces opening members member,
      draft = .inside root interfaces (some { opening, members, member }) ∧
        MembersRead builder opening members ∧ MemberRead parser member ∧
          ∀ {next : Parser} {later closed open?}, SameDocument parser next →
            next.interface = some later → MembersRead later opening closed →
              MemberRead next open? →
                DraftRead next
                  (.inside root interfaces
                    (some { opening, members := closed, member := open? })) := by
  cases read with
  | before state interfaces interface =>
      cases interface with
      | absent noInterface member => cases noInterface.symm.trans within
  | after state interface formed nameIs reads =>
      cases interface with
      | absent noInterface member => cases noInterface.symm.trans within
  | @inside root name interfaces _ state named kind reads nameIs read formed interface =>
      cases interface with
      | absent noInterface member => cases noInterface.symm.trans within
      | inside opened members member =>
          rw [← Option.some.inj (opened.symm.trans within)]
          refine ⟨_, _, _, _, _, rfl, members, member, ?_⟩
          intro next later closed open? same opensIn closedRead memberRead
          refine .inside ?_ named kind reads ?_ ?_ formed
            (.inside opensIn closedRead memberRead)
          · rwa [same.state.1, same.state.2]
          · rwa [same.protocolName]
          · rwa [same.interfaces]

/-- The draft of a parser in the protocol, between its interfaces. -/
theorem DraftRead.between
    {parser : Parser}
    (read : DraftRead parser draft)
    (isOpen : parser.protocolOpen = true)
    (noInterface : parser.interface = none) :
    ∃ root interfaces name, draft = .inside root interfaces none ∧
      root.name = bytesOf "protocol" ∧ root.kind = .start ∧
        root.attributes.required (bytesOf "name") = .ok name ∧
          parser.protocolName = some name ∧ parser.protocolClosed = false ∧
            interfaces.mapM interfaceOf = .ok parser.interfaces ∧
              (∀ interface ∈ interfaces, InterfaceFormed interface) ∧
                MemberRead parser none := by
  cases read with
  | before state _ _ => cases state.1.symm.trans isOpen
  | after state _ _ _ _ => cases state.1.symm.trans isOpen
  | inside state named kind reads nameIs read formed interface =>
      cases interface with
      | inside opened _ _ => cases noInterface.symm.trans opened
      | absent _ member =>
          exact ⟨_, _, _, rfl, named, kind, reads, nameIs, state.2, read, formed, member⟩

/-! ## Every tag extends the draft -/

/-- Between members none is open. -/
theorem MemberRead.between
    {parser : Parser}
    (read : MemberRead parser member)
    (between : parser.message = none ∧ parser.enumeration = none) :
    member = none ∧ parser.entryOpen = false := by
  cases read with
  | absent _ _ entry => exact ⟨rfl, entry⟩
  | message opened => cases between.1.symm.trans opened
  | enumeration _ opened => cases between.2.symm.trans opened
  | entry _ opened => cases between.2.symm.trans opened

/-- What is read of a member only depends on the open elements. -/
theorem MemberRead.same
    {parser next : Parser}
    (read : MemberRead parser member)
    (message : next.message = parser.message)
    (enumeration : next.enumeration = parser.enumeration)
    (entry : next.entryOpen = parser.entryOpen) :
    MemberRead next member := by
  cases read with
  | absent noMessage noEnum closed =>
      exact .absent (message.trans noMessage) (enumeration.trans noEnum)
        (entry.trans closed)
  | message opened noEnum closed named kind reads read formed =>
      exact .message (message.trans opened) (enumeration.trans noEnum)
        (entry.trans closed) named kind reads read formed
  | enumeration noMessage opened closed named kind reads read formed =>
      exact .enumeration (message.trans noMessage) (enumeration.trans opened)
        (entry.trans closed) named kind reads read formed
  | entry noMessage opened within named kind reads read formed entryNamed entryKind
      entryReads last =>
      exact .entry (message.trans noMessage) (enumeration.trans opened)
        (entry.trans within) named kind reads read formed entryNamed entryKind entryReads
        last

/-- An interface that was just opened has no members. -/
theorem MembersRead.opened
    (named : tag.name = bytesOf "interface")
    (kind : tag.kind = .start)
    (reads : tag.interface = .ok builder) :
    MembersRead builder tag [] := by
  obtain ⟨noRequests, noEvents, noEnums⟩ := Tag.interface_members reads
  refine ⟨named, kind, ?_, ?_, ?_, by simp⟩
  · rw [reads, Except.ok.injEq]
    cases builder
    cases noRequests
    cases noEvents
    cases noEnums
    rfl
  · rintro ⟨⟩
    · exact congrArg Except.ok noRequests.symm
    · exact congrArg Except.ok noEvents.symm
  · exact congrArg Except.ok noEnums.symm

/-- A message that was just opened has no arguments. -/
theorem Tag.message_opened
    {tag : Tag}
    {builder : MessageBuilder}
    (reads : tag.message builder.kind = .ok builder) :
    tag.message builder.kind = .ok { builder with arguments := [] } ∧
      [].mapM Tag.argument = (.ok builder.arguments : Scan Error (List Argument)) := by
  have noArguments := (Tag.message_arguments reads).2
  refine ⟨reads.trans ?_, congrArg Except.ok noArguments.symm⟩
  cases builder
  cases noArguments
  rfl

/-- An enum that was just opened has no entries. -/
theorem Tag.enumeration_opened
    {tag : Tag}
    {builder : EnumBuilder}
    (reads : tag.enumeration = .ok builder) :
    tag.enumeration = .ok { builder with entries := [] } ∧
      (([] : List (Element Empty)).mapM fun entry => entry.opening.entry) =
        .ok builder.entries := by
  have noEntries := Tag.enumeration_entries reads
  refine ⟨reads.trans ?_, congrArg Except.ok noEntries.symm⟩
  cases builder
  cases noEntries
  rfl

section Tags

variable
  (root opening : Tag)
  (interfaces : List (Element Member))
  (members : List Member)

/-- The tags of a draft that is in an interface, up to the member that is
open. -/
theorem Draft.tags_within (member : Option OpenMember) :
    (Draft.inside root interfaces (some { opening, members, member })).tags =
      (root :: interfaces.flatMap interfaceTags ++
        opening :: members.flatMap Member.tags) ++ member.elim [] OpenMember.tags := by
  simp [Draft.tags, OpenInterface.tags]

/-- Moving the open member to those that are closed adds the tag that closes
it. -/
theorem Draft.tags_closed
    {closed : Member}
    {member : Option OpenMember}
    (closes : closed.tags = member.elim [] OpenMember.tags ++ [tag]) :
    (Draft.inside root interfaces
        (some { opening, members := members ++ [closed], member := none })).tags =
      (Draft.inside root interfaces (some { opening, members, member })).tags ++
        [tag] := by
  simp [Draft.tags_within, closes]

/-- A tag in the open member. -/
theorem Draft.tags_member
    {member later : Option OpenMember}
    (extended : later.elim [] OpenMember.tags = member.elim [] OpenMember.tags ++ [tag]) :
    (Draft.inside root interfaces (some { opening, members, member := later })).tags =
      (Draft.inside root interfaces (some { opening, members, member })).tags ++
        [tag] := by
  rw [Draft.tags_within, Draft.tags_within, extended, ← List.append_assoc]

end Tags

/-- The tag that closes an interface. -/
theorem DraftRead.closed
    {parser : Parser}
    {builder : InterfaceBuilder}
    (read : DraftRead parser draft)
    (within : parser.interface = some builder)
    (between : parser.message = none ∧ parser.enumeration = none)
    (named : tag.name = bytesOf "interface")
    (kind : tag.kind = .close) :
    ∃ later,
      DraftRead
        { parser with
          allocations := calls
          interface := none
          interfaces := parser.interfaces ++ [builder.close] } later ∧
        later.tags = draft.tags ++ [tag] := by
  cases read with
  | before state interfaces interface =>
      cases interface with
      | absent noInterface member => cases noInterface.symm.trans within
  | after state interface formed nameIs reads =>
      cases interface with
      | absent noInterface member => cases noInterface.symm.trans within
  | inside state rootNamed rootKind reads nameIs read formed interface =>
      cases interface with
      | absent noInterface member => cases noInterface.symm.trans within
      | @inside _ opening members _ opened membersRead member =>
          cases opened.symm.trans within
          obtain ⟨rfl, entry⟩ := member.between between
          refine ⟨_,
            .inside state rootNamed rootKind reads nameIs
              (mapM_snoc read (interfaceOf_eq membersRead (some tag)))
              (forall_snoc formed
                ⟨⟨membersRead.named, membersRead.kind, kind, named⟩, membersRead.formed⟩)
              (.absent rfl (.absent between.1 between.2 entry)), ?_⟩
          simp [Draft.tags, OpenInterface.tags, interfaceTags, Element.tags]

/-- Every tag that has an effect comes last in the draft. -/
theorem DraftRead.effect
    {parser next : Parser}
    (nested : parser.Nested)
    (read : DraftRead parser draft)
    (effect : Effect parser tag next) :
    ∃ later, DraftRead next later ∧ later.tags = draft.tags ++ [tag] := by
  cases effect with
  | protocolStart named kind fresh reads valid =>
      cases read with
      | inside state => cases fresh.1.symm.trans state.1
      | after state => cases fresh.2.symm.trans state.2
      | before state noInterfaces interface =>
          cases interface with
          | absent noInterface member =>
              refine ⟨.inside tag [] none,
                .inside ⟨rfl, fresh.2⟩ named kind reads rfl ?_ (by simp)
                  (.absent noInterface (member.same rfl rfl rfl)), rfl⟩
              dsimp only
              rw [noInterfaces]
              rfl
  | protocolClose named kind within between =>
      obtain ⟨root, interfaces, name, rfl, rootNamed, rootKind, reads, nameIs, -, read,
        formed, member⟩ := read.between within between.1
      refine ⟨.after { opening := root, children := interfaces, closing := some tag },
        .after ⟨rfl, rfl⟩ (.absent between.1 (member.same rfl rfl rfl))
          ⟨⟨rootNamed, rootKind, kind, named⟩, formed⟩ nameIs ?_, ?_⟩
      · rw [Document.protocol, reads, Scan.ok_bind, read]
        rfl
      · simp [Draft.tags, Document.tags, Element.tags]
  | interfaceStart named kind within between reads valid unique version =>
      obtain ⟨root, interfaces, name, rfl, rootNamed, rootKind, rootReads, nameIs, closed,
        read, formed, member⟩ := read.between within between.1
      refine ⟨.inside root interfaces (some { opening := tag }),
        .inside ⟨within, closed⟩ rootNamed rootKind rootReads nameIs read formed
          (.inside rfl (.opened named kind reads) (member.same rfl rfl rfl)), ?_⟩
      simp [Draft.tags, OpenInterface.tags]
  | interfaceClose named kind within between =>
      exact read.closed within between named kind
  | messageStart messageKind named kind within between opens =>
      obtain ⟨root, interfaces, opening, members, member, rfl, closed, open?, rebuild⟩ :=
        read.within within
      obtain ⟨rfl, entry⟩ := open?.between between
      obtain ⟨rfl, -⟩ := Tag.message_arguments opens.reads
      obtain ⟨reads, noArguments⟩ := Tag.message_opened opens.reads
      exact ⟨_,
        rebuild ⟨⟨rfl, rfl⟩, rfl, rfl⟩ within closed
          (.message rfl between.2 entry named kind reads noArguments (by simp)),
        Draft.tags_member _ _ _ _ rfl⟩
  | messageEmpty messageKind named kind within between opens =>
      obtain ⟨root, interfaces, opening, members, member, rfl, closed, open?, rebuild⟩ :=
        read.within within
      obtain ⟨rfl, entry⟩ := open?.between between
      obtain ⟨rfl, -⟩ := Tag.message_arguments opens.reads
      obtain ⟨reads, noArguments⟩ := Tag.message_opened opens.reads
      let element : Element Tag := { opening := tag }
      exact ⟨_,
        rebuild ⟨⟨rfl, rfl⟩, rfl, rfl⟩ rfl
          (closed.withMessage
            (show (Member.message _ element).Formed from
              ⟨⟨named, kind, rfl⟩, by simp [element]⟩)
            (messageOf_eq reads noArguments))
          (.absent rfl between.2 entry),
        Draft.tags_closed _ _ _ _ rfl⟩
  | messageClose named kind within opened =>
      obtain ⟨root, interfaces, opening, members, member, rfl, closed, open?, rebuild⟩ :=
        read.within within
      cases open? with
      | absent noMessage => cases noMessage.symm.trans opened
      | enumeration noMessage => cases noMessage.symm.trans opened
      | entry noMessage => cases noMessage.symm.trans opened
      | @message _ arguments openTag openedAs noEnum entry openNamed openKind reads
          readChildren formed =>
          cases openedAs.symm.trans opened
          let element : Element Tag :=
            { opening := openTag, children := arguments, closing := some tag }
          refine ⟨_,
            rebuild ⟨⟨rfl, rfl⟩, rfl, rfl⟩ rfl
              (closed.withMessage
                (show (Member.message _ element).Formed from
                  ⟨⟨openNamed, openKind, kind, named⟩, formed⟩)
                (messageOf_eq reads readChildren))
              (.absent rfl noEnum entry),
            Draft.tags_closed _ _ _ _ ?_⟩
          simp [Member.tags, OpenMember.tags, Element.tags, element]
  | argument named kind within takes =>
      obtain ⟨interface, inside⟩ :=
        Option.isSome_iff_exists.mp (nested.message (by rw [within]; rfl))
      obtain ⟨root, interfaces, opening, members, member, rfl, closed, open?, rebuild⟩ :=
        read.within inside
      cases open? with
      | absent noMessage => cases noMessage.symm.trans within
      | enumeration noMessage => cases noMessage.symm.trans within
      | entry noMessage => cases noMessage.symm.trans within
      | message openedAs noEnum entry openNamed openKind reads readChildren formed =>
          cases openedAs.symm.trans within
          exact ⟨_,
            rebuild ⟨⟨rfl, rfl⟩, rfl, rfl⟩ inside closed
              (.message rfl noEnum entry openNamed openKind reads
                (mapM_snoc readChildren takes.reads) (forall_snoc formed ⟨named, kind⟩)),
            Draft.tags_member _ _ _ _ rfl⟩
  | enumStart named kind within between opens =>
      obtain ⟨root, interfaces, opening, members, member, rfl, closed, open?, rebuild⟩ :=
        read.within within
      obtain ⟨rfl, entry⟩ := open?.between between
      obtain ⟨reads, noEntries⟩ := Tag.enumeration_opened opens.reads
      exact ⟨_,
        rebuild ⟨⟨rfl, rfl⟩, rfl, rfl⟩ within closed
          (.enumeration between.1 rfl entry named kind reads noEntries (by simp)),
        Draft.tags_member _ _ _ _ rfl⟩
  | enumEmpty named kind within between opens =>
      obtain ⟨root, interfaces, opening, members, member, rfl, closed, open?, rebuild⟩ :=
        read.within within
      obtain ⟨rfl, entry⟩ := open?.between between
      obtain ⟨reads, noEntries⟩ := Tag.enumeration_opened opens.reads
      let element : Element (Element Empty) := { opening := tag }
      exact ⟨_,
        rebuild ⟨⟨rfl, rfl⟩, rfl, rfl⟩ rfl
          (closed.withEnum
            (show (Member.enumeration element).Formed from
              ⟨⟨named, kind, rfl⟩, by simp [element]⟩)
            (enumOf_eq reads noEntries))
          (.absent between.1 rfl entry),
        Draft.tags_closed _ _ _ _ rfl⟩
  | enumClose named kind within opened between =>
      obtain ⟨root, interfaces, opening, members, member, rfl, closed, open?, rebuild⟩ :=
        read.within within
      cases open? with
      | absent _ noEnum => cases noEnum.symm.trans opened
      | message _ noEnum => cases noEnum.symm.trans opened
      | entry _ _ isOpen => cases between.symm.trans isOpen
      | @enumeration _ entries openTag noMessage openedAs _ openNamed openKind reads
          readChildren formed =>
          cases openedAs.symm.trans opened
          let element : Element (Element Empty) :=
            { opening := openTag, children := entries, closing := some tag }
          refine ⟨_,
            rebuild ⟨⟨rfl, rfl⟩, rfl, rfl⟩ rfl
              (closed.withEnum
                (show (Member.enumeration element).Formed from
                  ⟨⟨openNamed, openKind, kind, named⟩, formed⟩)
                (enumOf_eq reads readChildren))
              (.absent noMessage rfl between),
            Draft.tags_closed _ _ _ _ ?_⟩
          simp [Member.tags, OpenMember.tags, Element.tags, element]
  | entryStart named kind inside within between takes =>
      obtain ⟨root, interfaces, opening, members, member, rfl, closed, open?, rebuild⟩ :=
        read.within inside
      cases open? with
      | absent _ noEnum => cases noEnum.symm.trans within
      | message _ noEnum => cases noEnum.symm.trans within
      | entry _ _ isOpen => cases between.symm.trans isOpen
      | enumeration noMessage openedAs _ openNamed openKind reads readChildren formed =>
          cases openedAs.symm.trans within
          refine ⟨_,
            rebuild ⟨⟨rfl, rfl⟩, rfl, rfl⟩ inside closed
              (.entry noMessage rfl rfl openNamed openKind reads readChildren formed named kind
                takes.reads rfl),
            Draft.tags_member _ _ _ _ ?_⟩
          simp [OpenMember.tags]
  | entryEmpty named kind inside within between takes =>
      obtain ⟨root, interfaces, opening, members, member, rfl, closed, open?, rebuild⟩ :=
        read.within inside
      cases open? with
      | absent _ noEnum => cases noEnum.symm.trans within
      | message _ noEnum => cases noEnum.symm.trans within
      | entry _ _ isOpen => cases between.symm.trans isOpen
      | enumeration noMessage openedAs _ openNamed openKind reads readChildren formed =>
          cases openedAs.symm.trans within
          let element : Element Empty := { opening := tag }
          refine ⟨_,
            rebuild ⟨⟨rfl, rfl⟩, rfl, rfl⟩ inside closed
              (.enumeration noMessage rfl between openNamed openKind reads
                (mapM_snoc readChildren (show element.opening.entry = _ from takes.reads))
                (forall_snoc formed ⟨named, kind, rfl⟩)),
            Draft.tags_member _ _ _ _ ?_⟩
          simp [OpenMember.tags, entryTags, Element.tags, element]
  | entryClose named kind opened =>
      obtain ⟨interface, inside⟩ :=
        Option.isSome_iff_exists.mp (nested.enumeration (nested.entry opened))
      obtain ⟨root, interfaces, opening, members, member, rfl, closed, open?, rebuild⟩ :=
        read.within inside
      cases open? with
      | absent _ _ between => cases between.symm.trans opened
      | message _ _ between => cases between.symm.trans opened
      | enumeration _ _ between => cases between.symm.trans opened
      | @entry _ entries _ _ openTag entryTag noMessage openedAs _ openNamed openKind reads
          readChildren formed entryNamed entryKind entryReads last =>
          let element : Element Empty := { opening := entryTag, closing := some tag }
          have readEntries :=
            mapM_snoc readChildren (show element.opening.entry = _ from entryReads)
          rw [← last] at readEntries
          refine ⟨_,
            rebuild ⟨⟨rfl, rfl⟩, rfl, rfl⟩ inside closed
              (.enumeration noMessage openedAs rfl openNamed openKind reads readEntries
                (forall_snoc formed ⟨entryNamed, entryKind, kind, named⟩)),
            Draft.tags_member _ _ _ _ ?_⟩
          simp [OpenMember.tags, entryTags, Element.tags, element]

/-! ## Runs of the parser -/

theorem DraftRead.ignoring
    {parser : Parser}
    (read : DraftRead parser draft)
    (depth : Nat) :
    DraftRead { parser with ignoredDepth := depth } draft := by
  have interface : ∀ {open?}, InterfaceRead parser open? →
      InterfaceRead { parser with ignoredDepth := depth } open? := by
    intro open? read
    cases read with
    | absent noInterface member => exact .absent noInterface (member.same rfl rfl rfl)
    | inside opened members member =>
        exact .inside opened members (member.same rfl rfl rfl)
  cases read with
  | before state interfaces read => exact .before state interfaces (interface read)
  | inside state named kind reads nameIs read formed open? =>
      exact .inside state named kind reads nameIs read formed (interface open?)
  | after state read formed nameIs reads =>
      exact .after state (interface read) formed nameIs reads

/-- No effect changes how deep the parser ignores. -/
theorem Effect.ignoredDepth
    {parser next : Parser}
    (effect : Effect parser tag next) :
    next.ignoredDepth = parser.ignoredDepth := by
  cases effect <;> rfl

/-- A step extends the draft by the tag, unless the tag is ignored. -/
theorem DraftRead.step
    {parser next : Parser}
    (sound : parser.Sound)
    (read : DraftRead parser draft)
    (step : Step parser tag next) :
    ∃ later, DraftRead next later ∧
      ∀ tags, draft.tags ++ significant parser.ignoredDepth (tag :: tags) =
        later.tags ++ significant next.ignoredDepth tags := by
  cases step with
  | ignored same => exact ⟨draft, read.ignoring _, fun tags => by rw [same]⟩
  | effect outside isSignificant effect =>
      obtain ⟨later, laterRead, extended⟩ := read.effect sound.nested effect
      refine ⟨later, laterRead, fun tags => ?_⟩
      rw [effect.ignoredDepth, outside, significant, isSignificant, extended]
      simp

/-- The parser and the tokenizer in the middle of a file: what was read is a
draft, and the rest of the file is still to come. -/
structure Midway (xml : List UInt8) (parser : Parser) (tokenizer : Tokenizer) : Prop where
  sound : parser.Sound
  text : tokenizer.xml = xml
  inside : tokenizer.cursor ≤ xml.length
  draft : ∃ draft seen, DraftRead parser draft ∧
    (∀ tags, Yields tokenizer tags → Yields { xml } (seen ++ tags)) ∧
      ∀ tags, significant 0 (seen ++ tags) =
        draft.tags ++ significant parser.ignoredDepth tags

/-- Before the first tag. -/
theorem midway_initial
    (room : Nat → Bool)
    (xml : List UInt8) :
    Midway xml { room } { xml } where
  sound := Parser.sound_initial room
  text := rfl
  inside := Nat.zero_le _
  draft :=
    ⟨.before, [],
      .before ⟨rfl, rfl⟩ rfl (.absent rfl (.absent rfl rfl rfl)),
      fun _ yields => yields, fun _ => rfl⟩

/-- One tag more. -/
theorem Midway.step
    {parser next : Parser}
    {tokenizer rest : Tokenizer}
    (midway : Midway xml parser tokenizer)
    (reads : tokenizer.next = .ok (some tag, rest))
    (text : rest.xml = xml)
    (inside : rest.cursor ≤ xml.length)
    (step : Step parser tag next) :
    Midway xml next rest := by
  obtain ⟨draft, seen, read, yields, tags⟩ := midway.draft
  obtain ⟨later, laterRead, extended⟩ := read.step midway.sound step
  refine ⟨midway.sound.step step, text, inside, later, seen ++ [tag], laterRead, ?_, ?_⟩
  · intro more yielded
    rw [List.append_assoc]
    exact yields _ (.tag reads yielded)
  · intro more
    rw [List.append_assoc, tags]
    exact extended more

/-- The parser at the end of a file: the draft is the whole file. -/
structure Complete (xml : List UInt8) (parser : Parser) : Prop where
  sound : parser.Sound
  draft : ∃ draft tags, DraftRead parser draft ∧ Yields { xml } tags ∧
    significant 0 tags = draft.tags

/-- After the last tag. -/
theorem Midway.complete
    {parser : Parser}
    {tokenizer : Tokenizer}
    (midway : Midway xml parser tokenizer)
    (ends : tokenizer.next = .ok (none, rest)) :
    Complete xml parser := by
  obtain ⟨draft, seen, read, yields, tags⟩ := midway.draft
  refine ⟨midway.sound, draft, seen, read, ?_, ?_⟩
  · rw [← List.append_nil seen]
    exact yields [] (.done ends)
  · rw [← List.append_nil seen, tags, significant, List.append_nil]

/-- A file that is complete is a document. -/
theorem Complete.finish_meets
    {parser : Parser}
    (complete : Complete xml parser) :
    Scan.Meets parser.finish fun protocol =>
      protocol.WellFormed ∧
        ∃ tags document, Yields { xml } tags ∧
          significant 0 tags = Document.tags document ∧ document.Formed ∧
            document.protocol = .ok protocol := by
  refine Scan.Meets.bind (Scan.Meets.reject _) fun _ guarded => ?_
  simp only [Bool.or_eq_false_iff, Bool.not_eq_false'] at guarded
  obtain ⟨⟨⟨⟨⟨isClosed, -⟩, -⟩, -⟩, -⟩, -⟩ := guarded
  refine Scan.Meets.bind (Scan.Meets.require _) fun name nameIs => ?_
  refine Scan.Meets.bind (Parser.allocate_meets _) ?_
  rintro _ ⟨calls, rfl⟩
  refine ⟨⟨complete.sound.names, complete.sound.interfaces⟩, ?_⟩
  obtain ⟨draft, tags, read, yields, tagsAre⟩ := complete.draft
  cases read with
  | before state => cases state.2.symm.trans isClosed
  | inside state => cases state.2.symm.trans isClosed
  | after state interface formed documentName reads =>
      cases documentName.symm.trans nameIs
      exact ⟨tags, _, yields, tagsAre, formed, reads⟩

/-- What parsing a file meets. -/
theorem parse_meets
    (room : Nat → Bool)
    (xml : List UInt8) :
    Scan.Meets (Protocol.parse room xml) fun protocol =>
      protocol.WellFormed ∧
        ∃ tags document, Yields { xml } tags ∧
          significant 0 tags = Document.tags document ∧ document.Formed ∧
            document.protocol = .ok protocol := by
  refine Scan.Meets.bind
    (Scan.Meets.loop (fun state => Midway xml state.1 state.2)
      (fun state => xml.length - state.2.cursor) ?_ (midway_initial room xml) (by simp))
    fun parser complete => Complete.finish_meets complete
  rintro ⟨parser, tokenizer⟩ midway
  have inside := midway.inside
  rw [← midway.text] at inside
  refine Scan.Meets.bind (Tokenizer.next_meets inside).returns ?_
  rintro ⟨_ | tag, rest⟩ ⟨reads, forward⟩
  · exact midway.complete reads
  · obtain ⟨text, further, bounded⟩ := forward
    rw [midway.text] at text bounded
    refine Scan.Meets.bind (Parser.consume_meets midway.sound.nested tag) ?_
    intro next step
    exact ⟨midway.step reads text bounded step, by dsimp only at further ⊢; omega⟩

/-- Parsing ends without reading outside the file.  A protocol that it returns
is well-formed, and it is what the document describes that is written as the
tags of the file: each message, enum, argument and entry stands in the element
that was open at its tag, in document order, once. -/
theorem parsed_protocols_are_well_formed
    (room : Nat → Bool)
    (xml : List UInt8) :
    (∃ error, Protocol.parse room xml = .error (.failed error)) ∨
      ∃ protocol, Protocol.parse room xml = .ok protocol ∧
        protocol.WellFormed ∧
          ∃ tags document, Yields { xml } tags ∧
            significant 0 tags = Document.tags document ∧ document.Formed ∧
              document.protocol = .ok protocol :=
  Scan.meets_iff.mp (parse_meets room xml)

end Scanner
end Wayring
