import Wayring.Scanner.Drafts
import Wayring.Scanner.Generator

/-!
# Quoted names

A name that is copied between quotes must not end them: it may contain no quote,
no backslash and no control byte.  The parser validates the names of interfaces,
messages, arguments and enums, but copies the names of entries and the interface
and enum attributes of arguments unchecked.  The generated file is free of
broken quotes exactly when these are clean in the input.
-/

namespace Wayring
namespace Scanner

open Debug (bytesOf)
open Generator

/-- A byte that neither ends quotes nor changes what follows it. -/
def isClean (byte : UInt8) : Bool :=
  byte != 0x22 && byte != 0x5c && 0x20 ≤ byte && byte != 0x7f

/-- A name that stays between its quotes. -/
def Clean (name : List UInt8) : Prop := ∀ byte ∈ name, isClean byte = true

instance (name : List UInt8) : Decidable (Clean name) :=
  inferInstanceAs (Decidable (∀ byte ∈ name, isClean byte = true))

namespace Generator.Copy

/-- A copy between quotes is clean. -/
def Clean : Copy → Prop
  | .identifier name => Scanner.Clean name
  | .literal name => Scanner.Clean name
  | .bare _ => True

instance : (copy : Copy) → Decidable copy.Clean
  | .identifier name => inferInstanceAs (Decidable (Scanner.Clean name))
  | .literal name => inferInstanceAs (Decidable (Scanner.Clean name))
  | .bare _ => inferInstanceAs (Decidable True)

end Generator.Copy

/-- Every copy between quotes is clean. -/
def AllClean (copies : List Copy) : Prop := ∀ copy ∈ copies, copy.Clean

@[simp] theorem allClean_nil : AllClean [] := by simp [AllClean]

@[simp] theorem allClean_cons
    (copy : Copy)
    (copies : List Copy) :
    AllClean (copy :: copies) ↔ copy.Clean ∧ AllClean copies := by
  simp [AllClean]

@[simp] theorem allClean_append
    (copies later : List Copy) :
    AllClean (copies ++ later) ↔ AllClean copies ∧ AllClean later := by
  simp only [AllClean, List.mem_append, or_imp, forall_and]

@[simp] theorem allClean_flatMap
    (emit : α → List Copy)
    (elements : List α) :
    AllClean (elements.flatMap emit) ↔ ∀ element ∈ elements, AllClean (emit element) := by
  simp only [AllClean, List.mem_flatMap, forall_exists_index, and_imp]
  exact ⟨fun holds element isElement copy isCopy => holds copy element isElement isCopy,
    fun holds copy element isElement isCopy => holds element isElement copy isCopy⟩

@[simp] theorem allClean_map
    (copy : α → Copy)
    (elements : List α) :
    AllClean (elements.map copy) ↔ ∀ element ∈ elements, (copy element).Clean := by
  simp [AllClean]

@[simp] theorem clean_identifier (name : List UInt8) :
    (Copy.identifier name).Clean ↔ Clean name := Iff.rfl

@[simp] theorem clean_literal (name : List UInt8) :
    (Copy.literal name).Clean ↔ Clean name := Iff.rfl

@[simp] theorem clean_bare (name : List UInt8) : (Copy.bare name).Clean := trivial

/-- What is copied of a list is copied of its head and of its rest. -/
theorem emitEach_cons
    {emit : α → Scan Generator.Error (List Copy)}
    (emitted : emitEach emit (element :: elements) = .ok copies) :
    ∃ part rest, emit element = .ok part ∧ emitEach emit elements = .ok rest ∧
      copies = part ++ rest := by
  obtain ⟨parts, read, isCopies⟩ := Scan.bind_eq_ok.mp emitted
  obtain ⟨part, rest, first, others, rfl⟩ := mapM_cons_ok read
  refine ⟨part, rest.flatten, first, ?_, (Except.ok.inj isCopies).symm⟩
  rw [emitEach, others]
  rfl

/-- The copies of every element are clean exactly when those of each element
are. -/
theorem allClean_emitEach
    {emit : α → Scan Generator.Error (List Copy)}
    {elements : List α}
    (emitted : emitEach emit elements = .ok copies) :
    AllClean copies ↔
      ∀ element ∈ elements, ∀ part, emit element = .ok part → AllClean part := by
  induction elements generalizing copies with
  | nil =>
      cases emitted
      simp
  | cons element elements inductionHypothesis =>
      obtain ⟨part, rest, first, others, rfl⟩ := emitEach_cons emitted
      rw [allClean_append, inductionHypothesis others, List.forall_mem_cons, first]
      simp

/-- Where a list is generated, every element is. -/
theorem emitEach_mem
    {emit : α → Scan Generator.Error (List Copy)}
    {elements : List α}
    (emitted : emitEach emit elements = .ok copies)
    (isElement : element ∈ elements) :
    ∃ part, emit element = .ok part := by
  induction elements generalizing copies with
  | nil => cases isElement
  | cons other elements inductionHypothesis =>
      obtain ⟨part, rest, first, others, -⟩ := emitEach_cons emitted
      rcases List.mem_cons.mp isElement with rfl | isLater
      · exact ⟨part, first⟩
      · exact inductionHypothesis others isLater

/-! ## What a file copies -/

/-- Everything that is copied of an argument is clean. -/
structure Argument.Quotable (argument : Argument) : Prop where
  name : Clean argument.name
  enumName : ∀ reference, argument.enumName = some reference → Clean reference
  interface : argument.type = .object ∨ argument.type = .newId →
    ∀ interface, argument.interface = some interface → Clean interface

/-- No name of a message has a quote. -/
structure Message.Quotable (message : Message) : Prop where
  name : Clean message.name
  arguments : ∀ argument ∈ message.arguments, argument.Quotable

/-- No name of an enum has a quote. -/
structure Enum.Quotable (value : Enum) : Prop where
  name : Clean value.name
  entries : ∀ entry ∈ value.entries, Clean entry.name

/-- No name of an interface has a quote. -/
structure Interface.Quotable (interface : Interface) : Prop where
  name : Clean interface.name
  requests : ∀ message ∈ interface.requests, message.Quotable
  events : ∀ message ∈ interface.events, message.Quotable
  enums : ∀ value ∈ interface.enums, value.Quotable

/-- The parts of a reference are clean exactly when the reference is, as the dot
between them is. -/
theorem allClean_emitEnumReference (reference : List UInt8) :
    AllClean (emitEnumReference reference) ↔ Clean reference := by
  rw [emitEnumReference, allClean_map]
  simp only [clean_identifier]
  induction reference with
  | nil => simp [Clean]
  | cons byte rest inductionHypothesis =>
      rw [List.splitOn_cons_eq_if_modifyHead]
      by_cases isDot : byte == 0x2e
      · rw [if_pos isDot, List.forall_mem_cons, inductionHypothesis, eq_of_beq isDot]
        simp [Clean, isClean]
      · rw [if_neg isDot]
        obtain ⟨head, tail, split⟩ :=
          List.exists_cons_of_ne_nil (List.splitOn_ne_nil 0x2e rest)
        rw [split] at inductionHypothesis
        rw [split, List.modifyHead_cons, List.forall_mem_cons]
        rw [List.forall_mem_cons] at inductionHypothesis
        simp only [Clean, List.forall_mem_cons] at inductionHypothesis ⊢
        rw [and_assoc, inductionHypothesis]

namespace Argument

variable {argument : Argument}

theorem Quotable.type (quotable : argument.Quotable) : AllClean (emitType argument) := by
  unfold emitType
  cases reference : argument.enumName with
  | none => simp
  | some reference' =>
      exact (allClean_emitEnumReference _).mpr (quotable.enumName _ reference)

theorem Quotable.decodeExpression
    (quotable : argument.Quotable)
    (emitted : emitDecodeExpression argument = .ok copies) :
    AllClean copies := by
  unfold emitDecodeExpression at emitted
  cases reference : argument.enumName with
  | none =>
      rw [reference] at emitted
      cases type : argument.type <;> rw [type] at emitted <;> cases emitted <;> simp
  | some reference' =>
      have clean := (allClean_emitEnumReference _).mpr (quotable.enumName _ reference)
      rw [reference] at emitted
      cases type : argument.type <;> rw [type] at emitted <;> cases emitted <;> exact clean

theorem Quotable.objectValidation
    (quotable : argument.Quotable)
    (isObject : argument.type = .object)
    (decoded eventDecode : Bool) :
    AllClean (emitObjectValidation argument decoded eventDecode) := by
  have interface : ∀ interface ∈ argument.interface.toList, Clean interface := by
    intro interface isInterface
    exact quotable.interface (.inl isObject) interface (Option.mem_toList.mp isInterface)
  cases decoded <;> cases eventDecode <;>
    simpa [emitObjectValidation, emitObjectValue, quotable.name] using interface

theorem Quotable.sizeValidation (quotable : argument.Quotable) :
    AllClean (emitSizeValidation argument) := by
  unfold emitSizeValidation
  cases argument.type <;> cases argument.interface <;> cases argument.allowNull <;>
    simp [quotable.name]

theorem Quotable.encodeArgument (quotable : argument.Quotable) :
    AllClean (emitEncodeArgument argument) := by
  unfold emitEncodeArgument
  cases argument.type <;> cases argument.interface <;> simp [quotable.name]

theorem Quotable.debugArgument (quotable : argument.Quotable) :
    AllClean (emitDebugArgument argument) := by
  have interface := quotable.interface
  unfold emitDebugArgument
  cases type : argument.type <;> cases given : argument.interface <;>
    cases argument.allowNull <;> simp [quotable.name] <;>
      exact interface (by simp [type]) _ given

theorem Quotable.foreignCheck
    (quotable : argument.Quotable)
    (makesObject : argument.type = .newId)
    (protocol : Protocol) :
    AllClean (emitForeignCheck protocol argument) := by
  unfold emitForeignCheck
  cases given : argument.interface with
  | none => simp
  | some child =>
      have clean := quotable.interface (.inr makesObject) child given
      dsimp only
      split <;> simp [quotable.name, clean]

theorem allClean_emitChildInterface
    (clean : Clean child)
    (parent : List UInt8) :
    AllClean (emitChildInterface parent child) := by
  unfold emitChildInterface
  split <;> simp [clean]

theorem Quotable.announcedCheck
    (quotable : argument.Quotable)
    (makesObject : argument.type = .newId)
    (protocol : Protocol) :
    AllClean (emitAnnouncedCheck protocol argument) := by
  have foreign := quotable.foreignCheck makesObject protocol
  unfold emitAnnouncedCheck
  cases argument.interface <;> simp [foreign, quotable.name]

theorem Quotable.announced
    (quotable : argument.Quotable)
    (makesObject : argument.type = .newId)
    (protocol : Protocol)
    (interface : Interface) :
    AllClean (emitAnnounced protocol interface argument) := by
  unfold emitAnnounced
  cases given : argument.interface with
  | none => simp [quotable.name]
  | some child =>
      have clean := quotable.interface (.inr makesObject) child given
      dsimp only
      split <;> simp [quotable.name, allClean_emitChildInterface clean]

theorem Quotable.newObject
    (quotable : argument.Quotable)
    (makesObject : argument.type = .newId)
    (protocol : Protocol)
    (interface : Interface) :
    AllClean (emitNewObject protocol interface argument) := by
  unfold emitNewObject
  cases given : argument.interface with
  | none => cases argument.allowNull <;> simp [quotable.name]
  | some child =>
      have clean := quotable.interface (.inr makesObject) child given
      dsimp only
      split <;> split <;> simp [quotable.name, allClean_emitChildInterface clean]

theorem Quotable.eventCheck
    (quotable : argument.Quotable)
    (makesObject : argument.type = .newId)
    (protocol : Protocol) :
    AllClean (emitEventCheck protocol argument) := by
  have foreign := quotable.foreignCheck makesObject protocol
  unfold emitEventCheck
  cases argument.interface <;> cases argument.allowNull <;> simp [foreign, quotable.name]

theorem Quotable.newEventObject
    (quotable : argument.Quotable)
    (makesObject : argument.type = .newId)
    (protocol : Protocol)
    (interface : Interface) :
    AllClean (emitNewEventObject protocol interface argument) := by
  unfold emitNewEventObject
  cases given : argument.interface with
  | none => cases argument.allowNull <;> simp [quotable.name]
  | some child =>
      have clean := quotable.interface (.inr makesObject) child given
      dsimp only
      split <;> split <;> simp [quotable.name, allClean_emitChildInterface clean]

/-- The fields of a payload and the trace of a message copy everything that is
copied of an argument anywhere. -/
theorem quotable_of_copies
    (argument : Argument)
    (name : Clean argument.name)
    (type : AllClean (emitType argument))
    (debugged : AllClean (emitDebugArgument argument)) :
    argument.Quotable where
  name := name
  enumName reference isReference := by
    rw [emitType, isReference] at type
    exact (allClean_emitEnumReference reference).mp type
  interface := by
    rintro isTyped interface isInterface
    unfold emitDebugArgument at debugged
    rcases isTyped with isObject | isNewId
    · rw [isObject, isInterface] at debugged
      exact (show Clean interface ∧ Clean argument.name by simpa using debugged).1
    · rw [isNewId, isInterface, allClean_append, allClean_cons] at debugged
      exact debugged.2.1

end Argument

/-- New IDs are arguments of their type. -/
theorem mem_newIds
    {message : Message}
    (isNewId : argument ∈ newIds message) :
    argument ∈ message.arguments ∧ argument.type = .newId := by
  obtain ⟨isArgument, makesObject⟩ := List.mem_filter.mp isNewId
  exact ⟨isArgument, eq_of_beq makesObject⟩

/-- Objects are arguments of their type. -/
theorem mem_objects
    {message : Message}
    (isObject : argument ∈ objects message) :
    argument ∈ message.arguments ∧ argument.type = .object := by
  obtain ⟨isArgument, object⟩ := List.mem_filter.mp isObject
  exact ⟨isArgument, eq_of_beq object⟩

namespace Message

variable {message : Message}

theorem Quotable.newIds (quotable : message.Quotable) :
    ∀ argument ∈ newIds message, Clean argument.name :=
  fun argument isNewId => (quotable.arguments argument (mem_newIds isNewId).1).name

theorem Quotable.fds (quotable : message.Quotable) :
    ∀ argument ∈ fds message, Clean argument.name :=
  fun argument isFd => (quotable.arguments argument (List.mem_filter.mp isFd).1).name

/-- What holds of the copies of every argument that makes an object. -/
theorem Quotable.forNewIds
    (quotable : message.Quotable)
    {emit : Argument → List Copy}
    (each : ∀ argument, argument.Quotable → argument.type = .newId →
      AllClean (emit argument)) :
    ∀ argument ∈ Generator.newIds message, AllClean (emit argument) := by
  intro argument isNewId
  obtain ⟨isArgument, makesObject⟩ := mem_newIds isNewId
  exact each argument (quotable.arguments argument isArgument) makesObject

theorem Quotable.decoderCase
    (quotable : message.Quotable)
    (emitted : emitDecoderCase message supportsObjectValidation eventDecode =
      .ok copies) :
    AllClean copies := by
  obtain ⟨decoded, arguments, isCopies⟩ := Scan.bind_eq_ok.mp emitted
  rw [← Except.ok.inj isCopies]
  have decodedClean : AllClean decoded := by
    refine (allClean_emitEach arguments).mpr ?_
    intro argument isArgument part emittedPart
    have quotable := quotable.arguments argument isArgument
    split at emittedPart
    · rw [← Except.ok.inj emittedPart]
      exact allClean_nil
    · obtain ⟨expression, isExpression, isPart⟩ := Scan.bind_eq_ok.mp emittedPart
      rw [← Except.ok.inj isPart]
      simpa using ⟨quotable.type, quotable.decodeExpression isExpression⟩
  have validationClean : AllClean
      (if supportsObjectValidation then
        (objects message).flatMap fun argument =>
          emitObjectValidation argument true eventDecode
      else []) := by
    split
    · rw [allClean_flatMap]
      intro argument isObject
      obtain ⟨isArgument, object⟩ := mem_objects isObject
      exact (quotable.arguments argument isArgument).objectValidation object _ _
    · exact allClean_nil
  have names : ∀ argument ∈ message.arguments, Clean argument.name :=
    fun argument isArgument => (quotable.arguments argument isArgument).name
  refine (allClean_append _ _).mpr ⟨(allClean_append _ _).mpr
    ⟨(allClean_append _ _).mpr ⟨decodedClean, validationClean⟩, by simp⟩, ?_⟩
  simpa using ⟨quotable.name, names⟩

theorem Quotable.messageEncoder (quotable : message.Quotable) :
    AllClean (emitMessageEncoder message) := by
  have sizes : ∀ argument ∈ message.arguments, AllClean (emitSizeValidation argument) :=
    fun argument isArgument => (quotable.arguments argument isArgument).sizeValidation
  have values : ∀ argument ∈ message.arguments, AllClean (emitEncodeArgument argument) :=
    fun argument isArgument => (quotable.arguments argument isArgument).encodeArgument
  have descriptors := quotable.fds
  simp only [emitMessageEncoder, allClean_append, allClean_cons, allClean_nil,
    allClean_flatMap, allClean_map, clean_bare, clean_identifier, quotable.name, and_true,
    true_and]
  exact ⟨⟨⟨sizes, sizes⟩, values⟩, descriptors⟩

theorem Quotable.payload (quotable : message.Quotable) :
    AllClean (emitPayload message) := by
  rw [emitPayload, allClean_flatMap]
  intro argument isArgument
  have quotable := quotable.arguments argument isArgument
  split <;> simp [quotable.name, quotable.type]

theorem Quotable.values (quotable : message.Quotable) :
    AllClean (emitValues message) := by
  rw [emitValues, allClean_flatMap]
  intro argument isArgument
  have quotable := quotable.arguments argument isArgument
  split
  · simp [quotable.name]
  · split <;> simp [quotable.name]

theorem Quotable.debugger (quotable : message.Quotable) :
    ∀ argument ∈ message.arguments, AllClean (emitDebugArgument argument) :=
  fun argument isArgument => (quotable.arguments argument isArgument).debugArgument

end Message

/-! ## Files -/

section Messages

variable {messages : List Message}

theorem allClean_emitObjectValidator
    (quotable : ∀ message ∈ messages, message.Quotable) :
    AllClean (emitObjectValidator messages) := by
  rw [emitObjectValidator, allClean_flatMap]
  intro message isMessage
  have quotable := quotable message isMessage
  split
  · exact allClean_nil
  · rw [allClean_cons, allClean_flatMap]
    refine ⟨quotable.name, fun argument isObject => ?_⟩
    obtain ⟨isArgument, object⟩ := mem_objects isObject
    exact (quotable.arguments argument isArgument).objectValidation object _ _

theorem allClean_emitEncoder
    (quotable : ∀ message ∈ messages, message.Quotable) :
    AllClean (emitEncoder messages) := by
  have names : ∀ message ∈ messages, Clean message.name :=
    fun message isMessage => (quotable message isMessage).name
  have encoders : ∀ message ∈ messages, AllClean (emitMessageEncoder message) :=
    fun message isMessage => (quotable message isMessage).messageEncoder
  simpa [emitEncoder] using ⟨names, encoders⟩

/-- The copies of one direction are clean exactly when those of its messages
are. -/
theorem allClean_emitDirection
    (emitted : emitDirection direction messages = .ok copies) :
    AllClean copies ↔ ∀ message ∈ messages, message.Quotable := by
  obtain ⟨decoder, decoded, isCopies⟩ := Scan.bind_eq_ok.mp emitted
  rw [← Except.ok.inj isCopies]
  simp only [allClean_append, allClean_flatMap, allClean_cons, allClean_nil, clean_bare,
    clean_identifier, and_true, true_and]
  constructor
  · rintro ⟨⟨⟨⟨⟨names, payloads⟩, -⟩, -⟩, -⟩, debugger⟩ message isMessage
    refine ⟨names message isMessage, fun argument isArgument => ?_⟩
    have payload := payloads message isMessage argument isArgument
    rw [emitDebugger, allClean_flatMap] at debugger
    have debugged := debugger message isMessage
    simp only [allClean_cons, allClean_flatMap] at debugged
    exact argument.quotable_of_copies payload.1 payload.2
      (debugged.2.2 argument isArgument)
  · intro quotable
    refine ⟨⟨⟨⟨⟨?_, ?_⟩, ?_⟩, ?_⟩, allClean_emitEncoder quotable⟩, ?_⟩
    · exact fun message isMessage => (quotable message isMessage).name
    · intro message isMessage argument isArgument
      have quotable := (quotable message isMessage).arguments argument isArgument
      exact ⟨quotable.name, quotable.type⟩
    · exact (allClean_emitEach decoded).mpr fun message isMessage part emittedPart =>
        (quotable message isMessage).decoderCase emittedPart
    · split
      · exact allClean_emitObjectValidator quotable
      · exact allClean_nil
    · rw [emitDebugger, allClean_flatMap]
      intro message isMessage
      have quotable := quotable message isMessage
      simpa using ⟨quotable.name, quotable.debugger⟩

end Messages

section Interfaces

variable {protocol : Protocol} {interface : Interface}

/-- The enums of an interface are clean exactly when they are quotable. -/
theorem allClean_emitEnums
    (emitted : emitEnums protocol interface = .ok copies) :
    AllClean copies ↔ ∀ value ∈ interface.enums, value.Quotable := by
  rw [allClean_emitEach emitted]
  refine forall₂_congr fun value isValue => ?_
  obtain ⟨part, emittedPart⟩ := emitEach_mem emitted isValue
  obtain ⟨signed, isSigned, emittedEntries⟩ := Scan.bind_eq_ok.mp emittedPart
  obtain ⟨entries, isEntries, isPart⟩ := Scan.bind_eq_ok.mp emittedEntries
  have each : AllClean entries ↔ ∀ entry ∈ value.entries, Clean entry.name := by
    rw [allClean_emitEach isEntries]
    refine forall₂_congr fun entry isEntry => ?_
    obtain ⟨copy, emittedEntry⟩ := emitEach_mem isEntries isEntry
    obtain ⟨-, -, isCopy⟩ := Scan.bind_eq_ok.mp emittedEntry
    rw [emittedEntry, ← Except.ok.inj isCopy]
    simp
  rw [emittedPart]
  constructor
  · intro clean
    have copied := clean part rfl
    rw [← Except.ok.inj isPart, allClean_cons, each] at copied
    exact ⟨copied.1, copied.2⟩
  · rintro quotable _ ⟨⟩
    rw [← Except.ok.inj isPart, allClean_cons, each]
    exact ⟨quotable.name, quotable.entries⟩

theorem allClean_emitClientConstructors
    (quotable : ∀ message ∈ interface.requests, message.Quotable) :
    AllClean (emitClientConstructors protocol interface) := by
  rw [emitClientConstructors, allClean_flatMap]
  intro message isMessage
  have quotable := quotable message isMessage
  split
  · exact allClean_nil
  · have names := quotable.newIds
    have checks := quotable.forNewIds fun _ quotable makesObject =>
      quotable.foreignCheck makesObject protocol
    have made := quotable.forNewIds fun _ quotable makesObject =>
      quotable.newObject makesObject protocol interface
    simpa [quotable.payload, quotable.values, quotable.name] using
      And.intro names ⟨checks, made, names⟩

theorem allClean_emitAdmissions
    (messages : List Message)
    (quotable : ∀ message ∈ messages, message.Quotable) :
    AllClean (emitAdmissions protocol interface messages) := by
  rw [emitAdmissions, allClean_flatMap]
  intro message isMessage
  have quotable := quotable message isMessage
  split
  · exact allClean_nil
  · have names := quotable.newIds
    have checks := quotable.forNewIds fun _ quotable makesObject =>
      quotable.announcedCheck makesObject protocol
    have made := quotable.forNewIds fun _ quotable makesObject =>
      quotable.announced makesObject protocol interface
    simpa using And.intro names ⟨checks, made, names⟩

theorem allClean_emitServerEventConstructors
    (quotable : ∀ message ∈ interface.events, message.Quotable) :
    AllClean (emitServerEventConstructors protocol interface) := by
  rw [emitServerEventConstructors, allClean_flatMap]
  intro message isMessage
  have quotable := quotable message isMessage
  split
  · exact allClean_nil
  · have names := quotable.newIds
    have checks := quotable.forNewIds fun _ quotable makesObject =>
      quotable.eventCheck makesObject protocol
    have made := quotable.forNewIds fun _ quotable makesObject =>
      quotable.newEventObject makesObject protocol interface
    simpa [quotable.payload, quotable.values, quotable.name] using
      And.intro names ⟨checks, made, names⟩

/-- The copies of an interface are clean exactly when everything that is copied
of it is. -/
theorem allClean_emitInterface
    (emitted : emitInterface protocol interface = .ok copies) :
    AllClean copies ↔ interface.Quotable := by
  obtain ⟨enums, isEnums, emitted⟩ := Scan.bind_eq_ok.mp emitted
  obtain ⟨requests, isRequests, emitted⟩ := Scan.bind_eq_ok.mp emitted
  obtain ⟨events, isEvents, isCopies⟩ := Scan.bind_eq_ok.mp emitted
  rw [← Except.ok.inj isCopies]
  simp only [allClean_append, allClean_cons, allClean_nil, clean_identifier,
    clean_literal, allClean_emitEnums isEnums, allClean_emitDirection isRequests,
    allClean_emitDirection isEvents, and_true]
  constructor
  · rintro ⟨⟨⟨⟨⟨⟨⟨⟨name, -⟩, enums⟩, requests⟩, -⟩, -⟩, events⟩, -⟩, -⟩
    exact ⟨name, requests, events, enums⟩
  · intro quotable
    exact ⟨⟨⟨⟨⟨⟨⟨⟨quotable.name, quotable.name⟩, quotable.enums⟩, quotable.requests⟩,
      allClean_emitClientConstructors quotable.requests⟩,
      allClean_emitAdmissions _ quotable.requests⟩, quotable.events⟩,
      allClean_emitServerEventConstructors quotable.events⟩,
      allClean_emitAdmissions _ quotable.events⟩

end Interfaces

/-! ## The input -/

/-- What the generator copies of a tag without a check of the parser is clean. -/
def Tag.CopiesClean (tag : Tag) : Prop :=
  tag.kind ≠ .close →
    (tag.name = bytesOf "entry" → ∀ entry, tag.entry = .ok entry → Clean entry.name) ∧
      (tag.name = bytesOf "arg" → ∀ argument, tag.argument = .ok argument →
        (∀ reference, argument.enumName = some reference → Clean reference) ∧
          (argument.type = .object ∨ argument.type = .newId →
            ∀ interface, argument.interface = some interface → Clean interface))

theorem isClean_of_word
    {byte : UInt8}
    (word : (isAlphanumeric byte || byte == 0x5f) = true) :
    isClean byte = true := by
  simp only [isAlphanumeric, isAlphabetic, isClean, Bool.or_eq_true, Bool.and_eq_true,
    decide_eq_true_eq, beq_iff_eq, bne_iff_ne, ne_eq, UInt8.le_iff_toNat_le,
    ← UInt8.toNat_inj, UInt8.reduceToNat] at word ⊢
  omega

/-- A name that the parser accepts has letters, digits and underscores only. -/
theorem ValidName.clean (valid : ValidName name) : Clean name := by
  cases name with
  | nil => cases valid
  | cons first rest =>
      obtain ⟨_, begins, continues⟩ := Scan.bind_eq_ok.mp valid
      have begins := (Scan.Meets.reject _).of_ok begins
      have continues := (Scan.Meets.reject _).of_ok continues
      simp only [Bool.not_eq_false', List.any_eq_false, Bool.not_eq_true',
        Bool.not_eq_false] at begins continues
      refine List.forall_mem_cons.mpr ⟨isClean_of_word ?_, fun byte isLater => ?_⟩
      · rw [isAlphanumeric, Bool.or_right_comm, begins, Bool.true_or]
      · exact isClean_of_word (continues byte isLater)

/-- Every result is read from an element. -/
theorem mapM_result
    {elements : List α}
    {read : α → Scan ε β}
    (returned : elements.mapM read = .ok results)
    (isResult : result ∈ results) :
    ∃ element ∈ elements, read element = .ok result := by
  induction elements generalizing results with
  | nil =>
      cases returned
      cases isResult
  | cons element elements inductionHypothesis =>
      obtain ⟨first, rest, firstRead, others, rfl⟩ := mapM_cons_ok returned
      rcases List.mem_cons.mp isResult with rfl | isLater
      · exact ⟨element, List.mem_cons_self, firstRead⟩
      · obtain ⟨other, isElement, otherRead⟩ := inductionHypothesis others isLater
        exact ⟨other, List.mem_cons_of_mem _ isElement, otherRead⟩

/-- Every element is read to a result. -/
theorem mapM_element
    {elements : List α}
    {read : α → Scan ε β}
    (returned : elements.mapM read = .ok results)
    (isElement : element ∈ elements) :
    ∃ result ∈ results, read element = .ok result := by
  induction elements generalizing results with
  | nil => cases isElement
  | cons other elements inductionHypothesis =>
      obtain ⟨first, rest, firstRead, others, rfl⟩ := mapM_cons_ok returned
      rcases List.mem_cons.mp isElement with rfl | isLater
      · exact ⟨first, List.mem_cons_self, firstRead⟩
      · obtain ⟨result, isResult, read⟩ := inductionHypothesis others isLater
        exact ⟨result, List.mem_cons_of_mem _ isResult, read⟩

/-- A tag of another name copies nothing unchecked. -/
theorem Tag.copiesClean_of_name
    {tag : Tag}
    (notEntry : tag.name ≠ bytesOf "entry")
    (notArgument : tag.name ≠ bytesOf "arg") :
    tag.CopiesClean :=
  fun _ => ⟨fun named => absurd named notEntry, fun named => absurd named notArgument⟩

theorem Tag.copiesClean_of_close
    {tag : Tag}
    (kind : tag.kind = .close) :
    tag.CopiesClean :=
  fun notClosing => absurd kind notClosing

theorem Element.Formed.opening_kind
    {element : Element child}
    (formed : element.Formed name) :
    element.opening.kind ≠ .close := by
  have fields := formed.2
  cases closing : element.closing with
  | none =>
      rw [closing] at fields
      rw [fields.1]
      decide
  | some closing' =>
      rw [closing] at fields
      rw [fields.1]
      decide

/-- Of an element, only the opening tag and the children copy anything. -/
theorem Element.copiesClean_iff
    {element : Element child}
    (formed : element.Formed name)
    (childTags : child → List Tag) :
    (∀ tag ∈ element.tags childTags, tag.CopiesClean) ↔
      element.opening.CopiesClean ∧
        ∀ child ∈ element.children, ∀ tag ∈ childTags child, tag.CopiesClean := by
  have closing : ∀ tag ∈ element.closing.toList, tag.CopiesClean := by
    intro tag isClosing
    have fields := formed.2
    rw [Option.mem_toList.mp isClosing] at fields
    exact Tag.copiesClean_of_close fields.2.1
  simp only [Element.tags, List.cons_append, List.forall_mem_cons, List.forall_mem_append,
    List.mem_flatMap, forall_exists_index, and_imp]
  constructor
  · rintro ⟨opening, children, -⟩
    exact ⟨opening, fun child isChild tag isTag => children tag child isChild isTag⟩
  · rintro ⟨opening, children⟩
    exact ⟨opening, fun tag child isChild isTag => children child isChild tag isTag, closing⟩

section Elements

variable {protocol : Protocol} {interface : Interface} {message : Message} {value : Enum}

/-- A message is quotable exactly when its tags copy nothing but clean names.
-/
theorem Message.quotable_iff
    {kind : MessageKind}
    {element : Element Tag}
    {position : Nat}
    (formed : (Member.message kind element).Formed)
    (reads : messageOf kind element position = .ok message)
    (wellFormed : message.WellFormed version) :
    message.Quotable ↔
      ∀ tag ∈ (Member.message kind element).tags, tag.CopiesClean := by
  obtain ⟨builder, isBuilder, reads⟩ := Scan.bind_eq_ok.mp reads
  obtain ⟨arguments, isArguments, isMessage⟩ := Scan.bind_eq_ok.mp reads
  have argumentsAre : message.arguments = arguments := by
    rw [← Except.ok.inj isMessage]
    rfl
  have opening : element.opening.CopiesClean := by
    apply Tag.copiesClean_of_name <;> rw [formed.1.1] <;> cases kind <;> decide +kernel
  rw [Member.tags, Element.copiesClean_iff formed.1]
  simp only [List.mem_singleton, forall_eq]
  constructor
  · intro quotable
    refine ⟨opening, fun tag isTag _ => ⟨fun named => ?_, fun _ argument reads => ?_⟩⟩
    · exact absurd ((formed.2 tag isTag).1.symm.trans named) (by decide +kernel)
    · obtain ⟨argument', isArgument, reads'⟩ := mapM_element isArguments isTag
      cases reads.symm.trans reads'
      rw [← argumentsAre] at isArgument
      have quotable := quotable.arguments argument isArgument
      exact ⟨quotable.enumName, quotable.interface⟩
  · rintro ⟨-, clean⟩
    refine ⟨wellFormed.valid.clean, fun argument isArgument => ?_⟩
    have valid := wellFormed.validArguments argument isArgument
    rw [argumentsAre] at isArgument
    obtain ⟨tag, isTag, reads⟩ := mapM_result isArguments isArgument
    obtain ⟨named, kind⟩ := formed.2 tag isTag
    have clean := (clean tag isTag (by rw [kind]; decide)).2 named argument reads
    exact ⟨valid.clean, clean.1, clean.2⟩

/-- An enum is quotable exactly when its tags copy nothing but clean names. -/
theorem Enum.quotable_iff
    {element : Element (Element Empty)}
    (formed : (Member.enumeration element).Formed)
    (reads : enumOf element = .ok value)
    (wellFormed : value.WellFormed version) :
    value.Quotable ↔ ∀ tag ∈ (Member.enumeration element).tags, tag.CopiesClean := by
  obtain ⟨builder, isBuilder, reads⟩ := Scan.bind_eq_ok.mp reads
  obtain ⟨entries, isEntries, isValue⟩ := Scan.bind_eq_ok.mp reads
  have entriesAre : value.entries = entries := by
    rw [← Except.ok.inj isValue]
    rfl
  have opening : element.opening.CopiesClean := by
    apply Tag.copiesClean_of_name <;> rw [formed.1.1] <;> decide +kernel
  rw [Member.tags, Element.copiesClean_iff formed.1]
  constructor
  · intro quotable
    refine ⟨opening, fun child isChild => ?_⟩
    rw [entryTags, Element.copiesClean_iff (formed.2 child isChild)]
    refine ⟨fun _ => ⟨fun _ entry reads => ?_, fun named => ?_⟩, fun inside => inside.elim⟩
    · obtain ⟨entry', isEntry, reads'⟩ := mapM_element isEntries isChild
      cases reads.symm.trans reads'
      rw [← entriesAre] at isEntry
      exact quotable.entries entry isEntry
    · exact absurd ((formed.2 child isChild).1.symm.trans named) (by decide +kernel)
  · rintro ⟨-, clean⟩
    refine ⟨wellFormed.valid.clean, fun entry isEntry => ?_⟩
    rw [entriesAre] at isEntry
    obtain ⟨child, isChild, reads⟩ := mapM_result isEntries isEntry
    have formedChild := formed.2 child isChild
    have clean := clean child isChild
    rw [entryTags, Element.copiesClean_iff formedChild] at clean
    exact (clean.1 formedChild.opening_kind).1 formedChild.1 entry reads

theorem messagesOf_result
    {members : List Member}
    {messages : List Message}
    (read : messagesOf kind members = .ok messages)
    (isMessage : message ∈ messages) :
    ∃ element position, .message kind element ∈ members ∧
      messageOf kind element position = .ok message := by
  obtain ⟨⟨element, position⟩, isElement, reads⟩ := mapM_result read isMessage
  refine ⟨element, position, ?_, reads⟩
  obtain ⟨member, isMember, isKind⟩ :=
    List.mem_filterMap.mp (List.fst_mem_of_mem_zipIdx isElement)
  cases member with
  | enumeration other => cases isKind
  | message other found =>
      by_cases same : other = kind
      · rw [Member.ofKind, if_pos same] at isKind
        cases same
        cases isKind
        exact isMember
      · rw [Member.ofKind, if_neg same] at isKind
        cases isKind

theorem messagesOf_element
    {members : List Member}
    {messages : List Message}
    {element : Element Tag}
    (read : messagesOf kind members = .ok messages)
    (isMember : .message kind element ∈ members) :
    ∃ message ∈ messages, ∃ position, messageOf kind element position = .ok message := by
  have isElement : element ∈ members.filterMap (·.ofKind kind) :=
    List.mem_filterMap.mpr ⟨_, isMember, by rw [Member.ofKind, if_pos rfl]⟩
  obtain ⟨position, atPosition⟩ := List.mem_iff_getElem?.mp isElement
  obtain ⟨message, isMessage, reads⟩ :=
    mapM_element read (List.mk_mem_zipIdx_iff_getElem?.mpr atPosition)
  exact ⟨message, isMessage, position, reads⟩

/-- An interface is quotable exactly when its tags copy nothing but clean
names. -/
theorem Interface.quotable_iff
    {element : Element Member}
    (formed : InterfaceFormed element)
    (reads : interfaceOf element = .ok interface)
    (wellFormed : interface.WellFormed) :
    interface.Quotable ↔ ∀ tag ∈ interfaceTags element, tag.CopiesClean := by
  obtain ⟨builder, isBuilder, reads⟩ := Scan.bind_eq_ok.mp reads
  obtain ⟨requests, isRequests, reads⟩ := Scan.bind_eq_ok.mp reads
  obtain ⟨events, isEvents, reads⟩ := Scan.bind_eq_ok.mp reads
  obtain ⟨enums, isEnums, isInterface⟩ := Scan.bind_eq_ok.mp reads
  cases isInterface
  have opening : element.opening.CopiesClean := by
    apply Tag.copiesClean_of_name <;> rw [formed.1.1] <;> decide +kernel
  rw [interfaceTags, Element.copiesClean_iff formed.1]
  constructor
  · intro quotable
    refine ⟨opening, fun member isMember => ?_⟩
    have formedMember := formed.2 member isMember
    cases member with
    | message kind child =>
        cases kind with
        | request =>
            obtain ⟨message, isMessage, position, reads⟩ :=
              messagesOf_element isRequests isMember
            exact (Message.quotable_iff formedMember reads
              (wellFormed.requests.each message isMessage)).mp
                (quotable.requests message isMessage)
        | event =>
            obtain ⟨message, isMessage, position, reads⟩ :=
              messagesOf_element isEvents isMember
            exact (Message.quotable_iff formedMember reads
              (wellFormed.events.each message isMessage)).mp
                (quotable.events message isMessage)
    | enumeration child =>
        have isChild : child ∈ element.children.filterMap (·.enum) :=
          List.mem_filterMap.mpr ⟨_, isMember, rfl⟩
        obtain ⟨value, isValue, reads⟩ := mapM_element isEnums isChild
        exact (Enum.quotable_iff formedMember reads (wellFormed.enums value isValue)).mp
          (quotable.enums value isValue)
  · rintro ⟨-, clean⟩
    refine ⟨wellFormed.valid.clean, ?_, ?_, ?_⟩
    · intro message isMessage
      obtain ⟨child, position, isMember, reads⟩ := messagesOf_result isRequests isMessage
      exact (Message.quotable_iff (formed.2 _ isMember) reads
        (wellFormed.requests.each message isMessage)).mpr (clean _ isMember)
    · intro message isMessage
      obtain ⟨child, position, isMember, reads⟩ := messagesOf_result isEvents isMessage
      exact (Message.quotable_iff (formed.2 _ isMember) reads
        (wellFormed.events.each message isMessage)).mpr (clean _ isMember)
    · intro value isValue
      obtain ⟨child, isChild, reads⟩ := mapM_result isEnums isValue
      obtain ⟨member, isMember, isEnum⟩ := List.mem_filterMap.mp isChild
      cases member with
      | message _ _ => cases isEnum
      | enumeration found =>
          cases isEnum
          exact (Enum.quotable_iff (formed.2 _ isMember) reads
            (wellFormed.enums value isValue)).mpr (clean _ isMember)

/-- A protocol is quotable exactly when its tags copy nothing but clean names.
-/
theorem Protocol.quotable_iff
    {document : Document}
    (formed : document.Formed)
    (reads : document.protocol = .ok protocol)
    (wellFormed : protocol.WellFormed) :
    (∀ interface ∈ protocol.interfaces, interface.Quotable) ↔
      ∀ tag ∈ Document.tags document, tag.CopiesClean := by
  obtain ⟨name, isName, reads⟩ := Scan.bind_eq_ok.mp reads
  obtain ⟨interfaces, isInterfaces, isProtocol⟩ := Scan.bind_eq_ok.mp reads
  cases isProtocol
  have opening : Tag.CopiesClean (Element.opening document) := by
    apply Tag.copiesClean_of_name <;> rw [formed.1.1] <;> decide +kernel
  rw [Document.tags, Element.copiesClean_iff formed.1]
  constructor
  · intro quotable
    refine ⟨opening, fun element isElement => ?_⟩
    obtain ⟨interface, isInterface, reads⟩ := mapM_element isInterfaces isElement
    exact (Interface.quotable_iff (formed.2 element isElement) reads
      (wellFormed.interfaces interface isInterface)).mp (quotable interface isInterface)
  · rintro ⟨-, clean⟩ interface isInterface
    obtain ⟨element, isElement, reads⟩ := mapM_result isInterfaces isInterface
    exact (Interface.quotable_iff (formed.2 element isElement) reads
      (wellFormed.interfaces interface isInterface)).mpr (clean element isElement)

end Elements

/-- The tokenizer yields one list of tags. -/
theorem Yields.unique
    {tokenizer : Tokenizer}
    (yields : Yields tokenizer tags)
    (other : Yields tokenizer later) :
    tags = later := by
  induction yields generalizing later with
  | done ends =>
      cases other with
      | done => rfl
      | tag reads => cases ends.symm.trans reads
  | tag reads more inductionHypothesis =>
      cases other with
      | done ends => cases reads.symm.trans ends
      | tag otherReads otherMore =>
          cases reads.symm.trans otherReads
          rw [inductionHypothesis otherMore]

/-- Everything that the tags of a file copy unchecked is clean. -/
def FileClean (xml : List UInt8) : Prop :=
  ∀ tags, Yields { xml } tags → ∀ tag ∈ significant 0 tags, tag.CopiesClean

theorem Protocol.quotable_iff_fileClean
    {protocol : Protocol}
    (parsed : Protocol.parse room xml = .ok protocol) :
    (∀ interface ∈ protocol.interfaces, interface.Quotable) ↔ FileClean xml := by
  obtain ⟨wellFormed, tags, document, yields, isDocument, formed, reads⟩ :=
    (parse_meets room xml).of_ok parsed
  rw [Protocol.quotable_iff formed reads wellFormed, ← isDocument]
  constructor
  · intro clean later yieldsLater
    rwa [← yields.unique yieldsLater]
  · exact fun clean => clean tags yields

/-- The combined protocol has the interfaces of all protocols. -/
theorem combined_interfaces
    {interfaces before combined : List Interface}
    (returned : interfaces.foldlM
      (fun (interfaces : List Interface) interface => do
        Scan.reject (interfaces.any (·.name == interface.name))
          Generator.Error.duplicateInterface
        return interfaces ++ [interface])
      before = .ok combined) :
    combined = before ++ interfaces := by
  induction interfaces generalizing before with
  | nil =>
      cases returned
      rw [List.append_nil]
  | cons interface interfaces inductionHypothesis =>
      rw [List.foldlM_cons] at returned
      obtain ⟨extended, isExtended, rest⟩ := Scan.bind_eq_ok.mp returned
      obtain ⟨_, -, isExtended⟩ := Scan.bind_eq_ok.mp isExtended
      cases isExtended
      rw [inductionHypothesis rest, List.append_assoc]
      rfl

/-- Every name between quotes is clean exactly when the names of entries, the
enum attributes of arguments, and the interface attributes of arguments that are
objects are clean in every file. -/
theorem quoted_names_are_clean_iff
    (files : List (List UInt8))
    (protocols : List Protocol)
    (parsed : List.Forall₂
      (fun xml protocol => ∃ room, Protocol.parse room xml = .ok protocol)
      files protocols)
    (copies : List Copy)
    (generated : generateProtocols protocols = .ok copies) :
    (∀ name, .identifier name ∈ copies ∨ .literal name ∈ copies → Clean name) ↔
      ∀ xml ∈ files, FileClean xml := by
  have quoted : (∀ name, .identifier name ∈ copies ∨ .literal name ∈ copies →
      Clean name) ↔ AllClean copies := by
    constructor
    · rintro clean (name | name | name) isCopy
      · exact clean name (.inl isCopy)
      · exact clean name (.inr isCopy)
      · exact trivial
    · rintro clean name (isIdentifier | isLiteral)
      · exact clean _ isIdentifier
      · exact clean _ isLiteral
  obtain ⟨combined, isCombined, emitted⟩ := Scan.bind_eq_ok.mp generated
  have each : AllClean copies ↔ ∀ interface ∈ combined, interface.Quotable := by
    rw [allClean_emitEach emitted]
    refine forall₂_congr fun interface isInterface => ?_
    obtain ⟨part, emittedPart⟩ := emitEach_mem emitted isInterface
    rw [← allClean_emitInterface emittedPart, emittedPart]
    simp
  rw [quoted, each, combined_interfaces isCombined, List.nil_append]
  simp only [List.mem_flatMap, forall_exists_index, and_imp]
  clear quoted each emitted isCombined generated
  induction parsed with
  | nil => simp
  | @cons xml protocol files protocols parsed _ inductionHypothesis =>
      obtain ⟨room, parsed⟩ := parsed
      rw [List.forall_mem_cons]
      refine Iff.trans ?_
        (and_congr (Protocol.quotable_iff_fileClean parsed) inductionHypothesis)
      constructor
      · intro quotable
        exact ⟨fun interface => quotable interface protocol List.mem_cons_self,
          fun interface other isOther =>
            quotable interface other (List.mem_cons_of_mem _ isOther)⟩
      · rintro ⟨first, others⟩ interface other isOther
        rcases List.mem_cons.mp isOther with rfl | isLater
        · exact first interface
        · exact others interface other isLater

/-- A protocol whose only entry has a quote in its name. -/
def quotedEntry : List UInt8 :=
  bytesOf
    "<protocol name='p'><interface name='i' version='1'><enum name='e'><entry name='a\"b' value='0'/></enum></interface></protocol>"

/-- The protocol of that file. -/
def quotedEntryProtocol : Protocol where
  name := bytesOf "p"
  interfaces :=
    [{ name := bytesOf "i"
       version := 1
       requests := []
       events := []
       enums :=
         [{ name := bytesOf "e"
            since := 1
            bitfield := false
            entries :=
              [{ name := bytesOf "a\"b", value := 0, since := 1
                 deprecatedSince := none }] }] }]

/-- What is copied of that protocol. -/
def quotedEntryCopies : List Copy :=
  [.identifier (bytesOf "i"), .literal (bytesOf "i"), .identifier (bytesOf "e"),
    .identifier (bytesOf "a\"b")]

/-- The file is read, and its entry is copied with the quote. -/
theorem quotedEntry_read :
    Protocol.parse (fun _ => true) quotedEntry = .ok quotedEntryProtocol ∧
      generateProtocols [quotedEntryProtocol] = .ok quotedEntryCopies ∧
      .identifier (bytesOf "a\"b") ∈ quotedEntryCopies ∧
      ¬ Clean (bytesOf "a\"b") := by
  decide +kernel

/-- A protocol whose request has an argument that names an interface. -/
def plainFile : List UInt8 :=
  bytesOf
    "<protocol name='p'><interface name='i' version='1'><request name='r'><arg name='o' type='object' interface='i'/></request></interface></protocol>"

/-- The protocol of that file. -/
def plainProtocol : Protocol where
  name := bytesOf "p"
  interfaces :=
    [{ name := bytesOf "i"
       version := 1
       requests :=
         [{ name := bytesOf "r", opcode := 0, since := 1, deprecatedSince := none
            destructor := false
            arguments :=
              [{ name := bytesOf "o", type := .object
                 interface := some (bytesOf "i") }] }]
       events := []
       enums := [] }]

/-- What is copied of that protocol. -/
def plainCopies : List Copy :=
  match generateProtocols [plainProtocol] with
  | .ok copies => copies
  | _ => []

/-- The file is read, and nothing copied of it has a quote. -/
theorem plainFile_read :
    Protocol.parse (fun _ => true) plainFile = .ok plainProtocol ∧
      generateProtocols [plainProtocol] = .ok plainCopies ∧
      .literal (bytesOf "i") ∈ plainCopies ∧
      ∀ copy ∈ plainCopies, copy.Clean := by
  decide +kernel

/-- A file with a quote in the name of an entry is not clean, and one whose
attributes have none is. -/
theorem quoted_names_are_clean_iff_sample :
    ¬ FileClean quotedEntry ∧ FileClean plainFile ∧
      .literal (bytesOf "i") ∈ plainCopies := by
  obtain ⟨quotedParsed, quotedGenerated, isCopied, isQuoted⟩ := quotedEntry_read
  obtain ⟨plainParsed, plainGenerated, isNamed, each⟩ := plainFile_read
  have quoted := quoted_names_are_clean_iff [quotedEntry] [quotedEntryProtocol]
    (.cons ⟨_, quotedParsed⟩ .nil) quotedEntryCopies quotedGenerated
  have plain := quoted_names_are_clean_iff [plainFile] [plainProtocol]
    (.cons ⟨_, plainParsed⟩ .nil) plainCopies plainGenerated
  refine ⟨fun clean => ?_, ?_, isNamed⟩
  · exact isQuoted (quoted.mpr (fun xml isFile =>
      List.mem_singleton.mp isFile ▸ clean) (bytesOf "a\"b") (Or.inl isCopied))
  · refine plain.mp (fun name isCopy => ?_) plainFile List.mem_cons_self
    rcases isCopy with isIdentifier | isLiteral
    · exact each _ isIdentifier
    · exact each _ isLiteral

/-- The name of an entry is copied with a quote in it. -/
theorem entry_name_leaves_quotes :
    ¬ ∀ xml protocol copies, Protocol.parse (fun _ => true) xml = .ok protocol →
      generateProtocols [protocol] = .ok copies →
        ∀ name, .identifier name ∈ copies ∨ .literal name ∈ copies → Clean name := by
  intro clean
  obtain ⟨parsed, generated, isCopied, isQuoted⟩ := quotedEntry_read
  exact isQuoted (clean _ _ _ parsed generated (bytesOf "a\"b")
    (Or.inl isCopied))

end Scanner
end Wayring
