import Mathlib.Data.List.DropRight
import Wayring.Debug
import Wayring.Foundation.Scanning

/-!
# Tags of a protocol file

The scanner reads protocol files with a small tokenizer that yields one tag at
a time.  Text between tags, comments and processing instructions are passed
over.  The attributes of a tag stay unread until the parser asks for them.
-/

namespace Wayring
namespace Scanner

open Debug (bytesOf indexOf)

/-- What the scanner refuses. -/
inductive Error
  | outOfMemory
  | malformedXml
  | unexpectedElement
  | missingAttribute
  | duplicateAttribute
  | unknownAttribute
  | invalidInteger
  | invalidBoolean
  | invalidArgumentType
  | invalidNullability
  | invalidVersion
  | duplicateName
  | tooManyMessages
  | unsupportedEntity
  | invalidName
  deriving DecidableEq, Repr

/-- The bytes that separate the parts of a tag. -/
def isSeparator (byte : UInt8) : Bool := bytesOf " \t\r\n" |>.contains byte

/-- The whitespace of ASCII. -/
def isWhitespace (byte : UInt8) : Bool := 9 ≤ byte && byte ≤ 13 || byte == 32

/-- Drop separators at the start. -/
def trimStart (text : List UInt8) : List UInt8 := text.dropWhile isSeparator

/-- Drop separators at the end. -/
def trimEnd (text : List UInt8) : List UInt8 := text.rdropWhile isSeparator

/-! ## Attributes -/

/-- A name and its value, without the quotes. -/
structure Attribute where
  name : List UInt8
  value : List UInt8
  deriving DecidableEq, Repr

/-- The attributes that were not read yet. -/
structure AttributeIterator where
  raw : List UInt8
  cursor : Nat := 0
  deriving DecidableEq, Repr

namespace AttributeIterator

/-- The byte at the cursor is there and satisfies a condition. -/
def looksAt
    (raw : List UInt8)
    (cursor : Nat)
    (expected : UInt8 → Bool) : Scan Error Bool :=
  if cursor = raw.length then return false
  else return expected (← Scan.read raw cursor)

/-- The next attribute, if there is one. -/
def next
    (iterator : AttributeIterator) :
    Scan Error (Option (Attribute × AttributeIterator)) := do
  let raw := iterator.raw
  let nameStart ← Scan.skipWhile raw isWhitespace iterator.cursor
  if nameStart = raw.length then return none
  let nameEnd ←
    Scan.skipWhile raw (fun byte => !isWhitespace byte && byte != 0x3d) nameStart
  Scan.reject (nameEnd = nameStart) .malformedXml
  let name ← Scan.slice raw nameStart nameEnd
  let equals ← Scan.skipWhile raw isWhitespace nameEnd
  Scan.reject (!(← looksAt raw equals (· == 0x3d))) .malformedXml
  let opening ← Scan.skipWhile raw isWhitespace (equals + 1)
  Scan.reject (!(← looksAt raw opening fun byte => byte == 0x22 || byte == 0x27))
    .malformedXml
  let quote ← Scan.read raw opening
  let valueStart := opening + 1
  let valueEnd ← Scan.skipWhile raw (· != quote) valueStart
  Scan.reject (valueEnd = raw.length) .malformedXml
  let value ← Scan.slice raw valueStart valueEnd
  Scan.reject (value.contains 0x26) .unsupportedEntity
  return some ({ name, value }, { iterator with cursor := valueEnd + 1 })

/-- Where a byte is seen, there is one. -/
theorem looksAt_meets
    {raw : List UInt8}
    {position : Nat}
    (inside : position ≤ raw.length) :
    Scan.Meets (looksAt raw position expected) fun found =>
      found = true → position < raw.length := by
  refine Scan.Meets.ite ?_ ?_
  · intro _
    exact Scan.Meets.pure (by simp)
  · intro notAtEnd
    have within : position < raw.length := by omega
    exact Scan.Meets.bind (Scan.Meets.read within) fun _ _ =>
      Scan.Meets.pure fun _ => within

/-- The cursor stands inside the text of the tag. -/
def Within (iterator : AttributeIterator) : Prop :=
  iterator.cursor ≤ iterator.raw.length

/-- How much of the text is still to be read. -/
def left (iterator : AttributeIterator) : Nat :=
  iterator.raw.length - iterator.cursor

/-- Reading an attribute goes forward inside the text of the tag. -/
theorem next_meets
    {iterator : AttributeIterator}
    (within : iterator.Within) :
    Scan.Meets iterator.next fun
      | none => True
      | some (_, next) => next.Within ∧ next.left < iterator.left := by
  refine Scan.Meets.bind (Scan.Meets.skipWhile _ within) ?_
  rintro nameStart ⟨afterCursor, nameInside, -⟩
  refine Scan.Meets.ite (fun _ => trivial) ?_
  intro _
  refine Scan.Meets.bind (Scan.Meets.skipWhile _ nameInside) ?_
  rintro nameEnd ⟨afterName, nameBounded, -⟩
  refine Scan.Meets.bind (Scan.Meets.reject _) fun _ _ => ?_
  refine Scan.Meets.bind (Scan.Meets.slice afterName nameBounded) fun name _ => ?_
  refine Scan.Meets.bind (Scan.Meets.skipWhile _ nameBounded) ?_
  rintro equals ⟨afterEnd, equalsInside, -⟩
  refine Scan.Meets.bind (looksAt_meets equalsInside) fun found isThere => ?_
  refine Scan.Meets.bind (Scan.Meets.reject _) fun _ isEquals => ?_
  have equalsBounded : equals + 1 ≤ iterator.raw.length :=
    isThere (by simpa using isEquals)
  refine Scan.Meets.bind (Scan.Meets.skipWhile _ equalsBounded) ?_
  rintro opening ⟨afterEquals, openingInside, -⟩
  refine Scan.Meets.bind (looksAt_meets openingInside) fun found isThere => ?_
  refine Scan.Meets.bind (Scan.Meets.reject _) fun _ isQuote => ?_
  have openingBounded : opening + 1 ≤ iterator.raw.length :=
    isThere (by simpa using isQuote)
  refine Scan.Meets.bind (Scan.Meets.read openingBounded) fun quote _ => ?_
  refine Scan.Meets.bind (Scan.Meets.skipWhile _ openingBounded) ?_
  rintro valueEnd ⟨afterValue, valueInside, -⟩
  refine Scan.Meets.bind (Scan.Meets.reject _) fun _ closed => ?_
  refine Scan.Meets.bind (Scan.Meets.slice afterValue valueInside) fun value _ => ?_
  refine Scan.Meets.bind (Scan.Meets.reject _) fun _ _ => ?_
  have notAtEnd : valueEnd ≠ iterator.raw.length := by simpa using closed
  refine Scan.Meets.pure ⟨?_, ?_⟩ <;>
    dsimp only [Within, left] <;>
    omega

end AttributeIterator

/-- The attributes of a tag. -/
structure Attributes where
  raw : List UInt8
  deriving DecidableEq, Repr

namespace Attributes

/-- The value of an attribute that may be left out. -/
def optional
    (attributes : Attributes)
    (name : List UInt8) : Scan Error (Option (List UInt8)) :=
  Scan.loop
    (fun (iterator, result) => do
      match ← iterator.next with
      | none => return .inr result
      | some (found, iterator) =>
          if found.name = name then
            Scan.reject result.isSome .duplicateAttribute
            return .inl (iterator, some found.value)
          else return .inl (iterator, result))
    (attributes.raw.length + 1)
    (({ raw := attributes.raw } : AttributeIterator), none)

/-- An attribute that has to be there. -/
def required
    (attributes : Attributes)
    (name : List UInt8) : Scan Error (List UInt8) := do
  Scan.require (← attributes.optional name) .missingAttribute

/-- Every attribute has one of the names. -/
def ensureOnly
    (attributes : Attributes)
    (allowed : List (List UInt8)) : Scan Error Unit :=
  Scan.loop
    (fun (iterator : AttributeIterator) => do
      match ← iterator.next with
      | none => return .inr ()
      | some (found, iterator) =>
          Scan.reject (!allowed.contains found.name) .unknownAttribute
          return .inl iterator)
    (attributes.raw.length + 1) { raw := attributes.raw }

theorem optional_safe
    (attributes : Attributes)
    (name : List UInt8) :
    Scan.Safe (attributes.optional name) := by
  refine Scan.Meets.loop (fun state => state.1.Within) (fun state => state.1.left)
    ?_ (Nat.zero_le _) (by dsimp only [AttributeIterator.left]; omega)
  rintro ⟨iterator, result⟩ within
  refine Scan.Meets.bind (AttributeIterator.next_meets within) ?_
  intro found forward
  cases found with
  | none => exact trivial
  | some found =>
      refine Scan.Meets.ite ?_ ?_
      · intro _
        exact Scan.Meets.bind (Scan.Meets.reject _) fun _ _ => forward
      · exact fun _ => forward

theorem required_safe
    (attributes : Attributes)
    (name : List UInt8) :
    Scan.Safe (attributes.required name) :=
  Scan.Meets.bind (attributes.optional_safe name) fun _ _ =>
    (Scan.Meets.require _).mono fun _ _ => trivial

theorem ensureOnly_safe
    (attributes : Attributes)
    (allowed : List (List UInt8)) :
    Scan.Safe (attributes.ensureOnly allowed) := by
  refine Scan.Meets.loop AttributeIterator.Within AttributeIterator.left
    ?_ (Nat.zero_le _) (by dsimp only [AttributeIterator.left]; omega)
  intro iterator within
  refine Scan.Meets.bind (AttributeIterator.next_meets within) ?_
  intro found forward
  cases found with
  | none => exact trivial
  | some found => exact Scan.Meets.bind (Scan.Meets.reject _) fun _ _ => forward

end Attributes

/-! ## Values -/

/-- The value of a digit in a base. -/
def charToDigit (base : Nat) (byte : UInt8) : Option Nat :=
  let value :=
    if 0x30 ≤ byte && byte ≤ 0x39 then byte.toNat - 0x30
    else if 0x41 ≤ byte && byte ≤ 0x5a then byte.toNat - 0x41 + 10
    else if 0x61 ≤ byte && byte ≤ 0x7a then byte.toNat - 0x61 + 10
    else base
  if value < base then some value else none

/-- The number that digits stand for.  Underscores between them are passed
over. -/
def digitsValue (base : Nat) (digits : List UInt8) : Option Nat :=
  if digits.head? = some 0x5f ∨ digits.getLast? = some 0x5f then none
  else
    digits.foldlM
      (fun value byte =>
        if byte = 0x5f then some value
        else (charToDigit base byte).map (value * base + ·))
      0

/-- The base that a number names, ten by default, and its digits. -/
def numberBase (text : List UInt8) : Nat × List UInt8 :=
  match text with
  | 0x30 :: letter :: digit :: rest =>
      if letter = 0x62 ∨ letter = 0x42 then (2, digit :: rest)
      else if letter = 0x6f ∨ letter = 0x4f then (8, digit :: rest)
      else if letter = 0x78 ∨ letter = 0x58 then (16, digit :: rest)
      else (10, text)
  | _ => (10, text)

/-- The magnitude of a number without its sign. -/
def magnitude (text : List UInt8) : Option Nat :=
  match text with
  | [] => none
  | text => digitsValue (numberBase text).1 (numberBase text).2

/-- A number between two bounds. -/
def parseInt (lowest highest : Int) (text : List UInt8) : Option Int :=
  let value : Option Int :=
    match text with
    | 0x2b :: rest => (magnitude rest).map fun value => (value : Int)
    | 0x2d :: rest => (magnitude rest).map fun value => -(value : Int)
    | text => (magnitude text).map fun value => (value : Int)
  value.filter fun value => lowest ≤ value ∧ value ≤ highest

namespace Attributes

/-- A number that may be missing. -/
def optionalUnsigned
    (attributes : Attributes)
    (name : List UInt8) : Scan Error (Option Nat) := do
  match ← attributes.optional name with
  | none => return none
  | some value =>
      let number ← Scan.require (parseInt 0 (2 ^ 32 - 1) value) .invalidInteger
      return some number.toNat

/-- A number that has to be there. -/
def requiredUnsigned
    (attributes : Attributes)
    (name : List UInt8) : Scan Error Nat := do
  Scan.require (← attributes.optionalUnsigned name) .missingAttribute

/-- An integer that has to be there. -/
def requiredInteger
    (attributes : Attributes)
    (name : List UInt8) : Scan Error Int := do
  Scan.require (parseInt (-2 ^ 63) (2 ^ 63 - 1) (← attributes.required name))
    .invalidInteger

/-- A truth value that may be missing. -/
def optionalBoolean
    (attributes : Attributes)
    (name : List UInt8) : Scan Error (Option Bool) := do
  match ← attributes.optional name with
  | none => return none
  | some value =>
      if value = bytesOf "true" then return some true
      else if value = bytesOf "false" then return some false
      else Scan.fail .invalidBoolean

theorem optionalUnsigned_safe
    (attributes : Attributes)
    (name : List UInt8) :
    Scan.Safe (attributes.optionalUnsigned name) := by
  refine Scan.Meets.bind (attributes.optional_safe name) ?_
  intro value _
  cases value with
  | none => exact trivial
  | some value => exact Scan.Meets.bind (Scan.Meets.require _) fun _ _ => trivial

theorem requiredUnsigned_safe
    (attributes : Attributes)
    (name : List UInt8) :
    Scan.Safe (attributes.requiredUnsigned name) :=
  Scan.Meets.bind (attributes.optionalUnsigned_safe name) fun _ _ =>
    (Scan.Meets.require _).mono fun _ _ => trivial

theorem requiredInteger_safe
    (attributes : Attributes)
    (name : List UInt8) :
    Scan.Safe (attributes.requiredInteger name) :=
  Scan.Meets.bind (attributes.required_safe name) fun _ _ =>
    (Scan.Meets.require _).mono fun _ _ => trivial

theorem optionalBoolean_safe
    (attributes : Attributes)
    (name : List UInt8) :
    Scan.Safe (attributes.optionalBoolean name) := by
  refine Scan.Meets.bind (attributes.optional_safe name) ?_
  intro value _
  cases value with
  | none => exact trivial
  | some value =>
      exact Scan.Meets.ite (fun _ => trivial) fun _ =>
        Scan.Meets.ite (fun _ => trivial) fun _ => trivial

end Attributes

/-! ## Tags -/

/-- How a tag is written. -/
inductive TagKind
  | start
  | close
  | empty
  deriving DecidableEq, Repr

/-- A tag and its attributes. -/
structure Tag where
  kind : TagKind
  name : List UInt8
  attributes : Attributes
  deriving DecidableEq, Repr

/-- A file, read up to a position. -/
structure Tokenizer where
  xml : List UInt8
  cursor : Nat := 0
  deriving DecidableEq, Repr

namespace Tokenizer

/-- The end of a tag, which a quoted value may not contain. -/
def tagEnd (xml : List UInt8) (start : Nat) : Scan Error (Nat × Option UInt8) :=
  Scan.loop
    (fun (stop, quote) =>
      if stop < xml.length then do
        let byte ← Scan.read xml stop
        match quote with
        | some delimiter =>
            return .inl (stop + 1, if byte = delimiter then none else some delimiter)
        | none =>
            if byte = 0x27 ∨ byte = 0x22 then return .inl (stop + 1, some byte)
            else if byte = 0x3e then return .inr (stop, none)
            else return .inl (stop + 1, none)
      else return .inr (stop, quote))
    (xml.length + 1) (start, none)

/-- A slash at the start of a tag closes an element, one at its end makes it
empty. -/
def tagKind (body : List UInt8) : Scan Error (TagKind × List UInt8) := do
  let slash (index : Nat) : Scan Error Bool :=
    if 0 < body.length then return (← Scan.read body index) == 0x2f
    else return false
  if ← slash 0 then
    return (.close, trimStart (← Scan.slice body 1 body.length))
  if ← slash (body.length - 1) then
    return (.empty, trimEnd (← Scan.slice body 0 (body.length - 1)))
  return (.start, body)

/-- Read what stands between the brackets of a tag. -/
def readTag (inner : List UInt8) : Scan Error Tag := do
  let (kind, body) ← tagKind (trimEnd (trimStart inner))
  let nameEnd := (body.findIdx? isSeparator).getD body.length
  Scan.reject (nameEnd = 0) .malformedXml
  let name ← Scan.slice body 0 nameEnd
  let attributes := trimStart (← Scan.slice body nameEnd body.length)
  Scan.reject (kind = .close && !attributes.isEmpty) .malformedXml
  return { kind, name, attributes := { raw := attributes } }

/-- Go behind the next occurrence of a word. -/
def skipPast
    (xml : List UInt8)
    (start : Nat)
    (word : List UInt8) : Scan Error Nat := do
  let stop ←
    Scan.require (indexOf word (← Scan.slice xml start xml.length)) .malformedXml
  return start + stop + word.length

/-- The next tag, if there is one. -/
def next
    (tokenizer : Tokenizer) : Scan Error (Option Tag × Tokenizer) :=
  let xml := tokenizer.xml
  Scan.loop
    (fun cursor => do
      let rest ← Scan.slice xml cursor xml.length
      match rest.idxOf? 0x3c with
      | none => return .inr (none, { xml, cursor := xml.length })
      | some relative =>
          let start := cursor + relative
          let markup ← Scan.slice xml start xml.length
          if bytesOf "<!--" <+: markup then
            return .inl (← skipPast xml (start + 4) (bytesOf "-->"))
          if bytesOf "<?" <+: markup then
            return .inl (← skipPast xml (start + 2) (bytesOf "?>"))
          Scan.reject (bytesOf "<!" <+: markup) .malformedXml
          let (stop, quote) ← tagEnd xml (start + 1)
          Scan.reject (stop = xml.length || quote.isSome) .malformedXml
          let tag ← readTag (← Scan.slice xml (start + 1) stop)
          return .inr (some tag, { xml, cursor := stop + 1 }))
    (xml.length + 1) tokenizer.cursor

/-! ### Reading tags is safe -/

/-- A tag ends inside the file. -/
theorem tagEnd_meets
    {xml : List UInt8}
    {start : Nat}
    (inside : start ≤ xml.length) :
    Scan.Meets (tagEnd xml start) fun outcome =>
      start ≤ outcome.1 ∧ outcome.1 ≤ xml.length := by
  refine Scan.Meets.loop (fun state => start ≤ state.1 ∧ state.1 ≤ xml.length)
    (fun state => xml.length - state.1) ?_ ⟨Nat.le_refl _, inside⟩ (by omega)
  rintro ⟨stop, quote⟩ ⟨reached, bounded⟩
  dsimp only at reached bounded
  refine Scan.Meets.ite ?_ fun _ => Scan.Meets.pure ⟨reached, bounded⟩
  intro more
  have forward : (start ≤ stop + 1 ∧ stop + 1 ≤ xml.length) ∧
      xml.length - (stop + 1) < xml.length - stop := by omega
  refine Scan.Meets.bind (Scan.Meets.read more) ?_
  intro byte _
  cases quote with
  | some delimiter => exact Scan.Meets.pure forward
  | none =>
      exact Scan.Meets.ite (fun _ => Scan.Meets.pure forward) fun _ =>
        Scan.Meets.ite (fun _ => Scan.Meets.pure ⟨reached, bounded⟩) fun _ =>
          Scan.Meets.pure forward

theorem tagKind_safe (body : List UInt8) : Scan.Safe (tagKind body) := by
  have slash : ∀ index, (0 < body.length → index < body.length) →
      Scan.Meets
        (if 0 < body.length then do return (← Scan.read body index) == 0x2f
        else return false : Scan Error Bool)
        fun found => found = true → 0 < body.length := by
    intro index inside
    refine Scan.Meets.ite ?_ fun _ => Scan.Meets.pure (by simp)
    intro nonempty
    exact Scan.Meets.bind (Scan.Meets.read (inside nonempty)) fun _ _ =>
      Scan.Meets.pure fun _ => nonempty
  refine Scan.Meets.bind (slash 0 id) ?_
  intro first nonempty
  refine Scan.Meets.ite ?_ fun _ => ?_
  · intro isFirst
    exact Scan.Meets.bind
      (Scan.Meets.slice (nonempty isFirst) (Nat.le_refl _)) fun _ _ => trivial
  · refine Scan.Meets.bind (slash (body.length - 1) (by omega)) ?_
    intro last nonempty
    refine Scan.Meets.ite (fun isLast => ?_) fun _ => trivial
    exact Scan.Meets.bind
      (Scan.Meets.slice (Nat.zero_le _) (Nat.sub_le _ _)) fun _ _ => trivial

theorem readTag_safe (inner : List UInt8) : Scan.Safe (readTag inner) := by
  refine Scan.Meets.bind (tagKind_safe _) ?_
  rintro ⟨kind, body⟩ _
  have bounded : (body.findIdx? isSeparator).getD body.length ≤ body.length := by
    cases found : body.findIdx? isSeparator with
    | none => exact Nat.le_refl _
    | some index => exact (List.findIdx?_eq_some_iff_getElem.mp found).1.le
  refine Scan.Meets.bind (Scan.Meets.reject _) fun _ _ => ?_
  refine Scan.Meets.bind (Scan.Meets.slice (Nat.zero_le _) bounded) fun _ _ => ?_
  refine Scan.Meets.bind (Scan.Meets.slice bounded (Nat.le_refl _)) fun _ _ => ?_
  exact Scan.Meets.bind (Scan.Meets.reject _) fun _ _ => trivial

/-- A word that is found is inside the text. -/
theorem indexOf_bounded
    (word : List UInt8)
    {text : List UInt8}
    (found : indexOf word text = some index) :
    index + word.length ≤ text.length := by
  induction text generalizing index with
  | nil =>
      rw [indexOf] at found
      split at found
      · next empty =>
          rw [empty]
          simpa using found.symm
      · cases found
  | cons byte rest inductionHypothesis =>
      rw [indexOf] at found
      split at found
      · next begins =>
          rw [← Option.some.inj found, Nat.zero_add]
          exact (List.isPrefixOf_iff_prefix.mp begins).length_le
      · cases later : indexOf word rest with
        | none =>
            rw [later] at found
            cases found
        | some position =>
            rw [later] at found
            have bounded := inductionHypothesis later
            rw [← Option.some.inj found, List.length_cons]
            dsimp only
            omega

/-- Skipping stays inside the file. -/
theorem skipPast_meets
    {xml word : List UInt8}
    {start : Nat}
    (inside : start ≤ xml.length) :
    Scan.Meets (skipPast xml start word) fun stop =>
      start ≤ stop ∧ stop ≤ xml.length := by
  refine Scan.Meets.bind (Scan.Meets.slice inside (Nat.le_refl _)) ?_
  rintro _ rfl
  refine Scan.Meets.bind (Scan.Meets.require _) ?_
  intro stop found
  have bounded := indexOf_bounded word found
  rw [List.length_drop, List.take_length] at bounded
  exact Scan.Meets.pure (by omega)

/-- Reading a tag goes forward inside the file. -/
theorem next_meets
    {tokenizer : Tokenizer}
    (inside : tokenizer.cursor ≤ tokenizer.xml.length) :
    Scan.Meets tokenizer.next fun
      | (none, _) => True
      | (some _, next) => next.xml = tokenizer.xml ∧
          tokenizer.cursor < next.cursor ∧ next.cursor ≤ tokenizer.xml.length := by
  refine Scan.Meets.loop
    (fun cursor => tokenizer.cursor ≤ cursor ∧ cursor ≤ tokenizer.xml.length)
    (fun cursor => tokenizer.xml.length - cursor) ?_
    ⟨Nat.le_refl _, inside⟩ (by omega)
  rintro cursor ⟨reached, bounded⟩
  refine Scan.Meets.bind (Scan.Meets.slice bounded (Nat.le_refl _)) ?_
  rintro rest restIs
  cases found : rest.idxOf? 0x3c with
  | none => exact trivial
  | some relative =>
      have opens : cursor + relative < tokenizer.xml.length := by
        obtain ⟨within, -⟩ := List.idxOf?_eq_some_iff.mp found
        rw [restIs, List.length_drop, List.take_length] at within
        omega
      refine Scan.Meets.bind (Scan.Meets.slice opens.le (Nat.le_refl _)) ?_
      rintro markup markupIs
      have behind : ∀ word : List UInt8, word <+: markup →
          cursor + relative + word.length ≤ tokenizer.xml.length := by
        intro word begins
        have bound := begins.length_le
        rw [markupIs, List.length_drop, List.take_length] at bound
        omega
      refine Scan.Meets.ite ?_ fun _ => ?_
      · intro comment
        have bound := behind _ comment
        rw [show (bytesOf "<!--").length = 4 by decide +kernel] at bound
        refine Scan.Meets.bind (skipPast_meets bound) ?_
        rintro stop ⟨forward, stopInside⟩
        exact Scan.Meets.pure (by omega)
      refine Scan.Meets.ite ?_ fun _ => ?_
      · intro instruction
        have bound := behind _ instruction
        rw [show (bytesOf "<?").length = 2 by decide +kernel] at bound
        refine Scan.Meets.bind (skipPast_meets bound) ?_
        rintro stop ⟨forward, stopInside⟩
        exact Scan.Meets.pure (by omega)
      refine Scan.Meets.bind (Scan.Meets.reject _) fun _ _ => ?_
      refine Scan.Meets.bind (tagEnd_meets opens) ?_
      rintro ⟨stop, quote⟩ ⟨forward, stopInside⟩
      refine Scan.Meets.bind (Scan.Meets.reject _) fun _ ended => ?_
      have before : stop < tokenizer.xml.length := by
        have notAtEnd : stop ≠ tokenizer.xml.length := by
          intro atEnd
          rw [atEnd] at ended
          simp at ended
        dsimp only at stopInside
        omega
      refine Scan.Meets.bind (Scan.Meets.slice forward stopInside) fun inner _ => ?_
      refine Scan.Meets.bind (readTag_safe inner) fun tag _ => ?_
      dsimp only at forward
      exact Scan.Meets.pure ⟨rfl, by dsimp only; omega, before⟩

end Tokenizer

end Scanner
end Wayring
