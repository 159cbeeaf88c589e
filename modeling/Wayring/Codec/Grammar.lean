import Wayring.Codec.Signature
import Wayring.Foundation.Reading

/-!
# The wire grammar

The bytes of a message are its arguments, one behind the other.  Decoding
reads exactly these bytes.
-/

namespace Wayring
namespace Codec

open Reading (Reads)
open Wire (Arguments)

/-! ## Words, strings, and arrays -/

section Grammar

variable [Native]

/-- Four bytes in the byte order of the machine. -/
def Word (value : UInt32) (bytes : List UInt8) : Prop :=
  bytes.length = 4 ∧ UInt32.ofNat (Wire.readU32 bytes) = value

/-- Bytes behind an item of some length, up to a whole number of words. -/
def Padding (length : Nat) (bytes : List UInt8) : Prop :=
  bytes.length < 4 ∧ (length + bytes.length) % 4 = 0

/-- A string without a NUL of its own, or none. -/
inductive StringText : Option (List UInt8) → List UInt8 → Prop
  | null
      {word : List UInt8}
      (empty : Word 0 word) : StringText none word
  | text
      {length : UInt32} {word text padding : List UInt8}
      (prefixed : Word length word)
      (counts : length.toNat = text.length + 1)
      (plain : 0 ∉ text)
      (padded : Padding (text.length + 1) padding) :
      StringText (some text) (word ++ (text ++ 0 :: padding))

/-- An array is its length, its items and its padding. -/
inductive ArrayText : List UInt8 → List UInt8 → Prop
  | array
      {length : UInt32} {word items padding : List UInt8}
      (prefixed : Word length word)
      (counts : length.toNat = items.length)
      (padded : Padding items.length padding) :
      ArrayText items (word ++ (items ++ padding))

/-- An ID that is not null. -/
def IdText (id : UInt32) (bytes : List UInt8) : Prop :=
  id ≠ 0 ∧ Word id bytes

/-! ## Arguments -/

/-- Some bytes are an argument of a type. -/
def Denotes : (type : ArgumentType) → type.Read → List UInt8 → Prop
  | .int, value, bytes => Word (value : Int32).toUInt32 bytes
  | .uint, value, bytes => Word value bytes
  | .fixed, value, bytes => Word (value : Int32).toUInt32 bytes
  | .enumeration true, value, bytes => Word (value : Int32).toUInt32 bytes
  | .enumeration false, value, bytes => Word value bytes
  | .string true, value, bytes => StringText value bytes
  | .string false, value, bytes => StringText (some value) bytes
  | .object _ true, value, bytes =>
      match (value : Option UInt32) with
      | none => Word 0 bytes
      | some id => IdText id bytes
  | .object _ false, value, bytes => IdText value bytes
  | .newId _, value, bytes => IdText value bytes
  | .dynamicNewId, value, bytes =>
      let value : DynamicNewId := value
      ∃ interface version id, bytes = interface ++ (version ++ id) ∧
        StringText (some value.interface) interface ∧
        Word value.version version ∧ IdText value.id id
  | .array true, value, bytes =>
      match (value : Option (List UInt8)) with
      | none => ArrayText [] bytes
      | some items => items ≠ [] ∧ ArrayText items bytes
  | .array false, value, bytes => ArrayText value bytes
  | .fd, _, bytes => bytes = []

/-- Some bytes are the arguments of a signature, one behind the other. -/
def Spells : (signature : Signature) → Decoded signature → List UInt8 → Prop
  | [], _, bytes => bytes = []
  | type :: rest, values, bytes =>
      ∃ argument later, bytes = argument ++ later ∧
        Denotes type values.1 argument ∧ Spells rest values.2 later

/-! ## Readers -/

omit [Native] in
theorem remaining_injective :
    Function.Injective Arguments.remaining := by
  intro first second same
  cases first
  cases second
  exact congrArg Arguments.mk same

omit [Native] in
theorem remaining_surjective :
    Function.Surjective Arguments.remaining :=
  fun bytes => ⟨⟨bytes⟩, rfl⟩

omit [Native] in
/-- Reading nothing behind an item changes its value only. -/
theorem reads_value
    {α : Type}
    (result : α) :
    Reads Arguments.remaining
      (fun arguments => (.ok (result, arguments) : Except Error (α × Arguments)))
      fun value front => value = result ∧ front = [] :=
  .pure remaining_injective result

omit [Native] in
/-- Taking bytes reads just these. -/
theorem take_reads
    (length : Nat) :
    Reads Arguments.remaining (fun arguments => arguments.take length)
      fun value bytes => bytes = value ∧ value.length = length := by
  intro arguments value rest
  simp only [Arguments.take]
  constructor
  · intro read
    split_ifs at read with short
    cases read
    refine ⟨_, (List.take_append_drop length _).symm, rfl, ?_⟩
    rw [List.length_take]
    omega
  · rintro ⟨bytes, split, rfl, exact⟩
    rw [split, List.length_append, if_neg (by omega)]
    simp [← exact]

/-- An unsigned argument is a word. -/
theorem uint_reads :
    Reads Arguments.remaining Arguments.uint Word := by
  refine ((take_reads 4).bind remaining_surjective fun bytes =>
    reads_value (UInt32.ofNat (Wire.readU32 bytes))).congr fun value front => ?_
  constructor
  · rintro ⟨bytes, early, late, rfl, ⟨rfl, exact⟩, rfl, rfl⟩
    rw [List.append_nil]
    exact ⟨exact, rfl⟩
  · rintro ⟨exact, rfl⟩
    exact ⟨front, front, [], (List.append_nil _).symm, ⟨rfl, exact⟩, rfl, rfl⟩

/-- A word is read as a value of its own. -/
theorem word_reads
    {α : Type}
    (interpret : UInt32 → α) :
    Reads Arguments.remaining
      (fun arguments => do
        let (value, arguments) ← arguments.uint
        (.ok (interpret value, arguments) : Except Error (α × Arguments)))
      fun value bytes => ∃ word, value = interpret word ∧ Word word bytes := by
  refine (uint_reads.bind remaining_surjective fun word =>
    reads_value (interpret word)).congr fun value front => ?_
  constructor
  · rintro ⟨word, early, late, rfl, spelled, rfl, rfl⟩
    rw [List.append_nil]
    exact ⟨word, rfl, spelled⟩
  · rintro ⟨word, rfl, spelled⟩
    exact ⟨word, front, [], (List.append_nil _).symm, spelled, rfl, rfl⟩

/-- A signed argument is a word. -/
theorem int_reads :
    Reads Arguments.remaining Arguments.int
      fun value bytes => Word value.toUInt32 bytes := by
  refine (word_reads UInt32.toInt32).congr fun value front => ?_
  constructor
  · rintro ⟨word, rfl, spelled⟩
    exact spelled
  · intro spelled
    exact ⟨_, rfl, spelled⟩

/-- An ID is a word that is not zero. -/
theorem requiredId_reads :
    Reads Arguments.remaining requiredId IdText := by
  refine (uint_reads.bind remaining_surjective fun id =>
    (reads_value id).guard (id = 0) Error.nullObject).congr fun value front => ?_
  constructor
  · rintro ⟨id, early, late, rfl, spelled, present, rfl, rfl⟩
    rw [List.append_nil]
    exact ⟨present, spelled⟩
  · rintro ⟨present, spelled⟩
    exact ⟨value, front, [], (List.append_nil _).symm, spelled, present, rfl,
      rfl⟩

omit [Native] in
/-- The bytes that an item and its padding take. -/
theorem length_padded_iff
    {length : Nat} {bytes : List UInt8} :
    bytes.length = Arguments.padded length ↔
      ∃ items padding, bytes = items ++ padding ∧ items.length = length ∧
        Padding length padding := by
  unfold Arguments.padded Padding
  constructor
  · intro whole
    refine ⟨bytes.take length, bytes.drop length,
      (List.take_append_drop _ _).symm, ?_, ?_, ?_⟩
    · rw [List.length_take]
      omega
    · rw [List.length_drop]
      omega
    · rw [List.length_drop]
      omega
  · rintro ⟨items, padding, rfl, rfl, short, aligned⟩
    rw [List.length_append]
    omega

omit [Native] in
/-- The bytes of a string are its text and a NUL. -/
theorem terminated_iff
    {value text : List UInt8} :
    (¬(value.getLast? ≠ some 0 ∨
        (value.take (value.length - 1)).contains 0) ∧
      text = value.take (value.length - 1)) ↔
      value = text ++ [0] ∧ 0 ∉ text := by
  rw [← List.dropLast_eq_take]
  constructor
  · rintro ⟨sound, rfl⟩
    simp only [not_or, not_not, List.contains_eq_mem, decide_eq_true_eq]
      at sound
    refine ⟨?_, sound.2⟩
    exact (List.dropLast_append_getLast? 0 sound.1).symm
  · rintro ⟨rfl, plain⟩
    simp [plain]

/-- An array is read from its text. -/
theorem array_reads :
    Reads Arguments.remaining Arguments.array ArrayText := by
  refine (uint_reads.bind remaining_surjective fun length =>
    (take_reads (Arguments.padded length.toNat)).bind remaining_surjective
      fun bytes => reads_value (bytes.take length.toNat)).congr
    fun value front => ?_
  constructor
  · rintro ⟨length, word, late, rfl, prefixed, bytes, _, _, rfl,
      ⟨rfl, whole⟩, rfl, rfl⟩
    obtain ⟨items, padding, rfl, counts, padded⟩ := length_padded_iff.mp whole
    rw [List.append_nil, ← counts, List.take_left]
    exact .array prefixed counts.symm (counts ▸ padded)
  · rintro ⟨prefixed, counts, padded⟩
    refine ⟨_, _, _, rfl, prefixed, _, _, [], (List.append_nil _).symm,
      ⟨rfl, length_padded_iff.mpr ⟨_, _, rfl, counts.symm, ?_⟩⟩, ?_, rfl⟩
    · rw [counts]
      exact padded
    · rw [counts, List.take_left]

/-- A string is read from its text. -/
theorem string_reads :
    Reads Arguments.remaining Arguments.string StringText := by
  refine (uint_reads.bind remaining_surjective fun length =>
    Reads.branch (length.toNat = 0) (reads_value none)
      ((take_reads (Arguments.padded length.toNat)).bind remaining_surjective
        fun bytes =>
          let value := bytes.take length.toNat
          let stringBytes := value.take (length.toNat - 1)
          (reads_value (some stringBytes)).guard
            (value.getLast? ≠ some 0 ∨ stringBytes.contains 0)
            Error.invalidString)).congr
    fun value front => ?_
  constructor
  · rintro ⟨length, word, late, rfl, prefixed, read⟩
    split_ifs at read with empty
    · obtain ⟨rfl, rfl⟩ := read
      have zero : length = 0 := UInt32.toNat_inj.mp empty
      rw [List.append_nil]
      exact .null (zero ▸ prefixed)
    · obtain ⟨bytes, _, _, rfl, ⟨rfl, whole⟩, sound, rfl, rfl⟩ := read
      obtain ⟨items, padding, rfl, counts, padded⟩ :=
        length_padded_iff.mp whole
      rw [← counts, List.take_left] at sound ⊢
      obtain ⟨same, plain⟩ := terminated_iff.mp ⟨sound, rfl⟩
      generalize items.take (items.length - 1) = text at same plain ⊢
      subst same
      rw [List.length_append, List.length_singleton] at counts
      rw [List.append_nil, List.append_assoc]
      exact .text prefixed counts.symm plain (counts ▸ padded)
  · intro spelled
    cases spelled with
    | null empty =>
        exact ⟨0, front, [], (List.append_nil _).symm, empty, rfl, rfl⟩
    | @text length word text padding prefixed counts plain padded =>
        refine ⟨length, word, text ++ 0 :: padding, rfl, prefixed, ?_⟩
        rw [if_neg (by omega)]
        have split : text ++ 0 :: padding = (text ++ [0]) ++ padding := by simp
        have taken : (text ++ 0 :: padding).take length.toNat =
            text ++ [0] := by
          rw [split, counts, List.take_left' (by simp)]
        obtain ⟨sound, same⟩ :=
          (@terminated_iff (text ++ [0]) text).mpr ⟨rfl, plain⟩
        rw [List.length_append, List.length_singleton, ← counts, ← taken]
          at sound same
        exact ⟨_, _, [], (List.append_nil _).symm,
          ⟨rfl, length_padded_iff.mpr ⟨_, _, split, by simp [counts],
            counts ▸ padded⟩⟩, sound, congrArg some same, rfl⟩

/-- A string that may not be null is read from its text. -/
theorem requiredString_reads :
    Reads Arguments.remaining requiredString
      fun value bytes => StringText (some value) bytes := by
  intro arguments value rest
  have string := string_reads arguments (some value) rest
  rw [← string, requiredString]
  cases arguments.string with
  | error cause => simp [Bind.bind, Except.bind]
  | ok answer =>
      obtain ⟨text, arguments⟩ := answer
      cases text <;> simp [Bind.bind, Except.bind]

/-- An argument is read as what its bytes denote. -/
theorem decodeField_reads
    (type : ArgumentType) :
    Reads Arguments.remaining (decodeField type) (Denotes type) := by
  cases type with
  | int => exact int_reads
  | uint => exact uint_reads
  | fixed => exact int_reads
  | enumeration signed =>
      cases signed with
      | false => exact uint_reads
      | true => exact int_reads
  | string allowNull =>
      cases allowNull with
      | false => exact requiredString_reads
      | true => exact string_reads
  | object interface allowNull =>
      cases allowNull with
      | false => exact requiredId_reads
      | true =>
          refine (word_reads fun id => if id = 0 then none else some id).congr
            fun value front => ?_
          constructor
          · rintro ⟨id, rfl, spelled⟩
            split_ifs with empty
            · subst empty
              exact spelled
            · exact ⟨empty, spelled⟩
          · intro spelled
            change Option UInt32 at value
            cases value with
            | none => exact ⟨0, rfl, spelled⟩
            | some id => exact ⟨id, (if_neg spelled.1).symm, spelled.2⟩
  | newId interface => exact requiredId_reads
  | dynamicNewId =>
      refine (requiredString_reads.bind remaining_surjective fun interface =>
        uint_reads.bind remaining_surjective fun version =>
          requiredId_reads.bind remaining_surjective fun id =>
            reads_value ({ interface, version, id } : DynamicNewId)).congr
        fun value front => ?_
      constructor
      · rintro ⟨interface, name, _, rfl, named, version, word, _, rfl,
          versioned, id, last, _, rfl, identified, rfl, rfl⟩
        rw [List.append_nil]
        exact ⟨name, word, last, rfl, named, versioned, identified⟩
      · rintro ⟨name, word, last, rfl, named, versioned, identified⟩
        exact ⟨_, name, _, rfl, named, _, word, _, rfl, versioned, _, last, [],
          (List.append_nil _).symm, identified, rfl, rfl⟩
  | array allowNull =>
      cases allowNull with
      | false => exact array_reads
      | true =>
          refine (array_reads.bind remaining_surjective fun items =>
            reads_value (if items = [] then none else some items)).congr
            fun value front => ?_
          constructor
          · rintro ⟨items, early, late, rfl, spelled, rfl, rfl⟩
            rw [List.append_nil]
            split_ifs with empty
            · subst empty
              exact spelled
            · exact ⟨empty, spelled⟩
          · intro spelled
            change Option (List UInt8) at value
            cases value with
            | none =>
                exact ⟨[], front, [], (List.append_nil _).symm, spelled, rfl,
                  rfl⟩
            | some items =>
                exact ⟨items, front, [], (List.append_nil _).symm, spelled.2,
                  (if_neg spelled.1).symm, rfl⟩
  | fd =>
      refine (reads_value ()).congr fun value front => ?_
      exact ⟨fun both => both.2, fun empty => ⟨rfl, empty⟩⟩

/-- Arguments are read from what spells them. -/
theorem decodeFields_reads
    (signature : Signature) :
    Reads Arguments.remaining (decodeFields signature) (Spells signature) := by
  induction signature with
  | nil =>
      refine (reads_value ()).congr fun value front => ?_
      exact ⟨fun both => both.2, fun empty => ⟨rfl, empty⟩⟩
  | cons type rest decode_ih =>
      refine ((decodeField_reads type).bind remaining_surjective fun value =>
        decode_ih.bind remaining_surjective fun values =>
          reads_value ((value, values) : Decoded (type :: rest))).congr
        fun values front => ?_
      constructor
      · rintro ⟨value, argument, _, rfl, spelled, values, later, _, rfl,
          spelledLater, rfl, rfl⟩
        rw [List.append_nil]
        exact ⟨argument, later, rfl, spelled, spelledLater⟩
      · rintro ⟨argument, later, rfl, spelled, spelledLater⟩
        exact ⟨_, argument, _, rfl, spelled, _, later, [],
          (List.append_nil _).symm, spelledLater, rfl, rfl⟩

/-- Reading succeeds on whole messages that pass the checks. -/
theorem read_eq_ok_iff
    {signature : Signature} {validation : Validation} {bytes : List UInt8}
    {values : Decoded signature} :
    read signature validation bytes = .ok values ↔
      ∃ spelled, Spells signature spelled bytes ∧
        validateFields validation signature spelled = .ok values := by
  have reads := decodeFields_reads signature { remaining := bytes }
  constructor
  · intro result
    cases decoded : decodeFields signature { remaining := bytes } with
    | error cause =>
        simp [read, decoded, Bind.bind, Except.bind] at result
    | ok answer =>
        obtain ⟨spelled, rest⟩ := answer
        obtain ⟨front, split, inGrammar⟩ := (reads _ _).mp decoded
        by_cases trailing : rest.remaining.length ≠ 0
        · simp [read, decoded, Arguments.finish, trailing, Bind.bind,
            Except.bind] at result
        · rw [not_not, List.length_eq_zero_iff] at trailing
          rw [trailing, List.append_nil] at split
          subst split
          refine ⟨spelled, inGrammar, ?_⟩
          simpa [read, decoded, Arguments.finish, trailing, Bind.bind,
            Except.bind] using result
  · rintro ⟨spelled, inGrammar, accepted⟩
    have decoded := (reads spelled { remaining := [] }).mpr
      ⟨bytes, (List.append_nil _).symm, inGrammar⟩
    simp [read, decoded, Arguments.finish, accepted, Bind.bind, Except.bind]

end Grammar

end Codec
end Wayring
