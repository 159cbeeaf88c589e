import Wayring.Codec.Acceptance
import Wayring.Codec.Preflight
import Wayring.Transport.Words

/-!
# Frames

What the encoder writes is spelled as the grammar says, behind a header that a
framer takes off.  Null and empty are told apart by the encoder only.
-/

namespace Wayring
namespace Codec

/-- What a decoder makes of an argument.  An object with ID zero and an empty
array are null where null is allowed. -/
def ArgumentType.canonical : (type : ArgumentType) → type.Field → type.Field
  | .object _ true, value =>
      (value : Option UInt32).bind fun id => if id = 0 then none else some id
  | .array true, value =>
      (value : Option (List UInt8)).bind fun items =>
        if items = [] then none else some items
  | .int, value => value
  | .uint, value => value
  | .fixed, value => value
  | .enumeration _, value => value
  | .string _, value => value
  | .object _ false, value => value
  | .newId _, value => value
  | .dynamicNewId, value => value
  | .array false, value => value
  | .fd, value => value

/-- What a decoder makes of a payload. -/
def Payload.canonical :
    (signature : Signature) → Payload signature → Payload signature
  | [], _ => ()
  | type :: rest, payload =>
      (type.canonical payload.1, canonical rest payload.2)

/-- Descriptors are decoded as they were encoded. -/
theorem Payload.fds_canonical
    (signature : Signature) (payload : Payload signature) :
    Payload.fds signature (Payload.canonical signature payload) =
      Payload.fds signature payload := by
  induction signature with
  | nil => rfl
  | cons type rest fds_ih =>
      cases type with
      | fd => exact congrArg (List.cons _) (fds_ih payload.2)
      | _ => exact fds_ih payload.2

/-! ## Written arguments -/

section Writing

variable [Native]

/-- A word that is written is read again. -/
theorem readU32_writeU32
    {value : Nat}
    (fits : value < 2 ^ 32)
    (rest : List UInt8) :
    Wire.readU32 (Wire.writeU32 value ++ rest) = value := by
  unfold Wire.readU32
  rw [List.take_left' (length_word value)]
  exact Wire.readWord_writeWord (fits.trans_le (by norm_num))

/-- A written number is a word. -/
theorem word_writeU32 (value : UInt32) :
    Word value (writeU32 value).flatten := by
  refine ⟨length_writeU32 value, ?_⟩
  have read := readU32_writeU32 value.toNat_lt []
  rw [List.append_nil] at read
  rw [writeU32, List.flatten_singleton, read]
  exact UInt32.ofNat_toNat

omit [Native] in
/-- The filler behind an item of some length. -/
theorem padding_replicate (length : Nat) :
    Padding length (List.replicate ((4 - length % 4) % 4) 0) := by
  unfold Padding
  rw [List.length_replicate]
  omega

/-- A written string is the text of a string. -/
theorem stringText_writeString
    {bytes : List UInt8}
    (plain : 0 ∉ bytes)
    (fits : bytes.length + 1 < 2 ^ 32) :
    StringText (some bytes) (writeString (some bytes)).flatten := by
  have written : (writeString (some bytes)).flatten =
      (writeU32 (UInt32.ofNat (bytes.length + 1))).flatten ++
        (bytes ++ 0 :: List.replicate
          ((4 - (bytes.length + 1) % 4) % 4) 0) := by
    simp only [writeString, List.flatten_append, List.flatten_cons,
      List.flatten_nil, List.append_nil, Nat.add_comm 1, List.replicate_succ]
  rw [written]
  exact .text (word_writeU32 _) (UInt32.toNat_ofNat_of_lt fits) plain
    (padding_replicate _)

/-- A written array is the text of an array. -/
theorem arrayText_writeArray
    {items : List UInt8}
    (fits : items.length < 2 ^ 32) :
    ArrayText items (writeArray (some items)).flatten := by
  have written : (writeArray (some items)).flatten =
      (writeU32 (UInt32.ofNat items.length)).flatten ++
        (items ++ List.replicate ((4 - items.length % 4) % 4) 0) := by
    simp only [writeArray, Option.getD_some, List.flatten_append,
      List.flatten_cons, List.flatten_nil, List.append_nil]
  rw [written]
  exact .array (word_writeU32 _) (UInt32.toNat_ofNat_of_lt fits)
    (padding_replicate _)

omit [Native] in
/-- A length that has a size fits its word. -/
theorem variableSize_fits
    {length terminator more : Nat}
    (sized : variableSize length terminator = .ok more) :
    length + terminator < 2 ^ 32 := by
  unfold variableSize addSize at sized
  by_cases wraps : length + terminator ≥ usizeLimit
  · simp [wraps, bind, Except.bind] at sized
  · by_cases large : length + terminator > maxU32
    · simp [wraps, large, bind, Except.bind] at sized
    · unfold maxU32 at large
      omega

omit [Native] in
/-- A string with a size has no zero and fits. -/
theorem stringSize_fits
    {size total : Nat} {bytes : List UInt8}
    (sized : stringSize size bytes = .ok total) :
    0 ∉ bytes ∧ bytes.length + 1 < 2 ^ 32 := by
  unfold stringSize at sized
  split_ifs at sized with inside
  cases more : variableSize bytes.length 1 with
  | error cause =>
      rw [more] at sized
      cases sized
  | ok _ => exact ⟨by simpa using inside, variableSize_fits more⟩

omit [Native] in
/-- An array with a size fits. -/
theorem arraySize_fits
    {size total : Nat} {bytes : List UInt8}
    (sized : arraySize size bytes = .ok total) :
    bytes.length < 2 ^ 32 := by
  unfold arraySize at sized
  cases more : variableSize bytes.length 0 with
  | error cause =>
      rw [more] at sized
      cases sized
  | ok _ => exact variableSize_fits more

omit [Native] in
/-- An ID with a size is not null. -/
theorem idSize_ne_zero
    {size total : Nat} {id : UInt32}
    (sized : idSize size id = .ok total) : id ≠ 0 := by
  unfold idSize at sized
  split_ifs at sized with null
  exact null

/-- An argument that has a size is written as what a decoder makes of it. -/
theorem denotes_encodeField
    {type : ArgumentType} {size total : Nat} {value : type.Field}
    (sized : fieldSize type size value = .ok total) :
    Denotes type (type.read (type.canonical value))
      (encodeField type value).flatten := by
  cases type with
  | int | uint | fixed => exact word_writeU32 _
  | enumeration signed => cases signed <;> exact word_writeU32 _
  | string allowNull =>
      cases allowNull with
      | false =>
          obtain ⟨plain, fits⟩ := stringSize_fits sized
          exact stringText_writeString plain fits
      | true =>
          change Option (List UInt8) at value
          cases value with
          | none => exact .null (word_writeU32 0)
          | some bytes =>
              obtain ⟨plain, fits⟩ := stringSize_fits sized
              exact stringText_writeString plain fits
  | object interface allowNull =>
      cases allowNull with
      | false => exact ⟨idSize_ne_zero sized, word_writeU32 _⟩
      | true =>
          change Option UInt32 at value
          cases value with
          | none => exact word_writeU32 0
          | some id =>
              by_cases null : id = 0
              · subst null
                exact word_writeU32 0
              · have kept : (ArgumentType.object interface true).canonical
                    (some id : Option UInt32) = (some id : Option UInt32) :=
                  if_neg null
                rw [kept]
                exact ⟨null, word_writeU32 id⟩
  | newId interface => exact ⟨idSize_ne_zero sized, word_writeU32 _⟩
  | dynamicNewId =>
      change DynamicNewId at value
      unfold fieldSize at sized
      simp only at sized
      split_ifs at sized with null
      cases named : stringSize size value.interface with
      | error cause =>
          rw [named] at sized
          cases sized
      | ok sizeNow =>
          obtain ⟨plain, fits⟩ := stringSize_fits named
          refine ⟨(writeString (some value.interface)).flatten,
            (writeU32 value.version).flatten, (writeU32 value.id).flatten, ?_,
            stringText_writeString plain fits, word_writeU32 _, null,
            word_writeU32 _⟩
          change (writeString (some value.interface) ++
            writeU32 value.version ++ writeU32 value.id).flatten = _
          rw [List.flatten_append, List.flatten_append, List.append_assoc]
  | array allowNull =>
      cases allowNull with
      | false => exact arrayText_writeArray (arraySize_fits sized)
      | true =>
          change Option (List UInt8) at value
          cases value with
          | none => exact @arrayText_writeArray _ [] (by decide)
          | some items =>
              have written := arrayText_writeArray (arraySize_fits sized)
              by_cases empty : items = []
              · subst empty
                exact written
              · have kept : (ArgumentType.array true).canonical
                    (some items : Option (List UInt8)) =
                      (some items : Option (List UInt8)) :=
                  if_neg empty
                rw [kept]
                exact ⟨empty, written⟩
  | fd => rfl

/-- Encoded arguments spell what they decode to. -/
theorem spells_encodeFields
    {signature : Signature} {size total : Nat} {payload : Payload signature}
    (sized : payloadSize signature size payload = .ok total) :
    Spells signature
      (Payload.decoded signature (Payload.canonical signature payload))
      (encodeFields signature payload).flatten := by
  induction signature generalizing size with
  | nil => rfl
  | cons type rest spells_ih =>
      unfold payloadSize at sized
      cases field : fieldSize type size payload.1 with
      | error cause =>
          rw [field] at sized
          cases sized
      | ok sizeNow =>
          rw [field] at sized
          exact ⟨_, _, List.flatten_append, denotes_encodeField field,
            spells_ih sized⟩

end Writing

/-! ## Frames -/

section Frames

variable [Native] {signature : Signature} {opcode size : Nat}
  {objectId : UInt32} {payload : Payload signature}
  {headerBytes : List UInt8}

/-- Strings are whole words. -/
theorem aligned_string
    {value : Option (List UInt8)} {bytes : List UInt8}
    (spelled : StringText value bytes) : bytes.length % 4 = 0 := by
  cases spelled with
  | null empty => rw [empty.1]
  | text prefixed _ _ padded =>
      have word := prefixed.1
      have whole := padded.2
      simp only [List.length_append, List.length_cons]
      omega

/-- Arrays are whole words. -/
theorem aligned_array
    {items bytes : List UInt8}
    (spelled : ArrayText items bytes) : bytes.length % 4 = 0 := by
  obtain ⟨prefixed, _, padded⟩ := spelled
  have word := prefixed.1
  have whole := padded.2
  simp only [List.length_append]
  omega

/-- Arguments are whole words. -/
theorem aligned_argument
    {type : ArgumentType} {value : type.Read} {bytes : List UInt8}
    (denotes : Denotes type value bytes) : bytes.length % 4 = 0 := by
  have word : ∀ {value : UInt32} {bytes : List UInt8},
      Word value bytes → bytes.length % 4 = 0 := fun spelled => by
    rw [spelled.1]
  cases type with
  | int | uint | fixed => exact word denotes
  | enumeration signed => cases signed <;> exact word denotes
  | string allowNull => cases allowNull <;> exact aligned_string denotes
  | object interface allowNull =>
      cases allowNull with
      | false => exact word denotes.2
      | true =>
          change Option UInt32 at value
          cases value with
          | none => exact word denotes
          | some id => exact word denotes.2
  | newId interface => exact word denotes.2
  | dynamicNewId =>
      obtain ⟨interface, version, id, rfl, named, versioned, identified⟩ :=
        denotes
      have early := aligned_string named
      have middle := word versioned
      have late := word identified.2
      simp only [List.length_append]
      omega
  | array allowNull =>
      cases allowNull with
      | false => exact aligned_array denotes
      | true =>
          change Option (List UInt8) at value
          cases value with
          | none => exact aligned_array denotes
          | some items => exact aligned_array denotes.2
  | fd =>
      rw [show bytes = [] from denotes]
      rfl

/-- Arguments are whole words. -/
theorem aligned_arguments
    {values : Decoded signature} {bytes : List UInt8}
    (spells : Spells signature values bytes) : bytes.length % 4 = 0 := by
  induction signature generalizing bytes with
  | nil =>
      rw [show bytes = [] from spells]
      rfl
  | cons type rest aligned_ih =>
      obtain ⟨argument, later, rfl, denotes, spelled⟩ := spells
      have early := aligned_argument denotes
      have late := aligned_ih spelled
      rw [List.length_append]
      omega

/-- A message with a size is whole words, which spell its arguments. -/
theorem messageSize_spells
    (sized : messageSize signature payload = .ok size) :
    size % 4 = 0 ∧
      Spells signature
        (Payload.decoded signature (Payload.canonical signature payload))
        (encodeFields signature payload).flatten := by
  have whole := (messageSize_eq sized).1
  unfold messageSize at sized
  cases inside : payloadSize signature Wire.headerLen payload with
  | error cause =>
      rw [inside] at sized
      cases sized
  | ok total =>
      have spells := spells_encodeFields inside
      have aligned := aligned_arguments spells
      refine ⟨?_, spells⟩
      rw [whole, Wire.headerLen]
      omega

/-- The header of a message with a size can be written. -/
theorem header_encode
    (sized : messageSize signature payload = .ok size)
    (opcode : Nat)
    (sender : objectId ≠ 0) :
    Wire.Header.encode { objectId := objectId.toNat, opcode, size } =
      .ok (Wire.writeU32 objectId.toNat ++
        Wire.writeU32 (size * 2 ^ 16 + opcode)) := by
  have whole := (messageSize_eq sized).1
  have nonzero : objectId.toNat ≠ 0 := fun zero =>
    sender (UInt32.toNat_inj.mp zero)
  rw [Wire.Header.encode, if_neg nonzero,
    if_neg (show ¬ size < Wire.headerLen by omega),
    if_neg (not_not.mpr (messageSize_spells sized).1)]

/-- A message that was written behind its header is read back. -/
theorem decode_written
    {id : Nat} {body : List UInt8}
    (nonzero : id ≠ 0)
    (idBelow : id < 2 ^ 32)
    (opcodeBelow : opcode < 2 ^ 16)
    (aligned : size % 4 = 0)
    (whole : size = Wire.headerLen + body.length)
    (within : size ≤ Wire.maxMessageLen)
    (rest : List UInt8) :
    Wire.Message.decode (Wire.writeU32 id ++
        (Wire.writeU32 (size * 2 ^ 16 + opcode) ++ (body ++ rest))) =
      .ok (some { header := { objectId := id, opcode, size }
                  payload := body }) := by
  unfold Wire.maxMessageLen at within
  unfold Wire.headerLen at whole
  have first := readU32_writeU32 idBelow
    (Wire.writeU32 (size * 2 ^ 16 + opcode) ++ (body ++ rest))
  have second := @readU32_writeU32 _ (size * 2 ^ 16 + opcode) (by omega)
    (body ++ rest)
  have behind : (Wire.writeU32 id ++ (Wire.writeU32 (size * 2 ^ 16 + opcode) ++
      (body ++ rest))).drop 4 =
        Wire.writeU32 (size * 2 ^ 16 + opcode) ++ (body ++ rest) :=
    List.drop_left' (length_word id)
  have high : (size * 2 ^ 16 + opcode) / 2 ^ 16 = size := by omega
  have low : (size * 2 ^ 16 + opcode) % 2 ^ 16 = opcode := by omega
  have length : (Wire.writeU32 id ++ (Wire.writeU32
      (size * 2 ^ 16 + opcode) ++ (body ++ rest))).length =
        size + rest.length := by
    simp only [List.length_append, length_word]
    omega
  have header : Wire.Header.decode (Wire.writeU32 id ++
      (Wire.writeU32 (size * 2 ^ 16 + opcode) ++ (body ++ rest))) =
      .ok (some { objectId := id, opcode, size }) := by
    unfold Wire.Header.decode Wire.headerLen
    simp only [length, behind, first, second, high, low]
    rw [if_neg (by omega), if_neg nonzero, if_neg (by omega),
      if_neg (not_not.mpr aligned)]
  have body_eq : ((Wire.writeU32 id ++ (Wire.writeU32
      (size * 2 ^ 16 + opcode) ++ (body ++ rest))).take size).drop
        Wire.headerLen = body := by
    rw [← List.append_assoc, ← List.append_assoc, List.take_left' (by
      simp only [List.length_append, length_word]
      omega), List.drop_left' (by
      simp only [List.length_append, length_word]
      rfl)]
  unfold Wire.Message.decode
  simp only [header, body_eq, length]
  rw [if_neg (by omega)]

/-- A framer takes a message off the front of what was written, and leaves its
arguments. -/
theorem decode_frame
    (sized : messageSize signature payload = .ok size)
    (sender : objectId ≠ 0)
    (opcodeBelow : opcode < 2 ^ 16)
    (headed : Wire.Header.encode { objectId := objectId.toNat, opcode, size } =
      .ok headerBytes)
    (rest : List UInt8) :
    Wire.Message.decode (frame signature headerBytes payload ++ rest) =
      .ok (some
        { header := { objectId := objectId.toNat, opcode, size }
          payload := (encodeFields signature payload).flatten }) := by
  obtain ⟨whole, within⟩ := messageSize_eq sized
  rw [header_encode sized opcode sender] at headed
  cases headed
  rw [frame, List.append_assoc, List.append_assoc]
  exact decode_written (fun zero => sender (UInt32.toNat_inj.mp zero))
    objectId.toNat_lt opcodeBelow (messageSize_spells sized).1 whole within rest

end Frames

/-! ## Messages that are encoded again -/

section Again

variable {size length : Nat} {signature : Signature}

theorem variableSize_ok
    {terminator : Nat}
    (fits : length + terminator ≤ Wire.maxMessageLen) :
    variableSize length terminator =
      .ok (4 + Wire.Arguments.padded (length + terminator)) := by
  unfold Wire.maxMessageLen at fits
  have first : ¬ length + terminator ≥ usizeLimit := by
    unfold usizeLimit
    omega
  have second : ¬ length + terminator > maxU32 := by
    unfold maxU32
    omega
  have third : ¬ length + terminator + 3 ≥ usizeLimit := by
    unfold usizeLimit
    omega
  have fourth : ¬ 4 + Wire.Arguments.padded (length + terminator) ≥
      usizeLimit := by
    unfold usizeLimit Wire.Arguments.padded
    omega
  simp only [variableSize, addSize, if_neg first, bind, Except.bind,
    if_neg second, if_neg third, if_neg fourth]

theorem addSize_ok
    {more : Nat}
    (fits : size + more ≤ Wire.maxMessageLen) :
    addSize size more = .ok (size + more) := by
  unfold Wire.maxMessageLen at fits
  refine if_neg ?_
  unfold usizeLimit
  omega

variable [Native]

/-- The length of a string. -/
theorem length_string
    {text bytes : List UInt8}
    (spelled : StringText (some text) bytes) :
    bytes.length = 4 + Wire.Arguments.padded (text.length + 1) := by
  cases spelled with
  | text prefixed _ _ padded =>
      have wide := prefixed.1
      obtain ⟨short, whole⟩ := padded
      simp only [List.length_append, List.length_cons]
      unfold Wire.Arguments.padded
      omega

/-- The length of an array. -/
theorem length_array
    {items bytes : List UInt8}
    (spelled : ArrayText items bytes) :
    bytes.length = 4 + Wire.Arguments.padded items.length := by
  obtain ⟨prefixed, _, padded⟩ := spelled
  have wide := prefixed.1
  obtain ⟨short, whole⟩ := padded
  simp only [List.length_append]
  unfold Wire.Arguments.padded
  omega

/-- A string that was spelled has its size. -/
theorem stringSize_spelled
    {text bytes : List UInt8}
    (spelled : StringText (some text) bytes)
    (fits : size + bytes.length ≤ Wire.maxMessageLen) :
    stringSize size text = .ok (size + bytes.length) := by
  have plain : 0 ∉ text := by
    cases spelled with
    | text _ _ plain _ => exact plain
  rw [length_string spelled] at fits ⊢
  have inside : text.length + 1 ≤ Wire.maxMessageLen := by
    unfold Wire.Arguments.padded at fits
    omega
  unfold stringSize
  rw [if_neg (by simpa using plain), variableSize_ok inside]
  exact addSize_ok fits

theorem arraySize_spelled
    {items bytes : List UInt8}
    (spelled : ArrayText items bytes)
    (fits : size + bytes.length ≤ Wire.maxMessageLen) :
    arraySize size items = .ok (size + bytes.length) := by
  rw [length_array spelled] at fits ⊢
  have inside : items.length + 0 ≤ Wire.maxMessageLen := by
    unfold Wire.Arguments.padded at fits
    omega
  unfold arraySize
  rw [variableSize_ok inside]
  exact addSize_ok fits

/-- An argument that was spelled has the size of its bytes, and is what a
decoder makes of it. -/
theorem fieldSize_spelled
    {type : ArgumentType} {value : type.Field} {bytes : List UInt8}
    (denotes : Denotes type (type.read value) bytes)
    (fits : size + bytes.length ≤ Wire.maxMessageLen) :
    fieldSize type size value = .ok (size + bytes.length) ∧
      type.canonical value = value := by
  have word : ∀ {value : UInt32}, Word value bytes →
      (.ok (size + 4) : Except Error Nat) = .ok (size + bytes.length) :=
    fun spelled => by rw [spelled.1]
  have identifier : ∀ {id : UInt32} {bytes : List UInt8}, IdText id bytes →
      idSize size id = .ok (size + bytes.length) := fun spelled => by
    rw [idSize, if_neg spelled.1, spelled.2.1]
  cases type with
  | int | uint | fixed => exact ⟨word denotes, rfl⟩
  | enumeration signed => cases signed <;> exact ⟨word denotes, rfl⟩
  | string allowNull =>
      cases allowNull with
      | false => exact ⟨stringSize_spelled denotes fits, rfl⟩
      | true =>
          change Option (List UInt8) at value
          cases value with
          | none =>
              cases denotes with
              | null empty => exact ⟨word empty, rfl⟩
          | some text => exact ⟨stringSize_spelled denotes fits, rfl⟩
  | object interface allowNull =>
      cases allowNull with
      | false => exact ⟨identifier denotes, rfl⟩
      | true =>
          change Option UInt32 at value
          cases value with
          | none => exact ⟨word denotes, rfl⟩
          | some id => exact ⟨word denotes.2, if_neg denotes.1⟩
  | newId interface => exact ⟨identifier denotes, rfl⟩
  | dynamicNewId =>
      change DynamicNewId at value
      obtain ⟨interface, version, id, rfl, named, versioned, identified⟩ :=
        denotes
      have wide : version.length = 4 := versioned.1
      have last : id.length = 4 := identified.2.1
      simp only [List.length_append] at fits ⊢
      have sized : stringSize size value.interface =
          .ok (size + interface.length) :=
        stringSize_spelled named (by omega)
      have whole : fieldSize .dynamicNewId size value =
          .ok (size + interface.length + 8) := by
        change (if value.id = 0 then .error .nullObject
          else stringSize size value.interface >>= fun size =>
            .ok (size + 8)) = (_ : Except Error Nat)
        rw [if_neg (show ¬ value.id = 0 from identified.1), sized]
        rfl
      refine ⟨whole.trans (congrArg Except.ok ?_), rfl⟩
      omega
  | array allowNull =>
      cases allowNull with
      | false => exact ⟨arraySize_spelled denotes fits, rfl⟩
      | true =>
          change Option (List UInt8) at value
          cases value with
          | none =>
              exact ⟨by rw [length_array denotes]; rfl, rfl⟩
          | some items =>
              exact ⟨arraySize_spelled denotes.2 fits, if_neg denotes.1⟩
  | fd =>
      rw [show bytes = [] from denotes]
      exact ⟨rfl, rfl⟩

/-- Arguments that are spelled have the size of their text. -/
theorem payloadSize_spelled
    {payload : Payload signature} {bytes : List UInt8}
    (spells : Spells signature (Payload.decoded signature payload) bytes)
    (fits : size + bytes.length ≤ Wire.maxMessageLen) :
    payloadSize signature size payload = .ok (size + bytes.length) ∧
      Payload.canonical signature payload = payload := by
  induction signature generalizing size bytes with
  | nil =>
      rw [show bytes = [] from spells]
      exact ⟨rfl, rfl⟩
  | cons type rest payload_ih =>
      obtain ⟨argument, later, rfl, denotes, spelled⟩ := spells
      rw [List.length_append] at fits ⊢
      obtain ⟨sized, same⟩ := fieldSize_spelled denotes
        (show size + argument.length ≤ Wire.maxMessageLen by omega)
      obtain ⟨sizedLater, sameLater⟩ := payload_ih spelled
        (show size + argument.length + later.length ≤ Wire.maxMessageLen by
          omega)
      refine ⟨?_, Prod.ext same sameLater⟩
      unfold payloadSize
      rw [sized, ← Nat.add_assoc]
      exact sizedLater

/-- A message that was spelled has the size of its bytes. -/
theorem messageSize_spelled
    {payload : Payload signature} {bytes : List UInt8}
    (spells : Spells signature (Payload.decoded signature payload) bytes)
    (fits : Wire.headerLen + bytes.length ≤ Wire.maxMessageLen) :
    messageSize signature payload = .ok (Wire.headerLen + bytes.length) ∧
      Payload.canonical signature payload = payload := by
  obtain ⟨sized, same⟩ := payloadSize_spelled spells fits
  refine ⟨?_, same⟩
  unfold messageSize
  rw [sized]
  exact if_neg (by omega)

end Again

end Codec
end Wayring
