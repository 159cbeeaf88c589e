import Wayring.Foundation.Matching

/-!
# Protocol tracing

Tracing is enabled by a variable of the launch environment.  The environment
is read in pieces of any length, and the variable is looked for in them byte by
byte.
-/

namespace Wayring
namespace Debug

/-- What `WAYLAND_DEBUG` asks for. -/
inductive State
  | unknown
  | initializing
  | disabled
  | client
  | server
  | both
  deriving DecidableEq, Repr

/-- The bytes of a text. -/
def bytesOf (text : String) : List UInt8 := text.toUTF8.toList

/-- The first position of a word in a text. -/
def indexOf (word : List UInt8) : List UInt8 → Option Nat
  | [] => if word = [] then some 0 else none
  | byte :: rest =>
      if word.isPrefixOf (byte :: rest) then some 0
      else (indexOf word rest).map (· + 1)

/-- What the value of the variable enables. -/
def parseValue (value : List UInt8) : State :=
  let hasOne := value.contains 0x31
  let hasClient := (indexOf (bytesOf "client") value).isSome
  let hasServer := (indexOf (bytesOf "server") value).isSome
  if hasOne || hasClient && hasServer then .both
  else if hasClient then .client
  else if hasServer then .server
  else .disabled

/-- An environment that is read byte by byte. -/
structure EnvironmentParser where
  /-- How much of the name an entry begins with, as long as it does. -/
  prefixIndex : Option Nat := some 0
  /-- The entry is the one that is looked for. -/
  target : Bool := false
  clientIndex : Nat := 0
  serverIndex : Nat := 0
  hasClient : Bool := false
  hasServer : Bool := false
  hasOne : Bool := false
  deriving DecidableEq, Repr

namespace EnvironmentParser

/-- What the entry of the environment begins with. -/
def envPrefix : List UInt8 := bytesOf "WAYLAND_DEBUG="

/-- What the value that was read asks for. -/
def result (parser : EnvironmentParser) : State :=
  if parser.hasOne || parser.hasClient && parser.hasServer then .both
  else if parser.hasClient then .client
  else if parser.hasServer then .server
  else .disabled

/-- Take one more byte of a word. -/
def matchByte
    (byte : UInt8)
    (needle : List UInt8)
    (index : Nat) : Nat × Bool :=
  Matching.step needle index byte

/-- Take one more byte of an entry.  A word that was found is not searched for
again. -/
def take (parser : EnvironmentParser) (byte : UInt8) : EnvironmentParser :=
  if !parser.target then
    match parser.prefixIndex with
    | none => parser
    | some index =>
        if envPrefix[index]? ≠ some byte then { parser with prefixIndex := none }
        else if index + 1 = envPrefix.length then
          { parser with target := true, prefixIndex := none }
        else { parser with prefixIndex := some (index + 1) }
  else
    let client := matchByte byte (bytesOf "client") parser.clientIndex
    let server := matchByte byte (bytesOf "server") parser.serverIndex
    { parser with
      hasOne := parser.hasOne || byte == 0x31
      hasClient := parser.hasClient || client.2
      clientIndex := if parser.hasClient then parser.clientIndex else client.1
      hasServer := parser.hasServer || server.2
      serverIndex := if parser.hasServer then parser.serverIndex else server.1 }

/-- Read a piece of the environment, up to the end of the entry. -/
def consume :
    EnvironmentParser → List UInt8 → Option State × EnvironmentParser
  | parser, [] => (none, parser)
  | parser, byte :: bytes =>
      if byte = 0 then
        if parser.target then (some parser.result, parser)
        else consume {} bytes
      else consume (parser.take byte) bytes

/-- The environment ends. -/
def finish (parser : EnvironmentParser) : State :=
  if !parser.target then .disabled else parser.result

/-- Read the environment piece by piece. -/
def feed : EnvironmentParser → List (List UInt8) → State
  | parser, [] => parser.finish
  | parser, chunk :: chunks =>
      match parser.consume chunk with
      | (some state, _) => state
      | (none, parser) => feed parser chunks

end EnvironmentParser

/-! ## Lookup in the whole environment -/

/-- The value of an entry with a given name. -/
def entryValue (name entry : List UInt8) : Option (List UInt8) :=
  match entry.span (· != 0x3d) with
  | (before, _ :: value) => if before = name then some value else none
  | (_, []) => none

/-- The value of the first entry with a given name. -/
def getenv (name environment : List UInt8) : Option (List UInt8) :=
  (environment.splitOn 0).findSome? (entryValue name)

/-- What an environment enables. -/
def detect (environment : List UInt8) : State :=
  match getenv (bytesOf "WAYLAND_DEBUG") environment with
  | none => .disabled
  | some value => parseValue value

/-! ## Words -/

/-- A word is found exactly when it is in the text. -/
theorem indexOf_isSome_iff
    (word text : List UInt8) :
    (indexOf word text).isSome = true ↔ word <:+: text := by
  induction text with
  | nil =>
      rw [indexOf, List.infix_nil]
      split_ifs with empty
      · exact iff_of_true rfl empty
      · exact iff_of_false Bool.false_ne_true empty
  | cons byte rest index_ih =>
      rw [indexOf, List.infix_cons_iff]
      by_cases begins : word.isPrefixOf (byte :: rest) = true
      · rw [if_pos begins]
        exact iff_of_true rfl (.inl (List.isPrefixOf_iff_prefix.mp begins))
      · rw [if_neg begins, Option.isSome_map, index_ih, or_iff_right]
        exact fun isPrefix => begins (List.isPrefixOf_iff_prefix.mpr isPrefix)

theorem bytesOf_client :
    bytesOf "client" = 0x63 :: [0x6c, 0x69, 0x65, 0x6e, 0x74] := by
  decide +kernel

theorem bytesOf_server :
    bytesOf "server" = 0x73 :: [0x65, 0x72, 0x76, 0x65, 0x72] := by
  decide +kernel

namespace EnvironmentParser

theorem envPrefix_eq :
    envPrefix = bytesOf "WAYLAND_DEBUG" ++ [0x3d] := by
  decide +kernel

theorem equals_notMem_name : 0x3d ∉ bytesOf "WAYLAND_DEBUG" := by
  decide +kernel

/-- An entry has a name exactly when it begins with the name and an equals
sign. -/
theorem entryValue_eq_some_iff
    {name entry value : List UInt8}
    (plain : 0x3d ∉ name) :
    entryValue name entry = some value ↔ entry = name ++ 0x3d :: value := by
  rw [entryValue, List.span_eq_takeWhile_dropWhile]
  constructor
  · intro valued
    have whole := @List.takeWhile_append_dropWhile _ (· != (0x3d : UInt8)) entry
    cases after : entry.dropWhile (· != 0x3d) with
    | nil =>
        rw [after] at valued
        cases valued
    | cons byte rest =>
        rw [after] at valued whole
        simp only at valued
        split_ifs at valued with named
        cases valued
        have stopped := List.head?_dropWhile_not (· != (0x3d : UInt8)) entry
        rw [after] at stopped
        have equals : byte = 0x3d := by simpa using stopped
        rw [← whole, named, equals]
  · rintro rfl
    have before : ∀ byte ∈ name, (byte != 0x3d) = true := by
      intro byte member
      exact bne_iff_ne.mpr (ne_of_mem_of_not_mem member plain)
    rw [List.takeWhile_append_of_pos before,
      List.dropWhile_append_of_pos before]
    simp

/-! ## Entries -/

variable {parser : EnvironmentParser} {entry : List UInt8} {byte : UInt8}

/-- What is known after a part of an entry. -/
inductive Reads : EnvironmentParser → List UInt8 → Prop
  /-- The entry may still have the name. -/
  | named {index : Nat} (within : index < envPrefix.length) :
      Reads { prefixIndex := some index } (envPrefix.take index)
  /-- The entry has another name. -/
  | other {entry : List UInt8}
      (never : ∀ more, ¬ envPrefix <+: entry ++ more) :
      Reads { prefixIndex := none } entry
  /-- The entry has the name, and a part of its value was searched. -/
  | target {clientIndex serverIndex : Nat} {hasClient hasServer hasOne : Bool}
      {value : List UInt8}
      (client : Matching.Tracks (bytesOf "client") value clientIndex hasClient)
      (server : Matching.Tracks (bytesOf "server") value serverIndex hasServer)
      (one : hasOne = value.contains 0x31) :
      Reads
        { prefixIndex := none, target := true, clientIndex, serverIndex,
          hasClient, hasServer, hasOne }
        (envPrefix ++ value)

theorem Reads.start : Reads {} [] :=
  @Reads.named 0 (by decide +kernel)

/-- One more byte was read. -/
theorem Reads.take
    (reads : Reads parser entry)
    (byte : UInt8) : Reads (parser.take byte) (entry ++ [byte]) := by
  cases reads with
  | @named index within =>
      by_cases continues : envPrefix[index]? = some byte
      · have longer : envPrefix.take index ++ [byte] =
            envPrefix.take (index + 1) := by
          rw [List.take_add_one, continues, Option.toList_some]
        rw [longer]
        by_cases complete : index + 1 = envPrefix.length
        · have taken : take { prefixIndex := some index } byte =
              { prefixIndex := none, target := true } := by
            simp [take, continues, complete]
          rw [taken, List.take_of_length_le (Nat.le_of_eq complete.symm)]
          have searched := @Reads.target 0 0 false false false []
            (.nil (by rw [bytesOf_client]; decide))
            (.nil (by rw [bytesOf_server]; decide)) rfl
          rwa [List.append_nil] at searched
        · have taken : take { prefixIndex := some index } byte =
              { prefixIndex := some (index + 1) } := by
            simp [take, continues, complete]
          rw [taken]
          exact .named (by omega)
      · have taken : take { prefixIndex := some index } byte =
            { prefixIndex := none } := by
          simp [take, continues]
        rw [taken]
        refine .other fun more isPrefix => continues ?_
        have length : (envPrefix.take index).length = index :=
          List.length_take_of_le (Nat.le_of_lt within)
        have same := List.prefix_iff_getElem?.mp isPrefix index within
        rw [List.append_assoc, List.getElem?_append_right length.le, length,
          Nat.sub_self] at same
        rw [List.getElem?_eq_getElem within, ← same]
        rfl
  | other never =>
      refine .other fun more => ?_
      rw [List.append_assoc]
      exact never _
  | target client server one =>
      rw [List.append_assoc]
      exact .target (client.step bytesOf_client (by decide))
        (server.step bytesOf_server (by decide)) (by
          rw [one, List.contains_append, List.contains_cons, List.contains_nil,
            Bool.or_false, BEq.comm])

/-- What an entry that ends here enables. -/
theorem Reads.result_eq
    (reads : Reads parser entry) :
    (if parser.target then some parser.result else none) =
      (entryValue (bytesOf "WAYLAND_DEBUG") entry).map parseValue := by
  have absent : ∀ {entry}, (∀ value, entry ≠ envPrefix ++ value) →
      entryValue (bytesOf "WAYLAND_DEBUG") entry = none := by
    intro entry other
    apply Option.eq_none_iff_forall_ne_some.mpr
    intro value valued
    rw [entryValue_eq_some_iff equals_notMem_name] at valued
    apply other value
    rw [valued, envPrefix_eq, List.append_assoc, List.singleton_append]
  cases reads with
  | @named index within =>
      rw [absent fun value same => ?_]
      · rfl
      · have lengths := congrArg List.length same
        rw [List.length_append, List.length_take] at lengths
        omega
  | other never =>
      rw [absent fun value same => ?_]
      · rfl
      · apply never []
        rw [List.append_nil, same]
        exact List.prefix_append _ _
  | @target clientIndex serverIndex hasClient hasServer hasOne value client
      server one =>
      have valued : entryValue (bytesOf "WAYLAND_DEBUG") (envPrefix ++ value) =
          some value := by
        rw [entryValue_eq_some_iff equals_notMem_name, envPrefix_eq,
          List.append_assoc, List.singleton_append]
      have hasClient_eq : hasClient =
          (indexOf (bytesOf "client") value).isSome := by
        rw [Bool.eq_iff_iff, client.found_iff, indexOf_isSome_iff]
      have hasServer_eq : hasServer =
          (indexOf (bytesOf "server") value).isSome := by
        rw [Bool.eq_iff_iff, server.found_iff, indexOf_isSome_iff]
      rw [valued, if_pos rfl, Option.map_some, result, parseValue, one,
        hasClient_eq, hasServer_eq]

/-! ## Pieces -/

/-- A chunk can be cut anywhere. -/
theorem consume_append
    (parser : EnvironmentParser) (bytes more : List UInt8) :
    parser.consume (bytes ++ more) =
      match parser.consume bytes with
      | (some state, parser) => (some state, parser)
      | (none, parser) => parser.consume more := by
  induction bytes generalizing parser with
  | nil => rfl
  | cons byte bytes consume_ih =>
      simp only [List.cons_append, consume]
      split_ifs with ended found
      · rfl
      · exact consume_ih {}
      · exact consume_ih _

/-- Where the environment is cut does not matter. -/
theorem feed_eq
    (parser : EnvironmentParser) (chunks : List (List UInt8)) :
    parser.feed chunks = parser.feed [chunks.flatten] := by
  induction chunks generalizing parser with
  | nil => rfl
  | cons chunk chunks feed_ih =>
      simp only [feed, List.flatten_cons, consume_append]
      generalize parser.consume chunk = outcome
      obtain ⟨state, parser⟩ := outcome
      cases state with
      | some state => rfl
      | none =>
          simp only
          rw [feed_ih]
          rfl

/-- From the start of an entry on, the parser finds what is in the rest of the
environment. -/
theorem Reads.feed_eq
    {environment : List UInt8}
    (reads : Reads parser entry)
    (unbroken : 0 ∉ entry) :
    parser.feed [environment] = detect (entry ++ environment) := by
  induction environment generalizing parser entry with
  | nil =>
      have found := reads.result_eq
      rw [List.append_nil, detect, getenv, List.splitOn_eq_singleton unbroken]
      simp only [feed, consume, finish, List.findSome?_cons]
      cases valued : entryValue (bytesOf "WAYLAND_DEBUG") entry with
      | none =>
          rw [valued] at found
          cases targeted : parser.target with
          | false => rfl
          | true =>
              rw [targeted] at found
              cases found
      | some value =>
          rw [valued] at found
          cases targeted : parser.target with
          | false =>
              rw [targeted] at found
              cases found
          | true =>
              rw [targeted] at found
              exact Option.some.inj found
  | cons byte environment feed_ih =>
      by_cases ended : byte = 0
      · subst ended
        have found := reads.result_eq
        rw [detect, getenv, List.splitOn_append_cons_self_of_not_mem unbroken,
          List.findSome?_cons]
        simp only [feed, consume, if_true]
        cases valued : entryValue (bytesOf "WAYLAND_DEBUG") entry with
        | none =>
            rw [valued] at found
            cases targeted : parser.target with
            | false => exact feed_ih .start List.not_mem_nil
            | true =>
                rw [targeted] at found
                cases found
        | some value =>
            rw [valued] at found
            cases targeted : parser.target with
            | false =>
                rw [targeted] at found
                cases found
            | true =>
                rw [targeted] at found
                exact Option.some.inj found
      · have next := @feed_ih (parser.take byte) (entry ++ [byte])
          (reads.take byte) (by
            rw [List.mem_append, List.mem_singleton]
            rintro (inside | same)
            · exact unbroken inside
            · exact ended same.symm)
        rw [List.append_assoc, List.singleton_append] at next
        rw [← next]
        simp only [feed, consume, if_neg ended]

/-- However an environment is cut into pieces, reading it piece by piece gives
what the first entry named `WAYLAND_DEBUG` enables, or `disabled` if there is
none. -/
theorem streaming_equals_lookup
    (chunks : List (List UInt8)) :
    feed {} chunks =
      match getenv (bytesOf "WAYLAND_DEBUG") chunks.flatten with
      | none => .disabled
      | some value => parseValue value := by
  rw [EnvironmentParser.feed_eq]
  exact Reads.start.feed_eq List.not_mem_nil

end EnvironmentParser
end Debug
end Wayring
