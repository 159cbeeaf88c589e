import Mathlib.Logic.Relation
import Wayring.Transport.Framing

/-!
# Framing of a fragmented stream

A stream arrives in buffers, cut anywhere.  However it is cut, the calls of a
framer return what decoding the whole stream at once finds.
-/

namespace Wayring

namespace Wire

variable [Native] {bytes stream : List UInt8} {header : Header}

/-- The sizes that the headers of a stream declare. -/
def declared (bytes : List UInt8) : List Nat :=
  (frames bytes).1.map (fun message => message.header.size) ++
    match (frames bytes).2 with
    | .error _ => []
    | .ok tail =>
        match Header.decode tail with
        | .ok (some header) => [header.size]
        | _ => []

/-- The length that a header declares. -/
theorem mem_declared
    (decoded : Header.decode bytes = .ok (some header))
    (more : List UInt8) : header.size ∈ declared (bytes ++ more) := by
  have whole : Header.decode (bytes ++ more) = .ok (some header) :=
    (Header.decode_append (Header.size_of_decode decoded).2 more).trans decoded
  unfold declared
  cases complete : Message.decode (bytes ++ more) with
  | error cause =>
      rw [Message.decode_eq_error_iff, whole] at complete
      cases complete
  | ok found =>
      cases found with
      | none =>
          rw [frames_of_none complete]
          simp [whole]
      | some message =>
          obtain ⟨isHeader, _⟩ := Message.decode_eq_some_iff.mp complete
          rw [whole] at isHeader
          cases isHeader
          rw [frames_of_some complete]
          simp

/-- What is left of a stream declares nothing new. -/
theorem declared_subset
    {returned : List Message}
    (left : frames stream = (returned ++ (frames bytes).1, (frames bytes).2)) :
    declared bytes ⊆ declared stream := by
  intro size member
  unfold declared at member ⊢
  rw [left]
  rcases List.mem_append.mp member with complete | tail
  · simp only [List.map_append, List.mem_append]
    exact .inl (.inr complete)
  · simp only [List.mem_append]
    exact .inr tail

end Wire

namespace Framer

open LeasePool (Leases Moves)

section Lengths

variable [Native]

/-- The difference that `nextBody` computes, before it is a length. -/
def bodyLengths (framer : Framer) : List Int :=
  match Wire.Header.decode framer.buffered with
  | .ok (some header) => [(header.size : Int) - framer.buffered.length]
  | _ => []

/-- The differences that `nextHeader` computes. -/
def headerLengths (framer : Framer) (input : List UInt8) : List Int :=
  if framer.buffered.length < Wire.headerLen then
    let count := min (Wire.headerLen - framer.buffered.length) input.length
    ((Wire.headerLen : Int) - framer.buffered.length) ::
      bodyLengths
        { framer with buffered := framer.buffered ++ input.take count }
  else framer.bodyLengths

/-- The differences that a call of `next` computes: what is missing of a header,
and of a message. -/
def lengths (framer : Framer) (input : List UInt8) : List Int :=
  if framer.buffered = [] then
    match Wire.Message.decode input with
    | .ok none =>
        if input = [] then []
        else headerLengths { framer with buffered := input } []
    | _ => []
  else framer.headerLengths input

/-- No length of a body is negative. -/
theorem bodyLengths_nonneg
    {framer : Framer}
    (partly : ∀ header, Wire.Header.decode framer.buffered = .ok (some header) →
      framer.buffered.length ≤ header.size) :
    ∀ length ∈ framer.bodyLengths, 0 ≤ length := by
  unfold bodyLengths
  cases decoded : Wire.Header.decode framer.buffered with
  | error cause => simp
  | ok found =>
      cases found with
      | none => simp
      | some header =>
          have within := partly header decoded
          simp only [List.mem_singleton, forall_eq]
          omega

/-- No length of a header is negative. -/
theorem headerLengths_nonneg
    {framer : Framer}
    (incomplete : Wire.Message.decode framer.buffered = .ok none)
    (input : List UInt8) :
    ∀ length ∈ framer.headerLengths input, 0 ≤ length := by
  unfold headerLengths
  rcases wanted_of_none incomplete with short | ⟨header, decoded, beyond⟩
  · rw [if_pos short]
    simp only [List.mem_cons, forall_eq_or_imp]
    refine ⟨by omega, bodyLengths_nonneg fun header decoded => ?_⟩
    have size := (Wire.Header.size_of_decode decoded).1
    simp only [List.length_append, List.length_take]
    omega
  · rw [if_neg (Nat.not_lt.mpr (Wire.Header.size_of_decode decoded).2)]
    refine bodyLengths_nonneg fun other isHeader => ?_
    rw [decoded] at isHeader
    cases isHeader
    exact Nat.le_of_lt beyond

/-- No length of a framer that waits is negative. -/
theorem lengths_nonneg
    {framer : Framer}
    (incomplete : Wire.Message.decode framer.buffered = .ok none)
    (input : List UInt8) :
    ∀ length ∈ framer.lengths input, 0 ≤ length := by
  unfold lengths
  by_cases empty : framer.buffered = []
  · rw [if_pos empty]
    cases decoded : Wire.Message.decode input with
    | error cause => simp
    | ok found =>
        cases found with
        | some message => simp
        | none =>
            by_cases nothing : input = []
            · simp [nothing]
            · simp only [nothing, if_false]
              exact headerLengths_nonneg decoded []
  · rw [if_neg empty]
    exact headerLengths_nonneg incomplete input

end Lengths

/-! ## Runs -/

/-- A framer and its stream.  Buffers have still to arrive, `unread` are the
bytes of the others that were not consumed, and the framer is `drained` when
there was no message in them. -/
structure Feed where
  framer : Framer
  blocks : SharedBlocks
  unread : List UInt8 := []
  coming : List (List UInt8)
  returned : List Wire.Message := []
  failed : Option Error := none
  drained : Bool := false
  calls : Nat := 0

namespace Feed

variable [Native]

/-- The next message is asked for. -/
def call (feed : Feed) (room : Nat) : Feed :=
  match feed.framer.next feed.blocks feed.unread room with
  | (.error cause, unread, framer, blocks) =>
      { feed with
        framer, blocks, unread
        failed := some cause
        calls := feed.calls + 1 }
  | (.ok none, unread, framer, blocks) =>
      { feed with
        framer, blocks, unread
        drained := true
        calls := feed.calls + 1 }
  | (.ok (some message), unread, framer, blocks) =>
      { feed with
        framer, blocks, unread
        returned := feed.returned ++ [message]
        calls := feed.calls + 1 }

/-- A call that needs a block finds one. -/
def Finds (feed : Feed) (room : Nat) : Prop :=
  feed.framer.lease = none → Long (feed.framer.buffered ++ feed.unread) →
    ∃ lease, (feed.blocks.acquire room).1 = .ok lease

/-- Buffers arrive, calls are made, and others use the pool. -/
inductive Step : Feed → Feed → Prop
  | arrive
      {feed : Feed} {bytes : List UInt8} {more : List (List UInt8)}
      (unfailed : feed.failed = none)
      (coming : feed.coming = bytes :: more) :
      Step feed
        { feed with
          unread := feed.unread ++ bytes
          coming := more
          drained := false }
  | call
      {feed : Feed} {room : Nat}
      (unfailed : feed.failed = none)
      (waiting : feed.drained = false)
      (finds : feed.Finds room) : Step feed (feed.call room)
  | others
      {feed : Feed} {blocks : SharedBlocks}
      (wellFormed : feed.blocks.WellFormed → blocks.WellFormed)
      (blockSize : blocks.blockSize = feed.blocks.blockSize)
      (kept : ∀ index ∈ feed.framer.held,
        blocks.pool.cell index = feed.blocks.pool.cell index) :
      Step feed { feed with blocks }

/-- Nothing more arrives, and the calls have ended. -/
def Finished (feed : Feed) : Prop :=
  feed.failed ≠ none ∨ feed.coming = [] ∧ feed.drained = true

/-- What is left of the stream. -/
def rest (feed : Feed) : List UInt8 :=
  feed.framer.buffered ++ feed.unread ++ feed.coming.flatten

/-- How many more steps there can be. -/
def work (feed : Feed) : Nat :=
  2 * feed.coming.length + feed.rest.length +
    if feed.drained = true ∨ feed.failed ≠ none then 0 else 1

end Feed

/-- A new framer of some capacity: that of its scratch space, or of the inline
scratch space and a block. -/
inductive Starts : Framer → SharedBlocks → Nat → Prop
  | plain (capacity : Nat) (blocks : SharedBlocks) :
      Starts (init capacity) blocks capacity
  | shared
      {blockSize blockCount room : Nat} {blocks : SharedBlocks}
      (ready : SharedBlocks.init blockSize blockCount room = .ok blocks) :
      Starts initShared blocks (max inlineScratchSize blockSize)

variable [Native] {framer : Framer} {blocks : SharedBlocks}
  {capacity room : Nat} {stream : List UInt8} {feed next : Feed}

/-- A stream whose messages a framer of some capacity has room for. -/
structure Roomy (capacity : Nat) (stream : List UInt8) : Prop where
  header : Wire.headerLen ≤ capacity
  declared : ∀ size ∈ Wire.declared stream, size ≤ capacity

namespace Feed

/-- The invariant of a run. -/
structure Sound
    (capacity : Nat)
    (stream : List UInt8)
    (limit : Nat)
    (feed : Feed) : Prop where
  space : Space feed.framer feed.blocks
  plain : feed.framer.shared = false → feed.framer.scratchLength = capacity
  shared : feed.framer.shared = true →
    capacity = max inlineScratchSize feed.blocks.blockSize
  thrifty : feed.framer.Thrifty
  releasing : feed.framer.releaseBeforeNext = true →
    feed.framer.buffered = [] ∧ (∀ lease, feed.framer.lease = some lease →
      ∃ message, feed.returned.getLast? = some message ∧
        inlineScratchSize < message.header.size)
  incomplete : feed.failed = none →
    Wire.Message.decode feed.framer.buffered = .ok none
  frames : Wire.frames stream =
    (feed.returned ++ (Wire.frames feed.rest).1, (Wire.frames feed.rest).2)
  rest : feed.rest =
    stream.drop (feed.returned.map fun message => message.header.size).sum
  drained : feed.drained = true → feed.unread = []
  failed : ∀ cause, feed.failed = some cause →
    Wire.Message.decode (feed.framer.buffered ++ feed.unread) = .error cause
  calls : feed.calls + feed.work ≤ limit

/-- A new feed is sound. -/
theorem Sound.start
    (starts : Starts framer blocks capacity)
    (buffers : List (List UInt8)) :
    Sound capacity buffers.flatten
      (2 * buffers.length + buffers.flatten.length + 1)
      { framer, blocks, coming := buffers } := by
  have idle : ∀ framer : Framer, framer.lease = none → framer.buffered = [] →
      framer.releaseBeforeNext = false → Space framer blocks →
      (framer.shared = false → framer.scratchLength = capacity) →
      (framer.shared = true →
        capacity = max inlineScratchSize blocks.blockSize) →
      Sound capacity buffers.flatten
        (2 * buffers.length + buffers.flatten.length + 1)
        { framer, blocks, coming := buffers } := by
    intro framer unleased empty settled space plain shared
    exact
      { space := space
        plain := plain
        shared := shared
        thrifty := fun lease isLease =>
          (nomatch unleased.symm.trans isLease)
        releasing := fun releases => (nomatch settled.symm.trans releases)
        incomplete := fun _ => by
          simp only [empty]
          rfl
        frames := by simp [Feed.rest, empty]
        rest := by simp [Feed.rest, empty]
        drained := fun drained => nomatch drained
        failed := fun _ failed => nomatch failed
        calls := by simp [Feed.work, Feed.rest, empty] }
  cases starts with
  | plain capacity blocks =>
      exact idle _ rfl rfl rfl
        ⟨(fun shared => nomatch shared), fun _ => rfl,
          (fun shared => nomatch shared), (fun _ none => nomatch none),
          Nat.zero_le _⟩ (fun _ => rfl)
        (fun shared => nomatch shared)
  | @shared blockSize _ _ _ ready =>
      obtain ⟨wellFormed, size, _⟩ := SharedBlocks.init_spec ready
      exact idle _ rfl rfl rfl (Ready.initShared wellFormed).scratch.space
        (fun unshared => nomatch unshared) (fun _ => by rw [size])

/-- There is room for every message of the stream. -/
theorem Sound.not_short
    {limit required : Nat} {cause : Error}
    (sound : Sound capacity stream limit feed)
    (roomy : Roomy capacity stream)
    (finds : feed.Finds room)
    (wanted : Wanted (feed.framer.buffered ++ feed.unread) required) :
    ¬ Short feed.framer feed.blocks required room cause := by
  have within : required ≤ capacity := by
    rcases wanted with small | ⟨header, decoded, below⟩
    · exact le_trans small roomy.header
    · exact le_trans below (roomy.declared _
        (Wire.declared_subset sound.frames (Wire.mem_declared decoded _)))
  rintro ⟨plain, shared⟩
  cases kind : feed.framer.shared with
  | false =>
      have narrow := plain kind
      rw [sound.plain kind] at narrow
      omega
  | true =>
      obtain ⟨above, reason⟩ := shared kind
      have size := sound.shared kind
      rcases reason with ⟨narrow, _⟩ | ⟨unleased, failed⟩
      · omega
      · have long : Long (feed.framer.buffered ++ feed.unread) := by
          rcases wanted with small | ⟨header, decoded, below⟩
          · exact absurd (lt_of_lt_of_le above small) (by decide)
          · exact ⟨header, decoded, lt_of_lt_of_le above below⟩
        obtain ⟨lease, found⟩ := finds unleased long
        rw [found] at failed
        cases failed

/-- A call keeps a feed sound. -/
theorem Sound.call
    {limit : Nat}
    (sound : Sound capacity stream limit feed)
    (roomy : Roomy capacity stream)
    (unfailed : feed.failed = none)
    (waiting : feed.drained = false)
    (finds : feed.Finds room) :
    Sound capacity stream limit (feed.call room) := by
  obtain ⟨keeps, result, leased⟩ := next_delivers sound.space
    (fun releases => (sound.releasing releases).1) (sound.incomplete unfailed)
    feed.unread room
  have leasedNow := leased sound.thrifty
  have frames := sound.frames
  have rest := sound.rest
  have calls := sound.calls
  simp only [Feed.work, waiting, unfailed, Bool.false_eq_true, ne_eq,
    not_true_eq_false, or_self, if_false] at calls
  unfold Feed.call
  generalize feed.framer.next feed.blocks feed.unread room = outcome
    at keeps result leasedNow ⊢
  obtain ⟨answer, unread, framer, blocks⟩ := outcome
  have plain : framer.shared = false → framer.scratchLength = capacity :=
    fun unshared => (keeps.plain (keeps.shared ▸ unshared)).trans
      (sound.plain (keeps.shared ▸ unshared))
  have shared : framer.shared = true →
      capacity = max inlineScratchSize blocks.blockSize := fun isShared =>
    (sound.shared (keeps.shared ▸ isShared)).trans (by rw [keeps.blockSize])
  rcases answer with cause | _ | message
  · obtain ⟨bytes, settled, reason⟩ := result
    have decoded : Wire.Message.decode
        (feed.framer.buffered ++ feed.unread) = .error cause := by
      rcases reason with invalid | ⟨_, required, wanted, short⟩
      · exact invalid
      · exact absurd short (sound.not_short roomy finds wanted)
    have same : framer.buffered ++ unread ++ feed.coming.flatten = feed.rest := by
      rw [Feed.rest, bytes]
    refine
      { space := keeps.space
        plain := plain
        shared := shared
        thrifty := fun lease isLease => ?_
        releasing := fun releases => (nomatch settled.symm.trans releases)
        incomplete := fun none => nomatch none
        frames := by rw [Feed.rest, same]; exact frames
        rest := by rw [Feed.rest, same]; exact rest
        drained := fun drained => (nomatch waiting.symm.trans drained)
        failed := fun other failed => ?_
        calls := ?_ }
    · obtain ⟨⟨header, headed, _⟩, _⟩ := leasedNow lease isLease
      rw [Wire.Message.decode_eq_error_iff, headed] at decoded
      cases decoded
    · cases failed
      simp only
      rw [bytes, decoded]
    · have length := congrArg List.length same
      simp only [Feed.work, Feed.rest, waiting, Bool.false_eq_true, ne_eq,
        reduceCtorEq, not_false_eq_true, or_true, if_true]
      omega
  · obtain ⟨decoded, rfl, buffered, settled⟩ := result
    have same : framer.buffered ++ [] ++ feed.coming.flatten = feed.rest := by
      rw [Feed.rest, buffered, List.append_nil]
    refine
      { space := keeps.space
        plain := plain
        shared := shared
        thrifty := fun lease isLease => .inr ?_
        releasing := fun releases => (nomatch settled.symm.trans releases)
        incomplete := fun _ => by simp only [buffered, decoded]
        frames := by rw [Feed.rest, same]; exact frames
        rest := by rw [Feed.rest, same]; exact rest
        drained := fun _ => rfl
        failed := fun other failed => (nomatch unfailed.symm.trans failed)
        calls := ?_ }
    · simp only
      rw [buffered]
      exact (leasedNow lease isLease).1
    · have length := congrArg List.length same
      simp only [Feed.work, Feed.rest, true_or, if_true]
      omega
  · obtain ⟨decoded, after, buffered⟩ := result
    obtain ⟨size, within⟩ := Wire.Message.size_le decoded
    have positive : 0 < Wire.headerLen := by decide
    have left : framer.buffered ++ unread ++ feed.coming.flatten =
        feed.rest.drop message.header.size := by
      rw [buffered, after, List.nil_append, Feed.rest,
        List.drop_append_of_le_length within]
    refine
      { space := keeps.space
        plain := plain
        shared := shared
        thrifty := fun lease isLease => .inl
          ((leasedNow lease isLease).2 message rfl)
        releasing := fun _ => ⟨buffered, fun lease isLease => ?_⟩
        incomplete := fun _ => by simp only [buffered]; rfl
        frames := ?_
        rest := ?_
        drained := fun drained => (nomatch waiting.symm.trans drained)
        failed := fun other failed => (nomatch unfailed.symm.trans failed)
        calls := ?_ }
    · obtain ⟨⟨header, headed, above⟩, _⟩ := leasedNow lease isLease
      obtain ⟨isHeader, _⟩ := Wire.Message.decode_eq_some_iff.mp decoded
      rw [headed] at isHeader
      cases isHeader
      exact ⟨message, by simp, above⟩
    · have complete := Wire.Message.decode_append_some decoded
        feed.coming.flatten
      have opened : Wire.frames feed.rest =
          (message :: (Wire.frames (feed.rest.drop message.header.size)).1,
            (Wire.frames (feed.rest.drop message.header.size)).2) :=
        Wire.frames_of_some complete
      rw [frames, opened]
      simp only [Feed.rest] at left ⊢
      rw [left]
      simp
    · simp only [Feed.rest] at left rest ⊢
      rw [left, rest, List.drop_drop, List.map_append, List.sum_append]
      rfl
    · have shorter : (framer.buffered ++ unread ++ feed.coming.flatten).length <
          feed.rest.length := by
        rw [left, List.length_drop, Feed.rest, List.length_append]
        omega
      simp only [Feed.work, Feed.rest, waiting, unfailed,
        Bool.false_eq_true, ne_eq, not_true_eq_false, or_self, if_false]
      omega

/-- Steps of others keep a feed sound. -/
theorem Sound.others
    {limit : Nat}
    (sound : Sound capacity stream limit feed)
    (wellFormed : feed.blocks.WellFormed → blocks.WellFormed)
    (blockSize : blocks.blockSize = feed.blocks.blockSize)
    (kept : ∀ index ∈ feed.framer.held,
      blocks.pool.cell index = feed.blocks.pool.cell index) :
    Sound capacity stream limit { feed with blocks } :=
  { sound with
    space :=
      { sound.space with
        pool := fun shared => wellFormed (sound.space.pool shared)
        leased := fun lease (isLease : feed.framer.lease = some lease) => by
          obtain ⟨⟨cell, found, same⟩, length, above⟩ :=
            sound.space.leased lease isLease
          have member : lease.index ∈ feed.framer.held := by
            rw [held, isLease]
            simp
          simp only [blockSize]
          exact ⟨⟨cell, (kept _ member).trans found, same⟩, length, above⟩ }
    shared := fun shared => by
      simp only [blockSize]
      exact sound.shared shared }

/-- Every step keeps a feed sound. -/
theorem Sound.step
    {limit : Nat}
    (sound : Sound capacity stream limit feed)
    (roomy : Roomy capacity stream)
    (step : Step feed next) : Sound capacity stream limit next := by
  cases step with
  | call unfailed waiting finds => exact sound.call roomy unfailed waiting finds
  | others wellFormed blockSize kept =>
      exact sound.others wellFormed blockSize kept
  | @arrive bytes more unfailed coming =>
      have same : feed.framer.buffered ++ (feed.unread ++ bytes) ++
          more.flatten = feed.rest := by
        simp [Feed.rest, coming]
      have calls := sound.calls
      simp only [Feed.work, coming, List.length_cons] at calls
      exact
        { sound with
          frames := by
            simp only [Feed.rest] at same ⊢
            rw [same]
            exact sound.frames
          rest := by
            simp only [Feed.rest] at same ⊢
            rw [same]
            exact sound.rest
          drained := fun drained => nomatch drained
          failed := fun cause failed => (nomatch unfailed.symm.trans failed)
          calls := by
            have length := congrArg List.length same
            simp only [Feed.work, Feed.rest, unfailed, Bool.false_eq_true, ne_eq,
              not_true_eq_false, or_self, if_false]
            omega }

/-- Every run keeps a feed sound. -/
theorem Sound.run
    {limit : Nat}
    (sound : Sound capacity stream limit feed)
    (roomy : Roomy capacity stream)
    (ran : Relation.ReflTransGen Step feed next) :
    Sound capacity stream limit next := by
  induction ran with
  | refl => exact sound
  | tail _ step sound => exact sound.step roomy step

/-! ## Results -/

/-- What a run shows of its stream.  The bytes that were not returned are all
there, and no length is negative. -/
structure Faithful (stream : List UInt8) (feed : Feed) : Prop where
  returned : feed.returned <+: (Wire.frames stream).1
  rest : feed.framer.buffered ++ feed.unread ++ feed.coming.flatten =
    stream.drop (feed.returned.map fun message => message.header.size).sum
  lengths : feed.failed = none →
    ∀ length ∈ feed.framer.lengths feed.unread, 0 ≤ length
  finished : feed.Finished → Wire.frames stream = (feed.returned,
    match feed.failed with
    | some cause => .error cause
    | none => .ok feed.framer.buffered)

/-- A block is held for a long message, incomplete or returned last, and every
call and the end give back what is not held. -/
structure Frugal (feed : Feed) : Prop where
  leased : ∀ lease, feed.framer.lease = some lease →
    feed.framer.shared = true ∧
      Leases (fun _ => ()) feed.blocks.pool.cell lease ∧
      (Long feed.framer.buffered ∧
          Wire.Message.decode feed.framer.buffered = .ok none ∨
        feed.framer.releaseBeforeNext = true ∧
          ∃ message, feed.returned.getLast? = some message ∧
            inlineScratchSize < message.header.size)
  call : feed.failed = none → ∀ room,
    Moves feed.blocks.pool.cell (feed.call room).blocks.pool.cell
      feed.framer.held (feed.call room).framer.held
  deinit : ∃ blocks, feed.framer.deinit feed.blocks = (.ok (), blocks) ∧
    Moves feed.blocks.pool.cell blocks.pool.cell feed.framer.held []

/-- A sound feed returns the messages of the stream. -/
theorem Sound.faithful
    {limit : Nat}
    (sound : Sound capacity stream limit feed) : Faithful stream feed where
  returned := by
    rw [sound.frames]
    exact List.prefix_append _ _
  rest := sound.rest
  lengths unfailed := lengths_nonneg (sound.incomplete unfailed) feed.unread
  finished finished := by
    rw [sound.frames]
    cases failed : feed.failed with
    | some cause =>
        have invalid := Wire.Message.decode_append_error
          (sound.failed cause failed) feed.coming.flatten
        rw [Feed.rest, Wire.frames_of_error invalid, List.append_nil]
    | none =>
        obtain ⟨nothing, drained⟩ := finished.resolve_left
          (not_not.mpr failed)
        have bytes : feed.rest = feed.framer.buffered := by
          rw [Feed.rest, sound.drained drained, nothing]
          simp
        rw [bytes, Wire.frames_of_none (sound.incomplete failed),
          List.append_nil]

/-- A sound feed leases a block for a long frame alone. -/
theorem Sound.frugal
    {limit : Nat}
    (sound : Sound capacity stream limit feed) : Frugal feed where
  leased lease isLease := by
    have shared : feed.framer.shared = true := by
      cases kind : feed.framer.shared with
      | true => rfl
      | false => exact nomatch (sound.space.plain kind).symm.trans isLease
    refine ⟨shared, (sound.space.leased lease isLease).1, ?_⟩
    rcases sound.thrifty lease isLease with releases | long
    · exact .inr ⟨releases, (sound.releasing releases).2 lease isLease⟩
    · refine .inl ⟨long, ?_⟩
      cases failed : feed.failed with
      | none => exact sound.incomplete failed
      | some cause =>
          obtain ⟨header, decoded, _⟩ := long.append feed.unread
          have invalid := sound.failed cause failed
          rw [Wire.Message.decode_eq_error_iff, decoded] at invalid
          cases invalid
  call unfailed room := by
    have delivers := next_delivers sound.space
      (fun releases => (sound.releasing releases).1) (sound.incomplete unfailed)
      feed.unread room
    have moves := delivers.keeps.moves
    unfold Feed.call
    generalize feed.framer.next feed.blocks feed.unread room = outcome at moves ⊢
    obtain ⟨answer, unread, framer, blocks⟩ := outcome
    rcases answer with cause | _ | message <;> exact moves
  deinit := by
    obtain ⟨blocks, released, _, _, moves, _⟩ := releaseLease_spec sound.space
    exact ⟨blocks, by rw [Framer.deinit, released], moves⟩

/-- What a new framer of some capacity can reach with some buffers. -/
def Run
    (capacity : Nat)
    (buffers : List (List UInt8))
    (feed : Feed) : Prop :=
  ∃ framer blocks, Starts framer blocks capacity ∧
    Relation.ReflTransGen Step { framer, blocks, coming := buffers } feed

/-- Feeds that are run are sound. -/
theorem Run.sound
    {buffers : List (List UInt8)}
    (ran : Run capacity buffers feed)
    (roomy : Roomy capacity stream)
    (cut : buffers.flatten = stream) :
    Sound capacity stream (2 * buffers.length + stream.length + 1) feed := by
  obtain ⟨framer, blocks, starts, steps⟩ := ran
  subst cut
  exact (Sound.start starts buffers).run roomy steps

end Feed

/-- Framing does not depend on how a stream is cut: two framers that read it
return the messages and the end that decoding all of it at once finds, after a
bounded number of calls. -/
theorem framing_is_independent_of_fragmentation
    {capacity otherCapacity : Nat}
    {buffers otherBuffers : List (List UInt8)}
    {feed other : Feed}
    (roomy : Roomy capacity stream)
    (otherRoomy : Roomy otherCapacity stream)
    (cut : buffers.flatten = stream)
    (otherCut : otherBuffers.flatten = stream)
    (ran : Feed.Run capacity buffers feed)
    (otherRan : Feed.Run otherCapacity otherBuffers other) :
    feed.Faithful stream ∧ feed.Frugal ∧
      feed.calls ≤ 2 * buffers.length + stream.length + 1 ∧
      (feed.Finished → other.Finished →
        other.returned = feed.returned ∧ other.failed = feed.failed ∧
          (feed.failed = none →
            other.framer.buffered = feed.framer.buffered)) := by
  have sound := ran.sound roomy cut
  have faithful := sound.faithful
  have otherFaithful := (otherRan.sound otherRoomy otherCut).faithful
  have calls := sound.calls
  refine ⟨faithful, sound.frugal, by omega, fun finished otherFinished => ?_⟩
  have same := (otherFaithful.finished otherFinished).symm.trans
    (faithful.finished finished)
  obtain ⟨returned, tail⟩ := Prod.ext_iff.mp same
  refine ⟨returned, ?_⟩
  cases failed : feed.failed <;> cases otherFailed : other.failed <;>
    simp_all

end Framer

section Sample

open Framer

local instance fragmentsNative : Native := ⟨.little⟩

/-- A message of twelve bytes. -/
def sampleBytes : List UInt8 := [7, 0, 0, 0, 3, 0, 12, 0, 42, 0, 0, 0]

/-- A plain framer reads the message in two parts, a shared one reads it at
once. -/
theorem Framer.framing_is_independent_of_fragmentation_sample :
    ∃ feed other, Feed.Run 12 [[7, 0, 0, 0, 3], [0, 12, 0, 42, 0, 0, 0]] feed ∧
      Feed.Run 64 [sampleBytes] other ∧ feed.returned.length = 1 ∧
      other.returned = feed.returned := by
  have sizes : Wire.declared sampleBytes = [12] := by decide +kernel
  have room : Roomy 12 sampleBytes := ⟨by decide, by rw [sizes]; decide⟩
  have otherRoom : Roomy 64 sampleBytes := ⟨by decide, by rw [sizes]; decide⟩
  have finds : ∀ (feed : Feed) (more : List UInt8),
      feed.framer.buffered ++ feed.unread ++ more = sampleBytes →
      feed.Finds 0 := by
    rintro feed more whole - ⟨header, decoded, above⟩
    have member := Wire.mem_declared decoded more
    rw [whole, sizes, List.mem_singleton] at member
    rw [member] at above
    exact absurd above (by decide)
  have empty : ∀ feed : Feed, feed.framer.buffered ++ feed.unread = [] →
      feed.Finds 0 := by
    rintro feed nothing - ⟨header, decoded, above⟩
    rw [nothing] at decoded
    cases decoded
  let start : Feed :=
    { framer := init 12
      blocks := { blockSize := 16 }
      coming := [[7, 0, 0, 0, 3], [0, 12, 0, 42, 0, 0, 0]] }
  let first : Feed :=
    { start with
      unread := [7, 0, 0, 0, 3]
      coming := [[0, 12, 0, 42, 0, 0, 0]] }
  let second : Feed :=
    { first.call 0 with
      unread := [0, 12, 0, 42, 0, 0, 0]
      coming := []
      drained := false }
  have ran : Feed.Run 12 start.coming ((second.call 0).call 0) :=
    ⟨_, _, .plain 12 { blockSize := 16 },
      (((((Relation.ReflTransGen.refl.tail
        (show Feed.Step start first from .arrive rfl rfl)).tail
        (.call rfl rfl (finds first [0, 12, 0, 42, 0, 0, 0] rfl))).tail
        (show Feed.Step (first.call 0) second from
          .arrive (by decide +kernel) (by decide +kernel))).tail
        (.call (by decide +kernel) rfl
          (finds second [] (by decide +kernel)))).tail
        (.call (by decide +kernel) (by decide +kernel)
          (empty _ (by decide +kernel))))⟩
  let blocks : SharedBlocks :=
    ⟨16, ⟨[{ content := List.replicate 16 0 }], some 0, 0⟩⟩
  have ready : SharedBlocks.init 16 1 1 = .ok blocks := by decide +kernel
  let whole : Feed :=
    { framer := initShared
      blocks
      unread := sampleBytes
      coming := [] }
  have otherRan : Feed.Run 64 [sampleBytes] ((whole.call 0).call 0) :=
    ⟨_, _, .shared ready,
      ((Relation.ReflTransGen.refl.tail (show Feed.Step
          { framer := initShared, blocks, coming := [sampleBytes] } whole from
          .arrive rfl rfl)).tail
        (.call rfl rfl (finds whole [] (by decide +kernel)))).tail
        (.call (by decide +kernel) (by decide +kernel)
          (empty _ (by decide +kernel)))⟩
  have framed := framing_is_independent_of_fragmentation room otherRoom
    (by decide) (by decide) ran otherRan
  exact ⟨_, _, ran, otherRan, by decide +kernel,
    (framed.2.2.2 (.inr ⟨by decide +kernel, by decide +kernel⟩)
      (.inr ⟨by decide +kernel, by decide +kernel⟩)).1⟩

end Sample
end Wayring
