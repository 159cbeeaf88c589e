import Wayring.Transport.BlockStream
import Wayring.Transport.Framer

/-!
# Frames of a byte stream

A stream is a list of complete messages and an incomplete one, or an invalid
header.  A framer finds the same messages however the stream is cut.
-/

namespace Wayring
namespace Wire

variable [Native] {bytes more : List UInt8}

/-! ## Messages -/

/-- A header is missing while there are too few bytes. -/
theorem Header.decode_eq_none_iff :
    Header.decode bytes = .ok none ↔ bytes.length < headerLen := by
  unfold Header.decode
  split_ifs with short
  · simp [short]
  · simp only
    split_ifs <;> simp [short]

/-- A header is in the first bytes. -/
theorem Header.decode_append
    (enough : headerLen ≤ bytes.length)
    (more : List UInt8) :
    Header.decode (bytes ++ more) = Header.decode bytes := by
  unfold headerLen at enough
  have first : (bytes ++ more).take 4 = bytes.take 4 :=
    List.take_append_of_le_length (by omega)
  have second : ((bytes ++ more).drop 4).take 4 = (bytes.drop 4).take 4 := by
    rw [List.drop_append_of_le_length (by omega),
      List.take_append_of_le_length (by rw [List.length_drop]; omega)]
  have long : ¬ bytes.length < 8 := by omega
  have longer : ¬ (bytes ++ more).length < 8 := by
    rw [List.length_append]
    omega
  simp only [Header.decode, headerLen, readU32, first, second, long, longer,
    if_false]
  rfl

/-- A message is at least as long as its header. -/
theorem Header.size_of_decode
    {header : Header}
    (decoded : Header.decode bytes = .ok (some header)) :
    headerLen ≤ header.size ∧ headerLen ≤ bytes.length := by
  unfold Header.decode at decoded
  split at decoded
  · cases decoded
  rename_i short
  simp only [ne_eq] at decoded
  split_ifs at decoded with null small unaligned
  cases decoded
  exact ⟨Nat.not_lt.mp small, Nat.not_lt.mp short⟩

/-- A message is complete with its header and its length. -/
theorem Message.decode_eq_some_iff
    {message : Message} :
    Message.decode bytes = .ok (some message) ↔
      Header.decode bytes = .ok (some message.header) ∧
        message.header.size ≤ bytes.length ∧
        message.payload =
          (bytes.take message.header.size).drop headerLen := by
  unfold Message.decode
  cases Header.decode bytes with
  | error cause => simp
  | ok found =>
      cases found with
      | none => simp
      | some header =>
          simp only [Except.ok.injEq, Option.some.injEq]
          split_ifs with short
          · simp only [Except.ok.injEq, reduceCtorEq, false_iff, not_and]
            rintro rfl within
            omega
          · simp only [Except.ok.injEq, Option.some.injEq]
            constructor
            · rintro rfl
              exact ⟨rfl, Nat.not_lt.mp short, rfl⟩
            · rintro ⟨rfl, _, payload⟩
              obtain ⟨_, _⟩ := message
              simp only at payload ⊢
              rw [payload]

/-- A message is wrong when its header is. -/
theorem Message.decode_eq_error_iff
    {cause : Error} :
    Message.decode bytes = .error cause ↔ Header.decode bytes = .error cause := by
  unfold Message.decode
  cases Header.decode bytes with
  | error other => simp
  | ok found =>
      cases found with
      | none => simp
      | some header =>
          simp only
          split_ifs <;> simp

/-- A complete message stays so with more bytes. -/
theorem Message.decode_append_some
    {message : Message}
    (decoded : Message.decode bytes = .ok (some message))
    (more : List UInt8) :
    Message.decode (bytes ++ more) = .ok (some message) := by
  obtain ⟨header, within, payload⟩ := decode_eq_some_iff.mp decoded
  have enough := (Header.size_of_decode header).2
  refine decode_eq_some_iff.mpr ⟨(Header.decode_append enough more).trans header,
    ?_, ?_⟩
  · rw [List.length_append]
    omega
  · rw [List.take_append_of_le_length within, payload]

/-- A wrong message stays so with more bytes. -/
theorem Message.decode_append_error
    {cause : Error}
    (decoded : Message.decode bytes = .error cause)
    (more : List UInt8) : Message.decode (bytes ++ more) = .error cause := by
  rw [decode_eq_error_iff] at decoded ⊢
  have enough : headerLen ≤ bytes.length := by
    apply Nat.not_lt.mp
    intro short
    rw [Header.decode_eq_none_iff.mpr short] at decoded
    cases decoded
  rw [Header.decode_append enough, decoded]

/-- A message that is complete already does not depend on what follows. -/
theorem Message.size_le
    {message : Message}
    (decoded : Message.decode bytes = .ok (some message)) :
    headerLen ≤ message.header.size ∧ message.header.size ≤ bytes.length := by
  obtain ⟨header, within, _⟩ := decode_eq_some_iff.mp decoded
  exact ⟨(Header.size_of_decode header).1, within⟩

/-! ## Streams -/

/-- The complete messages of a stream, and its end: an incomplete message, or an
invalid header. -/
def split : Nat → List UInt8 → List Message × Except Error (List UInt8)
  | 0, bytes => ([], .ok bytes)
  | fuel + 1, bytes =>
      match Message.decode bytes with
      | .error cause => ([], .error cause)
      | .ok none => ([], .ok bytes)
      | .ok (some message) =>
          let (messages, tail) := split fuel (bytes.drop message.header.size)
          (message :: messages, tail)

/-- The complete messages of a text, and what is left. -/
def frames (bytes : List UInt8) : List Message × Except Error (List UInt8) :=
  split bytes.length bytes

/-- With enough fuel a text is split into its messages. -/
theorem split_eq
    {fuel : Nat}
    (enough : bytes.length ≤ fuel) : split fuel bytes = frames bytes := by
  have stable : ∀ (first second : Nat) (bytes : List UInt8),
      bytes.length ≤ first → bytes.length ≤ second →
      split first bytes = split second bytes := by
    intro first
    induction first with
    | zero =>
        intro second bytes none _
        have empty : bytes = [] := List.eq_nil_of_length_eq_zero (by omega)
        subst empty
        cases second <;> rfl
    | succ first split_ih =>
        intro second bytes within withinSecond
        cases second with
        | zero =>
            have empty : bytes = [] := List.eq_nil_of_length_eq_zero (by omega)
            subst empty
            rfl
        | succ second =>
            unfold split
            cases decoded : Message.decode bytes with
            | error cause => rfl
            | ok found =>
                cases found with
                | none => rfl
                | some message =>
                    obtain ⟨size, inside⟩ := Message.size_le decoded
                    unfold headerLen at size
                    simp only
                    rw [split_ih second _ (by rw [List.length_drop]; omega)
                      (by rw [List.length_drop]; omega)]
  exact stable _ _ _ enough le_rfl

/-- A complete message is the first. -/
theorem frames_of_some
    {message : Message}
    (decoded : Message.decode bytes = .ok (some message)) :
    frames bytes =
      (message :: (frames (bytes.drop message.header.size)).1,
        (frames (bytes.drop message.header.size)).2) := by
  obtain ⟨size, inside⟩ := Message.size_le decoded
  unfold headerLen at size
  have unfolded : frames bytes = split (bytes.length + 1) bytes :=
    (split_eq (Nat.le_succ _)).symm
  rw [unfolded, split, decoded]
  simp only
  rw [split_eq (by rw [List.length_drop]; omega)]

/-- An incomplete message is left. -/
theorem frames_of_none
    (decoded : Message.decode bytes = .ok none) :
    frames bytes = ([], .ok bytes) := by
  have unfolded : frames bytes = split (bytes.length + 1) bytes :=
    (split_eq (Nat.le_succ _)).symm
  rw [unfolded, split, decoded]

/-- A wrong message ends the stream. -/
theorem frames_of_error
    {cause : Error}
    (decoded : Message.decode bytes = .error cause) :
    frames bytes = ([], .error cause) := by
  have unfolded : frames bytes = split (bytes.length + 1) bytes :=
    (split_eq (Nat.le_succ _)).symm
  rw [unfolded, split, decoded]

/-- The messages of a longer stream. -/
theorem frames_append
    (bytes more : List UInt8) :
    frames (bytes ++ more) =
      match (frames bytes).2 with
      | .error cause => ((frames bytes).1, .error cause)
      | .ok tail =>
          ((frames bytes).1 ++ (frames (tail ++ more)).1,
            (frames (tail ++ more)).2) := by
  induction length : bytes.length using Nat.strong_induction_on
    generalizing bytes with
  | _ count frames_ih =>
      cases decoded : Message.decode bytes with
      | error cause =>
          rw [frames_of_error decoded,
            frames_of_error (Message.decode_append_error decoded more)]
      | ok found =>
          cases found with
          | none =>
              rw [frames_of_none decoded]
              rfl
          | some message =>
              obtain ⟨size, inside⟩ := Message.size_le decoded
              unfold headerLen at size
              have shorter : (bytes.drop message.header.size).length < count := by
                rw [List.length_drop]
                omega
              rw [frames_of_some decoded,
                frames_of_some (Message.decode_append_some decoded more),
                List.drop_append_of_le_length inside,
                frames_ih _ shorter _ rfl]
              cases (frames (bytes.drop message.header.size)).2 <;> rfl

end Wire

namespace Framer

open LeasePool (Leases Moves)

variable {framer : Framer} {blocks : SharedBlocks}
  {fragment input : List UInt8} {room : Nat}

/-! ## Scratch space -/

/-- The scratch space of a framer: bytes of its own, or those of a block. -/
structure Space (framer : Framer) (blocks : SharedBlocks) : Prop where
  pool : framer.shared = true → blocks.WellFormed
  plain : framer.shared = false → framer.lease = none
  inline : framer.shared = true → framer.lease = none →
    framer.scratchLength = 0 ∨ framer.scratchLength = inlineScratchSize
  leased : ∀ lease, framer.lease = some lease →
    Leases (fun _ => ()) blocks.pool.cell lease ∧
      framer.scratchLength = blocks.blockSize ∧
      inlineScratchSize < blocks.blockSize
  within : framer.buffered.length ≤ framer.scratchLength

/-- The entry that a framer holds, if any. -/
def held (framer : Framer) : List Nat :=
  (framer.lease.map LeasePool.Lease.index).toList

/-- What every step of a framer keeps: its kind, and the entries of others. -/
structure Keeps
    (framer : Framer)
    (blocks : SharedBlocks)
    (next : Framer)
    (after : SharedBlocks) : Prop where
  space : Space next after
  shared : next.shared = framer.shared
  plain : framer.shared = false → next.scratchLength = framer.scratchLength
  blockSize : after.blockSize = blocks.blockSize
  moves : Moves blocks.pool.cell after.pool.cell framer.held next.held

theorem Keeps.refl
    (space : Space framer blocks) : Keeps framer blocks framer blocks where
  space := space
  shared := rfl
  plain _ := rfl
  blockSize := rfl
  moves := Moves.refl _ _

theorem Keeps.trans
    {middle last : Framer} {between after : SharedBlocks}
    (early : Keeps framer blocks middle between)
    (late : Keeps middle between last after) :
    Keeps framer blocks last after where
  space := late.space
  shared := late.shared.trans early.shared
  plain unshared :=
    (late.plain (early.shared.trans unshared)).trans (early.plain unshared)
  blockSize := late.blockSize.trans early.blockSize
  moves := early.moves.trans late.moves

/-- The bytes in the scratch space change. -/
theorem Keeps.buffered
    (space : Space framer blocks)
    {buffered : List UInt8}
    (within : buffered.length ≤ framer.scratchLength) :
    Keeps framer blocks { framer with buffered } blocks where
  space := ⟨space.pool, space.plain, space.inline, space.leased, within⟩
  shared := rfl
  plain _ := rfl
  blockSize := rfl
  moves := Moves.refl _ _

/-- There is no scratch space for some bytes: a block is too short, or the pool
has none. -/
def Crowded
    (framer : Framer)
    (blocks : SharedBlocks)
    (required room : Nat)
    (cause : Error) : Prop :=
  inlineScratchSize < required ∧
    (blocks.blockSize < required ∧ cause = .messageTooLarge ∨
      framer.lease = none ∧ (blocks.acquire room).1 = .error cause)

/-- More bytes than a framer finds room for. -/
def Short
    (framer : Framer)
    (blocks : SharedBlocks)
    (required room : Nat)
    (cause : Error) : Prop :=
  (framer.shared = false → framer.scratchLength < required) ∧
    (framer.shared = true → framer.Crowded blocks required room cause)

/-- What does not fit is not part of something that fits. -/
theorem Crowded.mono
    {cause : Error}
    (crowded : framer.Crowded blocks required room cause)
    (within : required ≤ size) : framer.Crowded blocks size room cause :=
  ⟨lt_of_lt_of_le crowded.1 within, crowded.2.imp_left fun narrow =>
    ⟨lt_of_lt_of_le narrow.1 within, narrow.2⟩⟩

/-- A block, or none. -/
theorem acquire_spec
    (wellFormed : blocks.WellFormed)
    (room : Nat) :
    let outcome := blocks.acquire room
    outcome.2.WellFormed ∧ outcome.2.blockSize = blocks.blockSize ∧
      (∀ cause, outcome.1 = .error cause →
        outcome.2.pool.cell = blocks.pool.cell) ∧
      ∀ lease, outcome.1 = .ok lease →
        Leases (fun _ => ()) outcome.2.pool.cell lease ∧
          blocks.pool.cell lease.index = none ∧
          ∃ cell, outcome.2.pool.cell =
            Function.update blocks.pool.cell lease.index (some cell) := by
  have spec := @LeasePool.acquire_spec _ Unit blocks.pool freeSentinel (2 ^ 32)
    _ blocks.newBlock (fun _ => ()) id room wellFormed.pool
    (by simp [SharedBlocks.newBlock]) fun _ good => good
  unfold SharedBlocks.acquire
  generalize blocks.pool.acquire freeSentinel (2 ^ 32) (fun _ => ())
    blocks.newBlock id room = outcome at spec ⊢
  obtain ⟨result, pool⟩ := outcome
  cases result with
  | error failure =>
      refine ⟨⟨wellFormed.positive, spec.2.wellFormed⟩, rfl,
        fun _ _ => spec.2.cell, fun lease got => ?_⟩
      cases got
  | ok lease =>
      refine ⟨⟨wellFormed.positive, spec.wellFormed⟩, rfl,
        fun _ failed => ?_, fun other got => ?_⟩
      · cases failed
      cases got
      obtain ⟨content, _, _, cells⟩ := spec.cell
      exact ⟨⟨_, by rw [cells, Function.update_self], rfl, rfl⟩, spec.fresh,
        _, cells⟩

/-- Bytes that fit into the scratch space leave everything as it is. -/
theorem ensureCapacity_of_le
    (framer : Framer) {blocks : SharedBlocks}
    (fits : required ≤ framer.scratchLength) :
    framer.ensureCapacity blocks required room = (.ok (), framer, blocks) :=
  if_pos fits

/-- Scratch space for some bytes, or too many of them. -/
theorem ensureCapacity_keeps
    (space : Space framer blocks)
    (required room : Nat) :
    let outcome := framer.ensureCapacity blocks required room
    Keeps framer blocks outcome.2.1 outcome.2.2 ∧
      outcome.2.1.buffered = framer.buffered ∧
      outcome.2.1.releaseBeforeNext = framer.releaseBeforeNext ∧
      (∀ lease, outcome.2.1.lease = some lease →
        framer.lease = some lease ∨ inlineScratchSize < required) ∧
      match outcome.1 with
      | .ok _ => required ≤ outcome.2.1.scratchLength ∧
          (outcome.2.1.lease = none →
            framer.lease = none ∧ outcome.2.2 = blocks)
      | .error cause => Short framer blocks required room cause := by
  unfold ensureCapacity
  split_ifs with fits unshared small leased
  · exact ⟨Keeps.refl space, rfl, rfl, fun _ isLease => .inl isLease, fits,
      fun unleased => ⟨unleased, rfl⟩⟩
  · have plain : framer.shared = false := by simpa using unshared
    refine ⟨Keeps.refl space, rfl, rfl, fun _ isLease => .inl isLease,
      fun _ => Nat.not_le.mp fits, fun shared => ?_⟩
    rw [plain] at shared
    cases shared
  · have shared : framer.shared = true := by simpa using unshared
    have within := space.within
    refine ⟨⟨⟨space.pool, space.plain, fun _ _ => .inr rfl, fun lease isLease => ?_,
      ?_⟩, rfl, fun plain => ?_, rfl, Moves.refl _ _⟩, rfl, rfl,
      fun _ isLease => .inl isLease, small.1, fun unleased => ⟨unleased, rfl⟩⟩
    · rw [show framer.lease = none from small.2] at isLease
      cases isLease
    · rcases space.inline shared small.2 with empty | inline
      · simp only
        omega
      · simp only
        omega
    · rw [plain] at shared
      cases shared
  · obtain ⟨lease, isLease⟩ := Option.ne_none_iff_exists'.mp leased
    obtain ⟨_, length, above⟩ := space.leased lease isLease
    refine ⟨Keeps.refl space, rfl, rfl, fun _ isLease => .inl isLease,
      fun plain => ?_, fun _ => ⟨by omega, .inl ⟨by omega, rfl⟩⟩⟩
    rw [plain] at unshared
    exact absurd rfl unshared
  · have shared : framer.shared = true := by simpa using unshared
    have unleased : framer.lease = none := not_not.mp leased
    have above : inlineScratchSize < required := by
      apply Nat.not_le.mp
      intro within
      exact small ⟨within, unleased⟩
    have nothing : framer.held = [] := by
      rw [held, unleased]
      rfl
    obtain ⟨wellFormed, blockSize, unchanged, valid⟩ :=
      acquire_spec (space.pool shared) room
    generalize acquired : blocks.acquire room = outcome
      at wellFormed blockSize unchanged valid
    obtain ⟨result, after⟩ := outcome
    have idle : ∀ pool : SharedBlocks, pool.WellFormed →
        Space framer pool := fun pool wellFormed =>
      ⟨fun _ => wellFormed, space.plain, space.inline,
        fun lease isLease => (nomatch unleased.symm.trans isLease),
        space.within⟩
    have unplain : framer.shared = false → framer.scratchLength < required :=
      fun plain => nomatch plain.symm.trans shared
    cases result with
    | error cause =>
        refine ⟨⟨idle after wellFormed, rfl, fun _ => rfl, blockSize, ?_⟩, rfl,
          rfl, fun _ isLease => .inl isLease, unplain, fun _ =>
            ⟨above, .inr ⟨unleased, by rw [acquired]⟩⟩⟩
        rw [unchanged cause rfl]
        exact Moves.refl _ _
    | ok lease =>
        obtain ⟨leases, fresh, cell, cells⟩ := valid lease rfl
        have taken : Moves blocks.pool.cell after.pool.cell framer.held
            [lease.index] := by
          rw [cells, nothing]
          exact Moves.acquire cell fresh (by simp)
        simp only at wellFormed blockSize ⊢
        split_ifs with tooSmall
        · obtain ⟨released, isReleased, wellFormedNow, sameSize, cellsNow, _⟩ :=
            SharedBlocks.release_spec wellFormed leases
          rw [isReleased]
          refine ⟨⟨idle released wellFormedNow, rfl, fun _ => rfl,
            sameSize.trans blockSize, taken.trans ?_⟩, rfl, rfl,
            fun _ isLease => .inl isLease, unplain, fun _ =>
              ⟨above, .inl ⟨by omega, rfl⟩⟩⟩
          rw [cellsNow, nothing]
          exact Moves.release (by simp) (by simp)
        · have within := space.within
          refine ⟨⟨⟨fun _ => wellFormed, fun plain => ?_, (fun _ none =>
            nomatch none), fun other isLease => ?_, ?_⟩, rfl, fun plain => ?_,
            blockSize, taken⟩, rfl, rfl, fun _ _ => .inr above,
            by simpa using tooSmall, (fun none => nomatch none)⟩
          · exact nomatch plain.symm.trans shared
          · cases isLease
            exact ⟨leases, rfl, lt_of_lt_of_le above (Nat.not_lt.mp tooSmall)⟩
          · simp only
            omega
          · exact nomatch plain.symm.trans shared

/-- A framer gives its block back. -/
theorem releaseLease_spec
    (space : Space framer blocks) :
    ∃ after, framer.releaseLease blocks =
        (.ok (), { framer with
          lease := none
          scratchLength := if framer.lease = none then framer.scratchLength
            else inlineScratchSize }, after) ∧
      (framer.shared = true → after.WellFormed) ∧
      after.blockSize = blocks.blockSize ∧
      Moves blocks.pool.cell after.pool.cell framer.held [] ∧
      (framer.lease = none ∧ after = blocks ∨ 0 < after.available) := by
  unfold releaseLease held
  cases lease : framer.lease with
  | none =>
      have same : ({ framer with lease := none } : Framer) = framer := by
        rw [← lease]
      refine ⟨blocks, ?_, space.pool, rfl, Moves.refl _ _, .inl ⟨rfl, rfl⟩⟩
      rw [if_pos rfl, same]
  | some lease' =>
      have shared : framer.shared = true := by
        cases kind : framer.shared with
        | true => rfl
        | false => exact nomatch (space.plain kind).symm.trans lease
      obtain ⟨after, isReleased, wellFormed, blockSize, cells, available⟩ :=
        SharedBlocks.release_spec (space.pool shared) (space.leased _ lease).1
      refine ⟨after, ?_, fun _ => wellFormed, blockSize, ?_, .inr (by omega)⟩
      · simp only [isReleased, reduceCtorEq, if_false]
      · rw [cells]
        exact Moves.release (by simp) (by simp)

/-! ## Shared framers -/

/-- The scratch space of a shared framer. -/
structure Scratch (framer : Framer) (blocks : SharedBlocks) : Prop where
  shared : framer.shared = true
  pool : blocks.WellFormed
  inline : framer.lease = none →
    framer.scratchLength = 0 ∨ framer.scratchLength = inlineScratchSize
  leased : ∀ lease, framer.lease = some lease →
    Leases (fun _ => ()) blocks.pool.cell lease ∧
      framer.scratchLength = blocks.blockSize ∧
      inlineScratchSize < blocks.blockSize
  within : framer.buffered.length ≤ framer.scratchLength

/-- A framer that waits for the rest of a message. -/
structure Ready
    (framer : Framer)
    (blocks : SharedBlocks)
    (fragment : List UInt8) : Prop where
  scratch : Scratch framer blocks
  buffered : framer.buffered = fragment
  releasing : framer.releaseBeforeNext = true → fragment = []

/-- A new framer is ready. -/
theorem Ready.initShared
    (wellFormed : blocks.WellFormed) : Ready initShared blocks [] where
  scratch :=
    { shared := rfl
      pool := wellFormed
      inline := fun _ => .inl rfl
      leased := fun _ none => nomatch none
      within := Nat.zero_le _ }
  buffered := rfl
  releasing _ := rfl

/-- The leased block is room for a frame. -/
theorem Scratch.space
    (scratch : Scratch framer blocks) : Space framer blocks where
  pool _ := scratch.pool
  plain unshared := nomatch unshared.symm.trans scratch.shared
  inline _ := scratch.inline
  leased := scratch.leased
  within := scratch.within

/-- The leased block is kept. -/
theorem Keeps.scratch
    {next : Framer} {after : SharedBlocks}
    (keeps : Keeps framer blocks next after)
    (shared : framer.shared = true) : Scratch next after where
  shared := keeps.shared.trans shared
  pool := keeps.space.pool (keeps.shared.trans shared)
  inline := keeps.space.inline (keeps.shared.trans shared)
  leased := keeps.space.leased
  within := keeps.space.within

/-! ## Messages -/

variable [Native]

/-- Bytes that a framer makes room for: those of a header, or of a frame. -/
def Wanted (stream : List UInt8) (required : Nat) : Prop :=
  required ≤ Wire.headerLen ∨
    ∃ header, Wire.Header.decode stream = .ok (some header) ∧
      required ≤ header.size

/-- A part of a message that goes into the scratch space, or stays there: the
stream begins with one that an earlier call left, or there is no more of it. -/
def Parted (buffered stream : List UInt8) : Prop :=
  ∃ fragment, (fragment = buffered ∨ fragment = stream) ∧ fragment ≠ [] ∧
    Wire.Message.decode fragment = .ok none

/-- A frame that the inline scratch space is too short for. -/
def Long (stream : List UInt8) : Prop :=
  ∃ header, Wire.Header.decode stream = .ok (some header) ∧
    inlineScratchSize < header.size

/-- A block is only held for a message that was returned last, or for a long
frame. -/
def Thrifty (framer : Framer) : Prop :=
  ∀ lease, framer.lease = some lease →
    framer.releaseBeforeNext = true ∨ Long framer.buffered

/-- A lease is for a long frame. -/
theorem Thrifty.long
    {lease : BlockLease}
    (thrifty : framer.Thrifty)
    (settled : framer.releaseBeforeNext = false)
    (isLease : framer.lease = some lease) : Long framer.buffered := by
  rcases thrifty lease isLease with releases | long
  · rw [settled] at releases
    cases releases
  · exact long

/-- Nothing is held with less than a header in the scratch space. -/
theorem Thrifty.unleased
    (thrifty : framer.Thrifty)
    (settled : framer.releaseBeforeNext = false)
    (short : framer.buffered.length < Wire.headerLen) :
    framer.lease = none := by
  apply Option.eq_none_iff_forall_ne_some.mpr
  intro lease isLease
  obtain ⟨header, decoded, _⟩ := thrifty.long settled isLease
  have enough := (Wire.Header.size_of_decode decoded).2
  omega

/-- What a call does with a stream that begins in the scratch space.  Whatever
it returns, no byte is lost. -/
structure Delivers
    (framer : Framer)
    (blocks : SharedBlocks)
    (stream : List UInt8)
    (room : Nat)
    (outcome : Next) : Prop where
  keeps : Keeps framer blocks outcome.2.2.1 outcome.2.2.2
  result :
    match outcome with
    | (.ok (some message), rest, next, _) =>
        Wire.Message.decode stream = .ok (some message) ∧
          rest = stream.drop message.header.size ∧ next.buffered = []
    | (.ok none, rest, next, _) =>
        Wire.Message.decode stream = .ok none ∧ rest = [] ∧
          next.buffered = stream ∧ next.releaseBeforeNext = false
    | (.error cause, rest, next, _) =>
        next.buffered ++ rest = stream ∧ next.releaseBeforeNext = false ∧
          (Wire.Message.decode stream = .error cause ∨
            Parted framer.buffered stream ∧
              ∃ required, Wanted stream required ∧
                Short framer blocks required room cause)
  leased : framer.Thrifty → ∀ lease, outcome.2.2.1.lease = some lease →
    Long stream ∧ (∀ message, outcome.1 = .ok (some message) →
      outcome.2.2.1.releaseBeforeNext = true)

/-- What is delivered after a step that keeps the framer. -/
theorem Delivers.after
    {next : Framer} {between : SharedBlocks} {stream : List UInt8}
    {outcome : Next}
    (keeps : Keeps framer blocks next between)
    (thrifty : framer.Thrifty → next.Thrifty)
    (parted : Parted next.buffered stream → Parted framer.buffered stream)
    (short : ∀ required cause, Wanted stream required →
      Short next between required room cause →
      Short framer blocks required room cause)
    (delivers : Delivers next between stream room outcome) :
    Delivers framer blocks stream room outcome where
  keeps := keeps.trans delivers.keeps
  result := by
    have result := delivers.result
    obtain ⟨result', rest, last, after⟩ := outcome
    rcases result' with cause | _ | message
    · obtain ⟨bytes, settled, reason⟩ := result
      refine ⟨bytes, settled, reason.imp_right ?_⟩
      rintro ⟨isParted, required, wanted, isShort⟩
      exact ⟨parted isParted, required, wanted,
        short required cause wanted isShort⟩
    · exact result
    · exact result
  leased isThrifty := delivers.leased (thrifty isThrifty)

/-- A long frame stays long. -/
theorem Long.append
    (long : Long fragment)
    (more : List UInt8) : Long (fragment ++ more) := by
  obtain ⟨header, decoded, above⟩ := long
  refine ⟨header, ?_, above⟩
  rw [Wire.Header.decode_append (Wire.Header.size_of_decode decoded).2, decoded]

/-- A frame that is shorter than it declares is incomplete. -/
theorem decode_eq_none
    {header : Wire.Header} {bytes : List UInt8}
    (decoded : Wire.Header.decode bytes = .ok (some header))
    (short : bytes.length < header.size) :
    Wire.Message.decode bytes = .ok none := by
  unfold Wire.Message.decode
  rw [decoded]
  exact if_pos short

/-- The bytes of an incomplete frame. -/
theorem wanted_of_none
    (decoded : Wire.Message.decode input = .ok none) :
    input.length < Wire.headerLen ∨
      ∃ header, Wire.Header.decode input = .ok (some header) ∧
        input.length < header.size := by
  unfold Wire.Message.decode at decoded
  cases header : Wire.Header.decode input with
  | error cause =>
      rw [header] at decoded
      cases decoded
  | ok found =>
      cases found with
      | none => exact .inl (Wire.Header.decode_eq_none_iff.mp header)
      | some isHeader =>
          rw [header] at decoded
          simp only at decoded
          split_ifs at decoded with short
          · exact .inr ⟨isHeader, rfl, short⟩
          · cases decoded

/-- Reading the body of a frame delivers it or goes on. -/
theorem nextBody_delivers
    (space : Space framer blocks)
    (headed : Wire.headerLen ≤ framer.buffered.length)
    (settled : framer.releaseBeforeNext = false)
    (partly : ∀ header, Wire.Header.decode framer.buffered = .ok (some header) →
      framer.buffered.length ≤ header.size)
    (input : List UInt8) (room : Nat) :
    Delivers framer blocks (framer.buffered ++ input) room
      (framer.nextBody blocks input room) := by
  have decodes := Wire.Header.decode_append headed input
  unfold nextBody
  cases decoded : Wire.Header.decode framer.buffered with
  | error cause =>
      exact ⟨Keeps.refl space, ⟨rfl, settled, .inl
        (Wire.Message.decode_eq_error_iff.mpr (decodes.trans decoded))⟩,
        fun thrifty lease isLease => ⟨(thrifty.long settled isLease).append input,
          fun _ failed => nomatch failed⟩⟩
  | ok found =>
      cases found with
      | none =>
          have short := Wire.Header.decode_eq_none_iff.mp decoded
          omega
      | some header =>
          have within := partly header decoded
          have parted : framer.scratchLength < header.size →
              Parted framer.buffered (framer.buffered ++ input) := by
            intro beyond
            refine ⟨framer.buffered, .inl rfl, fun empty => ?_,
              decode_eq_none decoded (lt_of_le_of_lt space.within beyond)⟩
            rw [empty] at headed
            exact absurd headed (by decide)
          have fits : header.size ≤ framer.scratchLength →
              framer.ensureCapacity blocks header.size room =
                (.ok (), framer, blocks) := framer.ensureCapacity_of_le
          rw [decoded] at decodes
          obtain ⟨keeps, buffered, releasing, leased, capacity⟩ :=
            ensureCapacity_keeps space header.size room
          simp only
          generalize framer.ensureCapacity blocks header.size room = outcome
            at keeps buffered releasing leased capacity fits ⊢
          obtain ⟨result, next, after⟩ := outcome
          simp only at keeps buffered releasing leased
          have isLong : framer.Thrifty → ∀ lease, next.lease = some lease →
              Long (framer.buffered ++ input) := by
            intro thrifty lease isLease
            rcases leased lease isLease with before | above
            · exact (thrifty.long settled before).append input
            · exact ⟨header, decodes, above⟩
          cases result with
          | error cause =>
              have beyond : framer.scratchLength < header.size :=
                Nat.not_le.mp fun within => nomatch fits within
              refine ⟨keeps, ⟨by rw [buffered], releasing.trans settled, .inr
                ⟨parted beyond, header.size, .inr ⟨header, decodes, le_rfl⟩,
                  capacity⟩⟩,
                fun thrifty lease isLease =>
                  ⟨isLong thrifty lease isLease, (fun _ failed => nomatch failed)⟩⟩
          | ok _ =>
              obtain ⟨enough, _⟩ := capacity
              simp only [buffered] at enough ⊢
              generalize countEq : min (header.size - framer.buffered.length)
                input.length = count
              have split : framer.buffered ++ input =
                  (framer.buffered ++ input.take count) ++ input.drop count := by
                rw [List.append_assoc, List.take_append_drop]
              have length : (framer.buffered ++ input.take count).length =
                  framer.buffered.length + count := by
                rw [List.length_append, List.length_take]
                omega
              have still : Wire.Header.decode
                  (framer.buffered ++ input.take count) = .ok (some header) :=
                (Wire.Header.decode_append headed _).trans decoded
              split_ifs with short
              · have all : count = input.length := by omega
                rw [all, List.take_length] at short
                simp only [all, List.take_length, List.drop_length]
                exact ⟨keeps.trans (Keeps.buffered keeps.space (by omega)),
                  ⟨decode_eq_none decodes short, rfl, rfl,
                    releasing.trans settled⟩, fun thrifty lease isLease =>
                    ⟨isLong thrifty lease isLease,
                      (fun _ none => nomatch none)⟩⟩
              · have complete : Wire.Message.decode
                    (framer.buffered ++ input.take count) = .ok (some
                      { header
                        payload := ((framer.buffered ++ input.take count).take
                          header.size).drop Wire.headerLen }) :=
                  Wire.Message.decode_eq_some_iff.mpr
                    ⟨still, Nat.not_lt.mp short, rfl⟩
                rw [complete]
                refine ⟨⟨⟨keeps.space.pool, keeps.space.plain,
                  keeps.space.inline, keeps.space.leased, Nat.zero_le _⟩,
                    keeps.shared, keeps.plain, keeps.blockSize, keeps.moves⟩,
                  ⟨?_, ?_, rfl⟩, fun thrifty lease isLease =>
                    ⟨isLong thrifty lease isLease, fun _ _ => ?_⟩⟩
                · rw [split]
                  exact Wire.Message.decode_append_some complete _
                · have exactly : (framer.buffered ++ input.take count).length =
                      header.size := by omega
                  rw [split, ← exactly, List.drop_left]
                · simp only at isLease ⊢
                  rw [isLease]
                  rfl

/-- Reading the header of a frame goes on to its body. -/
theorem nextHeader_delivers
    (space : Space framer blocks)
    (some : framer.buffered ≠ [])
    (settled : framer.releaseBeforeNext = false)
    (incomplete : Wire.Message.decode framer.buffered = .ok none)
    (input : List UInt8) (room : Nat) :
    Delivers framer blocks (framer.buffered ++ input) room
      (framer.nextHeader blocks input room) := by
  have parted : Parted framer.buffered (framer.buffered ++ input) :=
    ⟨framer.buffered, .inl rfl, some, incomplete⟩
  unfold nextHeader
  rcases wanted_of_none incomplete with short | ⟨header, decoded, beyond⟩
  · have unleased : framer.Thrifty → framer.lease = none := fun thrifty =>
      thrifty.unleased settled short
    rw [if_pos short]
    simp only
    generalize countEq : min (Wire.headerLen - framer.buffered.length)
      input.length = count
    have split : framer.buffered ++ input =
        (framer.buffered ++ input.take count) ++ input.drop count := by
      rw [List.append_assoc, List.take_append_drop]
    have length : (framer.buffered ++ input.take count).length =
        framer.buffered.length + count := by
      rw [List.length_append, List.length_take]
      omega
    split_ifs with narrow still
    · refine ⟨Keeps.refl space, ⟨rfl, settled, .inr
        ⟨parted, framer.buffered.length + count, .inl (by omega),
          fun _ => narrow, fun shared => ?_⟩⟩, fun thrifty lease isLease =>
            (nomatch (unleased thrifty).symm.trans isLease)⟩
      have within := space.within
      have positive : 0 < framer.buffered.length := List.length_pos_iff.mpr some
      have wide : Wire.headerLen ≤ framer.scratchLength := by
        cases lease : framer.lease with
        | none =>
            rcases space.inline shared lease with empty | inline
            · omega
            · rw [inline]
              decide
        | some lease =>
            obtain ⟨_, length, above⟩ := space.leased _ lease
            rw [length]
            exact le_trans (by decide) (Nat.le_of_lt above)
      omega
    · have all : count = input.length := by omega
      have keeps : Keeps framer blocks
          { framer with buffered := framer.buffered ++ input } blocks :=
        Keeps.buffered space (by rw [List.length_append]; omega)
      simp only [all, List.take_length, List.drop_length] at still ⊢
      refine ⟨keeps, ⟨?_, rfl, rfl, settled⟩, fun thrifty lease isLease =>
        (nomatch (unleased thrifty).symm.trans isLease)⟩
      unfold Wire.Message.decode
      rw [Wire.Header.decode_eq_none_iff.mpr still]
    · have keeps : Keeps framer blocks
          { framer with buffered := framer.buffered ++ input.take count }
          blocks := Keeps.buffered space (by omega)
      have body := nextBody_delivers keeps.space (Nat.not_lt.mp still) settled
        (fun header decoded => ?_) (input.drop count) room
      · rw [split]
        refine Delivers.after keeps (fun thrifty lease isLease => ?_)
          (fun _ => by rwa [← split]) (fun _ _ _ isShort => isShort) body
        exact (nomatch (unleased thrifty).symm.trans isLease)
      · have size := (Wire.Header.size_of_decode decoded).1
        simp only
        omega
  · have enough := (Wire.Header.size_of_decode decoded).2
    rw [if_neg (Nat.not_lt.mpr enough)]
    refine nextBody_delivers space enough settled (fun other isHeader => ?_)
      input room
    rw [decoded] at isHeader
    cases isHeader
    exact Nat.le_of_lt beyond

/-- Reading from the input delivers frames in place. -/
theorem nextInput_delivers
    (space : Space framer blocks)
    (settled : framer.releaseBeforeNext = false)
    (incomplete : Wire.Message.decode framer.buffered = .ok none)
    (input : List UInt8) (room : Nat) :
    Delivers framer blocks (framer.buffered ++ input) room
      (framer.nextInput blocks input room) := by
  unfold nextInput
  by_cases empty : framer.buffered = []
  swap
  · rw [if_neg empty]
    exact nextHeader_delivers space empty settled incomplete input room
  rw [if_pos empty, empty, List.nil_append]
  have unleased : framer.Thrifty → framer.lease = none := fun thrifty =>
    thrifty.unleased settled (by rw [empty]; decide)
  cases decoded : Wire.Message.decode input with
  | error cause =>
      refine ⟨Keeps.refl space, ⟨by simp [empty], settled, .inl decoded⟩,
        fun thrifty lease isLease =>
          (nomatch (unleased thrifty).symm.trans isLease)⟩
  | ok found =>
      cases found with
      | some message =>
          exact ⟨Keeps.refl space, ⟨decoded, rfl, empty⟩,
            fun thrifty lease isLease =>
              (nomatch (unleased thrifty).symm.trans isLease)⟩
      | none =>
          simp only
          split_ifs with nothing
          · exact ⟨Keeps.refl space, ⟨decoded, nothing, empty.trans
              nothing.symm, settled⟩, fun thrifty lease isLease =>
                (nomatch (unleased thrifty).symm.trans isLease)⟩
          obtain ⟨keeps, buffered, releasing, leased, capacity⟩ :=
            ensureCapacity_keeps space input.length room
          generalize framer.ensureCapacity blocks input.length room = outcome
            at keeps buffered releasing leased capacity ⊢
          obtain ⟨result, next, after⟩ := outcome
          simp only at keeps buffered releasing leased
          have isLong : framer.Thrifty → ∀ lease, next.lease = .some lease →
              Long input := by
            intro thrifty lease isLease
            rcases leased lease isLease with before | above
            · exact nomatch (unleased thrifty).symm.trans before
            rcases wanted_of_none decoded with short | ⟨header, headed, within⟩
            · exact absurd (lt_trans above short) (by decide)
            · exact ⟨header, headed, lt_trans above within⟩
          cases result with
          | error cause =>
              refine ⟨keeps, ⟨by rw [buffered, empty]; rfl,
                releasing.trans settled, .inr
                  ⟨⟨input, .inr rfl, nothing, decoded⟩, input.length, ?_,
                    capacity⟩⟩,
                fun thrifty lease isLease => ⟨isLong thrifty lease isLease,
                  (fun _ failed => nomatch failed)⟩⟩
              rcases wanted_of_none decoded with short | ⟨header, headed, within⟩
              · exact .inl (Nat.le_of_lt short)
              · exact .inr ⟨header, headed, Nat.le_of_lt within⟩
          | ok _ =>
              obtain ⟨enough, idle⟩ := capacity
              simp only at enough idle ⊢
              rw [if_neg (Nat.not_lt.mpr enough)]
              have filled := keeps.trans (Keeps.buffered keeps.space enough)
              have header := nextHeader_delivers filled.space nothing
                (releasing.trans settled) decoded [] room
              rw [List.append_nil] at header
              refine Delivers.after filled (fun thrifty lease isLease =>
                .inr (isLong thrifty lease isLease))
                (fun _ => ⟨input, .inr rfl, nothing, decoded⟩)
                (fun required cause _ isShort => ?_) header
              refine ⟨fun plain => ?_, fun shared => ?_⟩
              · rw [← filled.plain plain]
                exact isShort.1 (filled.shared.trans plain)
              · obtain ⟨above, reason⟩ := isShort.2 (filled.shared.trans shared)
                rw [filled.blockSize] at reason
                refine ⟨above, reason.imp_right ?_⟩
                rintro ⟨unleasedNow, failed⟩
                obtain ⟨unleased', same⟩ := idle unleasedNow
                rw [same] at failed
                exact ⟨unleased', failed⟩

/-- A call of `next` returns the first message of what the framer has seen and
not returned. -/
theorem next_delivers
    (space : Space framer blocks)
    (releasing : framer.releaseBeforeNext = true → framer.buffered = [])
    (incomplete : Wire.Message.decode framer.buffered = .ok none)
    (input : List UInt8) (room : Nat) :
    Delivers framer blocks (framer.buffered ++ input) room
      (framer.next blocks input room) := by
  unfold next
  cases releases : framer.releaseBeforeNext with
  | false =>
      exact nextInput_delivers space releases incomplete input room
  | true =>
      have empty := releasing releases
      obtain ⟨after, isReleased, wellFormed, blockSize, moves, spare⟩ :=
        releaseLease_spec space
      rw [if_pos rfl, isReleased]
      simp only
      generalize lengthEq : (if framer.lease = none then framer.scratchLength
        else inlineScratchSize) = length
      have keeps : Keeps framer blocks
          { framer with
            lease := none
            scratchLength := length
            releaseBeforeNext := false } after :=
        { space :=
            { pool := wellFormed
              plain := fun _ => rfl
              inline := fun shared _ => by
                rw [← lengthEq]
                split_ifs with unleased
                · exact space.inline shared unleased
                · exact .inr rfl
              leased := fun _ none => nomatch none
              within := by
                simp only [empty, List.length_nil]
                exact Nat.zero_le _ }
          shared := rfl
          plain := fun plain => by
            rw [← lengthEq, if_pos (space.plain plain)]
          blockSize := blockSize
          moves := moves }
      refine Delivers.after keeps (fun _ _ none => nomatch none)
        (fun parted => parted)
        (fun required cause _ isShort => ⟨fun plain => ?_, fun shared => ?_⟩)
        (nextInput_delivers keeps.space rfl incomplete input room)
      · rw [← keeps.plain plain]
        exact isShort.1 plain
      · obtain ⟨above, reason⟩ := isShort.2 shared
        rw [blockSize] at reason
        refine ⟨above, reason.imp_right ?_⟩
        rintro ⟨_, failed⟩
        rcases spare with ⟨unleased, rfl⟩ | some
        · exact ⟨unleased, failed⟩
        · obtain ⟨lease, last, acquired, _⟩ := @LeasePool.acquire_free _ Unit
            after.pool freeSentinel (2 ^ 32) _ after.newBlock (fun _ => ()) id
            room (wellFormed shared).pool (fun _ good => good) some
          rw [SharedBlocks.acquire, acquired] at failed
          cases failed

/-- What a call of `next` does with a stream that begins in the scratch space.
An error is an invalid header, or a part of a message that there is no scratch
space for. -/
def Serves
    (framer : Framer)
    (blocks : SharedBlocks)
    (stream : List UInt8)
    (room : Nat) : Next → Prop
  | (.ok (some message), rest, next, after) =>
      Wire.Message.decode stream = .ok (some message) ∧
        rest = stream.drop message.header.size ∧ next.Ready after []
  | (.ok none, rest, next, after) =>
      Wire.Message.decode stream = .ok none ∧ rest = [] ∧
        next.Ready after stream
  | (.error cause, _, _, _) =>
      Wire.Message.decode stream = .error cause ∨
        Parted framer.buffered stream ∧
          ∃ header, Wire.Header.decode stream = .ok (some header) ∧
            framer.Crowded blocks header.size room cause

/-- A framer returns the first message of what it has seen and not returned. -/
theorem next_spec
    (ready : framer.Ready blocks fragment)
    (incomplete : Wire.Message.decode fragment = .ok none)
    (input : List UInt8) (room : Nat) :
    framer.Serves blocks (fragment ++ input) room
      (framer.next blocks input room) := by
  obtain ⟨scratch, rfl, releasing⟩ := ready
  obtain ⟨keeps, result, _⟩ := next_delivers scratch.space releasing incomplete
    input room
  generalize framer.next blocks input room = outcome at keeps result ⊢
  obtain ⟨answer, rest, next, after⟩ := outcome
  have scratchNow := keeps.scratch scratch.shared
  rcases answer with cause | _ | message
  · obtain ⟨_, _, reason⟩ := result
    refine reason.imp_right ?_
    rintro ⟨parted, required, wanted, short⟩
    have crowded := short.2 scratch.shared
    rcases wanted with small | ⟨header, decoded, within⟩
    · exact absurd (lt_of_lt_of_le crowded.1 small) (by decide)
    · exact ⟨parted, header, decoded, crowded.mono within⟩
  · obtain ⟨decoded, nothing, buffered, settled⟩ := result
    exact ⟨decoded, nothing, scratchNow, buffered,
      fun releases => (nomatch settled.symm.trans releases)⟩
  · obtain ⟨decoded, after, buffered⟩ := result
    exact ⟨decoded, after, scratchNow, buffered, fun _ => rfl⟩

end Framer
end Wayring
