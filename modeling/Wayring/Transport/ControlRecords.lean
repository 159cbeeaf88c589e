import Wayring.Transport.Ancillary
import Wayring.Transport.Words

/-!
# Control records

Reading control records by offsets into the buffer, where every slice is
checked against its bounds.  No check fails, whatever the bytes are, and what
is read from records that were well formed is what was put in them.
-/

namespace Wayring
namespace Ancillary

/-- What a reader must not do. -/
inductive ReadFault
  | outOfBounds
  /-- Reading on forever. -/
  | endless
  deriving DecidableEq, Repr

/-- `bytes[start..stop]`. -/
def slice
    (bytes : List UInt8)
    (start stop : Nat) : Except ReadFault (List UInt8) :=
  if start ≤ stop ∧ stop ≤ bytes.length then
    .ok ((bytes.take stop).drop start)
  else .error .outOfBounds

/-- `RightsIterator` with its offsets. -/
structure RightsCursor where
  control : List UInt8
  recordOffset : Nat := 0
  rights : List UInt8 := []
  rightsOffset : Nat := 0
  deriving DecidableEq, Repr

namespace RightsCursor

variable [Native]

/-- The next descriptor.  A loop that takes more rounds than there are bytes
is endless. -/
def nextWithin :
    Nat → RightsCursor →
      Except ReadFault (Except Error (Option (Fd × RightsCursor)))
  | 0, _ => .error .endless
  | fuel + 1, cursor =>
      if cursor.rightsOffset < cursor.rights.length then do
        let start := cursor.rightsOffset
        let tail ← slice cursor.rights start cursor.rights.length
        let value ← slice tail 0 4
        .ok (.ok (some
          (UInt32.ofNat (Wire.readWord value),
            { cursor with rightsOffset := start + 4 })))
      else if cursor.recordOffset = cursor.control.length then .ok (.ok none)
      else if cursor.recordOffset > cursor.control.length then
        .error .outOfBounds
      else if cursor.control.length - cursor.recordOffset < headerSize then
        .ok (.error .malformedControl)
      else do
        let record ← slice cursor.control cursor.recordOffset
          cursor.control.length
        let header ← slice record 0 headerSize
        let length := Wire.readWord (header.take 8)
        let level := Wire.readWord ((header.drop 8).take 4)
        let type := Wire.readWord (header.drop 12)
        if length < cmsgDataOffset ∨ length > record.length then
          .ok (.error .malformedControl)
        else
          let alignedLength := cmsgAlign length
          if alignedLength > record.length ∧ length ≠ record.length then
            .ok (.error .malformedControl)
          else
            let cursor :=
              { cursor with
                recordOffset :=
                  cursor.recordOffset + min alignedLength record.length }
            if level ≠ solSocket ∨ type ≠ scmRights then
              nextWithin fuel cursor
            else do
              let data ← slice record cmsgDataOffset length
              if data.length = 0 ∨ data.length % 4 ≠ 0 then
                .ok (.error .malformedControl)
              else
                nextWithin fuel { cursor with rights := data, rightsOffset := 0 }

/-- The next descriptor of the control records. -/
def next (cursor : RightsCursor) :
    Except ReadFault (Except Error (Option (Fd × RightsCursor))) :=
  nextWithin (cursor.control.length + 2) cursor

/-- All descriptors, as the loops over the iterator take them. -/
def collectWithin :
    Nat → RightsCursor → Except ReadFault (List Fd × Except Error Unit)
  | 0, _ => .error .endless
  | fuel + 1, cursor => do
      match ← cursor.next with
      | .error cause => .ok ([], .error cause)
      | .ok none => .ok ([], .ok ())
      | .ok (some (fd, cursor)) =>
          let (fds, result) ← collectWithin fuel cursor
          .ok (fd :: fds, result)

/-- All descriptors of the control records. -/
def collect
    (control : List UInt8) :
    Except ReadFault (List Fd × Except Error Unit) :=
  collectWithin (control.length + 1) { control }

end RightsCursor

/-! ## Records -/

section Records

variable [Native]

/-- What the first record of some bytes leaves to be read, and its rights. -/
def readRecord
    (record : List UInt8) : Except Error (List UInt8 × List UInt8) :=
  if record.length < headerSize then .error .malformedControl
  else
    let length := Wire.readWord (record.take 8)
    if length < cmsgDataOffset ∨ length > record.length then
      .error .malformedControl
    else if cmsgAlign length > record.length ∧ length ≠ record.length then
      .error .malformedControl
    else
      let rest := record.drop (min (cmsgAlign length) record.length)
      if Wire.readWord ((record.drop 8).take 4) ≠ solSocket ∨
          Wire.readWord ((record.drop 12).take 4) ≠ scmRights then
        .ok (rest, [])
      else
        let data := (record.take length).drop cmsgDataOffset
        if data.length = 0 ∨ data.length % 4 ≠ 0 then .error .malformedControl
        else .ok (rest, data)

variable {record rest data : List UInt8}

omit [Native] in
/-- Alignment does not shorten. -/
theorem le_cmsgAlign (length : Nat) : length ≤ cmsgAlign length := by
  unfold cmsgAlign
  omega

/-- A record takes at least its header, and its rights are whole
descriptors within it. -/
theorem readRecord_spec
    (read : readRecord record = .ok (rest, data)) :
    rest.length + headerSize + data.length ≤ record.length ∧
      data.length % 4 = 0 := by
  have header : cmsgDataOffset = 16 ∧ headerSize = 16 := ⟨rfl, rfl⟩
  simp only [readRecord] at read
  generalize Wire.readWord (record.take 8) = length at read
  have aligned := le_cmsgAlign length
  split at read
  · cases read
  split at read
  · cases read
  split at read
  · cases read
  split at read
  · cases read
    refine ⟨?_, rfl⟩
    rw [List.length_drop, List.length_nil]
    omega
  split at read
  · cases read
  · rename_i whole
    cases read
    simp only [List.length_drop, List.length_take] at whole ⊢
    omega

/-- A record that is not read is malformed. -/
theorem readRecord_error
    {cause : Error}
    (read : readRecord record = .error cause) : cause = .malformedControl := by
  simp only [readRecord] at read
  split_ifs at read <;> (cases read; rfl)

/-- Reading the records, with some rights of the last one left: the
descriptors, and how the reading ends. -/
inductive Reading :
    List UInt8 → List UInt8 → List Fd → Except Error Unit → Prop
  | finished : Reading [] [] [] (.ok ())
  | malformed
      {records : List UInt8}
      (more : records ≠ [])
      (read : readRecord records = .error .malformedControl) :
      Reading records [] [] (.error .malformedControl)
  | record
      {records rest rights : List UInt8}
      {fds : List Fd}
      {result : Except Error Unit}
      (more : records ≠ [])
      (read : readRecord records = .ok (rest, rights))
      (reading : Reading rest rights fds result) :
      Reading records [] fds result
  | descriptor
      {records rights : List UInt8}
      {fds : List Fd}
      {result : Except Error Unit}
      (more : rights ≠ [])
      (reading : Reading records (rights.drop 4) fds result) :
      Reading records rights
        (UInt32.ofNat (Wire.readU32 rights) :: fds) result

namespace Reading

variable {records rights : List UInt8} {fds : List Fd}
variable {result : Except Error Unit}

/-- Whatever the bytes are, reading ends. -/
theorem exists_of
    (bound : Nat)
    (fits : records.length + rights.length ≤ bound)
    (whole : rights.length % 4 = 0) :
    ∃ fds result, Reading records rights fds result := by
  induction bound using Nat.strong_induction_on
    generalizing records rights with
  | _ bound exists_ih =>
      by_cases noRights : rights = []
      · subst noRights
        by_cases noRecords : records = []
        · subst noRecords
          exact ⟨_, _, .finished⟩
        · cases read : readRecord records with
          | error cause =>
              cases readRecord_error read
              exact ⟨_, _, .malformed noRecords read⟩
          | ok both =>
              obtain ⟨rest, data⟩ := both
              have ⟨shorter, dataWhole⟩ := readRecord_spec read
              have header : headerSize = 16 := rfl
              rw [List.length_nil] at fits
              have ⟨fds, result, reading⟩ :=
                @exists_ih (rest.length + data.length) (by omega) rest data
                  le_rfl dataWhole
              exact ⟨_, _, .record noRecords read reading⟩
      · have some_left := List.length_pos_of_ne_nil noRights
        have ⟨fds, result, reading⟩ :=
          @exists_ih (records.length + (rights.length - 4)) (by omega)
            records (rights.drop 4) (by rw [List.length_drop])
            (by rw [List.length_drop]; omega)
        exact ⟨_, _, .descriptor noRights reading⟩

/-- Control records end well or are malformed. -/
theorem result_eq
    (reading : Reading records rights fds result) :
    result = .ok () ∨ result = .error .malformedControl := by
  induction reading with
  | finished => exact .inl rfl
  | malformed => exact .inr rfl
  | record _ _ _ result_ih => exact result_ih
  | descriptor _ _ result_ih => exact result_ih

/-- Every descriptor takes a byte at least. -/
theorem length_le
    (reading : Reading records rights fds result) :
    fds.length ≤ records.length + rights.length := by
  induction reading with
  | finished => exact Nat.zero_le _
  | malformed => exact Nat.zero_le _
  | record _ read _ length_ih =>
      have ⟨shorter, _⟩ := readRecord_spec read
      omega
  | descriptor more _ length_ih =>
      have some_left := List.length_pos_of_ne_nil more
      rw [List.length_drop] at length_ih
      rw [List.length_cons]
      omega

end Reading
end Records

/-! ## Readers -/

/-- A step gives the first of some descriptors, from where the others are read
later, or how the reading ends. -/
def Gives
    {Reader : Type}
    (later : Reader → List Fd → Prop)
    (result : Except Error Unit) :
    List Fd → Except Error (Option (Fd × Reader)) → Prop
  | [], step => step = result.map fun _ => none
  | fd :: fds, step =>
      ∃ reader, step = .ok (some (fd, reader)) ∧ later reader fds

namespace RightsIterator

variable [Native]

/-- A round without rights reads the next record. -/
theorem nextWithin_record
    (fuel : Nat)
    {records : List UInt8}
    (more : records ≠ []) :
    nextWithin (fuel + 1) { records } =
      match readRecord records with
      | .error cause => .error cause
      | .ok (rest, data) => nextWithin fuel { records := rest, rights := data } := by
  rw [nextWithin, if_neg (by simp), if_neg more, readRecord]
  dsimp only
  split_ifs <;> rfl

theorem nextWithin_of
    {records rights : List UInt8}
    {fds : List Fd}
    {result : Except Error Unit}
    (reading : Reading records rights fds result)
    {fuel : Nat}
    (enough : records.length + 1 < fuel) :
    Gives
      (fun iterator fds => Reading iterator.records iterator.rights fds result)
      result fds (nextWithin fuel { records, rights }) := by
  induction reading generalizing fuel with
  | finished =>
      obtain ⟨fuel, rfl⟩ := Nat.exists_eq_add_one_of_ne_zero (by omega : fuel ≠ 0)
      rfl
  | malformed more read =>
      obtain ⟨fuel, rfl⟩ := Nat.exists_eq_add_one_of_ne_zero (by omega : fuel ≠ 0)
      rw [nextWithin_record fuel more, read]
      rfl
  | record more read reading next_ih =>
      obtain ⟨fuel, rfl⟩ := Nat.exists_eq_add_one_of_ne_zero (by omega : fuel ≠ 0)
      have ⟨shorter, _⟩ := readRecord_spec read
      have header : headerSize = 16 := rfl
      rw [nextWithin_record fuel more, read]
      exact next_ih (by omega)
  | @descriptor records rights fds result more reading _ =>
      obtain ⟨fuel, rfl⟩ := Nat.exists_eq_add_one_of_ne_zero (by omega : fuel ≠ 0)
      refine ⟨{ records, rights := rights.drop 4 }, ?_, reading⟩
      rw [nextWithin, if_pos more]

/-- With enough fuel all descriptors are collected. -/
theorem collectWithin_of
    {fds : List Fd}
    {result : Except Error Unit}
    {fuel : Nat}
    (enough : fds.length < fuel)
    {iterator : RightsIterator}
    (reading : Reading iterator.records iterator.rights fds result) :
    collectWithin fuel iterator = (fds, result) := by
  induction fds generalizing fuel iterator with
  | nil =>
      obtain ⟨fuel, rfl⟩ := Nat.exists_eq_add_one_of_ne_zero (by omega : fuel ≠ 0)
      have next : iterator.next = result.map fun _ => none :=
        nextWithin_of reading (Nat.lt_succ_self _)
      rw [collectWithin, next]
      cases result with
      | error => rfl
      | ok => rfl
  | cons fd fds collect_ih =>
      rw [List.length_cons] at enough
      obtain ⟨fuel, rfl⟩ := Nat.exists_eq_add_one_of_ne_zero (by omega : fuel ≠ 0)
      have ⟨later, next, laterReading⟩ :=
        nextWithin_of reading (Nat.lt_succ_self _)
      have next : iterator.next = .ok (some (fd, later)) := next
      rw [collectWithin, next]
      simp only [collect_ih (Nat.lt_of_succ_lt_succ enough) laterReading]

/-- All descriptors of the records are collected. -/
theorem collect_of
    {control : List UInt8}
    {fds : List Fd}
    {result : Except Error Unit}
    (reading : Reading control [] fds result) :
    collect control = (fds, result) := by
  have fits := reading.length_le
  rw [List.length_nil] at fits
  exact collectWithin_of (by omega) reading

end RightsIterator

namespace RightsCursor

variable [Native]

/-- The offsets are within what they index, and whole descriptors are left. -/
structure Valid (cursor : RightsCursor) : Prop where
  recordOffset_le : cursor.recordOffset ≤ cursor.control.length
  rightsOffset_le : cursor.rightsOffset ≤ cursor.rights.length
  whole : (cursor.rights.length - cursor.rightsOffset) % 4 = 0

/-- The records not yet read. -/
def records (cursor : RightsCursor) : List UInt8 :=
  cursor.control.drop cursor.recordOffset

/-- The rights not yet read. -/
def left (cursor : RightsCursor) : List UInt8 :=
  cursor.rights.drop cursor.rightsOffset

omit [Native] in
/-- A slice inside the bytes is taken. -/
theorem slice_of
    {bytes : List UInt8}
    {start stop : Nat}
    (inside : start ≤ stop ∧ stop ≤ bytes.length) :
    slice bytes start stop = .ok ((bytes.take stop).drop start) :=
  if_pos inside

/-- A round without rights reads the next record, within bounds. -/
theorem nextWithin_record
    (fuel : Nat)
    {cursor : RightsCursor}
    (valid : cursor.Valid)
    (none_left : cursor.left = [])
    (more : cursor.records ≠ []) :
    match readRecord cursor.records with
    | .error cause => nextWithin (fuel + 1) cursor = .ok (.error cause)
    | .ok (rest, data) => ∃ next : RightsCursor,
        nextWithin (fuel + 1) cursor = nextWithin fuel next ∧
          next.Valid ∧ next.control = cursor.control ∧
          next.records = rest ∧ next.left = data := by
  obtain ⟨control, recordOffset, rights, rightsOffset⟩ := cursor
  obtain ⟨recordOffset_le, rightsOffset_le, whole⟩ := valid
  simp only [records, left] at recordOffset_le rightsOffset_le none_left more ⊢
  have header : cmsgDataOffset = 16 ∧ headerSize = 16 := ⟨rfl, rfl⟩
  have used : rights.length ≤ rightsOffset := List.drop_eq_nil_iff.mp none_left
  have unread : ¬ control.length ≤ recordOffset :=
    fun read => more (List.drop_eq_nil_iff.mpr read)
  have recordLength := @List.length_drop _ recordOffset control
  have sliced :
      slice control recordOffset control.length =
        .ok (control.drop recordOffset) := by
    rw [slice_of ⟨recordOffset_le, le_rfl⟩, List.take_length]
  rw [nextWithin, if_neg (by exact not_lt.mpr used),
    if_neg (show ¬ recordOffset = control.length by omega),
    if_neg (by exact not_lt.mpr recordOffset_le)]
  simp only [readRecord, sliced]
  generalize recordEq : control.drop recordOffset = record at recordLength
  by_cases short : record.length < headerSize
  · rw [if_pos (show control.length - recordOffset < headerSize by omega),
      if_pos short]
  rw [if_neg (show ¬ control.length - recordOffset < headerSize by omega),
    if_neg short]
  have headerSliced : slice record 0 headerSize = .ok (record.take headerSize) := by
    rw [slice_of ⟨Nat.zero_le _, by omega⟩, List.drop_zero]
  have fields :
      (record.take headerSize).take 8 = record.take 8 ∧
        ((record.take headerSize).drop 8).take 4 = (record.drop 8).take 4 ∧
        (record.take headerSize).drop 12 = (record.drop 12).take 4 := by
    refine ⟨?_, ?_, ?_⟩
    · rw [List.take_take, header.2]
      rfl
    · rw [header.2, List.drop_take, List.take_take]
      rfl
    · rw [header.2, List.drop_take]
  obtain ⟨lengthField, levelField, typeField⟩ := fields
  simp only [headerSliced, lengthField, levelField, typeField, bind, Except.bind]
  generalize Wire.readWord (record.take 8) = length
  have aligned := le_cmsgAlign length
  by_cases outside : length < cmsgDataOffset ∨ length > record.length
  · rw [if_pos outside, if_pos outside]
  rw [if_neg outside, if_neg outside]
  by_cases unaligned : cmsgAlign length > record.length ∧ length ≠ record.length
  · rw [if_pos unaligned, if_pos unaligned]
  rw [if_neg unaligned, if_neg unaligned]
  have advanced :
      control.drop (recordOffset + min (cmsgAlign length) record.length) =
        record.drop (min (cmsgAlign length) record.length) := by
    rw [← recordEq, List.drop_drop]
  have within :
      recordOffset + min (cmsgAlign length) record.length ≤ control.length := by
    omega
  by_cases other :
      Wire.readWord ((record.drop 8).take 4) ≠ solSocket ∨
        Wire.readWord ((record.drop 12).take 4) ≠ scmRights
  · rw [if_pos other, if_pos other]
    refine ⟨_, rfl, ⟨within, rightsOffset_le, whole⟩, rfl, advanced, none_left⟩
  rw [if_neg other, if_neg other]
  have dataSliced :
      slice record cmsgDataOffset length =
        .ok ((record.take length).drop cmsgDataOffset) :=
    slice_of ⟨by omega, by omega⟩
  rw [dataSliced]
  generalize (record.take length).drop cmsgDataOffset = data
  dsimp only
  by_cases odd : data.length = 0 ∨ data.length % 4 ≠ 0
  · rw [if_pos odd, if_pos odd]
  rw [if_neg odd, if_neg odd]
  have dataWhole : (data.length - 0) % 4 = 0 := by omega
  exact ⟨_, rfl, ⟨within, Nat.zero_le _, dataWhole⟩, rfl, advanced, List.drop_zero⟩

/-- A round with rights takes the first of them, within bounds. -/
theorem nextWithin_descriptor
    (fuel : Nat)
    {cursor : RightsCursor}
    (valid : cursor.Valid)
    (more : cursor.left ≠ []) :
    ∃ next : RightsCursor,
      nextWithin (fuel + 1) cursor =
          .ok (.ok (some (UInt32.ofNat (Wire.readU32 cursor.left), next))) ∧
        next.Valid ∧ next.control = cursor.control ∧
        next.records = cursor.records ∧ next.left = cursor.left.drop 4 := by
  obtain ⟨control, recordOffset, rights, rightsOffset⟩ := cursor
  obtain ⟨recordOffset_le, rightsOffset_le, whole⟩ := valid
  simp only [records, left] at recordOffset_le rightsOffset_le whole more ⊢
  have unread : rightsOffset < rights.length := by
    apply lt_of_not_ge
    intro read
    exact more (List.drop_eq_nil_iff.mpr read)
  have tailSliced :
      slice rights rightsOffset rights.length = .ok (rights.drop rightsOffset) := by
    rw [slice_of ⟨rightsOffset_le, le_rfl⟩, List.take_length]
  have valueSliced :
      slice (rights.drop rightsOffset) 0 4 =
        .ok ((rights.drop rightsOffset).take 4) := by
    rw [slice_of ⟨Nat.zero_le _, by rw [List.length_drop]; omega⟩, List.drop_zero]
  have restLength : rightsOffset + 4 ≤ rights.length := by omega
  have restWhole : (rights.length - (rightsOffset + 4)) % 4 = 0 := by omega
  rw [nextWithin, if_pos unread]
  simp only [tailSliced, valueSliced, bind, Except.bind]
  exact ⟨_, rfl, ⟨recordOffset_le, restLength, restWhole⟩, rfl, rfl,
    List.drop_drop.symm⟩

theorem nextWithin_of
    {control records rights : List UInt8}
    {fds : List Fd}
    {result : Except Error Unit}
    (reading : Reading records rights fds result)
    {cursor : RightsCursor}
    (valid : cursor.Valid)
    (sameControl : cursor.control = control)
    (sameRecords : cursor.records = records)
    (sameLeft : cursor.left = rights)
    {fuel : Nat}
    (enough : records.length + 1 < fuel) :
    ∃ step, nextWithin fuel cursor = .ok step ∧
      Gives
        (fun next fds => next.Valid ∧ next.control = control ∧
          Reading next.records next.left fds result)
        result fds step := by
  induction reading generalizing cursor fuel with
  | finished =>
      obtain ⟨fuel, rfl⟩ := Nat.exists_eq_add_one_of_ne_zero (by omega : fuel ≠ 0)
      refine ⟨.ok none, ?_, rfl⟩
      have read := List.drop_eq_nil_iff.mp sameRecords
      have used := List.drop_eq_nil_iff.mp sameLeft
      rw [nextWithin, if_neg (not_lt.mpr used),
        if_pos (le_antisymm valid.recordOffset_le read)]
  | malformed more read =>
      obtain ⟨fuel, rfl⟩ := Nat.exists_eq_add_one_of_ne_zero (by omega : fuel ≠ 0)
      subst sameRecords
      have step := nextWithin_record fuel valid sameLeft more
      rw [read] at step
      exact ⟨_, step, rfl⟩
  | record more read reading next_ih =>
      obtain ⟨fuel, rfl⟩ := Nat.exists_eq_add_one_of_ne_zero (by omega : fuel ≠ 0)
      subst sameRecords
      have ⟨shorter, _⟩ := readRecord_spec read
      have header : headerSize = 16 := rfl
      have step := nextWithin_record fuel valid sameLeft more
      rw [read] at step
      obtain ⟨next, same, nextValid, nextControl, nextRecords, nextLeft⟩ := step
      rw [same]
      exact next_ih nextValid (nextControl.trans sameControl) nextRecords nextLeft
        (by omega)
  | descriptor more reading _ =>
      obtain ⟨fuel, rfl⟩ := Nat.exists_eq_add_one_of_ne_zero (by omega : fuel ≠ 0)
      subst sameRecords
      subst sameLeft
      obtain ⟨next, step, nextValid, nextControl, nextRecords, nextLeft⟩ :=
        nextWithin_descriptor fuel valid more
      refine ⟨_, step, next, rfl, nextValid, nextControl.trans sameControl, ?_⟩
      rw [nextRecords, nextLeft]
      exact reading

/-- The cursor gives what the records have next. -/
theorem next_of
    {control : List UInt8}
    {fds : List Fd}
    {result : Except Error Unit}
    {cursor : RightsCursor}
    (valid : cursor.Valid)
    (sameControl : cursor.control = control)
    (reading : Reading cursor.records cursor.left fds result) :
    ∃ step, cursor.next = .ok step ∧
      Gives
        (fun next fds => next.Valid ∧ next.control = control ∧
          Reading next.records next.left fds result)
        result fds step := by
  apply nextWithin_of reading valid sameControl rfl rfl
  rw [records, List.length_drop]
  omega

theorem collectWithin_of
    {control : List UInt8}
    {fds : List Fd}
    {result : Except Error Unit}
    {fuel : Nat}
    (enough : fds.length < fuel)
    {cursor : RightsCursor}
    (valid : cursor.Valid)
    (sameControl : cursor.control = control)
    (reading : Reading cursor.records cursor.left fds result) :
    collectWithin fuel cursor = .ok (fds, result) := by
  induction fds generalizing fuel cursor with
  | nil =>
      obtain ⟨fuel, rfl⟩ := Nat.exists_eq_add_one_of_ne_zero (by omega : fuel ≠ 0)
      obtain ⟨step, next, rfl⟩ := next_of valid sameControl reading
      rw [collectWithin, next]
      cases result with
      | error => rfl
      | ok => rfl
  | cons fd fds collect_ih =>
      rw [List.length_cons] at enough
      obtain ⟨fuel, rfl⟩ := Nat.exists_eq_add_one_of_ne_zero (by omega : fuel ≠ 0)
      obtain ⟨step, next, later, rfl, laterValid, laterControl, laterReading⟩ :=
        next_of valid sameControl reading
      have collected :=
        collect_ih (Nat.lt_of_succ_lt_succ enough) laterValid laterControl
          laterReading
      rw [collectWithin, next]
      simp only [bind, Except.bind, collected]

/-- Reading by offsets is reading the records, with no check failing. -/
theorem collect_of
    {control : List UInt8}
    {fds : List Fd}
    {result : Except Error Unit}
    (reading : Reading control [] fds result) :
    collect control = .ok (fds, result) := by
  have fits := reading.length_le
  rw [List.length_nil] at fits
  exact collectWithin_of (by omega) ⟨Nat.zero_le _, le_rfl, rfl⟩ rfl reading

/-- The reader by offsets and the reader of what is left agree. -/
theorem collect_eq
    (control : List UInt8) :
    collect control = .ok (RightsIterator.collect control) := by
  have ⟨fds, result, reading⟩ :=
    @Reading.exists_of _ control [] control.length le_rfl rfl
  rw [collect_of reading, RightsIterator.collect_of reading]

end RightsCursor

/-! ## Round trip -/

section RoundTrip

variable [Native]

/-- A record with its padding: the descriptors it carries, its length without
the padding, and its bytes. -/
inductive Record : List Fd → Nat → List UInt8 → Prop
  | rights
      {storageLength : Nat}
      {fds : List Fd}
      {bytes : List UInt8}
      (encoded : encodeRights storageLength fds = .ok bytes) :
      Record fds (cmsgDataOffset + fds.length * 4) bytes
  /-- Anything but descriptors. -/
  | other
      {level type : Nat}
      {data padding : List UInt8}
      (levelFits : level < 2 ^ 32)
      (typeFits : type < 2 ^ 32)
      (lengthFits : cmsgDataOffset + data.length < usizeLimit)
      (notRights : level ≠ solSocket ∨ type ≠ scmRights)
      (padded : cmsgDataOffset + data.length + padding.length =
        cmsgAlign (cmsgDataOffset + data.length)) :
      Record [] (cmsgDataOffset + data.length)
        (Wire.writeWord 8 (cmsgDataOffset + data.length) ++
          Wire.writeWord 4 level ++ Wire.writeWord 4 type ++ data ++ padding)

/-- Control bytes made of records, the last one with or without its padding,
and the descriptors in them. -/
inductive Records : List Fd → List UInt8 → Prop
  | nil : Records [] []
  | cons
      {fds laterFds : List Fd}
      {length : Nat}
      {bytes later : List UInt8}
      (record : Record fds length bytes)
      (records : Records laterFds later) :
      Records (fds ++ laterFds) (bytes ++ later)
  | unpadded
      {fds : List Fd}
      {length : Nat}
      {bytes : List UInt8}
      (record : Record fds length bytes) :
      Records fds (bytes.take length)

/-- The bytes of a record's header and data. -/
def recordBytes (level type : Nat) (data : List UInt8) : List UInt8 :=
  Wire.writeWord 8 (cmsgDataOffset + data.length) ++ Wire.writeWord 4 level ++
    Wire.writeWord 4 type ++ data

/-- The length of a record. -/
theorem length_recordBytes
    (level type : Nat)
    (data : List UInt8) :
    (recordBytes level type data).length = cmsgDataOffset + data.length := by
  simp only [recordBytes, List.length_append, Wire.length_writeWord]
  rfl

omit [Native] in
theorem drop_min_length
    (count : Nat)
    (bytes : List UInt8) :
    bytes.drop (min count bytes.length) = bytes.drop count := by
  rcases le_total count bytes.length with inside | past
  · rw [min_eq_left inside]
  · rw [min_eq_right past, List.drop_length, List.drop_eq_nil_of_le past]

/-- A record followed by its padding and more, or by nothing, is read. -/
theorem readRecord_recordBytes
    {level type : Nat}
    {data tail : List UInt8}
    (levelFits : level < 2 ^ 32)
    (typeFits : type < 2 ^ 32)
    (lengthFits : cmsgDataOffset + data.length < usizeLimit)
    (followed : tail = [] ∨
      cmsgAlign (cmsgDataOffset + data.length) ≤
        cmsgDataOffset + data.length + tail.length) :
    readRecord (recordBytes level type data ++ tail) =
      let rest := tail.drop
        (cmsgAlign (cmsgDataOffset + data.length) -
          (cmsgDataOffset + data.length))
      if level ≠ solSocket ∨ type ≠ scmRights then .ok (rest, [])
      else if data.length = 0 ∨ data.length % 4 ≠ 0 then
        .error .malformedControl
      else .ok (rest, data) := by
  have header : cmsgDataOffset = 16 ∧ headerSize = 16 := ⟨rfl, rfl⟩
  have aligned := le_cmsgAlign (cmsgDataOffset + data.length)
  have total :
      (recordBytes level type data ++ tail).length =
        cmsgDataOffset + data.length + tail.length := by
    rw [List.length_append, length_recordBytes]
  have fields :
      recordBytes level type data ++ tail =
        Wire.writeWord 8 (cmsgDataOffset + data.length) ++
          (Wire.writeWord 4 level ++ (Wire.writeWord 4 type ++ (data ++ tail))) := by
    simp only [recordBytes, List.append_assoc]
  have lengthField :
      Wire.readWord ((recordBytes level type data ++ tail).take 8) =
        cmsgDataOffset + data.length := by
    rw [fields, List.take_left' (Wire.length_writeWord _ _)]
    exact Wire.readWord_writeWord lengthFits
  have levelField :
      Wire.readWord (((recordBytes level type data ++ tail).drop 8).take 4) =
        level := by
    rw [fields, List.drop_left' (Wire.length_writeWord _ _),
      List.take_left' (Wire.length_writeWord _ _)]
    exact Wire.readWord_writeWord levelFits
  have typeField :
      Wire.readWord (((recordBytes level type data ++ tail).drop 12).take 4) =
        type := by
    rw [fields, ← List.append_assoc, List.drop_left' (by simp),
      List.take_left' (Wire.length_writeWord _ _)]
    exact Wire.readWord_writeWord typeFits
  have dataField :
      ((recordBytes level type data ++ tail).take
        (cmsgDataOffset + data.length)).drop cmsgDataOffset = data := by
    rw [List.take_left' (length_recordBytes _ _ _), recordBytes]
    exact List.drop_left' (by simp [header.1])
  have restField :
      (recordBytes level type data ++ tail).drop
          (min (cmsgAlign (cmsgDataOffset + data.length))
            (cmsgDataOffset + data.length + tail.length)) =
        tail.drop
          (cmsgAlign (cmsgDataOffset + data.length) -
            (cmsgDataOffset + data.length)) := by
    rw [← total, drop_min_length, List.drop_append, length_recordBytes,
      List.drop_eq_nil_of_le (by rw [length_recordBytes]; exact aligned),
      List.nil_append]
  rw [readRecord]
  simp only [lengthField, levelField, typeField, dataField, total, restField]
  rw [if_neg (by omega), if_neg (by omega), if_neg]
  rintro ⟨past, open_⟩
  rcases followed with rfl | padded
  · exact open_ rfl
  · omega

/-- The data of a record of descriptors. -/
def rightsBytes (fds : List Fd) : List UInt8 :=
  fds.flatMap fun fd => Wire.writeWord 4 fd.toNat

/-- The length of descriptors. -/
theorem length_rightsBytes
    (fds : List Fd) : (rightsBytes fds).length = fds.length * 4 := by
  induction fds with
  | nil => rfl
  | cons fd fds length_ih =>
      rw [rightsBytes] at length_ih
      rw [rightsBytes, List.flatMap_cons, List.length_append, length_ih,
        Wire.length_writeWord, List.length_cons]
      omega

/-- Descriptors are read back. -/
theorem Reading.rightsBytes
    {records : List UInt8}
    {later : List Fd}
    {result : Except Error Unit}
    (reading : Reading records [] later result)
    (fds : List Fd) :
    Reading records (rightsBytes fds) (fds ++ later) result := by
  induction fds with
  | nil => exact reading
  | cons fd fds reading_ih =>
      have split :
          Ancillary.rightsBytes (fd :: fds) =
            Wire.writeWord 4 fd.toNat ++ Ancillary.rightsBytes fds :=
        List.flatMap_cons
      have first :
          UInt32.ofNat (Wire.readU32 (Ancillary.rightsBytes (fd :: fds))) = fd := by
        rw [split, Wire.readU32, List.take_left' (Wire.length_writeWord _ _),
          Wire.readWord_writeWord (show fd.toNat < 256 ^ 4 from fd.toNat_lt)]
        exact UInt32.ofNat_toNat
      have rest :
          (Ancillary.rightsBytes (fd :: fds)).drop 4 = Ancillary.rightsBytes fds := by
        rw [split, List.drop_left' (Wire.length_writeWord _ _)]
      have more : Ancillary.rightsBytes (fd :: fds) ≠ [] := by
        apply List.ne_nil_of_length_pos
        rw [length_rightsBytes, List.length_cons]
        omega
      rw [List.cons_append]
      have step := Reading.descriptor more (by rw [rest]; exact reading_ih)
      rwa [first] at step

omit [Native] in
/-- The size of a record with descriptors is aligned and large enough. -/
theorem rightsControlSize_spec
    {fdCount space : Nat}
    (nonempty : fdCount ≠ 0)
    (sized : rightsControlSize fdCount = .ok space) :
    cmsgDataOffset + fdCount * 4 < usizeLimit ∧
      space = cmsgAlign (cmsgDataOffset + fdCount * 4) := by
  rw [rightsControlSize, if_neg nonempty] at sized
  split at sized
  · cases sized
  split at sized
  · cases sized
  · rename_i fits
    cases sized
    exact ⟨not_le.mp fits, rfl⟩

/-- What is encoded is one record of all the descriptors. -/
theorem encodeRights_spec
    {storageLength : Nat}
    {fds : List Fd}
    {bytes : List UInt8}
    (encoded : encodeRights storageLength fds = .ok bytes) :
    fds ≠ [] ∧ cmsgDataOffset + fds.length * 4 < usizeLimit ∧
      bytes = recordBytes solSocket scmRights (rightsBytes fds) ++
        List.replicate
          (cmsgAlign (cmsgDataOffset + fds.length * 4) -
            (cmsgDataOffset + fds.length * 4)) 0 := by
  rw [encodeRights] at encoded
  split at encoded
  · cases encoded
  rename_i nonempty
  cases sized : rightsControlSize fds.length with
  | error cause =>
      rw [sized] at encoded
      cases encoded
  | ok space =>
      have ⟨fits, spaceEq⟩ :=
        rightsControlSize_spec
          (fun none => nonempty (List.length_eq_zero_iff.mp none)) sized
      simp only [sized] at encoded
      split at encoded
      · cases encoded
      cases encoded
      refine ⟨nonempty, fits, ?_⟩
      rw [recordBytes, length_rightsBytes, spaceEq]
      rfl

/-- Every record is its header, its data, and its padding. -/
theorem Record.shape
    {fds : List Fd}
    {length : Nat}
    {bytes : List UInt8}
    (record : Record fds length bytes) :
    ∃ level type data padding,
      bytes = recordBytes level type data ++ padding ∧
        length = cmsgDataOffset + data.length ∧
        length + padding.length = cmsgAlign length ∧
        level < 2 ^ 32 ∧ type < 2 ^ 32 ∧ length < usizeLimit ∧
        (((level ≠ solSocket ∨ type ≠ scmRights) ∧ fds = []) ∨
          (level = solSocket ∧ type = scmRights ∧ fds ≠ [] ∧
            data = rightsBytes fds)) := by
  cases record with
  | other levelFits typeFits lengthFits notRights padded =>
      exact ⟨_, _, _, _, rfl, rfl, padded, levelFits, typeFits, lengthFits,
        .inl ⟨notRights, rfl⟩⟩
  | rights encoded =>
      have ⟨nonempty, fits, bytesEq⟩ := encodeRights_spec encoded
      have aligned := le_cmsgAlign (cmsgDataOffset + fds.length * 4)
      refine ⟨solSocket, scmRights, rightsBytes fds, _, bytesEq, ?_, ?_,
        by decide, by decide, fits, .inr ⟨rfl, rfl, nonempty, rfl⟩⟩
      · rw [length_rightsBytes]
      · rw [List.length_replicate]
        omega

/-- A record followed by its padding and what can be read, or by nothing, can
be read. -/
theorem Reading.of_record
    {fds later : List Fd}
    {level type : Nat}
    {data tail : List UInt8}
    {result : Except Error Unit}
    (levelFits : level < 2 ^ 32)
    (typeFits : type < 2 ^ 32)
    (lengthFits : cmsgDataOffset + data.length < usizeLimit)
    (kind : ((level ≠ solSocket ∨ type ≠ scmRights) ∧ fds = []) ∨
      (level = solSocket ∧ type = scmRights ∧ fds ≠ [] ∧
        data = Ancillary.rightsBytes fds))
    (followed : tail = [] ∨
      cmsgAlign (cmsgDataOffset + data.length) ≤
        cmsgDataOffset + data.length + tail.length)
    (reading : Reading
      (tail.drop
        (cmsgAlign (cmsgDataOffset + data.length) -
          (cmsgDataOffset + data.length))) [] later result) :
    Reading (recordBytes level type data ++ tail) [] (fds ++ later) result := by
  have read := readRecord_recordBytes levelFits typeFits lengthFits followed
  have more : recordBytes level type data ++ tail ≠ [] := by
    apply List.ne_nil_of_length_pos
    rw [List.length_append, length_recordBytes]
    exact Nat.add_pos_left (Nat.add_pos_left (by decide) _) _
  rcases kind with ⟨notRights, rfl⟩ | ⟨rfl, rfl, nonempty, rfl⟩
  · rw [if_pos notRights] at read
    exact .record more read reading
  · have some_fds := List.length_pos_of_ne_nil nonempty
    have size := length_rightsBytes fds
    rw [if_neg (by simp), if_neg (by omega)] at read
    exact .record more read (reading.rightsBytes fds)

/-- Encoded records are read without an error. -/
theorem Records.reading
    {fds : List Fd}
    {control : List UInt8}
    (records : Records fds control) : Reading control [] fds (.ok ()) := by
  induction records with
  | nil => exact .finished
  | cons record _ reading_ih =>
      obtain ⟨level, type, data, padding, rfl, rfl, padded, levelFits, typeFits,
        lengthFits, kind⟩ := record.shape
      rw [List.append_assoc]
      apply Reading.of_record levelFits typeFits lengthFits kind
      · right
        rw [List.length_append]
        omega
      · rw [List.drop_left' (by omega)]
        exact reading_ih
  | @unpadded fds length bytes record =>
      obtain ⟨level, type, data, padding, rfl, rfl, padded, levelFits, typeFits,
        lengthFits, kind⟩ := record.shape
      rw [List.take_left' (length_recordBytes _ _ _), ← List.append_nil fds,
        ← List.append_nil (recordBytes _ _ _)]
      apply Reading.of_record levelFits typeFits lengthFits kind (.inl rfl)
      rw [List.drop_nil]
      exact .finished

/-- Records are read back as the descriptors in them, and any control bytes
are read to an end, within their bounds, as descriptors or as malformed. -/
theorem collect_records :
    (∀ {fds control}, Records fds control →
      RightsCursor.collect control = .ok (fds, .ok ())) ∧
    ∀ control, ∃ fds result,
      RightsCursor.collect control = .ok (fds, result) ∧
        (result = .ok () ∨ result = .error .malformedControl) := by
  constructor
  · intro fds control records
    exact RightsCursor.collect_of records.reading
  · intro control
    have ⟨fds, result, reading⟩ :=
      @Reading.exists_of _ control [] control.length le_rfl rfl
    exact ⟨fds, result, RightsCursor.collect_of reading, reading.result_eq⟩

end RoundTrip

/-! ## Sample -/

section Sample

local instance controlNative : Native := ⟨.little⟩

/-- A record of two descriptors, one of credentials, and one of a descriptor
without its padding. -/
def sampleControl : List UInt8 :=
  recordBytes solSocket scmRights (rightsBytes [7, 9]) ++
    (recordBytes solSocket 2 [1, 2, 3] ++ [0, 0, 0, 0, 0] ++
      (recordBytes solSocket scmRights (rightsBytes [5]) ++ [0, 0, 0, 0]).take 20)

/-- The sample has three descriptors in two records. -/
theorem sampleControl_records : Records [7, 9, 5] sampleControl := by
  apply @Records.cons _ [7, 9] [5] 24
  · exact @Record.rights _ 64 [7, 9] _ (by decide +kernel)
  apply @Records.cons _ [] [5] 19
  · exact @Record.other _ solSocket 2 [1, 2, 3] [0, 0, 0, 0, 0]
      (by decide) (by decide) (by decide) (.inr (by decide)) (by decide)
  · exact @Records.unpadded _ [5] 20 _
      (@Record.rights _ 64 [5] _ (by decide +kernel))

theorem collect_sampleControl :
    RightsCursor.collect sampleControl = .ok ([7, 9, 5], .ok ()) :=
  collect_records.1 sampleControl_records

end Sample
end Ancillary
end Wayring
