import Wayring.Foundation.ListWrites
import Mathlib.Data.List.GetD
import Mathlib.Tactic

/-!
# Linear probing with backward-shift deletion

An open-addressed table is a cyclic list of optional entries.  Every entry
has a home position, and the entries between its home and the slot holding it
are never empty.  This module develops the positions, the probe loop, and the
deletion loop for arbitrary entries and home functions.
-/

namespace LinearProbing

variable {α κ : Type*}

/-! ## Cyclic positions -/

/-- The slot after `index` in a table of `slotCount` slots. -/
def next (slotCount index : Nat) : Nat :=
  if index + 1 = slotCount then 0 else index + 1

/-- Number of forward steps from `start` to `stop`. -/
def distance (slotCount start stop : Nat) : Nat :=
  if start ≤ stop then stop - start else stop + slotCount - start

/-- The next slot is one of the table's. -/
theorem next_lt {slotCount index : Nat} (indexBound : index < slotCount) :
    next slotCount index < slotCount := by
  unfold next
  split <;> omega

/-- Distances are below the number of slots. -/
theorem distance_lt
    {slotCount stop : Nat}
    (start : Nat)
    (stopBound : stop < slotCount) :
    distance slotCount start stop < slotCount := by
  unfold distance
  split <;> omega

@[simp] theorem distance_self (slotCount start : Nat) :
    distance slotCount start start = 0 := by
  simp [distance]

/-- Slots at one distance are the same. -/
theorem eq_of_distance_eq
    {slotCount start left right : Nat}
    (startBound : start < slotCount)
    (leftBound : left < slotCount)
    (rightBound : right < slotCount)
    (equal : distance slotCount start left = distance slotCount start right) :
    left = right := by
  unfold distance at equal
  split_ifs at equal <;> omega

/-- Stepping past `stop` adds one to its distance, unless it wraps onto the
start. -/
theorem distance_next
    {slotCount start : Nat}
    (startBound : start < slotCount)
    (stop : Nat)
    (unwrapped : distance slotCount start stop + 1 < slotCount) :
    distance slotCount start (next slotCount stop) =
      distance slotCount start stop + 1 := by
  unfold distance next at *
  split_ifs at * <;> omega

/-- The next slot is one step away. -/
theorem distance_next_self
    {slotCount start : Nat}
    (startBound : start < slotCount)
    (wide : 1 < slotCount) :
    distance slotCount start (next slotCount start) = 1 := by
  rw [distance_next startBound start] <;> rw [distance_self]
  omega

/-- Distances along one forward walk add up. -/
theorem distance_add
    {slotCount start middle stop : Nat}
    (startBound : start < slotCount)
    (middleBound : middle < slotCount)
    (stopBound : stop < slotCount)
    (ordered : distance slotCount start middle ≤ distance slotCount start stop) :
    distance slotCount start stop =
      distance slotCount start middle + distance slotCount middle stop := by
  unfold distance at *
  split_ifs at * <;> omega

/-! ## Slots -/

/-- Entry stored at a position; positions past the end are empty. -/
def entryAt (slots : List (Option α)) (index : Nat) : Option α :=
  slots.getD index none

/-- An entry is inside the table. -/
theorem lt_length_of_entryAt
    {slots : List (Option α)} {index : Nat} {entry : α}
    (stored : entryAt slots index = some entry) : index < slots.length := by
  by_contra outside
  rw [entryAt, List.getD_eq_default _ _ (Nat.le_of_not_lt outside)] at stored
  cases stored

theorem entryAt_eq_getElem
    {slots : List (Option α)} {index : Nat}
    (bound : index < slots.length) :
    entryAt slots index = slots[index] :=
  List.getD_eq_getElem _ _ bound

/-- Writing a slot changes that slot alone. -/
theorem entryAt_set
    {slots : List (Option α)} {target : Nat}
    (targetBound : target < slots.length)
    (content : Option α) (index : Nat) :
    entryAt (slots.set target content) index =
      if index = target then content else entryAt slots index :=
  ListWrites.getD_set targetBound content none index

@[simp] theorem entryAt_replicate_none (count index : Nat) :
    entryAt (List.replicate count (none : Option α)) index = none := by
  unfold entryAt
  rw [List.getD_eq_getElem?_getD, List.getElem?_replicate]
  split <;> rfl

/-- Number of occupied slots. -/
def occupied (slots : List (Option α)) : Nat :=
  slots.countP Option.isSome

@[simp] theorem occupied_replicate_none (count : Nat) :
    occupied (List.replicate count (none : Option α)) = 0 := by
  simp [occupied, List.countP_replicate]

/-- Filling a slot adds an entry. -/
theorem occupied_set_some
    {slots : List (Option α)} {target : Nat}
    (targetBound : target < slots.length)
    (vacant : entryAt slots target = none) (entry : α) :
    occupied (slots.set target (some entry)) = occupied slots + 1 := by
  have content : slots[target] = none := by
    rwa [entryAt_eq_getElem targetBound] at vacant
  simp [occupied, List.countP_set targetBound, content]

/-- Replacing an entry adds none. -/
theorem occupied_replace
    {slots : List (Option α)} {target : Nat} {old : α}
    (stored : entryAt slots target = some old) (entry : α) :
    occupied (slots.set target (some entry)) = occupied slots := by
  have targetBound := lt_length_of_entryAt stored
  have content : slots[target] = some old := by
    rwa [entryAt_eq_getElem targetBound] at stored
  have positive : 0 < slots.countP Option.isSome := by
    rw [List.countP_pos_iff]
    exact ⟨some old, content ▸ List.getElem_mem targetBound, rfl⟩
  simp only [occupied, List.countP_set targetBound, content,
    Option.isSome_some, if_true]
  omega

/-- Clearing a slot takes an entry away. -/
theorem occupied_set_none
    {slots : List (Option α)} {target : Nat} {old : α}
    (stored : entryAt slots target = some old) :
    occupied (slots.set target none) + 1 = occupied slots := by
  have targetBound := lt_length_of_entryAt stored
  have content : slots[target] = some old := by
    rwa [entryAt_eq_getElem targetBound] at stored
  have positive : 0 < slots.countP Option.isSome := by
    rw [List.countP_pos_iff]
    exact ⟨some old, content ▸ List.getElem_mem targetBound, rfl⟩
  simp only [occupied, List.countP_set targetBound, content,
    Option.isSome_some, Option.isSome_none, if_true, Bool.false_eq_true,
    if_false]
  omega

/-- A table with fewer entries than slots has an empty slot. -/
theorem exists_vacant
    {slots : List (Option α)}
    (room : occupied slots < slots.length) :
    ∃ index, index < slots.length ∧ entryAt slots index = none := by
  by_contra full
  push Not at full
  have all : ∀ slot ∈ slots, Option.isSome slot = true := by
    intro slot member
    obtain ⟨index, indexBound, rfl⟩ := List.mem_iff_getElem.mp member
    have nonempty := full index indexBound
    rw [entryAt_eq_getElem indexBound] at nonempty
    exact Option.isSome_iff_ne_none.mpr nonempty
  have := List.countP_eq_length.mpr all
  unfold occupied at room
  omega

/-! ## Valid tables -/

/-- Every entry is reachable from its home through occupied slots. -/
structure Valid (home : α → Nat) (slots : List (Option α)) : Prop where
  home_lt : ∀ {index entry}, entryAt slots index = some entry →
    home entry < slots.length
  reach : ∀ {index entry}, entryAt slots index = some entry →
    ∀ position, position < slots.length →
      distance slots.length (home entry) position <
        distance slots.length (home entry) index →
      (entryAt slots position).isSome

/-- No two slots hold entries with one key. -/
def KeysDistinct (key : α → κ) (slots : List (Option α)) : Prop :=
  ∀ {left right : Nat} {first second : α},
    entryAt slots left = some first → entryAt slots right = some second →
      key first = key second → left = right

/-- An empty table is valid. -/
theorem valid_replicate_none (home : α → Nat) (count : Nat) :
    Valid home (List.replicate count none) where
  home_lt stored := by simp at stored
  reach stored := by simp at stored

/-- An empty table has no key twice. -/
theorem keysDistinct_replicate_none (key : α → κ) (count : Nat) :
    KeysDistinct key (List.replicate count none) := by
  intro left right first second stored
  simp at stored

/-- Filling the first vacancy of a probe sequence keeps the table valid. -/
theorem Valid.fill
    {home : α → Nat} {slots : List (Option α)}
    (valid : Valid home slots)
    {target : Nat} {entry : α}
    (targetBound : target < slots.length)
    (homeBound : home entry < slots.length)
    (path : ∀ position, position < slots.length →
      distance slots.length (home entry) position <
        distance slots.length (home entry) target →
      (entryAt slots position).isSome) :
    Valid home (slots.set target (some entry)) := by
  have keeps (position : Nat) (held : (entryAt slots position).isSome) :
      (entryAt (slots.set target (some entry)) position).isSome := by
    rw [entryAt_set targetBound]
    split <;> simp [held]
  constructor
  · intro index stored content
    rw [entryAt_set targetBound] at content
    rw [List.length_set]
    split at content
    · rw [← Option.some.inj content]
      exact homeBound
    · exact valid.home_lt content
  · intro index stored content position positionBound closer
    rw [List.length_set] at positionBound closer
    rw [entryAt_set targetBound] at content
    apply keeps
    split at content
    · next same =>
        subst same
        cases Option.some.inj content
        exact path position positionBound closer
    · exact valid.reach content position positionBound closer

/-- Replacing an entry by one with the same home keeps the table valid. -/
theorem Valid.replace
    {home : α → Nat} {slots : List (Option α)}
    (valid : Valid home slots)
    {target : Nat} {old entry : α}
    (stored : entryAt slots target = some old)
    (sameHome : home entry = home old) :
    Valid home (slots.set target (some entry)) := by
  apply valid.fill (lt_length_of_entryAt stored)
  · rw [sameHome]
    exact valid.home_lt stored
  · rw [sameHome]
    exact valid.reach stored

/-- Writing an entry whose key occurs in no other slot keeps keys distinct. -/
theorem KeysDistinct.set
    {key : α → κ} {slots : List (Option α)}
    (distinct : KeysDistinct key slots)
    {target : Nat} {entry : α}
    (targetBound : target < slots.length)
    (absent : ∀ index other, entryAt slots index = some other →
      key other = key entry → index = target) :
    KeysDistinct key (slots.set target (some entry)) := by
  intro left right first second atLeft atRight equal
  rw [entryAt_set targetBound] at atLeft atRight
  split at atLeft <;> split at atRight
  · omega
  · next leftTarget _ =>
      cases Option.some.inj atLeft
      rw [leftTarget, absent right second atRight equal.symm]
  · next _ rightTarget =>
      cases Option.some.inj atRight
      rw [rightTarget, absent left first atLeft equal]
  · exact distinct atLeft atRight equal

/-! ## Probing -/

/-- Where a probe sequence ends. -/
inductive Probe
  | hit (index : Nat)
  | vacant (index : Nat)
  | exhausted
  deriving DecidableEq, Repr

/-- Follow `advance` from `index` until an entry matches or a slot is empty. -/
def probe
    (advance : Nat → Nat)
    (matched : α → Bool)
    (slots : List (Option α)) : Nat → Nat → Probe
  | 0, _ => .exhausted
  | fuel + 1, index =>
      match entryAt slots index with
      | none => .vacant index
      | some entry =>
          if matched entry then .hit index
          else probe advance matched slots fuel (advance index)

/-- The slots a probe has passed: occupied, and none of them a match. -/
def Passed
    (matched : α → Bool)
    (slots : List (Option α))
    (start bound : Nat) : Prop :=
  ∀ position, position < slots.length →
    distance slots.length start position < bound →
    ∃ entry, entryAt slots position = some entry ∧ matched entry = false

/-- What the end of a probe sequence from `start` says about the table. -/
def ProbeSpec
    (matched : α → Bool)
    (slots : List (Option α))
    (start : Nat) : Probe → Prop
  | .hit index =>
      ∃ entry, entryAt slots index = some entry ∧ matched entry = true
  | .vacant index =>
      index < slots.length ∧ entryAt slots index = none ∧
        Passed matched slots start (distance slots.length start index)
  | .exhausted => Passed matched slots start slots.length

/-- Passing one more slot extends the passed stretch by that slot. -/
theorem Passed.extend
    {matched : α → Bool} {slots : List (Option α)} {start index : Nat}
    (startBound : start < slots.length)
    (passed : Passed matched slots start (distance slots.length start index))
    {entry : α}
    (stored : entryAt slots index = some entry)
    (rejected : matched entry = false) :
    Passed matched slots start (distance slots.length start index + 1) := by
  intro position positionBound closer
  by_cases last :
      distance slots.length start position = distance slots.length start index
  · rw [eq_of_distance_eq startBound positionBound (lt_length_of_entryAt stored) last]
    exact ⟨entry, stored, rejected⟩
  · exact passed position positionBound (by omega)

/-- One revolution decides the probe from any point whose predecessors were
already passed. -/
theorem probe_spec_from
    {advance : Nat → Nat} {matched : α → Bool} {slots : List (Option α)}
    {start : Nat}
    (startBound : start < slots.length)
    (agrees : ∀ index, index < slots.length →
      advance index = next slots.length index)
    (fuel index : Nat)
    (indexBound : index < slots.length)
    (budget : distance slots.length start index + fuel = slots.length)
    (passed : Passed matched slots start (distance slots.length start index)) :
    ProbeSpec matched slots start
      (probe advance matched slots fuel index) := by
  induction fuel generalizing index with
  | zero =>
      have short := distance_lt start indexBound
      omega
  | succ fuel inductionHypothesis =>
      cases stored : entryAt slots index with
      | none =>
          simp only [probe, stored]
          exact ⟨indexBound, stored, passed⟩
      | some entry =>
          simp only [probe, stored]
          cases decided : matched entry with
          | true => exact ⟨entry, stored, decided⟩
          | false =>
              simp only [Bool.false_eq_true, if_false]
              have extended := passed.extend startBound stored decided
              cases fuel with
              | zero =>
                  rw [budget] at extended
                  exact extended
              | succ rest =>
                  rw [agrees index indexBound]
                  have stepped := distance_next startBound index
                    (by omega)
                  apply inductionHypothesis
                  · exact next_lt indexBound
                  · omega
                  · rw [stepped]
                    exact extended

/-- A full probe from `start` meets its specification. -/
theorem probe_spec
    {advance : Nat → Nat} {matched : α → Bool} {slots : List (Option α)}
    {start : Nat}
    (startBound : start < slots.length)
    (agrees : ∀ index, index < slots.length →
      advance index = next slots.length index) :
    ProbeSpec matched slots start
      (probe advance matched slots slots.length start) := by
  apply probe_spec_from startBound agrees _ _ startBound
  · simp
  · intro position _ closer
    simp at closer

/-- A match stored in a valid table is never beyond an empty slot. -/
theorem Passed.absent
    {matched : α → Bool} {slots : List (Option α)} {home : α → Nat}
    {start vacancy : Nat}
    (valid : Valid home slots)
    (startBound : start < slots.length)
    (vacancyBound : vacancy < slots.length)
    (vacant : entryAt slots vacancy = none)
    (passed : Passed matched slots start (distance slots.length start vacancy))
    {index : Nat} {entry : α}
    (stored : entryAt slots index = some entry)
    (homed : home entry = start) :
    matched entry = false := by
  have indexBound := lt_length_of_entryAt stored
  by_contra found
  have beyond : distance slots.length start vacancy ≤
      distance slots.length start index := by
    by_contra before
    obtain ⟨other, held, rejected⟩ :=
      passed index indexBound (Nat.lt_of_not_le before)
    rw [stored] at held
    cases Option.some.inj held
    exact found rejected
  rcases Nat.lt_or_eq_of_le beyond with closer | same
  · have held := valid.reach stored vacancy vacancyBound (homed ▸ closer)
    rw [vacant] at held
    cases held
  · rw [← eq_of_distance_eq startBound vacancyBound indexBound same,
      vacant] at stored
    cases stored

/-- Only a full table can exhaust a probe. -/
theorem Passed.full
    {matched : α → Bool} {slots : List (Option α)} {start : Nat}
    (passed : Passed matched slots start slots.length) :
    ¬ occupied slots < slots.length := by
  intro room
  obtain ⟨index, indexBound, vacant⟩ := exists_vacant room
  obtain ⟨entry, stored, _⟩ :=
    passed index indexBound (distance_lt start indexBound)
  rw [vacant] at stored
  cases stored

/-! ## Backward-shift deletion -/

/-- Move later entries of the run back over `hole` until the run ends. -/
def closeHole
    (advance : Nat → Nat)
    (gap : Nat → Nat → Nat)
    (home : α → Nat) : Nat → List (Option α) → Nat → Nat → List (Option α)
  | 0, slots, hole, _ => slots.set hole none
  | fuel + 1, slots, hole, scan =>
      match entryAt slots scan with
      | none => slots.set hole none
      | some entry =>
          if gap (home entry) hole < gap (home entry) scan then
            closeHole advance gap home fuel
              (slots.set hole (some entry)) scan (advance scan)
          else closeHole advance gap home fuel slots hole (advance scan)

/-- An entry stored in a slot other than the hole. -/
def StoredOff
    (hole : Nat)
    (slots : List (Option α))
    (entry : α) : Prop :=
  ∃ index, index ≠ hole ∧ entryAt slots index = some entry

/-- A valid table but for one stale slot that some probe paths cross. -/
structure HoleInvariant
    (home : α → Nat)
    (key : α → κ)
    (slots : List (Option α))
    (hole scan : Nat) : Prop where
  held : (entryAt slots hole).isSome
  home_lt : ∀ {index entry}, index ≠ hole →
    entryAt slots index = some entry → home entry < slots.length
  reach : ∀ {index entry}, index ≠ hole →
    entryAt slots index = some entry →
    ∀ position, position < slots.length →
      distance slots.length (home entry) position <
        distance slots.length (home entry) index →
      (entryAt slots position).isSome
  settled : ∀ {index entry}, index ≠ hole →
    entryAt slots index = some entry →
    distance slots.length hole index < distance slots.length hole scan →
    distance slots.length (home entry) index <
      distance slots.length (home entry) hole
  separate : ∀ {left right : Nat} {first second : α}, left ≠ hole →
    right ≠ hole → entryAt slots left = some first →
    entryAt slots right = some second → key first = key second → left = right

/-- Where an entry is removed, the invariant of the hole holds at first. -/
theorem Valid.holeInvariant
    {home : α → Nat} {key : α → κ} {slots : List (Option α)}
    (valid : Valid home slots)
    (distinct : KeysDistinct key slots)
    {hole : Nat}
    (held : (entryAt slots hole).isSome)
    (wide : 1 < slots.length) :
    HoleInvariant home key slots hole (next slots.length hole) where
  held := held
  home_lt _ stored := valid.home_lt stored
  reach _ stored := valid.reach stored
  settled := by
    intro index entry apart stored closer
    obtain ⟨_, content⟩ := Option.isSome_iff_exists.mp held
    have holeBound := lt_length_of_entryAt content
    have stepped := distance_next_self holeBound wide
    have same : distance slots.length hole index =
        distance slots.length hole hole := by
      rw [distance_self]
      omega
    exact absurd
      (eq_of_distance_eq holeBound (lt_length_of_entryAt stored) holeBound same)
      apart
  separate _ _ := distinct

namespace HoleInvariant

variable {home : α → Nat} {key : α → κ} {slots : List (Option α)}
  {hole scan : Nat}

/-- The hole is inside the table. -/
theorem hole_lt (invariant : HoleInvariant home key slots hole scan) :
    hole < slots.length := by
  obtain ⟨_, content⟩ := Option.isSome_iff_exists.mp invariant.held
  exact lt_length_of_entryAt content

/-- An entry that cannot cross the hole stays, and the scan moves on. -/
theorem keep
    (invariant : HoleInvariant home key slots hole scan)
    {entry : α}
    (stored : entryAt slots scan = some entry)
    (apart : scan ≠ hole)
    (stays : distance slots.length (home entry) scan ≤
      distance slots.length (home entry) hole)
    (unwrapped : distance slots.length hole scan + 1 < slots.length) :
    HoleInvariant home key slots hole (next slots.length scan) := by
  refine ⟨invariant.held, invariant.home_lt, invariant.reach, ?_,
    invariant.separate⟩
  intro index other offHole content closer
  have scanBound := lt_length_of_entryAt stored
  have indexBound := lt_length_of_entryAt content
  rw [distance_next invariant.hole_lt scan unwrapped] at closer
  by_cases same : distance slots.length hole index =
      distance slots.length hole scan
  · cases eq_of_distance_eq invariant.hole_lt indexBound scanBound same
    rw [stored] at content
    cases Option.some.inj content
    apply Nat.lt_of_le_of_ne stays
    intro equal
    exact apart (eq_of_distance_eq (invariant.home_lt offHole stored)
      scanBound invariant.hole_lt equal)
  · exact invariant.settled offHole content (by omega)

/-- Moving the scanned entry into the hole makes its old slot the hole. -/
theorem move
    (invariant : HoleInvariant home key slots hole scan)
    {entry : α}
    (stored : entryAt slots scan = some entry)
    (apart : scan ≠ hole)
    (crosses : distance slots.length (home entry) hole <
      distance slots.length (home entry) scan)
    (wide : 1 < slots.length) :
    HoleInvariant home key (slots.set hole (some entry)) scan
      (next slots.length scan) := by
  have holeBound := invariant.hole_lt
  have scanBound := lt_length_of_entryAt stored
  have keeps (position : Nat) (content : (entryAt slots position).isSome) :
      (entryAt (slots.set hole (some entry)) position).isSome := by
    rw [entryAt_set holeBound]
    split <;> simp [content]
  refine ⟨?_, ?_, ?_, ?_, ?_⟩
  · apply keeps
    simp [stored]
  · intro index other offScan content
    rw [List.length_set]
    rw [entryAt_set holeBound] at content
    split at content
    · rw [← Option.some.inj content]
      exact invariant.home_lt apart stored
    · next offHole => exact invariant.home_lt offHole content
  · intro index other offScan content position positionBound closer
    rw [List.length_set] at positionBound closer
    rw [entryAt_set holeBound] at content
    apply keeps
    split at content
    · next same =>
        subst same
        cases Option.some.inj content
        exact invariant.reach apart stored position positionBound
          (Nat.lt_trans closer crosses)
    · next offHole =>
        exact invariant.reach offHole content position positionBound closer
  · intro index other offScan content closer
    rw [List.length_set] at closer
    have stepped := distance_next_self scanBound wide
    have indexBound : index < slots.length := by
      simpa using lt_length_of_entryAt content
    have same : distance slots.length scan index =
        distance slots.length scan scan := by
      rw [distance_self]
      omega
    exact absurd (eq_of_distance_eq scanBound indexBound scanBound same) offScan
  · intro left right first second leftOff rightOff atLeft atRight equal
    rw [entryAt_set holeBound] at atLeft atRight
    split at atLeft <;> split at atRight
    · omega
    · next rightApart =>
        cases Option.some.inj atLeft
        exact absurd (invariant.separate apart rightApart stored atRight equal)
          (Ne.symm rightOff)
    · next leftApart _ =>
        cases Option.some.inj atRight
        exact absurd (invariant.separate leftApart apart atLeft stored equal)
          leftOff
    · next leftApart rightApart =>
        exact invariant.separate leftApart rightApart atLeft atRight equal

/-- A move only relocates one entry. -/
theorem storedOff_move
    (invariant : HoleInvariant home key slots hole scan)
    {entry : α}
    (stored : entryAt slots scan = some entry)
    (apart : scan ≠ hole)
    (other : α) :
    StoredOff scan (slots.set hole (some entry)) other ↔
      StoredOff hole slots other := by
  constructor
  · rintro ⟨index, offScan, content⟩
    rw [entryAt_set invariant.hole_lt] at content
    split at content
    · cases Option.some.inj content
      exact ⟨scan, apart, stored⟩
    · next offHole => exact ⟨index, offHole, content⟩
  · rintro ⟨index, offHole, content⟩
    by_cases same : index = scan
    · subst same
      rw [stored] at content
      refine ⟨hole, Ne.symm apart, ?_⟩
      rw [entryAt_set invariant.hole_lt, if_pos rfl, ← content]
    · refine ⟨index, same, ?_⟩
      rw [entryAt_set invariant.hole_lt, if_neg offHole, content]

/-- Emptying the hole at the end of its run leaves a valid table: a path that
crosses the hole crosses the empty scan slot, unless its entry was passed over
by the scan. -/
theorem clear
    (invariant : HoleInvariant home key slots hole scan)
    (scanBound : scan < slots.length)
    (apart : scan ≠ hole)
    (vacant : entryAt slots scan = none) :
    Valid home (slots.set hole none) := by
  have holeBound := invariant.hole_lt
  constructor
  · intro index entry content
    rw [List.length_set]
    rw [entryAt_set holeBound] at content
    split at content
    · cases content
    · next offHole => exact invariant.home_lt offHole content
  · intro index entry content position positionBound closer
    rw [List.length_set] at positionBound closer
    rw [entryAt_set holeBound] at content
    split at content
    · cases content
    · next offHole =>
        have indexBound := lt_length_of_entryAt content
        have homeBound := invariant.home_lt offHole content
        rw [entryAt_set holeBound]
        split
        · next crossed =>
            subst crossed
            exfalso
            by_cases passed : distance slots.length position index <
                distance slots.length position scan
            · have := invariant.settled offHole content passed
              omega
            · have scanCloser : distance slots.length (home entry) scan <
                  distance slots.length (home entry) index := by
                have differs : index ≠ scan := by
                  intro same
                  rw [same, vacant] at content
                  cases content
                have apartGap : distance slots.length position index ≠
                    distance slots.length position scan := fun same =>
                  differs (eq_of_distance_eq holeBound indexBound scanBound same)
                have whole := distance_add homeBound holeBound indexBound
                  (Nat.le_of_lt closer)
                unfold distance at *
                split_ifs at * <;> omega
              have content' :=
                invariant.reach offHole content scan scanBound scanCloser
              rw [vacant] at content'
              cases content'
        · exact invariant.reach offHole content position positionBound closer

end HoleInvariant

/-- What closing a hole leaves behind. -/
structure HoleClosed
    (home : α → Nat)
    (key : α → κ)
    (slots : List (Option α))
    (hole : Nat)
    (result : List (Option α)) : Prop where
  length_eq : result.length = slots.length
  valid : Valid home result
  distinct : KeysDistinct key result
  stored : ∀ entry, (∃ index, entryAt result index = some entry) ↔
    StoredOff hole slots entry
  occupied_eq : occupied result + 1 = occupied slots

/-- An empty slot ends the run: the hole can be cleared. -/
theorem HoleInvariant.closed
    {home : α → Nat} {key : α → κ} {slots : List (Option α)}
    {hole scan : Nat}
    (invariant : HoleInvariant home key slots hole scan)
    (scanBound : scan < slots.length)
    (apart : scan ≠ hole)
    (vacant : entryAt slots scan = none) :
    HoleClosed home key slots hole (slots.set hole none) where
  length_eq := List.length_set
  valid := invariant.clear scanBound apart vacant
  distinct := by
    intro left right first second atLeft atRight
    rw [entryAt_set invariant.hole_lt] at atLeft atRight
    split at atLeft
    · cases atLeft
    · split at atRight
      · cases atRight
      · next leftOff rightOff =>
          exact invariant.separate leftOff rightOff atLeft atRight
  stored := by
    intro entry
    simp only [StoredOff, entryAt_set invariant.hole_lt]
    constructor
    · rintro ⟨index, content⟩
      split at content
      · cases content
      · next offHole => exact ⟨index, offHole, content⟩
    · rintro ⟨index, offHole, content⟩
      exact ⟨index, by rw [if_neg offHole, content]⟩
  occupied_eq := by
    obtain ⟨_, content⟩ := Option.isSome_iff_exists.mp invariant.held
    exact occupied_set_none content

/-- The deletion loop closes the hole before it meets `vacancy`, however the
scan got between the two. -/
theorem closeHole_spec_from
    {advance : Nat → Nat} {gap : Nat → Nat → Nat}
    {home : α → Nat} {key : α → κ}
    {vacancy : Nat}
    (fuel : Nat) (slots : List (Option α)) (hole scan : Nat)
    (invariant : HoleInvariant home key slots hole scan)
    (advanceAgrees : ∀ index, index < slots.length →
      advance index = next slots.length index)
    (gapAgrees : ∀ start stop, start < slots.length → stop < slots.length →
      gap start stop = distance slots.length start stop)
    (scanBound : scan < slots.length)
    (apart : scan ≠ hole)
    (vacancyBound : vacancy < slots.length)
    (vacant : entryAt slots vacancy = none)
    (ahead : distance slots.length hole scan ≤
      distance slots.length hole vacancy)
    (enough : distance slots.length scan vacancy < fuel) :
    HoleClosed home key slots hole
      (closeHole advance gap home fuel slots hole scan) := by
  induction fuel generalizing slots hole scan with
  | zero => omega
  | succ fuel inductionHypothesis =>
      have holeBound := invariant.hole_lt
      cases stored : entryAt slots scan with
      | none =>
          simp only [closeHole, stored]
          exact invariant.closed scanBound apart stored
      | some entry =>
          have homeBound := invariant.home_lt apart stored
          have differs : scan ≠ vacancy := by
            intro same
            rw [same, vacant] at stored
            cases stored
          have positive : distance slots.length scan vacancy ≠ 0 := by
            intro zero
            rw [← distance_self slots.length scan] at zero
            exact differs
              (eq_of_distance_eq scanBound vacancyBound scanBound zero).symm
          have split := distance_add holeBound scanBound vacancyBound ahead
          have vacancyShort := distance_lt hole vacancyBound
          have unwrapped : distance slots.length hole scan + 1 <
              slots.length := by omega
          have stepped := distance_next holeBound scan unwrapped
          have nextBound := next_lt scanBound
          have remaining : distance slots.length (next slots.length scan)
              vacancy + 1 = distance slots.length scan vacancy := by
            have := distance_add holeBound nextBound vacancyBound
              (by omega)
            omega
          simp only [closeHole, stored, advanceAgrees scan scanBound,
            gapAgrees _ _ homeBound holeBound,
            gapAgrees _ _ homeBound scanBound]
          split_ifs with crosses
          · have holeVacancy : vacancy ≠ hole := by
              intro same
              have := invariant.held
              rw [← same, vacant] at this
              cases this
            have moved := invariant.move stored apart crosses (by omega)
            have shifted := distance_next_self scanBound (by omega)
            have closed := inductionHypothesis
              (slots.set hole (some entry)) scan (next slots.length scan)
              moved
              (by simpa using advanceAgrees)
              (by simpa using gapAgrees)
              (by simpa using nextBound)
              (by intro same; rw [same, distance_self] at shifted; omega)
              (by simpa using vacancyBound)
              (by rw [entryAt_set holeBound, if_neg holeVacancy, vacant])
              (by rw [List.length_set]; omega)
              (by rw [List.length_set]; omega)
            refine ⟨by rw [closed.length_eq, List.length_set], closed.valid,
              closed.distinct, ?_, ?_⟩
            · intro other
              rw [closed.stored, invariant.storedOff_move stored apart]
            · obtain ⟨_, content⟩ := Option.isSome_iff_exists.mp invariant.held
              rw [closed.occupied_eq, occupied_replace content]
          · refine inductionHypothesis slots hole (next slots.length scan)
              (invariant.keep stored apart (Nat.le_of_not_lt crosses) unwrapped)
              advanceAgrees gapAgrees nextBound ?_ vacancyBound vacant
              (by omega) (by omega)
            intro same
            rw [same, distance_self] at stepped
            omega

/-- Deletion from a valid table that is not full. -/
theorem closeHole_spec
    {advance : Nat → Nat} {gap : Nat → Nat → Nat}
    {home : α → Nat} {key : α → κ}
    {slots : List (Option α)} {hole : Nat}
    (valid : Valid home slots)
    (distinct : KeysDistinct key slots)
    (held : (entryAt slots hole).isSome)
    (room : occupied slots < slots.length)
    (advanceAgrees : ∀ index, index < slots.length →
      advance index = next slots.length index)
    (gapAgrees : ∀ start stop, start < slots.length → stop < slots.length →
      gap start stop = distance slots.length start stop) :
    HoleClosed home key slots hole
      (closeHole advance gap home slots.length slots hole (advance hole)) := by
  obtain ⟨vacancy, vacancyBound, vacant⟩ := exists_vacant room
  obtain ⟨content, stored⟩ := Option.isSome_iff_exists.mp held
  have holeBound := lt_length_of_entryAt stored
  have differs : vacancy ≠ hole := by
    intro same
    rw [same, stored] at vacant
    cases vacant
  have wide : 1 < slots.length := by omega
  have positive : distance slots.length hole vacancy ≠ 0 := by
    intro zero
    rw [← distance_self slots.length hole] at zero
    exact differs (eq_of_distance_eq holeBound vacancyBound holeBound zero)
  have stepped := distance_next_self holeBound wide
  rw [advanceAgrees hole holeBound]
  refine closeHole_spec_from _ _ _ _
    (valid.holeInvariant distinct held wide) advanceAgrees gapAgrees
    (next_lt holeBound) ?_ vacancyBound vacant (by omega)
    (distance_lt _ vacancyBound)
  intro same
  rw [same, distance_self] at stepped
  omega

/-- The last entry of a run may be cleared as it is. -/
theorem Valid.closed_of_vacant
    {home : α → Nat} {key : α → κ} {slots : List (Option α)} {hole : Nat}
    (valid : Valid home slots)
    (distinct : KeysDistinct key slots)
    (held : (entryAt slots hole).isSome)
    (vacant : entryAt slots (next slots.length hole) = none) :
    HoleClosed home key slots hole (slots.set hole none) := by
  obtain ⟨content, stored⟩ := Option.isSome_iff_exists.mp held
  have holeBound := lt_length_of_entryAt stored
  have apart : next slots.length hole ≠ hole := by
    intro same
    rw [same, stored] at vacant
    cases vacant
  have wide : 1 < slots.length := by
    unfold next at apart
    split_ifs at apart <;> omega
  exact (valid.holeInvariant distinct held wide).closed (next_lt holeBound)
    apart vacant

/-- Deletion fills no empty slot. -/
theorem closeHole_vacant
    {advance : Nat → Nat} {gap : Nat → Nat → Nat} {home : α → Nat}
    {index : Nat}
    (fuel : Nat) (slots : List (Option α)) (hole scan : Nat)
    (held : (entryAt slots hole).isSome)
    (vacant : entryAt slots index = none) :
    entryAt (closeHole advance gap home fuel slots hole scan) index = none := by
  have cleared : ∀ (slots : List (Option α)) (hole : Nat),
      (entryAt slots hole).isSome → entryAt slots index = none →
        entryAt (slots.set hole none) index = none := by
    intro slots hole held vacant
    obtain ⟨content, stored⟩ := Option.isSome_iff_exists.mp held
    rw [entryAt_set (lt_length_of_entryAt stored), vacant, ite_self]
  induction fuel generalizing slots hole scan with
  | zero => exact cleared slots hole held vacant
  | succ fuel inductionHypothesis =>
      cases stored : entryAt slots scan with
      | none =>
          simp only [closeHole, stored]
          exact cleared slots hole held vacant
      | some entry =>
          simp only [closeHole, stored]
          split_ifs with crosses
          · obtain ⟨content, isContent⟩ := Option.isSome_iff_exists.mp held
            have holeBound := lt_length_of_entryAt isContent
            apply inductionHypothesis
            · rw [entryAt_set holeBound]
              split_ifs
              · rfl
              · rw [stored]
                rfl
            · rw [entryAt_set holeBound, if_neg, vacant]
              intro same
              rw [same, isContent] at vacant
              cases vacant
          · exact inductionHypothesis _ _ _ held vacant

/-! ## Termination -/

/-- Walking the distance between two slots gets from one to the other. -/
theorem iterate_next
    {slotCount start stop : Nat}
    (startBound : start < slotCount)
    (stopBound : stop < slotCount) :
    (next slotCount)^[distance slotCount start stop] start = stop := by
  have walked : ∀ steps, steps < slotCount →
      (next slotCount)^[steps] start < slotCount ∧
        distance slotCount start ((next slotCount)^[steps] start) = steps := by
    intro steps
    induction steps with
    | zero => exact fun _ => ⟨startBound, distance_self slotCount start⟩
    | succ steps walked_ih =>
        intro within
        obtain ⟨bound, walked⟩ := walked_ih (by omega)
        rw [Function.iterate_succ_apply']
        exact ⟨next_lt bound, by
          rw [distance_next startBound _ (by omega), walked]⟩
  obtain ⟨bound, walked⟩ := walked _ (distance_lt start stopBound)
  exact eq_of_distance_eq startBound bound stopBound walked

/-- The deletion loop ends at an empty slot ahead of it, so that more rounds do
not matter. -/
theorem closeHole_more
    {advance : Nat → Nat} {gap : Nat → Nat → Nat} {home : α → Nat}
    {fuel : Nat}
    (slots : List (Option α)) (hole scan steps more : Nat)
    (held : (entryAt slots hole).isSome)
    (vacant : entryAt slots (advance^[steps] scan) = none)
    (enough : steps < fuel) :
    closeHole advance gap home (fuel + more) slots hole scan =
      closeHole advance gap home fuel slots hole scan := by
  induction fuel generalizing slots hole scan steps with
  | zero => exact absurd enough (Nat.not_lt_zero _)
  | succ fuel close_ih =>
      rw [show fuel + 1 + more = (fuel + more) + 1 by omega]
      cases stored : entryAt slots scan with
      | none => simp only [closeHole, stored]
      | some entry =>
          cases steps with
          | zero =>
              rw [Function.iterate_zero_apply, stored] at vacant
              cases vacant
          | succ steps =>
              rw [Function.iterate_succ_apply] at vacant
              simp only [closeHole, stored]
              split_ifs with crosses
              · obtain ⟨content, isContent⟩ := Option.isSome_iff_exists.mp held
                have holeBound := lt_length_of_entryAt isContent
                refine close_ih _ _ _ steps ?_ ?_ (by omega)
                · rw [entryAt_set holeBound]
                  split_ifs
                  · rfl
                  · rw [stored]
                    rfl
                · rw [entryAt_set holeBound, if_neg, vacant]
                  intro same
                  rw [same, isContent] at vacant
                  cases vacant
              · exact close_ih _ _ _ steps held vacant (by omega)

end LinearProbing
