import Mathlib.Tactic
import Wayring.Objects.Table

/-!
# Object tables as finite maps

Under the table invariant, `lookup` is a finite map from IDs to slots.
Insertion, removal, and writes through a value pointer change it at one ID
only, and growth not at all.
-/

namespace Wayring
namespace Table

open LinearProbing (entryAt occupied)

variable {Value : Type}

/-! ## Index arithmetic -/

/-- Slot counts are powers of two that fit a machine word. -/
def PowerLength (length : Nat) : Prop :=
  ∃ bits, 0 < bits ∧ bits < 64 ∧ length = 2 ^ bits

/-- The next slot of a table is the next one in a circle. -/
theorem next_eq
    {length index : Nat}
    (power : PowerLength length)
    (indexBound : index < length) :
    next length index = LinearProbing.next length index := by
  obtain ⟨bits, _, _, rfl⟩ := power
  rw [next, LinearProbing.next, Nat.and_two_pow_sub_one_eq_mod]
  split
  · next wraps => rw [wraps, Nat.mod_self]
  · next inside => exact Nat.mod_eq_of_lt (by omega)

/-- The probe distance is the distance in a circle. -/
theorem probeDistance_eq
    {length start stop : Nat}
    (power : PowerLength length)
    (startBound : start < length)
    (stopBound : stop < length) :
    probeDistance length start stop =
      LinearProbing.distance length start stop := by
  obtain ⟨bits, _, small, rfl⟩ := power
  have divides : 2 ^ bits ∣ usizeLimit :=
    Nat.pow_dvd_pow 2 (Nat.le_of_lt small)
  rw [probeDistance, Nat.and_two_pow_sub_one_eq_mod,
    Nat.mod_mod_of_dvd _ divides, LinearProbing.distance]
  obtain ⟨revolutions, whole⟩ := divides
  have positive : 0 < revolutions := by
    rcases Nat.eq_zero_or_pos revolutions with rfl | positive
    · simp [usizeLimit] at whole
    · exact positive
  obtain ⟨rest, rfl⟩ := Nat.exists_eq_add_of_le positive
  have expanded : usizeLimit = 2 ^ bits + 2 ^ bits * rest := by
    rw [whole, Nat.mul_add, Nat.mul_one]
  rw [expanded]
  split
  · next ordered =>
      have rearranged : stop + (2 ^ bits + 2 ^ bits * rest) - start =
          (stop - start) + 2 ^ bits * (1 + rest) := by
        rw [Nat.mul_add, Nat.mul_one]
        omega
      rw [rearranged, Nat.add_mul_mod_self_left, Nat.mod_eq_of_lt (by omega)]
  · next wrapped =>
      have rearranged : stop + (2 ^ bits + 2 ^ bits * rest) - start =
          (stop + 2 ^ bits - start) + 2 ^ bits * rest := by omega
      rw [rearranged, Nat.add_mul_mod_self_left, Nat.mod_eq_of_lt (by omega)]

/-- The home of an ID is a slot. -/
theorem home_lt
    {length : Nat}
    (power : PowerLength length)
    (id : Nat) : home length id < length := by
  obtain ⟨bits, positive, small, rfl⟩ := power
  have shift : 63 - (Nat.log2 (2 ^ bits) - 1) = 64 - bits := by
    rw [Nat.log2_two_pow]
    omega
  rw [home, shift, Nat.shiftRight_eq_div_pow]
  apply Nat.div_lt_of_lt_mul
  rw [← pow_add, Nat.sub_add_cancel (Nat.le_of_lt small)]
  exact Nat.mod_lt _ (by norm_num)

/-- Slot counts of admissible capacities never overflow. -/
theorem slotCount_spec
    {maxEntries : Nat}
    (bound : maxEntries ≤ maxU32) :
    ∃ length, slotCount maxEntries = .ok length ∧ PowerLength length ∧
      maxEntries * 4 ≤ length * 3 := by
  have unscaled : ¬ usizeLimit ≤ maxEntries * 4 := by
    unfold maxU32 at bound
    unfold usizeLimit
    omega
  generalize wanted : max ((maxEntries * 4 + 2) / 3) 2 = minimum
  have wide : ¬ minimum ≤ 1 := by omega
  have nonzero : minimum - 1 ≠ 0 := by omega
  have below : minimum - 1 < 2 ^ (Nat.log2 (minimum - 1) + 1) :=
    Nat.lt_log2_self
  have short : Nat.log2 (minimum - 1) < 33 := by
    rw [Nat.log2_lt nonzero]
    unfold maxU32 at bound
    omega
  have fits : 2 ^ (Nat.log2 (minimum - 1) + 1) < usizeLimit :=
    Nat.pow_lt_pow_right Nat.one_lt_two (by omega)
  refine ⟨2 ^ (Nat.log2 (minimum - 1) + 1), ?_,
    ⟨_, by omega, by omega, rfl⟩, by omega⟩
  simp only [slotCount, if_neg unscaled, wanted, ceilPowerOfTwo, if_neg wide,
    if_neg (Nat.not_le_of_lt fits)]

/-! ## Storage -/

/-- Slot arrays whose probe sequences find every stored ID. -/
structure Storage (slots : List (Option (Slot Value))) : Prop where
  power : PowerLength slots.length
  valid : LinearProbing.Valid (fun slot => home slots.length slot.id) slots
  distinct : LinearProbing.KeysDistinct Slot.id slots
  id_ne_zero : ∀ {index slot}, entryAt slots index = some slot → slot.id ≠ 0

namespace Storage

variable {slots : List (Option (Slot Value))}

/-- Empty storage. -/
theorem replicate
    {length : Nat}
    (power : PowerLength length) :
    Storage (List.replicate length (none : Option (Slot Value))) where
  power := by rwa [List.length_replicate]
  valid := LinearProbing.valid_replicate_none _ _
  distinct := LinearProbing.keysDistinct_replicate_none _ _
  id_ne_zero stored := by simp at stored

/-- What a probe for an ID finds. -/
theorem probe_spec (storage : Storage slots) (id : Nat) :
    LinearProbing.ProbeSpec (fun slot => slot.id == id) slots
      (home slots.length id) (probe slots id) :=
  LinearProbing.probe_spec (home_lt storage.power id)
    fun _ bound => next_eq storage.power bound

/-- What a probe for a vacant slot finds. -/
theorem probeVacant_spec (storage : Storage slots) (id : Nat) :
    LinearProbing.ProbeSpec (fun _ => false) slots
      (home slots.length id) (probeVacant slots id) :=
  LinearProbing.probe_spec (home_lt storage.power id)
    fun _ bound => next_eq storage.power bound

/-- A probe that ends at an empty slot has ruled its ID out. -/
theorem absent_of_vacant
    (storage : Storage slots)
    {id vacancy : Nat}
    (ended : probe slots id = .vacant vacancy)
    {index : Nat} {slot : Slot Value}
    (stored : entryAt slots index = some slot) :
    slot.id ≠ id := by
  intro same
  have spec := storage.probe_spec id
  rw [ended] at spec
  obtain ⟨bound, vacant, passed⟩ := spec
  have rejected := passed.absent storage.valid
    (home_lt storage.power id) bound vacant stored (by rw [same])
  simp [same] at rejected

/-- Filling the empty slot that ends the probe of a new ID. -/
theorem fill
    (storage : Storage slots)
    {matched : Slot Value → Bool}
    {vacancy : Nat} {slot : Slot Value}
    (ended : LinearProbing.ProbeSpec matched slots
      (home slots.length slot.id) (.vacant vacancy))
    (nonzero : slot.id ≠ 0)
    (absent : ∀ {index other}, entryAt slots index = some other →
      other.id ≠ slot.id) :
    Storage (slots.set vacancy (some slot)) := by
  obtain ⟨bound, vacant, passed⟩ := ended
  constructor
  · rw [List.length_set]
    exact storage.power
  · rw [List.length_set]
    apply storage.valid.fill bound (home_lt storage.power _)
    intro position positionBound closer
    obtain ⟨entry, stored, _⟩ := passed position positionBound closer
    simp [stored]
  · apply LinearProbing.KeysDistinct.set storage.distinct bound
    intro index other stored same
    exact absurd same (absent stored)
  · intro index other stored
    rw [LinearProbing.entryAt_set bound] at stored
    split at stored
    · rw [← Option.some.inj stored]
      exact nonzero
    · exact storage.id_ne_zero stored

end Storage

/-! ## The table invariant -/

/-- A table whose storage is sound, counts its entries, and keeps a quarter of
its slots empty. -/
structure WellFormed (table : Table Value) : Prop where
  storage : Storage table.slots
  roomy : table.maxEntries * 4 ≤ table.slots.length * 3
  capacity_pos : 0 < table.maxEntries
  capacity_le : table.maxEntries ≤ maxU32
  count_eq : table.count = occupied table.slots
  count_le : table.count ≤ table.maxEntries

namespace WellFormed

variable {table : Table Value}

/-- The slots outnumber the entries. -/
theorem room (wellFormed : table.WellFormed) :
    occupied table.slots < table.slots.length := by
  have := wellFormed.roomy
  have := wellFormed.capacity_pos
  have := wellFormed.count_eq
  have := wellFormed.count_le
  omega

/-- A well-formed table never exhausts a probe. -/
theorem probe_ne_exhausted (wellFormed : table.WellFormed) (id : Nat) :
    probe table.slots id ≠ .exhausted := by
  intro ended
  have spec := wellFormed.storage.probe_spec id
  rw [ended] at spec
  exact spec.full wellFormed.room

/-- An ID is found at an entry that has it. -/
theorem find_eq_some
    (wellFormed : table.WellFormed)
    {id index : Nat}
    (found : table.find id = some index) :
    ∃ slot, entryAt table.slots index = some slot ∧ slot.id = id := by
  unfold find at found
  split at found
  · cases found
  · split at found
    · next hit =>
        cases Option.some.inj found
        have spec := wellFormed.storage.probe_spec id
        rw [hit] at spec
        obtain ⟨slot, stored, same⟩ := spec
        exact ⟨slot, stored, beq_iff_eq.mp same⟩
    · cases found

/-- Finding an ID and storing it are the same thing. -/
theorem find_eq_some_iff
    (wellFormed : table.WellFormed)
    {id index : Nat} :
    table.find id = some index ↔
      ∃ slot, entryAt table.slots index = some slot ∧ slot.id = id := by
  constructor
  · exact wellFormed.find_eq_some
  · rintro ⟨slot, stored, rfl⟩
    have nonzero := wellFormed.storage.id_ne_zero stored
    cases ended : probe table.slots slot.id with
    | hit position =>
        have found : table.find slot.id = some position := by
          simp [find, nonzero, ended]
        obtain ⟨other, held, same⟩ := wellFormed.find_eq_some found
        rw [found, wellFormed.storage.distinct held stored same]
    | vacant vacancy =>
        exact absurd rfl (wellFormed.storage.absent_of_vacant ended stored)
    | exhausted => exact absurd ended (wellFormed.probe_ne_exhausted _)

/-- An ID is looked up to the entry that has it. -/
theorem lookup_eq_some_iff
    (wellFormed : table.WellFormed)
    {id : Nat} {slot : Slot Value} :
    table.lookup id = some slot ↔
      slot.id = id ∧ ∃ index, entryAt table.slots index = some slot := by
  rw [lookup, Option.bind_eq_some_iff]
  constructor
  · rintro ⟨index, found, stored⟩
    obtain ⟨other, held, same⟩ := wellFormed.find_eq_some found
    rw [stored] at held
    cases Option.some.inj held
    exact ⟨same, index, stored⟩
  · rintro ⟨same, index, stored⟩
    exact ⟨index, wellFormed.find_eq_some_iff.mpr ⟨slot, stored, same⟩, stored⟩

/-- An ID that is not found is in no entry. -/
theorem lookup_eq_none_iff
    (wellFormed : table.WellFormed)
    {id : Nat} :
    table.lookup id = none ↔
      ∀ {index slot}, entryAt table.slots index = some slot → slot.id ≠ id := by
  constructor
  · intro absent index slot stored same
    have := wellFormed.lookup_eq_some_iff.mpr ⟨same, index, stored⟩
    rw [absent] at this
    cases this
  · intro absent
    by_contra present
    obtain ⟨slot, stored⟩ := Option.ne_none_iff_exists'.mp present
    obtain ⟨same, index, held⟩ := wellFormed.lookup_eq_some_iff.mp stored
    exact absent held same

/-- Two well-formed tables with the same stored slots are the same map. -/
theorem lookup_congr
    {other : Table Value}
    (wellFormed : table.WellFormed)
    (otherWellFormed : other.WellFormed)
    (same : ∀ slot, (∃ index, entryAt other.slots index = some slot) ↔
      ∃ index, entryAt table.slots index = some slot)
    (id : Nat) : other.lookup id = table.lookup id := by
  ext slot
  rw [wellFormed.lookup_eq_some_iff, otherWellFormed.lookup_eq_some_iff,
    same slot]

end WellFormed

/-- A new table is empty. -/
theorem init_spec
    {maxEntries : Nat} {granted : Bool} {table : Table Value}
    (created : init maxEntries granted = .ok table) :
    table.WellFormed ∧ table.count = 0 ∧ table.nextGeneration = 1 ∧
      table.growth = false ∧ table.maxEntries = maxEntries ∧
      ∀ id, table.lookup id = none := by
  unfold init at created
  split at created
  · cases created
  · next admissible =>
      push Not at admissible
      obtain ⟨length, counted, power, roomy⟩ := slotCount_spec admissible.2
      rw [counted] at created
      cases granted with
      | false => cases created
      | true =>
          cases created
          have wellFormed : WellFormed
              ({ slots := List.replicate length none, maxEntries } :
                Table Value) :=
            { storage := Storage.replicate power
              roomy := by simpa using roomy
              capacity_pos := Nat.pos_of_ne_zero admissible.1
              capacity_le := admissible.2
              count_eq := by simp
              count_le := Nat.zero_le _ }
          refine ⟨wellFormed, rfl, rfl, rfl, rfl, fun id => ?_⟩
          rw [wellFormed.lookup_eq_none_iff]
          intro index slot stored
          simp at stored

/-! ## Growth -/

/-- Rehashing one slot stores it, given that its ID is new. -/
theorem rehash_spec
    {slots : List (Option (Slot Value))} {slot : Slot Value}
    (storage : Storage slots)
    (room : occupied slots < slots.length)
    (nonzero : slot.id ≠ 0)
    (absent : ∀ {index other}, entryAt slots index = some other →
      other.id ≠ slot.id) :
    Storage (rehash slots (some slot)) ∧
      (rehash slots (some slot)).length = slots.length ∧
      occupied (rehash slots (some slot)) = occupied slots + 1 ∧
      ∀ other, (∃ index, entryAt (rehash slots (some slot)) index = some other) ↔
        other = slot ∨ ∃ index, entryAt slots index = some other := by
  have spec := storage.probeVacant_spec slot.id
  cases ended : probeVacant slots slot.id with
  | hit index =>
      rw [ended] at spec
      obtain ⟨_, _, matched⟩ := spec
      cases matched
  | exhausted =>
      rw [ended] at spec
      exact absurd room spec.full
  | vacant vacancy =>
      rw [ended] at spec
      simp only [rehash, ended]
      have ⟨bound, vacant, _⟩ := spec
      refine ⟨storage.fill spec nonzero absent, List.length_set,
        LinearProbing.occupied_set_some bound vacant slot, fun other => ?_⟩
      constructor
      · rintro ⟨index, stored⟩
        rw [LinearProbing.entryAt_set bound] at stored
        split at stored
        · exact Or.inl (Option.some.inj stored).symm
        · exact Or.inr ⟨index, stored⟩
      · rintro (rfl | ⟨index, stored⟩)
        · exact ⟨vacancy, by rw [LinearProbing.entryAt_set bound, if_pos rfl]⟩
        · refine ⟨index, ?_⟩
          rw [LinearProbing.entryAt_set bound, if_neg, stored]
          rintro rfl
          rw [stored] at vacant
          cases vacant

/-- Rehashing a run of old slots stores exactly its entries. -/
theorem foldl_rehash_spec
    (old slots : List (Option (Slot Value)))
    (storage : Storage slots)
    (room : occupied slots + occupied old < slots.length)
    (nonzero : ∀ slot, some slot ∈ old → slot.id ≠ 0)
    (apart : ∀ slot, some slot ∈ old → ∀ {index other},
      entryAt slots index = some other → other.id ≠ slot.id)
    (separate : old.Pairwise fun first second =>
      ∀ left right, first = some left → second = some right →
        left.id ≠ right.id) :
    Storage (old.foldl rehash slots) ∧
      (old.foldl rehash slots).length = slots.length ∧
      occupied (old.foldl rehash slots) = occupied slots + occupied old ∧
      ∀ slot, (∃ index, entryAt (old.foldl rehash slots) index = some slot) ↔
        some slot ∈ old ∨ ∃ index, entryAt slots index = some slot := by
  induction old generalizing slots with
  | nil => exact ⟨storage, rfl, rfl, by simp⟩
  | cons head old inductionHypothesis =>
      rw [List.pairwise_cons] at separate
      cases head with
      | none =>
          have step := inductionHypothesis slots storage
            (by simpa [occupied] using room)
            (fun slot member => nonzero slot (by simp [member]))
            (fun slot member => apart slot (by simp [member]))
            separate.2
          simpa [rehash, occupied] using step
      | some slot =>
          have smaller : occupied slots + (occupied old + 1) < slots.length := by
            simpa [occupied] using room
          obtain ⟨stored, length, grown, entries⟩ := rehash_spec storage
            (by omega) (nonzero slot (by simp)) (apart slot (by simp))
          obtain ⟨finalStored, finalLength, finalGrown, finalEntries⟩ :=
            inductionHypothesis (rehash slots (some slot)) stored
              (by rw [length, grown]; omega)
              (fun other member => nonzero other (by simp [member]))
              (by
                intro other member index held content
                rcases (entries held).mp ⟨index, content⟩ with rfl | before
                · exact separate.1 (some other) member held other rfl rfl
                · obtain ⟨position, content⟩ := before
                  exact apart other (by simp [member]) content)
              separate.2
          refine ⟨finalStored, by rw [List.foldl_cons, finalLength, length],
            ?_, fun other => ?_⟩
          · rw [List.foldl_cons, finalGrown, grown]
            simp only [occupied, List.countP_cons, Option.isSome_some, if_true]
            omega
          · rw [List.foldl_cons, finalEntries, entries]
            simp only [List.mem_cons, Option.some.injEq]
            tauto

theorem mem_iff_entryAt
    {slots : List (Option (Slot Value))} {slot : Slot Value} :
    some slot ∈ slots ↔ ∃ index, entryAt slots index = some slot := by
  constructor
  · intro member
    obtain ⟨index, bound, content⟩ := List.mem_iff_getElem.mp member
    exact ⟨index, by rw [LinearProbing.entryAt_eq_getElem bound, content]⟩
  · rintro ⟨index, stored⟩
    have bound := LinearProbing.lt_length_of_entryAt stored
    rw [LinearProbing.entryAt_eq_getElem bound] at stored
    exact stored ▸ List.getElem_mem bound

/-- What growth may change: the layout and the capacity, never the map. -/
structure Grown (table grown : Table Value) : Prop where
  wellFormed : grown.WellFormed
  lookup : ∀ id, grown.lookup id = table.lookup id
  count : grown.count = table.count
  nextGeneration : grown.nextGeneration = table.nextGeneration
  growth : grown.growth = table.growth
  maxEntries : grown.maxEntries = min (table.maxEntries * 2) maxU32
  room : grown.count < grown.maxEntries

/-- Growth makes room and keeps every entry, or fails. -/
theorem grow_spec
    {table : Table Value}
    (wellFormed : table.WellFormed)
    (granted : Bool) :
    (table.maxEntries = maxU32 ∧ table.grow granted = .error .full) ∨
    (table.maxEntries < maxU32 ∧ granted = false ∧
      table.grow granted = .error .outOfMemory) ∨
    (table.maxEntries < maxU32 ∧ granted = true ∧
      ∃ grown, table.grow granted = .ok grown ∧ Grown table grown) := by
  by_cases widest : table.maxEntries = maxU32
  · exact Or.inl ⟨widest, by simp [grow, widest]⟩
  have narrower : table.maxEntries < maxU32 :=
    Nat.lt_of_le_of_ne wellFormed.capacity_le widest
  obtain ⟨length, counted, power, roomy⟩ :=
    slotCount_spec (Nat.min_le_right (table.maxEntries * 2) maxU32)
  cases granted with
  | false =>
      refine Or.inr (Or.inl ⟨narrower, rfl, ?_⟩)
      simp only [grow, if_neg widest, counted]
      rfl
  | true =>
      refine Or.inr (Or.inr ⟨narrower, rfl, { table with
        slots := table.slots.foldl rehash (List.replicate length none)
        maxEntries := min (table.maxEntries * 2) maxU32 }, ?_, ?_⟩)
      · simp only [grow, if_neg widest, counted]
        rfl
      · have positive := wellFormed.capacity_pos
        have counts := wellFormed.count_eq
        have countBound := wellFormed.count_le
        obtain ⟨storage, size, entries, same⟩ := foldl_rehash_spec table.slots
          (List.replicate length none) (Storage.replicate power)
          (by
            rw [LinearProbing.occupied_replicate_none, List.length_replicate]
            omega)
          (by
            intro slot member
            obtain ⟨index, stored⟩ := mem_iff_entryAt.mp member
            exact wellFormed.storage.id_ne_zero stored)
          (by intro slot _ index other stored; simp at stored)
          (by
            rw [List.pairwise_iff_getElem]
            intro left right leftBound rightBound ordered first second
              atLeft atRight equal
            rw [← LinearProbing.entryAt_eq_getElem leftBound] at atLeft
            rw [← LinearProbing.entryAt_eq_getElem rightBound] at atRight
            have := wellFormed.storage.distinct atLeft atRight equal
            omega)
        rw [List.length_replicate] at size
        rw [LinearProbing.occupied_replicate_none, Nat.zero_add] at entries
        have grownWellFormed : WellFormed { table with
            slots := table.slots.foldl rehash (List.replicate length none)
            maxEntries := min (table.maxEntries * 2) maxU32 } :=
          { storage := storage
            roomy := by rw [size]; exact roomy
            capacity_pos := by
              simp only
              omega
            capacity_le := Nat.min_le_right _ _
            count_eq := by rw [entries]; exact counts
            count_le := by
              simp only
              omega }
        refine ⟨grownWellFormed, ?_, rfl, rfl, rfl, rfl, ?_⟩
        · apply WellFormed.lookup_congr wellFormed grownWellFormed
          intro slot
          rw [same slot, ← @mem_iff_entryAt _ table.slots]
          simp
        · simp only
          omega

/-! ## Insertion -/

/-- The map after storing one slot. -/
structure Inserted
    (table : Table Value)
    (id : Nat)
    (value : Value)
    (handle : Handle)
    (result : Table Value) : Prop where
  wellFormed : result.WellFormed
  handle_eq : handle = { id, generation := table.nextGeneration }
  lookup : ∀ other, result.lookup other =
    if other = id then
      some { id, generation := table.nextGeneration, value }
    else table.lookup other
  count : result.count = table.count + 1
  nextGeneration :
    result.nextGeneration = Wayring.nextGeneration table.nextGeneration
  growth : result.growth = table.growth

/-- Growing first does not show in the map after an insertion. -/
theorem Inserted.of_grown
    {table grown result : Table Value} {id : Nat} {value : Value}
    {handle : Handle}
    (grownSpec : Grown table grown)
    (inserted : Inserted grown id value handle result) :
    Inserted table id value handle result where
  wellFormed := inserted.wellFormed
  handle_eq := by rw [inserted.handle_eq, grownSpec.nextGeneration]
  lookup other := by
    rw [inserted.lookup, grownSpec.lookup, grownSpec.nextGeneration]
  count := by rw [inserted.count, grownSpec.count]
  nextGeneration := by rw [inserted.nextGeneration, grownSpec.nextGeneration]
  growth := by rw [inserted.growth, grownSpec.growth]

/-- A new ID with room for it is placed. -/
theorem place_spec
    {table : Table Value} {id index : Nat}
    {matched : Slot Value → Bool}
    (value : Value)
    (wellFormed : table.WellFormed)
    (room : table.count < table.maxEntries)
    (nonzero : id ≠ 0)
    (absent : table.lookup id = none)
    (ended : LinearProbing.ProbeSpec matched table.slots
      (home table.slots.length id) (.vacant index)) :
    Inserted table id value (table.place index id value).1
      (table.place index id value).2 := by
  have ⟨bound, vacant, _⟩ := ended
  rw [wellFormed.lookup_eq_none_iff] at absent
  have placedWellFormed : (table.place index id value).2.WellFormed :=
    { storage := wellFormed.storage.fill ended nonzero absent
      roomy := by
        simp only [place, List.length_set]
        exact wellFormed.roomy
      capacity_pos := wellFormed.capacity_pos
      capacity_le := wellFormed.capacity_le
      count_eq := by
        simp only [place]
        rw [LinearProbing.occupied_set_some bound vacant, wellFormed.count_eq]
      count_le := room }
  refine ⟨placedWellFormed, rfl, fun other => ?_, rfl, rfl, rfl⟩
  ext slot
  rw [placedWellFormed.lookup_eq_some_iff]
  simp only [place, LinearProbing.entryAt_set bound]
  by_cases same : other = id
  · subst same
    rw [if_pos rfl, Option.some.injEq]
    constructor
    · rintro ⟨slotId, position, stored⟩
      split at stored
      · exact Option.some.inj stored
      · exact absurd slotId (absent stored)
    · rintro rfl
      exact ⟨rfl, index, if_pos rfl⟩
  · rw [if_neg same, wellFormed.lookup_eq_some_iff]
    refine and_congr_right fun slotId => ?_
    constructor
    · rintro ⟨position, stored⟩
      split at stored
      · rw [← Option.some.inj stored] at slotId
        exact absurd slotId.symm same
      · exact ⟨position, stored⟩
    · rintro ⟨position, stored⟩
      refine ⟨position, ?_⟩
      rw [if_neg, stored]
      rintro rfl
      rw [stored] at vacant
      cases vacant

/-- Why an insertion can fail. -/
def InsertRefused
    (table : Table Value)
    (id : Nat)
    (granted : Bool) : Error → Prop
  | .invalidId => id = 0
  | .duplicateId => id ≠ 0 ∧ table.lookup id ≠ none
  | .full =>
      id ≠ 0 ∧ table.lookup id = none ∧ table.count = table.maxEntries ∧
        (table.growth = true → table.maxEntries = maxU32)
  | .outOfMemory =>
      id ≠ 0 ∧ table.lookup id = none ∧ table.count = table.maxEntries ∧
        table.growth = true ∧ table.maxEntries < maxU32 ∧ granted = false
  | _ => False

/-- Insertion either stores a new ID or says why it cannot. -/
theorem insert_spec
    {table : Table Value}
    (wellFormed : table.WellFormed)
    (id : Nat) (value : Value) (granted : Bool) :
    match table.insert id value granted with
    | .ok (handle, result) =>
        id ≠ 0 ∧ table.lookup id = none ∧
          Inserted table id value handle result ∧
          (table.count = table.maxEntries → table.growth = true) ∧
          (table.growth = false → result.maxEntries = table.maxEntries)
    | .error cause => InsertRefused table id granted cause := by
  unfold insert
  by_cases zero : id = 0
  · simp [zero, InsertRefused]
  rw [if_neg zero]
  have spec := wellFormed.storage.probe_spec id
  cases ended : probe table.slots id with
  | hit index =>
      rw [ended] at spec
      obtain ⟨slot, stored, same⟩ := spec
      have present := wellFormed.lookup_eq_some_iff.mpr
        ⟨beq_iff_eq.mp same, index, stored⟩
      simp [InsertRefused, zero, present]
  | exhausted => exact absurd ended (wellFormed.probe_ne_exhausted id)
  | vacant index =>
      rw [ended] at spec
      have absent : table.lookup id = none :=
        wellFormed.lookup_eq_none_iff.mpr fun stored =>
          wellFormed.storage.absent_of_vacant ended stored
      simp only
      by_cases full : table.count = table.maxEntries
      · rw [if_pos full]
        cases growth : table.growth with
        | false => simp [InsertRefused, zero, absent, full, growth]
        | true =>
            rw [if_pos rfl]
            rcases grow_spec wellFormed granted with
              ⟨widest, failed⟩ | ⟨narrower, denied, failed⟩ |
              ⟨_, _, grown, succeeded, grownSpec⟩
            · rw [failed]
              exact ⟨zero, absent, full, fun _ => widest⟩
            · rw [failed]
              exact ⟨zero, absent, full, growth, narrower, denied⟩
            · have vacancy := grownSpec.wellFormed.storage.probeVacant_spec id
              rw [succeeded]
              simp only [bind, Except.bind]
              cases again : probeVacant grown.slots id with
              | hit position =>
                  rw [again] at vacancy
                  obtain ⟨_, _, matched⟩ := vacancy
                  cases matched
              | exhausted =>
                  rw [again] at vacancy
                  exact absurd grownSpec.wellFormed.room vacancy.full
              | vacant position =>
                  rw [again] at vacancy
                  have placed := place_spec value
                    grownSpec.wellFormed grownSpec.room zero
                    (by rw [grownSpec.lookup, absent]) vacancy
                  refine ⟨zero, absent, placed.of_grown grownSpec,
                    fun _ => trivial, fun bounded => ?_⟩
                  cases bounded
      · rw [if_neg full]
        have room := Nat.lt_of_le_of_ne wellFormed.count_le full
        exact ⟨zero, absent, place_spec value wellFormed room zero absent spec,
          fun equal => absurd equal full, fun _ => rfl⟩

/-! ## Removal and in-place writes -/

/-- What a removal leaves behind. -/
structure Removed
    (table : Table Value)
    (id : Nat)
    (result : Table Value) : Prop where
  wellFormed : result.WellFormed
  lookup : ∀ other, result.lookup other =
    if other = id then none else table.lookup other
  count_eq : result.count + 1 = table.count
  nextGeneration_eq : result.nextGeneration = table.nextGeneration
  growth_eq : result.growth = table.growth
  maxEntries_eq : result.maxEntries = table.maxEntries
  length_eq : result.slots.length = table.slots.length

/-- A slot is emptied in a way that keeps the others reachable. -/
theorem WellFormed.removed
    {table : Table Value} {index : Nat} {slot : Slot Value}
    {slots : List (Option (Slot Value))}
    (wellFormed : table.WellFormed)
    (stored : entryAt table.slots index = some slot)
    (closed : LinearProbing.HoleClosed
      (fun slot => home table.slots.length slot.id) Slot.id table.slots index
      slots) :
    Removed table slot.id { table with slots, count := table.count - 1 } := by
  have counts := wellFormed.count_eq
  have countBound := wellFormed.count_le
  have resultWellFormed : WellFormed { table with
      slots, count := table.count - 1 } :=
    { storage :=
        { power := by
            rw [closed.length_eq]
            exact wellFormed.storage.power
          valid := by
            rw [closed.length_eq]
            exact closed.valid
          distinct := closed.distinct
          id_ne_zero := by
            intro position other content
            obtain ⟨origin, _, before⟩ :=
              (closed.stored other).mp ⟨position, content⟩
            exact wellFormed.storage.id_ne_zero before }
      roomy := by
        rw [closed.length_eq]
        exact wellFormed.roomy
      capacity_pos := wellFormed.capacity_pos
      capacity_le := wellFormed.capacity_le
      count_eq := by
        have := closed.occupied_eq
        simp only
        omega
      count_le := by
        have := closed.occupied_eq
        simp only
        omega }
  refine ⟨resultWellFormed, fun other => ?_, ?_, rfl, rfl, rfl,
    closed.length_eq⟩
  · ext candidate
    rw [resultWellFormed.lookup_eq_some_iff, closed.stored]
    constructor
    · rintro ⟨candidateId, position, offHole, content⟩
      rw [if_neg, wellFormed.lookup_eq_some_iff]
      · exact ⟨candidateId, position, content⟩
      · intro same
        exact offHole (wellFormed.storage.distinct content stored
          (by rw [candidateId, same]))
    · intro present
      split at present
      · cases present
      · next apart =>
          obtain ⟨candidateId, position, content⟩ :=
            wellFormed.lookup_eq_some_iff.mp present
          refine ⟨candidateId, position, ?_, content⟩
          rintro rfl
          rw [stored] at content
          cases Option.some.inj content
          exact apart candidateId.symm
  · have := closed.occupied_eq
    simp only
    omega

/-- Closing the hole of a stored entry keeps the others reachable. -/
theorem WellFormed.closeHole_closed
    {table : Table Value} {index : Nat} {slot : Slot Value}
    (wellFormed : table.WellFormed)
    (stored : entryAt table.slots index = some slot) :
    LinearProbing.HoleClosed (fun slot => home table.slots.length slot.id)
      Slot.id table.slots index (closeHole table.slots index) :=
  LinearProbing.closeHole_spec wellFormed.storage.valid
    wellFormed.storage.distinct (by simp [stored]) wellFormed.room
    (fun _ bound => next_eq wellFormed.storage.power bound)
    (fun _ _ startBound stopBound =>
      probeDistance_eq wellFormed.storage.power startBound stopBound)

/-- A handle that is gone is the only one that no longer resolves. -/
theorem Removed.resolve
    {table result : Table Value} {handle : Handle} {value : Value}
    (removed : Removed table handle.id result)
    (resolved : table.resolve handle = some value)
    (other : Handle) :
    result.resolve other =
      if other = handle then none else table.resolve other := by
  obtain ⟨slot, stored, current⟩ := Option.bind_eq_some_iff.mp resolved
  simp only [Table.resolve, removed.lookup]
  by_cases sameId : other.id = handle.id
  · rw [if_pos sameId, sameId, stored]
    split_ifs with same
    · rfl
    · have stale : slot.generation ≠ other.generation := by
        intro generation
        have original : slot.generation = handle.generation := by
          by_contra apart
          rw [if_pos apart] at current
          cases current
        apply same
        cases other
        cases handle
        exact congrArg₂ Handle.mk sameId (generation.symm.trans original)
      simp only [bind, Option.bind_some, Option.bind_none, if_pos stale]
  · rw [if_neg sameId, if_neg]
    intro same
    exact sameId (congrArg Handle.id same)

/-- Removing the object of a handle that still denotes it fills no empty
slot. -/
theorem removeHandle_removed
    {table result : Table Value} {handle : Handle} {value : Value}
    (wellFormed : table.WellFormed)
    (taken : table.removeHandle handle = some (value, result)) :
    table.resolve handle = some value ∧ Removed table handle.id result ∧
      ∀ position, entryAt table.slots position = none →
        entryAt result.slots position = none := by
  unfold removeHandle at taken
  obtain ⟨index, found, rest⟩ := Option.bind_eq_some_iff.mp taken
  obtain ⟨slot, stored, outcome⟩ := Option.bind_eq_some_iff.mp rest
  split_ifs at outcome with stale
  cases outcome
  obtain ⟨same, isSame, slotId⟩ := wellFormed.find_eq_some found
  rw [stored] at isSame
  cases isSame
  refine ⟨?_, ?_, fun position vacant => ?_⟩
  · simp only [resolve, lookup, found, Option.bind_some, bind, stored,
      if_neg stale]
  · rw [← slotId]
    exact wellFormed.removed stored (wellFormed.closeHole_closed stored)
  · exact LinearProbing.closeHole_vacant _ _ _ _
      (by rw [stored]; rfl) vacant

/-- Removing the object of a handle that still denotes it. -/
theorem removeHandle_spec
    {table : Table Value}
    (wellFormed : table.WellFormed)
    (handle : Handle) :
    match table.removeHandle handle with
    | none => table.resolve handle = none
    | some (value, result) =>
        table.resolve handle = some value ∧ result.WellFormed ∧
          (∀ other, result.lookup other =
            if other = handle.id then none else table.lookup other) ∧
          result.count + 1 = table.count ∧
          result.nextGeneration = table.nextGeneration ∧
          result.growth = table.growth ∧
          result.maxEntries = table.maxEntries := by
  cases taken : table.removeHandle handle with
  | none =>
      cases found : table.find handle.id with
      | none => simp [resolve, lookup, found]
      | some index =>
          obtain ⟨slot, stored, slotId⟩ := wellFormed.find_eq_some found
          by_cases stale : slot.generation = handle.generation
          · simp [removeHandle, found, stored, stale] at taken
          · simp [resolve, lookup, found, stored, stale]
  | some outcome =>
      obtain ⟨value, result⟩ := outcome
      obtain ⟨resolved, removed, _⟩ := removeHandle_removed wellFormed taken
      exact ⟨resolved, removed.wellFormed, removed.lookup, removed.count_eq,
        removed.nextGeneration_eq, removed.growth_eq, removed.maxEntries_eq⟩

/-- Writing through a value pointer changes one value and nothing else. -/
theorem modify_spec
    {table : Table Value}
    (wellFormed : table.WellFormed)
    (id : Nat) (change : Value → Value) :
    (table.modify id change).WellFormed ∧
      (∀ other, (table.modify id change).lookup other =
        if other = id then
          (table.lookup id).map fun slot =>
            { slot with value := change slot.value }
        else table.lookup other) ∧
      (table.modify id change).count = table.count ∧
      (table.modify id change).nextGeneration = table.nextGeneration ∧
      (table.modify id change).growth = table.growth ∧
      (table.modify id change).maxEntries = table.maxEntries := by
  cases found : table.find id with
  | none =>
      have unchanged : table.modify id change = table := by
        simp [modify, found]
      rw [unchanged]
      refine ⟨wellFormed, fun other => ?_, rfl, rfl, rfl, rfl⟩
      by_cases same : other = id
      · simp [same, lookup, found]
      · simp [same]
  | some index =>
      obtain ⟨slot, stored, slotId⟩ := wellFormed.find_eq_some found
      have bound := LinearProbing.lt_length_of_entryAt stored
      have written : table.modify id change = { table with
          slots := table.slots.set index
            (some { slot with value := change slot.value }) } := by
        simp [modify, found, stored]
      have resultWellFormed : WellFormed { table with
          slots := table.slots.set index
            (some { slot with value := change slot.value }) } :=
        { storage :=
            { power := by
                rw [List.length_set]
                exact wellFormed.storage.power
              valid := by
                rw [List.length_set]
                exact wellFormed.storage.valid.replace stored rfl
              distinct := by
                apply LinearProbing.KeysDistinct.set
                  wellFormed.storage.distinct bound
                intro position other content same
                exact wellFormed.storage.distinct content stored same
              id_ne_zero := by
                intro position other content
                rw [LinearProbing.entryAt_set bound] at content
                split at content
                · rw [← Option.some.inj content]
                  exact @Storage.id_ne_zero _ _ wellFormed.storage _ slot stored
                · exact wellFormed.storage.id_ne_zero content }
          roomy := by
            simp only [List.length_set]
            exact wellFormed.roomy
          capacity_pos := wellFormed.capacity_pos
          capacity_le := wellFormed.capacity_le
          count_eq := by
            simp only
            rw [LinearProbing.occupied_replace stored, wellFormed.count_eq]
          count_le := wellFormed.count_le }
      rw [written]
      refine ⟨resultWellFormed, fun other => ?_, rfl, rfl, rfl, rfl⟩
      have present : table.lookup id = some slot :=
        wellFormed.lookup_eq_some_iff.mpr ⟨slotId, index, stored⟩
      ext candidate
      rw [resultWellFormed.lookup_eq_some_iff]
      simp only [LinearProbing.entryAt_set bound]
      by_cases same : other = id
      · subst same
        rw [if_pos rfl, present, Option.map_some, Option.some.injEq]
        constructor
        · rintro ⟨candidateId, position, content⟩
          split at content
          · exact Option.some.inj content
          · next apart =>
              exact absurd (wellFormed.storage.distinct content stored
                (by rw [candidateId, slotId])) apart
        · rintro rfl
          exact ⟨slotId, index, if_pos rfl⟩
      · rw [if_neg same, wellFormed.lookup_eq_some_iff]
        refine and_congr_right fun candidateId => ?_
        constructor
        · rintro ⟨position, content⟩
          split at content
          · rw [← Option.some.inj content] at candidateId
            exact absurd (candidateId.symm.trans slotId) same
          · exact ⟨position, content⟩
        · rintro ⟨position, content⟩
          refine ⟨position, ?_⟩
          rw [if_neg, content]
          rintro rfl
          rw [stored] at content
          cases Option.some.inj content
          exact same (candidateId.symm.trans slotId)

end Table
end Wayring
