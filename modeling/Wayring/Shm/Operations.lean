import Wayring.Shm.Consistency

/-!
# Operations of the store

Every operation keeps the store consistent and every pool in use referenced,
and none fails an assertion.
-/

namespace Wayring
namespace Shm

namespace Store

variable {store after : Store} {token : Arena.Token} {old : Pool}

/-- What every operation guarantees. -/
structure Sound
    {α : Type}
    (before : Store)
    (outcome : Except Error α × Store) : Prop where
  reachable : outcome.1 ≠ .error .unreachable
  consistent : Consistent outcome.2
  referenced : outcome.2.Referenced
  follows : ∃ more, Follows before outcome.2 more

theorem Sound.unchanged
    {α : Type} {result : Except Error α}
    (consistent : Consistent store)
    (referenced : store.Referenced)
    (reachable : result ≠ .error .unreachable) :
    Sound store (result, store) :=
  ⟨reachable, consistent, referenced, [], Follows.refl _⟩

/-- An operation after a change that an earlier part of the call made. -/
theorem Sound.of_follows
    {α : Type} {outcome : Except Error α × Store}
    {more : List (Nat × PoolEvent)}
    (sound : Sound after outcome)
    (follows : Follows store after more) : Sound store outcome := by
  obtain ⟨later, laterFollows⟩ := sound.follows
  exact ⟨sound.reachable, sound.consistent, sound.referenced, more ++ later,
    follows.trans laterFollows⟩

/-- Where pools resolve as before, they are referenced as before. -/
theorem Referenced.of_resolve
    (referenced : store.Referenced)
    (same : after.pools.resolve = store.pools.resolve) : after.Referenced :=
  fun found => referenced (same ▸ found)

/-- Other pools stay referenced when one changes. -/
def ReferencedBut (store : Store) (token : Arena.Token) : Prop :=
  ∀ {other pool}, other ≠ token → store.pools.resolve other = some pool →
    pool.Referenced

/-- An event that leaves the pool in use. -/
theorem Follows.write
    {buffers : Arena BufferRecord} {pins : Arena PinRecord}
    (consistent : Consistent store)
    (resolved : store.pools.resolve token = some old)
    (change : Pool → Pool)
    (event : PoolEvent)
    (open_ : closes [(token.index, event)] = fun _ => 0)
    (buffersFollow : Arena.Follows generations store.buffers buffers
      (bufferEnds [(token.index, event)]))
    (pinsFollow : Arena.Follows generations store.pins pins
      (pinEnds [(token.index, event)]))
    (kept : PinsKept store.pins pins) :
    Follows store
      (({ store with buffers, pins }.modifyPool token.index change).record
        token.index event) [(token.index, event)] where
  limits := rfl
  log := rfl
  pools := by
    rw [open_]
    exact (Arena.modify_spec consistent.pools resolved change).follows
  buffers := buffersFollow
  pins := pinsFollow
  kept := kept

/-- Writing a pool notes one event of it. -/
theorem Follows.writePool
    (consistent : Consistent store)
    (resolved : store.pools.resolve token = some old)
    (change : Pool → Pool)
    (event : PoolEvent)
    (open_ : closes [(token.index, event)] = fun _ => 0)
    (bufferOpen : bufferEnds [(token.index, event)] = fun _ => 0)
    (pinOpen : pinEnds [(token.index, event)] = fun _ => 0) :
    Follows store ((store.modifyPool token.index change).record token.index event)
      [(token.index, event)] := by
  refine Follows.write consistent resolved change event open_ ?_ ?_
    (PinsKept.refl _)
  · rw [bufferOpen]
    exact Arena.Follows.refl _ _
  · rw [pinOpen]
    exact Arena.Follows.refl _ _

/-- A changed pool is seen through its token. -/
theorem modified_resolve
    (wellFormed : store.pools.WellFormed generations)
    (resolved : store.pools.resolve token = some old)
    (change : Pool → Pool) (event : PoolEvent) :
    ((store.modifyPool token.index change).record token.index
      event).pools.resolve token = some (change old) :=
  ((Arena.modify_spec wellFormed resolved change).resolve token).trans
    (if_pos rfl)

/-- Other pools are referenced as before. -/
theorem modified_others
    (wellFormed : store.pools.WellFormed generations)
    (resolved : store.pools.resolve token = some old)
    (referenced : store.Referenced)
    (change : Pool → Pool) (event : PoolEvent) :
    ((store.modifyPool token.index change).record token.index
      event).ReferencedBut token := by
  intro other pool apart found
  have modified :=
    (Arena.modify_spec wellFormed resolved change).resolve other
  rw [if_neg apart] at modified
  exact referenced (modified.symm.trans found)

/-- All pools are referenced if the one left out is. -/
theorem ReferencedBut.referenced
    (others : store.ReferencedBut token)
    (resolved : store.pools.resolve token = some old)
    (here : old.Referenced) : store.Referenced := by
  intro other pool found
  by_cases same : other = token
  · rw [same, resolved, Option.some.injEq] at found
    exact found ▸ here
  · exact others same found

/-- A new pin has no accesses. -/
theorem PinsKept.of_taken
    {pins later : Arena PinRecord} {pin : Arena.Token} {record : PinRecord}
    (taken : Arena.Taken generations pins later pin record)
    (unaccessed : record.accessCount = 0) : PinsKept pins later := by
  intro other
  rw [taken.resolve]
  split_ifs with here
  · refine Or.inr ⟨fun record found => ?_, fun record found => ?_⟩
    · have fresh := taken.fresh
      rw [← here, Arena.current_of_resolve found] at fresh
      cases fresh
    · cases found
      exact unaccessed
  · exact Or.inl rfl

/-- A pin without accesses can go. -/
theorem PinsKept.of_released
    {pins later : Arena PinRecord} {pin : Arena.Token} {record : PinRecord}
    (released : Arena.Released generations pins later pin record)
    (resolved : pins.resolve pin = some record)
    (unaccessed : record.accessCount = 0) : PinsKept pins later := by
  intro other
  rw [released.resolve]
  split_ifs with here
  · refine Or.inr ⟨fun record found => ?_, fun record found => nomatch found⟩
    rw [here, resolved] at found
    cases found
    exact unaccessed
  · exact Or.inl rfl

/-! ## Release -/

/-- A pool without references is unmapped, and its descriptor closed. -/
theorem releasePoolIfUnused_spec
    (consistent : Consistent store)
    (resolved : store.pools.resolve token = some old)
    (others : store.ReferencedBut token) :
    let next := store.releasePoolIfUnused token.index
    Consistent next ∧ next.Referenced ∧ ∃ more, Follows store next more := by
  obtain ⟨slot, found, active, generation, same⟩ :=
    Arena.resolve_eq_some_iff.mp resolved
  intro next
  by_cases used : old.resourceAlive ∨ old.bufferCount ≠ 0 ∨ old.pinCount ≠ 0
  · have unchanged : next = store := by
      simp only [next, releasePoolIfUnused, found, same, if_pos used]
    rw [unchanged]
    exact ⟨consistent, others.referenced resolved used, [], Follows.refl _⟩
  have released := Arena.release_spec consistent.pools (by decide) resolved
  have nextEq : next =
      { store with
        pools := store.pools.release generations token.index
        log := store.log ++ [(token.index, .unmap old.mapping),
          (token.index, .close old.fd)] } := by
    simp only [next, releasePoolIfUnused, found, same, if_neg used, record,
      List.append_assoc, List.cons_append, List.nil_append]
  simp only [not_or, not_not, Bool.not_eq_true] at used
  obtain ⟨resource, buffers, pins⟩ := used
  have counts := consistent.counts resolved
  rw [buffers, pins] at counts
  rw [nextEq]
  refine ⟨?_, fun {other pool} there => ?_, _, ⟨rfl, rfl, ?_,
    Arena.Follows.refl _ _, Arena.Follows.refl _ _⟩, PinsKept.refl _⟩
  · refine
      { pools := released.wellFormed
        buffers := consistent.buffers
        pins := consistent.pins
        buffer := fun {other record} there => ?_
        pin := fun {other record} there => ?_
        counts := fun {other pool} there => ?_
        sized := fun {other pool} there => ?_
        lifetime := fun index => ?_ }
    · obtain ⟨pool, poolFound, inside⟩ := consistent.buffer there
      refine ⟨pool, ?_, inside⟩
      rw [released.resolve, if_neg, poolFound]
      have apart := Arena.kind_of_count_eq_zero counts.1.symm there
      simpa using apart
    · obtain ⟨pool, poolFound, inside⟩ := consistent.pin there
      refine ⟨pool, ?_, inside⟩
      rw [released.resolve, if_neg, poolFound]
      have apart := Arena.kind_of_count_eq_zero counts.2.symm there
      simpa using apart
    · rw [released.resolve] at there
      split_ifs at there
      exact consistent.counts there
    · rw [released.resolve] at there
      split_ifs at there
      exact consistent.sized there
    · have before := consistent.lifetime index
      simp only [released.current resolved]
      rw [eventsOf_append]
      by_cases here : index = token.index
      · subst here
        rw [Arena.current_of_resolve resolved] at before
        have two : eventsOf [(token.index, PoolEvent.unmap old.mapping),
            (token.index, .close old.fd)] token.index =
            [.unmap old.mapping] ++ [.close old.fd] := by
          simp [eventsOf]
        rw [if_pos rfl, two, ← List.append_assoc]
        have unmapped : (lifetimeOf (some old)).step (.unmap old.mapping) =
            some (.unmapped old.fd) := by
          simp [lifetimeOf, Lifetime.step, resource, buffers, pins]
        rw [Lifetime.replay_concat
          ((Lifetime.replay_concat before _).trans unmapped)]
        simp [Lifetime.step, lifetimeOf]
      · have none : eventsOf [(token.index, PoolEvent.unmap old.mapping),
            (token.index, .close old.fd)] index = [] := by
          simp [eventsOf, Ne.symm here]
        rw [if_neg here, none, List.append_nil]
        exact before
  · rw [released.resolve] at there
    split_ifs at there with here
    exact others here there
  · have ends : closes [(token.index, PoolEvent.unmap old.mapping),
        (token.index, .close old.fd)] =
        fun index => if index = token.index then 1 else 0 := by
      funext index
      by_cases here : index = token.index
      · simp [closes, here]
      · simp [closes, here, Ne.symm here]
    rw [ends]
    exact released.follows

/-- An operation that ends by releasing its pool if unused. -/
theorem Sound.release
    {more : List (Nat × PoolEvent)} {result : Except Error Unit}
    (follows : Follows store after more)
    (consistent : Consistent after)
    (resolved : after.pools.resolve token = some old)
    (others : after.ReferencedBut token)
    (reachable : result ≠ .error .unreachable) :
    Sound store (result, after.releasePoolIfUnused token.index) := by
  obtain ⟨consistentNow, referenced, later, laterFollows⟩ :=
    releasePoolIfUnused_spec consistent resolved others
  exact ⟨reachable, consistentNow, referenced, _, follows.trans laterFollows⟩

/-! ## Growth of a mapping -/

/-- A mapping without pins may be replaced by a larger one. -/
theorem Consistent.remap
    (consistent : Consistent store)
    (resolved : store.pools.resolve token = some old)
    {change : Pool → Pool} {mapping : Mapping} {sealedDirect : Bool}
    (unpinned : old.pinCount = 0)
    (grows : old.mapping.length < mapping.length)
    (declared : old.declaredSize ≤ mapping.length)
    (changed : change old =
      { old with
        mapping, sealedDirect
        declaredSize := mapping.length
        pendingSize := 0 }) :
    let next := (store.modifyPool token.index change).record token.index
      (.remap mapping)
    Consistent next ∧ Follows store next [(token.index, .remap mapping)] := by
  intro next
  have counts := consistent.counts resolved
  refine ⟨consistent.write resolved consistent.buffers consistent.pins Or.inl
    (fun found => Or.inl ⟨_, found, rfl, rfl⟩) (fun other => ?_)
    (fun other => ?_) ?_ (Or.inl unpinned) ?_
    (consistent.lifetime_step _ ?_), ?_⟩
  · split_ifs with here
    · rw [here, changed, counts.1]
      rfl
    · rfl
  · split_ifs with here
    · rw [here, changed, counts.2]
      rfl
    · rfl
  · rw [changed]
    exact declared
  · rw [changed]
    exact Or.inl ⟨rfl, rfl⟩
  · rw [Arena.current_of_resolve resolved, changed]
    simp [lifetimeOf, Lifetime.step, unpinned, grows]
  · exact Follows.writePool consistent resolved change _ rfl rfl rfl

/-- Applying pending growth leaves all references alone. -/
theorem applyPendingResize_spec
    (consistent : Consistent store)
    (resolved : store.pools.resolve token = some old)
    (referenced : store.ReferencedBut token)
    (idle : old.pendingSize ≠ 0 → old.pinCount = 0)
    (answers : Answers) :
    let outcome := store.applyPendingResize token.index old answers
    outcome.1 ≠ .error .unreachable ∧ Consistent outcome.2 ∧
      outcome.2.ReferencedBut token ∧
      (∃ more, Follows store outcome.2 more) ∧
      outcome.2.buffers = store.buffers ∧ outcome.2.pins = store.pins ∧
      ∃ pool, outcome.2.pools.resolve token = some pool ∧
        pool.resourceAlive = old.resourceAlive ∧
        pool.bufferCount = old.bufferCount ∧ pool.pinCount = old.pinCount ∧
        pool.declaredSize = old.declaredSize ∧
        (outcome.1 = .ok () → pool.pendingSize = 0) := by
  intro outcome
  by_cases none : old.pendingSize = 0
  · have same : outcome = (.ok (), store) := if_pos none
    rw [same]
    exact ⟨by simp, consistent, referenced, ⟨[], Follows.refl _⟩, rfl, rfl, old,
      resolved, rfl, rfl, rfl, rfl, fun _ => none⟩
  cases mapped : answers.mapping with
  | error code =>
      have same : outcome = (.error (.system code), store) := by
        simp only [outcome, applyPendingResize, if_neg none, mapped]
      rw [same]
      exact ⟨by simp, consistent, referenced, ⟨[], Follows.refl _⟩, rfl, rfl,
        old, resolved, rfl, rfl, rfl, rfl, fun failed => nomatch failed⟩
  | ok address =>
      have waits : old.pendingSize = old.declaredSize ∧
          old.mapping.length < old.declaredSize :=
        (consistent.sized resolved).resolve_left fun done => none done.1
      let change := fun node : Pool =>
        { node with
          mapping := { address, length := old.pendingSize }
          pendingSize := 0
          sealedDirect :=
            fileCannotShrinkBelow answers.file node.pendingSize }
      have same : outcome = (.ok (),
          (store.modifyPool token.index change).record token.index
            (.remap { address, length := old.pendingSize })) := by
        simp only [outcome, applyPendingResize, if_neg none, mapped]
        rfl
      have remapped := @Consistent.remap store token old consistent resolved
        change { address, length := old.pendingSize }
        (fileCannotShrinkBelow answers.file old.pendingSize) (idle none)
        (by simp only; omega) (by simp only; omega)
        (by simp only [change, waits.1])
      have modified := Arena.modify_spec consistent.pools resolved change
      rw [same]
      refine ⟨by simp, remapped.1, fun {other pool} apart found => ?_,
        ⟨_, remapped.2⟩, rfl, rfl, change old, ?_, rfl, rfl, rfl, rfl,
        fun _ => rfl⟩
      · have before := modified.resolve other
        rw [if_neg apart] at before
        exact referenced apart (before.symm.trans found)
      · exact (modified.resolve token).trans (if_pos rfl)

/-! ## Validation -/

/-- A new pool is not empty. -/
theorem createPool_spec
    {limits : Limits} {requestedSize : Int} :
    match createPool limits requestedSize with
    | .error cause => cause ≠ .unreachable
    | .ok size => 0 < size := by
  unfold createPool Limits.validate
  simp only [bind, Except.bind]
  by_cases invalid : limits.maxPoolBytes = 0 ∨ limits.maxPoolBytes > maxI32
  · simp [invalid]
  simp only [if_neg invalid]
  by_cases negative : requestedSize ≤ 0
  · simp [negative]
  simp only [if_neg negative]
  by_cases large : requestedSize.toNat > limits.maxPoolBytes
  · simp [large]
  simp only [if_neg large]
  omega

/-- A pool does not shrink. -/
theorem resizePool_spec
    {limits : Limits} {currentSize : Nat} {requestedSize : Int} :
    match resizePool limits currentSize requestedSize with
    | .error cause => cause ≠ .unreachable
    | .ok size => currentSize ≤ size := by
  have created := @createPool_spec limits requestedSize
  unfold resizePool
  cases outcome : createPool limits requestedSize with
  | error cause =>
      rw [outcome] at created
      exact created
  | ok size =>
      by_cases small : size < currentSize
      · simp [small, bind, Except.bind]
      · simp only [bind, Except.bind, small, if_false]
        omega

/-- A valid buffer ends in its pool. -/
theorem createBuffer_spec
    {poolSize : Nat} {format : Format} {offset width height stride : Int} :
    match createBuffer poolSize format offset width height stride with
    | .error cause => cause ≠ .unreachable
    | .ok buffer => buffer.stop ≤ poolSize := by
  unfold createBuffer checkedMul checkedAdd
  simp only [bind, Except.bind]
  by_cases noPixels : format.bytesPerPixel = 0
  · simp [noPixels]
  by_cases before : offset < 0
  · simp [noPixels, before]
  by_cases empty : width ≤ 0 ∨ height ≤ 0
  · simp [noPixels, before, empty]
  by_cases noStride : stride ≤ 0
  · simp [noPixels, before, empty, noStride]
  simp only [if_neg noPixels, if_neg before, if_neg empty, if_neg noStride]
  by_cases rowFits : width.toNat * format.bytesPerPixel < usizeLimit
  · simp only [if_pos rowFits]
    by_cases narrow : stride.toNat < width.toNat * format.bytesPerPixel
    · simp [narrow]
    by_cases extentFits : stride.toNat * height.toNat < usizeLimit
    · simp only [if_neg narrow, if_pos extentFits]
      by_cases stopFits :
          offset.toNat + stride.toNat * height.toNat < usizeLimit
      · simp only [if_pos stopFits]
        by_cases outside : offset.toNat + stride.toNat * height.toNat > poolSize
        · simp [outside]
        · simp only [if_neg outside, Buffer.stop]
          omega
      · simp [stopFits]
    · simp [narrow, extentFits]
  · simp [rowFits]

/-! ## Pools -/

theorem addPool_sound
    (consistent : Consistent store)
    (referenced : store.Referenced)
    (fd : Nat) (requestedSize : Int) (answers : Answers) :
    Sound store (store.addPool fd requestedSize answers) := by
  have ready := @Consistent.readyPool store consistent answers.granted
  unfold addPool
  generalize (if store.pools.free = none then store.growPool answers.granted
    else Except.ok store) = readied at ready ⊢
  cases readied with
  | error cause =>
      subst ready
      exact .unchanged consistent referenced (by simp)
  | ok next =>
      obtain ⟨consistentNow, follows, free, same⟩ := ready
      have referencedNow : next.Referenced := referenced.of_resolve same
      refine Sound.of_follows ?_ follows
      have created := @createPool_spec next.limits requestedSize
      simp only
      generalize createPool next.limits requestedSize = outcome at created ⊢
      cases outcome with
      | error cause =>
          exact .unchanged consistentNow referencedNow (by simpa using created)
      | ok size =>
          cases mapped : answers.mapping with
          | error code =>
              exact .unchanged consistentNow referencedNow (by simp)
          | ok address =>
              obtain ⟨token, pools, took, taken⟩ :=
                Arena.take_spec consistentNow.pools free
                  { resourceAlive := true
                    fd
                    mapping := { address, length := size }
                    declaredSize := size
                    sealedDirect :=
                      fileCannotShrinkBelow answers.file size }
              simp only [took]
              refine ⟨by simp, consistentNow.taken taken (Or.inl ⟨rfl, rfl⟩) rfl
                (consistentNow.lifetime_step _ ?_), fun {other pool} found => ?_,
                _, ⟨rfl, rfl, taken.follows, Arena.Follows.refl _ _,
                Arena.Follows.refl _ _⟩, PinsKept.refl _⟩
              · rw [taken.fresh]
                rfl
              · have resolved := taken.resolve other
                split_ifs at resolved
                · cases resolved.symm.trans found
                  exact Or.inl rfl
                · exact referencedNow (resolved.symm.trans found)

theorem destroyPoolResource_sound
    (consistent : Consistent store)
    (referenced : store.Referenced)
    (token : Arena.Token) :
    Sound store (store.destroyPoolResource token) := by
  unfold destroyPoolResource
  cases resolved : store.pools.resolve token with
  | none => exact .unchanged consistent referenced (by simp)
  | some node =>
      cases alive : node.resourceAlive with
      | false =>
          simp only [alive]
          exact .unchanged consistent referenced (by simp)
      | true =>
          simp only [alive]
          have current := Arena.current_of_resolve resolved
          have sized : node.Sized := consistent.sized resolved
          have written := consistent.writePool resolved
            (fun node => { node with resourceAlive := false }) rfl rfl le_rfl
            (Or.inr le_rfl) sized
            (consistent.lifetime_step .destroyResource (by
              rw [current]
              simp [lifetimeOf, Lifetime.step, alive]))
          have follows : Follows store
              ((store.modifyPool token.index fun node =>
                { node with resourceAlive := false }).record token.index
                  .destroyResource)
              [(token.index, .destroyResource)] :=
            Follows.writePool consistent resolved _ _ rfl rfl rfl
          exact Sound.release follows written
            (modified_resolve consistent.pools resolved _ _)
            (modified_others consistent.pools resolved referenced _ _)
            (by simp)

theorem resize_sound
    (consistent : Consistent store)
    (referenced : store.Referenced)
    (token : Arena.Token) (requestedSize : Int) (answers : Answers) :
    Sound store (store.resize token requestedSize answers) := by
  unfold resize
  cases resolved : store.pools.resolve token with
  | none => exact .unchanged consistent referenced (by simp)
  | some node =>
      cases alive : node.resourceAlive with
      | false =>
          simp only [alive]
          exact .unchanged consistent referenced (by simp)
      | true =>
          simp only [alive]
          have resized := @resizePool_spec store.limits node.declaredSize
            requestedSize
          generalize resizePool store.limits node.declaredSize requestedSize =
            outcome at resized ⊢
          cases outcome with
          | error cause =>
              exact .unchanged consistent referenced (by simpa using resized)
          | ok size =>
              simp only
              by_cases same : size = node.declaredSize
              · simp only [if_pos same]
                by_cases unpinned : node.pinCount = 0
                · obtain ⟨reachable, consistentNow, others, follows, _, _, pool,
                    found, resource, _⟩ :=
                    applyPendingResize_spec consistent resolved
                      (fun _ found => referenced found) (fun _ => unpinned)
                      answers
                  simp only [if_pos unpinned]
                  exact ⟨reachable, consistentNow,
                    others.referenced found (Or.inl (resource.trans alive)),
                    follows⟩
                · simp only [if_neg unpinned]
                  exact .unchanged consistent referenced (by simp)
              have grows : node.declaredSize < size :=
                lt_of_le_of_ne resized (Ne.symm same)
              simp only [if_neg same]
              have mapped : node.mapping.length ≤ node.declaredSize := by
                have sized := consistent.sized resolved
                unfold Pool.Sized at sized
                omega
              by_cases unpinned : node.pinCount = 0
              · simp only [unpinned, ne_eq, not_true_eq_false, if_false]
                cases remapped : answers.mapping with
                | error code =>
                    exact .unchanged consistent referenced (by simp)
                | ok address =>
                    obtain ⟨consistentNow, follows⟩ :=
                      @Consistent.remap store token node consistent resolved
                        (fun node =>
                          { node with
                            mapping := { address, length := size }
                            declaredSize := size
                            pendingSize := 0
                            sealedDirect :=
                              fileCannotShrinkBelow answers.file size })
                        { address, length := size }
                        (fileCannotShrinkBelow answers.file size) unpinned
                        (mapped.trans_lt grows) resized rfl
                    exact ⟨by simp, consistentNow,
                      ReferencedBut.referenced
                        (modified_others consistent.pools resolved referenced
                          _ _)
                        (modified_resolve consistent.pools resolved _ _)
                        (Or.inl alive), _, follows⟩
              · simp only [ne_eq, unpinned, not_false_eq_true, if_true]
                have written := @Consistent.writePool store consistent token
                  node [] resolved
                  (fun node =>
                    { node with declaredSize := size, pendingSize := size })
                  rfl rfl resized (Or.inr le_rfl)
                  (Or.inr ⟨rfl, mapped.trans_lt grows⟩)
                  (fun index => by
                    rw [List.append_nil, consistent.lifetime]
                    split_ifs with here
                    · rw [here, Arena.current_of_resolve resolved]
                      rfl
                    · rfl)
                have modified := Arena.modify_spec consistent.pools resolved
                  fun node =>
                    { node with declaredSize := size, pendingSize := size }
                simp only [List.append_nil] at written
                refine ⟨by simp, written, fun {other pool} found => ?_, [], ⟨rfl,
                  (List.append_nil _).symm, modified.follows,
                  Arena.Follows.refl _ _, Arena.Follows.refl _ _⟩,
                  PinsKept.refl _⟩
                have before := modified.resolve other
                split_ifs at before
                · cases before.symm.trans found
                  exact Or.inl alive
                · exact referenced (before.symm.trans found)

/-! ## Buffers -/

theorem addBuffer_sound
    (consistent : Consistent store)
    (referenced : store.Referenced)
    (poolToken : Arena.Token) (format : Format)
    (offset width height stride : Int) (answers : Answers) :
    Sound store
      (store.addBuffer poolToken format offset width height stride answers) := by
  unfold addBuffer
  cases resolved : store.pools.resolve poolToken with
  | none => exact .unchanged consistent referenced (by simp)
  | some pool =>
      cases alive : pool.resourceAlive with
      | false =>
          simp only [alive]
          exact .unchanged consistent referenced (by simp)
      | true =>
          have ready := @Consistent.readyBuffer store consistent answers.granted
          simp only [alive, Bool.not_true, Bool.false_eq_true, if_false]
          generalize (if store.buffers.free = none then
              store.growBuffer answers.granted
            else Except.ok store) = readied at ready ⊢
          cases readied with
          | error cause =>
              subst ready
              exact .unchanged consistent referenced (by simp)
          | ok next =>
              obtain ⟨consistentNow, follows, free, same⟩ := ready
              have referencedNow : next.Referenced :=
                referenced.of_resolve (by rw [same])
              rw [← same] at resolved
              refine Sound.of_follows ?_ follows
              have created := @createBuffer_spec pool.declaredSize format offset
                width height stride
              simp only
              generalize createBuffer pool.declaredSize format offset width
                height stride = outcome at created ⊢
              cases outcome with
              | error cause =>
                  exact .unchanged consistentNow referencedNow
                    (by simpa using created)
              | ok metadata =>
                  obtain ⟨token, buffers, took, taken⟩ :=
                    Arena.take_spec consistentNow.buffers free
                      { pool := poolToken, metadata }
                  simp only [took]
                  have counts := consistentNow.counts resolved
                  have sized : pool.Sized := consistentNow.sized resolved
                  have written := @Consistent.write next consistentNow poolToken
                    pool
                    (fun pool =>
                      { pool with bufferCount := pool.bufferCount + 1 })
                    buffers next.pins
                    [(poolToken.index, .addBuffer token.index)] resolved
                    taken.wellFormed consistentNow.pins
                    (fun {other record} found => by
                      rw [taken.resolve] at found
                      split_ifs at found
                      · cases found
                        exact Or.inr ⟨rfl, created⟩
                      · exact Or.inl found)
                    (fun found => Or.inl ⟨_, found, rfl, rfl⟩)
                    (fun other => by
                      rw [taken.count]
                      by_cases here : other = poolToken
                      · rw [if_pos here, here, ← counts.1]
                        simp
                      · rw [if_neg here]
                        simp [Ne.symm here])
                    (fun other => by
                      by_cases here : other = poolToken
                      · rw [if_pos here, here, ← counts.2]
                      · rw [if_neg here])
                    le_rfl (Or.inr le_rfl) sized
                    (consistentNow.lifetime_step _ (by
                      rw [Arena.current_of_resolve resolved]
                      simp [lifetimeOf, Lifetime.step, alive]))
                  refine ⟨by simp, written, ?_, _,
                    Follows.write consistentNow resolved _ _ rfl taken.follows
                      (Arena.Follows.refl _ _) (PinsKept.refl _)⟩
                  exact ReferencedBut.referenced
                    (@modified_others { next with buffers } poolToken pool
                      consistentNow.pools resolved referencedNow _ _)
                    (@modified_resolve { next with buffers } poolToken pool
                      consistentNow.pools resolved _ _)
                    (Or.inl alive)

theorem destroyBuffer_sound
    (consistent : Consistent store)
    (referenced : store.Referenced)
    (token : Arena.Token) :
    Sound store (store.destroyBuffer token) := by
  unfold destroyBuffer
  cases bufferResolved : store.buffers.resolve token with
  | none => exact .unchanged consistent referenced (by simp)
  | some record =>
      obtain ⟨pool, resolved, inside⟩ := consistent.buffer bufferResolved
      simp only [resolved]
      have counts := consistent.counts resolved
      have sized : pool.Sized := consistent.sized resolved
      have used : 0 < pool.bufferCount := by
        rw [counts.1]
        exact Arena.count_pos bufferResolved (beq_self_eq_true _)
      have released :=
        Arena.release_spec consistent.buffers (by decide) bufferResolved
      have ends : bufferEnds [(record.pool.index, .destroyBuffer token.index)] =
          fun index => if index = token.index then 1 else 0 := by
        funext index
        by_cases here : index = token.index
        · simp [bufferEnds, here]
        · simp [bufferEnds, here, Ne.symm here]
      have written := @Consistent.write store consistent record.pool pool
        (fun pool => { pool with bufferCount := pool.bufferCount - 1 })
        (store.buffers.release generations token.index) store.pins
        [(record.pool.index, .destroyBuffer token.index)] resolved
        released.wellFormed consistent.pins
        (fun {other content} found => by
          rw [released.resolve] at found
          split_ifs at found
          exact Or.inl found)
        (fun found => Or.inl ⟨_, found, rfl, rfl⟩)
        (fun other => by
          have count := released.count fun content => content.pool == other
          by_cases here : other = record.pool
          · rw [if_pos here]
            rw [here, ← counts.1] at count
            simp only [beq_self_eq_true, if_true] at count
            rw [here]
            exact Nat.eq_sub_of_add_eq count
          · rw [if_neg here]
            simpa [Ne.symm here] using count)
        (fun other => by
          by_cases here : other = record.pool
          · rw [if_pos here, here, ← counts.2]
          · rw [if_neg here])
        le_rfl (Or.inr le_rfl) sized
        (consistent.lifetime_step _ (by
          rw [Arena.current_of_resolve resolved]
          simp [lifetimeOf, Lifetime.step, used.ne']))
      have follows := @Follows.write store record.pool pool
        (store.buffers.release generations token.index) store.pins consistent
        resolved (fun pool => { pool with bufferCount := pool.bufferCount - 1 })
        (.destroyBuffer token.index) rfl (by rw [ends]; exact released.follows)
        (Arena.Follows.refl _ _) (PinsKept.refl _)
      exact Sound.release follows written
        (@modified_resolve
          { store with
            buffers := store.buffers.release generations token.index }
          record.pool pool consistent.pools resolved _ _)
        (@modified_others
          { store with
            buffers := store.buffers.release generations token.index }
          record.pool pool consistent.pools resolved referenced _ _) (by simp)

/-! ## Pins -/

/-- A new pin holds the mapping of its buffer's pool, which nothing waits
for. -/
theorem pin_sound
    (consistent : Consistent store)
    (referenced : store.Referenced)
    (token : Arena.Token) (answers : Answers) :
    Sound store (store.pin token answers) ∧
      ∀ {pin}, (store.pin token answers).1 = .ok pin →
        ∃ record pool,
          (store.pin token answers).2.pins.resolve pin = some record ∧
          (store.pin token answers).2.pools.resolve record.pool = some pool ∧
          record.accessCount = 0 ∧ pool.pendingSize = 0 := by
  unfold Store.pin
  cases bufferResolved : store.buffers.resolve token with
  | none => exact ⟨.unchanged consistent referenced (by simp), by simp⟩
  | some buffer =>
      obtain ⟨pool, resolved, inside⟩ := consistent.buffer bufferResolved
      simp only [resolved]
      by_cases blocked : pool.pendingSize ≠ 0 ∧ pool.pinCount ≠ 0
      · simp only [if_pos blocked]
        exact ⟨.unchanged consistent referenced (by simp), by simp⟩
      obtain ⟨reachable, consistentNow, others, ⟨more, follows⟩, sameBuffers,
        samePins, now, found, resource, bufferCount, pinCount, declared,
        applied⟩ := applyPendingResize_spec consistent resolved
          (fun _ found => referenced found)
          (fun pending => by_contra fun pinned => blocked ⟨pending, pinned⟩)
          answers
      have inUse : now.bufferCount ≠ 0 := by
        rw [bufferCount, (consistent.counts resolved).1]
        exact (Arena.count_pos bufferResolved
          (beq_self_eq_true buffer.pool)).ne'
      simp only [if_neg blocked]
      generalize store.applyPendingResize buffer.pool.index pool answers =
        outcome at *
      have referencedNow : outcome.2.Referenced :=
        others.referenced found (Or.inr (Or.inl inUse))
      obtain ⟨result, next⟩ := outcome
      cases result with
      | error cause =>
          exact ⟨⟨by simpa using reachable, consistentNow, referencedNow, more,
            follows⟩, by simp⟩
      | ok value =>
          have ready := @Consistent.readyPin next consistentNow answers.granted
          simp only
          generalize (if next.pins.free = none then
              next.growPin answers.granted
            else Except.ok next) = readied at ready ⊢
          cases readied with
          | error cause =>
              subst ready
              exact ⟨⟨by simp, consistentNow, referencedNow, more, follows⟩,
                by simp⟩
          | ok last =>
              obtain ⟨consistentLast, laterFollows, free, samePools,
                lastBuffers⟩ := ready
              have referencedLast : last.Referenced :=
                referencedNow.of_resolve (by rw [samePools])
              rw [← samePools] at found
              have bufferFound : last.buffers.resolve token = some buffer := by
                rw [lastBuffers, sameBuffers, bufferResolved]
              have settled : now.pendingSize = 0 := applied rfl
              obtain ⟨pin, pins, took, taken⟩ :=
                Arena.take_spec consistentLast.pins free
                  { pool := buffer.pool, metadata := buffer.metadata }
              simp only [took]
              have counts := consistentLast.counts found
              have sized : now.Sized := consistentLast.sized found
              have fits : buffer.metadata.stop ≤ now.mapping.length := by
                unfold Pool.Sized at sized
                omega
              have written := @Consistent.write last consistentLast buffer.pool
                now (fun pool => { pool with pinCount := pool.pinCount + 1 })
                last.buffers pins [(buffer.pool.index, .pin pin.index)] found
                consistentLast.buffers taken.wellFormed Or.inl
                (fun {other record} there => by
                  rw [taken.resolve] at there
                  split_ifs at there
                  · cases there
                    exact Or.inr ⟨rfl, fits⟩
                  · exact Or.inl ⟨_, there, rfl, rfl⟩)
                (fun other => by
                  by_cases here : other = buffer.pool
                  · rw [if_pos here, here, ← counts.1]
                  · rw [if_neg here])
                (fun other => by
                  rw [taken.count]
                  by_cases here : other = buffer.pool
                  · rw [if_pos here, here, ← counts.2]
                    simp
                  · rw [if_neg here]
                    simp [Ne.symm here])
                le_rfl (Or.inr le_rfl) sized
                (consistentLast.lifetime_step _ (by
                  rw [Arena.current_of_resolve found]
                  simp [lifetimeOf, Lifetime.step, inUse]))
              have pinFollows := Follows.write consistentLast found
                (fun pool => { pool with pinCount := pool.pinCount + 1 })
                (.pin pin.index) rfl (Arena.Follows.refl _ _) taken.follows
                (PinsKept.of_taken taken rfl)
              have poolNow := @modified_resolve { last with pins } buffer.pool
                now consistentLast.pools found
                (fun pool => { pool with pinCount := pool.pinCount + 1 })
                (.pin pin.index)
              refine ⟨⟨by simp, written, ?_, _,
                (follows.trans laterFollows).trans pinFollows⟩, fun same => ?_⟩
              · exact ReferencedBut.referenced
                  (@modified_others { last with pins } buffer.pool now
                    consistentLast.pools found referencedLast _ _) poolNow
                  (Or.inr (Or.inl inUse))
              · cases same
                exact ⟨_, _, (taken.resolve pin).trans (if_pos rfl), poolNow,
                  rfl, settled⟩

/-- A pin is dropped even when the growth that waited for it fails. -/
theorem unpin_sound
    (consistent : Consistent store)
    (referenced : store.Referenced)
    (token : Arena.Token) (answers : Answers) :
    Sound store (store.unpin token answers) := by
  unfold unpin
  cases pinResolved : store.pins.resolve token with
  | none => exact .unchanged consistent referenced (by simp)
  | some record =>
      by_cases accessed : record.accessCount ≠ 0
      · simp only [if_pos accessed]
        exact .unchanged consistent referenced (by simp)
      obtain ⟨pool, resolved, inside⟩ := consistent.pin pinResolved
      simp only [if_neg accessed, resolved]
      have counts := consistent.counts resolved
      have sized : pool.Sized := consistent.sized resolved
      have used : 0 < pool.pinCount := by
        rw [counts.2]
        exact Arena.count_pos pinResolved (beq_self_eq_true record.pool)
      have released :=
        Arena.release_spec consistent.pins (by decide) pinResolved
      have ends : pinEnds [(record.pool.index, .unpin token.index)] =
          fun index => if index = token.index then 1 else 0 := by
        funext index
        by_cases here : index = token.index
        · simp [pinEnds, here]
        · simp [pinEnds, here, Ne.symm here]
      have written := @Consistent.write store consistent record.pool pool
        (fun pool => { pool with pinCount := pool.pinCount - 1 })
        store.buffers (store.pins.release generations token.index)
        [(record.pool.index, .unpin token.index)] resolved
        consistent.buffers released.wellFormed Or.inl
        (fun {other content} found => by
          rw [released.resolve] at found
          split_ifs at found
          exact Or.inl ⟨_, found, rfl, rfl⟩)
        (fun other => by
          by_cases here : other = record.pool
          · rw [if_pos here, here, ← counts.1]
          · rw [if_neg here])
        (fun other => by
          have count := released.count fun content => content.pool == other
          by_cases here : other = record.pool
          · rw [if_pos here]
            rw [here, ← counts.2] at count
            simp only [beq_self_eq_true, if_true] at count
            rw [here]
            exact Nat.eq_sub_of_add_eq count
          · rw [if_neg here]
            simpa [Ne.symm here] using count)
        le_rfl (Or.inr le_rfl) sized
        (consistent.lifetime_step _ (by
          rw [Arena.current_of_resolve resolved]
          simp [lifetimeOf, Lifetime.step, used.ne']))
      change Consistent
        (({ store with
            pins := store.pins.release generations token.index }.modifyPool
          record.pool.index fun pool =>
            { pool with pinCount := pool.pinCount - 1 }).record
          record.pool.index (.unpin token.index)) at written
      have follows := @Follows.write store record.pool pool store.buffers
        (store.pins.release generations token.index) consistent resolved
        (fun pool => { pool with pinCount := pool.pinCount - 1 })
        (.unpin token.index) rfl (Arena.Follows.refl _ _)
        (by rw [ends]; exact released.follows)
        (PinsKept.of_released released pinResolved (not_not.mp accessed))
      have found := @modified_resolve
        { store with pins := store.pins.release generations token.index }
        record.pool pool consistent.pools resolved
        (fun pool => { pool with pinCount := pool.pinCount - 1 })
        (.unpin token.index)
      have others := @modified_others
        { store with pins := store.pins.release generations token.index }
        record.pool pool consistent.pools resolved referenced
        (fun pool => { pool with pinCount := pool.pinCount - 1 })
        (.unpin token.index)
      generalize (({ store with
          pins := store.pins.release generations token.index }.modifyPool
            record.pool.index fun pool =>
            { pool with pinCount := pool.pinCount - 1 }).record
            record.pool.index (.unpin token.index)) = next at *
      split_ifs with waiting
      · obtain ⟨reachable, consistentNow, othersNow, ⟨more, laterFollows⟩, _, _,
          now, foundNow, _⟩ :=
          applyPendingResize_spec written found others (fun _ => waiting.1)
            answers
        exact Sound.release (follows.trans laterFollows) consistentNow foundNow
          othersNow reachable
      · exact Sound.release follows written found others (by simp)

/-- A pin that was not accessed, and that no growth waits for, is dropped
without failure. -/
theorem unpin_ok
    {record : PinRecord} {pool : Pool}
    (found : store.pins.resolve token = some record)
    (unaccessed : record.accessCount = 0)
    (resolved : store.pools.resolve record.pool = some pool)
    (settled : pool.pendingSize = 0)
    (answers : Answers) :
    (store.unpin token answers).1 = .ok () := by
  simp [unpin, found, unaccessed, resolved, settled]

/-! ## Copies -/

/-- The pin of a copy that cannot be queued is given back. -/
theorem abandonCopy_sound
    {pin : Arena.Token} {cause : Error}
    (sound : Sound store (store.unpin pin answers))
    (dropped : (store.unpin pin answers).1 = .ok ())
    (reachable : cause ≠ .unreachable) :
    Sound store (store.abandonCopy pin cause answers) := by
  unfold abandonCopy
  generalize store.unpin pin answers = outcome at sound dropped ⊢
  obtain ⟨result, next⟩ := outcome
  simp only at dropped
  subst dropped
  exact ⟨by simpa using reachable, sound.consistent, sound.referenced,
    sound.follows⟩

theorem prepareCopy_sound
    (consistent : Consistent store)
    (referenced : store.Referenced)
    (token : Arena.Token) (destinationLength userData : Nat) (queued : Bool)
    (answers later : Answers) :
    Sound store (store.prepareCopy token destinationLength userData queued
      answers later) := by
  obtain ⟨sound, fresh⟩ := pin_sound consistent referenced token answers
  unfold prepareCopy
  generalize store.pin token answers = outcome at sound fresh ⊢
  obtain ⟨result, next⟩ := outcome
  cases result with
  | error cause =>
      exact ⟨by simpa using sound.reachable, sound.consistent, sound.referenced,
        sound.follows⟩
  | ok pin =>
      obtain ⟨record, pool, found, resolved, unaccessed, settled⟩ := fresh rfl
      obtain ⟨more, follows⟩ := sound.follows
      have abandoned := fun cause reachable =>
        @abandonCopy_sound next later pin cause
          (unpin_sound sound.consistent sound.referenced pin later)
          (unpin_ok found unaccessed resolved settled later) reachable
      simp only at found resolved
      simp only [found, resolved]
      refine Sound.of_follows ?_ follows
      split_ifs
      · exact abandoned _ (by simp)
      · exact abandoned _ (by simp)
      · exact .unchanged sound.consistent sound.referenced (by simp)

theorem completeCopy_sound
    (consistent : Consistent store)
    (referenced : store.Referenced)
    (copy : Copy) (userData : Nat) (result : Int) (answers : Answers) :
    Sound store (store.completeCopy copy userData result answers) := by
  have sound := unpin_sound consistent referenced copy.pin answers
  unfold completeCopy
  by_cases foreign : userData ≠ copy.userData
  · rw [if_pos foreign]
    exact .unchanged consistent referenced (by simp)
  rw [if_neg foreign]
  generalize store.unpin copy.pin answers = outcome at sound ⊢
  obtain ⟨dropped, next⟩ := outcome
  cases dropped with
  | error cause =>
      exact ⟨by simpa using sound.reachable, sound.consistent, sound.referenced,
        sound.follows⟩
  | ok _ =>
      have last : ∀ outcome : Except Error Nat,
          outcome ≠ .error .unreachable → Sound store (outcome, next) :=
        fun _ reachable =>
          ⟨reachable, sound.consistent, sound.referenced, sound.follows⟩
      simp only
      split_ifs
      · exact last _ (by simp)
      · exact last _ (by simp)
      · exact last _ (by simp)

end Store
end Shm
end Wayring
