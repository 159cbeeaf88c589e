import Wayring.Objects.ClientCoupling

/-!
# Runs of client object operations

Whole runs over the refinement: every reachable state is coupled, the IDs
handed out fill a range without gaps, and a failed call changes nothing that
later calls can observe, as long as the later calls find memory in the same
places with and without it.
-/

namespace Wayring

open ClientIds (Tracks idSpace)
open ClientObjects (Reply Call)

/-- Whether a result reports a lack of memory. -/
def outOfMemory {α : Type} : Except Error α → Bool
  | .error .outOfMemory => true
  | _ => false

@[simp] theorem outOfMemory_map
    {α β : Type} (function : α → β) (result : Except Error α) :
    outOfMemory (result.map function) = outOfMemory result := by
  cases result with
  | error cause => cases cause <;> rfl
  | ok value => rfl

/-- A call ran out of memory. -/
theorem outOfMemory_eq_true
    {α : Type} {result : Except Error α}
    (failed : outOfMemory result = true) :
    result = .error .outOfMemory := by
  unfold outOfMemory at failed
  split at failed
  · rfl
  · cases failed

/-! ## The allocator only makes calls fail -/

namespace Namespace

/-- Insertions that agree on running out of memory agree altogether. -/
theorem insert_congr
    {objects : Namespace}
    (wellFormed : objects.table.WellFormed)
    {id : Nat} {interface : Interface} {version : Nat}
    {context : Option Nat} {left right : Bool}
    (alike : outOfMemory (objects.insert id interface version context left) =
      outOfMemory (objects.insert id interface version context right)) :
    objects.insert id interface version context left =
      objects.insert id interface version context right := by
  have denied := insert_denied wellFormed id interface version context
  have granted := insert_granted wellFormed id interface version context
  have unequal (failed : objects.insert id interface version context false =
      .error .outOfMemory)
      (both : outOfMemory
          (objects.insert id interface version context true) = true) :
      objects.insert id interface version context false =
        objects.insert id interface version context true :=
    absurd (outOfMemory_eq_true both) granted
  cases left <;> cases right
  · rfl
  · rcases denied with same | failed
    · exact same
    · exact unequal failed (by rw [← alike, failed]; rfl)
  · rcases denied with same | failed
    · exact same.symm
    · exact (unequal failed (by rw [alike, failed]; rfl)).symm
  · rfl

end Namespace

namespace ClientIds.Tracks

/-- A fixed number of new IDs is tracked. -/
theorem of_init
    {maxIds : Nat} {granted : Bool} {ids : ClientIds}
    (created : ClientIds.init maxIds granted = .ok ids) :
    Tracks ids IdTracker.initial := by
  unfold ClientIds.init at created
  split_ifs at created with inadmissible given
  cases created
  exact Tracks.init inadmissible false

/-- New IDs that may grow are tracked. -/
theorem of_initGrowable
    {initialIds : Nat} {granted : Bool} {ids : ClientIds}
    (created : ClientIds.initGrowable initialIds granted = .ok ids) :
    Tracks ids IdTracker.initial := by
  unfold ClientIds.initGrowable ClientIds.init at created
  split_ifs at created with inadmissible given
  · cases created
  · cases created
    exact Tracks.init inadmissible true
  · cases created

end ClientIds.Tracks

namespace ClientView

variable {view : ClientView}

/-- Creation depends on storage through failures alone. -/
theorem createLocal_congr
    (coupled : view.Coupled)
    {interface : Interface} {version : Nat} {context : Option Nat}
    {left right : Bool}
    (alike :
      outOfMemory (view.createLocal none interface version context left).1 =
        outOfMemory
          (view.createLocal none interface version context right).1) :
    view.createLocal none interface version context left =
      view.createLocal none interface version context right := by
  have visible (granted : Bool) :
      outOfMemory (view.createLocal none interface version context granted).1 =
        outOfMemory (view.objectNamespace.insert (view.tracker.upcoming + 2)
          interface version context granted) := by
    unfold createLocal
    cases view.objectNamespace.insert (view.tracker.upcoming + 2) interface
        version context granted with
    | error cause => cases cause <;> rfl
    | ok pair => rfl
  rw [visible, visible] at alike
  unfold createLocal
  rw [Namespace.insert_congr coupled.wellFormed alike]

/-- Insertion depends on storage through failures alone. -/
theorem insertPeer_congr
    (coupled : view.Coupled)
    {id : Nat} {interface : Interface} {version : Nat}
    {context : Option Nat} {left right : Bool}
    (alike :
      outOfMemory (view.insertPeer id interface version context left).1 =
        outOfMemory (view.insertPeer id interface version context right).1) :
    view.insertPeer id interface version context left =
      view.insertPeer id interface version context right := by
  by_cases range : id < serverIdStart
  · simp only [insertPeer, if_pos range]
  · have visible (granted : Bool) :
        outOfMemory (view.insertPeer id interface version context granted).1 =
          outOfMemory (view.objectNamespace.insert id interface version context
            granted) := by
      simp only [insertPeer, if_neg range]
      cases view.objectNamespace.insert id interface version context
          granted with
      | error cause => cases cause <;> rfl
      | ok pair => rfl
    rw [visible, visible] at alike
    simp only [insertPeer, if_neg range]
    rw [Namespace.insert_congr coupled.wellFormed alike]

/-- Only creations ask the tracker for storage. -/
theorem creation_or_ignores
    (view : ClientView) (operation : ClientObjects.Operation) :
    (∃ interface version context,
        operation = .createLocal interface version context) ∨
      ∀ storage grants, view.step storage ⟨operation, grants⟩ =
        view.step none ⟨operation, grants⟩ := by
  cases operation with
  | createLocal interface version context => exact Or.inl ⟨_, _, _, rfl⟩
  | _ => exact Or.inr fun _ _ => rfl

/-- Calls that agree on running out of memory agree altogether. -/
theorem step_congr
    (coupled : view.Coupled)
    {left right : Call}
    (same : left.operation = right.operation)
    (alike : outOfMemory (view.step none left).1 =
      outOfMemory (view.step none right).1) :
    view.step none left = view.step none right := by
  obtain ⟨operation, leftGrants⟩ := left
  obtain ⟨_, rightGrants⟩ := right
  cases same
  cases operation with
  | createLocal interface version context =>
      simp only [step, outOfMemory_map] at alike ⊢
      rw [createLocal_congr coupled alike]
  | insertPeer id interface version context =>
      simp only [step, outOfMemory_map] at alike ⊢
      rw [insertPeer_congr coupled alike]
  | cancelLocal handle => rfl
  | retireLocal handle => rfl
  | deleted id => rfl
  | removePeer handle => rfl

end ClientView

namespace ClientObjects

/-! ## Two runs that differ in their storage -/

/-- A creation is never served by storage that is full for good. -/
theorem StorageStep.not_full
    {ids result : ClientIds} {tracker : IdTracker}
    {interface : Interface} {version : Nat} {context : Option Nat}
    {grants : Grants}
    (stepped : StorageStep ids tracker
      ⟨.createLocal interface version context, grants⟩ none result)
    (needs : Tracks.NeedsGrowth ids tracker)
    (limited : ids.growth = false ∨ ids.entries.length = idSpace) :
    False := by
  rcases stepped.2 with ⟨_, roomy⟩ | ⟨_, _, _, narrow, growable, _⟩
  · exact roomy _ _ _ rfl needs
  · rcases limited with bounded | widest
    · rw [growable] at bounded
      cases bounded
    · omega

/-- Two states that show one view, with storage of the same kind. -/
structure Similar (left right : ClientObjects) (view : ClientView) : Prop where
  left_represents : Represents left view
  right_represents : Represents right view
  growth_eq : left.ids.growth = right.ids.growth
  bounded : left.ids.growth = false →
    left.ids.entries.length = right.ids.entries.length

namespace Similar

variable {left right : ClientObjects} {view : ClientView}

/-- Both sides are alike. -/
theorem symm (similar : Similar left right view) : Similar right left view where
  left_represents := similar.right_represents
  right_represents := similar.left_represents
  growth_eq := similar.growth_eq.symm
  bounded growth :=
    (similar.bounded (similar.growth_eq.trans growth)).symm

/-- Running out of IDs does not depend on the storage. -/
theorem exhausted
    (similar : Similar left right view)
    {call : Call}
    (refused : Tracks.Refused left.ids view.tracker call.grants.ids
      .exhausted) :
    Tracks.NeedsGrowth right.ids view.tracker ∧
      (right.ids.growth = false ∨ right.ids.entries.length = idSpace) := by
  obtain ⟨⟨returned, filled⟩, limited⟩ := refused
  have leftLength := similar.left_represents.tracks.length_le
  have rightLower := similar.right_represents.tracks.bound_le
  have rightNext := similar.right_represents.tracks.length_ge
  have rightLength := similar.right_represents.tracks.length_le
  rcases limited with bounded | widest
  · have same := similar.bounded bounded
    exact ⟨⟨returned, filled.trans same⟩,
      Or.inl (similar.growth_eq.symm.trans bounded)⟩
  · have full : right.ids.entries.length = idSpace := by omega
    exact ⟨⟨returned, by omega⟩, Or.inr full⟩

/-- Similar states stay similar over one step of each to a common view. -/
theorem step_to
    (similar : Similar left right view)
    {leftCall rightCall : Call} {leftStorage rightStorage : Option Error}
    (leftRefines : StepRefines left view leftCall leftStorage)
    (rightRefines : StepRefines right view rightCall rightStorage)
    (common : view.step leftStorage leftCall =
      view.step rightStorage rightCall) :
    (left.step leftCall).1 = (right.step rightCall).1 ∧
      Similar (left.step leftCall).2 (right.step rightCall).2
        (view.step rightStorage rightCall).2 := by
  have keepsLength
      {objects : ClientObjects} {call : Call} {storage : Option Error}
      {result : ClientIds}
      (stepped : StorageStep objects.ids view.tracker call storage result)
      (bounded : objects.ids.growth = false) :
      result.entries.length = objects.ids.entries.length := by
    obtain ⟨_, stepped⟩ := stepped
    cases storage with
    | some cause => exact stepped.2
    | none =>
        rcases stepped with ⟨same, _⟩ | ⟨_, _, _, _, growable, _⟩
        · exact same
        · rw [bounded] at growable
          cases growable
  refine ⟨?_, ?_, rightRefines.represents, ?_, fun bounded => ?_⟩
  · rw [leftRefines.result_eq, rightRefines.result_eq, common]
  · rw [← common]
    exact leftRefines.represents
  · rw [leftRefines.storageStep.1, rightRefines.storageStep.1,
      similar.growth_eq]
  · rw [leftRefines.storageStep.1] at bounded
    rw [keepsLength leftRefines.storageStep bounded,
      keepsLength rightRefines.storageStep
        (similar.growth_eq.symm.trans bounded),
      similar.bounded bounded]

/-- The storage of the tracker refuses a call on both sides or on neither,
unless one of them runs out of memory. -/
theorem common_step
    (similar : Similar left right view)
    {leftCall rightCall : Call} {leftStorage rightStorage : Option Error}
    (same : leftCall.operation = rightCall.operation)
    (leftRefines : StepRefines left view leftCall leftStorage)
    (rightRefines : StepRefines right view rightCall rightStorage)
    (leftFits : outOfMemory (view.step leftStorage leftCall).1 = false)
    (rightFits : outOfMemory (view.step rightStorage rightCall).1 = false) :
    view.step leftStorage leftCall = view.step rightStorage rightCall := by
  obtain ⟨operation, leftGrants⟩ := leftCall
  obtain ⟨_, rightGrants⟩ := rightCall
  cases same
  rcases view.creation_or_ignores operation with ⟨interface, version, context, rfl⟩ | ignores
  · have leftStep := leftRefines.storageStep.2
    have rightStep := rightRefines.storageStep.2
    cases leftStorage with
    | some leftCause =>
        cases leftCause with
        | exhausted =>
            have ⟨needs, limited⟩ := similar.exhausted leftStep.1
            cases rightStorage with
            | some rightCause =>
                cases rightCause with
                | exhausted => rfl
                | outOfMemory => cases rightFits
                | _ => exact absurd rightStep.1 id
            | none =>
                exact (rightRefines.storageStep.not_full needs limited).elim
        | outOfMemory => cases leftFits
        | _ => exact absurd leftStep.1 id
    | none =>
        cases rightStorage with
        | some rightCause =>
            cases rightCause with
            | exhausted =>
                have ⟨needs, limited⟩ := similar.symm.exhausted rightStep.1
                exact (leftRefines.storageStep.not_full needs limited).elim
            | outOfMemory => cases rightFits
            | _ => exact absurd rightStep.1 id
        | none =>
            exact ClientView.step_congr similar.left_represents.coupled rfl
              (leftFits.trans rightFits.symm)
  · rw [ignores, ignores rightStorage] at *
    exact ClientView.step_congr similar.left_represents.coupled rfl
      (leftFits.trans rightFits.symm)

/-- Calls that run out of memory on both sides or on neither have one result
and lead to similar states. -/
theorem step
    (similar : Similar left right view)
    {leftCall rightCall : Call}
    (same : leftCall.operation = rightCall.operation)
    (alike : outOfMemory (left.step leftCall).1 =
      outOfMemory (right.step rightCall).1) :
    (left.step leftCall).1 = (right.step rightCall).1 ∧
      ∃ next, Similar (left.step leftCall).2 (right.step rightCall).2
        next := by
  obtain ⟨leftStorage, leftRefines⟩ :=
    similar.left_represents.step_refines leftCall
  obtain ⟨rightStorage, rightRefines⟩ :=
    similar.right_represents.step_refines rightCall
  rw [leftRefines.result_eq, rightRefines.result_eq] at alike
  have common : view.step leftStorage leftCall =
      view.step rightStorage rightCall := by
    cases leftFits : outOfMemory (view.step leftStorage leftCall).1 with
    | false =>
        exact similar.common_step same leftRefines rightRefines leftFits
          (alike ▸ leftFits)
    | true =>
        have leftFailed := outOfMemory_eq_true leftFits
        have rightFailed := outOfMemory_eq_true (alike ▸ leftFits)
        apply Prod.ext
        · rw [leftFailed, rightFailed]
        · rw [ClientView.step_error leftFailed,
            ClientView.step_error rightFailed]
  obtain ⟨results, next⟩ := similar.step_to leftRefines rightRefines common
  exact ⟨results, _, next⟩

/-- Runs of one list of operations that run out of memory in the same places
have the same results. -/
theorem run_results
    (similar : Similar left right view)
    {leftCalls rightCalls : List Call}
    (same : leftCalls.map Call.operation = rightCalls.map Call.operation)
    (alike : (left.run leftCalls).1.map outOfMemory =
      (right.run rightCalls).1.map outOfMemory) :
    (left.run leftCalls).1 = (right.run rightCalls).1 := by
  induction leftCalls generalizing left right view rightCalls with
  | nil =>
      cases rightCalls with
      | nil => rfl
      | cons call calls => cases same
  | cons leftCall leftCalls inductionHypothesis =>
      cases rightCalls with
      | nil => cases same
      | cons rightCall rightCalls =>
          rw [List.map_cons, List.map_cons, List.cons.injEq] at same
          simp only [run, List.map_cons, List.cons.injEq] at alike ⊢
          obtain ⟨results, next, nextSimilar⟩ := similar.step same.1 alike.1
          exact ⟨results, inductionHypothesis nextSimilar same.2 alike.2⟩

end Similar

/-! ## Storage that grew earlier -/

/-- Similar states of which the right one may have doubled its entries more
often. -/
structure Ahead (left right : ClientObjects) (view : ClientView) : Prop where
  similar : Similar left right view
  doublings : ∃ count, right.ids.entries.length =
    min (left.ids.entries.length * 2 ^ count) idSpace

namespace Ahead

variable {left right : ClientObjects} {view : ClientView}

/-- The state ahead needs more entries only if the other one does. -/
theorem needsGrowth
    (ahead : Ahead left right view)
    (needs : Tracks.NeedsGrowth right.ids view.tracker) :
    Tracks.NeedsGrowth left.ids view.tracker := by
  obtain ⟨count, doubled⟩ := ahead.doublings
  have fits := ahead.similar.left_represents.tracks.length_le
  have lower := ahead.similar.left_represents.tracks.bound_le
  have next := ahead.similar.left_represents.tracks.length_ge
  have grows : left.ids.entries.length ≤
      left.ids.entries.length * 2 ^ count :=
    Nat.le_mul_of_pos_right _ (Nat.two_pow_pos count)
  obtain ⟨returned, filled⟩ := needs
  exact ⟨returned, by omega⟩

/-- The state ahead runs out of memory only where the other one does. -/
theorem fits
    (ahead : Ahead left right view)
    {call : Call} {leftStorage rightStorage : Option Error}
    (leftRefines : StepRefines left view call leftStorage)
    (rightRefines : StepRefines right view call rightStorage)
    (leftFits : outOfMemory (view.step leftStorage call).1 = false) :
    outOfMemory (view.step rightStorage call).1 = false := by
  obtain ⟨operation, grants⟩ := call
  rcases view.creation_or_ignores operation with
    ⟨interface, version, context, rfl⟩ | ignores
  · have leftStep := leftRefines.storageStep.2
    have rightStep := rightRefines.storageStep.2
    cases rightStorage with
    | none =>
        cases leftStorage with
        | none => exact leftFits
        | some leftCause =>
            cases leftCause with
            | exhausted =>
                have ⟨needs, limited⟩ := ahead.similar.exhausted leftStep.1
                exact (rightRefines.storageStep.not_full needs limited).elim
            | outOfMemory => cases leftFits
            | _ => exact absurd leftStep.1 id
    | some rightCause =>
        cases rightCause with
        | exhausted => rfl
        | outOfMemory =>
            obtain ⟨⟨needs, growable, narrow, denied⟩, _⟩ := rightStep
            cases leftStorage with
            | none =>
                rcases leftStep with ⟨_, roomy⟩ | ⟨_, _, granted, _⟩
                · exact absurd (ahead.needsGrowth needs) (roomy _ _ _ rfl)
                · exact absurd (granted.symm.trans denied) (by simp)
            | some leftCause =>
                cases leftCause with
                | exhausted =>
                    have ⟨_, limited⟩ := ahead.similar.exhausted leftStep.1
                    rcases limited with bounded | widest
                    · rw [growable] at bounded
                      cases bounded
                    · omega
                | outOfMemory => cases leftFits
                | _ => exact absurd leftStep.1 id
        | _ => exact absurd rightStep.1 id
  · rw [ignores] at leftFits ⊢
    exact leftFits

/-- Capping a length before or after further doublings is the same. -/
theorem capped_mul
    {length limit factor : Nat}
    (positive : 0 < factor) :
    min (min length limit * factor) limit = min (length * factor) limit := by
  rcases Nat.le_total length limit with inside | outside
  · rw [Nat.min_eq_left inside]
  · have capped : limit ≤ limit * factor :=
      Nat.le_mul_of_pos_right limit positive
    have longer : limit * factor ≤ length * factor :=
      Nat.mul_le_mul_right factor outside
    rw [Nat.min_eq_right outside, Nat.min_eq_right capped,
      Nat.min_eq_right (Nat.le_trans capped longer)]

/-- Whichever side grows, the right length stays a capped doubling. -/
theorem doublings_step
    (ahead : Ahead left right view)
    {call : Call} {leftStorage rightStorage : Option Error}
    (leftRefines : StepRefines left view call leftStorage)
    (rightRefines : StepRefines right view call rightStorage)
    (rightFits : outOfMemory (view.step rightStorage call).1 = false) :
    ∃ count, (right.step call).2.ids.entries.length =
      min ((left.step call).2.ids.entries.length * 2 ^ count) idSpace := by
  obtain ⟨count, doubled⟩ := ahead.doublings
  have rightLength : (right.step call).2.ids.entries.length =
        right.ids.entries.length ∨
      (right.step call).2.ids.entries.length =
        min (right.ids.entries.length * 2) idSpace := by
    have rightStep := rightRefines.storageStep.2
    cases rightStorage with
    | some cause => exact Or.inl rightStep.2
    | none =>
        rcases rightStep with ⟨same, _⟩ | ⟨_, _, _, _, _, grown⟩
        · exact Or.inl same
        · exact Or.inr grown
  have leftStep := leftRefines.storageStep.2
  have leftLength : (left.step call).2.ids.entries.length =
        left.ids.entries.length ∨
      leftStorage = none ∧
        (∃ interface version context,
          call.operation = .createLocal interface version context) ∧
        Tracks.NeedsGrowth left.ids view.tracker ∧
        (left.step call).2.ids.entries.length =
          min (left.ids.entries.length * 2) idSpace := by
    cases leftStorage with
    | some cause => exact Or.inl leftStep.2
    | none =>
        rcases leftStep with ⟨same, _⟩ | ⟨creation, needs, _, _, _, grown⟩
        · exact Or.inl same
        · exact Or.inr ⟨rfl, creation, needs, grown⟩
  have regrown : min (right.ids.entries.length * 2) idSpace =
      min (left.ids.entries.length * 2 ^ (count + 1)) idSpace := by
    rw [doubled, capped_mul Nat.two_pos, Nat.pow_succ, Nat.mul_assoc]
  rcases leftLength with leftSame | ⟨rfl, creation, needs, leftGrown⟩
  · rw [leftSame]
    rcases rightLength with rightSame | rightGrown
    · exact ⟨count, by rw [rightSame, doubled]⟩
    · exact ⟨count + 1, by rw [rightGrown, regrown]⟩
  · rw [leftGrown]
    rcases rightLength with rightSame | rightGrown
    · cases count with
      | succ count =>
          refine ⟨count, ?_⟩
          rw [rightSame, doubled, capped_mul (Nat.two_pow_pos count),
            Nat.mul_assoc, Nat.pow_succ']
      | zero =>
          obtain ⟨operation, grants⟩ := call
          obtain ⟨interface, version, context, rfl⟩ := creation
          have leftFull := ahead.similar.left_represents.tracks.length_le
          have sameNeeds : Tracks.NeedsGrowth right.ids view.tracker :=
            ⟨needs.1, by rw [needs.2, doubled]; omega⟩
          have rightStep := rightRefines.storageStep.2
          cases rightStorage with
          | some cause =>
              cases cause with
              | exhausted =>
                  have ⟨leftNeeds, limited⟩ :=
                    ahead.similar.symm.exhausted rightStep.1
                  exact (leftRefines.storageStep.not_full leftNeeds
                    limited).elim
              | outOfMemory => cases rightFits
              | _ => exact absurd rightStep.1 id
          | none =>
              rcases rightStep with ⟨_, roomy⟩ | ⟨_, _, _, narrow, _, grown⟩
              · exact absurd sameNeeds (roomy _ _ _ rfl)
              · have positive :=
                  ahead.similar.right_represents.tracks.length_pos
                omega
    · refine ⟨count, ?_⟩
      rw [rightGrown, regrown, capped_mul (Nat.two_pow_pos count),
        Nat.mul_assoc, Nat.pow_succ']

/-- One call with the same answers keeps the right state ahead. -/
theorem step
    (ahead : Ahead left right view)
    {call : Call}
    (leftFits : outOfMemory (left.step call).1 = false) :
    (left.step call).1 = (right.step call).1 ∧
      ∃ next, Ahead (left.step call).2 (right.step call).2 next := by
  obtain ⟨leftStorage, leftRefines⟩ :=
    ahead.similar.left_represents.step_refines call
  obtain ⟨rightStorage, rightRefines⟩ :=
    ahead.similar.right_represents.step_refines call
  rw [leftRefines.result_eq] at leftFits
  have rightFits := ahead.fits leftRefines rightRefines leftFits
  have common := ahead.similar.common_step rfl leftRefines rightRefines
    leftFits rightFits
  obtain ⟨results, similar⟩ :=
    ahead.similar.step_to leftRefines rightRefines common
  exact ⟨results, _, similar,
    ahead.doublings_step leftRefines rightRefines rightFits⟩

/-- Runs of one list of calls with the same answers have the same results, if
the run with less storage never runs out of memory. -/
theorem run_results
    (ahead : Ahead left right view)
    {calls : List Call}
    (leftFits : ∀ result ∈ (left.run calls).1, outOfMemory result = false) :
    (left.run calls).1 = (right.run calls).1 := by
  induction calls generalizing left right view with
  | nil => rfl
  | cons call calls inductionHypothesis =>
      simp only [run, List.mem_cons, forall_eq_or_imp] at leftFits
      simp only [run, List.cons.injEq]
      obtain ⟨results, next, nextAhead⟩ := ahead.step leftFits.1
      exact ⟨results, inductionHypothesis nextAhead leftFits.2⟩

end Ahead

/-! ## Reachable states -/

/-- The initial objects show only the display object. -/
theorem represents_display
    {objectNamespace result : Namespace} {handle : Handle}
    {interface : Interface} {context : Option Nat} {granted : Bool}
    {ids : ClientIds}
    (wellFormed : objectNamespace.table.WellFormed)
    (empty : ∀ id, objectNamespace.table.get id = none)
    (tracks : Tracks ids IdTracker.initial)
    (inserted : objectNamespace.insert displayId interface 1 context granted =
      .ok (handle, result)) :
    Represents { objectNamespace := result, ids }
      { objectNamespace := result, tracker := IdTracker.initial } := by
  obtain ⟨resultWellFormed, _, _, get⟩ :=
    Namespace.insert_spec wellFormed inserted
  refine ⟨rfl, tracks, resultWellFormed, IdTracker.Consistent.initial,
    fun index _ => ?_, fun {id object} stored destroyed => ?_⟩
  · rw [get, if_neg (by simp [displayId]), empty]
    rfl
  · rw [get] at stored
    split at stored
    · cases Option.some.inj stored
      cases destroyed
    · rw [empty] at stored
      cases stored

/-- The last step of both constructors. -/
theorem represents_created
    {objectNamespace : Namespace} {interface : Interface}
    {context : Option Nat} {ids : ClientIds} {objects : ClientObjects}
    (wellFormed : objectNamespace.table.WellFormed)
    (empty : ∀ id, objectNamespace.table.get id = none)
    (tracks : Tracks ids IdTracker.initial)
    (result : (do
        let (_, objectNamespace) ←
          objectNamespace.insert displayId interface 1 context false
        .ok { objectNamespace, ids } : Except Error ClientObjects) =
      .ok objects) :
    Represents objects
      { objectNamespace := objects.objectNamespace
        tracker := IdTracker.initial } := by
  cases inserted : objectNamespace.insert displayId interface 1 context
      false with
  | error cause =>
      rw [inserted] at result
      cases result
  | ok pair =>
      rw [inserted] at result
      cases result
      exact represents_display wellFormed empty tracks inserted

/-- Both ways to create the client objects. -/
inductive Created : ClientObjects → Prop
  | bounded
      {maxObjects maxClientIds : Nat} {interface : Interface}
      {context : Option Nat} {grants : Grants} {objects : ClientObjects}
      (result : init maxObjects maxClientIds interface context grants =
        .ok objects) :
      Created objects
  | growable
      {initialObjects initialClientIds : Nat} {interface : Interface}
      {context : Option Nat} {grants : Grants} {objects : ClientObjects}
      (result : initGrowable initialObjects initialClientIds interface context
        grants = .ok objects) :
      Created objects

/-- New objects are represented by the first view. -/
theorem Created.represents
    {objects : ClientObjects}
    (created : Created objects) :
    Represents objects
      { objectNamespace := objects.objectNamespace
        tracker := IdTracker.initial } := by
  cases created with
  | @bounded maxObjects maxClientIds interface context grants _ result =>
      unfold init at result
      cases table : Namespace.init maxObjects grants.table with
      | error cause => rw [table] at result; cases result
      | ok objectNamespace =>
          cases entries : ClientIds.init maxClientIds grants.ids with
          | error cause => rw [table, entries] at result; cases result
          | ok ids =>
              rw [table, entries] at result
              obtain ⟨wellFormed, empty⟩ := Namespace.init_spec table
              exact represents_created wellFormed empty
                (Tracks.of_init entries) result
  | @growable initialObjects initialClientIds interface context grants _
      result =>
      unfold initGrowable at result
      cases table : Namespace.initGrowable initialObjects grants.table with
      | error cause => rw [table] at result; cases result
      | ok objectNamespace =>
          cases entries : ClientIds.initGrowable initialClientIds grants.ids with
          | error cause => rw [table, entries] at result; cases result
          | ok ids =>
              rw [table, entries] at result
              obtain ⟨wellFormed, empty⟩ := Namespace.initGrowable_spec table
              exact represents_created wellFormed empty
                (Tracks.of_initGrowable entries) result

/-- The IDs of a list of results, first result first. -/
theorem mem_handedOut_cons
    {id : Nat} {result : Except Error Reply}
    {results : List (Except Error Reply)} :
    id ∈ handedOut (result :: results) ↔
      (∃ handle, result = .ok (.local handle) ∧ handle.id = id) ∨
        id ∈ handedOut results := by
  rcases result with cause | reply
  · simp [handedOut]
  · cases reply <;> simp [handedOut, eq_comm]

end ClientObjects

namespace ClientView

variable {view : ClientView}

/-- Calls other than creations hand out nothing. -/
theorem step_other
    (storage : Option Error)
    {call : Call}
    (other : ∀ interface version context,
      call.operation ≠ .createLocal interface version context) :
    (∀ handle, (view.step storage call).1 ≠ .ok (.local handle)) ∧
      (view.step storage call).2.tracker.bound = view.tracker.bound := by
  have object_ne (result : Except Error Object) (handle : Handle) :
      result.map Reply.object ≠ .ok (.local handle) := by
    cases result <;> simp [Except.map]
  obtain ⟨operation, grants⟩ := call
  cases operation with
  | createLocal interface version context => exact absurd rfl (other _ _ _)
  | cancelLocal handle =>
      refine ⟨object_ne _, ?_⟩
      simp only [step, cancelLocal]
      split_ifs
      · rfl
      · split
        · rfl
        · split_ifs
          · rfl
          · split <;> rfl
  | retireLocal handle =>
      refine ⟨object_ne _, ?_⟩
      simp only [step, retireLocal]
      split_ifs
      · rfl
      · split
        · rfl
        · split_ifs <;> rfl
  | deleted id =>
      refine ⟨fun handle => ?_, ?_⟩
      · simp only [step]
        cases (view.deleted id).1 <;> simp [Except.map]
      · simp only [step, deleted]
        split
        · rfl
        · split
          · rfl
          · split_ifs
            · rfl
            · split <;> rfl
  | insertPeer id interface version context =>
      refine ⟨fun handle => ?_, ?_⟩
      · simp only [step]
        cases (view.insertPeer id interface version context
          grants.table).1 <;> simp [Except.map]
      · simp only [step, insertPeer]
        split_ifs
        · rfl
        · split <;> rfl
  | removePeer handle =>
      refine ⟨object_ne _, ?_⟩
      simp only [step, removePeer]
      split_ifs
      · rfl
      · split <;> rfl

/-- One call hands out the ID at the bound, or one handed out before. -/
theorem step_handedOut
    (coupled : view.Coupled)
    (storage : Option Error)
    (call : Call)
    (id : Nat) :
    ((∃ handle, (view.step storage call).1 = .ok (.local handle) ∧
          handle.id = id) ∨
        2 ≤ id ∧ id < view.tracker.bound + 2) ↔
      2 ≤ id ∧ id < (view.step storage call).2.tracker.bound + 2 := by
  by_cases creation : ∃ interface version context,
      call.operation = .createLocal interface version context
  · obtain ⟨operation, grants⟩ := call
    obtain ⟨interface, version, context, rfl⟩ := creation
    simp only [step, createLocal]
    cases storage with
    | some cause => simp [Except.map]
    | none =>
        cases inserted : view.objectNamespace.insert
            (view.tracker.upcoming + 2) interface version context
            grants.table with
        | error cause => simp [Except.map]
        | ok pair =>
            obtain ⟨handle, objectNamespace⟩ := pair
            obtain ⟨_, handleId, _⟩ :=
              Namespace.insert_spec coupled.wellFormed inserted
            have returnedId : (∃ other, (Except.ok handle).map
                  (Reply.local) = (.ok (.local other) : Except Error Reply) ∧
                  other.id = id) ↔
                id = view.tracker.upcoming + 2 := by
              simp [Except.map, handleId, eq_comm]
            rw [returnedId]
            cases returned : view.tracker.returned with
            | nil =>
                simp only [IdTracker.acquire, IdTracker.upcoming, returned,
                  List.head?_nil, Option.getD_none, if_true]
                omega
            | cons index rest =>
                have below := ((coupled.consistent.returned_iff index).mp
                  (by simp [returned])).1
                simp only [IdTracker.acquire, IdTracker.upcoming, returned,
                  List.head?_cons, Option.getD_some, reduceCtorEq, if_false]
                omega
  · push Not at creation
    obtain ⟨nothing, bound⟩ := view.step_other storage creation
    simp [nothing, bound]

end ClientView

namespace ClientObjects

/-- Runs keep the refinement, and hand out exactly the IDs below a bound. -/
theorem run_represents
    {objects : ClientObjects} {view : ClientView}
    (represents : Represents objects view)
    (calls : List Call) :
    ∃ next, Represents (objects.run calls).2 next ∧
      ∀ id, (id ∈ handedOut (objects.run calls).1 ∨
          2 ≤ id ∧ id < view.tracker.bound + 2) ↔
        2 ≤ id ∧ id < next.tracker.bound + 2 := by
  induction calls generalizing objects view with
  | nil => exact ⟨view, represents, fun id => by simp [run, handedOut]⟩
  | cons call calls inductionHypothesis =>
      obtain ⟨storage, refines⟩ := represents.step_refines call
      obtain ⟨next, reached, bounds⟩ :=
        inductionHypothesis refines.represents
      refine ⟨next, reached, fun id => ?_⟩
      have handed := ClientView.step_handedOut represents.coupled storage call id
      rw [← bounds id, ← handed, ← refines.result_eq]
      simp only [run, mem_handedOut_cons, or_assoc]
      exact or_left_comm

/-- What the coupling says about one ID of the client range. -/
theorem Represents.status_iff
    {objects : ClientObjects} {view : ClientView}
    (represents : Represents objects view)
    {id : Nat}
    (lower : 2 ≤ id) (upper : id < serverIdStart) :
    (Live objects id ↔ objects.ids.status id = .active) ∧
      (Tombstone objects id ↔ objects.ids.status id = .awaitingDelete) ∧
      (Absent objects id ↔ objects.ids.status id = .free ∨
        objects.ids.status id = .neverUsed) := by
  have space : id - 2 < idSpace := by
    unfold idSpace
    omega
  have status := represents.tracks.status_eq space
  have flags := represents.coupled.flag_eq (id - 2) space
  rw [Nat.sub_add_cancel lower] at status flags
  rw [represents.objectNamespace_eq] at flags
  rw [status]
  unfold Live Tombstone Absent
  cases standing : view.tracker.standing (id - 2) with
  | none =>
      rw [standing, Option.map_none, Option.map_eq_none_iff] at flags
      rw [flags]
      split_ifs <;> simp
  | some state =>
      rw [standing, Option.map_some, Option.map_eq_some_iff] at flags
      obtain ⟨object, stored, destroyed⟩ := flags
      rw [stored]
      cases state <;> simp [destroyed, Standing.destroyed]

/-- A failed call leaves a state that shows the same view. -/
theorem Represents.ahead_of_error
    {objects : ClientObjects} {view : ClientView}
    (represents : Represents objects view)
    {call : Call} {cause : Error}
    (failed : (objects.step call).1 = .error cause) :
    Ahead objects (objects.step call).2 view := by
  obtain ⟨storage, refines⟩ := represents.step_refines call
  rw [refines.result_eq] at failed
  have unchanged := ClientView.step_error failed
  have after := refines.represents
  rw [unchanged] at after
  obtain ⟨growth, stepped⟩ := refines.storageStep
  have lengths : (objects.step call).2.ids.entries.length =
        objects.ids.entries.length ∨
      objects.ids.growth = true ∧ (objects.step call).2.ids.entries.length =
        min (objects.ids.entries.length * 2) idSpace := by
    cases storage with
    | some storageCause => exact Or.inl stepped.2
    | none =>
        rcases stepped with ⟨same, _⟩ | ⟨_, _, _, _, growable, grown⟩
        · exact Or.inl same
        · exact Or.inr ⟨growable, grown⟩
  refine ⟨⟨represents, after, growth.symm, fun bounded => ?_⟩, ?_⟩
  · rcases lengths with same | ⟨growable, _⟩
    · exact same.symm
    · rw [bounded] at growable
      cases growable
  · have fits := represents.tracks.length_le
    rcases lengths with same | ⟨_, grown⟩
    · exact ⟨0, by rw [same]; omega⟩
    · exact ⟨1, by rw [grown, Nat.pow_one]⟩

/-- A failed call changes no object of the namespace. -/
theorem Represents.get_of_error
    {objects : ClientObjects} {view : ClientView}
    (represents : Represents objects view)
    {call : Call} {cause : Error}
    (failed : (objects.step call).1 = .error cause) :
    (objects.step call).2.objectNamespace = objects.objectNamespace := by
  have ahead := represents.ahead_of_error failed
  rw [← represents.objectNamespace_eq,
    ← ahead.similar.right_represents.objectNamespace_eq]

/-- Taking an ID returns one that is not in use, below the bound or at it. -/
theorem Represents.acquire_unused
    {objects : ClientObjects} {view : ClientView}
    (represents : Represents objects view)
    {granted : Bool} {id : Nat} {ids : ClientIds}
    (taken : objects.ids.acquire granted = .ok (id, ids)) :
    objects.ids.status id ≠ .active ∧
      objects.ids.status id ≠ .awaitingDelete ∧
      2 ≤ id ∧ id ≤ view.tracker.bound + 2 := by
  rcases represents.tracks.acquire_spec granted with
    ⟨result, acquired, tracks, _⟩ | ⟨cause, failed, _⟩
  · rw [acquired] at taken
    cases taken
    have used : view.tracker.acquire.standing view.tracker.upcoming ≠ none := by
      simp
    have space := tracks.lt_idSpace (tracks.usedIndex_of_standing used).2
    have below := tracks.consistent.standing_lt used
    have bound : view.tracker.acquire.bound ≤ view.tracker.bound + 1 := by
      simp only [IdTracker.acquire]
      split <;> omega
    rw [represents.tracks.status_eq space,
      represents.tracks.consistent.standing_upcoming]
    refine ⟨?_, ?_, by omega, by omega⟩ <;> split_ifs <;> simp
  · rw [failed] at taken
    cases taken

/-! ## The coupling theorem -/

/-- After any calls on client objects of either kind, with any answers of the
allocator: the namespace and the tracker agree on every client ID; taking an
ID returns one that is not in use; the IDs handed out so far are all those
from two up to a bound; and a call that fails changes no object and cannot be
told from a call never made by later operations that run out of memory in the
same places, in particular by any that would not run out of memory at all. -/
theorem client_objects_coupling
    {initial : ClientObjects}
    (created : Created initial)
    (history : List Call) :
    let objects := (initial.run history).2
    (∀ id, 2 ≤ id → id < serverIdStart →
      (Live objects id ↔ objects.ids.status id = .active) ∧
      (Tombstone objects id ↔ objects.ids.status id = .awaitingDelete) ∧
      (Absent objects id ↔ objects.ids.status id = .free ∨
        objects.ids.status id = .neverUsed)) ∧
    (∃ bound,
      (∀ id, id ∈ handedOut (initial.run history).1 ↔ 2 ≤ id ∧ id < bound) ∧
      ∀ granted id ids, objects.ids.acquire granted = .ok (id, ids) →
        objects.ids.status id ≠ .active ∧
        objects.ids.status id ≠ .awaitingDelete ∧
        2 ≤ id ∧ id ≤ bound) ∧
    ∀ call cause, (objects.step call).1 = .error cause →
      (objects.step call).2.objectNamespace = objects.objectNamespace ∧
      (∀ later alone : List Call,
        later.map Call.operation = alone.map Call.operation →
        ((objects.step call).2.run later).1.map outOfMemory =
          (objects.run alone).1.map outOfMemory →
        ((objects.step call).2.run later).1 = (objects.run alone).1) ∧
      ∀ later : List Call,
        (∀ result ∈ (objects.run later).1, outOfMemory result = false) →
        ((objects.step call).2.run later).1 = (objects.run later).1 := by
  intro objects
  obtain ⟨view, represents, bounds⟩ :=
    run_represents created.represents history
  refine ⟨fun id lower upper => represents.status_iff lower upper,
    ⟨view.tracker.bound + 2, fun id => ?_,
      fun granted id ids taken => represents.acquire_unused taken⟩,
    fun call cause failed => ?_⟩
  · rw [← bounds id]
    simp [IdTracker.initial]
    omega
  · have ahead := represents.ahead_of_error failed
    refine ⟨represents.get_of_error failed, fun later alone same alike => ?_,
      fun later fits => ?_⟩
    · exact ahead.similar.symm.run_results same alike
    · exact (ahead.run_results fits).symm

/-! ### Two sample clients -/

/-- A display interface without messages. -/
def sampleInterface : Interface where
  name := "wl_display"
  version := 1
  requests := []
  events := []

/-- Creation of one object, with the allocator's answers. -/
def sampleCreation (ids table : Bool) : Call :=
  { operation := .createLocal sampleInterface 1 none
    grants := { ids, table } }

/-- A growable client with room for two objects and one ID, the display in its
place. -/
def sampleGrowable : ClientObjects where
  objectNamespace :=
    { table :=
        { slots := [none, none, some
            { id := 1, generation := 1
              value := { interface := sampleInterface, version := 1 } },
            none]
          maxEntries := 2
          count := 1
          nextGeneration := 2
          growth := true } }
  ids := { entries := [ClientIds.neverUsed], growth := true }

theorem sampleGrowable_created : Created sampleGrowable :=
  .growable (show initGrowable 2 1 sampleInterface none
    { ids := true, table := true } = .ok sampleGrowable by rfl)

/-- The client destroys its first object, which the server has not deleted yet. -/
def sampleRetired : List Call :=
  [sampleCreation true true,
    { operation := .retireLocal { id := 2, generation := 2 }
      grants := { ids := true, table := true } }]

/-- The server deletes it, and the client creates another one. -/
def sampleReuse : List Call :=
  [{ operation := .deleted 2, grants := { ids := true, table := true } },
    sampleCreation true true]

/-- The ID of a destroyed object is a tombstone until `delete_id` comes, and not
handed out.  A creation for which there is no memory changes nothing, and what
comes later gives the same results as without it. -/
theorem client_objects_coupling_sampleGrowable :
    let objects := (sampleGrowable.run sampleRetired).2
    let failed := objects.step (sampleCreation false true)
    Tombstone objects 2 ∧
      (∀ granted id ids, objects.ids.acquire granted = .ok (id, ids) →
        objects.ids.status id ≠ .awaitingDelete) ∧
      Live (sampleGrowable.run (sampleRetired ++ sampleReuse)).2 2 ∧
      failed.1 = .error .outOfMemory ∧
      failed.2.objectNamespace = objects.objectNamespace ∧
      (failed.2.run sampleReuse).1 = (objects.run sampleReuse).1 ∧
      handedOut (objects.run sampleReuse).1 = [2] := by
  intro objects failed
  obtain ⟨agrees, ⟨_, _, unused⟩, fails⟩ :=
    client_objects_coupling sampleGrowable_created sampleRetired
  obtain ⟨reused, _, _⟩ := client_objects_coupling sampleGrowable_created
    (sampleRetired ++ sampleReuse)
  obtain ⟨same, _, alike⟩ := fails (sampleCreation false true) .outOfMemory rfl
  exact ⟨(agrees 2 (by decide) (by decide)).2.1.mpr (by decide +kernel),
    fun granted id ids taken => (unused granted id ids taken).2.1,
    (reused 2 (by decide) (by decide)).1.mpr (by decide +kernel), rfl, same,
    alike sampleReuse (by decide +kernel), by decide +kernel⟩

/-- A creation that fails in the namespace after its ID grew the tracker's
storage leaves an ID free.  The same two later creations, the first of which
gets no memory for IDs, then hand out different IDs than without it. -/
theorem failed_creation_shifts_ids :
    let objects := (sampleGrowable.run [sampleCreation true true]).2
    let later := [sampleCreation false true, sampleCreation true true]
    Created sampleGrowable ∧
      (objects.step (sampleCreation true false)).1 = .error .outOfMemory ∧
      handedOut ((objects.step (sampleCreation true false)).2.run later).1 =
        [3, 4] ∧
      handedOut (objects.run later).1 = [3] := by
  refine ⟨sampleGrowable_created, rfl, ?_, ?_⟩ <;> decide +kernel

end ClientObjects
end Wayring
