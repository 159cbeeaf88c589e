import Mathlib.Data.List.Perm.Basic
import Mathlib.Data.List.Nodup

/-!
# Cascading removals

A store of entries that tells a hook about each removal.  The hook may look
entries up and remove further ones, which tells it again before the removal
returns.  Over any store that gives up one entry at a time, every entry is
told at most once, and the store holds exactly the untold ones whenever the
hook is entered.
-/

namespace Cascade

variable {State Query Call Key Value : Type}

/-- What a hook does once it is called: lookups and removals.  `nested` is
what it does when it is called for the entry that a removal took. -/
inductive Script (Query Call : Type)
  | done
  | look (query : Query) (rest : Script Query Call)
  | remove (call : Call) (nested rest : Script Query Call)

/-- A store as its hook can use it.  A lookup may write to a cache; a refused
removal does nothing. -/
structure Registry (State Query Call Key Value : Type) where
  look : State → Query → State
  remove : State → Call → Option (Key × Value × State)

/-- One call of the hook, with the store as the hook found it. -/
structure Notice (State Key Value : Type) where
  key : Key
  value : Value
  state : State

/-- The entry that a notice is about. -/
def Notice.entry (notice : Notice State Key Value) : Key × Value :=
  (notice.key, notice.value)

/-- A hook decides what to do from all calls so far, the present one last. -/
abbrev Hook (State Query Call Key Value : Type) :=
  List (Notice State Key Value) → Script Query Call

namespace Registry

/-- Carry out what a hook does. -/
def perform
    (registry : Registry State Query Call Key Value) :
    Script Query Call → List (Notice State Key Value) → State →
      List (Notice State Key Value) × State
  | .done, notices, state => (notices, state)
  | .look query rest, notices, state =>
      registry.perform rest notices (registry.look state query)
  | .remove call nested rest, notices, state =>
      match registry.remove state call with
      | none => registry.perform rest notices state
      | some (key, value, state) =>
          let (notices, state) := registry.perform nested
            (notices ++ [⟨key, value, state⟩]) state
          registry.perform rest notices state

/-- Tell the hook about an entry that was just removed. -/
def notify
    (registry : Registry State Query Call Key Value)
    (hook : Hook State Query Call Key Value)
    (notices : List (Notice State Key Value))
    (key : Key)
    (value : Value)
    (state : State) : List (Notice State Key Value) × State :=
  let notices := notices ++ [⟨key, value, state⟩]
  registry.perform (hook notices) notices state

/-- Calls of the hook are only added. -/
theorem perform_notices
    (registry : Registry State Query Call Key Value)
    (script : Script Query Call)
    (notices : List (Notice State Key Value))
    (state : State) :
    ∃ later, (registry.perform script notices state).1 = notices ++ later := by
  induction script generalizing notices state with
  | done => exact ⟨[], (List.append_nil _).symm⟩
  | look query rest restHypothesis => exact restHypothesis notices _
  | remove call nested rest nestedHypothesis restHypothesis =>
      unfold Registry.perform
      cases registry.remove state call with
      | none => exact restHypothesis notices state
      | some outcome =>
          obtain ⟨key, value, next⟩ := outcome
          obtain ⟨inner, innerEq⟩ :=
            nestedHypothesis (notices ++ [⟨key, value, next⟩]) next
          obtain ⟨outer, outerEq⟩ := restHypothesis
            (registry.perform nested (notices ++ [⟨key, value, next⟩]) next).1
            (registry.perform nested (notices ++ [⟨key, value, next⟩]) next).2
          refine ⟨⟨key, value, next⟩ :: inner ++ outer, outerEq.trans ?_⟩
          rw [innerEq, List.append_assoc, List.append_assoc]
          rfl

/-- A property that no lookup and no removal breaks. -/
structure Keeps
    (registry : Registry State Query Call Key Value)
    (kept : State → Prop) : Prop where
  look : ∀ {state}, kept state → ∀ query, kept (registry.look state query)
  remove : ∀ {state call key value next}, kept state →
    registry.remove state call = some (key, value, next) → kept next

variable {registry : Registry State Query Call Key Value}

/-- What each call keeps, a script of calls keeps. -/
theorem Keeps.perform
    {kept : State → Prop}
    (keeps : registry.Keeps kept)
    (script : Script Query Call)
    {notices : List (Notice State Key Value)} {state : State}
    (start : kept state) : kept (registry.perform script notices state).2 := by
  induction script generalizing notices state with
  | done => exact start
  | look query rest restHypothesis =>
      exact restHypothesis (keeps.look start query)
  | remove call nested rest nestedHypothesis restHypothesis =>
      unfold Registry.perform
      cases removed : registry.remove state call with
      | none => exact restHypothesis start
      | some outcome =>
          obtain ⟨key, value, next⟩ := outcome
          exact restHypothesis (nestedHypothesis (keeps.remove start removed))

/-- What each call keeps, a hook keeps. -/
theorem Keeps.notify
    {kept : State → Prop}
    (keeps : registry.Keeps kept)
    (hook : Hook State Query Call Key Value)
    {notices : List (Notice State Key Value)}
    {key : Key} {value : Value} {state : State}
    (start : kept state) :
    kept (registry.notify hook notices key value state).2 :=
  keeps.perform _ start

/-- A store gives up one entry for each removal. -/
structure Lawful
    (registry : Registry State Query Call Key Value)
    (Holds : State → List (Key × Value) → Prop) : Prop where
  look : ∀ {state live}, Holds state live → ∀ query,
    Holds (registry.look state query) live
  remove : ∀ {state live call key value next}, Holds state live →
    registry.remove state call = some (key, value, next) →
      ∃ rest, live.Perm ((key, value) :: rest) ∧ Holds next rest

end Registry

/-- Every entry was told once or is still in the store.  Whenever the hook was
called, the store had just the entries not yet told. -/
structure Told
    (Holds : State → List (Key × Value) → Prop)
    (initial : List (Key × Value))
    (notices : List (Notice State Key Value))
    (state : State)
    (live : List (Key × Value)) : Prop where
  holds : Holds state live
  whole : initial.Perm (notices.map Notice.entry ++ live)
  seen : ∀ {earlier notice later}, notices = earlier ++ notice :: later →
    ∃ rest, Holds notice.state rest ∧
      initial.Perm (earlier.map Notice.entry ++ notice.entry :: rest)

variable {Holds : State → List (Key × Value) → Prop}
  {initial live : List (Key × Value)}
  {notices : List (Notice State Key Value)} {state : State}

theorem Told.nil
    (holds : Holds state initial) : Told Holds initial [] state initial where
  holds := holds
  whole := List.Perm.refl _
  seen split := absurd split (by simp)

/-- An entry leaves the store and the hook is called for it. -/
theorem Told.tell
    (told : Told Holds initial notices state live)
    {key : Key} {value : Value} {next : State} {rest : List (Key × Value)}
    (taken : live.Perm ((key, value) :: rest))
    (holds : Holds next rest) :
    Told Holds initial (notices ++ [⟨key, value, next⟩]) next
      rest where
  holds := holds
  whole := by
    rw [List.map_append, List.append_assoc]
    exact told.whole.trans (taken.append_left _)
  seen := by
    intro earlier notice later split
    rcases List.append_eq_append_iff.mp split with
      ⟨added, earlierEq, last⟩ | ⟨added, noticesEq, last⟩
    · cases added with
      | nil =>
          rw [List.nil_append, List.cons.injEq] at last
          obtain ⟨same, -⟩ := last
          subst same
          rw [List.append_nil] at earlierEq
          subst earlierEq
          exact ⟨rest, holds, told.whole.trans (taken.append_left _)⟩
      | cons first added =>
          have lengths := congrArg List.length last
          simp only [List.length_cons, List.length_nil, List.length_append]
            at lengths
          omega
    · cases added with
      | nil =>
          rw [List.nil_append, List.cons.injEq] at last
          obtain ⟨same, -⟩ := last
          subst same
          rw [List.append_nil] at noticesEq
          subst noticesEq
          exact ⟨rest, holds, told.whole.trans (taken.append_left _)⟩
      | cons first added =>
          rw [List.cons_append, List.cons.injEq] at last
          obtain ⟨same, -⟩ := last
          subst same
          exact told.seen noticesEq

/-- Whatever the hook does, each entry is told once or stays. -/
theorem Told.perform
    {registry : Registry State Query Call Key Value}
    (lawful : registry.Lawful Holds)
    (script : Script Query Call)
    (told : Told Holds initial notices state live) :
    ∃ rest, Told Holds initial (registry.perform script notices state).1
      (registry.perform script notices state).2 rest := by
  induction script generalizing notices state live with
  | done => exact ⟨live, told⟩
  | look query rest restHypothesis =>
      exact restHypothesis
        { told with holds := lawful.look told.holds query }
  | remove call nested rest nestedHypothesis restHypothesis =>
      unfold Registry.perform
      cases removed : registry.remove state call with
      | none => exact restHypothesis told
      | some outcome =>
          obtain ⟨key, value, next⟩ := outcome
          obtain ⟨remaining, taken, holds⟩ :=
            lawful.remove told.holds removed
          obtain ⟨_, nestedTold⟩ :=
            nestedHypothesis (told.tell taken holds)
          exact restHypothesis nestedTold

/-- An entry is taken out, and the hook called for it. -/
theorem Told.notify
    {registry : Registry State Query Call Key Value}
    (lawful : registry.Lawful Holds)
    (hook : Hook State Query Call Key Value)
    (told : Told Holds initial notices state live)
    {key : Key} {value : Value} {next : State} {rest : List (Key × Value)}
    (taken : live.Perm ((key, value) :: rest))
    (holds : Holds next rest) :
    ∃ rest, Told Holds initial
      (registry.notify hook notices key value next).1
      (registry.notify hook notices key value next).2 rest :=
  (told.tell taken holds).perform lawful _

/-! ## Lookups -/

/-- Lookups of a store find exactly its entries, whose keys are distinct. -/
def Finds
    (find : State → Key → Option Value)
    (state : State)
    (live : List (Key × Value)) : Prop :=
  (live.map Prod.fst).Nodup ∧
    ∀ key value, find state key = some value ↔ (key, value) ∈ live

variable {find : State → Key → Option Value}

/-- The hook finds the entries it was not told of, and no others. -/
theorem Told.find_iff
    (told : Told Holds initial notices state live)
    (finds : ∀ {state live}, Holds state live → Finds find state live)
    {origin : State}
    (began : Finds find origin initial)
    {earlier later : List (Notice State Key Value)}
    {notice : Notice State Key Value}
    (split : notices = earlier ++ notice :: later)
    (key : Key) (value : Value) :
    find notice.state key = some value ↔
      find origin key = some value ∧
        key ∉ (earlier ++ [notice]).map Notice.key := by
  obtain ⟨rest, holds, whole⟩ := told.seen split
  have regrouped : earlier.map Notice.entry ++ notice.entry :: rest =
      (earlier ++ [notice]).map Notice.entry ++ rest := by
    rw [List.map_append, List.append_assoc]
    rfl
  rw [regrouped] at whole
  have distinct := ((whole.map Prod.fst).nodup_iff).mp began.1
  rw [List.map_append, List.nodup_append, List.map_map] at distinct
  obtain ⟨-, -, apart⟩ := distinct
  have keys : Prod.fst ∘ Notice.entry =
      (Notice.key : Notice State Key Value → Key) := rfl
  rw [keys] at apart
  rw [(finds holds).2, began.2, whole.mem_iff, List.mem_append]
  constructor
  · intro present
    refine ⟨Or.inr present, fun toldKey => ?_⟩
    exact apart key toldKey key
      (List.mem_map_of_mem (f := Prod.fst) present) rfl
  · rintro ⟨old | present, untold⟩
    · obtain ⟨other, member, same⟩ := List.mem_map.mp old
      have sameKey : other.key = key := congrArg Prod.fst same
      refine absurd ?_ untold
      rw [← sameKey]
      exact List.mem_map_of_mem (f := Notice.key) member
    · exact present

/-- Taking the entry of a key out of a store. -/
theorem Finds.take
    [DecidableEq Key]
    {next : State} {key : Key} {value : Value}
    (finds : Finds find state live)
    (found : find state key = some value)
    (after : ∀ other, find next other =
      if other = key then none else find state other) :
    ∃ rest, live.Perm ((key, value) :: rest) ∧ Finds find next rest := by
  obtain ⟨front, back, split⟩ :=
    List.append_of_mem ((finds.2 key value).mp found)
  subst split
  have regrouped : (front ++ (key, value) :: back).Perm
      ((key, value) :: (front ++ back)) := List.perm_middle
  have distinct := ((regrouped.map Prod.fst).nodup_iff).mp finds.1
  rw [List.map_cons, List.nodup_cons] at distinct
  refine ⟨front ++ back, regrouped, distinct.2, ?_⟩
  intro other content
  rw [after]
  split_ifs with same
  · subst same
    refine iff_of_false (fun none_found => nomatch none_found) ?_
    intro present
    exact distinct.1 (List.mem_map.mpr ⟨_, present, rfl⟩)
  · rw [finds.2, regrouped.mem_iff, List.mem_cons, or_iff_right]
    intro equal
    exact same (congrArg Prod.fst equal)

/-- The hook was told of every entry once.  Whenever it was called it found
the entries that it was not yet told of, and no others. -/
structure Exhausts
    (find : State → Key → Option Value)
    (origin : State)
    (notices : List (Notice State Key Value)) : Prop where
  once : (notices.map Notice.key).Nodup
  complete : ∀ key value, (key, value) ∈ notices.map Notice.entry ↔
    find origin key = some value
  found : ∀ earlier notice later, notices = earlier ++ notice :: later →
    ∀ key value, find notice.state key = some value ↔
      find origin key = some value ∧
        key ∉ (earlier ++ [notice]).map Notice.key

/-- A store with nothing left has told its hook of everything. -/
theorem Told.exhausts
    {origin : State}
    (told : Told Holds initial notices state live)
    (finds : ∀ {state live}, Holds state live → Finds find state live)
    (began : Finds find origin initial)
    (emptied : ∀ key, find state key = none) :
    Exhausts find origin notices := by
  have nothing : live = [] := by
    apply List.eq_nil_iff_forall_not_mem.mpr
    intro entry present
    have stored := ((finds told.holds).2 entry.1 entry.2).mpr present
    rw [emptied] at stored
    cases stored
  have whole := told.whole
  rw [nothing, List.append_nil] at whole
  have keys : notices.map Notice.key =
      (notices.map Notice.entry).map Prod.fst := by
    rw [List.map_map]
    rfl
  constructor
  · rw [keys]
    exact ((whole.map Prod.fst).nodup_iff).mp began.1
  · intro key value
    rw [began.2, whole.mem_iff]
  · intro earlier notice later split key value
    exact told.find_iff finds began split key value

end Cascade
