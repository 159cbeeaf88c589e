import Mathlib.Data.List.Basic

/-!
# Scans

A scan reads a text and may fail with an error of its own.  It can go wrong in
two other ways, which a correct scan never does: it reads outside its text, or
it does not end.  Both are results here, and `Meets` says that a scan shows
neither and that what it returns satisfies a condition.  The rules below take a
scan apart along its binds and its loops.
-/

namespace Wayring

/-- Why a scan stops without a result. -/
inductive Halt (ε : Type)
  /-- A read outside a text, through an empty option, or a cast that loses
  bits. -/
  | outOfRange
  /-- A loop that is still going when its fuel is spent. -/
  | endless
  | failed (error : ε)
  deriving DecidableEq, Repr

/-- A computation that may fail or leave its bounds. -/
abbrev Scan (ε α : Type) := Except (Halt ε) α

namespace Scan

@[simp] theorem ok_bind
    (value : α)
    (next : α → Scan ε β) :
    (Except.ok value >>= next : Scan ε β) = next value := rfl

/-- A sequence succeeds when both parts do. -/
theorem bind_eq_ok
    {scan : Scan ε α}
    {next : α → Scan ε β}
    {result : β} :
    scan >>= next = .ok result ↔ ∃ value, scan = .ok value ∧ next value = .ok result := by
  cases scan with
  | error halt =>
      constructor
      · intro returned
        cases returned
      · rintro ⟨value, returned, -⟩
        cases returned
  | ok value =>
      constructor
      · exact fun returned => ⟨value, rfl, returned⟩
      · rintro ⟨other, isValue, returned⟩
        rwa [Except.ok.inj isValue]

/-- End with an error. -/
def fail (error : ε) : Scan ε α := .error (.failed error)

/-- Stop with an error where a condition holds. -/
def reject (condition : Bool) (error : ε) : Scan ε Unit :=
  if condition then fail error else pure ()

/-- The value of an option, or an error where it has none. -/
def require (value : Option α) (error : ε) : Scan ε α :=
  match value with
  | some value => pure value
  | none => fail error

/-- The value of an option that must have one. -/
def unwrap (value : Option α) : Scan ε α :=
  match value with
  | some value => pure value
  | none => .error .outOfRange

/-- The element at an index. -/
def read (text : List β) (index : Nat) : Scan ε β := unwrap text[index]?

/-- The part of a text between two indices. -/
def slice (text : List β) (start stop : Nat) : Scan ε (List β) :=
  if start ≤ stop ∧ stop ≤ text.length then pure ((text.take stop).drop start)
  else .error .outOfRange

/-- A number that must not be larger than a bound. -/
def narrow (value bound : Nat) : Scan ε Nat :=
  if value ≤ bound then pure value else .error .outOfRange

/-- Repeat a step that goes on from a new state or ends with a result. -/
def loop (step : σ → Scan ε (σ ⊕ α)) : Nat → σ → Scan ε α
  | 0, _ => .error .endless
  | fuel + 1, state =>
      match step state with
      | .error halt => .error halt
      | .ok (.inl next) => loop step fuel next
      | .ok (.inr result) => .ok result

/-- Move a cursor over the elements that satisfy a condition. -/
def skipWhile
    (text : List β)
    (keep : β → Bool)
    (cursor : Nat) : Scan ε Nat :=
  loop
    (fun cursor =>
      if cursor < text.length then do
        if keep (← read text cursor) then return .inl (cursor + 1)
        else return .inr cursor
      else return .inr cursor)
    (text.length + 1) cursor

/-! ## What a scan meets -/

/-- A scan reads inside its text and ends, and what it returns satisfies a
condition. -/
def Meets (scan : Scan ε α) (post : α → Prop) : Prop :=
  match scan with
  | .ok value => post value
  | .error (.failed _) => True
  | .error _ => False

/-- A scan that reads inside its text and ends. -/
abbrev Safe (scan : Scan ε α) : Prop := Meets scan fun _ => True

namespace Meets

theorem pure
    {value : α}
    {post : α → Prop}
    (holds : post value) :
    Meets (Pure.pure value : Scan ε α) post := holds

/-- A result that was returned meets what holds of every result. -/
theorem of_ok
    {scan : Scan ε α}
    {post : α → Prop}
    (meets : Meets scan post)
    (returned : scan = .ok value) :
    post value := by
  subst returned
  exact meets

/-- A safe computation meets what holds of its results. -/
theorem of_forall
    {scan : Scan ε α}
    {post : α → Prop}
    (safe : Safe scan)
    (holds : ∀ value, scan = .ok value → post value) :
    Meets scan post := by
  cases scan with
  | error halt => cases halt <;> exact safe
  | ok value => exact holds value rfl

/-- What is met can be weakened. -/
theorem mono
    {scan : Scan ε α}
    {post weaker : α → Prop}
    (meets : Meets scan post)
    (weakens : ∀ value, post value → weaker value) :
    Meets scan weaker := by
  cases scan with
  | error halt => cases halt <;> exact meets
  | ok value => exact weakens value meets

/-- What a scan returns is what it returned. -/
theorem returns
    {scan : Scan ε α}
    {post : α → Prop}
    (meets : Meets scan post) :
    Meets scan fun value => scan = .ok value ∧ post value := by
  cases scan with
  | error halt => cases halt <;> exact meets
  | ok value => exact ⟨rfl, meets⟩

/-- A sequence meets what its second part does after the first. -/
theorem bind
    {scan : Scan ε α}
    {next : α → Scan ε β}
    {mid : α → Prop}
    {post : β → Prop}
    (first : Meets scan mid)
    (later : ∀ value, mid value → Meets (next value) post) :
    Meets (scan >>= next) post := by
  cases scan with
  | error halt => cases halt <;> exact first
  | ok value => exact later value first

/-- A branch meets what both sides do. -/
theorem ite
    {condition : Prop}
    [Decidable condition]
    {scan other : Scan ε α}
    {post : α → Prop}
    (first : condition → Meets scan post)
    (second : ¬condition → Meets other post) :
    Meets (if condition then scan else other) post := by
  by_cases holds : condition
  · rw [if_pos holds]
    exact first holds
  · rw [if_neg holds]
    exact second holds

/-- A check that passes was not to reject. -/
theorem reject
    (condition : Bool) :
    Meets (Scan.reject condition error : Scan ε Unit)
      fun _ => condition = false := by
  cases condition with
  | true => exact trivial
  | false => exact rfl

/-- What is required was there. -/
theorem require
    (value : Option α) :
    Meets (Scan.require value error : Scan ε α) fun read => value = some read := by
  cases value with
  | none => exact trivial
  | some read => exact rfl

/-- What is there can be unwrapped. -/
theorem unwrap
    {value : Option α}
    (present : value.isSome = true) :
    Meets (Scan.unwrap value : Scan ε α) fun read => value = some read := by
  cases value with
  | none => cases present
  | some read => exact rfl

theorem read
    {text : List β}
    (inside : index < text.length) :
    Meets (Scan.read text index : Scan ε β)
      fun value => text[index]? = some value :=
  unwrap (by rw [List.getElem?_eq_getElem inside]; rfl)

theorem slice
    {text : List β}
    (ordered : start ≤ stop)
    (inside : stop ≤ text.length) :
    Meets (Scan.slice text start stop : Scan ε (List β))
      fun value => value = (text.take stop).drop start := by
  rw [Scan.slice, if_pos ⟨ordered, inside⟩]
  exact rfl

/-- A number that fits is kept. -/
theorem narrow
    (fits : value ≤ bound) :
    Meets (Scan.narrow value bound : Scan ε Nat) fun result => result = value := by
  rw [Scan.narrow, if_pos fits]
  exact rfl

/-- A loop whose step keeps an invariant and lowers a measure ends within the
measure. -/
theorem loop
    {step : σ → Scan ε (σ ⊕ α)}
    {post : α → Prop}
    (invariant : σ → Prop)
    (measure : σ → Nat)
    (steps : ∀ state, invariant state →
      Meets (step state) fun
        | .inl next => invariant next ∧ measure next < measure state
        | .inr result => post result)
    {state : σ}
    (holds : invariant state)
    (enough : measure state < fuel) :
    Meets (Scan.loop step fuel state) post := by
  induction fuel generalizing state with
  | zero => omega
  | succ fuel inductionHypothesis =>
      have stepped := steps state holds
      rw [Scan.loop]
      cases outcome : step state with
      | error halt =>
          rw [outcome] at stepped
          cases halt <;> exact stepped
      | ok value =>
          rw [outcome] at stepped
          cases value with
          | inr result => exact stepped
          | inl next =>
              exact inductionHypothesis stepped.1 (by have := stepped.2; omega)

/-- The cursor stays inside the text, and stops before an element that does not
satisfy the condition. -/
theorem skipWhile
    {text : List β}
    (keep : β → Bool)
    {cursor : Nat}
    (inside : cursor ≤ text.length) :
    Meets (Scan.skipWhile text keep cursor : Scan ε Nat) fun stop =>
      cursor ≤ stop ∧ stop ≤ text.length ∧
        ∀ value, text[stop]? = some value → keep value = false := by
  refine loop (fun current => cursor ≤ current ∧ current ≤ text.length)
    (fun current => text.length - current) ?_ ⟨Nat.le_refl _, inside⟩ (by omega)
  rintro current ⟨reached, bounded⟩
  refine ite ?_ ?_
  · intro more
    refine bind (read more) ?_
    intro value found
    refine ite ?_ ?_
    · intro _
      exact pure ⟨⟨by omega, by omega⟩, by omega⟩
    · intro stops
      refine pure ⟨reached, bounded, ?_⟩
      intro other atCurrent
      rw [found, Option.some.injEq] at atCurrent
      rw [← atCurrent]
      exact Bool.eq_false_iff.mpr stops
  · intro finished
    refine pure ⟨reached, bounded, ?_⟩
    intro other atCurrent
    rw [List.getElem?_eq_none (by omega)] at atCurrent
    cases atCurrent

end Meets

/-- A scan meets a condition exactly when it fails with an error of its own or
returns what satisfies the condition. -/
theorem meets_iff
    {scan : Scan ε α}
    {post : α → Prop} :
    Meets scan post ↔
      (∃ error, scan = .error (.failed error)) ∨
        ∃ value, scan = .ok value ∧ post value := by
  constructor
  · intro meets
    cases scan with
    | ok value => exact .inr ⟨value, rfl, meets⟩
    | error halt =>
        cases halt with
        | failed error => exact .inl ⟨error, rfl⟩
        | outOfRange => exact meets.elim
        | endless => exact meets.elim
  · rintro (⟨error, rfl⟩ | ⟨value, rfl, holds⟩)
    · exact trivial
    · exact holds

end Scan
end Wayring
