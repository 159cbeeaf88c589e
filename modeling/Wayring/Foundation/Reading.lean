import Mathlib.Data.List.Basic

/-!
# Readers and grammars

A reader takes a value off the front of a cursor or fails.  It reads a grammar
if it succeeds exactly on inputs that start with an item of the grammar, and
takes no more than that item.
-/

namespace Reading

variable {σ α β γ ε : Type} {view : σ → List γ}

/-- A reader reads a grammar. -/
def Reads
    (view : σ → List γ)
    (reader : σ → Except ε (α × σ))
    (grammar : α → List γ → Prop) : Prop :=
  ∀ cursor value rest,
    reader cursor = .ok (value, rest) ↔
      ∃ front, view cursor = front ++ view rest ∧ grammar value front

variable {reader : σ → Except ε (α × σ)} {grammar : α → List γ → Prop}

theorem Reads.congr
    {other : α → List γ → Prop}
    (reads : Reads view reader grammar)
    (same : ∀ value front, grammar value front ↔ other value front) :
    Reads view reader other := by
  intro cursor value rest
  rw [reads]
  simp only [same]

/-- Reading nothing. -/
theorem Reads.pure
    (injective : Function.Injective view)
    (result : α) :
    Reads view (fun cursor => (.ok (result, cursor) : Except ε (α × σ)))
      fun value front => value = result ∧ front = [] := by
  intro cursor value rest
  constructor
  · intro read
    cases read
    exact ⟨[], rfl, rfl, rfl⟩
  · rintro ⟨front, split, rfl, rfl⟩
    rw [List.nil_append] at split
    rw [injective split]

/-- Reading only when a check has passed. -/
theorem Reads.guard
    (reads : Reads view reader grammar)
    (refused : Prop) [Decidable refused]
    (cause : ε) :
    Reads view
      (fun cursor => if refused then .error cause else reader cursor)
      fun value front => ¬refused ∧ grammar value front := by
  intro cursor value rest
  by_cases refuses : refused
  · simp [refuses]
  · simpa [refuses] using reads cursor value rest

/-- Reading in one of two ways. -/
theorem Reads.branch
    (chosen : Prop) [Decidable chosen]
    {otherReader : σ → Except ε (α × σ)} {other : α → List γ → Prop}
    (reads : Reads view reader grammar)
    (readsOther : Reads view otherReader other) :
    Reads view
      (fun cursor => if chosen then reader cursor else otherReader cursor)
      fun value front =>
        if chosen then grammar value front else other value front := by
  intro cursor value rest
  by_cases choice : chosen
  · simpa [choice] using reads cursor value rest
  · simpa [choice] using readsOther cursor value rest

/-- Reading one item behind the other. -/
theorem Reads.bind
    {second : α → σ → Except ε (β × σ)} {later : α → β → List γ → Prop}
    (surjective : Function.Surjective view)
    (reads : Reads view reader grammar)
    (readsLater : ∀ value, Reads view (second value) (later value)) :
    Reads view
      (fun cursor => do
        let (value, cursor) ← reader cursor
        second value cursor)
      fun result front => ∃ value early late,
        front = early ++ late ∧ grammar value early ∧
          later value result late := by
  intro cursor result rest
  constructor
  · intro read
    cases first : reader cursor with
    | error cause => simp [first, Bind.bind, Except.bind] at read
    | ok answer =>
        obtain ⟨value, middle⟩ := answer
        simp only [first, Bind.bind, Except.bind] at read
        obtain ⟨early, split, inGrammar⟩ := (reads _ _ _).mp first
        obtain ⟨late, splitLater, inLater⟩ := (readsLater value _ _ _).mp read
        refine ⟨early ++ late, ?_, value, early, late, rfl, inGrammar, inLater⟩
        rw [split, splitLater, List.append_assoc]
  · rintro ⟨front, split, value, early, late, rfl, inGrammar, inLater⟩
    obtain ⟨middle, between⟩ := surjective (late ++ view rest)
    rw [List.append_assoc, ← between] at split
    have first := (reads cursor value middle).mpr ⟨early, split, inGrammar⟩
    have next :=
      (readsLater value middle result rest).mpr ⟨late, between, inLater⟩
    simp only [first, Bind.bind, Except.bind]
    exact next

end Reading
