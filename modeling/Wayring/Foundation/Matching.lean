import Mathlib.Data.List.Infix
import Mathlib.Tactic

/-!
# Streaming search

Search for a word, one symbol at a time.  Only the length of the longest part
of the word that the text so far ends with is kept.  When a symbol does not
continue that part, it can at most begin the word again, as long as the first
symbol of the word occurs in it once.
-/

namespace Matching

variable {α : Type*} [DecidableEq α]

/-- Take one more symbol: the length matched, and whether the word is
complete, after which the search starts again. -/
def step (word : List α) (matched : Nat) (symbol : α) : Nat × Bool :=
  if word[matched]? = some symbol then
    if matched + 1 = word.length then (0, true) else (matched + 1, false)
  else (if word.head? = some symbol then 1 else 0, false)

/-- The text ends with this much of the word, and no more of it. -/
structure Ends (word text : List α) (matched : Nat) : Prop where
  within : matched < word.length
  ends : word.take matched <:+ text
  longest : ∀ length, length < word.length → word.take length <:+ text →
    length ≤ matched

variable {word text : List α} {matched : Nat} {symbol : α}

omit [DecidableEq α] in
/-- A text without symbols ends with nothing of the word. -/
theorem ends_nil (nonempty : 0 < word.length) : Ends word [] 0 where
  within := nonempty
  ends := by simp
  longest length within ends := by
    have empty := List.suffix_nil.mp ends
    have lengths := congrArg List.length empty
    rw [List.length_take, List.length_nil] at lengths
    omega

omit [DecidableEq α] in
/-- A part of the word at the end of a longer text ends with its symbol. -/
theorem take_succ_suffix_iff
    {length : Nat}
    (within : length < word.length) :
    word.take (length + 1) <:+ text ++ [symbol] ↔
      word[length]? = some symbol ∧ word.take length <:+ text := by
  rw [List.take_add_one, List.getElem?_eq_getElem within, Option.toList_some,
    List.suffix_concat_iff]
  simp only [List.append_eq_nil_iff, List.cons_ne_self, and_false, false_or,
    Option.some.injEq]
  constructor
  · rintro ⟨front, same, ends⟩
    obtain ⟨left, right⟩ := List.append_inj' same rfl
    rw [left]
    exact ⟨List.singleton_inj.mp right, ends⟩
  · rintro ⟨same, ends⟩
    exact ⟨_, by rw [same], ends⟩

omit [DecidableEq α] in
/-- Of two parts of the word that a text ends with, the shorter one is none,
when its first symbol occurs once. -/
theorem eq_zero_of_shorter
    {first : α} {rest : List α} {shorter longer : Nat}
    (shape : word = first :: rest)
    (once : first ∉ rest)
    (short : word.take shorter <:+ text)
    (long : word.take longer <:+ text)
    (less : shorter < longer)
    (within : longer < word.length) : shorter = 0 := by
  have nested : word.take shorter <:+ word.take longer :=
    List.suffix_of_suffix_length_le short long (by
      rw [List.length_take, List.length_take]
      omega)
  obtain ⟨front, split⟩ := nested
  by_contra positive
  obtain ⟨shorter, rfl⟩ := Nat.exists_eq_succ_of_ne_zero positive
  obtain ⟨longer, rfl⟩ := Nat.exists_eq_succ_of_ne_zero
    (Nat.ne_of_gt (Nat.zero_lt_of_lt less))
  subst shape
  rw [List.take_succ_cons, List.take_succ_cons] at split
  cases front with
  | nil =>
      have lengths := congrArg List.length split
      simp only [List.nil_append, List.length_cons, List.length_take]
        at lengths within
      omega
  | cons head front =>
      rw [List.cons_append, List.cons.injEq] at split
      have member : first ∈ rest.take longer := by
        rw [← split.2]
        simp
      exact once (List.mem_of_mem_take member)

/-- One more symbol completes the word exactly when the text then ends with
it, and keeps what the text ends with. -/
theorem Ends.step
    {first : α} {rest : List α}
    (shape : word = first :: rest)
    (once : first ∉ rest)
    (ends : Ends word text matched) :
    let outcome := step word matched symbol
    (outcome.2 = true ↔ word <:+ text ++ [symbol]) ∧
      (outcome.2 = false → Ends word (text ++ [symbol]) outcome.1) := by
  intro outcome
  have within := ends.within
  have complete : word <:+ text ++ [symbol] ↔
      matched + 1 = word.length ∧ word[matched]? = some symbol := by
    obtain ⟨length, lengthEq⟩ := Nat.exists_eq_succ_of_ne_zero
      (Nat.ne_of_gt (Nat.zero_lt_of_lt within))
    have whole : word.take (length + 1) = word :=
      List.take_of_length_le (Nat.le_of_eq lengthEq)
    have last := @take_succ_suffix_iff α word text symbol length (by omega)
    rw [whole] at last
    rw [last]
    constructor
    · rintro ⟨same, before⟩
      have longest := ends.longest length (by omega) before
      have equal : length = matched := by omega
      rw [← equal]
      exact ⟨by omega, same⟩
    · rintro ⟨atEnd, same⟩
      have equal : length = matched := by omega
      rw [equal]
      exact ⟨same, ends.ends⟩
  by_cases continues : word[matched]? = some symbol
  · by_cases atEnd : matched + 1 = word.length
    · have value : outcome = (0, true) := by
        simp only [outcome, Matching.step, if_pos continues, if_pos atEnd]
      rw [value, complete]
      exact ⟨iff_of_true rfl ⟨atEnd, continues⟩, fun absurd => nomatch absurd⟩
    · have value : outcome = (matched + 1, false) := by
        simp only [outcome, Matching.step, if_pos continues, if_neg atEnd]
      rw [value, complete]
      refine ⟨iff_of_false Bool.false_ne_true fun both => atEnd both.1,
        fun _ => ⟨by omega, ?_, ?_⟩⟩
      · exact (take_succ_suffix_iff within).mpr ⟨continues, ends.ends⟩
      · intro length inside before
        cases length with
        | zero => exact Nat.zero_le _
        | succ length =>
            have shorter := ((take_succ_suffix_iff (by omega)).mp before).2
            exact Nat.succ_le_succ (ends.longest length (by omega) shorter)
  · have value : outcome =
        (if word.head? = some symbol then 1 else 0, false) := by
      simp only [outcome, Matching.step, if_neg continues]
    rw [value, complete]
    refine ⟨iff_of_false Bool.false_ne_true fun both => continues both.2,
      fun _ => ?_⟩
    have restart : ∀ length, length < word.length →
        word.take (length + 1) <:+ text ++ [symbol] →
          length = 0 ∧ word.head? = some symbol := by
      intro length inside before
      obtain ⟨same, shorter⟩ := (take_succ_suffix_iff inside).mp before
      have bound := ends.longest length inside shorter
      have different : length ≠ matched := by
        rintro rfl
        exact continues same
      have none := eq_zero_of_shorter shape once shorter ends.ends
        (by omega) within
      rw [none] at same
      exact ⟨none, by rw [List.head?_eq_getElem?, same]⟩
    by_cases begins : word.head? = some symbol
    · rw [if_pos begins]
      have positive : 0 < word.length := Nat.zero_lt_of_lt within
      have long : 1 < word.length := by
        by_contra short
        apply continues
        have only : matched = 0 := by omega
        rw [only, ← List.head?_eq_getElem?, begins]
      refine ⟨long, ?_, ?_⟩
      · refine (take_succ_suffix_iff positive).mpr ⟨?_, by simp⟩
        rw [← List.head?_eq_getElem?, begins]
      · intro length inside before
        cases length with
        | zero => exact Nat.zero_le _
        | succ length =>
            rw [(restart length (by omega) before).1]
    · rw [if_neg begins]
      refine ⟨Nat.zero_lt_of_lt within, by simp, ?_⟩
      intro length inside before
      cases length with
      | zero => exact Nat.zero_le _
      | succ length =>
          exact absurd (restart length (by omega) before).2 begins

/-- Nothing but the text so far decides whether the word is in it. -/
structure Tracks
    (word text : List α)
    (matched : Nat)
    (found : Bool) : Prop where
  found_iff : found = true ↔ word <:+: text
  ends : found = false → Ends word text matched

omit [DecidableEq α] in
/-- Nothing is found at first. -/
theorem Tracks.nil (nonempty : 0 < word.length) : Tracks word [] 0 false where
  found_iff := by
    refine iff_of_false Bool.false_ne_true fun inside => ?_
    rw [List.infix_nil.mp inside, List.length_nil] at nonempty
    exact Nat.lt_irrefl _ nonempty
  ends _ := ends_nil nonempty

/-- Once found, a word is not searched for. -/
theorem Tracks.step
    {first : α} {rest : List α} {found : Bool}
    (shape : word = first :: rest)
    (once : first ∉ rest)
    (tracks : Tracks word text matched found) :
    Tracks word (text ++ [symbol])
      (if found then matched else (Matching.step word matched symbol).1)
      (found || (Matching.step word matched symbol).2) := by
  cases found with
  | true =>
      refine ⟨iff_of_true rfl ?_, fun absurd => nomatch absurd⟩
      exact (tracks.found_iff.mp rfl).trans (List.infix_append' [] text [symbol])
  | false =>
      obtain ⟨complete, ends⟩ :=
        @Ends.step _ _ word text matched symbol first rest shape once
          (tracks.ends rfl)
      refine ⟨?_, ends⟩
      rw [Bool.false_or, complete, List.infix_concat_iff]
      exact (or_iff_left fun inside =>
        nomatch tracks.found_iff.mpr inside).symm

end Matching
