/-
CarPi.Foundation.Matcher — searching a stream for a pattern with one index and
no table: on a mismatch the index goes back to the start.

The state is the length of the part of the pattern that has just been seen.
A matcher with a failure table would go back to the longest border that the
next symbol continues; this one goes back to nothing, or to the first symbol.

* What it finds is there (`resetScan_sound`).
* It finds every occurrence exactly for the patterns in which going back to
  nothing is going back to the right place (`resetScan_complete_iff`): where a
  proper part of the pattern has a border, the border and the part go on with the
  same symbol (`Resettable`). Otherwise the part followed by what the border
  wants is a text that holds the pattern and is searched in vain.

The step lemma behind completeness is `resetStep_longest`: the state is the longest
part of the pattern that ends the text so far.

Nothing here mentions the repository.
-/
import Mathlib.Data.List.Infix
import Mathlib.Data.List.TakeDrop
import Mathlib.Data.Nat.Find
import Mathlib.Tactic.Common

namespace CarPi.Foundation

universe u

variable {α : Type u}

/-! ## Parts of a pattern at the end of a text -/

/-- A part of the pattern ends the longer text exactly when the part before ended
the text and goes on with the symbol. -/
theorem take_succ_suffix_iff {pattern text : List α} {n : Nat} {c : α}
    (hn : n < pattern.length) :
    pattern.take (n + 1) <:+ text ++ [c] ↔ pattern.take n <:+ text ∧ pattern[n]? = some c := by
  rw [List.take_add_one, List.getElem?_eq_getElem hn, Option.toList_some]
  constructor
  · rintro ⟨before, h⟩
    rw [← List.append_assoc] at h
    obtain ⟨hbefore, hc⟩ := List.append_inj' h rfl
    exact ⟨⟨before, hbefore⟩, by simpa using hc⟩
  · rintro ⟨⟨before, h⟩, hc⟩
    refine ⟨before, ?_⟩
    rw [← List.append_assoc, h, Option.some.inj hc]

/-- One of two parts that end the same text is a border of the other. -/
theorem take_suffix_take {pattern text : List α} {m n : Nat} (hle : m ≤ n)
    (hm : pattern.take m <:+ text) (hn : pattern.take n <:+ text) :
    pattern.take m <:+ pattern.take n := by
  refine List.suffix_of_suffix_length_le hm hn ?_
  simp only [List.length_take]
  omega

variable [DecidableEq α]

/-! ## The matcher -/

/-- The index behind one more symbol. -/
def resetStep (pattern : List α) (index : Nat) (c : α) : Nat :=
  let index := if pattern[index]? = some c then index else 0
  if pattern[index]? = some c then index + 1 else index

/-- What is left of the text behind the end of the first match, if there is one. -/
def resetScan (pattern : List α) : Nat → List α → Option (List α)
  | _, [] => none
  | index, c :: text =>
    let index := resetStep pattern index c
    if pattern.length ≤ index then some text else resetScan pattern index text

theorem resetStep_of_match {pattern : List α} {index : Nat} {c : α}
    (h : pattern[index]? = some c) : resetStep pattern index c = index + 1 := by
  simp [resetStep, h]

theorem resetStep_of_mismatch {pattern : List α} {index : Nat} {c : α}
    (h : pattern[index]? ≠ some c) :
    resetStep pattern index c = if pattern[0]? = some c then 1 else 0 := by
  simp [resetStep, h]

theorem resetStep_le (pattern : List α) (index : Nat) (c : α) :
    resetStep pattern index c ≤ index + 1 := by
  by_cases h : pattern[index]? = some c
  · rw [resetStep_of_match h]
  · rw [resetStep_of_mismatch h]
    split <;> omega

/-- The index is the length of a part of the pattern that ends the text so far. -/
theorem take_resetStep_suffix {pattern text : List α} {index : Nat} {c : α}
    (hindex : index < pattern.length) (h : pattern.take index <:+ text) :
    pattern.take (resetStep pattern index c) <:+ text ++ [c] := by
  by_cases hmatch : pattern[index]? = some c
  · rw [resetStep_of_match hmatch]
    exact (take_succ_suffix_iff hindex).mpr ⟨h, hmatch⟩
  · rw [resetStep_of_mismatch hmatch]
    split
    · next hfirst =>
      exact (take_succ_suffix_iff (by omega)).mpr ⟨by simp, hfirst⟩
    · simp

/-- **What is found is there**: the text up to what is left ends with the pattern. -/
theorem resetScan_sound {pattern : List α} : ∀ {text before rest : List α} {index : Nat},
    index < pattern.length → pattern.take index <:+ before →
    resetScan pattern index text = some rest →
    ∃ read, text = read ++ rest ∧ pattern <:+ before ++ read := by
  intro text
  induction text with
  | nil =>
    intro before rest index _ _ h
    cases h
  | cons c text ih =>
    intro before rest index hindex hpart h
    have hnext := take_resetStep_suffix (c := c) hindex hpart
    rw [resetScan] at h
    split at h
    · next hfull =>
      obtain rfl := Option.some.inj h
      rw [List.take_of_length_le hfull] at hnext
      exact ⟨[c], rfl, hnext⟩
    · next hshort =>
      obtain ⟨read, rfl, hread⟩ := ih (by omega) hnext h
      exact ⟨c :: read, rfl, by simpa using hread⟩

/-! ## Patterns that can be searched so -/

/-- Where a part of the pattern that is not all of it has a border, both go on with
the same symbol. -/
def Resettable (pattern : List α) : Prop :=
  ∀ part < pattern.length, ∀ border < part, 0 < border →
    pattern.take border <:+ pattern.take part → pattern[border]? = pattern[part]?

instance (pattern : List α) : Decidable (Resettable pattern) :=
  inferInstanceAs (Decidable (∀ part < pattern.length, ∀ border < part, 0 < border →
    pattern.take border <:+ pattern.take part → pattern[border]? = pattern[part]?))

/-- `index` is the length of the longest part of the pattern that ends the text. -/
structure Longest (pattern text : List α) (index : Nat) : Prop where
  ends : pattern.take index <:+ text
  longest : ∀ n ≤ pattern.length, pattern.take n <:+ text → n ≤ index

/-- **Going back to nothing is right**: the index stays the longest there is. -/
theorem resetStep_longest {pattern text : List α} {index : Nat} {c : α}
    (hreset : Resettable pattern) (hindex : index < pattern.length)
    (h : Longest pattern text index) :
    Longest pattern (text ++ [c]) (resetStep pattern index c) := by
  refine ⟨take_resetStep_suffix hindex h.ends, ?_⟩
  rintro n hn hends
  cases n with
  | zero => exact Nat.zero_le _
  | succ n =>
    obtain ⟨hbefore, hc⟩ := (take_succ_suffix_iff (by omega)).mp hends
    have hle : n ≤ index := h.longest n (by omega) hbefore
    by_cases hmatch : pattern[index]? = some c
    · rw [resetStep_of_match hmatch]
      omega
    · -- a border of the part seen so far would have gone on as that part
      have hzero : n = 0 := by
        by_contra hpos
        have hne : n ≠ index := fun heq => hmatch (heq ▸ hc)
        have hborder := take_suffix_take hle hbefore h.ends
        have hsame := hreset index hindex n (by omega) (by omega) hborder
        exact hmatch (hsame.symm.trans hc)
      subst hzero
      rw [resetStep_of_mismatch hmatch, if_pos hc]

/-- Where the longest part is kept the first occurrence is found. -/
theorem resetScan_of_suffix {pattern : List α} (hreset : Resettable pattern) :
    ∀ {read before rest : List α} {index : Nat}, index < pattern.length →
      Longest pattern before index → read ≠ [] → pattern <:+ before ++ read →
      (∀ less, less <+: read → less ≠ read → ¬ pattern <:+ before ++ less) →
      resetScan pattern index (read ++ rest) = some rest := by
  intro read
  induction read with
  | nil =>
    intro before rest index _ _ hne
    exact absurd rfl hne
  | cons c read ih =>
    intro before rest index hindex hlong _ hends hfirst
    have hnext := resetStep_longest (c := c) hreset hindex hlong
    rw [List.cons_append, resetScan]
    by_cases hread : read = []
    · subst hread
      have hfull := hnext.longest pattern.length le_rfl (by simpa using hends)
      simp [hfull]
    · have hnot : ¬ pattern.length ≤ resetStep pattern index c := by
        intro hfull
        have hpart := hnext.ends
        rw [List.take_of_length_le hfull] at hpart
        refine hfirst [c] ⟨read, rfl⟩ ?_ hpart
        simpa using hread
      rw [if_neg hnot]
      refine ih (by omega) hnext hread (by simpa using hends) ?_
      intro less hless hne
      have := hfirst (c :: less) (List.cons_prefix_cons.mpr ⟨rfl, hless⟩) (by simpa using hne)
      simpa using this

/-- The text read ends with the pattern, and no shorter beginning of it does. -/
structure FirstMatch (pattern read : List α) : Prop where
  ends : pattern <:+ read
  first : ∀ less, less <+: read → less ≠ read → ¬ pattern <:+ less

/-- A text that holds the pattern has a first match. -/
theorem exists_firstMatch {pattern text : List α} (h : pattern <:+: text) :
    ∃ read rest, text = read ++ rest ∧ FirstMatch pattern read := by
  obtain ⟨before, behind, htext⟩ := h
  have hsome : ∃ n, n ≤ text.length ∧ pattern <:+ text.take n := by
    refine ⟨(before ++ pattern).length, ?_, ?_⟩
    · rw [← htext]
      simp
    · rw [← htext, List.take_left' rfl]
      exact List.suffix_append _ _
  classical
  obtain ⟨hle, hends⟩ := Nat.find_spec hsome
  refine ⟨text.take (Nat.find hsome), text.drop (Nat.find hsome),
    (List.take_append_drop _ _).symm, hends, ?_⟩
  intro less hless hne hpattern
  have hlen : less.length < Nat.find hsome := by
    refine lt_of_le_of_ne ?_ ?_
    · simpa [hle] using hless.length_le
    · intro heq
      exact hne (hless.eq_of_length (by simp [heq, hle]))
  refine Nat.find_min hsome hlen ⟨by omega, ?_⟩
  rw [← List.prefix_iff_eq_take.mp (hless.trans (List.take_prefix _ _))]
  exact hpattern

/-- **A resettable pattern is found where it first ends.** -/
theorem resetScan_of_firstMatch {pattern read : List α} (hreset : Resettable pattern)
    (hne : pattern ≠ []) (h : FirstMatch pattern read) (rest : List α) :
    resetScan pattern 0 (read ++ rest) = some rest := by
  have hpos := List.length_pos_of_ne_nil hne
  have hread : read ≠ [] := by
    rintro rfl
    exact hne (List.suffix_nil.mp h.ends)
  have hlong : Longest pattern ([] : List α) 0 := by
    refine ⟨by simp, ?_⟩
    intro n hn hends
    have hlen := hends.length_le
    simp only [List.length_take, List.length_nil] at hlen
    omega
  exact resetScan_of_suffix hreset hpos hlong hread h.ends h.first

/-! ## Patterns that cannot -/

/-- The pattern itself moves the index through its parts. -/
theorem resetScan_take {pattern : List α} (text : List α) : ∀ {n : Nat}, n < pattern.length →
    resetScan pattern 0 (pattern.take n ++ text) = resetScan pattern n text := by
  intro n
  induction n generalizing text with
  | zero => simp
  | succ n ih =>
    intro hn
    have hmatch : pattern[n]? = some pattern[n] := List.getElem?_eq_getElem (by omega)
    rw [List.take_add_one, hmatch, Option.toList_some, List.append_assoc, List.singleton_append,
      ih _ (by omega), resetScan, resetStep_of_match hmatch, if_neg (by omega)]

/-- A text too short to complete the pattern does not. -/
theorem resetScan_of_short {pattern : List α} : ∀ {text : List α} {index : Nat},
    index + text.length < pattern.length → resetScan pattern index text = none
  | [], _, _ => rfl
  | c :: text, index, h => by
    have hstep := resetStep_le pattern index c
    rw [List.length_cons] at h
    rw [resetScan, if_neg (by omega)]
    exact resetScan_of_short (by omega)

/-- A part and one of its borders that go on with different symbols: the part,
followed by what the border wants, is searched in vain. -/
theorem resetScan_of_border {pattern : List α} {part border : Nat} (hpart : part < pattern.length)
    (hborder : border < part) (hpos : 0 < border)
    (hsuffix : pattern.take border <:+ pattern.take part)
    (hdiff : pattern[border]? ≠ pattern[part]?) :
    pattern <:+: pattern.take part ++ pattern.drop border ∧
      resetScan pattern 0 (pattern.take part ++ pattern.drop border) = none := by
  constructor
  · obtain ⟨before, hbefore⟩ := hsuffix
    rw [← hbefore, List.append_assoc, List.take_append_drop]
    exact (List.suffix_append _ _).isInfix
  · have hcons : pattern.drop border = pattern[border] :: pattern.drop (border + 1) :=
      List.drop_eq_getElem_cons (by omega)
    have hmismatch : pattern[part]? ≠ some pattern[border] := by
      intro heq
      exact hdiff ((List.getElem?_eq_getElem (by omega)).trans heq.symm)
    have hle : resetStep pattern part pattern[border] ≤ 1 := by
      rw [resetStep_of_mismatch hmismatch]
      split <;> omega
    rw [resetScan_take _ hpart, hcons, resetScan, if_neg (by omega)]
    refine resetScan_of_short ?_
    rw [List.length_drop]
    omega

/-- **Every occurrence is found exactly for the resettable patterns.** -/
theorem resetScan_complete_iff {pattern : List α} (hne : pattern ≠ []) :
    (∀ text, pattern <:+: text → (resetScan pattern 0 text).isSome = true) ↔
      Resettable pattern := by
  constructor
  · intro h part hpart border hborder hpos hsuffix
    by_contra hdiff
    obtain ⟨hoccurs, hnone⟩ := resetScan_of_border hpart hborder hpos hsuffix hdiff
    have hsome := h _ hoccurs
    rw [hnone] at hsome
    cases hsome
  · intro hreset text hoccurs
    obtain ⟨read, rest, rfl, hfirst⟩ := exists_firstMatch hoccurs
    rw [resetScan_of_firstMatch hreset hne hfirst rest]
    rfl

end CarPi.Foundation
