/-
CarPi.Foundation.Provenance — sequences whose elements carry the number of
the part they come from.

`markParts` numbers the parts of a concatenation. Its marks are sorted
(`marks_markParts_sorted`), and they stay sorted under whatever deletes
elements and rewrites them in place, since sortedness passes to sublists of
the marks. What sorted marks give is `take_constant_iff`: a prefix of
sorted marks is constant exactly when nothing in the whole list is smaller than
its last element.

Nothing here mentions the repository.
-/
import Mathlib.Data.List.Pairwise
import Mathlib.Data.List.Infix
import Mathlib.Order.Basic
import Mathlib.Tactic.Common

namespace CarPi.Foundation

universe u

variable {α : Type u}

/-- The elements without their marks. -/
def unmark (s : List (α × Nat)) : List α := s.map Prod.fst

/-- The marks alone. -/
def marks (s : List (α × Nat)) : List Nat := s.map Prod.snd

@[simp] theorem unmark_append (s t : List (α × Nat)) : unmark (s ++ t) = unmark s ++ unmark t :=
  List.map_append

@[simp] theorem marks_append (s t : List (α × Nat)) : marks (s ++ t) = marks s ++ marks t :=
  List.map_append

/-- Each element of the parts with the number of its part, counted from `n`. -/
def markFrom : Nat → List (List α) → List (α × Nat)
  | _, [] => []
  | n, part :: parts => part.map (fun a => (a, n)) ++ markFrom (n + 1) parts

def markParts (parts : List (List α)) : List (α × Nat) := markFrom 0 parts

theorem unmark_markFrom (n : Nat) (parts : List (List α)) :
    unmark (markFrom n parts) = parts.flatten := by
  induction parts generalizing n with
  | nil => rfl
  | cons part parts ih =>
    rw [markFrom, unmark_append, ih]
    simp [unmark, Function.comp_def]

theorem unmark_markParts (parts : List (List α)) : unmark (markParts parts) = parts.flatten :=
  unmark_markFrom 0 parts

theorem le_of_mem_marks_markFrom {n k : Nat} {parts : List (List α)}
    (h : k ∈ marks (markFrom n parts)) : n ≤ k := by
  induction parts generalizing n with
  | nil => exact absurd h List.not_mem_nil
  | cons part parts ih =>
    rw [markFrom, marks_append, List.mem_append] at h
    rcases h with hhere | hlater
    · simp [marks, Function.comp_def] at hhere
      omega
    · have := ih hlater
      omega

theorem marks_markFrom_sorted (n : Nat) (parts : List (List α)) :
    (marks (markFrom n parts)).Pairwise (· ≤ ·) := by
  induction parts generalizing n with
  | nil => exact List.Pairwise.nil
  | cons part parts ih =>
    rw [markFrom, marks_append, List.pairwise_append]
    refine ⟨?_, ih (n + 1), ?_⟩
    · simp [marks, Function.comp_def, List.pairwise_replicate]
    · intro a ha b hb
      have hb' := le_of_mem_marks_markFrom hb
      simp [marks, Function.comp_def] at ha
      omega

theorem marks_markParts_sorted (parts : List (List α)) :
    (marks (markParts parts)).Pairwise (· ≤ ·) :=
  marks_markFrom_sorted 0 parts

/-- In a sorted list, the prefix that ends at index `i` is constant exactly
when no element of the list is below the one at `i`. -/
theorem take_constant_iff {l : List Nat} (hsorted : l.Pairwise (· ≤ ·)) {i : Nat}
    (hi : i < l.length) :
    (∀ a ∈ l.take (i + 1), ∀ b ∈ l.take (i + 1), a = b) ↔ ∀ a ∈ l, l[i] ≤ a := by
  have hlast : l[i] ∈ l.take (i + 1) := List.mem_take_iff_getElem.mpr ⟨i, by omega, rfl⟩
  have hbelow : ∀ a ∈ l.take (i + 1), a ≤ l[i] := by
    intro a ha
    obtain ⟨j, hj, rfl⟩ := List.mem_take_iff_getElem.mp ha
    rcases Nat.lt_or_ge j i with hlt | hge
    · exact List.pairwise_iff_getElem.mp hsorted j i (by omega) hi hlt
    · have : j = i := by omega
      subst this
      exact Nat.le_refl _
  constructor
  · intro hconst a ha
    obtain ⟨j, hj, rfl⟩ := List.mem_iff_getElem.mp ha
    rcases Nat.lt_or_ge i j with hlt | hge
    · exact List.pairwise_iff_getElem.mp hsorted i j hi hj hlt
    · have hin : l[j] ∈ l.take (i + 1) := List.mem_take_iff_getElem.mpr ⟨j, by omega, rfl⟩
      exact (hconst _ hlast _ hin).le
  · intro hmin a ha b hb
    have hab : ∀ c ∈ l.take (i + 1), c = l[i] := fun c hc =>
      Nat.le_antisymm (hbelow c hc) (hmin c (List.mem_of_mem_take hc))
    rw [hab a ha, hab b hb]

end CarPi.Foundation
