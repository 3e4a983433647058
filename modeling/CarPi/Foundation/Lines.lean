/-
CarPi.Foundation.Lines — the lines of a stream, and a reader that takes them
from pieces of it.

`lines sep s` are the parts of `s` that end with the separator, without it.
What stands behind the last one is no line yet.

`wholeReads` is a reader that gets the stream in reads and uses each as a
whole: it adds the read to its line, drops every separator in it, and ends the
line if there was one. It keeps nothing of a read for the next line.
`wholeReads_eq_lines_iff` says when that does no harm: when each read has the
separator at its end, if at all.

Nothing here mentions the repository.
-/
import CarPi.Foundation.CString
import Mathlib.Data.List.Basic
import Mathlib.Data.List.Count

namespace CarPi.Foundation

universe u

variable {α : Type u} [DecidableEq α] (sep : α)

/-! ## Lines -/

/-- The lines of `s` that are terminated, in order. -/
def lines (s : List α) : List (List α) := (s.splitOn sep).dropLast

variable {sep}

theorem lines_of_not_mem {s : List α} (h : sep ∉ s) : lines sep s = [] := by
  rw [lines, List.splitOn_eq_singleton h]
  rfl

theorem lines_append_cons {line : List α} (h : sep ∉ line) (rest : List α) :
    lines sep (line ++ sep :: rest) = line :: lines sep rest := by
  rw [lines, List.splitOn_append_cons_self_of_not_mem h,
    List.dropLast_cons_of_ne_nil (List.splitOn_ne_nil sep rest), lines]

theorem length_lines (s : List α) : (lines sep s).length = s.count sep := by
  have hsplit : (s.splitOn sep).length = s.count sep + 1 := by
    induction s with
    | nil => rfl
    | cons b s ih =>
      rw [List.splitOn_cons_eq_if_modifyHead, List.count_cons]
      by_cases hb : b = sep <;> simp [hb, ih]
  rw [lines, List.length_dropLast, hsplit, Nat.add_sub_cancel]

/-! ## A reader without a rest -/

variable (sep) in
/-- The lines a reader makes of the reads, `acc` being the line it has begun. -/
def wholeReads : List α → List (List α) → List (List α)
  | _, [] => []
  | acc, tmp :: reads =>
    if sep ∈ tmp then (acc ++ tmp.filter (· ≠ sep)) :: wholeReads [] reads
    else wholeReads (acc ++ tmp) reads

/-- One line for each read with a separator, so there are not more of them than
separators. -/
theorem length_wholeReads_le : ∀ (reads : List (List α)) (acc : List α),
    (wholeReads sep acc reads).length ≤ reads.flatten.count sep
  | [], _ => Nat.zero_le _
  | tmp :: reads, acc => by
    rw [wholeReads, List.flatten_cons, List.count_append]
    split
    · next hsep =>
      have hpos := List.count_pos_iff.mpr hsep
      have ih := length_wholeReads_le reads []
      rw [List.length_cons]
      omega
    · have ih := length_wholeReads_le reads (acc ++ tmp)
      omega

omit [DecidableEq α] in
/-- A separator that is not the last of a read is followed by something. -/
theorem not_mem_dropLast_iff {front rest : List α} (h : sep ∉ front) :
    sep ∉ (front ++ sep :: rest).dropLast ↔ rest = [] := by
  cases rest with
  | nil => simpa using h
  | cons b rest => simp

/-- What a read adds to the line it ends. -/
theorem filter_append_cons {front : List α} (h : sep ∉ front) (rest : List α) :
    (front ++ sep :: rest).filter (· ≠ sep) = front ++ rest.filter (· ≠ sep) := by
  rw [List.filter_append, filter_ne_of_not_mem h, List.filter_cons_of_neg (by simp)]

/-- **The reader gives the lines of the stream exactly when no read holds a
separator before its last element.** -/
theorem wholeReads_eq_lines_iff : ∀ (reads : List (List α)) {acc : List α}, sep ∉ acc →
    (wholeReads sep acc reads = lines sep (acc ++ reads.flatten) ↔
      ∀ tmp ∈ reads, sep ∉ tmp.dropLast)
  | [], acc, hacc => by simp [wholeReads, lines_of_not_mem hacc]
  | tmp :: reads, acc, hacc => by
    rw [List.flatten_cons, List.forall_mem_cons, wholeReads]
    by_cases hsep : sep ∈ tmp
    · obtain ⟨front, rest, rfl, hfront⟩ := List.eq_append_cons_of_mem hsep
      have hline : sep ∉ acc ++ front := by simp [hacc, hfront]
      have hsplit : acc ++ ((front ++ sep :: rest) ++ reads.flatten)
          = (acc ++ front) ++ sep :: (rest ++ reads.flatten) := by simp
      rw [if_pos hsep, hsplit, lines_append_cons hline, not_mem_dropLast_iff hfront,
        List.cons.injEq, filter_append_cons hfront, ← List.append_assoc,
        List.append_right_eq_self]
      constructor
      · rintro ⟨hfirst, hlater⟩
        have hrest : ∀ b ∈ rest, b = sep := by simpa using hfirst
        -- a rest of separators would make more lines than the reader gives
        have hnil : rest = [] := by
          by_contra hne
          obtain ⟨b, rest', rfl⟩ := List.exists_cons_of_ne_nil hne
          have hmore : (wholeReads sep [] reads).length ≤ _ := length_wholeReads_le reads []
          rw [hlater, length_lines, hrest b List.mem_cons_self, List.cons_append,
            List.count_cons_self, List.count_append] at hmore
          omega
        subst hnil
        exact ⟨rfl, (wholeReads_eq_lines_iff reads List.not_mem_nil).mp hlater⟩
      · rintro ⟨rfl, hreads⟩
        exact ⟨rfl, (wholeReads_eq_lines_iff reads List.not_mem_nil).mpr hreads⟩
    · have hnext : sep ∉ acc ++ tmp := by simp [hacc, hsep]
      have hdrop : sep ∉ tmp.dropLast := fun h => hsep (List.dropLast_subset tmp h)
      rw [if_neg hsep, ← List.append_assoc, wholeReads_eq_lines_iff reads hnext]
      simp [hdrop]

end CarPi.Foundation
