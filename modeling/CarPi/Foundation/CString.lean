/-
CarPi.Foundation.CString — the string functions of C++ and of the C
library that the program calls, over byte lists.

A `std::string` or a `char` array is a `List UInt8`. Three functions need
care:

* `std::string::find` returns a `size_t`, and "not found" is the value
  `npos`, the LARGEST `size_t`. `SizeT` keeps the two apart and computes
  as `size_t` does: `npos ≥ 0` holds, and `npos + k` wraps around to
  `k - 1`. `SizeT.toNat_add` checks this against modular arithmetic for
  every width of `size_t`.
* `strspn(s, accept)` is the length of the longest prefix of `s` whose
  bytes all occur in `accept`; both arguments end at their first NUL.
* `boost::replace_all` with a pattern of one character acts on each byte
  by itself.

Nothing here mentions the repository.
-/
import Mathlib.Data.List.Infix
import Mathlib.Algebra.Ring.Nat
import Mathlib.Data.List.TakeWhile
import Mathlib.Tactic.Common

namespace CarPi.Foundation

/-- The bytes of a character sequence. -/
def bytes (cs : List Char) : List UInt8 := cs.map Char.toUInt8

/-- `'\n'` -/
def LF : UInt8 := 10

/-- `'\r'` -/
def CR : UInt8 := 13

/-! ## `size_t` positions -/

/-- A `size_t` returned by `find`: a position, or `npos`. -/
inductive SizeT where
  | pos (n : Nat)
  | npos
  deriving DecidableEq, Repr

namespace SizeT

/-- `p >= k` for a `size_t`: `npos` is the largest value there is. -/
def ge : SizeT → Nat → Bool
  | pos n, k => decide (k ≤ n)
  | npos, _ => true

/-- `p + k` for a `size_t` and `0 < k`: `npos + k` wraps around. -/
def add : SizeT → Nat → Nat
  | pos n, k => n + k
  | npos, k => k - 1

/-- The position one further, where the search started one byte earlier. -/
def succ : SizeT → SizeT
  | pos n => pos (n + 1)
  | npos => npos

/-- The number a `size_t` of `w` bits holds. -/
def toNat (w : Nat) : SizeT → Nat
  | pos n => n
  | npos => 2 ^ w - 1

/-- Every `size_t` is at least zero, `npos` included. -/
@[simp] theorem ge_zero (p : SizeT) : p.ge 0 = true := by
  cases p <;> simp [ge]

/-- `add` is addition modulo `2 ^ w`, as long as a position that was found
does not reach the end of the address space. -/
theorem toNat_add (w : Nat) (p : SizeT) (k : Nat) (hk : 0 < k)
    (hpos : ∀ n, p = pos n → n + k < 2 ^ w) (hw : k ≤ 2 ^ w) :
    (p.toNat w + k) % 2 ^ w = p.add k := by
  cases p with
  | pos n => exact Nat.mod_eq_of_lt (hpos n rfl)
  | npos =>
    have hsum : 2 ^ w - 1 + k = k - 1 + 2 ^ w := by omega
    rw [toNat, add, hsum, Nat.add_mod_right]
    exact Nat.mod_eq_of_lt (by omega)

end SizeT

/-! ## `std::string::find` -/

section Find

variable {α : Type} [DecidableEq α]

/-- `s.find(needle)`: the first position at which `needle` occurs. -/
def find (needle : List α) : List α → SizeT
  | [] => if needle = [] then .pos 0 else .npos
  | c :: cs => if needle.isPrefixOf (c :: cs) then .pos 0 else (find needle cs).succ

/-- A position found is an occurrence. -/
theorem isPrefix_of_find {needle : List α} : ∀ {s : List α} {p : Nat},
    find needle s = .pos p → needle <+: s.drop p := by
  intro s
  induction s with
  | nil =>
    intro p h
    unfold find at h
    split at h
    · subst needle; exact List.nil_prefix
    · cases h
  | cons c cs ih =>
    intro p h
    unfold find at h
    split at h
    · next hpre =>
      cases h
      exact List.isPrefixOf_iff_prefix.mp hpre
    · cases hf : find needle cs with
      | npos => rw [hf] at h; cases h
      | pos n =>
        rw [hf] at h
        cases h
        exact ih hf

/-- No occurrence starts before the position found. -/
theorem not_isPrefix_of_lt_find {needle : List α} : ∀ {s : List α} {p q : Nat},
    find needle s = .pos p → q < p → ¬ needle <+: s.drop q := by
  intro s
  induction s with
  | nil =>
    intro p q h hq
    unfold find at h
    split at h
    · cases h; omega
    · cases h
  | cons c cs ih =>
    intro p q h hq
    unfold find at h
    split at h
    · cases h; omega
    · next hpre =>
      cases hf : find needle cs with
      | npos => rw [hf] at h; cases h
      | pos n =>
        rw [hf] at h
        cases h
        cases q with
        | zero => exact fun hc => hpre (List.isPrefixOf_iff_prefix.mpr hc)
        | succ q => exact ih hf (by omega)

/-- `npos` means that there is no occurrence at all. -/
theorem find_eq_npos_iff {needle : List α} : ∀ {s : List α},
    find needle s = .npos ↔ ¬ needle <:+: s := by
  intro s
  induction s with
  | nil =>
    unfold find
    split
    · next h => simp [h]
    · next h => simpa using h
  | cons c cs ih =>
    unfold find
    rw [List.infix_cons_iff]
    split
    · next hpre =>
      simp [List.isPrefixOf_iff_prefix.mp hpre]
    · next hpre =>
      have hnot : ¬ needle <+: c :: cs := fun hc => hpre (List.isPrefixOf_iff_prefix.mpr hc)
      cases hf : find needle cs with
      | npos => simp [SizeT.succ, hnot, ih.mp hf]
      | pos n =>
        have : needle <:+: cs := by
          by_contra hc
          rw [ih.mpr hc] at hf
          cases hf
        simp [SizeT.succ, this]

/-- A marker found ends inside the text. -/
theorem find_add_length_le {needle s : List α} {p : Nat} (h : find needle s = .pos p)
    (hne : needle ≠ []) : p + needle.length ≤ s.length := by
  have hlen := (isPrefix_of_find h).length_le
  have hpos := List.length_pos_iff.mpr hne
  rw [List.length_drop] at hlen
  omega

/-- The text through the marker found ends with the marker. -/
theorem isSuffix_take_find {needle s : List α} {p : Nat} (h : find needle s = .pos p) :
    needle <:+ s.take (p + needle.length) := by
  obtain ⟨rest, hrest⟩ := isPrefix_of_find h
  refine ⟨s.take p, ?_⟩
  rw [List.take_add, ← hrest, List.take_left]

/-- Inside the text through the marker found, the marker occurs at its end
only. -/
theorem not_isPrefix_take_find {needle s : List α} {p q : Nat} (h : find needle s = .pos p)
    (hq : q + needle.length < (s.take (p + needle.length)).length) :
    ¬ needle <+: (s.take (p + needle.length)).drop q := by
  have hlt : q < p := by
    rw [List.length_take] at hq
    omega
  intro hpre
  refine not_isPrefix_of_lt_find h hlt (hpre.trans ?_)
  exact (List.take_prefix _ s).drop q

/-- The number of positions at which `needle` occurs. -/
def occurrences (needle : List α) : List α → Nat
  | [] => if needle = [] then 1 else 0
  | c :: cs => (if needle.isPrefixOf (c :: cs) then 1 else 0) + occurrences needle cs

theorem occurrences_eq_zero_iff {needle : List α} : ∀ {s : List α},
    occurrences needle s = 0 ↔ ¬ needle <:+: s
  | [] => by simp [occurrences]
  | c :: cs => by
    rw [occurrences, List.infix_cons_iff, not_or, Nat.add_eq_zero_iff,
      occurrences_eq_zero_iff (s := cs)]
    simp

/-- The first occurrence, and those that start behind its first character. -/
theorem occurrences_of_find {needle : List α} (hne : needle ≠ []) : ∀ {s : List α} {p : Nat},
    find needle s = .pos p → occurrences needle s = 1 + occurrences needle (s.drop (p + 1)) := by
  intro s
  induction s with
  | nil =>
    intro p h
    rw [find, if_neg hne] at h
    cases h
  | cons c cs ih =>
    intro p h
    rw [find] at h
    split at h
    · next hpre =>
      cases h
      rw [occurrences, if_pos hpre, List.drop_succ_cons, List.drop_zero]
    · next hpre =>
      cases hf : find needle cs with
      | npos => rw [hf] at h; cases h
      | pos n =>
        rw [hf] at h
        cases h
        rw [occurrences, if_neg hpre, Nat.zero_add, ih hf, List.drop_succ_cons]

/-- Where there is one occurrence at most, that is the one found. -/
theorem find_of_occurrences_le_one {needle s : List α} {q : Nat} (hne : needle ≠ [])
    (hone : occurrences needle s ≤ 1) (h : needle <+: s.drop q) : find needle s = .pos q := by
  have hinfix : needle <:+: s := h.isInfix.trans (List.drop_suffix q s).isInfix
  cases hf : find needle s with
  | npos => exact absurd hinfix (find_eq_npos_iff.mp hf)
  | pos p =>
    have hle : p ≤ q := Nat.le_of_not_lt fun hlt => not_isPrefix_of_lt_find hf hlt h
    rcases Nat.lt_or_eq_of_le hle with hlt | rfl
    · -- the other one would be a second
      have hlater : needle <:+: s.drop (p + 1) := by
        have hdrop : s.drop q = (s.drop (p + 1)).drop (q - (p + 1)) := by
          rw [List.drop_drop, Nat.add_sub_cancel' hlt]
        exact (hdrop ▸ h).isInfix.trans (List.drop_suffix _ _).isInfix
      have hsum := occurrences_of_find hne hf
      have hzero : occurrences needle (s.drop (p + 1)) = 0 := by omega
      exact absurd hlater (occurrences_eq_zero_iff.mp hzero)
    · rfl

/-- Appending loses no occurrence. -/
theorem occurrences_append_le {needle : List α} (hne : needle ≠ []) (s t : List α) :
    occurrences needle s + occurrences needle t ≤ occurrences needle (s ++ t) := by
  induction s with
  | nil => simp [occurrences, hne]
  | cons c cs ih =>
    rw [List.cons_append, occurrences, occurrences]
    by_cases hpre : needle <+: c :: cs
    · have happend : needle <+: c :: (cs ++ t) := hpre.trans (List.prefix_append (c :: cs) t)
      rw [if_pos (List.isPrefixOf_iff_prefix.mpr hpre),
        if_pos (List.isPrefixOf_iff_prefix.mpr happend)]
      omega
    · rw [if_neg fun h => hpre (List.isPrefixOf_iff_prefix.mp h)]
      omega

/-- Deleting what does not belong to `needle` loses no occurrence. -/
theorem occurrences_filter_le {needle : List α} (hne : needle ≠ []) {p : α → Bool}
    (hneedle : ∀ c ∈ needle, p c = true) (s : List α) :
    occurrences needle s ≤ occurrences needle (s.filter p) := by
  induction s with
  | nil => exact Nat.le_refl _
  | cons c cs ih =>
    rw [occurrences]
    by_cases hpre : needle <+: c :: cs
    · have hc : p c = true := by
        obtain ⟨d, rest, rfl⟩ := List.exists_cons_of_ne_nil hne
        rw [List.cons_prefix_cons] at hpre
        exact hpre.1 ▸ hneedle d List.mem_cons_self
      have hkeep := hpre.filter p
      rw [List.filter_eq_self.mpr hneedle, List.filter_cons_of_pos hc] at hkeep
      rw [if_pos (List.isPrefixOf_iff_prefix.mpr hpre), List.filter_cons_of_pos hc, occurrences,
        if_pos (List.isPrefixOf_iff_prefix.mpr hkeep)]
      omega
    · rw [if_neg fun h => hpre (List.isPrefixOf_iff_prefix.mp h), Nat.zero_add]
      by_cases hc : p c = true
      · rw [List.filter_cons_of_pos hc, occurrences]
        omega
      · rw [List.filter_cons_of_neg hc]
        exact ih

end Find

/-! ## `boost::replace_all` and `boost::erase_head` -/

/-- `boost::replace_all(s, c, by)` for a pattern of one character. -/
def replaceAll (s : List UInt8) (c : UInt8) (by' : List UInt8) : List UInt8 :=
  s.flatMap fun b => if b = c then by' else [b]

/-- Deleting a character that does not occur changes nothing. -/
theorem filter_ne_of_not_mem {α : Type*} [DecidableEq α] {s : List α} {c : α} (h : c ∉ s) :
    s.filter (· ≠ c) = s := by
  rw [List.filter_eq_self]
  intro b hb
  simpa using fun heq : b = c => h (heq ▸ hb)

/-- Replacing a character by nothing deletes it. -/
theorem replaceAll_nil (s : List UInt8) (c : UInt8) :
    replaceAll s c [] = s.filter (· ≠ c) := by
  induction s with
  | nil => rfl
  | cons b s ih =>
    rw [replaceAll, List.flatMap_cons, ← replaceAll, ih]
    by_cases h : b = c <;> simp [h]

/-- Replacing a character by one other maps the text. -/
theorem replaceAll_singleton (s : List UInt8) (c d : UInt8) :
    replaceAll s c [d] = s.map fun b => if b = c then d else b := by
  induction s with
  | nil => rfl
  | cons b s ih =>
    rw [replaceAll, List.flatMap_cons, ← replaceAll, ih]
    by_cases h : b = c <;> simp [h]

/-! ## The C library -/

/-- A `char` array read as a C string: up to its first NUL. -/
def cstr (s : List UInt8) : List UInt8 := s.takeWhile (· ≠ 0)

/-- `strspn(s, accept)` -/
def strspn (s accept : List UInt8) : Nat :=
  ((cstr s).takeWhile (· ∈ cstr accept)).length

/-- What stands behind the terminating NUL does not count. -/
theorem cstr_append_nul (s rest : List UInt8) : cstr (s ++ 0 :: rest) = cstr s := by
  induction s with
  | nil => rfl
  | cons b s ih =>
    by_cases h : b = 0
    · simp [cstr, h]
    · simpa [cstr, h] using ih

/-- Without a NUL all of the array is the string. -/
theorem cstr_of_not_mem {s : List UInt8} (h : 0 ∉ s) : cstr s = s := by
  rw [cstr, List.takeWhile_eq_self_iff]
  intro b hb
  simpa using fun hz : b = 0 => h (hz ▸ hb)

/-- `strspn` spans all of `s` exactly when every byte of `s` is accepted. -/
theorem strspn_eq_length_iff (s accept : List UInt8) :
    strspn s accept = (cstr s).length ↔ ∀ b ∈ cstr s, b ∈ cstr accept := by
  unfold strspn
  constructor
  · intro h b hb
    have hall := (List.takeWhile_prefix (p := (· ∈ cstr accept))
      (l := cstr s)).eq_of_length h
    rw [← hall] at hb
    simpa using List.mem_takeWhile_imp hb
  · intro h
    rw [List.takeWhile_eq_self_iff.mpr (by simpa using h)]

theorem strspn_le (s accept : List UInt8) : strspn s accept ≤ (cstr s).length :=
  (List.takeWhile_prefix _).length_le

end CarPi.Foundation
