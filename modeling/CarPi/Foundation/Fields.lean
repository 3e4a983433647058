/-
CarPi.Foundation.Fields — registers divided into fields of equal width, and
the read, mask and write back that changes one of them.

`setBits` is the masked update of a word. A table of words with `m` fields to
the word is read by `fieldAt` and changed by `setFieldAt`, and then behaves like a table
of fields: `fieldAt_setFieldAt` for one update, `fieldAt_foldl` for a run of them.

Nothing here mentions the repository.
-/
import Mathlib.Data.List.Induction
import Mathlib.Logic.Function.Basic
import Mathlib.Order.Basic
import Mathlib.Tactic.Common

namespace CarPi.Foundation

variable {w k : Nat}

/-! ## One word -/

/-- The bits of `value` where the mask is set, the others as they were. -/
def setBits (v value mask : BitVec w) : BitVec w := (v &&& ~~~mask) ||| (value &&& mask)

theorem getLsbD_setBits (v value mask : BitVec w) (i : Nat) :
    (setBits v value mask).getLsbD i = if mask.getLsbD i then value.getLsbD i else v.getLsbD i := by
  by_cases hi : i < w
  · rw [setBits, BitVec.getLsbD_or, BitVec.getLsbD_and, BitVec.getLsbD_and, BitVec.getLsbD_not]
    cases mask.getLsbD i <;> simp [hi]
  · simp [BitVec.getLsbD_of_ge _ _ (Nat.le_of_not_lt hi)]

theorem setBits_zero (v value : BitVec w) : setBits v value 0 = v := by
  simp [setBits]

theorem setBits_allOnes (v value : BitVec w) : setBits v value (BitVec.allOnes w) = value := by
  simp [setBits]

/-- Field `i` of a word of fields that are `k` bits wide. -/
def field (k : Nat) (v : BitVec w) (i : Nat) : BitVec k := v.extractLsb' (k * i) k

/-- The mask of field `i`. -/
def fieldMask (w k i : Nat) : BitVec w := (BitVec.allOnes k).setWidth w <<< (k * i)

def setField (v : BitVec w) (i : Nat) (x : BitVec k) : BitVec w :=
  setBits v (x.setWidth w <<< (k * i)) (fieldMask w k i)

theorem getLsbD_field (v : BitVec w) (i j : Nat) :
    (field k v i).getLsbD j = (decide (j < k) && v.getLsbD (k * i + j)) := by
  rw [field, BitVec.getLsbD_extractLsb']

/-- A masked update of a word is one of each of its fields. -/
theorem field_setBits (v value mask : BitVec w) (i : Nat) :
    field k (setBits v value mask) i = setBits (field k v i) (field k value i) (field k mask i) := by
  apply BitVec.eq_of_getLsbD_eq
  intro j hj
  simp only [getLsbD_field, getLsbD_setBits, hj, decide_true, Bool.true_and]

theorem getLsbD_fieldMask (i j : Nat) :
    (fieldMask w k i).getLsbD j = decide (j < w ∧ k * i ≤ j ∧ j < k * i + k) := by
  rw [fieldMask, BitVec.getLsbD_shiftLeft, BitVec.getLsbD_setWidth, BitVec.getLsbD_allOnes,
    Bool.eq_iff_iff]
  simp only [Bool.and_eq_true, decide_eq_true_eq, Bool.not_eq_true', decide_eq_false_iff_not]
  omega

theorem field_setField_self {v : BitVec w} {i : Nat} {x : BitVec k} (hfits : k * i + k ≤ w) :
    field k (setField v i x) i = x := by
  apply BitVec.eq_of_getLsbD_eq
  intro j hj
  have hmask : (fieldMask w k i).getLsbD (k * i + j) = true := by
    rw [getLsbD_fieldMask]
    simp only [decide_eq_true_eq]
    omega
  have hlt : k * i + j < w := by omega
  rw [getLsbD_field, setField, getLsbD_setBits, hmask]
  simp [hj, hlt]

/-- The fields of a word do not overlap. -/
theorem field_setField_of_ne {v : BitVec w} {i q : Nat} {x : BitVec k} (hne : q ≠ i) :
    field k (setField v i x) q = field k v q := by
  apply BitVec.eq_of_getLsbD_eq
  intro j hj
  have hmask : (fieldMask w k i).getLsbD (k * q + j) = false := by
    rw [getLsbD_fieldMask]
    simp only [decide_eq_false_iff_not, not_and]
    intro _ hle
    -- the field above or the field below
    rcases Nat.lt_or_gt_of_ne hne with hlt | hlt
    · have hmul := Nat.mul_le_mul_left k (Nat.succ_le_of_lt hlt)
      rw [Nat.mul_succ] at hmul
      omega
    · have hmul := Nat.mul_le_mul_left k (Nat.succ_le_of_lt hlt)
      rw [Nat.mul_succ] at hmul
      omega
  rw [getLsbD_field, getLsbD_field, setField, getLsbD_setBits, hmask]
  rfl

/-! ## A table of words -/

/-- Field `n` of a table with `m` fields to the word. -/
def fieldAt (k m : Nat) (words : Nat → BitVec w) (n : Nat) : BitVec k :=
  field k (words (n / m)) (n % m)

def setFieldAt (m : Nat) (words : Nat → BitVec w) (n : Nat) (x : BitVec k) : Nat → BitVec w :=
  Function.update words (n / m) (setField (words (n / m)) (n % m) x)

/-- **A table of words is a table of fields.** -/
theorem fieldAt_setFieldAt {m : Nat} (hm : 0 < m) (hfits : k * m ≤ w) (words : Nat → BitVec w)
    (n q : Nat) (x : BitVec k) :
    fieldAt k m (setFieldAt m words n x) q = if q = n then x else fieldAt k m words q := by
  have hroom : ∀ i < m, k * i + k ≤ w := by
    intro i hi
    have hmul := Nat.mul_le_mul_left k (Nat.succ_le_of_lt hi)
    rw [Nat.mul_succ] at hmul
    omega
  unfold fieldAt setFieldAt
  by_cases hword : q / m = n / m
  · rw [hword, Function.update_self]
    by_cases hfield : q % m = n % m
    · have heq : q = n := by
        rw [← Nat.div_add_mod q m, ← Nat.div_add_mod n m, hword, hfield]
      rw [hfield, field_setField_self (hroom _ (Nat.mod_lt _ hm)), if_pos heq]
    · have hne : q ≠ n := fun heq => hfield (heq ▸ rfl)
      rw [field_setField_of_ne hfield, if_neg hne]
  · have hne : q ≠ n := fun heq => hword (heq ▸ rfl)
    rw [Function.update_of_ne hword, if_neg hne]

/-- The value of the last update of `q`. -/
def lastFor {α : Type} (q : Nat) (updates : List (Nat × α)) : Option α :=
  updates.foldl (fun last update => if q = update.1 then some update.2 else last) none

theorem lastFor_concat {α : Type} (q n : Nat) (x : α) (updates : List (Nat × α)) :
    lastFor q (updates ++ [(n, x)]) = if q = n then some x else lastFor q updates := by
  simp [lastFor, List.foldl_append]

theorem mem_of_lastFor {α : Type} {q : Nat} {x : α} {updates : List (Nat × α)}
    (h : lastFor q updates = some x) : (q, x) ∈ updates := by
  induction updates using List.reverseRecOn with
  | nil => cases h
  | append_singleton updates update ih =>
    obtain ⟨n, y⟩ := update
    rw [lastFor_concat] at h
    split at h
    · next heq =>
      obtain rfl := Option.some.inj h
      simp [heq]
    · exact List.mem_append_left _ (ih h)

theorem lastFor_eq_none_iff {α : Type} {q : Nat} {updates : List (Nat × α)} :
    lastFor q updates = none ↔ ∀ update ∈ updates, update.1 ≠ q := by
  induction updates using List.reverseRecOn with
  | nil => simp [lastFor]
  | append_singleton updates update ih =>
    obtain ⟨n, y⟩ := update
    rw [lastFor_concat]
    by_cases heq : q = n
    · simp [heq]
    · simp [heq, ih, or_imp, forall_and, Ne.symm heq]

/-- **Behind any run of updates each field holds the last one made of it**, or what it
held before. -/
theorem fieldAt_foldl {m : Nat} (hm : 0 < m) (hfits : k * m ≤ w)
    (updates : List (Nat × BitVec k)) (words : Nat → BitVec w) (q : Nat) :
    fieldAt k m (updates.foldl (fun ws update => setFieldAt m ws update.1 update.2) words) q =
      (lastFor q updates).getD (fieldAt k m words q) := by
  induction updates using List.reverseRecOn with
  | nil => rfl
  | append_singleton updates update ih =>
    rw [List.foldl_append, List.foldl_cons, List.foldl_nil, fieldAt_setFieldAt hm hfits, ih,
      lastFor_concat]
    split <;> rfl

end CarPi.Foundation
