/-
CarPi.Foundation.Buffer — a `new T[capacity]` that is filled from the
front by `array[loc++] = item`.

C++ does not check the index. Here a store outside the array has no
result, so whoever stores has to say what becomes of it, and `loc` never
passes the capacity. `storeAll` is a run of stores; `storeAll_eq` says that
nothing but the length decides whether it stays inside.

Nothing here mentions the repository.
-/
import Mathlib.Data.List.Basic

namespace CarPi.Foundation

/-- The items stored so far, never more than the array holds. -/
structure Buffer (α : Type) (capacity : Nat) where
  items : List α
  fits : items.length ≤ capacity

namespace Buffer

variable {α : Type} {capacity : Nat}

@[ext] theorem ext {b c : Buffer α capacity} (h : b.items = c.items) : b = c := by
  cases b; cases c; cases h; rfl

/-- The array as allocated. -/
def empty : Buffer α capacity := ⟨[], Nat.zero_le _⟩

@[simp] theorem empty_items : (empty : Buffer α capacity).items = [] := rfl

/-- The index of the next store. -/
def loc (buf : Buffer α capacity) : Nat := buf.items.length

/-- `array[loc++] = item`, where `loc` is inside the array. -/
def store (buf : Buffer α capacity) (item : α) : Option (Buffer α capacity) :=
  if h : buf.loc < capacity then
    some ⟨buf.items ++ [item], by rw [List.length_append]; exact h⟩
  else none

/-- The only store outside the array is the one right behind it. -/
theorem loc_of_store_eq_none {buf : Buffer α capacity} {item : α}
    (h : buf.store item = none) : buf.loc = capacity := by
  have hfits : buf.loc ≤ capacity := buf.fits
  unfold store at h
  split at h
  · cases h
  · omega

/-- One store after the other. -/
def storeAll (buf : Buffer α capacity) : List α → Option (Buffer α capacity)
  | [] => some buf
  | item :: items => (buf.store item).bind fun buf => buf.storeAll items

@[simp] theorem storeAll_nil (buf : Buffer α capacity) : buf.storeAll [] = some buf := rfl

theorem storeAll_cons (buf : Buffer α capacity) (item : α) (items : List α) :
    buf.storeAll (item :: items) = (buf.store item).bind fun buf => buf.storeAll items := rfl

theorem storeAll_append (items more : List α) : ∀ buf : Buffer α capacity,
    buf.storeAll (items ++ more)
      = (buf.storeAll items).bind fun buf => buf.storeAll more := by
  induction items with
  | nil => intro buf; rfl
  | cons item items ih =>
    intro buf
    rw [List.cons_append, storeAll_cons, storeAll_cons, Option.bind_assoc]
    exact congrArg _ (funext ih)

/-- A run of stores stays inside exactly when what is stored fits. -/
theorem storeAll_eq : ∀ (items : List α) (buf : Buffer α capacity),
    buf.storeAll items =
      if h : buf.loc + items.length ≤ capacity then
        some ⟨buf.items ++ items, by rw [List.length_append]; exact h⟩
      else none
  | [], buf => by
    have hfits : buf.loc + ([] : List α).length ≤ capacity := buf.fits
    rw [dif_pos hfits, storeAll_nil]
    exact congrArg some (ext (List.append_nil _).symm)
  | item :: items, buf => by
    rw [storeAll_cons, store]
    by_cases hloc : buf.loc < capacity
    · rw [dif_pos hloc, Option.bind_some, storeAll_eq items]
      have hlen : (⟨buf.items ++ [item], by rw [List.length_append]; exact hloc⟩ :
          Buffer α capacity).loc + items.length = buf.loc + (item :: items).length := by
        simp [loc]
        omega
      simp only [hlen, List.append_assoc, List.singleton_append]
    · rw [dif_neg hloc, dif_neg, Option.bind_none]
      rw [List.length_cons]
      omega

end Buffer

end CarPi.Foundation
