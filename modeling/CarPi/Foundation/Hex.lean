/-
CarPi.Foundation.Hex — text that writes bytes in hex.

`HexText isSeparator bs text` says that `text` writes the bytes `bs` in
order, each as two digits of either case, with separators anywhere but
between the two digits of a byte. Which bytes separate is a parameter.

`pairs` takes any text apart, hex or not: at a separator it goes on by one, at
anything else it takes that byte and the one behind it. `map_pairs_of_hexText`
is the round trip, for every `value` that reads two digits.

Nothing here mentions the repository.
-/
import CarPi.Foundation.CString

namespace CarPi.Foundation

/-! ## Digits -/

def upperDigits : List UInt8 :=
  bytes ['0', '1', '2', '3', '4', '5', '6', '7', '8', '9', 'A', 'B', 'C', 'D', 'E', 'F']

def lowerDigits : List UInt8 :=
  bytes ['0', '1', '2', '3', '4', '5', '6', '7', '8', '9', 'a', 'b', 'c', 'd', 'e', 'f']

/-- `d` is the digit for `n`, in upper or lower case. -/
def HexDigit (n : Nat) (d : UInt8) : Prop :=
  upperDigits[n]? = some d ∨ lowerDigits[n]? = some d

theorem HexDigit.mem {n : Nat} {d : UInt8} (h : HexDigit n d) :
    d ∈ upperDigits ++ lowerDigits := by
  rcases h with h | h
  · exact List.mem_append_left _ (List.mem_of_getElem? h)
  · exact List.mem_append_right _ (List.mem_of_getElem? h)

/-- A function that agrees with `n` on the sixteen digits of each case agrees
on every digit. -/
theorem HexDigit.value {value : UInt8 → UInt8}
    (hupper : ∀ n < 16, upperDigits[n]?.map value = some (UInt8.ofNat n))
    (hlower : ∀ n < 16, lowerDigits[n]?.map value = some (UInt8.ofNat n))
    {n : Nat} {d : UInt8} (h : HexDigit n d) : value d = UInt8.ofNat n := by
  rcases h with h | h
  · have hn : n < 16 := (List.getElem?_eq_some_iff.mp h).1
    have hval := hupper n hn
    rw [h] at hval
    exact Option.some.inj hval
  · have hn : n < 16 := (List.getElem?_eq_some_iff.mp h).1
    have hval := hlower n hn
    rw [h] at hval
    exact Option.some.inj hval

/-- The two halves of a byte. -/
theorem byte_of_halves (b : UInt8) :
    UInt8.ofNat (b.toNat / 16) * 16 + UInt8.ofNat (b.toNat % 16) = b := by
  have hb : b.toNat < 256 := b.toNat_lt
  apply UInt8.toNat_inj.mp
  simp
  omega

/-! ## Texts -/

inductive HexText (isSeparator : UInt8 → Bool) : List UInt8 → List UInt8 → Prop where
  | nil : HexText isSeparator [] []
  | separator {s : UInt8} {bs text : List UInt8} :
      isSeparator s = true → HexText isSeparator bs text → HexText isSeparator bs (s :: text)
  | pair {d₁ d₂ b : UInt8} {bs text : List UInt8} :
      HexDigit (b.toNat / 16) d₁ → HexDigit (b.toNat % 16) d₂ →
      HexText isSeparator bs text → HexText isSeparator (b :: bs) (d₁ :: d₂ :: text)

/-- The pairs of bytes of a text, from the front. A single last byte is left
over. -/
def pairs (isSeparator : UInt8 → Bool) : List UInt8 → List (UInt8 × UInt8)
  | d₁ :: d₂ :: text =>
    if isSeparator d₁ then pairs isSeparator (d₂ :: text)
    else (d₁, d₂) :: pairs isSeparator text
  | [_] => []
  | [] => []

section

variable {isSeparator : UInt8 → Bool}

theorem pairs_separator {s : UInt8} (hs : isSeparator s = true) (text : List UInt8) :
    pairs isSeparator (s :: text) = pairs isSeparator text := by
  cases text with
  | nil => rfl
  | cons d text => rw [pairs, if_pos hs]

/-- A text without pairs holds only separators, the very last byte apart. -/
theorem pairs_eq_nil_iff : ∀ text : List UInt8,
    pairs isSeparator text = [] ↔ ∀ c ∈ text.dropLast, isSeparator c = true
  | [] => by simp [pairs]
  | [_] => by simp [pairs]
  | d₁ :: d₂ :: text => by
    rw [List.dropLast_cons_cons, List.forall_mem_cons]
    cases hd : isSeparator d₁ with
    | true =>
      rw [pairs_separator hd, pairs_eq_nil_iff (d₂ :: text)]
      simp
    | false => simp [pairs, hd]

/-- Every byte of a hex text is a separator or a digit. -/
theorem mem_of_hexText {bs text : List UInt8} (h : HexText isSeparator bs text) :
    ∀ c ∈ text, isSeparator c = true ∨ c ∈ upperDigits ++ lowerDigits := by
  induction h with
  | nil => simp
  | separator hs _ ih =>
    intro c hc
    rcases List.mem_cons.mp hc with rfl | hc
    · exact Or.inl hs
    · exact ih c hc
  | pair high low _ ih =>
    intro c hc
    rcases List.mem_cons.mp hc with rfl | hc
    · exact Or.inr high.mem
    · rcases List.mem_cons.mp hc with rfl | hc
      · exact Or.inr low.mem
      · exact ih c hc

/-- **Reading the pairs of a hex text gives the bytes it writes.** -/
theorem map_pairs_of_hexText {value : UInt8 × UInt8 → UInt8}
    (hdigit : ∀ d ∈ upperDigits ++ lowerDigits, isSeparator d = false)
    (hvalue : ∀ b d₁ d₂, HexDigit (b.toNat / 16) d₁ → HexDigit (b.toNat % 16) d₂ →
      value (d₁, d₂) = b)
    {bs text : List UInt8} (h : HexText isSeparator bs text) :
    (pairs isSeparator text).map value = bs := by
  induction h with
  | nil => rfl
  | separator hs _ ih => rw [pairs_separator hs, ih]
  | pair high low _ ih =>
    rw [pairs, hdigit _ high.mem, if_neg (by decide), List.map_cons, ih, hvalue _ _ _ high low]

/-- A hex text ends at the end of a pair, so the pairs of what follows it are
pairs of the whole. -/
theorem pairs_append_of_hexText
    (hdigit : ∀ d ∈ upperDigits ++ lowerDigits, isSeparator d = false)
    {bs text : List UInt8} (h : HexText isSeparator bs text) (rest : List UInt8) :
    pairs isSeparator (text ++ rest) = pairs isSeparator text ++ pairs isSeparator rest := by
  induction h with
  | nil => rfl
  | separator hs _ ih => rw [List.cons_append, pairs_separator hs, pairs_separator hs, ih]
  | pair high low _ ih =>
    simp only [List.cons_append, pairs, hdigit _ high.mem, Bool.false_eq_true, if_false, ih]

end

end CarPi.Foundation
