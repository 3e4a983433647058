/-
CarPi.ArduPi.Int2bin — `SerialPi::int2bin`, which `print` and `println` use for
`BIN`, and what the text it makes says.

The first loop fills `str` from its end and leaves `bits` at the greatest `size_t`, so the
bound of the second is no bound; the byte behind the digits ends it. The
copy that is returned has a cell more than it has digits, and nothing is written to
it, although `print` looks for its end with `strlen`.

A cell that is not written is `none`.
-/
import Mathlib.Data.List.Basic
import Mathlib.Tactic.Common
import Mathlib.Tactic.Ring

namespace CarPi.ArduPi

/-! ## The function -/

/-- The terminator. -/
def NUL : Char := Char.ofNat 0

/-- The loop that fills `str`, with `bits` cells to go. -/
def fillBits : Nat → BitVec 32 → List Char → List Char
  | 0, _, str => str
  | bits + 1, u, str => fillBits bits (u >>> 1) ((if u &&& 1 ≠ 0 then '1' else '0') :: str)

/-- The loop over the zeros that come first. -/
def firstCeros : List Char → Nat
  | [] => 0
  | c :: str => if c = '0' then firstCeros str + 1 else 0

/-- The cells of `str_noceros`. -/
def int2bin (i : BitVec 32) : List (Option Char) :=
  let str := fillBits 32 i [] ++ [NUL]
  let ceros := firstCeros str
  ((str.drop ceros).take (32 - ceros)).map some ++ [none]

/-! ## What it says -/

/-- A text of binary digits, read. -/
def binaryValue : List Char → Nat
  | [] => 0
  | c :: str => (if c = '1' then 1 else 0) * 2 ^ str.length + binaryValue str

def IsBinary (str : List Char) : Prop := ∀ c ∈ str, c = '0' ∨ c = '1'

theorem lowBit_eq (u : BitVec 32) : (if u &&& 1 ≠ 0 then 1 else 0) = u.toNat % 2 := by
  have hand : (u &&& 1).toNat = u.toNat % 2 := by
    rw [BitVec.toNat_and]
    exact Nat.and_one_is_mod u.toNat
  by_cases h : u &&& 1 = 0
  · rw [if_neg (not_not.mpr h), ← hand, h]
    rfl
  · have hne : (u &&& 1).toNat ≠ 0 := fun hzero => h (BitVec.eq_of_toNat_eq hzero)
    rw [if_pos h]
    omega

/-- The loop writes the number in front of what is there. -/
theorem binaryValue_fillBits (bits : Nat) (u : BitVec 32) (str : List Char) :
    binaryValue (fillBits bits u str) =
      u.toNat % 2 ^ bits * 2 ^ str.length + binaryValue str := by
  induction bits generalizing u str with
  | zero => simp [fillBits, Nat.mod_one]
  | succ bits ih =>
    have hdigit : (if (if u &&& 1 ≠ 0 then '1' else '0') = '1' then 1 else 0) = u.toNat % 2 := by
      rw [← lowBit_eq]
      split <;> rfl
    have hshift : (u >>> 1).toNat = u.toNat / 2 := by
      rw [BitVec.toNat_ushiftRight, Nat.shiftRight_one]
    rw [fillBits, ih, binaryValue, hdigit, hshift, List.length_cons, Nat.pow_succ 2 bits,
      Nat.mul_comm (2 ^ bits) 2, Nat.mod_mul]
    ring

theorem fillBits_spec (bits : Nat) (u : BitVec 32) {str : List Char} (h : IsBinary str) :
    IsBinary (fillBits bits u str) ∧ (fillBits bits u str).length = bits + str.length := by
  induction bits generalizing u str with
  | zero => exact ⟨h, by simp [fillBits]⟩
  | succ bits ih =>
    have hcons : IsBinary ((if u &&& 1 ≠ 0 then '1' else '0') :: str) := by
      intro c hc
      rcases List.mem_cons.mp hc with rfl | hc
      · split <;> simp
      · exact h c hc
    obtain ⟨hbinary, hlen⟩ := ih (u >>> 1) hcons
    refine ⟨hbinary, ?_⟩
    rw [fillBits, hlen, List.length_cons]
    omega

/-- The byte behind the digits ends the second loop. -/
theorem firstCeros_append_NUL (str : List Char) : firstCeros (str ++ [NUL]) = firstCeros str := by
  induction str with
  | nil => decide
  | cons c str ih =>
    rw [List.cons_append, firstCeros, firstCeros, ih]

theorem firstCeros_le (str : List Char) : firstCeros str ≤ str.length := by
  induction str with
  | nil => rfl
  | cons c str ih =>
    rw [firstCeros, List.length_cons]
    split <;> omega

/-- Without its first zeros a text says the same, and begins with none. -/
theorem drop_firstCeros (str : List Char) :
    binaryValue (str.drop (firstCeros str)) = binaryValue str ∧
      (str.drop (firstCeros str)).head? ≠ some '0' := by
  induction str with
  | nil => simp [firstCeros]
  | cons c str ih =>
    rw [firstCeros]
    split
    · next hzero =>
      subst hzero
      simpa [binaryValue] using ih
    · next hne => simp [hne]

/-- A text that does not begin with a zero says zero only if it is empty. -/
theorem binaryValue_pos {str : List Char} (hbinary : IsBinary str) (hne : str ≠ [])
    (hhead : str.head? ≠ some '0') : 0 < binaryValue str := by
  cases str with
  | nil => exact absurd rfl hne
  | cons c str =>
    have hone : c = '1' := by
      rcases hbinary c List.mem_cons_self with rfl | rfl
      · exact absurd rfl hhead
      · rfl
    have hpow : 0 < 2 ^ str.length := Nat.two_pow_pos _
    rw [binaryValue, if_pos hone]
    omega

/-- **`int2bin` writes the binary digits of the argument taken as unsigned, without a zero in
front**: none at all for zero. The cell behind them is left as it was. -/
theorem int2bin_digits (i : BitVec 32) :
    ∃ digits, int2bin i = digits.map some ++ [none] ∧ IsBinary digits ∧
      binaryValue digits = i.toNat ∧ digits.head? ≠ some '0' ∧ (digits = [] ↔ i = 0) := by
  have hempty : IsBinary [] := by simp [IsBinary]
  obtain ⟨hbinary, hlen⟩ := fillBits_spec 32 i hempty
  have hvalue : binaryValue (fillBits 32 i []) = i.toNat := by
    rw [binaryValue_fillBits, Nat.mod_eq_of_lt i.isLt]
    simp [binaryValue]
  obtain ⟨hdrop, hhead⟩ := drop_firstCeros (fillBits 32 i [])
  have hle := firstCeros_le (fillBits 32 i [])
  refine ⟨(fillBits 32 i []).drop (firstCeros (fillBits 32 i [])), ?_, ?_, hdrop.trans hvalue,
    hhead, ?_⟩
  · rw [List.length_nil] at hlen
    rw [int2bin, firstCeros_append_NUL, List.drop_append_of_le_length hle,
      List.take_left' (by rw [List.length_drop]; omega)]
  · intro c hc
    exact hbinary c (List.mem_of_mem_drop hc)
  · constructor
    · intro hnil
      rw [hnil, hvalue] at hdrop
      exact BitVec.eq_of_toNat_eq hdrop.symm
    · rintro rfl
      by_contra hne
      have hpos := binaryValue_pos (fun c hc => hbinary c (List.mem_of_mem_drop hc)) hne hhead
      rw [hdrop, hvalue] at hpos
      exact absurd hpos (by decide)

end CarPi.ArduPi
