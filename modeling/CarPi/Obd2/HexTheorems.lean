/-
CarPi.Obd2.HexTheorems — `sendObdRequest` undoes the hex encoding of the
adapter.

The decode loop takes the pairs of its text (`decodeReply_eq`), and
`byteArrayToByte` reads two hex digits as the byte they write
(`byteArrayToByte_of_hexDigit`). The NO DATA test wants an `N` in the
reply and a hex text has none. Whatever the cuts between reads, an answer
and its prompt arrive as that answer (`Delivers.text`).
-/
import CarPi.Foundation.Hex
import CarPi.Obd2.ReplyTheorems

namespace CarPi.Obd2

open CarPi.Foundation

/-! ## One byte -/

/-- What `byteArrayToByte` takes either digit for. -/
def digitValue (b : UInt8) : UInt8 :=
  if 48 ≤ b ∧ b ≤ 57 then b - 48
  else if 65 ≤ b ∧ b ≤ 90 then b - 55
  else b - 87

theorem byteArrayToByte_eq (b1 b2 : UInt8) :
    byteArrayToByte b1 b2 = digitValue b1 * 16 + digitValue b2 := by
  unfold byteArrayToByte digitValue
  split <;> [rfl; split <;> rfl]

theorem digitValue_of_hexDigit {n : Nat} {d : UInt8} (h : HexDigit n d) :
    digitValue d = UInt8.ofNat n :=
  h.value (by decide) (by decide)

theorem byteArrayToByte_of_hexDigit (b d₁ d₂ : UInt8) (high : HexDigit (b.toNat / 16) d₁)
    (low : HexDigit (b.toNat % 16) d₂) : byteArrayToByte d₁ d₂ = b := by
  rw [byteArrayToByte_eq, digitValue_of_hexDigit high, digitValue_of_hexDigit low]
  exact byte_of_halves b

/-! ## The decode loop -/

theorem decodeReply_eq : ∀ text : List UInt8,
    decodeReply text = (pairs isSeparator text).map fun p => byteArrayToByte p.1 p.2
  | [] => rfl
  | [_] => rfl
  | b1 :: b2 :: text => by
    rw [decodeReply, pairs]
    cases hb : isSeparator b1 with
    | true => exact decodeReply_eq (b2 :: text)
    | false => exact congrArg _ (decodeReply_eq text)

theorem isSeparator_of_digit {d : UInt8} (h : d ∈ upperDigits ++ lowerDigits) :
    isSeparator d = false := by
  rw [Bool.eq_false_iff, ne_eq, isSeparator_iff]
  rintro (rfl | rfl | rfl)
  · exact absurd h (by decide)
  · exact absurd h (by decide)
  · exact absurd h (by decide)

theorem decodeReply_of_hexText {bs text : List UInt8} (h : HexText isSeparator bs text) :
    decodeReply text = bs := by
  rw [decodeReply_eq]
  exact map_pairs_of_hexText (fun _ => isSeparator_of_digit) byteArrayToByte_of_hexDigit h

/-! ## Hex answers -/

/-- Of the bytes of a hex text none is `c`, unless `c` separates or is a
digit. -/
theorem not_mem_of_hexText {bs text : List UInt8} (h : HexText isSeparator bs text)
    {c : UInt8} (hsep : isSeparator c = false) (hdigit : c ∉ upperDigits ++ lowerDigits) :
    c ∉ text := by
  intro hc
  rcases mem_of_hexText h c hc with hs | hd
  · rw [hsep] at hs; cases hs
  · exact hdigit hd

/-- The test finds NO DATA only in a reply with an `N`. -/
theorem n_mem_of_noData {reply : List UInt8} (h : NoData reply) : 78 ∈ reply := by
  have hall := (strspn_eq_length_iff nodataWord reply).mp h
  exact (List.takeWhile_prefix _).subset (hall 78 (by decide))

theorem not_noData_of_hexText {bs text : List UInt8} (h : HexText isSeparator bs text) :
    ¬ NoData text :=
  fun hnodata => not_mem_of_hexText h (by decide) (by decide) (n_mem_of_noData hnodata)

/-- **Decoding undoes the hex encoding, whatever the separators and the cuts
between reads.** -/
theorem sendObdRequest_decodes (lib : LibObd2) (port : PortBehaviour) (req : List UInt8)
    (sleep timeout : Int) (bs text : List UInt8) (hsleep : 0 ≤ sleep) (hwait : 0 < timeout)
    (htext : HexText isSeparator bs text) (hne : text ≠ []) (hlen : text.length ≤ 1023)
    (hport : Delivers port sleep timeout (text ++ [prompt])) :
    sendObdRequest lib port req sleep timeout = .returned ⟨lib, true, bs⟩ := by
  have hprompt : prompt ∉ text := not_mem_of_hexText htext (by decide) (by decide)
  have hend := hport.ending hwait (List.mem_append_right _ List.mem_cons_self)
  have hread := hport.text hwait hprompt
  have hsize : replySize = 1024 := rfl
  have hcall : sendObdRequestString lib port req sleep timeout = .returned ⟨lib, true, text⟩ := by
    rw [sendObdRequestString_prompted hsleep hend, hread, if_pos (by omega), answerFor,
      if_neg (not_noData_of_hexText htext)]
  have hpos : text.length ≠ 0 := by simpa using hne
  rw [sendObdRequest, hcall]
  simp [Outcome.map, hpos, decodeReply_of_hexText htext]

/-- "41 0c\r" and its prompt, over three reads, one of them empty. -/
theorem sendObdRequest_decodes_speed :
    sendObdRequest .new
        (inReads [⟨[52], by decide⟩, ⟨[], by decide⟩, ⟨[49, 32, 48, 99, 13, prompt], by decide⟩])
        [] 100 5
      = .returned ⟨.new, true, [65, 12]⟩ :=
  sendObdRequest_decodes .new _ [] 100 5 [65, 12] [52, 49, 32, 48, 99, 13]
    (by decide) (by decide)
    (.pair (Or.inl rfl) (Or.inl rfl) (.separator rfl
      (.pair (Or.inl rfl) (Or.inr rfl) (.separator rfl .nil))))
    (by decide) (by decide) (inReads_delivers rfl (by decide) (by decide))

end CarPi.Obd2
