/-
CarPi.Obd2.RecognitionTheorems — what a reply is taken for: a NO DATA
message, or data.

Both are characterised for every call whose reads come to a prompt in time.
The reply is what it reads in front of the first prompt (`before`); what the
same read holds behind that prompt (`behind`) is stored too, and the tests
see the whole of it (`text_eq_before_behind`).

* `recognisesNoData_iff`: the test is `strspn("NODATA", totalReply) == 6`,
  with the two arguments the wrong way round for a search. It asks whether
  every LETTER of the word occurs in the text, up to its first NUL. It has
  false alarms (the letters in any order), and misses only reports behind a
  NUL (`noData_of_saysNoData`).
* `reportsOnlyHex_iff`: nothing in `sendObdRequest` looks whether a byte is a
  hex digit. `byteArrayToByte` takes the letters up to `Z` (90, where `F` is
  70) for upper case digits and every other byte for a lower case one. A text
  that is not hex is turned down only where it fires the NO DATA test.

A text that does not fit into `totalReply` ensures nothing.
-/
import CarPi.Obd2.HexTheorems
import CarPi.Obd2.ReplyTheorems

namespace CarPi.Obd2

open CarPi.Foundation

/-! ## A call that comes to a prompt -/

namespace PortBehaviour

/-- The reply: what the call reads in front of the first prompt. -/
def before (port : PortBehaviour) (sleeptime timeout : Int) : List UInt8 :=
  (bytesRead sleeptime timeout port.start port.turns).takeWhile (· ≠ prompt)

/-- What the reads of the call hold behind the first prompt. -/
def behind (port : PortBehaviour) (sleeptime timeout : Int) : List UInt8 :=
  withoutPrompts ((bytesRead sleeptime timeout port.start port.turns).dropWhile (· ≠ prompt))

theorem text_eq_before_behind (port : PortBehaviour) (sleeptime timeout : Int) :
    port.text sleeptime timeout
      = port.before sleeptime timeout ++ port.behind sleeptime timeout := by
  have hbefore : prompt ∉ port.before sleeptime timeout := by
    intro h
    simpa using List.mem_takeWhile_imp h
  calc port.text sleeptime timeout
      = withoutPrompts (port.before sleeptime timeout
          ++ (bytesRead sleeptime timeout port.start port.turns).dropWhile (· ≠ prompt)) := by
        rw [before, List.takeWhile_append_dropWhile]; rfl
    _ = port.before sleeptime timeout ++ port.behind sleeptime timeout := by
        rw [withoutPrompts_append, withoutPrompts_of_not_mem hbefore, behind]

end PortBehaviour

section Prompted

variable {port : PortBehaviour} {sleeptime timeout : Int}

/-- The test for NO DATA, letter by letter. -/
theorem noData_iff (reply : List UInt8) : NoData reply ↔ ∀ c ∈ nodataWord, c ∈ cstr reply :=
  strspn_eq_length_iff nodataWord reply

/-! ## NO DATA -/

/-- The reply without spaces, line ends and NUL bytes holds the word. -/
def SaysNoData (reply : List UInt8) : Prop :=
  nodataWord <:+: reply.filter fun b => !isSeparator b && b ≠ 0

instance (reply : List UInt8) : Decidable (SaysNoData reply) :=
  inferInstanceAs (Decidable (nodataWord <:+: _))

/-- No report is missed in a reply without NUL bytes. -/
theorem noData_of_saysNoData {reply : List UInt8} (hnul : 0 ∉ reply) (h : SaysNoData reply) :
    NoData reply := by
  rw [noData_iff, cstr_of_not_mem hnul]
  intro c hc
  exact (List.mem_filter.mp (h.subset hc)).1

/-- NO DATA is recognised: such a reply, and no other, makes the call return
`false` with that error, and every other one is returned with `true`. -/
def RecognisesNoData (lib : LibObd2) (port : PortBehaviour) (req : List UInt8)
    (sleeptime timeout : Int) : Prop :=
  ((∃ a, sendObdRequestString lib port req sleeptime timeout = .returned a ∧
      a.ok = false ∧ a.lib.lastError = .nodata) ↔ SaysNoData (port.before sleeptime timeout)) ∧
    (¬ SaysNoData (port.before sleeptime timeout) →
      ∃ a, sendObdRequestString lib port req sleeptime timeout = .returned a ∧
        a.ok = true ∧ a.reply = port.before sleeptime timeout)

/-- **NO DATA is recognised exactly when the text fits and the letters of the
word tell it: all of them occur where the reply says NO DATA; one is missing,
and nothing stands behind the prompt, where it does not.** -/
theorem recognisesNoData_iff (lib : LibObd2) (port : PortBehaviour) (req : List UInt8)
    (sleeptime timeout : Int) (hsleep : 0 ≤ sleeptime)
    (hend : port.ending sleeptime timeout = some .prompted) :
    RecognisesNoData lib port req sleeptime timeout ↔
      (port.text sleeptime timeout).length < replySize ∧
        if SaysNoData (port.before sleeptime timeout) then
          ∀ c ∈ nodataWord, c ∈ cstr (port.text sleeptime timeout)
        else
          (∃ c ∈ nodataWord, c ∉ cstr (port.text sleeptime timeout)) ∧
            port.behind sleeptime timeout = [] := by
  have hcall := sendObdRequestString_prompted hsleep hend lib req
  have hmissing : (∃ c ∈ nodataWord, c ∉ cstr (port.text sleeptime timeout)) ↔
      ¬ NoData (port.text sleeptime timeout) := by
    simp [noData_iff]
  have hself : port.text sleeptime timeout = port.before sleeptime timeout ↔
      port.behind sleeptime timeout = [] := by
    rw [PortBehaviour.text_eq_before_behind]
    exact List.append_right_eq_self
  rw [hmissing, ← noData_iff, ← hself, RecognisesNoData, hcall]
  by_cases hfits : (port.text sleeptime timeout).length < replySize
  · by_cases hsays : SaysNoData (port.before sleeptime timeout) <;>
      by_cases hnodata : NoData (port.text sleeptime timeout) <;>
      simp [hfits, answerFor, hsays, hnodata, LibObd2.fail, LibObd2.lastError]
  · by_cases hsays : SaysNoData (port.before sleeptime timeout) <;> simp [hfits, hsays]

/-- "NO DATA\r" is recognised. -/
theorem noData_recognised :
    RecognisesNoData .new
      (inReads [⟨[78, 79, 32, 68, 65, 84, 65, 13, prompt], by decide⟩]) [] 20 3 :=
  (recognisesNoData_iff .new _ [] 20 3 (by decide) (by decide)).mpr
    ⟨by decide, by rw [if_pos (by decide)]; exact (noData_iff _).mp (by decide)⟩

/-- The reply to a query for the protocol, with the echo on: "ATDP\rAUTO, ISO
15765-4 (CAN 11/500)" holds every letter of the word. -/
theorem protocol_taken_for_noData :
    ¬ ∀ (lib : LibObd2) (port : PortBehaviour) (req : List UInt8) (sleeptime timeout : Int),
        0 ≤ sleeptime → 0 < timeout → port.ending sleeptime timeout = some .prompted →
        RecognisesNoData lib port req sleeptime timeout := by
  intro h
  let reply := bytes "ATDP\rAUTO, ISO 15765-4 (CAN 11/500)".toList
  let port := inReads [⟨reply ++ [prompt], by decide⟩]
  have hcall : sendObdRequestString .new port [] 20 3
      = .returned ⟨⟨.nodata⟩, false, reply⟩ := by decide
  have hreported := (h .new port [] 20 3 (by decide) (by decide) (by decide)).1.mp
    ⟨_, hcall, rfl, rfl⟩
  exact absurd hreported (by decide)

/-! ## Data -/

/-- The text writes some bytes in hex. -/
def IsHex (text : List UInt8) : Prop := ∃ bs, HexText isSeparator bs text

theorem decodeReply_append {text : List UInt8} (h : IsHex text) (rest : List UInt8) :
    decodeReply (text ++ rest) = decodeReply text ++ decodeReply rest := by
  obtain ⟨bs, h⟩ := h
  simp only [decodeReply_eq]
  rw [pairs_append_of_hexText (fun _ => isSeparator_of_digit) h, List.map_append]

/-- Decoding a text gives what its front writes, if what is left writes no
byte. -/
theorem hexText_decodeReply_iff (front rest : List UInt8) :
    HexText isSeparator (decodeReply (front ++ rest)) front ↔
      IsHex front ∧ pairs isSeparator rest = [] := by
  have hrest : pairs isSeparator rest = [] ↔ decodeReply rest = [] := by
    rw [decodeReply_eq, List.map_eq_nil_iff]
  rw [hrest]
  constructor
  · intro h
    have happend := decodeReply_append ⟨_, h⟩ rest
    rw [← decodeReply_of_hexText h] at happend
    exact ⟨⟨_, h⟩, List.self_eq_append_right.mp happend⟩
  · rintro ⟨hhex, hnil⟩
    obtain ⟨bs, h⟩ := hhex
    rw [decodeReply_append ⟨bs, h⟩, hnil, List.append_nil, decodeReply_of_hexText h]
    exact h

theorem sendObdRequest_prompted (hsleep : 0 ≤ sleeptime)
    (hend : port.ending sleeptime timeout = some .prompted) (lib : LibObd2) (req : List UInt8) :
    sendObdRequest lib port req sleeptime timeout =
      if (port.text sleeptime timeout).length < replySize then
        .returned
          (if NoData (port.text sleeptime timeout) then ⟨lib.fail .nodata, false, []⟩
          else if port.text sleeptime timeout = [] then ⟨lib, false, []⟩
          else ⟨lib, true, decodeReply (port.text sleeptime timeout)⟩)
      else .overrun replySize := by
  rw [sendObdRequest, sendObdRequestString_prompted hsleep hend]
  by_cases hfits : (port.text sleeptime timeout).length < replySize
  · by_cases hnodata : NoData (port.text sleeptime timeout) <;>
      by_cases hempty : port.text sleeptime timeout = [] <;>
      simp_all [Outcome.map, answerFor]
  · simp [hfits, Outcome.map]

/-- Only hex is reported as data: a request returns `true` only with the bytes
its reply writes, and `false` if it writes none. -/
def ReportsOnlyHex (lib : LibObd2) (port : PortBehaviour) (req : List UInt8)
    (sleep timeout : Int) : Prop :=
  ((sendObdRequest lib port req sleep timeout).Ensures fun a => a.ok = true →
      HexText isSeparator a.reply (port.before sleep timeout)) ∧
    (¬ IsHex (port.before sleep timeout) →
      ∃ a, sendObdRequest lib port req sleep timeout = .returned a ∧ a.ok = false)

/-- **Only hex is reported as data exactly when the text fits, a hex reply has only
separators behind its prompt, the very last byte apart, and any other reply fires the
NO DATA test.** -/
theorem reportsOnlyHex_iff (lib : LibObd2) (port : PortBehaviour) (req : List UInt8)
    (sleep timeout : Int) (hsleep : 0 ≤ sleep)
    (hend : port.ending sleep timeout = some .prompted) :
    ReportsOnlyHex lib port req sleep timeout ↔
      (port.text sleep timeout).length < replySize ∧
      (IsHex (port.before sleep timeout) → ¬ NoData (port.text sleep timeout) →
        ∀ b ∈ (port.behind sleep timeout).dropLast, b = 0x20 ∨ b = 0x0D ∨ b = 0x0A) ∧
      (¬ IsHex (port.before sleep timeout) → NoData (port.text sleep timeout)) := by
  have hcall := sendObdRequest_prompted hsleep hend lib req
  have htext := port.text_eq_before_behind sleep timeout
  have hbehind : (∀ b ∈ (port.behind sleep timeout).dropLast, b = 0x20 ∨ b = 0x0D ∨ b = 0x0A) ↔
      pairs isSeparator (port.behind sleep timeout) = [] := by
    simp only [pairs_eq_nil_iff, isSeparator_iff]
  rw [ReportsOnlyHex, hbehind]
  by_cases hfits : (port.text sleep timeout).length < replySize
  · rw [if_pos hfits] at hcall
    by_cases hnodata : NoData (port.text sleep timeout)
    · simp [hcall, hfits, hnodata]
    · rw [if_neg hnodata] at hcall
      by_cases hempty : port.text sleep timeout = []
      · -- an empty text is hex, and is turned down
        rw [if_pos hempty] at hcall
        rw [hempty, eq_comm, List.append_eq_nil_iff] at htext
        have hhex : IsHex (port.before sleep timeout) := htext.1 ▸ ⟨[], .nil⟩
        simp [hcall, hfits, hhex, htext.2, pairs]
      · rw [if_neg hempty] at hcall
        have hdecode := hexText_decodeReply_iff (port.before sleep timeout)
          (port.behind sleep timeout)
        rw [← htext] at hdecode
        rw [hcall, Outcome.ensures_returned]
        constructor
        · rintro ⟨hdata, _⟩
          obtain ⟨hhex, hnil⟩ := hdecode.mp (hdata rfl)
          exact ⟨hfits, fun _ _ => hnil, fun hnot => absurd hhex hnot⟩
        · rintro ⟨_, hnil, hother⟩
          have hhex : IsHex (port.before sleep timeout) :=
            not_not.mp fun hnot => hnodata (hother hnot)
          exact ⟨fun _ => hdecode.mpr ⟨hhex, hnil hhex hnodata⟩, fun hnot => absurd hhex hnot⟩
  · simp [hcall, hfits]

/-- "41 0C\r" is reported as data. -/
theorem hex_reported :
    ReportsOnlyHex .new (inReads [⟨[52, 49, 32, 48, 67, 13, prompt], by decide⟩]) [] 100 5 := by
  refine (reportsOnlyHex_iff .new _ [] 100 5 (by decide) (by decide)).mpr ⟨by decide, ?_, ?_⟩
  · intro _ _ b hb
    -- nothing is behind the prompt
    have hbehind : (inReads [⟨[52, 49, 32, 48, 67, 13, prompt], by decide⟩]).behind 100 5 = [] :=
      rfl
    rw [hbehind] at hb
    cases hb
  · exact fun h => absurd ⟨[65, 12], .pair (Or.inl rfl) (Or.inl rfl)
      (.separator rfl (.pair (Or.inl rfl) (Or.inl rfl) (.separator rfl .nil)))⟩ h

/-- The adapter's "STOPPED" is reported as the bytes 221, 153, 158 and 134. -/
theorem stopped_taken_for_data :
    ¬ ∀ (lib : LibObd2) (port : PortBehaviour) (req : List UInt8) (sleep timeout : Int),
        0 ≤ sleep → 0 < timeout → port.ending sleep timeout = some .prompted →
        ReportsOnlyHex lib port req sleep timeout := by
  intro h
  let port := inReads [⟨bytes "STOPPED\r>".toList, by decide⟩]
  have hcall : sendObdRequest .new port [] 100 5 = .returned ⟨.new, true, [221, 153, 158, 134]⟩ := by
    decide
  have hresult := (h .new port [] 100 5 (by decide) (by decide) (by decide)).1
  rw [hcall] at hresult
  have hhex := hresult rfl
  exact absurd (by decide) (not_mem_of_hexText hhex (c := 83) (by decide) (by decide))

end Prompted

end CarPi.Obd2
