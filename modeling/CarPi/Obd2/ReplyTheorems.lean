/-
CarPi.Obd2.ReplyTheorems — the array `totalReply`, and how the reply depends
on the cuts between reads.

* `not_overrun_iff_fits`: `loc` counts over all reads of a call, while only
  one read is bounded by the size of the array. A call stays inside exactly
  when all it reads before it ends fits, and, if it ends at the prompt, the
  NUL behind it too.
* `replies_agree_iff`: the loop over the bytes of one read has no `break` at
  the prompt. What the same read holds behind the prompt goes into the reply,
  and what comes with the next read does not. So two ways of cutting a stream
  give the reply in front of the first prompt exactly when both cut right
  behind it (or have nothing but prompts there).
-/
import CarPi.Obd2.ReadLoop

namespace CarPi.Obd2

open CarPi.Foundation

/-! ## The size of the array -/

/-- What the call reads fits into `totalReply`, with the NUL where one is
stored. -/
def FitsBuffer (port : PortBehaviour) (sleeptime timeout : Int) : Prop :=
  sleeptime = -1 ∨
    (port.text sleeptime timeout).length ≤ replySize ∧
      (port.ending sleeptime timeout = some .prompted →
        (port.text sleeptime timeout).length < replySize)

instance (port : PortBehaviour) (sleeptime timeout : Int) :
    Decidable (FitsBuffer port sleeptime timeout) :=
  inferInstanceAs (Decidable (_ ∨ _ ∧ _))

/-- **The stores of a call stay inside the array exactly when its text fits.** -/
theorem not_overrun_iff_fits (lib : LibObd2) (port : PortBehaviour) (req : List UInt8)
    (sleeptime timeout : Int) :
    (∀ index, sendObdRequestString lib port req sleeptime timeout ≠ .overrun index) ↔
      FitsBuffer port sleeptime timeout := by
  have hcall := sendObdRequestString_exchange lib port req sleeptime timeout
  generalize sendObdRequestString lib port req sleeptime timeout = result at hcall
  cases hcall with
  | blind hblind => simp [FitsBuffer, hblind]
  | tooLong hblind hlong => simp [FitsBuffer, hblind, Nat.not_le.mpr hlong]
  | blocked hblind hfits hend => simp [FitsBuffer, hfits, hend]
  | readError hblind hfits hend => simp [FitsBuffer, hfits, hend]
  | timedOut hblind hfits hend => simp [FitsBuffer, hfits, hend]
  | notWaiting hblind hfits hend => simp [FitsBuffer, hfits, hend]
  | full hblind hfull hend => simp [FitsBuffer, hblind, hfull, hend]
  | noData hblind hlt hend _ => simp [FitsBuffer, Nat.le_of_lt hlt, hlt]
  | answered hblind hlt hend _ => simp [FitsBuffer, Nat.le_of_lt hlt, hlt]

/-- The NUL of an answer of 1024 bytes is stored behind the array. -/
theorem long_answer_overrun :
    ¬ ∀ (lib : LibObd2) (port : PortBehaviour) (req : List UInt8) (sleeptime timeout : Int)
        (index : Nat), sendObdRequestString lib port req sleeptime timeout ≠ .overrun index := by
  intro h
  let tmp : Chunk := ⟨List.replicate 1024 65, Nat.le_of_eq List.length_replicate⟩
  let port := inReads [tmp, ⟨[prompt], by decide⟩]
  have hport : Delivers port 20 3 (tmp.bytes ++ [prompt]) :=
    inReads_delivers rfl (by decide) (by decide)
  have hanswer : prompt ∉ tmp.bytes :=
    fun hmem => absurd (List.eq_of_mem_replicate hmem) (by decide)
  have hend := hport.ending (by decide) (List.mem_append_right _ List.mem_cons_self)
  have htext := hport.text (by decide) hanswer
  have hlen : tmp.bytes.length = replySize := List.length_replicate
  refine h .new port [] 20 3 replySize ?_
  rw [sendObdRequestString_eq, if_neg (by decide), htext, hlen, if_neg (Nat.lt_irrefl _), hend]
  exact if_pos rfl

/-! ## The cuts between reads -/

/-- What the read that brings the first prompt holds from that prompt on. -/
def fromPrompt (turns : List Turn) : List UInt8 :=
  match turns.find? fun turn => decide (prompt ∈ turn.read.bytes) with
  | none => []
  | some turn => turn.read.bytes.dropWhile (· ≠ prompt)

/-- The read that brings the first prompt holds nothing but prompts behind it. -/
def EndsAtPrompt (turns : List Turn) : Prop := ∀ b ∈ fromPrompt turns, b = prompt

theorem takeWhile_append_of_not_mem {bs cs : List UInt8} (h : prompt ∉ bs) :
    (bs ++ cs).takeWhile (· ≠ prompt) = bs ++ cs.takeWhile (· ≠ prompt) := by
  rw [List.takeWhile_append_of_pos]
  intro b hb
  simpa using fun heq : b = prompt => h (heq ▸ hb)

theorem takeWhile_append_of_mem {bs cs : List UInt8} (h : prompt ∈ bs) :
    (bs ++ cs).takeWhile (· ≠ prompt) = bs.takeWhile (· ≠ prompt) := by
  rw [List.takeWhile_append, if_neg]
  intro hlen
  have hall := (List.takeWhile_prefix (p := (· ≠ prompt)) (l := bs)).eq_of_length hlen
  rw [← hall] at h
  simpa using List.mem_takeWhile_imp h

/-- The text of a call: what comes before the first prompt, and what its read
holds behind it. -/
theorem textOf_eq {sleeptime timeout seconds : Int} (hwait : 0 < timeout) :
    ∀ {turns : List Turn}, (∀ turn ∈ turns, turn.read ≠ .error) →
      (∀ turn ∈ turns, deadlinePassed sleeptime timeout seconds turn.now = false) →
      prompt ∈ turns.flatMap (·.read.bytes) →
      textOf sleeptime timeout seconds turns
        = (turns.flatMap (·.read.bytes)).takeWhile (· ≠ prompt)
          ++ withoutPrompts (fromPrompt turns)
  | [], _, _, hmem => by simp at hmem
  | turn :: turns, hreads, htime, hmem => by
    obtain ⟨hread, hreads⟩ := List.forall_mem_cons.mp hreads
    obtain ⟨hnow, htime⟩ := List.forall_mem_cons.mp htime
    have hturn := ending_of_waiting hwait hread hnow
    rw [List.flatMap_cons] at hmem ⊢
    by_cases hp : prompt ∈ turn.read.bytes
    · rw [if_pos hp] at hturn
      have hfrom : fromPrompt (turn :: turns) = turn.read.bytes.dropWhile (· ≠ prompt) := by
        simp [fromPrompt, hp]
      have hbefore : prompt ∉ turn.read.bytes.takeWhile (· ≠ prompt) := by
        intro h
        simpa using List.mem_takeWhile_imp h
      calc textOf sleeptime timeout seconds (turn :: turns)
          = withoutPrompts turn.read.bytes := textOf_cons_last hturn turns
        _ = withoutPrompts (turn.read.bytes.takeWhile (· ≠ prompt)
              ++ turn.read.bytes.dropWhile (· ≠ prompt)) := by rw [List.takeWhile_append_dropWhile]
        _ = turn.read.bytes.takeWhile (· ≠ prompt)
              ++ withoutPrompts (fromPrompt (turn :: turns)) := by
            rw [withoutPrompts_append, withoutPrompts_of_not_mem hbefore, hfrom]
        _ = _ := by rw [takeWhile_append_of_mem hp]
    · rw [if_neg hp] at hturn
      have hfrom : fromPrompt (turn :: turns) = fromPrompt turns := by
        simp [fromPrompt, hp]
      rw [List.mem_append] at hmem
      rw [textOf_cons hturn, withoutPrompts_of_not_mem hp, takeWhile_append_of_not_mem hp, hfrom,
        List.append_assoc]
      exact congrArg _ (textOf_eq hwait hreads htime (hmem.resolve_left hp))

theorem withoutPrompts_eq_nil_iff (bs : List UInt8) :
    withoutPrompts bs = [] ↔ ∀ b ∈ bs, b = prompt := by
  simp [withoutPrompts]

/-- The outcome of a waiting call whose reads bring a stream with a prompt:
decided by its text. -/
def answerFor (lib : LibObd2) (text : List UInt8) : Answer :=
  if NoData text then ⟨lib.fail .nodata, false, text⟩ else ⟨lib, true, text⟩

theorem answerFor_reply (lib : LibObd2) (text : List UInt8) :
    (answerFor lib text).reply = text := by
  unfold answerFor
  split <;> rfl

/-- A call that comes to a prompt is decided by its text, if that fits. -/
theorem sendObdRequestString_prompted {port : PortBehaviour} {sleeptime timeout : Int}
    (hsleep : 0 ≤ sleeptime) (hend : port.ending sleeptime timeout = some .prompted)
    (lib : LibObd2) (req : List UInt8) :
    sendObdRequestString lib port req sleeptime timeout =
      if (port.text sleeptime timeout).length < replySize then
        .returned (answerFor lib (port.text sleeptime timeout))
      else .overrun replySize := by
  have hcall := sendObdRequestString_exchange lib port req sleeptime timeout
  generalize sendObdRequestString lib port req sleeptime timeout = result at hcall
  cases hcall with
  | blind hblind => omega
  | tooLong _ hlong => rw [if_neg (by omega)]
  | full _ hfull _ => rw [if_neg (by omega)]
  | noData _ hlt _ hnodata => rw [if_pos hlt, answerFor, if_pos hnodata]
  | answered _ hlt _ hnodata => rw [if_pos hlt, answerFor, if_neg hnodata]
  | blocked _ _ hother => cases hother.symm.trans hend
  | readError _ _ hother => cases hother.symm.trans hend
  | timedOut _ _ hother => cases hother.symm.trans hend
  | notWaiting _ _ hother => cases hother.symm.trans hend

theorem sendObdRequestString_delivers {port : PortBehaviour} {sleeptime timeout : Int}
    {stream : List UInt8} (hsleep : 0 ≤ sleeptime) (hwait : 0 < timeout)
    (h : Delivers port sleeptime timeout stream) (hmem : prompt ∈ stream)
    (hfits : FitsBuffer port sleeptime timeout) (lib : LibObd2) (req : List UInt8) :
    sendObdRequestString lib port req sleeptime timeout
      = .returned (answerFor lib (port.text sleeptime timeout)) := by
  have hblind : sleeptime ≠ -1 := by omega
  have hend := h.ending hwait hmem
  rw [sendObdRequestString_prompted hsleep hend, if_pos ((hfits.resolve_left hblind).2 hend)]

theorem text_eq_before_iff {port : PortBehaviour} {sleeptime timeout : Int}
    {stream : List UInt8} (hwait : 0 < timeout) (h : Delivers port sleeptime timeout stream)
    (hmem : prompt ∈ stream) :
    port.text sleeptime timeout = stream.takeWhile (· ≠ prompt) ↔ EndsAtPrompt port.turns := by
  have htext := textOf_eq hwait h.reads h.inTime (h.cut ▸ hmem)
  rw [h.cut] at htext
  rw [PortBehaviour.text, htext, EndsAtPrompt, ← withoutPrompts_eq_nil_iff]
  exact List.append_right_eq_self

/-- **Two ways of cutting a stream give the same result and the reply in front
of the first prompt, exactly when each cuts behind that prompt.** -/
theorem replies_agree_iff (lib : LibObd2) (port₁ port₂ : PortBehaviour) (req : List UInt8)
    (sleeptime timeout : Int) (stream : List UInt8) (hsleep : 0 ≤ sleeptime)
    (hwait : 0 < timeout) (hmem : prompt ∈ stream)
    (h₁ : Delivers port₁ sleeptime timeout stream) (h₂ : Delivers port₂ sleeptime timeout stream)
    (hfits₁ : FitsBuffer port₁ sleeptime timeout) (hfits₂ : FitsBuffer port₂ sleeptime timeout) :
    (∃ a, sendObdRequestString lib port₁ req sleeptime timeout = .returned a ∧
        sendObdRequestString lib port₂ req sleeptime timeout = .returned a ∧
        a.reply = stream.takeWhile (· ≠ prompt)) ↔
      EndsAtPrompt port₁.turns ∧ EndsAtPrompt port₂.turns := by
  rw [sendObdRequestString_delivers hsleep hwait h₁ hmem hfits₁,
    sendObdRequestString_delivers hsleep hwait h₂ hmem hfits₂,
    ← text_eq_before_iff hwait h₁ hmem, ← text_eq_before_iff hwait h₂ hmem]
  refine ⟨fun ⟨a, ha₁, ha₂, hreply⟩ => ?_, fun ⟨ht₁, ht₂⟩ => ?_⟩
  · have heq₁ : answerFor lib (port₁.text sleeptime timeout) = a := Outcome.returned.inj ha₁
    have heq₂ : answerFor lib (port₂.text sleeptime timeout) = a := Outcome.returned.inj ha₂
    rw [← answerFor_reply lib (port₁.text sleeptime timeout), heq₁,
      ← answerFor_reply lib (port₂.text sleeptime timeout), heq₂]
    exact ⟨hreply, hreply⟩
  · rw [ht₁, ht₂]
    exact ⟨_, rfl, rfl, answerFor_reply lib _⟩

/-- "A>" in one read, and in two. -/
theorem replies_agree_iff_okCuts :
    (∃ a, sendObdRequestString .new (inReads [⟨[65, prompt], by decide⟩]) [] 20 3 = .returned a ∧
        sendObdRequestString .new (inReads [⟨[65], by decide⟩, ⟨[prompt], by decide⟩]) [] 20 3
          = .returned a ∧
        a.reply = [65, prompt].takeWhile (· ≠ prompt)) ↔
      EndsAtPrompt (inReads [⟨[65, prompt], by decide⟩]).turns ∧
        EndsAtPrompt (inReads [⟨[65], by decide⟩, ⟨[prompt], by decide⟩]).turns :=
  replies_agree_iff .new _ _ [] 20 3 [65, prompt] (by decide) (by decide) (by decide)
    (inReads_delivers rfl (by decide) (by decide)) (inReads_delivers rfl (by decide) (by decide))
    (Or.inr ⟨by decide, fun _ => by decide⟩) (Or.inr ⟨by decide, fun _ => by decide⟩)

/-- "A>B" gives the reply "A" when the "B" comes with a second read, and "AB"
when it comes with the first. -/
theorem reply_depends_on_cut :
    ¬ ∀ (lib : LibObd2) (port₁ port₂ : PortBehaviour) (req : List UInt8)
        (sleeptime timeout : Int) (stream : List UInt8), 0 ≤ sleeptime → 0 < timeout →
        prompt ∈ stream → Delivers port₁ sleeptime timeout stream →
        Delivers port₂ sleeptime timeout stream → FitsBuffer port₁ sleeptime timeout →
        FitsBuffer port₂ sleeptime timeout →
        ∃ a, sendObdRequestString lib port₁ req sleeptime timeout = .returned a ∧
          sendObdRequestString lib port₂ req sleeptime timeout = .returned a ∧
          a.reply = stream.takeWhile (· ≠ prompt) := by
  intro h
  let port₁ := inReads [⟨[65, prompt], by decide⟩, ⟨[66], by decide⟩]
  let port₂ := inReads [⟨[65, prompt, 66], by decide⟩]
  obtain ⟨a, ha₁, ha₂, _⟩ := h .new port₁ port₂ [] 20 3 [65, prompt, 66]
    (by decide) (by decide) (by decide)
    (inReads_delivers rfl (by decide) (by decide)) (inReads_delivers rfl (by decide) (by decide))
    (Or.inr ⟨by decide, fun _ => by decide⟩) (Or.inr ⟨by decide, fun _ => by decide⟩)
  have hcall₁ : sendObdRequestString .new port₁ [] 20 3 = .returned ⟨.new, true, [65]⟩ := by
    decide
  have hcall₂ : sendObdRequestString .new port₂ [] 20 3 = .returned ⟨.new, true, [65, 66]⟩ := by
    decide
  rw [hcall₁] at ha₁
  rw [hcall₂, ← ha₁] at ha₂
  cases ha₂

end CarPi.Obd2
