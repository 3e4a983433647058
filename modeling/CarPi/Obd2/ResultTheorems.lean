/-
CarPi.Obd2.ResultTheorems — what a caller may conclude from the result of a
request.

* `timeout_without_reply_iff`: a TIMEOUT should mean that no prompt came. The
  deadline is tested at the end of every turn, also of the one that brought
  the prompt, so a reply that comes late in its read is thrown away.
* `success_means_sent_iff`: success should mean that the request was written.
  The result of `write` is looked at, and "No Write" printed, but the lines
  that would fail the call are commented out (`sendObdRequestString_eq` does
  not mention `port.write`). An answer that the layers accept is a success
  whatever was written.
* `failure_leaves_nothing_iff`: failure should leave the caller's vector
  empty. `sendObdRequestString` fills it before it tests for NO DATA, and
  leaves the adapter's message in it; `sendObdRequest` uses a vector of its
  own and is safe.

A call that overruns `totalReply` ensures none of the three, so each asks for
`FitsBuffer`.
-/
import CarPi.Obd2.LastErrorTheorems
import CarPi.Obd2.ReplyTheorems

namespace CarPi.Obd2

open CarPi.Foundation

variable {port : PortBehaviour} {sleeptime timeout seconds : Int}

/-! ## Failing calls -/

/-- The call ends in its loop, in this way. -/
def EndsInLoop (port : PortBehaviour) (sleeptime timeout : Int) (how : LoopEnd) : Prop :=
  sleeptime ≠ -1 ∧ (port.text sleeptime timeout).length ≤ replySize ∧
    port.ending sleeptime timeout = some how

/-- The call comes to a prompt with a text that fits and fires the NO DATA
test. -/
def EndsInNoData (port : PortBehaviour) (sleeptime timeout : Int) : Prop :=
  sleeptime ≠ -1 ∧ port.ending sleeptime timeout = some .prompted ∧
    (port.text sleeptime timeout).length < replySize ∧ NoData (port.text sleeptime timeout)

/-- The three ways to fail, and what each leaves behind. -/
theorem failed_iff (lib : LibObd2) (req : List UInt8) (a : Answer) :
    (sendObdRequestString lib port req sleeptime timeout = .returned a ∧ a.ok = false) ↔
      (EndsInLoop port sleeptime timeout .readError ∧
          a = ⟨lib.fail .serialReadError, false, []⟩) ∨
        (EndsInLoop port sleeptime timeout .timedOut ∧ a = ⟨lib.fail .timeout, false, []⟩) ∨
        (EndsInNoData port sleeptime timeout ∧
          a = ⟨lib.fail .nodata, false, port.text sleeptime timeout⟩) := by
  have hsame : ∀ x : Answer, x.ok = false → ((x = a ∧ a.ok = false) ↔ a = x) := by
    intro x hx
    exact ⟨fun h => h.1.symm, fun h => ⟨h.symm, h ▸ hx⟩⟩
  have hother : ∀ x : Answer, x.ok = true → ¬ (x = a ∧ a.ok = false) := by
    rintro x hx ⟨rfl, hfail⟩
    rw [hx] at hfail
    cases hfail
  have hcall := sendObdRequestString_exchange lib port req sleeptime timeout
  generalize sendObdRequestString lib port req sleeptime timeout = result at hcall
  simp only [EndsInLoop, EndsInNoData]
  cases hcall with
  | blind hblind => simpa [hblind] using hother ⟨lib, true, []⟩ rfl
  | tooLong hblind hlong => simp [Nat.not_le.mpr hlong, Nat.not_lt.mpr (Nat.le_of_lt hlong)]
  | blocked hblind hfits hend => simp [hend]
  | readError hblind hfits hend => simpa [hblind, hfits, hend] using hsame _ rfl
  | timedOut hblind hfits hend => simpa [hblind, hfits, hend] using hsame _ rfl
  | notWaiting hblind hfits hend => simpa [hend] using hother ⟨lib, true, []⟩ rfl
  | full hblind hfull hend => simp [hend, hfull]
  | noData hblind hlt hend hnodata => simpa [hblind, hlt, hend, hnodata] using hsame _ rfl
  | answered hblind hlt hend hnodata => simpa [hend, hnodata] using hother ⟨lib, true, _⟩ rfl

/-! ## Timeouts -/

theorem ending_eq_timedOut_iff {turn : Turn} (hwait : 0 < timeout) :
    turn.ending sleeptime timeout seconds = some .timedOut ↔
      turn.read ≠ .error ∧ deadlinePassed sleeptime timeout seconds turn.now = true := by
  constructor
  · intro h
    refine ⟨fun herror => ?_, (ending_cause h).2⟩
    simp [Turn.ending, herror] at h
  · rintro ⟨hread, hlate⟩
    obtain ⟨read, now⟩ := turn
    cases read with
    | error => exact absurd rfl hread
    | data tmp => simp_all [Turn.ending]

/-- A waiting caller does not read on after a prompt. -/
theorem prompt_not_mem_of_ending {turn : Turn} (hwait : 0 < timeout)
    (h : turn.ending sleeptime timeout seconds = none) : prompt ∉ turn.read.bytes := by
  have hne : timeout ≠ -1 := by omega
  obtain ⟨read, now⟩ := turn
  cases read with
  | error => simp [ReadResult.bytes]
  | data tmp =>
    intro hmem
    simp only [ReadResult.bytes] at hmem
    simp only [Turn.ending, hne, if_false, hmem, if_true] at h
    split at h <;> cases h

/-- A call times out with a prompt among its bytes exactly when one of its
turns brings a prompt and ends past the deadline. -/
theorem timedOut_with_prompt_iff (hwait : 0 < timeout) : ∀ turns : List Turn,
    (endingOf sleeptime timeout seconds turns = some .timedOut ∧
        prompt ∈ bytesRead sleeptime timeout seconds turns) ↔
      ∃ turn ∈ turnsMade sleeptime timeout seconds turns,
        prompt ∈ turn.read.bytes ∧ deadlinePassed sleeptime timeout seconds turn.now = true
  | [] => by simp [endingOf, turnsMade]
  | turn :: turns => by
    cases hend : turn.ending sleeptime timeout seconds with
    | none =>
      have hnot := prompt_not_mem_of_ending hwait hend
      rw [endingOf_cons hend, bytesRead_cons hend, turnsMade_cons hend]
      simp only [List.mem_append, List.exists_mem_cons_iff, hnot, false_and, false_or]
      exact timedOut_with_prompt_iff hwait turns
    | some how =>
      have hlate : turn.ending sleeptime timeout seconds = some .timedOut ↔ _ :=
        ending_eq_timedOut_iff hwait
      have hread : prompt ∈ turn.read.bytes → turn.read ≠ .error := by
        intro hmem herror
        simp [herror, ReadResult.bytes] at hmem
      rw [endingOf_cons_last hend, bytesRead_cons_last hend, turnsMade_cons_last hend, ← hend,
        hlate]
      simp only [List.mem_singleton, exists_eq_left]
      tauto

/-- A TIMEOUT means that no read of the call delivered a prompt. -/
def TimeoutWithoutReply (lib : LibObd2) (port : PortBehaviour) (req : List UInt8)
    (sleeptime timeout : Int) : Prop :=
  (sendObdRequestString lib port req sleeptime timeout).Ensures fun a =>
    a.ok = false → a.lib.lastError = .timeout →
      prompt ∉ bytesRead sleeptime timeout port.start port.turns

/-- **A TIMEOUT means that no prompt came exactly when the call stays inside its array,
and no turn of it brings a prompt and ends past the deadline.** -/
theorem timeout_without_reply_iff (lib : LibObd2) (port : PortBehaviour) (req : List UInt8)
    (sleeptime timeout : Int) (hsleep : 0 ≤ sleeptime) (hwait : 0 < timeout) :
    TimeoutWithoutReply lib port req sleeptime timeout ↔
      FitsBuffer port sleeptime timeout ∧
        ∀ turn ∈ turnsMade sleeptime timeout port.start port.turns,
          prompt ∈ turn.read.bytes →
            deadlinePassed sleeptime timeout port.start turn.now = false := by
  have hblind : sleeptime ≠ -1 := by omega
  have hturns : (∀ turn ∈ turnsMade sleeptime timeout port.start port.turns,
      prompt ∈ turn.read.bytes → deadlinePassed sleeptime timeout port.start turn.now = false) ↔
      ¬ (port.ending sleeptime timeout = some .timedOut ∧
        prompt ∈ bytesRead sleeptime timeout port.start port.turns) := by
    rw [PortBehaviour.ending, timedOut_with_prompt_iff hwait]
    simp
  rw [hturns, TimeoutWithoutReply, Outcome.ensures_iff, not_overrun_iff_fits]
  refine and_congr_right fun hfits => ⟨fun h => ?_, fun h a ha hfail htimeout => ?_⟩
  · rintro ⟨hend, hmem⟩
    have hle := (hfits.resolve_left hblind).1
    obtain ⟨hcall, hfail⟩ := (failed_iff lib req ⟨lib.fail .timeout, false, []⟩).mpr
      (Or.inr (Or.inl ⟨⟨hblind, hle, hend⟩, rfl⟩))
    exact h _ hcall hfail rfl hmem
  · rcases (failed_iff lib req a).mp ⟨ha, hfail⟩ with ⟨_, rfl⟩ | ⟨⟨_, _, hend⟩, _⟩ | ⟨_, rfl⟩
    · cases htimeout
    · exact fun hmem => h ⟨hend, hmem⟩
    · cases htimeout

/-- A call that times out without a prompt. -/
theorem timeout_without_reply :
    TimeoutWithoutReply .new ⟨fun _ => 0, 0, [⟨.data ⟨[52], by decide⟩, 10⟩]⟩ [] 20 3 :=
  (timeout_without_reply_iff .new _ [] 20 3 (by decide) (by decide)).mpr (by decide)

/-- A reply that comes, with its prompt, ten seconds after the request is thrown
away. -/
theorem late_reply_lost :
    ¬ ∀ (lib : LibObd2) (port : PortBehaviour) (req : List UInt8) (sleeptime timeout : Int),
        0 ≤ sleeptime → 0 < timeout → (port.start :: port.turns.map Turn.now).Pairwise (· ≤ ·) →
        TimeoutWithoutReply lib port req sleeptime timeout := by
  intro h
  let port : PortBehaviour := ⟨fun _ => 0, 0, [⟨.data ⟨[52, 49, prompt], by decide⟩, 10⟩]⟩
  have hcall : sendObdRequestString .new port [] 20 3 = .returned ⟨⟨.timeout⟩, false, []⟩ := by
    decide
  have hresult := h .new port [] 20 3 (by decide) (by decide) (by decide)
  rw [TimeoutWithoutReply, hcall] at hresult
  exact hresult rfl rfl (by decide)

/-! ## Success -/

/-- The call wrote the whole request, and read a prompt behind it. -/
def Sent (lib : LibObd2) (port : PortBehaviour) (r : Request) : Prop :=
  (sendObdRequestStringCall lib port r.req r.sleeptime r.timeout).write
      = (r.req, (r.req.length : Int)) ∧
    prompt ∈ bytesRead r.sleeptime r.timeout port.start port.turns

/-- Every call writes the bytes of its request, and takes what `write` returns for them. -/
theorem sent_iff (lib : LibObd2) (port : PortBehaviour) (r : Request) :
    Sent lib port r ↔
      port.write r.req = r.req.length ∧
        prompt ∈ bytesRead r.sleeptime r.timeout port.start port.turns := by
  simp [Sent, sendObdRequestStringCall]

/-- Success means that the request was sent: if it was not, the call returns
`false`, or is still reading. -/
def SuccessMeansSent (lib : LibObd2) (port : PortBehaviour) (r : Request) : Prop :=
  ¬ Sent lib port r → r.run lib port = .blocked ∨ ∃ report, r.run lib port = .returned report ∧
    report.ok = false

/-- A layer returns `true` for this text. -/
def Layer.Accepts (reply : List UInt8) : Layer → Prop
  | .string => True
  | .decoded => reply ≠ []
  | .cDecoded replylength => reply ≠ [] ∧ (pairs isSeparator reply).length ≤ replylength
  | .cString replylength => reply.length ≤ replylength

theorem report_ok_iff (layer : Layer) (lib : LibObd2) (reply : List UInt8) :
    (layer.report lib reply).ok = true ↔ layer.Accepts reply := by
  cases layer with
  | string => simp [Layer.report, Layer.Accepts]
  | decoded => simp [Layer.report, Layer.Accepts]
  | cDecoded replylength =>
    simp only [Layer.report, Layer.Accepts]
    split
    · next h => simpa using fun hne => h.resolve_left hne
    · next h => simpa [not_or] using h
  | cString replylength =>
    simp only [Layer.report, Layer.Accepts]
    split
    · next h => simpa using h
    · next h => simpa using h

/-- The layers above a waiting call get to see its text, if it comes to a prompt
with one that fits and does not fire the NO DATA test. -/
theorem received_of_waiting (hsleep : 0 ≤ sleeptime) (hwait : 0 < timeout)
    (reply : List UInt8) :
    port.received sleeptime timeout = some reply ↔
      port.ending sleeptime timeout = some .prompted ∧
        (port.text sleeptime timeout).length < replySize ∧
        ¬ NoData (port.text sleeptime timeout) ∧ port.text sleeptime timeout = reply := by
  have hblind : sleeptime ≠ -1 := by omega
  rw [PortBehaviour.received, if_neg hblind]
  by_cases hlong : replySize < (port.text sleeptime timeout).length
  · have hnot : ¬ (port.text sleeptime timeout).length < replySize := by omega
    simp [hlong, hnot]
  · rw [if_neg hlong]
    cases hend : port.ending sleeptime timeout with
    | none => simp
    | some how =>
      cases how with
      | readError => simp
      | timedOut => simp
      | notWaiting => exact absurd (timeout_of_notWaiting hend) (by omega)
      | prompted =>
        by_cases hfull : (port.text sleeptime timeout).length = replySize
        · simp [hfull]
        · have hlt : (port.text sleeptime timeout).length < replySize := by omega
          by_cases hnodata : NoData (port.text sleeptime timeout) <;> simp [hfull, hlt, hnodata]

/-- The reads bring an answer: a prompt in time, with a text in front of it that
fits, does not fire the NO DATA test, and is accepted by the layer. -/
def BringsAnswer (port : PortBehaviour) (r : Request) : Prop :=
  port.ending r.sleeptime r.timeout = some .prompted ∧
    (port.text r.sleeptime r.timeout).length < replySize ∧
    ¬ NoData (port.text r.sleeptime r.timeout) ∧
    r.layer.Accepts (port.text r.sleeptime r.timeout)

/-- A request that was not sent ends well as long as no text reaches the layer
that it accepts. -/
theorem not_sent_iff (lib : LibObd2) (port : PortBehaviour) (r : Request) :
    (r.run lib port = .blocked ∨ ∃ report, r.run lib port = .returned report ∧
        report.ok = false) ↔
      FitsBuffer port r.sleeptime r.timeout ∧
        ∀ reply, port.received r.sleeptime r.timeout = some reply → ¬ r.layer.Accepts reply := by
  cases sendObdRequestString_uniform port r.req r.sleeptime r.timeout with
  | received reply hreceived hfits hcall =>
    rw [run_received (hcall lib), hreceived]
    simp [← report_ok_iff r.layer lib reply, hfits]
  | failed e reply hreceived hfits hcall =>
    rw [run_failed (hcall lib), hreceived]
    simp [hfits]
  | blocked hreceived hfits hcall => simp [run_blocked (hcall lib), hreceived, hfits]
  | overrun hreceived hfits hcall => simp [run_overrun (hcall lib), hfits]

/-- The overloads that fill a vector of the caller. -/
inductive Overload where
  /-- `sendObdRequestString(req, length, reply)` -/
  | stringDefault
  /-- `sendObdRequestString(req, length, reply, sleeptime)` -/
  | stringSleep (sleeptime : Int)
  /-- `sendObdRequestString(req, length, reply, sleeptime, timeout)` -/
  | string (sleeptime timeout : Int)
  /-- `sendObdRequest(req, length, reply)` -/
  | decodedDefault
  /-- `sendObdRequest(req, length, reply, sleep, timeout)` -/
  | decoded (sleep timeout : Int)

/-- `reply->clear()` -/
def clear (_ : List UInt8) : List UInt8 := []

namespace Overload

/-- The call, with what it pushes to the vector. -/
def call (o : Overload) (lib : LibObd2) (port : PortBehaviour) (req : List UInt8) :
    Outcome Answer :=
  match o with
  | .stringDefault => sendObdRequestStringDefault lib port req
  | .stringSleep sleeptime => sendObdRequestStringSleep lib port req sleeptime
  | .string sleeptime timeout => sendObdRequestString lib port req sleeptime timeout
  | .decodedDefault => sendObdRequestDefault lib port req
  | .decoded sleep timeout => sendObdRequest lib port req sleep timeout

/-- The call on a vector that holds `prior`: it is cleared before anything is
pushed. -/
def callOn (o : Overload) (lib : LibObd2) (port : PortBehaviour) (req prior : List UInt8) :
    Outcome Answer :=
  (o.call lib port req).map fun a => { a with reply := clear prior ++ a.reply }

/-- The `sleeptime` and the `timeout` of the call of `sendObdRequestString` underneath. -/
def times : Overload → Int × Int
  | .stringDefault => (20, 3)
  | .stringSleep sleeptime => (sleeptime, 3)
  | .string sleeptime timeout => (sleeptime, timeout)
  | .decodedDefault => (100, 5)
  | .decoded sleep timeout => (sleep, timeout)

/-- The overload hands the text of the adapter to the caller. -/
def HandsText : Overload → Prop
  | .stringDefault => True
  | .stringSleep _ => True
  | .string _ _ => True
  | .decodedDefault => False
  | .decoded _ _ => False

end Overload

/-- A failed request leaves the vector empty. -/
def FailureLeavesNothing (o : Overload) (lib : LibObd2) (port : PortBehaviour)
    (req prior : List UInt8) : Prop :=
  (o.callOn lib port req prior).Ensures fun a => a.ok = false → a.reply = []

/-- `sendObdRequestString` fails with bytes in the vector exactly at its last
test. -/
theorem string_leaves_nothing_iff (lib : LibObd2) (port : PortBehaviour) (req : List UInt8)
    (sleeptime timeout : Int) :
    ((sendObdRequestString lib port req sleeptime timeout).Ensures fun a =>
        a.ok = false → a.reply = []) ↔
      FitsBuffer port sleeptime timeout ∧ ¬ EndsInNoData port sleeptime timeout := by
  rw [Outcome.ensures_iff, not_overrun_iff_fits]
  refine and_congr_right fun _ => ⟨fun h hnodata => ?_, fun hnot a ha hfail => ?_⟩
  · obtain ⟨hcall, hfail⟩ := (failed_iff lib req _).mpr (Or.inr (Or.inr ⟨hnodata, rfl⟩))
    have hempty : port.text sleeptime timeout = [] := h _ hcall hfail
    exact absurd hempty (List.ne_nil_of_mem (n_mem_of_noData hnodata.2.2.2))
  · rcases (failed_iff lib req a).mp ⟨ha, hfail⟩ with ⟨_, rfl⟩ | ⟨_, rfl⟩ | ⟨hnodata, _⟩
    · rfl
    · rfl
    · exact absurd hnodata hnot

/-- `sendObdRequest` fails before anything is pushed. -/
theorem decoded_leaves_nothing_iff (lib : LibObd2) (port : PortBehaviour) (req : List UInt8)
    (sleep timeout : Int) :
    ((sendObdRequest lib port req sleep timeout).Ensures fun a => a.ok = false → a.reply = []) ↔
      FitsBuffer port sleep timeout := by
  have hnothing : ∀ tmp : Answer,
      (if !tmp.ok then (⟨tmp.lib, false, []⟩ : Answer)
        else if tmp.reply.length = 0 then ⟨tmp.lib, false, []⟩
        else ⟨tmp.lib, true, decodeReply tmp.reply⟩).ok = false →
      (if !tmp.ok then (⟨tmp.lib, false, []⟩ : Answer)
        else if tmp.reply.length = 0 then ⟨tmp.lib, false, []⟩
        else ⟨tmp.lib, true, decodeReply tmp.reply⟩).reply = [] := by
    intro tmp
    split
    · exact fun _ => rfl
    · split
      · exact fun _ => rfl
      · intro hfail
        cases hfail
  rw [sendObdRequest, Outcome.ensures_map, Outcome.ensures_iff, not_overrun_iff_fits]
  exact and_iff_left fun tmp _ => hnothing tmp

/-- **A failed request leaves nothing in the vector exactly when the call stays inside its
array, and its overload decodes the text, or the text does not fire the NO DATA test at its
prompt.** -/
theorem failure_leaves_nothing_iff (o : Overload) (lib : LibObd2) (port : PortBehaviour)
    (req prior : List UInt8) :
    FailureLeavesNothing o lib port req prior ↔
      FitsBuffer port o.times.1 o.times.2 ∧
        (o.HandsText → ¬ EndsInNoData port o.times.1 o.times.2) := by
  simp only [FailureLeavesNothing, Overload.callOn, Outcome.ensures_map, clear, List.nil_append]
  cases o with
  | stringDefault =>
    refine (string_leaves_nothing_iff lib port req 20 3).trans ?_
    simp [Overload.times, Overload.HandsText]
  | stringSleep sleeptime =>
    refine (string_leaves_nothing_iff lib port req sleeptime 3).trans ?_
    simp [Overload.times, Overload.HandsText]
  | string sleeptime timeout =>
    refine (string_leaves_nothing_iff lib port req sleeptime timeout).trans ?_
    simp [Overload.times, Overload.HandsText]
  | decodedDefault =>
    refine (decoded_leaves_nothing_iff lib port req 100 5).trans ?_
    simp [Overload.times, Overload.HandsText]
  | decoded sleep timeout =>
    refine (decoded_leaves_nothing_iff lib port req sleep timeout).trans ?_
    simp [Overload.times, Overload.HandsText]

/-- The text of the NO DATA message is left in the vector. -/
theorem noData_left_behind :
    ¬ ∀ (o : Overload) (lib : LibObd2) (port : PortBehaviour) (req prior : List UInt8),
        FailureLeavesNothing o lib port req prior := by
  intro h
  let port := inReads [⟨bytes "NO DATA\r>".toList, by decide⟩]
  have hcall : Overload.stringDefault.callOn .new port [] []
      = .returned ⟨⟨.nodata⟩, false, bytes "NO DATA\r".toList⟩ := by decide
  have hresult := h .stringDefault .new port [] []
  rw [FailureLeavesNothing, hcall] at hresult
  exact absurd (hresult rfl) (by decide)

end CarPi.Obd2
