/-
CarPi.Obd2.Pairing — whether a reply belongs to the request it is returned
for.

A session is a program with one `libObd2` object, the tty, and the adapter.
The adapter answers every request it is sent with one text and a prompt;
the bytes travel in order and take any time. `step` is one call of
`sendObdRequestString` (with the reads that it makes), one call of `flush`, or
the arrival of some bytes. So a list of acts is one order of requests and
arrivals.

A call reads whatever is on the line and stops at the first prompt it sees.
An answer that an earlier call did not wait for (a blind request) or gave up
on (a timeout) is still on the line, and the next call that waits takes it for
its own. `sendObdRequestString` ends with a `tcflush` that is commented out,
and `initPort` leaves three answers unread.

`replies_paired` is the condition: a request that gets a reply starts with
nothing on the line. On such a line a session refines the `dialogue` it is
meant to be, where every reply is the answer to its request; `clear_step` says
how a session keeps to it.
-/
import CarPi.Foundation.Runs
import CarPi.Obd2.ReadLoop

namespace CarPi.Obd2

open CarPi.Foundation

/-! ## Sessions -/

/-- A request that waited and returned `true`: the text the adapter answered it
with, and its reply. -/
structure Pairing where
  answer : List UInt8
  reply : List UInt8
  deriving DecidableEq, Repr

/-- `received` is what the tty holds, `coming` what the adapter has sent and the
tty has not yet got. `pairings` is history. -/
structure Session where
  lib : LibObd2
  received : List UInt8
  coming : List UInt8
  pairings : List Pairing
  deriving DecidableEq, Repr

def Session.start : Session := ⟨.new, [], [], []⟩

/-- The bytes on the line, in order. -/
def Session.line (s : Session) : List UInt8 := s.received ++ s.coming

inductive SessionAct where
  /-- the next `n` bytes reach the tty -/
  | arrive (n : Nat)
  /-- `flush`, `tcflush(portHandle, TCIFLUSH)` -/
  | flush
  /-- `sendObdRequestString`, whose request the adapter answers with `answer` -/
  | request (req : List UInt8) (sleeptime timeout : Int) (answer : List UInt8)
      (port : PortBehaviour)

instance : ∀ read : ReadResult, Decidable (read ≠ .error)
  | .error => isFalse (not_not_intro rfl)
  | .data _ => isTrue (by simp)

/-- The bytes a call takes off the line. -/
def PortBehaviour.taken (port : PortBehaviour) (sleeptime timeout : Int) : List UInt8 :=
  if sleeptime = -1 then [] else bytesRead sleeptime timeout port.start port.turns

/-- What the session asks of a call: `write` and `read` succeed, and the reads
bring the bytes of the line in order, up to the answer to this request. -/
def Session.Serves (s : Session) (req : List UInt8) (sleeptime timeout : Int)
    (answer : List UInt8) (port : PortBehaviour) : Prop :=
  prompt ∉ answer ∧ port.write req = req.length ∧
    (∀ turn ∈ port.turns, turn.read ≠ .error) ∧
    port.taken sleeptime timeout <+: s.line ++ (answer ++ [prompt])

instance (s : Session) (req : List UInt8) (sleeptime timeout : Int) (answer : List UInt8)
    (port : PortBehaviour) : Decidable (s.Serves req sleeptime timeout answer port) := by
  unfold Session.Serves
  infer_instance

/-- The caller waits for a reply. -/
def Waits (sleeptime timeout : Int) : Prop := 0 ≤ sleeptime ∧ 0 < timeout

instance (sleeptime timeout : Int) : Decidable (Waits sleeptime timeout) :=
  inferInstanceAs (Decidable (0 ≤ sleeptime ∧ 0 < timeout))

/-- The session after a call that took `n` bytes. -/
def Session.after (s : Session) (n : Nat) (answer : List UInt8) (a : Answer)
    (waits : Bool) : Session where
  lib := a.lib
  received := s.received.drop n
  coming := (s.coming ++ (answer ++ [prompt])).drop (n - s.received.length)
  pairings := if a.ok && waits then s.pairings ++ [⟨answer, a.reply⟩] else s.pairings

def sessionStep (s : Session) : SessionAct → Option Session
  | .arrive n =>
      some { s with received := s.received ++ s.coming.take n, coming := s.coming.drop n }
  | .flush => some { s with received := [] }
  | .request req sleeptime timeout answer port =>
      if s.Serves req sleeptime timeout answer port then
        match sendObdRequestString s.lib port req sleeptime timeout with
        | .returned a =>
          some (s.after (port.taken sleeptime timeout).length answer a
            (decide (Waits sleeptime timeout)))
        | _ => none
      else none

def session : LTS Session SessionAct := .ofStep .start sessionStep

/-- Every reply is the text for its request. -/
def Paired (s : Session) : Prop := ∀ p ∈ s.pairings, p.reply = p.answer

/-- A request that waits and comes to a prompt, with a text that does not count
as NO DATA, starts with nothing unread and nothing still to come. -/
def ClearLine (s : Session) : SessionAct → Prop
  | .request _ sleeptime timeout _ port =>
      Waits sleeptime timeout → port.ending sleeptime timeout = some .prompted →
        ¬ NoData (port.text sleeptime timeout) → s.line = []
  | .arrive _ => True
  | .flush => True

/-! ## What the port is for -/

/-- A request that gets a reply gets its own. -/
def dialogue : LTS (List Pairing) (List UInt8) where
  init := fun ps => ps = []
  step := fun ps answer ps' => ps' = ps ++ [⟨answer, answer⟩]

theorem paired_of_dialogue {ps : List Pairing} (h : dialogue.Reachable ps) :
    ∀ p ∈ ps, p.reply = p.answer := by
  refine h.invariant (I := fun ps => ∀ p ∈ ps, p.reply = p.answer) ?_ ?_
  · rintro ps rfl p hp
    cases hp
  · rintro ps answer ps' ih rfl p hp
    rcases List.mem_append.mp hp with hp | hp
    · exact ih p hp
    · rw [List.mem_singleton.mp hp]

/-! ## One request -/

theorem step_request_iff {s s' : Session} {req : List UInt8} {sleeptime timeout : Int}
    {answer : List UInt8} {port : PortBehaviour} :
    sessionStep s (.request req sleeptime timeout answer port) = some s' ↔
      s.Serves req sleeptime timeout answer port ∧
        ∃ a, sendObdRequestString s.lib port req sleeptime timeout = .returned a ∧
          s' = s.after (port.taken sleeptime timeout).length answer a
            (decide (Waits sleeptime timeout)) := by
  simp only [sessionStep]
  by_cases hserves : s.Serves req sleeptime timeout answer port
  · cases sendObdRequestString s.lib port req sleeptime timeout <;> simp [hserves, eq_comm]
  · simp [hserves]

/-- A request that waits returns `true` only at a prompt, with the text it has
read. -/
theorem reply_of_ok {lib : LibObd2} {port : PortBehaviour} {req : List UInt8}
    {sleeptime timeout : Int} {a : Answer} (hwaits : Waits sleeptime timeout)
    (hcall : sendObdRequestString lib port req sleeptime timeout = .returned a)
    (hok : a.ok = true) :
    port.ending sleeptime timeout = some .prompted ∧ ¬ NoData (port.text sleeptime timeout) ∧
      a.reply = port.text sleeptime timeout := by
  obtain ⟨hsleep, htimeout⟩ := hwaits
  have hway := sendObdRequestString_exchange lib port req sleeptime timeout
  rw [hcall] at hway
  cases hway with
  | blind hblind => omega
  | readError _ _ _ => cases hok
  | timedOut _ _ _ => cases hok
  | notWaiting _ _ hend => exact absurd (timeout_of_notWaiting hend) (by omega)
  | noData _ _ _ _ => cases hok
  | answered _ _ hend hnodata => exact ⟨hend, hnodata, rfl⟩

/-- A call on a clear line that comes to a prompt has taken its own answer, all
of it. -/
theorem taken_of_clear {s : Session} {req : List UInt8} {sleeptime timeout : Int}
    {answer : List UInt8} {port : PortBehaviour} (hclear : s.line = [])
    (hserves : s.Serves req sleeptime timeout answer port) (hblind : sleeptime ≠ -1)
    (hend : port.ending sleeptime timeout = some .prompted) :
    port.taken sleeptime timeout = answer ++ [prompt] := by
  obtain ⟨hanswer, _, _, hpre⟩ := hserves
  rw [hclear, List.nil_append] at hpre
  refine eq_of_prefix_of_prompt_mem hanswer hpre ?_
  rw [PortBehaviour.taken, if_neg hblind]
  exact prompt_mem_bytesRead hend

theorem text_of_taken {port : PortBehaviour} {sleeptime timeout : Int} {answer : List UInt8}
    (hblind : sleeptime ≠ -1) (hanswer : prompt ∉ answer)
    (h : port.taken sleeptime timeout = answer ++ [prompt]) :
    port.text sleeptime timeout = answer := by
  rw [PortBehaviour.taken, if_neg hblind] at h
  rw [PortBehaviour.text, textOf, h, withoutPrompts_answer hanswer]

/-- One act that meets the condition: what it adds to the history is the text of
its own request. -/
theorem pairings_step {s s' : Session} {act : SessionAct} (hok : ClearLine s act)
    (hs : sessionStep s act = some s') :
    (∃ answer, s'.pairings = s.pairings ++ [⟨answer, answer⟩]) ∨ s'.pairings = s.pairings := by
  cases act with
  | arrive n => cases hs; exact Or.inr rfl
  | flush => cases hs; exact Or.inr rfl
  | request req sleeptime timeout answer port =>
    obtain ⟨hserves, a, hcall, rfl⟩ := step_request_iff.mp hs
    by_cases hpaired : a.ok = true ∧ Waits sleeptime timeout
    · obtain ⟨haok, hwaits⟩ := hpaired
      have hblind : sleeptime ≠ -1 := by have := hwaits.1; omega
      obtain ⟨hend, hnodata, hreply⟩ := reply_of_ok hwaits hcall haok
      have htaken := taken_of_clear (hok hwaits hend hnodata) hserves hblind hend
      have htext := text_of_taken hblind hserves.1 htaken
      refine Or.inl ⟨answer, ?_⟩
      simp [Session.after, haok, hwaits, hreply, htext]
    · exact Or.inr (by simpa [Session.after] using hpaired)

/-- **On a clear line a session is a dialogue.** -/
theorem session_refines_dialogue :
    LTS.Simulation (session.restrict ClearLine) dialogue Session.pairings := by
  refine ⟨?_, ?_⟩
  · rintro s rfl
    rfl
  · intro s act s' _ ⟨hok, hs⟩
    exact pairings_step hok hs

/-- A blind request makes no read. -/
def blindRequest (req answer : List UInt8) : SessionAct :=
  .request req (-1) (-1) answer ⟨fun req => req.length, 0, []⟩

/-- A blind request, flushed away once its answer is there. -/
def flushedReset : List SessionAct :=
  [blindRequest (bytes ['a', 't', 'z', '\r']) (bytes ['O', 'K']), .arrive 3, .flush]

/-- A request for the speed, answered at once. -/
def speedRequest : SessionAct :=
  .request (bytes ['0', '1', '0', 'D', '\r']) 100 5 (bytes ['3', '2'])
    (inReads [⟨[51, 50, prompt], by decide⟩])

theorem line_after (s : Session) (n : Nat) (answer : List UInt8) (a : Answer) (waits : Bool) :
    (s.after n answer a waits).line = (s.line ++ (answer ++ [prompt])).drop n := by
  simp only [Session.line, Session.after, List.append_assoc, List.drop_append]

/-- A request that comes to its prompt on a clear line leaves a clear line. -/
theorem clear_step {s s' : Session} {req : List UInt8} {sleeptime timeout : Int}
    {answer : List UInt8} {port : PortBehaviour} (hclear : s.line = [])
    (hblind : sleeptime ≠ -1) (hend : port.ending sleeptime timeout = some .prompted)
    (hs : sessionStep s (.request req sleeptime timeout answer port) = some s') :
    s'.line = [] := by
  obtain ⟨hserves, a, _, rfl⟩ := step_request_iff.mp hs
  rw [line_after, taken_of_clear hclear hserves hblind hend, hclear, List.nil_append,
    List.drop_length]

/-- Every request waits and comes to a prompt. -/
def AllPrompted (_ : Session) : SessionAct → Prop
  | .request _ sleeptime timeout _ port =>
      Waits sleeptime timeout ∧ port.ending sleeptime timeout = some .prompted
  | .arrive _ => True
  | .flush => True

theorem clear_of_allPrompted {s s' : Session} {act : SessionAct} (hclear : s.line = [])
    (hok : AllPrompted s act) (hs : sessionStep s act = some s') : s'.line = [] := by
  have hparts : s.received = [] ∧ s.coming = [] := List.append_eq_nil_iff.mp hclear
  cases act with
  | arrive n =>
    cases hs
    simp [Session.line, hparts]
  | flush =>
    cases hs
    simp [Session.line, hparts]
  | request req sleeptime timeout answer port =>
    obtain ⟨⟨hsleep, _⟩, hend⟩ := hok
    exact clear_step hclear (by omega) hend hs

/-- **A session in which every request waits and comes to a prompt pairs them
all.** So it takes a blind request or a timeout to lose the order. -/
theorem paired_of_allPrompted {acts : List SessionAct} {s : Session}
    (hrun : (session.restrict AllPrompted).Run .start acts s) : Paired s := by
  have hclear : ∀ s act, s.line = [] → AllPrompted s act → ClearLine s act := by
    intro s act hline _
    cases act with
    | arrive n => trivial
    | flush => trivial
    | request req sleeptime timeout answer port => exact fun _ _ _ => hline
  obtain ⟨hrun', _⟩ := hrun.restrict_of_invariant
    (fun _ _ _ hline hok hs => clear_of_allPrompted hline hok hs) hclear rfl
  exact paired_of_dialogue (session_refines_dialogue.reachable ⟨.start, acts, rfl, hrun'⟩)

/-- **On a line that is not clear the reply is a matter of what was left**: where
the reads end within it, the same call returns the same reply for whatever
text the adapter answers the request with. -/
theorem reply_of_leftover {s s' : Session} {req : List UInt8} {sleeptime timeout : Int}
    {answer answer' : List UInt8} {port : PortBehaviour} (hanswer' : prompt ∉ answer')
    (hleft : port.taken sleeptime timeout <+: s.line)
    (hs : sessionStep s (.request req sleeptime timeout answer port) = some s') :
    ∃ s'', sessionStep s (.request req sleeptime timeout answer' port) = some s'' ∧
      s''.pairings.map (·.reply) = s'.pairings.map (·.reply) := by
  obtain ⟨⟨_, hwrite, hread, _⟩, a, hcall, rfl⟩ := step_request_iff.mp hs
  refine ⟨_, step_request_iff.mpr
    ⟨⟨hanswer', hwrite, hread, hleft.trans (List.prefix_append _ _)⟩, a, hcall, rfl⟩, ?_⟩
  simp only [Session.after]
  split <;> simp

/-! ## `initPort` -/

/-- `initPort`, where the adapter answers with `answers` in turn and `n` bytes
arrive during the sleep. -/
def initPort (answers : Fin 6 → List UInt8) (n : Nat) : List SessionAct :=
  [blindRequest (bytes ['a', 't', 'z', '\r']) (answers 0),
    blindRequest (bytes ['a', 't', 'i', '\r']) (answers 1),
    blindRequest (bytes ['a', 't', 'e', '0', '\r']) (answers 2),
    .arrive n,
    .flush,
    blindRequest (bytes ['a', 't', 'l', '0', '\r']) (answers 3),
    blindRequest (bytes ['a', 't', 'h', '0', '\r']) (answers 4),
    blindRequest (bytes ['0', '1', '0', 'C', '\r']) (answers 5)]

end CarPi.Obd2
