/-
CarPi.Serial.ReopeningTheorems — what `AsyncSerial` keeps over any sequence of
`open`, `writeString` and `close`, under every interleaving with the background
thread and the device.

Nothing of the write path is reset by `close` or `open`. So the object is one
channel over all its lifetimes (`reopening_simulates_fifo`): what a `close` finds
in the queue is there for the next `open`. And a write that fails, as the one
under way in a `close` does, blocks it for good: its buffer is
not released, and `doWrite` takes it for a write in progress
(`failed_write_jams`). `PortInv` says how the main thread, the background
thread and the device go together over those lifetimes.

Two more ways not to come back: a `doClose` that no thread was left to run
closes the device of the next `open` (`leftover_close_shuts`), and an `open`
that throws behind the device leaves it open, where every later one throws
(`option_failure_final`).
-/
import CarPi.Serial.Reopening
import CarPi.Serial.ReadTheorems
import CarPi.Serial.WriteTheorems

namespace CarPi.Serial

open CarPi.Foundation

/-! ## The write side over all lifetimes -/

theorem doClose_frame (s : AsyncSerial) (closeFails : Bool) :
    writeSide (s.doClose closeFails) = writeSide s ∧
      (s.doClose closeFails).posted = s.posted := by
  cases closeFails <;> exact ⟨rfl, rfl⟩

/-- What a step of `close`, or of the `open` behind it, leaves alone. -/
theorem port_frame {p p' : Port} {act : PortAct} (h : portStep p act = some p') :
    (∃ a, act = .serial a) ∨
      writeSide p'.serial = writeSide p.serial ∧ p'.serial.posted = p.serial.posted := by
  cases act with
  | serial a => exact Or.inl ⟨a, rfl⟩
  | optionThrows => obtain ⟨_, rfl⟩ := portStep_optionThrows_iff.mp h; exact Or.inr ⟨rfl, rfl⟩
  | openAgain => obtain ⟨_, rfl⟩ := portStep_openAgain_iff.mp h; exact Or.inr ⟨rfl, rfl⟩
  | close =>
    obtain ⟨_, ⟨_, rfl⟩ | ⟨_, rfl⟩⟩ := portStep_close_cases h <;> exact Or.inr ⟨rfl, rfl⟩
  | postClose => obtain ⟨_, rfl⟩ := portStep_postClose_iff.mp h; exact Or.inr ⟨rfl, rfl⟩
  | runClose closeFails =>
    obtain ⟨_, rfl⟩ := portStep_runClose_iff.mp h
    exact Or.inr (doClose_frame p.serial closeFails)
  | join => obtain ⟨_, rfl⟩ := portStep_join_iff.mp h; exact Or.inr ⟨rfl, rfl⟩

/-- The invariant of the write path does not depend on lifetimes. -/
theorem writeInv_portStep {p p' : Port} {act : PortAct} (h : WriteInv p.serial)
    (hs : portStep p act = some p') : WriteInv p'.serial := by
  rcases port_frame hs with ⟨a, rfl⟩ | ⟨hside, hposted⟩
  · obtain ⟨_, s, hstep, rfl⟩ := portStep_serial_iff.mp hs
    exact writeInv_step h hstep
  · exact h.frame hside (by rw [hposted]) (by rw [hposted]; exact id)

theorem writeInv_port {p : Port} (h : reopening.Reachable p) : WriteInv p.serial := by
  refine h.invariant (I := fun p => WriteInv p.serial) ?_ ?_
  · rintro p rfl
    exact writeInv_constructed
  · intro p act p' hinv hs
    exact writeInv_portStep hinv (show portStep p act = some p' from hs)

theorem channel_simulates_fifo :
    LTS.Simulation reopening (fifo UInt8) (fun p => channelOf p.serial) := by
  refine ⟨?_, ?_⟩
  · rintro p rfl
    rfl
  · intro p act p' hreach hs
    change portStep p act = some p' at hs
    rcases port_frame hs with ⟨a, rfl⟩ | ⟨hside, _⟩
    · obtain ⟨_, s, hstep, rfl⟩ := portStep_serial_iff.mp hs
      exact channelOf_step (writeInv_port hreach) hstep
    · simp only [writeSide, Prod.mk.injEq] at hside
      exact Or.inr (by simp [channelOf, hside])

/-- Once a write has failed none is under way, none has ended well, and its buffer
is still there. -/
theorem jammed_of_failed {s : AsyncSerial} (h : WriteInv s) (hfailed : s.writeFailed = true) :
    s.writing = [] ∧ s.posted.count (.writeEnd false) = 0 ∧ s.writeBuffer.isSome = true := by
  have hbusy := h.busy
  have hone : s.writeBuffer.isSome.toNat ≤ 1 := Bool.toNat_le _
  rw [hfailed, Bool.toNat_true] at hbusy
  refine ⟨List.length_eq_zero_iff.mp (by omega), by omega, ?_⟩
  cases hb : s.writeBuffer.isSome with
  | true => rfl
  | false => rw [hb, Bool.toNat_false] at hbusy; omega

/-- What the device was given, and whether a write failed. -/
def deviceSide (s : AsyncSerial) := (s.handed, s.transmitted, s.writeFailed)

theorem deviceSide_of_writeSide {s s' : AsyncSerial} (h : writeSide s' = writeSide s) :
    deviceSide s' = deviceSide s := by
  simp only [writeSide, Prod.mk.injEq] at h
  simp [deviceSide, h]

theorem deviceSide_step {s s' : AsyncSerial} {a : Act} (hinv : WriteInv s)
    (hfailed : s.writeFailed = true) (hs : step s a = some s') :
    deviceSide s' = deviceSide s := by
  obtain ⟨hwriting, hend, hbuffer⟩ := jammed_of_failed hinv hfailed
  cases a with
  | openNext =>
    obtain ⟨_, ⟨_, rfl⟩ | ⟨_, rfl⟩ | ⟨_, rfl⟩ | ⟨_, rfl⟩ | ⟨_, rfl⟩⟩ :=
      step_openNext_cases hs <;> rfl
  | openThrows => obtain ⟨_, rfl⟩ := step_openThrows_iff.mp hs; rfl
  | setCallback set => obtain ⟨_, rfl⟩ := step_setCallback_iff.mp hs; rfl
  | append str => obtain ⟨_, rfl⟩ := step_append_iff.mp hs; rfl
  | postWrite => obtain ⟨_, rfl⟩ := step_postWrite_iff.mp hs; rfl
  | finish => obtain ⟨_, rfl⟩ := step_finish_iff.mp hs; rfl
  | readDone error data => obtain ⟨_, rfl⟩ := step_readDone_iff.mp hs; rfl
  | writeDone error buffer =>
    obtain ⟨hmem, _⟩ := step_writeDone_iff.mp hs
    rw [hwriting] at hmem
    cases hmem
  | run handler closeFails =>
    obtain ⟨_, hmem, rfl⟩ := step_run_iff.mp hs
    cases handler with
    | doRead => rfl
    | readEnd error data => exact deviceSide_of_writeSide (readEnd_frame _ error data closeFails).1
    | doWrite =>
      have hne : s.writeBuffer ≠ none := Option.isSome_iff_ne_none.mp hbuffer
      simp [AsyncSerial.runHandler, AsyncSerial.doWrite, hne, deviceSide]
    | writeEnd error =>
      cases error with
      | true => rw [AsyncSerial.runHandler, AsyncSerial.writeEnd_error]; rfl
      | false => exact absurd hmem (List.count_eq_zero.mp hend)

/-- **Once a write has failed, the object never writes again**, however often it is
closed and opened: the buffer of the failed write is not released. -/
theorem failed_write_jams {p q : Port} {as : List PortAct} (hreach : reopening.Reachable p)
    (hfailed : p.serial.writeFailed = true) (hrun : reopening.Run p as q) :
    q.serial.handed = p.serial.handed ∧ q.serial.transmitted = p.serial.transmitted := by
  have hboth : WriteInv q.serial ∧ deviceSide q.serial = deviceSide p.serial := by
    refine hrun.invariant
      (I := fun q => WriteInv q.serial ∧ deviceSide q.serial = deviceSide p.serial) ?_
      ⟨writeInv_port hreach, rfl⟩
    rintro q act q' ⟨hinv, hside⟩ hs
    change portStep q act = some q' at hs
    refine ⟨writeInv_portStep hinv hs, ?_⟩
    rcases port_frame hs with ⟨a, rfl⟩ | ⟨hframe, _⟩
    · obtain ⟨_, s, hstep, rfl⟩ := portStep_serial_iff.mp hs
      have hq : q.serial.writeFailed = true := by
        simp only [deviceSide, Prod.mk.injEq] at hside
        rw [hside.2.2, hfailed]
      exact (deviceSide_step hinv hq hstep).trans hside
    · exact (deviceSide_of_writeSide hframe).trans hside
  simp only [deviceSide, Prod.mk.injEq] at hboth
  exact ⟨hboth.2.1, hboth.2.2.1⟩

/-- The write of "A" fails, and the port is closed. -/
def jammedRun : List PortAct :=
  [.serial .openNext, .serial .openNext, .serial .openNext, .serial .openNext, .serial .openNext,
    .serial (.append [65]), .serial .postWrite, .serial (.run .doWrite false),
    .serial (.writeDone true [65]), .serial (.run (.writeEnd true) false), .close, .postClose,
    .runClose false, .serial (.run .doRead false), .serial (.readDone true []),
    .serial (.run (.readEnd true []) false), .serial .finish, .join]

/-- The port is opened again, and "B" written to it. -/
def jammedAgainRun : List PortAct :=
  [.openAgain, .serial .openNext, .serial .openNext, .serial .openNext, .serial .openNext,
    .serial .openNext, .serial (.append [66]), .serial .postWrite, .serial (.run .doWrite false)]

theorem failed_write_jams_jammedRun :
    ∃ p q, exec portStep .constructed jammedRun = some p ∧
      exec portStep p jammedAgainRun = some q ∧ q.serial.appended = [65, 66] ∧
      q.serial.handed = p.serial.handed ∧ q.serial.transmitted = p.serial.transmitted := by
  have hsome : ∃ p ∈ exec portStep .constructed jammedRun, p.serial.writeFailed = true ∧
      ∃ q ∈ exec portStep p jammedAgainRun, q.serial.appended = [65, 66] := by decide
  obtain ⟨p, hp, hfailed, q, hq, happended⟩ := hsome
  exact ⟨p, q, hp, hq, happended,
    failed_write_jams (LTS.reachable_of_exec jammedRun hp) hfailed (LTS.run_of_exec hq)⟩

/-! ## The two threads -/

/-- `open` has not started its thread. -/
def OpenStage.beforeThread : OpenStage → Bool
  | .constructed | .threw | .portOpened | .readPosted => true
  | .threadStarted | .errorCleared | .returned => false

/-- How the main thread, the background thread and the device go together. -/
structure PortInv (p : Port) : Prop where
  marked : p.serial.open' = true → p.serial.stage = .returned ∧ p.closing = .outside
  closing : p.closing ≠ .outside → p.serial.stage = .returned
  before : p.serial.stage.beforeThread = true → p.serial.backgroundThread ≠ .running
  started : p.serial.stage.beforeThread = false → p.serial.backgroundThread ≠ .notStarted
  shut : p.serial.stage = .returned → p.serial.open' = false → p.closing = .outside →
    p.serial.backgroundThread ≠ .running
  idle : p.serial.backgroundThread ≠ .running → p.serial.reading = 0 ∧ p.serial.writing = []
  coming : p.closing = .joining → p.serial.backgroundThread = .running →
    0 < p.closesPosted ∨ p.portOpen = false

theorem portInv_constructed : PortInv .constructed := by
  refine ⟨?_, ?_, ?_, ?_, ?_, fun _ => ⟨rfl, rfl⟩, ?_⟩ <;> decide

/-- What `doClose` leaves alone. -/
theorem doClose_eq (s : AsyncSerial) (closeFails : Bool) :
    s.doClose closeFails = { s with error := closeFails || s.error } := by
  cases closeFails <;> rfl

/-- A step that leaves `open` where it is and starts nothing behind the back of the
thread. -/
theorem PortInv.frame {p : Port} {s : AsyncSerial} {portOpen : Bool} (h : PortInv p)
    (hstage : s.stage = p.serial.stage) (hopen : s.open' = p.serial.open')
    (hthread : s.backgroundThread = p.serial.backgroundThread)
    (hidle : p.serial.backgroundThread ≠ .running →
      s.reading = p.serial.reading ∧ s.writing = p.serial.writing)
    (hport : portOpen = true → p.portOpen = true) :
    PortInv { p with serial := s, portOpen := portOpen } := by
  refine ⟨?_, ?_, ?_, ?_, ?_, ?_, ?_⟩
  · simpa only [hopen, hstage] using h.marked
  · simpa only [hstage] using h.closing
  · simpa only [hstage, hthread] using h.before
  · simpa only [hstage, hthread] using h.started
  · simpa only [hstage, hopen, hthread] using h.shut
  · intro hne
    simp only [hthread] at hne
    obtain ⟨hreading, hwriting⟩ := hidle hne
    rw [hreading, hwriting]
    exact h.idle hne
  · intro hjoining hrunning
    simp only [hthread] at hrunning
    refine (h.coming hjoining hrunning).imp_right fun hclosed => ?_
    cases portOpen with
    | false => rfl
    | true => rw [hport rfl] at hclosed; cases hclosed

/-- The five steps of `open`. -/
theorem portInv_openNext {p : Port} {s : AsyncSerial} (h : PortInv p)
    (hallows : p.allows .openNext = true) (hs : step p.serial .openNext = some s) :
    PortInv { p with serial := s, portOpen := p.portOpenAfter .openNext } := by
  have hout : p.closing = .outside := by
    simp only [Port.allows, Bool.and_eq_true, decide_eq_true_eq] at hallows
    exact hallows.1
  have hshut : p.serial.stage ≠ .returned → p.serial.open' = false := by
    intro hne
    by_contra hopen
    exact hne (h.marked (by simpa using hopen)).1
  obtain ⟨_, ⟨hstage, rfl⟩ | ⟨hstage, rfl⟩ | ⟨hstage, rfl⟩ | ⟨hstage, rfl⟩ | ⟨hstage, rfl⟩⟩ :=
    step_openNext_cases hs
  all_goals
    have hmarked := hshut (by rw [hstage]; decide)
    have hbefore := h.before
    have hstarted := h.started
    have hidle := h.idle
    rw [hstage] at hbefore hstarted
    constructor <;> simp_all [OpenStage.beforeThread, AsyncSerial.setErrorStatus,
      AsyncSerial.post]

/-- `open` has thrown, at the device or at an option. -/
theorem portInv_threw {p : Port} {portOpen : Bool} (h : PortInv p)
    (hout : p.closing = .outside) (hstage : p.serial.stage = .constructed) :
    PortInv { p with
      serial := { p.serial.setErrorStatus true with stage := .threw }, portOpen := portOpen } := by
  have hbefore := h.before (by rw [hstage]; rfl)
  have hshut : p.serial.open' = false := by
    by_contra hopen
    have := (h.marked (by simpa using hopen)).1
    rw [hstage] at this
    cases this
  refine ⟨?_, fun hne => absurd hout hne, fun _ => hbefore, ?_, ?_, h.idle, ?_⟩
  · intro hopen
    exact absurd (hshut.symm.trans hopen) (by decide)
  · intro hthread
    cases hthread
  · intro hreturned
    cases hreturned
  · intro hjoining
    exact absurd (hout.symm.trans hjoining) (by decide)

theorem portInv_serial {p : Port} {s : AsyncSerial} {a : Act} (h : PortInv p)
    (hallows : p.allows a = true) (hs : step p.serial a = some s) :
    PortInv { p with serial := s, portOpen := p.portOpenAfter a } := by
  cases a with
  | openNext => exact portInv_openNext h hallows hs
  | openThrows =>
    obtain ⟨⟨_, hstage⟩, rfl⟩ := step_openThrows_iff.mp hs
    exact portInv_threw h (by simpa [Port.allows] using hallows) hstage
  | setCallback set =>
    obtain ⟨_, rfl⟩ := step_setCallback_iff.mp hs
    exact h.frame rfl rfl rfl (fun _ => ⟨rfl, rfl⟩) id
  | append str =>
    obtain ⟨_, rfl⟩ := step_append_iff.mp hs
    exact h.frame rfl rfl rfl (fun _ => ⟨rfl, rfl⟩) id
  | postWrite =>
    obtain ⟨_, rfl⟩ := step_postWrite_iff.mp hs
    exact h.frame rfl rfl rfl (fun _ => ⟨rfl, rfl⟩) id
  | run handler closeFails =>
    obtain ⟨hrunning, hmem, rfl⟩ := step_run_iff.mp hs
    have hframe := runHandler_frame { p.serial with posted := p.serial.posted.erase handler }
      closeFails handler
    refine h.frame hframe.1 hframe.2 (AsyncSerial.runHandler_untouched _ closeFails handler |>.2.1)
      (fun hne => absurd hrunning hne) ?_
    intro hport
    simp only [Port.portOpenAfter, Bool.and_eq_true] at hport
    exact hport.1
  | finish =>
    obtain ⟨⟨_, _, hreading, hwriting⟩, rfl⟩ := step_finish_iff.mp hs
    refine ⟨h.marked, h.closing, fun _ => ?_, fun _ => ?_, fun _ _ _ => ?_,
      fun _ => ⟨hreading, hwriting⟩, ?_⟩
    · simp
    · simp
    · simp
    · intro _ hrunning
      cases hrunning
  | readDone error data =>
    obtain ⟨⟨hpos, _⟩, rfl⟩ := step_readDone_iff.mp hs
    refine h.frame rfl rfl rfl (fun hne => ?_) id
    have := (h.idle hne).1
    omega
  | writeDone error buffer =>
    obtain ⟨hmem, rfl⟩ := step_writeDone_iff.mp hs
    refine h.frame rfl rfl rfl (fun hne => ?_) id
    rw [(h.idle hne).2] at hmem
    cases hmem

/-- **One step of either thread, or of the device, keeps them together.** -/
theorem portInv_step {p p' : Port} {act : PortAct} (h : PortInv p)
    (hs : portStep p act = some p') : PortInv p' := by
  cases act with
  | serial a =>
    obtain ⟨hallows, s, hstep, rfl⟩ := portStep_serial_iff.mp hs
    exact portInv_serial h hallows hstep
  | optionThrows =>
    obtain ⟨⟨hfree, hstage, _⟩, rfl⟩ := portStep_optionThrows_iff.mp hs
    simp only [Port.mainFree, Bool.and_eq_true, decide_eq_true_eq] at hfree
    exact portInv_threw h hfree.1 hstage
  | openAgain =>
    obtain ⟨⟨hfree, houtside, hshut⟩, rfl⟩ := portStep_openAgain_iff.mp hs
    simp only [Port.mainFree, Bool.and_eq_true, decide_eq_true_eq] at hfree
    have hidle : p.serial.backgroundThread ≠ .running := by
      cases hstage : p.serial.stage with
      | returned => exact h.shut hstage hshut hfree.1
      | constructed => exact h.before (by rw [hstage]; rfl)
      | threw => exact h.before (by rw [hstage]; rfl)
      | _ => simp [AsyncSerial.outsideOpen, hstage] at houtside
    refine ⟨?_, fun hne => absurd hfree.1 hne, fun _ => hidle, ?_, ?_, h.idle, h.coming⟩
    · intro hopen
      exact absurd (hshut.symm.trans hopen) (by decide)
    · intro hthread
      cases hthread
    · intro hreturned
      cases hreturned
  | close =>
    obtain ⟨_, ⟨hopen, rfl⟩ | ⟨_, rfl⟩⟩ := portStep_close_cases hs
    · refine ⟨?_, fun _ => (h.marked hopen).1, h.before, h.started, ?_, h.idle, ?_⟩
      · intro hopen'
        cases hopen'
      · intro _ _ hout
        cases hout
      · intro hjoining
        cases hjoining
    · exact h
  | postClose =>
    obtain ⟨hmarked, rfl⟩ := portStep_postClose_iff.mp hs
    have hstage := h.closing (by rw [hmarked]; decide)
    refine ⟨?_, fun _ => hstage, h.before, h.started, ?_, h.idle,
      fun _ _ => Or.inl (Nat.succ_pos _)⟩
    · intro hopen
      have := (h.marked hopen).2
      rw [hmarked] at this
      cases this
    · intro _ _ hout
      cases hout
  | runClose closeFails =>
    obtain ⟨⟨hrunning, _⟩, rfl⟩ := portStep_runClose_iff.mp hs
    simp only [doClose_eq]
    exact ⟨h.marked, h.closing, h.before, h.started, h.shut, h.idle, fun _ _ => Or.inr rfl⟩
  | join =>
    obtain ⟨⟨hjoining, hfinished⟩, rfl⟩ := portStep_join_iff.mp hs
    refine ⟨?_, fun hne => absurd rfl hne, h.before, h.started, ?_, h.idle, ?_⟩
    · intro hopen
      have := (h.marked hopen).2
      rw [hjoining] at this
      cases this
    · intro _ _ _
      rw [hfinished]
      decide
    · intro hout
      cases hout

theorem portInv_reachable {p : Port} (h : reopening.Reachable p) : PortInv p := by
  refine h.invariant ?_ ?_
  · rintro p rfl
    exact portInv_constructed
  · intro p act p' hinv hs
    exact portInv_step hinv (show portStep p act = some p' from hs)

/-! ## What is left over -/

/-- `open` has got past the device, which is closed by now, or a `doClose` is still
to come. -/
def Port.Undermined (p : Port) : Prop :=
  p.serial.stage ≠ .constructed ∧ (0 < p.closesPosted ∨ p.portOpen = false)

/-- A step that leaves `open` past the device, and does not open it. -/
theorem Port.Undermined.frame {p : Port} {s : AsyncSerial} {portOpen : Bool}
    (h : p.Undermined) (hstage : s.stage ≠ .constructed)
    (hport : portOpen = true → p.portOpen = true) :
    Port.Undermined { p with serial := s, portOpen := portOpen } := by
  refine ⟨hstage, h.2.imp_right fun hclosed => ?_⟩
  cases portOpen with
  | false => rfl
  | true => rw [hport rfl] at hclosed; cases hclosed

theorem undermined_serial {p : Port} {s : AsyncSerial} {a : Act} (h : p.Undermined)
    (hs : step p.serial a = some s) :
    Port.Undermined { p with serial := s, portOpen := p.portOpenAfter a } := by
  have hstage := h.1
  cases a with
  | openNext =>
    refine h.frame ?_ (by simp [Port.portOpenAfter, hstage])
    obtain ⟨_, ⟨_, rfl⟩ | ⟨_, rfl⟩ | ⟨_, rfl⟩ | ⟨_, rfl⟩ | ⟨_, rfl⟩⟩ :=
      step_openNext_cases hs <;> simp
  | openThrows => exact absurd (step_openThrows_iff.mp hs).1.2 hstage
  | setCallback set => obtain ⟨_, rfl⟩ := step_setCallback_iff.mp hs; exact h.frame hstage id
  | append str => obtain ⟨_, rfl⟩ := step_append_iff.mp hs; exact h.frame hstage id
  | postWrite => obtain ⟨_, rfl⟩ := step_postWrite_iff.mp hs; exact h.frame hstage id
  | finish => obtain ⟨_, rfl⟩ := step_finish_iff.mp hs; exact h.frame hstage id
  | readDone error data => obtain ⟨_, rfl⟩ := step_readDone_iff.mp hs; exact h.frame hstage id
  | writeDone error buffer =>
    obtain ⟨_, rfl⟩ := step_writeDone_iff.mp hs
    exact h.frame hstage id
  | run handler closeFails =>
    obtain ⟨_, _, rfl⟩ := step_run_iff.mp hs
    have hframe := runHandler_frame { p.serial with posted := p.serial.posted.erase handler }
      closeFails handler
    refine h.frame (by rw [hframe.1]; exact hstage) fun hport => ?_
    simp only [Port.portOpenAfter, Bool.and_eq_true] at hport
    exact hport.1

/-- Only the next `open` gets rid of it. -/
theorem undermined_step {p p' : Port} {act : PortAct} (hact : act ≠ .openAgain)
    (h : p.Undermined) (hs : portStep p act = some p') : p'.Undermined := by
  cases act with
  | serial a =>
    obtain ⟨_, s, hstep, rfl⟩ := portStep_serial_iff.mp hs
    exact undermined_serial h hstep
  | optionThrows => exact absurd (portStep_optionThrows_iff.mp hs).1.2.1 h.1
  | openAgain => exact absurd rfl hact
  | close => obtain ⟨_, ⟨_, rfl⟩ | ⟨_, rfl⟩⟩ := portStep_close_cases hs <;> exact h
  | postClose =>
    obtain ⟨_, rfl⟩ := portStep_postClose_iff.mp hs
    exact ⟨h.1, Or.inl (Nat.succ_pos _)⟩
  | runClose closeFails =>
    obtain ⟨_, rfl⟩ := portStep_runClose_iff.mp hs
    simp only [doClose_eq]
    exact ⟨h.1, Or.inr rfl⟩
  | join => obtain ⟨_, rfl⟩ := portStep_join_iff.mp hs; exact h

/-- The steps of a run in which `open` is not called anew. -/
def NotOpenAgain (_ : Port) (act : PortAct) : Prop := act ≠ .openAgain

/-- **A `doClose` left over closes the port of the next `open`**: once that `open` is
past the device and nothing is left over, the device is closed, though `close` was
not called. -/
theorem leftover_close_shuts {p q : Port} {as : List PortAct} (hleft : 0 < p.closesPosted)
    (hopened : p.serial.stage = .portOpened)
    (hrun : (reopening.restrict NotOpenAgain).Run p as q) (hdone : q.closesPosted = 0) :
    q.portOpen = false := by
  have hq : q.Undermined := by
    refine hrun.invariant (fun r act r' hr hs => ?_) ⟨by rw [hopened]; decide, Or.inl hleft⟩
    exact undermined_step hs.1 hr (show portStep r act = some r' from hs.2)
  exact hq.2.resolve_left (by omega)

/-- The port is opened, and its read ends with an error; the thread returns. -/
def failedRun : List PortAct :=
  [.serial .openNext, .serial .openNext, .serial .openNext, .serial .openNext, .serial .openNext,
    .serial (.run .doRead false), .serial (.readDone true []),
    .serial (.run (.readEnd true []) false), .serial .finish, .close]

/-- The port that failed is closed and opened again, up to the device. -/
def reopenedRun : List PortAct :=
  failedRun ++ [.postClose, .join, .openAgain, .serial .openNext]

/-- The rest of `open`, and the first handlers of its thread. -/
def leftoverRun : List PortAct :=
  [.serial .openNext, .serial .openNext, .serial .openNext, .serial .openNext,
    .runClose false]

theorem leftover_close_shuts_reopenedRun :
    ∃ p q, exec portStep .constructed reopenedRun = some p ∧
      exec portStep p leftoverRun = some q ∧ q.serial.isOpen = true ∧ q.portOpen = false := by
  have hsome : ∃ p ∈ exec portStep .constructed reopenedRun,
      ((0 < p.closesPosted ∧ p.serial.stage = .portOpened) ∧
        ∃ q ∈ exec portStep p leftoverRun, q.closesPosted = 0 ∧ q.serial.isOpen = true) := by
    decide
  obtain ⟨p, hp, ⟨hleft, hopened⟩, q, hq, hdone, hopen⟩ := hsome
  exact ⟨p, q, hp, hq, hopen, leftover_close_shuts hleft hopened
    ((LTS.run_of_exec hq).restrict_labels (by decide)) hdone⟩

/-! ## An option that cannot be set -/

/-- `open` has thrown with the device open. -/
structure Port.Stuck (p : Port) : Prop where
  device : p.portOpen = true
  unmarked : p.serial.isOpen = false
  stage : p.serial.stage = .threw ∨ p.serial.stage = .constructed
  outside : p.closing = .outside

theorem Port.Stuck.beforeThread {p : Port} (h : p.Stuck) :
    p.serial.stage.beforeThread = true := by
  rcases h.stage with hstage | hstage <;> rw [hstage] <;> rfl

/-- The object stays where it is: `port.open` throws on an open device, and `close`
does not look further than `isOpen()`. -/
theorem stuck_step {p p' : Port} {act : PortAct} (hinv : PortInv p) (h : p.Stuck)
    (hs : portStep p act = some p') : p'.Stuck := by
  have hidle := hinv.before h.beforeThread
  cases act with
  | serial a =>
    obtain ⟨hallows, s, hstep, rfl⟩ := portStep_serial_iff.mp hs
    cases a with
    | openNext =>
      obtain ⟨_, ⟨hstage, _⟩ | ⟨hstage, _⟩ | ⟨hstage, _⟩ | ⟨hstage, _⟩ | ⟨hstage, _⟩⟩ :=
        step_openNext_cases hstep
      · simp [Port.allows, hstage, h.device] at hallows
      all_goals
        have := h.stage
        simp [hstage] at this
    | openThrows =>
      obtain ⟨_, rfl⟩ := step_openThrows_iff.mp hstep
      exact ⟨h.device, h.unmarked, Or.inl rfl, h.outside⟩
    | setCallback set =>
      obtain ⟨_, rfl⟩ := step_setCallback_iff.mp hstep
      exact ⟨h.device, h.unmarked, h.stage, h.outside⟩
    | append str =>
      obtain ⟨_, rfl⟩ := step_append_iff.mp hstep
      exact ⟨h.device, h.unmarked, h.stage, h.outside⟩
    | postWrite =>
      obtain ⟨_, rfl⟩ := step_postWrite_iff.mp hstep
      exact ⟨h.device, h.unmarked, h.stage, h.outside⟩
    | run handler closeFails => exact absurd (step_run_iff.mp hstep).1 hidle
    | finish => exact absurd (step_finish_iff.mp hstep).1.1 hidle
    | readDone error data =>
      have hpos := (step_readDone_iff.mp hstep).1.1
      rw [(hinv.idle hidle).1] at hpos
      cases hpos
    | writeDone error buffer =>
      have hmem := (step_writeDone_iff.mp hstep).1
      rw [(hinv.idle hidle).2] at hmem
      cases hmem
  | optionThrows =>
    have hclosed := (portStep_optionThrows_iff.mp hs).1.2.2
    rw [h.device] at hclosed
    cases hclosed
  | openAgain =>
    obtain ⟨_, rfl⟩ := portStep_openAgain_iff.mp hs
    exact ⟨h.device, h.unmarked, Or.inr rfl, h.outside⟩
  | close =>
    obtain ⟨_, ⟨hopen, _⟩ | ⟨_, rfl⟩⟩ := portStep_close_cases hs
    · rw [h.unmarked] at hopen
      cases hopen
    · exact h
  | postClose =>
    have hmarked := (portStep_postClose_iff.mp hs).1
    rw [h.outside] at hmarked
    cases hmarked
  | runClose closeFails => exact absurd (portStep_runClose_iff.mp hs).1.1 hidle
  | join =>
    have hjoining := (portStep_join_iff.mp hs).1.1
    rw [h.outside] at hjoining
    cases hjoining

/-- **An `open` that fails at an option is the last**: the device stays open behind an
object that is not, so every later `open` throws, and `close` does nothing. -/
theorem option_failure_final {p p' q : Port} {as : List PortAct}
    (hreach : reopening.Reachable p) (hfail : portStep p .optionThrows = some p')
    (hrun : reopening.Run p' as q) :
    q.portOpen = true ∧ q.serial.isOpen = false ∧
      (q.serial.stage = .threw ∨ q.serial.stage = .constructed) := by
  have hinv' := portInv_step (portInv_reachable hreach) hfail
  obtain ⟨⟨hfree, hstage, _⟩, rfl⟩ := portStep_optionThrows_iff.mp hfail
  have hmarked : p.serial.isOpen = false := by
    by_contra hopen
    have := ((portInv_reachable hreach).marked (by simpa [AsyncSerial.isOpen] using hopen)).1
    rw [hstage] at this
    cases this
  simp only [Port.mainFree, Bool.and_eq_true, decide_eq_true_eq] at hfree
  have hstuck : PortInv q ∧ q.Stuck := by
    refine hrun.invariant (I := fun r => PortInv r ∧ r.Stuck) ?_
      ⟨hinv', rfl, hmarked, Or.inl rfl, hfree.1⟩
    rintro r act r' ⟨hinv, hr⟩ hs
    change portStep r act = some r' at hs
    exact ⟨portInv_step hinv hs, stuck_step hinv hr hs⟩
  exact ⟨hstuck.2.device, hstuck.2.unmarked, hstuck.2.stage⟩

/-- `open` reaches the device, and fails at an option. -/
theorem option_failure_final_constructed :
    ∃ p' q, portStep .constructed .optionThrows = some p' ∧
      exec portStep p' [.openAgain, .serial .openThrows, .close] = some q ∧
      q.portOpen = true ∧ q.serial.isOpen = false ∧
      (q.serial.stage = .threw ∨ q.serial.stage = .constructed) := by
  have hsome : ((portStep .constructed .optionThrows).bind fun p' =>
      exec portStep p' [.openAgain, .serial .openThrows, .close]).isSome = true := by decide
  obtain ⟨q, hq⟩ := Option.isSome_iff_exists.mp hsome
  obtain ⟨p', hfail, hrun⟩ := Option.bind_eq_some_iff.mp hq
  exact ⟨p', q, hfail, hrun, option_failure_final (LTS.reachable_of_exec [] rfl) hfail
    (LTS.run_of_exec hrun)⟩

end CarPi.Serial
