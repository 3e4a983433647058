/-
CarPi.GPS.System — the daemon as a whole: `Pi::CarPi::run` with the serial port
it opens and the logger it binds to the port's callback.

Three machines of the other modules go together: the main thread (`Polling`),
`AsyncSerial` with its background thread and the device, and the logger. A step
of the system is a step of the main thread, of the port, or of both at once;
`mainPart` and `portPart` say which.

* The port is opened by its constructor, and the callback is set behind it, so
  there is a time in which bytes are read for nobody.
* `startPolling` samples the flags of this port, and `writeString` appends and
  posts.
* `boost::bind` takes the logger by value: the one the callback works on is a
  copy, made as it is bound.
* A `readEnd` that succeeds calls the callback, if it is set, with the bytes of
  its read.

Three fields are history: the bytes read before the callback was set, the calls
of the callback, and the bytes read behind `clearCallback`.
-/
import CarPi.GPS.LoggerTheorems
import CarPi.GPS.Polling
import CarPi.Serial.ReadTheorems
import CarPi.Serial.WriteTheorems

namespace CarPi.GPS

open CarPi.Foundation

/-! ## The system -/

structure System where
  daemon : Daemon
  serial : Serial.AsyncSerial
  lg : GPSLogger
  early : List (List UInt8)
  calls : List Delivery
  late : List (List UInt8)
  deriving DecidableEq, Repr

def System.start : System where
  daemon := .start
  serial := .constructed
  lg := .fresh
  early := []
  calls := []
  late := []

inductive SystemAct where
  | signal (s : Signal)
  /-- main thread, in the constructor of the port: the next step of `open` -/
  | openNext
  | openThrows
  /-- the constructor has returned, or thrown -/
  | construct (opened : Bool)
  | setCallback
  | loop
  | check
  /-- `writeString` appends -/
  | append
  /-- `writeString` posts -/
  | postWrite
  | wake
  | clearCallback
  /-- background thread: a posted handler runs; the logging core opens the record
  of a call of the callback, or turns it down -/
  | run (h : Serial.Handler) (closeFails opened : Bool)
  | finish
  /-- device -/
  | readDone (error : Bool) (data : List UInt8)
  | writeDone (error : Bool) (buffer : List UInt8)
  deriving DecidableEq, Repr

namespace System

/-- The part of the main thread in a step. -/
def mainPart (sys : System) : SystemAct → Option Act
  | .signal s => some (.signal s)
  | .construct opened => some (.construct opened)
  | .loop => some .loop
  | .check => some (.check ⟨sys.serial.errorStatus, sys.serial.isOpen⟩)
  | .append => some .writeString
  | .wake => some .wake
  | .clearCallback => some .clearCallback
  | _ => none

/-- The part of the port in a step. -/
def portPart : SystemAct → Option Serial.Act
  | .openNext => some .openNext
  | .openThrows => some .openThrows
  | .setCallback => some (.setCallback true)
  | .append => some (.append cgpsinfo)
  | .postWrite => some .postWrite
  | .clearCallback => some (.setCallback false)
  | .run h closeFails _ => some (.run h closeFails)
  | .finish => some .finish
  | .readDone error data => some (.readDone error data)
  | .writeDone error buffer => some (.writeDone error buffer)
  | _ => none

/-- The order of the statements of `run` and `startPolling`. -/
def allows (sys : System) : SystemAct → Bool
  | .openNext => sys.daemon.phase = .starting
  | .openThrows => sys.daemon.phase = .starting
  | .construct opened => sys.serial.stage = if opened then .returned else .threw
  | .setCallback => sys.daemon.phase = .looping 0 && !sys.serial.callback
  | .loop => sys.serial.callback
  | .wake => !sys.serial.posting
  | _ => true

/-- The callback is called with the bytes of a read, or these are lost. -/
def deliver (sys : System) : SystemAct → System
  | .run (.readEnd false data) _ opened =>
      if sys.serial.callback then
        { sys with
          lg := recievedDataCallback sys.lg ⟨data, opened⟩
          calls := sys.calls ++ [⟨data, opened⟩] }
      else if sys.daemon.phase = .exited then { sys with late := sys.late ++ [data] }
      else { sys with early := sys.early ++ [data] }
  | _ => sys

end System

def systemStep (sys : System) (act : SystemAct) : Option System :=
  if sys.allows act then
    (move step sys.daemon (sys.mainPart act)).bind fun daemon =>
      (move Serial.step sys.serial (System.portPart act)).map fun serial =>
        { sys.deliver act with daemon, serial }
  else none

def system : LTS System SystemAct := .ofStep .start systemStep

theorem systemStep_iff {sys sys' : System} {act : SystemAct} :
    systemStep sys act = some sys' ↔
      sys.allows act = true ∧
        ∃ daemon serial, move step sys.daemon (sys.mainPart act) = some daemon ∧
          move Serial.step sys.serial (System.portPart act) = some serial ∧
          sys' = { sys.deliver act with daemon, serial } := by
  rw [systemStep]
  by_cases h : sys.allows act = true
  · simp only [if_pos h, Option.bind_eq_some_iff, Option.map_eq_some_iff]
    simp [h, eq_comm]
  · simp [h]

/-! ## Its parts -/

/-- **The main thread of the system is the one that `Polling` is about.** -/
theorem system_simulates_polling : LTS.Simulation system polling System.daemon := by
  refine .of_move System.mainPart ?_ ?_
  · rintro sys rfl
    rfl
  · intro sys act sys' hs
    obtain ⟨_, daemon, serial, hmain, _, rfl⟩ :=
      systemStep_iff.mp (show systemStep sys act = some sys' from hs)
    exact hmain

/-- **Its port is the one that `Serial` is about.** -/
theorem system_simulates_asyncSerial :
    LTS.Simulation system Serial.asyncSerial System.serial := by
  refine .of_move (fun _ => System.portPart) ?_ ?_
  · rintro sys rfl
    rfl
  · intro sys act sys' hs
    obtain ⟨_, daemon, serial, _, hport, rfl⟩ :=
      systemStep_iff.mp (show systemStep sys act = some sys' from hs)
    exact hport

/-! ## How the parts go together -/

structure SystemInv (sys : System) : Prop where
  commands : sys.serial.appended = (List.replicate sys.daemon.written.length cgpsinfo).flatten
  posting : sys.serial.posting = true → ∃ i, sys.daemon.phase = .sleeping i
  heard : sys.serial.callback = true → sys.daemon.phase ≠ .starting ∧ sys.daemon.phase ≠ .exited
  deaf : sys.serial.callback = false →
    sys.daemon.phase = .starting ∨ sys.daemon.phase = .looping 0 ∨ sys.daemon.phase = .exited
  failed : sys.daemon.phase = .exited → sys.daemon.written = [] → sys.serial.stage = .threw
  made : sys.daemon.phase.Made sys.daemon.written.length

theorem systemInv_start : SystemInv .start := by
  refine ⟨rfl, ?_, ?_, fun _ => Or.inl rfl, ?_, rfl⟩ <;> intro h <;> cases h

/-- The history and the logger are of no concern to the two threads. -/
theorem SystemInv.of_parts {sys sys' : System} (h : SystemInv sys)
    (hdaemon : sys'.daemon.phase = sys.daemon.phase ∧ sys'.daemon.written = sys.daemon.written)
    (hserial : sys'.serial.mainSide = sys.serial.mainSide) : SystemInv sys' := by
  simp only [Serial.AsyncSerial.mainSide, Prod.mk.injEq] at hserial
  obtain ⟨hstage, _, hposting, hcallback, happended⟩ := hserial
  refine ⟨?_, ?_, ?_, ?_, ?_, ?_⟩
  · rw [happended, hdaemon.2]; exact h.commands
  · rw [hposting, hdaemon.1]; exact h.posting
  · rw [hcallback, hdaemon.1]; exact h.heard
  · rw [hcallback, hdaemon.1]; exact h.deaf
  · rw [hstage, hdaemon.1, hdaemon.2]; exact h.failed
  · rw [hdaemon.1, hdaemon.2]; exact h.made

theorem systemInv_step {sys sys' : System} {act : SystemAct} (h : SystemInv sys)
    (hs : systemStep sys act = some sys') : SystemInv sys' := by
  obtain ⟨hallows, daemon, serial, hmain, hport, rfl⟩ := systemStep_iff.mp hs
  cases act with
  | signal s =>
    cases hport
    obtain ⟨_, rfl⟩ := step_cases hmain
    exact h.of_parts (signalHandler_frame sys.daemon s) rfl
  | openNext =>
    cases hmain
    have hstarting : sys.daemon.phase = .starting := by simpa [System.allows] using hallows
    have hexited : sys.daemon.phase ≠ .exited := by rw [hstarting]; decide
    obtain ⟨_, ⟨_, rfl⟩ | ⟨_, rfl⟩ | ⟨_, rfl⟩ | ⟨_, rfl⟩ | ⟨_, rfl⟩⟩ :=
      Serial.step_openNext_cases hport <;>
      exact ⟨h.commands, h.posting, h.heard, h.deaf, fun hex => absurd hex hexited, h.made⟩
  | openThrows =>
    cases hmain
    obtain ⟨_, rfl⟩ := Serial.step_openThrows_iff.mp hport
    exact ⟨h.commands, h.posting, h.heard, h.deaf, fun _ _ => rfl, h.made⟩
  | construct opened =>
    cases hport
    obtain ⟨hstarting, rfl⟩ := step_cases hmain
    have hstage : sys.serial.stage = if opened then .returned else .threw := by
      simpa [System.allows] using hallows
    refine ⟨h.commands, fun hposting => ?_, fun hcallback => ?_, fun _ => ?_, ?_,
      made_step hmain h.made⟩
    · obtain ⟨i, hsleeping⟩ := h.posting hposting
      rw [hstarting] at hsleeping
      cases hsleeping
    · exact absurd hstarting (h.heard hcallback).1
    · cases opened <;> simp
    · cases opened with
      | false => exact fun _ _ => hstage
      | true => intro hexited; cases hexited
  | setCallback =>
    cases hmain
    have hlooping : sys.daemon.phase = .looping 0 := by
      simp only [System.allows, Bool.and_eq_true, decide_eq_true_eq] at hallows
      exact hallows.1
    obtain ⟨_, rfl⟩ := Serial.step_setCallback_iff.mp hport
    refine ⟨h.commands, h.posting, fun _ => ?_, fun hcallback => ?_, h.failed, h.made⟩
    · simp [hlooping]
    · cases hcallback
  | loop =>
    cases hport
    obtain ⟨i, hlooping, rfl⟩ := step_cases hmain
    have hcallback : sys.serial.callback = true := by simpa [System.allows] using hallows
    refine ⟨h.commands, fun hposting => ?_, fun _ => ?_, fun hdeaf => ?_, fun hexited => ?_,
      made_step hmain h.made⟩
    · obtain ⟨j, hsleeping⟩ := h.posting hposting
      rw [hlooping] at hsleeping
      cases hsleeping
    · by_cases hi : i < 5 <;> simp [hi]
    · exact absurd (hcallback.symm.trans hdeaf) (by decide)
    · by_cases hi : i < 5 <;> simp [hi] at hexited
  | check =>
    cases hport
    obtain ⟨i, running, hchecking, rfl⟩ := step_cases hmain
    refine ⟨h.commands, fun hposting => ?_, fun _ => by simp, fun hdeaf => ?_, ?_,
      made_step hmain h.made⟩
    · obtain ⟨j, hsleeping⟩ := h.posting hposting
      rw [hchecking] at hsleeping
      cases hsleeping
    · have := h.deaf hdeaf
      simp [hchecking] at this
    · intro hexited
      cases hexited
  | append =>
    obtain ⟨i, running, check, hwriting, rfl⟩ := step_cases hmain
    obtain ⟨_, rfl⟩ := Serial.step_append_iff.mp hport
    refine ⟨?_, fun _ => ⟨i, rfl⟩, fun _ => by simp, fun hdeaf => ?_, ?_,
      made_step hmain h.made⟩
    · simp [h.commands, List.replicate_succ']
    · have := h.deaf hdeaf
      simp [hwriting] at this
    · intro hexited
      cases hexited
  | postWrite =>
    cases hmain
    obtain ⟨_, rfl⟩ := Serial.step_postWrite_iff.mp hport
    refine ⟨h.commands, fun hposting => ?_, h.heard, h.deaf, h.failed, h.made⟩
    cases hposting
  | wake =>
    cases hport
    obtain ⟨i, hsleeping, rfl⟩ := step_cases hmain
    have hposted : sys.serial.posting = false := by simpa [System.allows] using hallows
    refine ⟨h.commands, fun hposting => ?_, fun _ => by simp, fun hdeaf => ?_, ?_,
      made_step hmain h.made⟩
    · exact absurd (hposted.symm.trans hposting) (by decide)
    · have := h.deaf hdeaf
      simp [hsleeping] at this
    · intro hexited
      cases hexited
  | clearCallback =>
    obtain ⟨hpolled, rfl⟩ := step_cases hmain
    obtain ⟨⟨hposted, _⟩, rfl⟩ := Serial.step_setCallback_iff.mp hport
    refine ⟨h.commands, fun hposting => ?_, fun hcallback => ?_, fun _ => by simp,
      fun _ hnone => ?_, made_step hmain h.made⟩
    · exact absurd (hposted.symm.trans hposting) (by decide)
    · cases hcallback
    · have hmade := h.made
      rw [hpolled, show sys.daemon.written = [] from hnone] at hmade
      cases hmade
  | run handler closeFails opened =>
    cases hmain
    exact h.of_parts ⟨rfl, rfl⟩ (Serial.mainSide_background (a := .run handler closeFails) rfl hport)
  | finish =>
    cases hmain
    exact h.of_parts ⟨rfl, rfl⟩ (Serial.mainSide_background (a := .finish) rfl hport)
  | readDone error data =>
    cases hmain
    exact h.of_parts ⟨rfl, rfl⟩ (Serial.mainSide_background (a := .readDone error data) rfl hport)
  | writeDone error buffer =>
    cases hmain
    exact h.of_parts ⟨rfl, rfl⟩ (Serial.mainSide_background (a := .writeDone error buffer) rfl hport)

theorem systemInv_reachable {sys : System} (h : system.Reachable sys) : SystemInv sys := by
  refine h.invariant ?_ ?_
  · rintro sys rfl
    exact systemInv_start
  · intro sys act sys' hinv hs
    exact systemInv_step hinv (show systemStep sys act = some sys' from hs)

/-! ## What goes out -/

theorem made_le {phase : Phase} {n : Nat} (h : phase.Made n) : n ≤ 5 := by
  cases phase <;> simp only [Phase.Made] at h <;> omega

/-- The command, `n` times. -/
def commands (n : Nat) : List UInt8 := (List.replicate n cgpsinfo).flatten

theorem commands_prefix_of_le {m n : Nat} (h : m ≤ n) : commands m <+: commands n := by
  obtain ⟨k, rfl⟩ := Nat.exists_eq_add_of_le h
  rw [commands, commands, List.replicate_add, List.flatten_append]
  exact List.prefix_append _ _

/-- **The modem is sent the command five times and nothing else**: what has been
handed to the device is the beginning of that, whatever the interleaving, and all of
it once `run` is through and the port quiet. -/
theorem modem_gets_commands {sys : System} (h : system.Reachable sys) :
    sys.serial.handed <+: commands 5 ∧
      (sys.daemon.phase = .exited → sys.serial.stage ≠ .threw → Serial.Quiet sys.serial →
        sys.serial.transmitted = commands 5) := by
  have hinv := systemInv_reachable h
  have hserial := system_simulates_asyncSerial.reachable h
  refine ⟨?_, fun hexited hstage hquiet => ?_⟩
  · have hprefix := Serial.handed_prefix_appended hserial
    rw [hinv.commands] at hprefix
    exact hprefix.trans (commands_prefix_of_le (made_le hinv.made))
  · have hposting : sys.serial.posting = false := by
      by_contra hposting
      obtain ⟨i, hsleeping⟩ := hinv.posting (by simpa using hposting)
      rw [hexited] at hsleeping
      cases hsleeping
    have hmade := hinv.made
    rw [hexited] at hmade
    have hfive : sys.daemon.written.length = 5 := by
      refine hmade.resolve_left fun hzero => hstage (hinv.failed hexited ?_)
      exact List.length_eq_zero_iff.mp hzero
    have htrans := (Serial.quiescent_transmitted (Serial.writeInv_reachable hserial) hquiet
      hposting).2
    rw [htrans, hinv.commands, hfive, commands]

/-- One turn of `startPolling`, with its write. -/
def turnRun : List SystemAct :=
  [.loop, .check, .append, .postWrite, .run .doWrite false true, .writeDone false cgpsinfo,
    .run (.writeEnd false) false true, .wake]

/-- The whole of `run`. -/
def wholeRun : List SystemAct :=
  [.openNext, .openNext, .openNext, .openNext, .openNext, .run .doRead false true,
    .construct true, .setCallback] ++ turnRun ++ turnRun ++ turnRun ++ turnRun ++ turnRun ++
  [.loop, .clearCallback]

theorem modem_gets_commands_wholeRun :
    ∃ sys, exec systemStep .start wholeRun = some sys ∧
      sys.serial.transmitted = commands 5 := by
  have hsome : ∃ sys ∈ exec systemStep .start wholeRun,
      sys.daemon.phase = .exited ∧ sys.serial.stage ≠ .threw ∧ Serial.Quiet sys.serial := by
    decide
  obtain ⟨sys, hsys, hexited, hstage, hquiet⟩ := hsome
  exact ⟨sys, hsys,
    (modem_gets_commands (LTS.reachable_of_exec wholeRun hsys)).2 hexited hstage hquiet⟩

end CarPi.GPS
