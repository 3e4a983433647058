/-
CarPi.GPS.Polling — the run of the daemon: `signalHandler` (`main.cpp`),
`Pi::CarPi::run` and `GPSLogger::startPolling`.

`run` opens the port and polls. `startPolling` makes five iterations: each
checks the port, writes the command, and sleeps. Signals are handled at any
point. Two things that look like guards are none:

* an iteration that finds `errorStatus()` or a closed port prints "Serial port
  unexpectedly closed" and writes its command all the same;
* SIGTERM clears `doRun`, "Indicator if program loop should continue running",
  and nothing reads it.

So five commands are written whatever happens (`commands_written`), and
`polling_obeys_iff` says when they all should have been: when no check finds
the port dead, and no iteration starts after SIGTERM.

A signal ends the sleep early, so an iteration may follow at once; the time a
sleep takes has no part in the model. The handlers are registered before `run`
is called, in the process that daemonized.
-/
import CarPi.Foundation.CString
import CarPi.Foundation.Runs

namespace CarPi.GPS

open CarPi.Foundation

/-! ## The daemon -/

inductive Signal where
  | SIGTERM
  | SIGHUP
  deriving DecidableEq, Repr

/-- What an iteration samples of the port. -/
structure Check where
  errorStatus : Bool
  isOpen : Bool
  deriving DecidableEq, Repr

/-- `dev->errorStatus() || dev->isOpen() == false` -/
def Check.dead (check : Check) : Bool := check.errorStatus || check.isOpen == false

/-- A command written, with what its iteration found and the value of `doRun`
when it started. -/
structure Command where
  text : List UInt8
  check : Check
  running : Bool
  deriving DecidableEq, Repr

/-- Where the main thread is. Of the iteration under way it holds the value of
`doRun` at its start, and what the check found. -/
inductive Phase where
  /-- `run`, before the port is constructed -/
  | starting
  /-- the condition of the loop -/
  | looping (i : Nat)
  | checking (i : Nat) (running : Bool)
  | writing (i : Nat) (running : Bool) (check : Check)
  | sleeping (i : Nat)
  /-- `startPolling` has returned -/
  | polled
  | exited
  deriving DecidableEq, Repr

structure Daemon where
  doRun : Bool
  phase : Phase
  written : List Command
  deriving DecidableEq, Repr

/-- The daemon as `main` calls `run`. -/
def Daemon.start : Daemon := ⟨true, .starting, []⟩

/-- `"AT+CGPSINFO" + end` -/
def cgpsinfo : List UInt8 :=
  bytes ['A', 'T', '+', 'C', 'G', 'P', 'S', 'I', 'N', 'F', 'O', '\r', '\n']

def signalHandler (daemon : Daemon) : Signal → Daemon
  | .SIGTERM => { daemon with doRun := false }
  | .SIGHUP => daemon

inductive Act where
  | signal (s : Signal)
  /-- the constructor of the port, which may throw -/
  | construct (opened : Bool)
  | loop
  | check (check : Check)
  | writeString
  | wake
  | clearCallback
  deriving DecidableEq, Repr

def step (daemon : Daemon) (act : Act) : Option Daemon :=
  match act, daemon.phase with
  | .signal _, .exited => none
  | .signal s, _ => some (signalHandler daemon s)
  | .construct opened, .starting =>
    some { daemon with phase := if opened then .looping 0 else .exited }
  | .loop, .looping i =>
    some { daemon with phase := if i < 5 then .checking i daemon.doRun else .polled }
  | .check check, .checking i running =>
    -- a dead port is reported, and the iteration goes on
    some { daemon with phase := .writing i running check }
  | .writeString, .writing i running check =>
    some { daemon with
      phase := .sleeping i
      written := daemon.written ++ [⟨cgpsinfo, check, running⟩] }
  | .wake, .sleeping i => some { daemon with phase := .looping (i + 1) }
  | .clearCallback, .polled => some { daemon with phase := .exited }
  | _, _ => none

def polling : LTS Daemon Act := .ofStep .start step

/-- What each step does, and where it can be made. -/
theorem step_cases {daemon daemon' : Daemon} {act : Act} (h : step daemon act = some daemon') :
    match act with
    | .signal s => daemon.phase ≠ .exited ∧ daemon' = signalHandler daemon s
    | .construct opened => daemon.phase = .starting ∧
        daemon' = { daemon with phase := if opened then .looping 0 else .exited }
    | .loop => ∃ i, daemon.phase = .looping i ∧
        daemon' = { daemon with phase := if i < 5 then .checking i daemon.doRun else .polled }
    | .check check => ∃ i running, daemon.phase = .checking i running ∧
        daemon' = { daemon with phase := .writing i running check }
    | .writeString => ∃ i running check, daemon.phase = .writing i running check ∧
        daemon' = { daemon with
          phase := .sleeping i
          written := daemon.written ++ [⟨cgpsinfo, check, running⟩] }
    | .wake => ∃ i, daemon.phase = .sleeping i ∧
        daemon' = { daemon with phase := .looping (i + 1) }
    | .clearCallback => daemon.phase = .polled ∧ daemon' = { daemon with phase := .exited } := by
  obtain ⟨doRun, phase, written⟩ := daemon
  cases act <;> cases phase <;> cases h <;> simp

/-! ## Which commands are written -/

/-- The number of commands written by the time the main thread is there. -/
def Phase.Made (n : Nat) : Phase → Prop
  | .starting => n = 0
  | .looping i => n = i ∧ i ≤ 5
  | .checking i _ => n = i ∧ i < 5
  | .writing i _ _ => n = i ∧ i < 5
  | .sleeping i => n = i + 1 ∧ i < 5
  | .polled => n = 5
  | .exited => n = 0 ∨ n = 5

/-- A handler touches neither the main thread nor what it wrote. -/
theorem signalHandler_frame (daemon : Daemon) (s : Signal) :
    (signalHandler daemon s).phase = daemon.phase ∧
      (signalHandler daemon s).written = daemon.written := by
  cases s <;> exact ⟨rfl, rfl⟩

theorem made_step {daemon daemon' : Daemon} {act : Act} (h : step daemon act = some daemon')
    (hmade : daemon.phase.Made daemon.written.length) :
    daemon'.phase.Made daemon'.written.length := by
  have hcases := step_cases h
  cases act with
  | signal s =>
    obtain ⟨_, rfl⟩ := hcases
    rw [(signalHandler_frame daemon s).1, (signalHandler_frame daemon s).2]
    exact hmade
  | construct opened =>
    obtain ⟨hphase, rfl⟩ := hcases
    rw [hphase] at hmade
    cases opened with
    | true => exact ⟨hmade, by decide⟩
    | false => exact Or.inl hmade
  | loop =>
    obtain ⟨i, hphase, rfl⟩ := hcases
    rw [hphase] at hmade
    obtain ⟨hlen, hle⟩ := hmade
    by_cases hi : i < 5
    · simpa [hi, Phase.Made] using hlen
    · have hfive : i = 5 := by omega
      simpa [hfive, Phase.Made] using hlen
  | check check =>
    obtain ⟨i, running, hphase, rfl⟩ := hcases
    rw [hphase] at hmade
    exact hmade
  | writeString =>
    obtain ⟨i, running, check, hphase, rfl⟩ := hcases
    rw [hphase] at hmade
    simpa [Phase.Made] using hmade
  | wake =>
    obtain ⟨i, hphase, rfl⟩ := hcases
    rw [hphase] at hmade
    exact ⟨hmade.1, hmade.2⟩
  | clearCallback =>
    obtain ⟨hphase, rfl⟩ := hcases
    rw [hphase] at hmade
    exact Or.inr hmade

/-- Whatever is sampled and signalled: every iteration writes its command, and
there are five. -/
theorem commands_written {daemon : Daemon} (h : polling.Reachable daemon) :
    daemon.phase.Made daemon.written.length :=
  h.invariant (I := fun daemon => daemon.phase.Made daemon.written.length)
    (fun _ hinit => hinit ▸ rfl) (fun _ _ _ hmade hstep => made_step hstep hmade)

/-! ## Which should have been -/

/-- A command may be written: the port was alive, and the daemon running. -/
def Command.Allowed (command : Command) : Prop :=
  command.check.dead = false ∧ command.running = true

/-- No command was written that should not have been. -/
def Obeys (daemon : Daemon) : Prop := ∀ command ∈ daemon.written, command.Allowed

/-- The iteration under way may write its command. -/
def Phase.Allowed : Phase → Prop
  | .checking _ running => running = true
  | .writing _ running check => check.dead = false ∧ running = true
  | _ => True

/-- The step is no check that finds the port dead, and no start of an iteration
after `doRun` was cleared. -/
def Clear (daemon : Daemon) : Act → Prop
  | .check check => check.dead = false
  | .loop => ∀ i, daemon.phase = .looping i → i < 5 → daemon.doRun = true
  | _ => True

/-- All is well behind a step exactly when it was before and the step is
clear. -/
theorem obeys_step {daemon daemon' : Daemon} {act : Act} (h : step daemon act = some daemon') :
    (Obeys daemon' ∧ daemon'.phase.Allowed) ↔
      (Obeys daemon ∧ daemon.phase.Allowed) ∧ Clear daemon act := by
  have hcases := step_cases h
  cases act with
  | signal s =>
    obtain ⟨_, rfl⟩ := hcases
    simp only [Obeys, signalHandler_frame, Clear, and_true]
  | construct opened =>
    obtain ⟨hphase, rfl⟩ := hcases
    cases opened <;> simp [Obeys, Clear, hphase, Phase.Allowed]
  | loop =>
    obtain ⟨i, hphase, rfl⟩ := hcases
    by_cases hi : i < 5 <;> simp [Obeys, Clear, hphase, hi, Phase.Allowed]
  | check check =>
    obtain ⟨i, running, hphase, rfl⟩ := hcases
    simp only [Obeys, Clear, hphase, Phase.Allowed]
    tauto
  | writeString =>
    obtain ⟨i, running, check, hphase, rfl⟩ := hcases
    simp only [Obeys, Clear, hphase, Phase.Allowed, List.forall_mem_append,
      List.forall_mem_singleton, Command.Allowed, and_true]
  | wake =>
    obtain ⟨i, hphase, rfl⟩ := hcases
    simp [Obeys, Clear, hphase, Phase.Allowed]
  | clearCallback =>
    obtain ⟨hphase, rfl⟩ := hcases
    simp [Obeys, Clear, hphase, Phase.Allowed]

/-- **No command is written, or about to be, to a dead port or after SIGTERM,
exactly when every step of the run is clear.** -/
theorem polling_obeys_iff (acts : List Act) (daemon : Daemon)
    (hrun : polling.Run .start acts daemon) :
    (Obeys daemon ∧ daemon.phase.Allowed) ↔ (polling.restrict Clear).Run .start acts daemon :=
  hrun.iff_restrict (I := fun daemon => Obeys daemon ∧ daemon.phase.Allowed)
    (J := fun _ => True) (fun _ _ _ _ hstep => ⟨trivial, obeys_step hstep⟩) trivial
    ⟨fun _ hmem => absurd hmem List.not_mem_nil, trivial⟩

/-- One iteration of an undisturbed run. -/
theorem polling_obeys_iteration :
    (polling.restrict Clear).Run .start
      [.construct true, .loop, .check ⟨false, true⟩, .writeString, .wake]
      ⟨true, .looping 1, [⟨cgpsinfo, ⟨false, true⟩, true⟩]⟩ :=
  (polling_obeys_iff _ _ (LTS.run_of_exec rfl)).mp
    ⟨fun _ hmem => List.eq_of_mem_singleton hmem ▸ ⟨rfl, rfl⟩, trivial⟩

/-- After SIGTERM, and to a port that reports an error, a command is written. -/
theorem command_after_sigterm : ¬ ∀ daemon, polling.Reachable daemon → Obeys daemon := by
  intro h
  have hreach : polling.Reachable
      ⟨false, .sleeping 0, [⟨cgpsinfo, ⟨true, true⟩, false⟩]⟩ :=
    LTS.reachable_of_exec
      [.construct true, .signal .SIGTERM, .loop, .check ⟨true, true⟩, .writeString] rfl
  have hallowed := h _ hreach _ List.mem_cons_self
  exact absurd hallowed.2 (by decide)

end CarPi.GPS
