/-
CarPi.ArduPi.Interrupts — `attachInterrupt` and `detachInterrupt`: a thread for
each pin that waits for its edge and calls a function, and what a run of
calls leaves.

`idThread2` to `idThread13` hold the threads, zero before the first. `attachInterrupt`
cancels the thread it finds and creates another; `detachInterrupt` cancels the
thread and leaves its id where it is. Under `/sys/class/gpio` a pin is exported or not, and
an exported pin has an edge.

`pthread_cancel` only asks. A thread ends at a cancellation point: in `threadFunction`
those are `poll` and `read`, and the function called may hold others. A thread that is
in one of the two when it is asked may still come out of it, to call its function;
behind the call it meets `poll` again, and ends. Nobody joins the threads. So a run is one
of calls and of steps of the threads, in any order.

Threads are numbered in the order of their creation; as none is joined, an id is not used
again, and to cancel a thread that has ended does nothing. To cancel the thread zero
is undefined, and `interruptStep` has no such step. The functions are of any type.

Not modelled: a `/sys` file that does not open, or cannot be read, ends the process.
-/
import CarPi.ArduPi.Gpio
import CarPi.Foundation.Runs

namespace CarPi.ArduPi

open CarPi.Foundation

variable {REV : Nat} {F : Type}

/-! ## State -/

/-- `Digivalue`, as the argument of `attachInterrupt`. -/
inductive Digivalue where
  | LOW
  | HIGH
  | RISING
  | FALLING
  | BOTH
  deriving DecidableEq, Repr

inductive Edge where
  | rising
  | falling
  | both
  deriving DecidableEq, Repr

/-- The text written to the file `edge`. -/
def Digivalue.edge : Digivalue → Edge
  | .RISING => .rising
  | .FALLING => .falling
  | _ => .both

/-- The arguments of a thread. -/
structure ThreadArg (F : Type) where
  func : F
  pin : Nat

inductive ThreadStage where
  /-- in `poll` or in `read` -/
  | waiting
  /-- past `read`, or in the function -/
  | calling
  deriving DecidableEq, Repr

structure Thread (F : Type) where
  arg : ThreadArg F
  stage : ThreadStage
  /-- there is a request to cancel it -/
  cancelled : Bool

inductive ThreadAct where
  /-- the edge comes, and the function is called -/
  | call
  /-- the function returns, and `poll` is called -/
  | back
  /-- the thread ends at a cancellation point -/
  | finish
  deriving DecidableEq, Repr

namespace Thread

variable (t : Thread F)

def cancel : Thread F := { t with cancelled := true }

/-- The thread behind a step of its own, `some none` where it has ended. -/
def step : ThreadAct → Option (Option (Thread F))
  | .call => if t.stage = .waiting then some (some { t with stage := .calling }) else none
  | .back =>
      if t.stage = .calling then
        some (if t.cancelled then none else some { t with stage := .waiting })
      else none
  | .finish => if t.cancelled then some none else none

/-- The argument of a thread that nobody has cancelled. -/
def live : Option (ThreadArg F) := if t.cancelled then none else some t.arg

end Thread

structure Interrupts (F : Type) where
  /-- `*getThreadIdFromPin(pin)`, by the Arduino number -/
  threadId : Nat → Nat
  /-- the threads that have not ended, by their ids -/
  threads : Nat → Option (Thread F)
  /-- the id of the last thread created -/
  created : Nat
  /-- the edge of an exported pin, by the number of the chip -/
  edge : Nat → Option Edge

def Interrupts.none : Interrupts F where
  threadId := fun _ => 0
  threads := fun _ => Option.none
  created := 0
  edge := fun _ => Option.none

namespace Interrupts

variable (s : Interrupts F)

def setThread (id : Nat) (t : Option (Thread F)) : Interrupts F :=
  { s with threads := Function.update s.threads id t }

@[simp] theorem setThread_self (id : Nat) (t : Option (Thread F)) :
    (s.setThread id t).threads id = t :=
  Function.update_self _ _ _

theorem setThread_of_ne {id other : Nat} (hne : other ≠ id) (t : Option (Thread F)) :
    (s.setThread id t).threads other = s.threads other :=
  Function.update_of_ne hne _ _

def pthread_cancel (id : Nat) : Interrupts F := s.setThread id ((s.threads id).map Thread.cancel)

def pthread_create (pin : Nat) (arg : ThreadArg F) : Interrupts F :=
  { s with
    created := s.created + 1
    threadId := Function.update s.threadId pin (s.created + 1)
    threads := Function.update s.threads (s.created + 1)
      (some { arg := arg, stage := .waiting, cancelled := false }) }

def attachInterrupt (p : Pin REV) (f : F) (m : Digivalue) : Interrupts F :=
  let s := { s with edge := Function.update s.edge p.gpio (some m.edge) }
  if s.threadId p.arduino = 0 then s.pthread_create p.arduino ⟨f, p.gpio⟩
  else (s.pthread_cancel (s.threadId p.arduino)).pthread_create p.arduino ⟨f, p.gpio⟩

/-- The id stays. -/
def detachInterrupt (p : Pin REV) : Interrupts F :=
  { s.pthread_cancel (s.threadId p.arduino) with edge := Function.update s.edge p.gpio Option.none }

/-- The argument of a thread that runs and that nobody has cancelled. -/
def live (id : Nat) : Option (ThreadArg F) := (s.threads id).bind Thread.live

end Interrupts

inductive InterruptAct (REV : Nat) (F : Type) where
  | attach (p : Pin REV) (f : F) (m : Digivalue)
  | detach (p : Pin REV)
  /-- a step of a thread -/
  | thread (id : Nat) (act : ThreadAct)

def interruptStep (s : Interrupts F) : InterruptAct REV F → Option (Interrupts F)
  | .attach p f m => some (s.attachInterrupt p f m)
  | .detach p => if s.threadId p.arduino = 0 then none else some (s.detachInterrupt p)
  | .thread id act =>
      (s.threads id).bind fun t => (t.step act).map fun t' => s.setThread id t'

def interrupts (REV : Nat) (F : Type) : LTS (Interrupts F) (InterruptAct REV F) :=
  .ofStep .none interruptStep

end CarPi.ArduPi
