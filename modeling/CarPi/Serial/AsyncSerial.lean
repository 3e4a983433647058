/-
CarPi.Serial.AsyncSerial — `AsyncSerial` (`AsyncSerial.cpp`, the branch for
every system but Apple's) as a system of two threads.

The main thread calls `open`, `writeString`, `setReadCallback` and
`clearReadCallback`. The background thread runs `io_service::run`, which
executes posted handlers one at a time: `doRead`, `readEnd`, `doWrite`,
`writeEnd`. The device completes outstanding operations. `step` is one
step of one of the three, so a list of `Act` is an interleaving.

What is a step of its own follows what another thread can see in between.
`writeString` appends under the mutex and posts afterwards: two steps.
`open` posts `doRead`, starts the thread, clears the error flag and marks the
port open: four steps, after the one that opens the device (or throws).
A handler is one step. Handlers may run in any order, and an operation may
complete, with or without an error, whenever it is outstanding; both leave
more to happen than `boost::asio` does.

`doClose` cancels what is outstanding and closes the device. Outstanding
operations may end with an error at any time as it is, so what is left of it
is that `cancel` or `close` may report an error (`closeFails`).

Four fields are history and read by no step: what the callers appended,
what was handed to `async_write`, what successful writes transmitted, and
whether some write ended with an error.

Not modelled: `close` and the destructor (the daemon never calls the one, and
never deletes the object), and the serial options of `open`.
-/
import CarPi.Foundation.Runs

namespace CarPi.Serial

open CarPi.Foundation

/-! ## State -/

/-- A handler posted to the `io_service`, with the arguments bound to it. -/
inductive Handler where
  | doRead
  | readEnd (error : Bool) (data : List UInt8)
  | doWrite
  | writeEnd (error : Bool)
  deriving DecidableEq, Repr

/-- How far the main thread has come in `open`. -/
inductive OpenStage where
  | constructed
  | threw
  | portOpened
  | readPosted
  | threadStarted
  | errorCleared
  | returned
  deriving DecidableEq, Repr

/-- The background thread: `io_service::run` returns when no work is left, and
is not called again. -/
inductive BackgroundThread where
  | notStarted
  | running
  | finished
  deriving DecidableEq, Repr

def readBufferSize : Nat := 512

structure AsyncSerial where
  open' : Bool
  error : Bool
  writeQueue : List UInt8
  writeBuffer : Option (List UInt8)
  writeBufferSize : Nat
  callback : Bool
  backgroundThread : BackgroundThread
  -- the `io_service`: posted handlers and operations under way
  posted : List Handler
  reading : Nat
  writing : List (List UInt8)
  -- the main thread
  stage : OpenStage
  posting : Bool
  -- history
  appended : List UInt8
  handed : List UInt8
  transmitted : List UInt8
  writeFailed : Bool
  delivered : List (List UInt8)
  deriving DecidableEq, Repr

/-- The object as constructed. -/
def AsyncSerial.constructed : AsyncSerial where
  open' := false
  error := false
  writeQueue := []
  writeBuffer := none
  writeBufferSize := 0
  callback := false
  backgroundThread := .notStarted
  posted := []
  reading := 0
  writing := []
  stage := .constructed
  posting := false
  appended := []
  handed := []
  transmitted := []
  writeFailed := false
  delivered := []

namespace AsyncSerial

def isOpen (s : AsyncSerial) : Bool := s.open'

def errorStatus (s : AsyncSerial) : Bool := s.error

def setErrorStatus (s : AsyncSerial) (e : Bool) : AsyncSerial := { s with error := e }

def post (s : AsyncSerial) (h : Handler) : AsyncSerial := { s with posted := s.posted ++ [h] }

/-! ## Handlers -/

/-- `async_read_some` is started. -/
def doRead (s : AsyncSerial) : AsyncSerial := { s with reading := s.reading + 1 }

def doClose (s : AsyncSerial) (closeFails : Bool) : AsyncSerial :=
  if closeFails then s.setErrorStatus true else s

def readEnd (s : AsyncSerial) (error : Bool) (data : List UInt8) (closeFails : Bool) :
    AsyncSerial :=
  if error then
    -- error can be true even because the serial port was closed
    if s.isOpen then (s.doClose closeFails).setErrorStatus true else s
  else
    (if s.callback then { s with delivered := s.delivered ++ [data] } else s).doRead

/-- The common end of `doWrite` and `writeEnd`: the whole queue becomes the
write buffer, and `async_write` is started on it. -/
def startWrite (s : AsyncSerial) : AsyncSerial :=
  { s with
    writeBufferSize := s.writeQueue.length
    writeBuffer := some s.writeQueue
    writeQueue := []
    writing := s.writing ++ [s.writeQueue]
    handed := s.handed ++ s.writeQueue }

def doWrite (s : AsyncSerial) : AsyncSerial :=
  -- If a write operation is already in progress, do nothing
  if s.writeBuffer = none then s.startWrite else s

def writeEnd (s : AsyncSerial) (error : Bool) (closeFails : Bool) : AsyncSerial :=
  if !error then
    if s.writeQueue.isEmpty then { s with writeBuffer := none, writeBufferSize := 0 }
    else s.startWrite
  else (s.setErrorStatus true).doClose closeFails

def runHandler (s : AsyncSerial) (closeFails : Bool) : Handler → AsyncSerial
  | .doRead => s.doRead
  | .readEnd error data => s.readEnd error data closeFails
  | .doWrite => s.doWrite
  | .writeEnd error => s.writeEnd error closeFails

/-! ## Steps -/

/-- The next step of `open`, where the device can be opened. -/
def openNext (s : AsyncSerial) : Option AsyncSerial :=
  match s.stage with
  | .constructed => some { s.setErrorStatus true with stage := .portOpened }
  | .portOpened => some { s.post .doRead with stage := .readPosted }
  | .readPosted => some { s with backgroundThread := .running, stage := .threadStarted }
  | .threadStarted => some { s.setErrorStatus false with stage := .errorCleared }
  | .errorCleared => some { s with open' := true, stage := .returned }
  | .threw => none
  | .returned => none

/-- The main thread is not inside `open`. -/
def outsideOpen (s : AsyncSerial) : Bool :=
  s.stage = .constructed || s.stage = .threw || s.stage = .returned

end AsyncSerial

inductive Act where
  /-- main thread: the next step of `open` -/
  | openNext
  /-- main thread: the device cannot be opened, `open` throws -/
  | openThrows
  /-- main thread: `setReadCallback`, `clearReadCallback` -/
  | setCallback (set : Bool)
  /-- main thread: `writeString` appends its string to the queue -/
  | append (str : List UInt8)
  /-- main thread: `writeString` posts `doWrite` -/
  | postWrite
  /-- background thread: a posted handler runs -/
  | run (h : Handler) (closeFails : Bool)
  /-- background thread: `io_service::run` returns -/
  | finish
  /-- device: an outstanding read ends -/
  | readDone (error : Bool) (data : List UInt8)
  /-- device: an outstanding write of `buffer` ends -/
  | writeDone (error : Bool) (buffer : List UInt8)
  deriving DecidableEq, Repr

open AsyncSerial in
def step (s : AsyncSerial) : Act → Option AsyncSerial
  | .openNext => if s.posting then none else s.openNext
  | .openThrows =>
      if !s.posting && s.stage = .constructed then
        some { s.setErrorStatus true with stage := .threw }
      else none
  | .setCallback set =>
      if !s.posting && s.outsideOpen then some { s with callback := set } else none
  | .append str =>
      if !s.posting && s.outsideOpen then
        some { s with
          writeQueue := s.writeQueue ++ str, appended := s.appended ++ str, posting := true }
      else none
  | .postWrite =>
      if s.posting then some { s.post .doWrite with posting := false } else none
  | .run h closeFails =>
      if s.backgroundThread = .running && s.posted.contains h then
        some ({ s with posted := s.posted.erase h }.runHandler closeFails h)
      else none
  | .finish =>
      if s.backgroundThread = .running && s.posted.isEmpty && s.reading = 0
          && s.writing.isEmpty then
        some { s with backgroundThread := .finished }
      else none
  | .readDone error data =>
      if 0 < s.reading && data.length ≤ readBufferSize then
        some { s.post (.readEnd error data) with reading := s.reading - 1 }
      else none
  | .writeDone error buffer =>
      if s.writing.contains buffer then
        some { s.post (.writeEnd error) with
          writing := s.writing.erase buffer
          transmitted := if error then s.transmitted else s.transmitted ++ buffer
          writeFailed := s.writeFailed || error }
      else none

def asyncSerial : LTS AsyncSerial Act := .ofStep .constructed step

/-! ## What a handler does

The error flag is set wherever `doClose` is called, so it does not matter how
that goes. -/

namespace AsyncSerial

theorem readEnd_ok (s : AsyncSerial) (data : List UInt8) (closeFails : Bool) :
    s.readEnd false data closeFails =
      { s with
        reading := s.reading + 1
        delivered := if s.callback then s.delivered ++ [data] else s.delivered } := by
  cases h : s.callback <;> simp [readEnd, doRead, h]

theorem readEnd_error (s : AsyncSerial) (data : List UInt8) (closeFails : Bool) :
    s.readEnd true data closeFails = if s.isOpen then s.setErrorStatus true else s := by
  cases closeFails <;> simp [readEnd, doClose, setErrorStatus]

theorem writeEnd_ok (s : AsyncSerial) (closeFails : Bool) :
    s.writeEnd false closeFails =
      if s.writeQueue.isEmpty then { s with writeBuffer := none, writeBufferSize := 0 }
      else s.startWrite := by
  simp [writeEnd]

theorem writeEnd_error (s : AsyncSerial) (closeFails : Bool) :
    s.writeEnd true closeFails = s.setErrorStatus true := by
  cases closeFails <;> simp [writeEnd, doClose, setErrorStatus]

/-- The fields of the main thread. -/
def mainSide (s : AsyncSerial) := (s.stage, s.open', s.posting, s.callback, s.appended)

/-- A handler touches neither these, nor the `io_service`, nor what became of the
writes. -/
theorem runHandler_untouched (s : AsyncSerial) (closeFails : Bool) (h : Handler) :
    (s.runHandler closeFails h).mainSide = s.mainSide ∧
      (s.runHandler closeFails h).backgroundThread = s.backgroundThread ∧
      (s.runHandler closeFails h).posted = s.posted ∧
      (s.runHandler closeFails h).writeFailed = s.writeFailed := by
  cases h with
  | doRead => exact ⟨rfl, rfl, rfl, rfl⟩
  | readEnd error data =>
    cases error with
    | false => rw [runHandler, readEnd_ok]; exact ⟨rfl, rfl, rfl, rfl⟩
    | true =>
      rw [runHandler, readEnd_error]
      split <;> exact ⟨rfl, rfl, rfl, rfl⟩
  | doWrite =>
    simp only [runHandler, doWrite]
    split <;> exact ⟨rfl, rfl, rfl, rfl⟩
  | writeEnd error =>
    cases error with
    | false =>
      rw [runHandler, writeEnd_ok]
      split <;> exact ⟨rfl, rfl, rfl, rfl⟩
    | true => rw [runHandler, writeEnd_error]; exact ⟨rfl, rfl, rfl, rfl⟩

end AsyncSerial

/-! ## What a step can do -/

theorem guarded_eq_some_iff {α : Type} {p : Prop} [Decidable p] {a b : α} :
    (if p then some a else none) = some b ↔ p ∧ b = a := by
  by_cases hp : p <;> simp [hp, eq_comm]

/-- Running a handler takes it off the `io_service` first. -/
theorem step_run_iff {s s' : AsyncSerial} {h : Handler} {closeFails : Bool} :
    step s (.run h closeFails) = some s' ↔
      s.backgroundThread = .running ∧ h ∈ s.posted ∧
        s' = { s with posted := s.posted.erase h }.runHandler closeFails h := by
  simp only [step, guarded_eq_some_iff]
  simp [and_assoc]

theorem step_readDone_iff {s s' : AsyncSerial} {error : Bool} {data : List UInt8} :
    step s (.readDone error data) = some s' ↔
      (0 < s.reading ∧ data.length ≤ readBufferSize) ∧
        s' = { s.post (.readEnd error data) with reading := s.reading - 1 } := by
  simp only [step, guarded_eq_some_iff]
  simp

theorem step_writeDone_iff {s s' : AsyncSerial} {error : Bool} {buffer : List UInt8} :
    step s (.writeDone error buffer) = some s' ↔
      buffer ∈ s.writing ∧
        s' = { s.post (.writeEnd error) with
          writing := s.writing.erase buffer
          transmitted := if error then s.transmitted else s.transmitted ++ buffer
          writeFailed := s.writeFailed || error } := by
  simp only [step, guarded_eq_some_iff]
  simp

theorem step_append_iff {s s' : AsyncSerial} {str : List UInt8} :
    step s (.append str) = some s' ↔
      (s.posting = false ∧ s.outsideOpen = true) ∧
        s' = { s with
          writeQueue := s.writeQueue ++ str, appended := s.appended ++ str, posting := true } := by
  simp only [step, guarded_eq_some_iff]
  simp

theorem step_postWrite_iff {s s' : AsyncSerial} :
    step s .postWrite = some s' ↔
      s.posting = true ∧ s' = { s.post .doWrite with posting := false } := by
  simp only [step, guarded_eq_some_iff]

theorem step_setCallback_iff {s s' : AsyncSerial} {set : Bool} :
    step s (.setCallback set) = some s' ↔
      (s.posting = false ∧ s.outsideOpen = true) ∧ s' = { s with callback := set } := by
  simp only [step, guarded_eq_some_iff]
  simp

theorem step_openThrows_iff {s s' : AsyncSerial} :
    step s .openThrows = some s' ↔
      (s.posting = false ∧ s.stage = .constructed) ∧
        s' = { s.setErrorStatus true with stage := .threw } := by
  simp only [step, guarded_eq_some_iff]
  simp

theorem step_finish_iff {s s' : AsyncSerial} :
    step s .finish = some s' ↔
      (s.backgroundThread = .running ∧ s.posted = [] ∧ s.reading = 0 ∧ s.writing = []) ∧
        s' = { s with backgroundThread := .finished } := by
  simp only [step, guarded_eq_some_iff]
  simp [and_assoc]

/-- The five steps of `open`. -/
theorem step_openNext_cases {s s' : AsyncSerial} (h : step s .openNext = some s') :
    s.posting = false ∧
      ((s.stage = .constructed ∧ s' = { s.setErrorStatus true with stage := .portOpened }) ∨
       (s.stage = .portOpened ∧ s' = { s.post .doRead with stage := .readPosted }) ∨
       (s.stage = .readPosted ∧
          s' = { s with backgroundThread := .running, stage := .threadStarted }) ∨
       (s.stage = .threadStarted ∧
          s' = { s.setErrorStatus false with stage := .errorCleared }) ∨
       (s.stage = .errorCleared ∧ s' = { s with open' := true, stage := .returned })) := by
  cases hposting : s.posting with
  | true => simp [step, hposting] at h
  | false =>
    simp only [step, hposting, Bool.false_eq_true, if_false, AsyncSerial.openNext] at h
    cases hstage : s.stage <;> simp_all

/-- The act is one of the background thread, or of the device. -/
def Act.background : Act → Bool
  | .run _ _ | .finish | .readDone _ _ | .writeDone _ _ => true
  | .openNext | .openThrows | .setCallback _ | .append _ | .postWrite => false

/-- The background thread and the device leave the main thread alone. -/
theorem mainSide_background {s s' : AsyncSerial} {a : Act} (ha : a.background = true)
    (hs : step s a = some s') : s'.mainSide = s.mainSide := by
  cases a with
  | run h closeFails =>
    obtain ⟨_, _, rfl⟩ := step_run_iff.mp hs
    exact (AsyncSerial.runHandler_untouched _ closeFails h).1
  | finish => obtain ⟨_, rfl⟩ := step_finish_iff.mp hs; rfl
  | readDone error data => obtain ⟨_, rfl⟩ := step_readDone_iff.mp hs; rfl
  | writeDone error buffer => obtain ⟨_, rfl⟩ := step_writeDone_iff.mp hs; rfl
  | _ => cases ha

end CarPi.Serial
