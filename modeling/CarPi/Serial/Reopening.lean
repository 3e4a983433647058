/-
CarPi.Serial.Reopening — `AsyncSerial` over its whole life: `close`, and the
`open` that follows one ("Fixed a bug that did not allow to reopen a closed
serial port").

A `Port` is the object of `AsyncSerial.lean` with what one lifetime did not
need: whether the device is open, which `doClose` handlers are posted, and how
far the main thread has come in `close`. `PortAct.serial` is a step of the
one-lifetime system; the other acts are those of `close` and of the second
`open`.

* A closed device ends its operations with an error only.
* `close` marks the port, posts `doClose`, joins the thread, and throws if the
  error flag is set. Between these the other thread runs, so they are three
  steps.
* `port.open` throws on a device that is open, and each of the five
  `set_option` calls behind it may throw too (`optionThrows`). The second kind
  leaves the device open.
* `io_service::run` returns when nothing is posted or outstanding. What is
  posted to it afterwards stays, and is run by the thread of the next `open`.

`open` on an open port is a `close` followed by `openAgain`; the destructor is
`setCallback false` and a `close` whose exception is dropped.
-/
import CarPi.Serial.AsyncSerial

namespace CarPi.Serial

open CarPi.Foundation

/-! ## State -/

/-- How far the main thread has come in `close`. -/
inductive CloseStage where
  | outside
  /-- `open` is false -/
  | marked
  /-- `doClose` is posted, `backgroundThread.join()` is called -/
  | joining
  deriving DecidableEq, Repr

structure Port where
  serial : AsyncSerial
  /-- `port.is_open()` -/
  portOpen : Bool
  /-- the `doClose` handlers that `close` has posted -/
  closesPosted : Nat
  closing : CloseStage
  -- history: whether the last `close` threw
  closeThrew : Bool
  deriving DecidableEq, Repr

/-- The object as constructed. -/
def Port.constructed : Port where
  serial := .constructed
  portOpen := false
  closesPosted := 0
  closing := .outside
  closeThrew := false

/-! ## Steps -/

/-- The handler calls `doClose`. -/
def Handler.closesDevice (s : AsyncSerial) : Handler → Bool
  | .readEnd error _ => error && s.isOpen
  | .writeEnd error => error
  | .doRead => false
  | .doWrite => false

namespace Port

/-- The main thread is not in the middle of `close` or `writeString`. -/
def mainFree (p : Port) : Bool := p.closing = .outside && !p.serial.posting

/-- What `close`, the device and the `doClose` posted demand of a step of the
one-lifetime system. -/
def allows (p : Port) : Act → Bool
  | .openNext => p.closing = .outside && !(p.serial.stage = .constructed && p.portOpen)
  | .openThrows => p.closing = .outside
  | .setCallback _ => p.closing = .outside
  | .append _ => p.closing = .outside
  | .postWrite => p.closing = .outside
  | .run _ _ => true
  | .finish => p.closesPosted = 0
  | .readDone error _ => error || p.portOpen
  | .writeDone error _ => error || p.portOpen

/-- The first step of `open` opens the device, a handler may close it. -/
def portOpenAfter (p : Port) : Act → Bool
  | .openNext => p.portOpen || p.serial.stage = .constructed
  | .run h _ => p.portOpen && !h.closesDevice p.serial
  | _ => p.portOpen

end Port

inductive PortAct where
  | serial (a : Act)
  /-- main thread: `set_option` throws in `open` -/
  | optionThrows
  /-- main thread: `open` is called on a port that is not marked open -/
  | openAgain
  /-- main thread: `close` is called -/
  | close
  | postClose
  /-- background thread: a `doClose` posted by `close` runs -/
  | runClose (closeFails : Bool)
  | join
  deriving DecidableEq, Repr

def portStep (p : Port) : PortAct → Option Port
  | .serial a =>
      if p.allows a then
        (step p.serial a).map fun s => { p with serial := s, portOpen := p.portOpenAfter a }
      else none
  | .optionThrows =>
      if p.mainFree && p.serial.stage = .constructed && !p.portOpen then
        some { p with
          serial := { p.serial.setErrorStatus true with stage := .threw }, portOpen := true }
      else none
  | .openAgain =>
      if p.mainFree && p.serial.outsideOpen && !p.serial.isOpen then
        some { p with serial := { p.serial with stage := .constructed } }
      else none
  | .close =>
      if p.mainFree && p.serial.outsideOpen then
        -- if(!isOpen()) return
        if p.serial.isOpen then
          some { p with serial := { p.serial with open' := false }, closing := .marked }
        else some p
      else none
  | .postClose =>
      if p.closing = .marked then
        some { p with closesPosted := p.closesPosted + 1, closing := .joining }
      else none
  | .runClose closeFails =>
      if p.serial.backgroundThread = .running && 0 < p.closesPosted then
        some { p with
          serial := p.serial.doClose closeFails
          portOpen := false
          closesPosted := p.closesPosted - 1 }
      else none
  | .join =>
      if p.closing = .joining && p.serial.backgroundThread = .finished then
        some { p with closing := .outside, closeThrew := p.serial.errorStatus }
      else none

def reopening : LTS Port PortAct := .ofStep .constructed portStep

/-! ## What a step can do -/

theorem portStep_serial_iff {p p' : Port} {a : Act} :
    portStep p (.serial a) = some p' ↔
      p.allows a = true ∧ ∃ s, step p.serial a = some s ∧
        p' = { p with serial := s, portOpen := p.portOpenAfter a } := by
  simp only [portStep]
  by_cases h : p.allows a = true
  · rw [if_pos h, Option.map_eq_some_iff]
    simp [h, eq_comm]
  · simp [h]

theorem portStep_of_step {p : Port} {s : AsyncSerial} {a : Act} (hallows : p.allows a = true)
    (hs : step p.serial a = some s) :
    portStep p (.serial a) = some { p with serial := s, portOpen := p.portOpenAfter a } :=
  portStep_serial_iff.mpr ⟨hallows, s, hs, rfl⟩

theorem portStep_optionThrows_iff {p p' : Port} :
    portStep p .optionThrows = some p' ↔
      (p.mainFree = true ∧ p.serial.stage = .constructed ∧ p.portOpen = false) ∧
        p' = { p with
          serial := { p.serial.setErrorStatus true with stage := .threw }, portOpen := true } := by
  simp only [portStep, guarded_eq_some_iff]
  simp [and_assoc]

theorem portStep_openAgain_iff {p p' : Port} :
    portStep p .openAgain = some p' ↔
      (p.mainFree = true ∧ p.serial.outsideOpen = true ∧ p.serial.isOpen = false) ∧
        p' = { p with serial := { p.serial with stage := .constructed } } := by
  simp only [portStep, guarded_eq_some_iff]
  simp [and_assoc]

/-- `close` on a port that is not open does nothing. -/
theorem portStep_close_cases {p p' : Port} (h : portStep p .close = some p') :
    (p.mainFree = true ∧ p.serial.outsideOpen = true) ∧
      ((p.serial.isOpen = true ∧
          p' = { p with serial := { p.serial with open' := false }, closing := .marked }) ∨
        (p.serial.isOpen = false ∧ p' = p)) := by
  simp only [portStep] at h
  split at h
  · next hfree =>
    split at h
    · next hopen => exact ⟨by simpa using hfree, Or.inl ⟨hopen, by simpa using h.symm⟩⟩
    · next hopen =>
      exact ⟨by simpa using hfree, Or.inr ⟨by simpa using hopen, by simpa using h.symm⟩⟩
  · cases h

theorem portStep_postClose_iff {p p' : Port} :
    portStep p .postClose = some p' ↔
      p.closing = .marked ∧
        p' = { p with closesPosted := p.closesPosted + 1, closing := .joining } := by
  simp only [portStep, guarded_eq_some_iff]

theorem portStep_runClose_iff {p p' : Port} {closeFails : Bool} :
    portStep p (.runClose closeFails) = some p' ↔
      (p.serial.backgroundThread = .running ∧ 0 < p.closesPosted) ∧
        p' = { p with
          serial := p.serial.doClose closeFails
          portOpen := false
          closesPosted := p.closesPosted - 1 } := by
  simp only [portStep, guarded_eq_some_iff]
  simp

theorem portStep_join_iff {p p' : Port} :
    portStep p .join = some p' ↔
      (p.closing = .joining ∧ p.serial.backgroundThread = .finished) ∧
        p' = { p with closing := .outside, closeThrew := p.serial.errorStatus } := by
  simp only [portStep, guarded_eq_some_iff]
  simp

end CarPi.Serial
