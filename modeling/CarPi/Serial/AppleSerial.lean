/-
CarPi.Serial.AppleSerial — the other `AsyncSerial` of `AsyncSerial.cpp`, for
Apple's systems: blocking reads in a thread of their own, and no `io_service`.

The owner of the object calls `open`, `close`, the writes and the two callback
setters; the thread of `doRead` reads and calls back. `appleStep` is one step
of one of the two, and again a step is what the other thread can see in
between. So `close` is three steps, `open` up to five, and a turn of the read
loop three: the call of `::read`, its return, and what follows.

What the system calls may answer:
* `::open` and the set-up behind it succeed or fail. The three failures of
  the set-up (no tty, an unsupported baud rate, `tcsetattr`) all close the
  descriptor and throw, and are one act.
* `::read` answers with an error or up to `readBufferSize` bytes (with none at
  the end of the file). Called on a closed descriptor it fails; one that
  was under way as the descriptor was closed may still answer either way.
* `::write` takes the string or a part of it, or fails. On a closed descriptor it
  fails.

Descriptors are numbered by the `::open` they came from. `reads`, `handled`,
`transmitted` and `closeThrew` are history and read by no step.

Not modelled: `write` before the first `open` (the descriptor is not
initialised), and the terminal attributes. The destructor is
`setCallback false` and a `close` whose exception is dropped.
-/
import CarPi.Serial.AsyncSerial

namespace CarPi.Serial

open CarPi.Foundation

/-! ## State -/

/-- Who called `close`. -/
inductive CloseCaller where
  | owner
  /-- `open`, on a port that is open -/
  | reopen
  deriving DecidableEq, Repr

/-- How far the owner has come in `open` or `close`. -/
inductive OwnerStage where
  | outside
  /-- `open` has thrown -/
  | threw
  /-- in `open`: the error flag is set -/
  | opening
  /-- in `open`: `fd` is a descriptor -/
  | opened
  | errorCleared
  /-- in `open`: `open` is true -/
  | marked
  /-- in `close`: `open` is false -/
  | closeMarked (caller : CloseCaller)
  /-- in `close`: `::close(fd)` is done, `join` is called -/
  | closeJoining (caller : CloseCaller)
  deriving DecidableEq, Repr

/-- Where the thread of `doRead` is. -/
inductive ReaderStage where
  | noThread
  /-- at the head of the loop -/
  | looping
  /-- in `::read`, called when the descriptor was open or not -/
  | reading (fd : Nat) (live : Bool)
  /-- `::read` has returned, `none` for less than zero -/
  | returned (received : Option (List UInt8))
  /-- the port was open still -/
  | failing
  | finished
  deriving DecidableEq, Repr

structure AppleSerial where
  open' : Bool
  error : Bool
  callback : Bool
  fd : Nat
  /-- the descriptor has not been closed -/
  fdOpen : Bool
  backgroundThread : ReaderStage
  stage : OwnerStage
  -- history
  reads : List (List UInt8)
  /-- what was read, and whether there was a callback to call with it -/
  handled : List (Bool × List UInt8)
  transmitted : List UInt8
  closeThrew : Bool
  deriving DecidableEq, Repr

/-- The object as constructed. -/
def AppleSerial.constructed : AppleSerial where
  open' := false
  error := false
  callback := false
  fd := 0
  fdOpen := false
  backgroundThread := .noThread
  stage := .outside
  reads := []
  handled := []
  transmitted := []
  closeThrew := false

namespace AppleSerial

@[grind]
def isOpen (s : AppleSerial) : Bool := s.open'

@[grind]
def errorStatus (s : AppleSerial) : Bool := s.error

@[grind]
def setErrorStatus (s : AppleSerial) (e : Bool) : AppleSerial := { s with error := e }

/-- The owner is not in the middle of `open` or `close`. -/
@[grind]
def ownerFree (s : AppleSerial) : Bool := s.stage = .outside || s.stage = .threw

/-- `pimpl->open=false;` -/
@[grind]
def markClosed (s : AppleSerial) (caller : CloseCaller) : AppleSerial :=
  { s with open' := false, stage := .closeMarked caller }

/-- The first line of `open` behind `if(isOpen()) close();` -/
@[grind]
def beginOpen (s : AppleSerial) : AppleSerial := { s.setErrorStatus true with stage := .opening }

/-- Behind `join`: an exception of `close` leaves `open` as well. -/
def afterJoin (s : AppleSerial) : CloseCaller → AppleSerial
  | .owner => { s with stage := .outside }
  | .reopen => if s.errorStatus then { s with stage := .threw } else s.beginOpen

theorem afterJoin_cases (s : AppleSerial) (caller : CloseCaller) :
    s.afterJoin caller = { s with stage := .outside } ∨
      s.errorStatus = true ∧ s.afterJoin caller = { s with stage := .threw } ∨
      s.errorStatus = false ∧ s.afterJoin caller = s.beginOpen := by
  cases caller with
  | owner => exact .inl rfl
  | reopen => cases h : s.errorStatus <;> simp [afterJoin, h]

end AppleSerial

/-! ## Steps -/

inductive AppleAct where
  /-- owner: `setReadCallback`, `clearReadCallback` -/
  | setCallback (set : Bool)
  /-- owner: `write`, `writeString`, with the answer of `::write` -/
  | write (str : List UInt8) (written : Option Nat)
  | openCalled
  | openDevice (ok : Bool)
  | setUpFails
  | clearError
  | markOpen
  | startThread
  | closeCalled
  | closeFd
  | join
  /-- thread: `::read` is called -/
  | callRead
  /-- `::read` returns -/
  | readReturns (received : Option (List UInt8))
  /-- thread: `if(isOpen()==false)` -/
  | checkOpen
  /-- thread: `setErrorStatus(true); continue;` -/
  | markError
  /-- thread: `if(pimpl->callback)`, and the call -/
  | callBack
  deriving DecidableEq, Repr

open AppleSerial in
def appleStep (s : AppleSerial) : AppleAct → Option AppleSerial
  | .setCallback set => if s.ownerFree then some { s with callback := set } else none
  | .write str written =>
      if s.ownerFree && s.fd ≠ 0
          && (written = none || s.fdOpen && written.getD 0 ≤ str.length) then
        some { s with
          error := s.error || written ≠ some str.length
          transmitted := s.transmitted ++ str.take (written.getD 0) }
      else none
  | .openCalled =>
      if s.ownerFree then some (if s.isOpen then s.markClosed .reopen else s.beginOpen) else none
  | .openDevice ok =>
      if s.stage = .opening then
        some (if ok then { s with fd := s.fd + 1, fdOpen := true, stage := .opened }
          else { s with stage := .threw })
      else none
  | .setUpFails =>
      if s.stage = .opened then some { s with fdOpen := false, stage := .threw } else none
  | .clearError =>
      if s.stage = .opened then some { s.setErrorStatus false with stage := .errorCleared }
      else none
  | .markOpen =>
      if s.stage = .errorCleared then some { s with open' := true, stage := .marked } else none
  | .startThread =>
      if s.stage = .marked then some { s with backgroundThread := .looping, stage := .outside }
      else none
  | .closeCalled =>
      if s.ownerFree then some (if s.isOpen then s.markClosed .owner else s) else none
  | .closeFd =>
      match s.stage with
      | .closeMarked caller => some { s with fdOpen := false, stage := .closeJoining caller }
      | _ => none
  | .join =>
      match s.stage, s.backgroundThread with
      | .closeJoining caller, .finished =>
          some (AppleSerial.afterJoin
            { s with backgroundThread := .noThread, closeThrew := s.errorStatus } caller)
      | _, _ => none
  | .callRead =>
      if s.backgroundThread = .looping then
        some { s with backgroundThread := .reading s.fd s.fdOpen }
      else none
  | .readReturns received =>
      match s.backgroundThread with
      | .reading _ live =>
          if (live || received = none) && (received.getD []).length ≤ readBufferSize then
            some { s with
              backgroundThread := .returned received, reads := s.reads ++ received.toList }
          else none
      | _ => none
  | .checkOpen =>
      if s.backgroundThread = .returned none then
        some { s with backgroundThread := if s.isOpen then .failing else .finished }
      else none
  | .markError =>
      if s.backgroundThread = .failing then
        some { s.setErrorStatus true with backgroundThread := .looping }
      else none
  | .callBack =>
      match s.backgroundThread with
      | .returned (some data) =>
          some { s with
            backgroundThread := .looping, handled := s.handled ++ [(s.callback, data)] }
      | _ => none

def appleSerial : LTS AppleSerial AppleAct := .ofStep .constructed appleStep

/-! ## What a step can do -/

section Cases

variable {s s' : AppleSerial}

theorem appleStep_setCallback_iff {set : Bool} :
    appleStep s (.setCallback set) = some s' ↔
      s.ownerFree = true ∧ s' = { s with callback := set } := by
  simp only [appleStep, guarded_eq_some_iff]

theorem appleStep_write_iff {str : List UInt8} {written : Option Nat} :
    appleStep s (.write str written) = some s' ↔
      (s.ownerFree = true ∧ s.fd ≠ 0 ∧
          (written = none ∨ s.fdOpen = true ∧ written.getD 0 ≤ str.length)) ∧
        s' = { s with
          error := s.error || written ≠ some str.length
          transmitted := s.transmitted ++ str.take (written.getD 0) } := by
  simp only [appleStep, guarded_eq_some_iff]
  simp [and_assoc]

theorem appleStep_openCalled_cases (h : appleStep s .openCalled = some s') :
    s.ownerFree = true ∧
      (s.isOpen = true ∧ s' = s.markClosed .reopen ∨ s.isOpen = false ∧ s' = s.beginOpen) := by
  simp only [appleStep, guarded_eq_some_iff] at h
  obtain ⟨hfree, rfl⟩ := h
  cases hopen : s.isOpen <;> simp [hfree]

theorem appleStep_openDevice_cases {ok : Bool} (h : appleStep s (.openDevice ok) = some s') :
    s.stage = .opening ∧
      (ok = true ∧ s' = { s with fd := s.fd + 1, fdOpen := true, stage := .opened } ∨
        ok = false ∧ s' = { s with stage := .threw }) := by
  simp only [appleStep, guarded_eq_some_iff] at h
  obtain ⟨hstage, rfl⟩ := h
  cases ok <;> simp [hstage]

theorem appleStep_setUpFails_iff :
    appleStep s .setUpFails = some s' ↔
      s.stage = .opened ∧ s' = { s with fdOpen := false, stage := .threw } := by
  simp only [appleStep, guarded_eq_some_iff]

theorem appleStep_clearError_iff :
    appleStep s .clearError = some s' ↔
      s.stage = .opened ∧ s' = { s.setErrorStatus false with stage := .errorCleared } := by
  simp only [appleStep, guarded_eq_some_iff]

theorem appleStep_markOpen_iff :
    appleStep s .markOpen = some s' ↔
      s.stage = .errorCleared ∧ s' = { s with open' := true, stage := .marked } := by
  simp only [appleStep, guarded_eq_some_iff]

theorem appleStep_startThread_iff :
    appleStep s .startThread = some s' ↔
      s.stage = .marked ∧ s' = { s with backgroundThread := .looping, stage := .outside } := by
  simp only [appleStep, guarded_eq_some_iff]

/-- `close` on a port that is not open does nothing. -/
theorem appleStep_closeCalled_cases (h : appleStep s .closeCalled = some s') :
    s.ownerFree = true ∧
      (s.isOpen = true ∧ s' = s.markClosed .owner ∨ s.isOpen = false ∧ s' = s) := by
  simp only [appleStep, guarded_eq_some_iff] at h
  obtain ⟨hfree, rfl⟩ := h
  cases hopen : s.isOpen <;> simp [hfree]

theorem appleStep_closeFd_iff :
    appleStep s .closeFd = some s' ↔
      ∃ caller, s.stage = .closeMarked caller ∧
        s' = { s with fdOpen := false, stage := .closeJoining caller } := by
  simp only [appleStep]
  cases h : s.stage <;> simp [eq_comm]

theorem appleStep_join_iff :
    appleStep s .join = some s' ↔
      s.backgroundThread = .finished ∧ ∃ caller, s.stage = .closeJoining caller ∧
        s' = AppleSerial.afterJoin
          { s with backgroundThread := .noThread, closeThrew := s.errorStatus } caller := by
  simp only [appleStep]
  split
  · next caller hstage hthread => simp [hstage, hthread, eq_comm]
  · next hnot =>
    simp only [reduceCtorEq, false_iff]
    rintro ⟨hthread, caller, hstage, -⟩
    exact hnot caller hstage hthread

theorem appleStep_callRead_iff :
    appleStep s .callRead = some s' ↔
      s.backgroundThread = .looping ∧
        s' = { s with backgroundThread := .reading s.fd s.fdOpen } := by
  simp only [appleStep, guarded_eq_some_iff]

theorem appleStep_readReturns_iff {received : Option (List UInt8)} :
    appleStep s (.readReturns received) = some s' ↔
      ∃ fd live, s.backgroundThread = .reading fd live ∧
        (live = true ∨ received = none) ∧ (received.getD []).length ≤ readBufferSize ∧
        s' = { s with
          backgroundThread := .returned received, reads := s.reads ++ received.toList } := by
  simp only [appleStep]
  split
  · next fd live hthread =>
    simp only [guarded_eq_some_iff, hthread, ReaderStage.reading.injEq, Bool.and_eq_true,
      Bool.or_eq_true, decide_eq_true_eq]
    constructor
    · rintro ⟨⟨hanswer, hlen⟩, rfl⟩
      exact ⟨fd, live, ⟨rfl, rfl⟩, hanswer, hlen, rfl⟩
    · rintro ⟨_, _, ⟨rfl, rfl⟩, hanswer, hlen, rfl⟩
      exact ⟨⟨hanswer, hlen⟩, rfl⟩
  · next hnot =>
    simp only [reduceCtorEq, false_iff]
    rintro ⟨fd, live, hthread, -⟩
    exact hnot fd live hthread

theorem appleStep_checkOpen_iff :
    appleStep s .checkOpen = some s' ↔
      s.backgroundThread = .returned none ∧
        s' = { s with backgroundThread := if s.isOpen then .failing else .finished } := by
  simp only [appleStep, guarded_eq_some_iff]

theorem appleStep_markError_iff :
    appleStep s .markError = some s' ↔
      s.backgroundThread = .failing ∧
        s' = { s.setErrorStatus true with backgroundThread := .looping } := by
  simp only [appleStep, guarded_eq_some_iff]

theorem appleStep_callBack_iff :
    appleStep s .callBack = some s' ↔
      ∃ data, s.backgroundThread = .returned (some data) ∧
        s' = { s with
          backgroundThread := .looping, handled := s.handled ++ [(s.callback, data)] } := by
  simp only [appleStep]
  split
  · next data hthread => simp [hthread, eq_comm]
  · next hnot =>
    simp only [reduceCtorEq, false_iff]
    rintro ⟨data, hdata, -⟩
    exact hnot data hdata

end Cases

end CarPi.Serial
