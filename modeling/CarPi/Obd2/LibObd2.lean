/-
CarPi.Obd2.LibObd2 — requests to the OBD adapter (`libObd2.cpp`).

`sendObdRequestString` writes a request to the port, sleeps, and reads until
a read holds the prompt `>`. What it reads goes, without the prompts, into
`totalReply`, an array of 1024 bytes. Each turn of the loop ends with two
tests made after the read was stored: the deadline (if `timeout > 0`), and
`timeout == -1` for callers that do not wait. `sendObdRequest` decodes the
reply from hex; the C wrappers copy it into the caller's array.

The port and the clock are the input of a call (`PortBehaviour`): what
`write` returns, what each `read` brings, what `time` says. A call whose
reads run out before it is done is `blocked`.

The array is bounds-checked (`Buffer`): a call that stores outside it has
the outcome `overrun`, with the index. In C++ nothing is defined from there
on, so such a call may do anything, and ensures nothing (`Outcome.Ensures`).

`reply` is cleared on entry, so a call returns what it holds in the end.
Left out are the debug and comms callbacks and `printf`.
-/
import CarPi.Foundation.Buffer
import CarPi.Foundation.CString

namespace CarPi.Obd2

open CarPi.Foundation

/-! ## The object -/

/-- `libObd2::ObdError` -/
inductive ObdError where
  | nodata
  | notConnected
  | other
  | serialWriteError
  | serialReadError
  | timeout
  | none
  deriving DecidableEq, Repr

/-- The enumeration value as a byte. -/
def ObdError.code : ObdError → UInt8
  | .nodata => 0
  | .notConnected => 1
  | .other => 2
  | .serialWriteError => 3
  | .serialReadError => 4
  | .timeout => 5
  | .none => 6

structure LibObd2 where
  m_lastError : ObdError
  deriving DecidableEq, Repr

/-- The object as constructed. -/
def LibObd2.new : LibObd2 := ⟨.none⟩

def LibObd2.lastError (lib : LibObd2) : ObdError := lib.m_lastError

def LibObd2.fail (lib : LibObd2) (e : ObdError) : LibObd2 := { lib with m_lastError := e }

/-! ## Port and clock -/

/-- `'>'` -/
def prompt : UInt8 := 62

/-- The size of `tmp` and of `totalReply`. -/
def replySize : Nat := 1024

/-- What one `read(portHandle, tmp, 1024)` delivered. -/
structure Chunk where
  bytes : List UInt8
  short : bytes.length ≤ replySize

inductive ReadResult where
  | error
  | data (tmp : Chunk)

/-- One turn of the read loop: the read, and `time(NULL)` at its end. -/
structure Turn where
  read : ReadResult
  now : Int

/-- What port and clock do during a call: the result of `write` for the bytes
it is given, the time at the start, and the turns of the loop. -/
structure PortBehaviour where
  write : List UInt8 → Int
  start : Int
  turns : List Turn

/-- How a call ends: not within the turns given, by a store outside of
`totalReply`, or by returning. -/
inductive Outcome (α : Type) where
  | blocked
  | overrun (index : Nat)
  | returned (a : α)
  deriving DecidableEq, Repr

namespace Outcome

variable {α β : Type}

def map (f : α → β) : Outcome α → Outcome β
  | .blocked => .blocked
  | .overrun index => .overrun index
  | .returned a => .returned (f a)

/-- `P` holds of what the call returns, if it returns. One that has overrun its array can
return anything. -/
def Ensures (P : α → Prop) : Outcome α → Prop
  | .blocked => True
  | .overrun _ => False
  | .returned a => P a

@[simp] theorem ensures_blocked (P : α → Prop) : (blocked : Outcome α).Ensures P := trivial

@[simp] theorem ensures_overrun (P : α → Prop) (index : Nat) :
    ¬ (overrun index : Outcome α).Ensures P := not_false

@[simp] theorem ensures_returned (P : α → Prop) (a : α) : (returned a).Ensures P ↔ P a := Iff.rfl

@[simp] theorem ensures_map (f : α → β) (P : β → Prop) (o : Outcome α) :
    (o.map f).Ensures P ↔ o.Ensures fun a => P (f a) := by
  cases o <;> rfl

theorem ensures_iff (P : α → Prop) (o : Outcome α) :
    o.Ensures P ↔ (∀ index, o ≠ .overrun index) ∧ ∀ a, o = .returned a → P a := by
  cases o <;> simp

end Outcome

/-! ## The read loop -/

/-- `(time(NULL) - seconds) - (sleeptime / 1000.0) > timeout`, in thousandths of
a second. -/
def deadlinePassed (sleeptime timeout seconds now : Int) : Bool :=
  1000 * timeout < 1000 * (now - seconds) - sleeptime

/-- The loop over the bytes of one read: the array and `continueLoop`
afterwards, or the index of a store outside the array. It goes on behind a
prompt. -/
def storeRead : List UInt8 → Buffer UInt8 replySize → Bool →
    Except Nat (Buffer UInt8 replySize × Bool)
  | [], totalReply, continueLoop => .ok (totalReply, continueLoop)
  | b :: tmp, totalReply, continueLoop =>
    if b ≠ prompt then
      match totalReply.store b with
      | none => .error totalReply.loc
      | some totalReply => storeRead tmp totalReply continueLoop
    else storeRead tmp totalReply false

/-- How the read loop is left. -/
inductive LoopEnd where
  | readError
  | timedOut
  | notWaiting
  | prompted
  deriving DecidableEq, Repr

inductive LoopResult where
  | blocked
  | overrun (index : Nat)
  | ended (how : LoopEnd) (totalReply : Buffer UInt8 replySize)

def readLoop (sleeptime timeout seconds : Int) :
    List Turn → Buffer UInt8 replySize → LoopResult
  | [], _ => .blocked
  | turn :: turns, totalReply =>
    match turn.read with
    | .error => .ended .readError totalReply
    | .data tmp =>
      match storeRead tmp.bytes totalReply true with
      | .error index => .overrun index
      | .ok (totalReply, continueLoop) =>
        if 0 < timeout ∧ deadlinePassed sleeptime timeout seconds turn.now then
          .ended .timedOut totalReply
        else if timeout = -1 then .ended .notWaiting totalReply
        else if continueLoop then readLoop sleeptime timeout seconds turns totalReply
        else .ended .prompted totalReply

/-! ## `sendObdRequestString` -/

/-- What a request leaves behind: the object, the return value, and the vector
`reply`. -/
structure Answer where
  lib : LibObd2
  ok : Bool
  reply : List UInt8
  deriving DecidableEq, Repr

def nodataWord : List UInt8 := bytes ['N', 'O', 'D', 'A', 'T', 'A']

/-- The checking of `totalReply`, behind the loop. `reply` is filled before
the text is looked at. -/
def checkReply (lib : LibObd2) (totalReply : Buffer UInt8 replySize) : Outcome Answer :=
  let reply := totalReply.items
  match totalReply.store 0 with
  | none => .overrun totalReply.loc
  | some terminated =>
    if strspn nodataWord terminated.items = 6 then .returned ⟨lib.fail .nodata, false, reply⟩
    else .returned ⟨lib, true, reply⟩

/-- What follows the write. -/
def awaitReply (lib : LibObd2) (port : PortBehaviour) (sleeptime timeout : Int) :
    Outcome Answer :=
  -- Not expecting a reply
  if sleeptime = -1 then .returned ⟨lib, true, []⟩
  else
    match readLoop sleeptime timeout port.start port.turns .empty with
    | .blocked => .blocked
    | .overrun index => .overrun index
    | .ended .readError _ => .returned ⟨lib.fail .serialReadError, false, []⟩
    | .ended .timedOut _ => .returned ⟨lib.fail .timeout, false, []⟩
    | .ended .notWaiting _ => .returned ⟨lib, true, []⟩
    | .ended .prompted totalReply => checkReply lib totalReply

/-- A call, with the `write` it makes before it sleeps and reads: the bytes and the result. -/
structure Call (α : Type) where
  write : List UInt8 × Int
  outcome : Outcome α

def sendObdRequestStringCall (lib : LibObd2) (port : PortBehaviour) (req : List UInt8)
    (sleeptime timeout : Int) : Call Answer :=
  let len := port.write req
  { write := (req, len)
    outcome :=
      if len < 0 then
        -- "No Write" is printed, and the call goes on
        awaitReply lib port sleeptime timeout
      else awaitReply lib port sleeptime timeout }

def sendObdRequestString (lib : LibObd2) (port : PortBehaviour) (req : List UInt8)
    (sleeptime timeout : Int) : Outcome Answer :=
  (sendObdRequestStringCall lib port req sleeptime timeout).outcome

/-- `sendObdRequestString(req, length, reply)` -/
def sendObdRequestStringDefault (lib : LibObd2) (port : PortBehaviour) (req : List UInt8) :
    Outcome Answer :=
  sendObdRequestString lib port req 20 3

/-- `sendObdRequestString(req, length, reply, sleeptime)` -/
def sendObdRequestStringSleep (lib : LibObd2) (port : PortBehaviour) (req : List UInt8)
    (sleeptime : Int) : Outcome Answer :=
  sendObdRequestString lib port req sleeptime 3

/-- `sendObdRequest(req, len)`, the blind request. Its vector is its own. -/
def sendObdRequestBlind (lib : LibObd2) (port : PortBehaviour) (req : List UInt8) :
    Outcome Answer :=
  sendObdRequestString lib port req (-1) (-1)

/-- `sendObdRequest(req, len, sleeptime)` -/
def sendObdRequestBlindSleep (lib : LibObd2) (port : PortBehaviour) (req : List UInt8)
    (sleeptime : Int) : Outcome Answer :=
  sendObdRequestString lib port req sleeptime (-1)

/-! ## `sendObdRequest` -/

def byteArrayToByte (b1 b2 : UInt8) : UInt8 :=
  let newB1 :=
    if 48 ≤ b1 ∧ b1 ≤ 57 then (b1 - 48) * 16
    else if 65 ≤ b1 ∧ b1 ≤ 90 then (b1 - 55) * 16
    else (b1 - 87) * 16
  let newB2 :=
    if 48 ≤ b2 ∧ b2 ≤ 57 then b2 - 48
    else if 65 ≤ b2 ∧ b2 ≤ 90 then b2 - 55
    else b2 - 87
  newB1 + newB2

/-- `0x20`, CR and LF are skipped where a pair could begin. -/
def isSeparator (b : UInt8) : Bool := b = 32 || b = CR || b = LF

/-- Space, CR and LF, and no other byte. -/
theorem isSeparator_iff (b : UInt8) :
    isSeparator b = true ↔ b = 0x20 ∨ b = 0x0D ∨ b = 0x0A := by
  simp only [isSeparator, Bool.or_eq_true, decide_eq_true_eq, or_assoc]
  rfl

/-- The decode loop: from index `i` up to `size() - 1`, by two for a pair and
by one for a separator. -/
def decodeReply : List UInt8 → List UInt8
  | b1 :: b2 :: tmpReply =>
    if !isSeparator b1 then byteArrayToByte b1 b2 :: decodeReply tmpReply
    else decodeReply (b2 :: tmpReply)
  | [_] => []
  | [] => []

def sendObdRequest (lib : LibObd2) (port : PortBehaviour) (req : List UInt8)
    (sleep timeout : Int) : Outcome Answer :=
  (sendObdRequestString lib port req sleep timeout).map fun tmp =>
    if !tmp.ok then ⟨tmp.lib, false, []⟩
    else if tmp.reply.length = 0 then ⟨tmp.lib, false, []⟩
    else ⟨tmp.lib, true, decodeReply tmp.reply⟩

/-- `sendObdRequest(req, length, reply)` -/
def sendObdRequestDefault (lib : LibObd2) (port : PortBehaviour) (req : List UInt8) :
    Outcome Answer :=
  sendObdRequest lib port req 100 5

/-! ## The C wrappers -/

/-- What a wrapper leaves behind: its stores into the caller's array, in order,
and what it stores through `replylengthptr`. -/
structure CAnswer where
  lib : LibObd2
  ok : Bool
  stores : List (Nat × UInt8)
  replylength : Option Nat
  deriving DecidableEq, Repr

/-- `reply[i] = replyvect.at(i)` for every `i`. -/
def copyStores (replyvect : List UInt8) : List (Nat × UInt8) :=
  (List.range replyvect.length).zip replyvect

def obdLibSendObdRequest (lib : LibObd2) (port : PortBehaviour) (req : List UInt8)
    (replylength : Nat) (sleeptime timeout : Int) : Outcome CAnswer :=
  (sendObdRequest lib port req sleeptime timeout).map fun a =>
    if !a.ok then ⟨a.lib, false, [], none⟩
    else if replylength < a.reply.length then
      -- Not enough room in the buffer
      ⟨a.lib, false, [], none⟩
    else
      ⟨a.lib, true, copyStores a.reply ++ [(a.reply.length, 46)], none⟩

def obdLibSendObdRequestString (lib : LibObd2) (port : PortBehaviour) (req : List UInt8)
    (replylength : Nat) (sleeptime timeout : Int) : Outcome CAnswer :=
  (sendObdRequestString lib port req sleeptime timeout).map fun a =>
    if !a.ok then ⟨a.lib, false, [(0, 255), (1, 1), (2, a.lib.lastError.code)], none⟩
    else if replylength < a.reply.length then
      -- Not enough room in the buffer
      ⟨a.lib, false, [(0, 255), (1, 2)], none⟩
    else
      let empty := if a.reply.length = 0 then [(0, a.lib.lastError.code)] else []
      ⟨a.lib, true, copyStores a.reply ++ empty, some a.reply.length⟩

end CarPi.Obd2
