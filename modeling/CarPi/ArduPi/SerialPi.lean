/-
CarPi.ArduPi.SerialPi — the reads of `SerialPi` (`arduPi.cpp`) that wait:
`findUntil`, `readBytes` and `readBytesUntil`, with the `timeDiff` that
times them.

A call looks at the port again and again. One look is a `Turn`: the byte that
`read` gave, if `available()` said that there was one, and what `clock_gettime`
said afterwards. The turns are the input of a call. If they end before the call
does it is still waiting, and the result is `none`.

`char` is unsigned on the ARM the project is built for, so bytes are compared as
they are.

Not modelled: `find`, which hands `strlen` a null pointer, and `begin` and `end`.
-/
import CarPi.Foundation.Matcher

namespace CarPi.ArduPi

open CarPi.Foundation

/-! ## The clock -/

structure Timespec where
  tv_sec : Int
  tv_nsec : Int
  deriving DecidableEq, Repr

/-- The time elapsed between start and end. -/
def timeDiff (start end' : Timespec) : Timespec :=
  if end'.tv_nsec - start.tv_nsec < 0 then
    { tv_sec := end'.tv_sec - start.tv_sec - 1
      tv_nsec := 1000000000 + end'.tv_nsec - start.tv_nsec }
  else
    { tv_sec := end'.tv_sec - start.tv_sec
      tv_nsec := end'.tv_nsec - start.tv_nsec }

/-! ## The object -/

/-- What the waiting reads use of the object. -/
structure SerialPi where
  /-- the byte that `read`, `peek` or `flush` left -/
  c : UInt8
  timeOut : Int
  deriving DecidableEq, Repr

/-- One look at the port. -/
structure Turn where
  byte : Option UInt8
  time2 : Timespec
  deriving DecidableEq, Repr

/-- What came in. -/
def received (turns : List Turn) : List UInt8 := turns.filterMap Turn.byte

namespace SerialPi

variable (p : SerialPi) (time1 : Timespec)

/-- `(t.tv_nsec/1000)>timeOut` -/
def late (time2 : Timespec) : Bool := p.timeOut < (timeDiff time1 time2).tv_nsec.tdiv 1000

/-! ## findUntil -/

/-- The index into the terminator behind one more byte, `none` where the call
returns for it. -/
def termStep (terminal : List UInt8) (termIndex : Nat) : Option Nat :=
  if 0 < terminal.length && terminal[termIndex]? = some p.c then
    if terminal.length ≤ termIndex + 1 then none else some (termIndex + 1)
  else some 0

/-- The loop, from the two indices on: what the call returns, and the turns it leaves. -/
def findLoop (target terminal : List UInt8) :
    Nat → Nat → List Turn → Option (Bool × List Turn)
  | _, _, [] => none
  | index, termIndex, turn :: turns =>
    match turn.byte with
    | some readed =>
      -- reset index if any char does not match, and look at the first one again
      let index := resetStep target index readed
      if target.length ≤ index then some (true, turns)
      else
        match p.termStep terminal termIndex with
        | none => some (false, turns)
        | some termIndex =>
          if p.late time1 turn.time2 then some (false, turns)
          else findLoop target terminal index termIndex turns
    | none =>
      if p.late time1 turn.time2 then some (false, turns)
      else findLoop target terminal index termIndex turns

def findUntil (target terminal : List UInt8) (turns : List Turn) : Option (Bool × List Turn) :=
  if target = [] then some (true, turns) else p.findLoop time1 target terminal 0 0 turns

/-! ## readBytes -/

/-- `if(available()) read(sd,&message[count],1)` -/
def store (turn : Turn) (count : Nat) (message : List UInt8) : List UInt8 :=
  match turn.byte with
  | some readed => message.set count readed
  | none => message

/-- The loop, with `left` turns to go: what the call returns, the array, and the turns it
leaves. -/
def readLoop : Nat → Nat → List UInt8 → List Turn → Option (Nat × List UInt8 × List Turn)
  | 0, count, message, turns => some (count, message, turns)
  | _ + 1, _, _, [] => none
  | left + 1, count, message, turn :: turns =>
    let message := store turn count message
    if p.late time1 turn.time2 then some (count, message, turns)
    else readLoop left (count + 1) message turns

def readBytes (message : List UInt8) (size : Nat) (turns : List Turn) :
    Option (Nat × List UInt8 × List Turn) :=
  p.readLoop time1 size 0 message turns

/-! ## readBytesUntil -/

/-- The loop, with `left` cells to go and the byte read last. -/
def untilLoop (character : UInt8) :
    Nat → UInt8 → Nat → List UInt8 → List Turn → Option (Nat × List UInt8 × List Turn)
  | 0, _, count, buffer, turns => some (count, buffer, turns)
  | left + 1, lastReaded, count, buffer, turns =>
    if lastReaded = character then some (count, buffer, turns)
    else
      match turns with
      | [] => none
      | turn :: turns =>
        let buffer := store turn count buffer
        let lastReaded := buffer.getD count 0
        if p.late time1 turn.time2 then some (count + 1, buffer, turns)
        else untilLoop character left lastReaded (count + 1) buffer turns

def readBytesUntil (character : UInt8) (buffer : List UInt8) (length : Nat) (turns : List Turn) :
    Option (Nat × List UInt8 × List Turn) :=
  p.untilLoop time1 character length (character + 1) 0 buffer turns

end SerialPi

end CarPi.ArduPi
