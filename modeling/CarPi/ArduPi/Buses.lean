/-
CarPi.ArduPi.Buses — the polled transfers of `arduPi.cpp`: `WirePi::write` and
`WirePi::read(char*)` over the I2C controller, `SPIPi::transfernb` over the SPI
one. Each is a system of two, the code and the controller: between two looks
at the status register the controller moves as many bytes as it likes.

The code's side is the source, one step for each look at the status and one for
each byte it moves. The controller's side is what the comments at the masks of
`arduPi.h` and in the two loops say, and no more:
* `TXD`: the FIFO can accept data, `RXD`: it contains data. The I2C FIFO holds
  `BCM2835_BSC_FIFO_SIZE` bytes.
* "Transfer is over when BCM2835_BSC_S_DONE": behind it no byte moves and no error
  comes. Before it, an I2C controller may move a byte or report an error (`ERR`,
  `CLKT`) whenever it likes, and be done whenever it likes: what it makes of the
  length in its register is up to it.
* SPI moves a byte in for each byte out, and is done when there is none to go out.

A system starts behind the write to the control register that starts the
transfer; the FIFO has been cleared before that, and the status of I2C as well.
The histories `taken`, `given` and `exchanged` are what the slave got and gave, and
are read by no step.

Not modelled: `read_rs`, whose two transfers depend on when the controller
clears `DONE`; the clock, the pins and the waits between two looks.
-/
import CarPi.Foundation.Runs

namespace CarPi.ArduPi

open CarPi.Foundation

/-! ## The I2C controller -/

def BCM2835_BSC_FIFO_SIZE : Nat := 16

/-- `bcm2835I2CReasonCodes` -/
inductive Reason where
  | OK
  | ERROR_NACK
  | ERROR_CLKT
  | ERROR_DATA
  deriving DecidableEq, Repr

structure Bsc where
  fifo : List UInt8
  err : Bool
  clkt : Bool
  done : Bool
  deriving DecidableEq, Repr

/-- The FIFO and the status are cleared. -/
def Bsc.cleared : Bsc := { fifo := [], err := false, clkt := false, done := false }

def Bsc.TXD (b : Bsc) : Bool := b.fifo.length < BCM2835_BSC_FIFO_SIZE

def Bsc.RXD (b : Bsc) : Bool := !b.fifo.isEmpty

/-- The three tests at the end of `write` and `read`. -/
def Bsc.reason (b : Bsc) (remaining : Bool) : Reason :=
  if b.err then .ERROR_NACK
  else if b.clkt then .ERROR_CLKT
  else if remaining then .ERROR_DATA
  else .OK

/-- What the controller reports. -/
inductive BscAct where
  /-- `ERR` -/
  | nack
  /-- `CLKT` -/
  | stretch
  /-- `DONE` -/
  | finish
  deriving DecidableEq, Repr

def Bsc.report (b : Bsc) : BscAct → Bsc
  | .nack => { b with err := true }
  | .stretch => { b with clkt := true }
  | .finish => { b with done := true }

/-! ## WirePi::write -/

inductive WriteStage where
  /-- at the head of the outer loop -/
  | polling
  /-- at the head of the inner loop -/
  | filling
  /-- in the inner loop, behind its test -/
  | writing
  | returned (reason : Reason)
  deriving DecidableEq, Repr

structure WriteState where
  bsc : Bsc
  /-- `buf[i]` and what follows, `remaining` bytes -/
  left : List UInt8
  stage : WriteStage
  -- history
  taken : List UInt8
  deriving DecidableEq, Repr

/-- "pre populate FIFO with max buffer": what is in the FIFO and what is left, from `i` on. -/
def prefill : Nat → List UInt8 → List UInt8 → List UInt8 × List UInt8
  | _, fifo, [] => (fifo, [])
  | i, fifo, b :: left =>
    if i < BCM2835_BSC_FIFO_SIZE then prefill (i + 1) (fifo ++ [b]) left else (fifo, b :: left)

def writeStart (buf : List UInt8) : WriteState :=
  let (fifo, left) := prefill 0 [] buf
  { bsc := { Bsc.cleared with fifo := fifo }
    left := left
    stage := .polling
    taken := [] }

inductive WriteAct where
  /-- `while(!(status & BCM2835_BSC_S_DONE ))`, and where it ends the tests behind it -/
  | poll
  /-- `while ( remaining && (status & BCM2835_BSC_S_TXD ))` -/
  | check
  /-- `fifo` is written -/
  | put
  /-- controller: the slave gets a byte -/
  | shift
  /-- controller -/
  | bsc (act : BscAct)
  deriving DecidableEq, Repr

def writeStep (s : WriteState) : WriteAct → Option WriteState
  | .poll =>
      if s.stage = .polling then
        some { s with stage :=
          if s.bsc.done then .returned (s.bsc.reason (!s.left.isEmpty)) else .filling }
      else none
  | .check =>
      if s.stage = .filling then
        some { s with stage := if !s.left.isEmpty && s.bsc.TXD then .writing else .polling }
      else none
  | .put =>
      match s.stage, s.left with
      | .writing, b :: left =>
          some { s with
            bsc := { s.bsc with fifo := s.bsc.fifo ++ [b] }, left := left, stage := .filling }
      | _, _ => none
  | .shift =>
      match s.bsc.fifo with
      | b :: fifo =>
          if s.bsc.done then none
          else some { s with bsc := { s.bsc with fifo := fifo }, taken := s.taken ++ [b] }
      | [] => none
  | .bsc act => if s.bsc.done then none else some { s with bsc := s.bsc.report act }

def wireWrite (buf : List UInt8) : LTS WriteState WriteAct := .ofStep (writeStart buf) writeStep

/-! ## WirePi::read -/

inductive ReadStage where
  /-- at the head of the outer loop -/
  | polling
  /-- at the head of the inner loop, which does not test `remaining` -/
  | draining
  | fetching
  /-- at the head of the loop behind -/
  | grabbing
  | grabFetching
  | returned (reason : Reason)
  deriving DecidableEq, Repr

structure ReadState where
  bsc : Bsc
  remaining : UInt32
  /-- what has been stored, `buf[0]` first -/
  stored : List UInt8
  stage : ReadStage
  -- history
  given : List UInt8
  deriving DecidableEq, Repr

def readStart (i2c_bytes_to_read : UInt32) : ReadState where
  bsc := .cleared
  remaining := i2c_bytes_to_read
  stored := []
  stage := .polling
  given := []

inductive ReadAct where
  /-- `while (!(status & BCM2835_BSC_S_DONE))` -/
  | poll
  /-- `while (status & BCM2835_BSC_S_RXD)`, in one loop or the other -/
  | check
  /-- `fifo` is read -/
  | fetch
  /-- controller: the slave gives a byte -/
  | shift (b : UInt8)
  /-- controller -/
  | bsc (act : BscAct)
  deriving DecidableEq, Repr

/-- `buf[i] = fifo; i++; remaining--;` -/
def ReadState.fetch (s : ReadState) (stage : ReadStage) : Option ReadState :=
  match s.bsc.fifo with
  | b :: fifo =>
      some { s with
        bsc := { s.bsc with fifo := fifo }
        stored := s.stored ++ [b]
        remaining := s.remaining - 1
        stage := stage }
  | [] => none

def readStep (s : ReadState) : ReadAct → Option ReadState
  | .poll =>
      if s.stage = .polling then
        some { s with stage := if s.bsc.done then .grabbing else .draining }
      else none
  | .check =>
      match s.stage with
      | .draining => some { s with stage := if s.bsc.RXD then .fetching else .polling }
      | .grabbing =>
          some { s with stage :=
            if s.remaining ≠ 0 && s.bsc.RXD then .grabFetching
            else .returned (s.bsc.reason (s.remaining ≠ 0)) }
      | _ => none
  | .fetch =>
      match s.stage with
      | .fetching => s.fetch .draining
      | .grabFetching => s.fetch .grabbing
      | _ => none
  | .shift b =>
      if !s.bsc.done && s.bsc.TXD then
        some { s with
          bsc := { s.bsc with fifo := s.bsc.fifo ++ [b] }
          given := s.given ++ [b] }
      else none
  | .bsc act => if s.bsc.done then none else some { s with bsc := s.bsc.report act }

def wireRead (i2c_bytes_to_read : UInt32) : LTS ReadState ReadAct :=
  .ofStep (readStart i2c_bytes_to_read) readStep

/-! ## SPIPi::transfernb -/

inductive SpiStage where
  /-- at the head of the loop -/
  | head
  | writing
  | waitRXD
  | reading
  | waitDONE
  | returned
  deriving DecidableEq, Repr

structure SpiState where
  tx : List UInt8
  rx : List UInt8
  /-- `tbuf[i]` and what follows -/
  left : List UInt8
  /-- `rbuf[0]` to `rbuf[i-1]` -/
  rbuf : List UInt8
  stage : SpiStage
  -- history: the bytes that went out and in together
  exchanged : List (UInt8 × UInt8)
  deriving DecidableEq, Repr

/-- Both FIFOs are cleared, and the transfer is active. -/
def spiStart (tbuf : List UInt8) : SpiState where
  tx := []
  rx := []
  left := tbuf
  rbuf := []
  stage := .head
  exchanged := []

inductive SpiAct where
  /-- `i < len`, and a look at `TXD` that the controller answers with yes or no -/
  | checkTXD (ready : Bool)
  | put
  | checkRXD
  | get
  | checkDONE
  /-- controller: a byte goes out, and one comes in -/
  | exchange (b : UInt8)
  deriving DecidableEq, Repr

def spiStep (s : SpiState) : SpiAct → Option SpiState
  | .checkTXD ready =>
      if s.stage = .head then
        some { s with stage :=
          if s.left.isEmpty then .waitDONE else if ready then .writing else .head }
      else none
  | .put =>
      match s.stage, s.left with
      | .writing, b :: left => some { s with tx := s.tx ++ [b], left := left, stage := .waitRXD }
      | _, _ => none
  | .checkRXD =>
      if s.stage = .waitRXD then
        some { s with stage := if s.rx.isEmpty then .waitRXD else .reading }
      else none
  | .get =>
      match s.stage, s.rx with
      | .reading, b :: rx => some { s with rx := rx, rbuf := s.rbuf ++ [b], stage := .head }
      | _, _ => none
  | .checkDONE =>
      if s.stage = .waitDONE then
        some { s with stage := if s.tx.isEmpty then .returned else .waitDONE }
      else none
  | .exchange b =>
      match s.tx with
      | a :: tx => some { s with tx := tx, rx := s.rx ++ [b], exchanged := s.exchanged ++ [(a, b)] }
      | [] => none

def spiTransfer (tbuf : List UInt8) : LTS SpiState SpiAct := .ofStep (spiStart tbuf) spiStep

end CarPi.ArduPi
