/-
CarPi.ArduPi.Gpio — the pins of `arduPi.cpp`: `pinMode`, `digitalWrite`,
`digitalRead`, `shiftOut` and `shiftIn`, and the `bcm2835_gpio_fsel` of the two
bus classes.

The registers are the six words of the function select, three bits a pin, which
hold what was written to them; and the level of each pin, which a write to
`GPSET0` raises and one to `GPCLR0` lowers for the bits set in it. The safe reads
and writes of a peripheral do the same thing twice, and are one here.

Pins go by three numbers. The Arduino number of a call is turned into the
number of the chip by `raspberryPinNumber`, whose `switch` returns nothing for a
number it does not know; a `Pin` is one that it does.

Not modelled: the microsecond that `digitalWrite` waits, and the mapping of the
registers into memory.
-/
import CarPi.Foundation.Fields

namespace CarPi.ArduPi

open CarPi.Foundation

abbrev Word := BitVec 32

/-! ## Pins -/

def raspberryPinNumber (REV arduinoPin : Nat) : Option Nat :=
  match arduinoPin with
  | 2 => some 18
  | 3 => some 23
  | 4 => some 24
  | 5 => some 25
  | 6 => some 4
  | 7 => some 17
  | 8 => if REV = 1 then some 21 else some 27
  | 9 => some 22
  | 10 => some 8
  | 11 => some 10
  | 12 => some 9
  | 13 => some 11
  | _ => none

/-- A pin that `raspberryPinNumber` knows, with the number of the chip. -/
structure Pin (REV : Nat) where
  arduino : Nat
  gpio : Nat
  known : raspberryPinNumber REV arduino = some gpio
  deriving DecidableEq

/-- The cases of the `switch` statements, in their order. -/
def gpioPins : List Nat := [4, 8, 9, 10, 11, 17, 18, 21, 27, 22, 23, 24, 25]

/-- `BIT_n`, for the pins that have a case. -/
def bitOf (pin : Nat) : Option Word := if pin ∈ gpioPins then some (1#32 <<< pin) else none

structure Gpio where
  gpfsel : Nat → Word
  gplev0 : Word

/-! ## The function select -/

inductive Pinmode where
  | INPUT
  | OUTPUT
  deriving DecidableEq, Repr

/-- The number of the function-select word and the shift in it, in the first `switch` of
`pinMode`. -/
def outputCase : Nat → Option (Nat × Nat)
  | 4 => some (0, 12)
  | 8 => some (0, 24)
  | 9 => some (0, 27)
  | 10 => some (1, 0)
  | 11 => some (1, 3)
  | 17 => some (1, 21)
  | 18 => some (1, 24)
  | 21 => some (2, 3)
  | 27 => some (2, 21)
  | 22 => some (2, 6)
  | 23 => some (2, 9)
  | 24 => some (2, 12)
  | 25 => some (2, 15)
  | _ => none

/-- The same in the second `switch`: not the same for pin 27. -/
def inputCase : Nat → Option (Nat × Nat)
  | 4 => some (0, 12)
  | 8 => some (0, 24)
  | 9 => some (0, 27)
  | 10 => some (1, 0)
  | 11 => some (1, 3)
  | 17 => some (1, 21)
  | 18 => some (1, 24)
  | 21 => some (2, 3)
  | 27 => some (2, 3)
  | 22 => some (2, 6)
  | 23 => some (2, 9)
  | 24 => some (2, 12)
  | 25 => some (2, 15)
  | _ => none

namespace Gpio

variable {REV : Nat} (g : Gpio)

/-- An assignment to `GPFSELn`. -/
def writeSelect (n : Nat) (word : Word) : Gpio :=
  { g with gpfsel := Function.update g.gpfsel n word }

def bcm2835_gpio_fsel (pin : Nat) (mode : BitVec 8) : Gpio :=
  let shift := pin % 10 * 3
  let mask := 7#32 <<< shift
  let value := mode.setWidth 32 <<< shift
  g.writeSelect (pin / 10) (setBits (g.gpfsel (pin / 10)) value mask)

def pinMode (pin : Pin REV) : Pinmode → Gpio
  | .OUTPUT =>
    match outputCase pin.gpio with
    | some (n, shift) =>
      g.writeSelect n ((g.gpfsel n &&& ~~~(7#32 <<< shift)) ||| (1#32 <<< shift))
    | none => g
  | .INPUT =>
    match inputCase pin.gpio with
    | some (n, shift) => g.writeSelect n (g.gpfsel n &&& ~~~(7#32 <<< shift))
    | none => g

/-- The three bits that select the function of a pin. -/
def functionOf (pin : Nat) : BitVec 3 := fieldAt 3 10 g.gpfsel pin

/-! ## Levels -/

def HIGH : Nat := 1

def LOW : Nat := 0

/-- Neither `HIGH` nor `LOW` writes no register. -/
def digitalWrite (pin : Pin REV) (value : Nat) : Gpio :=
  if value = HIGH then
    match bitOf pin.gpio with
    | some bit => { g with gplev0 := g.gplev0 ||| bit }
    | none => g
  else if value = LOW then
    match bitOf pin.gpio with
    | some bit => { g with gplev0 := g.gplev0 &&& ~~~bit }
    | none => g
  else g

def digitalRead (pin : Pin REV) : Option Nat :=
  (bitOf pin.gpio).map fun bit => if g.gplev0 &&& bit ≠ 0 then HIGH else LOW

/-- The level of a pin. -/
def level (pin : Pin REV) : Bool := g.gplev0.getLsbD pin.gpio

end Gpio

/-! ## Shifting -/

inductive BitOrder where
  | LSBFIRST
  | MSBFIRST
  deriving DecidableEq, Repr

/-- The values of `i` in the loop. -/
def BitOrder.indices : BitOrder → List Nat
  | .MSBFIRST => [7, 6, 5, 4, 3, 2, 1, 0]
  | .LSBFIRST => [0, 1, 2, 3, 4, 5, 6, 7]

section Shifting

open Gpio

variable {REV : Nat} (dPin cPin : Pin REV)

/-- The calls of `digitalWrite` in `shiftOut`. -/
def shiftOutWrites (order : BitOrder) (val : BitVec 8) : List (Pin REV × Nat) :=
  order.indices.flatMap fun i =>
    [(dPin, (val &&& 1#8 <<< i).toNat), (cPin, HIGH), (cPin, LOW)]

def writeAll (g : Gpio) (writes : List (Pin REV × Nat)) : Gpio :=
  writes.foldl (fun g write => g.digitalWrite write.1 write.2) g

def shiftOut (g : Gpio) (order : BitOrder) (val : BitVec 8) : Gpio :=
  writeAll g (shiftOutWrites dPin cPin order val)

/-- The device at the other end of the line drives it. -/
def drive (g : Gpio) (pin : Pin REV) (high : Bool) : Gpio :=
  g.digitalWrite pin (if high then HIGH else LOW)

/-- The loop of `shiftIn`, on what the device drives the line to behind each clock: the
value, and the registers. -/
def shiftInLoop (g : Gpio) (value : BitVec 8) : List (Nat × Bool) → BitVec 8 × Gpio
  | [] => (value, g)
  | (i, high) :: turns =>
    let g := drive (g.digitalWrite cPin HIGH) dPin high
    let value := value ||| BitVec.ofNat 8 ((g.digitalRead dPin).getD LOW <<< i)
    shiftInLoop (g.digitalWrite cPin LOW) value turns

def shiftIn (g : Gpio) (order : BitOrder) (line : List Bool) : BitVec 8 × Gpio :=
  shiftInLoop dPin cPin g 0 (order.indices.zip line)

end Shifting

end CarPi.ArduPi
