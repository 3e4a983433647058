/-
CarPi.ArduPi.BusPins — who has a pin: what `pinMode` and the bus classes make of
the function select between them.

I2C is on the pins 2 and 3 of the chip, which no Arduino number names, SPI on the pins 7
to 11, of which `pinMode` knows all but the first. `begin` gives them the
alternate function, `WirePi::endTransmission` and `SPIPi::end` make them inputs.
`WirePi::beginTransmission` and `requestFrom` write the address of the slave and do not
touch the pins: a transmission that follows `endTransmission` finds them inputs unless
`begin` has been called again (`bus_selected_iff`).

Not modelled: the time for a byte that `WirePi::begin` computes in floating
point, the control register that `SPIPi::begin` clears.
-/
import CarPi.ArduPi.GpioTheorems

namespace CarPi.ArduPi

open CarPi.Foundation

variable {REV : Nat}

def BCM2835_GPIO_FSEL_INPT : BitVec 8 := 0b000

def BCM2835_GPIO_FSEL_ALT0 : BitVec 8 := 0b100

/-! ## The bus classes -/

/-- One call of `bcm2835_gpio_fsel` for each pin. -/
def Gpio.selectPins (g : Gpio) (pins : List Nat) (mode : BitVec 8) : Gpio :=
  pins.foldl (fun g pin => g.bcm2835_gpio_fsel pin mode) g

namespace WirePi

def RPI_V2_GPIO_P1_03 : Nat := 2

def RPI_V2_GPIO_P1_05 : Nat := 3

/-- `SDA` and `SCL` -/
def pins : List Nat := [RPI_V2_GPIO_P1_03, RPI_V2_GPIO_P1_05]

def begin (g : Gpio) : Gpio := g.selectPins pins BCM2835_GPIO_FSEL_ALT0

def endTransmission (g : Gpio) : Gpio := g.selectPins pins BCM2835_GPIO_FSEL_INPT

end WirePi

namespace SPIPi

/-- `CE1`, `CE0`, `MISO`, `MOSI` and `CLK` -/
def pins : List Nat := [7, 8, 9, 10, 11]

def begin (g : Gpio) : Gpio := g.selectPins pins BCM2835_GPIO_FSEL_ALT0

def end' (g : Gpio) : Gpio := g.selectPins pins BCM2835_GPIO_FSEL_INPT

end SPIPi

inductive Bus where
  | wire
  | spi
  deriving DecidableEq, Repr

namespace Bus

def pins : Bus → List Nat
  | .wire => WirePi.pins
  | .spi => SPIPi.pins

def begin : Bus → Gpio → Gpio
  | .wire => WirePi.begin
  | .spi => SPIPi.begin

def release : Bus → Gpio → Gpio
  | .wire => WirePi.endTransmission
  | .spi => SPIPi.end'

end Bus

/-- A call that selects the function of pins. -/
inductive SelectCall (REV : Nat) where
  | pinMode (pin : Pin REV) (mode : Pinmode)
  | begin (bus : Bus)
  | release (bus : Bus)
  deriving DecidableEq

def Gpio.call (g : Gpio) : SelectCall REV → Gpio
  | .pinMode pin mode => g.pinMode pin mode
  | .begin bus => bus.begin g
  | .release bus => bus.release g

/-! ## Between them -/

theorem functionOf_selectPins (g : Gpio) (pins : List Nat) (mode : BitVec 8) (q : Nat) :
    (g.selectPins pins mode).functionOf q =
      if q ∈ pins then mode.setWidth 3 else g.functionOf q := by
  induction pins using List.reverseRecOn with
  | nil => rfl
  | append_singleton pins pin ih =>
    rw [Gpio.selectPins, List.foldl_append, List.foldl_cons, List.foldl_nil, ← Gpio.selectPins,
      functionOf_fsel, ih]
    by_cases hlast : q = pin <;> simp [hlast]

theorem functionOf_begin (g : Gpio) (bus : Bus) (q : Nat) :
    (bus.begin g).functionOf q = if q ∈ bus.pins then 4 else g.functionOf q := by
  cases bus <;> exact functionOf_selectPins g _ BCM2835_GPIO_FSEL_ALT0 q

theorem functionOf_release (g : Gpio) (bus : Bus) (q : Nat) :
    (bus.release g).functionOf q = if q ∈ bus.pins then 0 else g.functionOf q := by
  cases bus <;> exact functionOf_selectPins g _ BCM2835_GPIO_FSEL_INPT q

/-- The buses share no pin. -/
theorem Bus.not_mem_pins {bus other : Bus} {q : Nat} (hq : q ∈ bus.pins) (hne : other ≠ bus) :
    q ∉ other.pins := by
  cases bus <;> cases other <;>
    simp_all [Bus.pins, WirePi.pins, WirePi.RPI_V2_GPIO_P1_03, WirePi.RPI_V2_GPIO_P1_05,
      SPIPi.pins] <;> omega

/-- The call takes the pin `q` from the bus. -/
def SelectCall.Takes (bus : Bus) (q : Nat) : SelectCall REV → Prop
  | .pinMode pin _ => pin.gpio = q
  | .begin _ => False
  | .release other => other = bus

/-- `pinMode` takes a pin for pin 21 at most, and that is on no bus. -/
theorem functionOf_pinMode_bus (g : Gpio) {bus : Bus} {q : Nat} (hq : q ∈ bus.pins)
    (pin : Pin REV) (mode : Pinmode) :
    (g.pinMode pin mode).functionOf q = if pin.gpio = q then mode.code else g.functionOf q := by
  have hbus : q ≠ 21 ∧ q ≠ 27 := by
    cases bus <;>
      simp [Bus.pins, WirePi.pins, WirePi.RPI_V2_GPIO_P1_03, WirePi.RPI_V2_GPIO_P1_05,
        SPIPi.pins] at hq <;> omega
  rw [functionOf_pinMode, Pinmode.touched]
  split
  · next hslip =>
    have hpin : pin.gpio ≠ q := fun heq => hbus.2 (heq.symm.trans hslip.2)
    rw [if_neg hbus.1, if_neg hpin]
  · simp only [eq_comm]

/-- One call: it takes the pin, and the pin has not the function of the bus, or it leaves
the pin as it is. -/
theorem functionOf_call (g : Gpio) {bus : Bus} {q : Nat} (hq : q ∈ bus.pins)
    {call : SelectCall REV} (hbegin : call ≠ .begin bus) :
    (g.call call).functionOf q = 4 ↔ g.functionOf q = 4 ∧ ¬ call.Takes bus q := by
  cases call with
  | pinMode pin mode =>
    rw [Gpio.call, functionOf_pinMode_bus g hq, SelectCall.Takes]
    by_cases hpin : pin.gpio = q
    · cases mode <;> simp [hpin, Pinmode.code]
    · simp [hpin]
  | begin other =>
    have hother : q ∉ other.pins := Bus.not_mem_pins hq fun heq => hbegin (by rw [heq])
    rw [Gpio.call, functionOf_begin, if_neg hother, SelectCall.Takes]
    simp
  | release other =>
    rw [Gpio.call, functionOf_release, SelectCall.Takes]
    by_cases hsame : other = bus
    · subst hsame
      simp [hq]
    · simp [Bus.not_mem_pins hq hsame, hsame]

def callAll (g : Gpio) (calls : List (SelectCall REV)) : Gpio := calls.foldl Gpio.call g

/-- Behind its `begin` a pin of a bus keeps the function of the bus exactly if no call
takes it. -/
theorem functionOf_callAll_iff {bus : Bus} {calls : List (SelectCall REV)}
    (hbegin : .begin bus ∉ calls) (g : Gpio) {q : Nat} (hq : q ∈ bus.pins) :
    (callAll (bus.begin g) calls).functionOf q = 4 ↔ ∀ call ∈ calls, ¬ call.Takes bus q := by
  induction calls using List.reverseRecOn with
  | nil =>
    rw [callAll, List.foldl_nil, functionOf_begin, if_pos hq]
    simp
  | append_singleton calls call ih =>
    have hearlier : .begin bus ∉ calls := fun hmem => hbegin (by simp [hmem])
    have hlast : call ≠ .begin bus := fun heq => hbegin (by simp [heq])
    rw [callAll, List.foldl_append, List.foldl_cons, List.foldl_nil, ← callAll,
      functionOf_call _ hq hlast, ih hearlier]
    simp [or_imp, forall_and]

theorem Pin.not_mem_wire (pin : Pin REV) : pin.gpio ∉ WirePi.pins := by
  have hnone : ∀ n ∈ gpioPins, n ∉ WirePi.pins := by decide
  exact hnone _ pin.mem_gpioPins

/-- **Behind `begin`, whatever calls follow in whatever order, a bus has its pins exactly if
it has not been released and, for SPI, no `pinMode` was on one of them.** So those of
I2C are lost by `endTransmission` only, and by every one. -/
theorem bus_selected_iff {bus : Bus} {calls : List (SelectCall REV)}
    (hbegin : .begin bus ∉ calls) (g : Gpio) :
    (∀ q ∈ bus.pins, (callAll (bus.begin g) calls).functionOf q = 4) ↔
      .release bus ∉ calls ∧
        (bus = .spi → ∀ pin mode, .pinMode pin mode ∈ calls → pin.gpio ∉ SPIPi.pins) := by
  have hpins : (∀ q ∈ bus.pins, (callAll (bus.begin g) calls).functionOf q = 4) ↔
      ∀ q ∈ bus.pins, ∀ call ∈ calls, ¬ call.Takes bus q :=
    forall₂_congr fun q hq => functionOf_callAll_iff hbegin g hq
  rw [hpins]
  constructor
  · intro h
    constructor
    · intro hrelease
      obtain ⟨q, hq⟩ : ∃ q, q ∈ bus.pins := by
        cases bus
        · exact ⟨2, by decide⟩
        · exact ⟨7, by decide⟩
      exact h q hq _ hrelease rfl
    · rintro rfl pin mode hcall hpin
      exact h _ hpin _ hcall rfl
  · rintro ⟨hrelease, hspi⟩ q hq call hcall htakes
    cases call with
    | pinMode pin mode =>
      obtain rfl : pin.gpio = q := htakes
      cases bus with
      | wire => exact pin.not_mem_wire hq
      | spi => exact hspi rfl pin mode hcall hq
    | begin other => exact htakes
    | release other =>
      obtain rfl : other = bus := htakes
      exact hrelease hcall

/-- A transmission beside SPI and an output, and then a second one without `begin`. -/
def secondTransmission : List (SelectCall 2) :=
  [.begin .spi, .pinMode ⟨2, 18, rfl⟩ .OUTPUT, .release .wire]

theorem bus_selected_iff_secondTransmission :
    (∀ q ∈ Bus.wire.pins,
        (callAll (Bus.wire.begin outputs) (secondTransmission.take 2)).functionOf q = 4) ∧
      ¬ ∀ q ∈ Bus.wire.pins,
        (callAll (Bus.wire.begin outputs) secondTransmission).functionOf q = 4 := by
  constructor
  · refine (bus_selected_iff (by decide) outputs).mpr ⟨by decide, fun hspi => ?_⟩
    cases hspi
  · intro h
    exact ((bus_selected_iff (by decide) outputs).mp h).1 (by decide)

end CarPi.ArduPi
