/-
CarPi.ArduPi.GpioTheorems — what `pinMode` makes of the function select.

`pinMode` is written out case by case, `bcm2835_gpio_fsel` computes the word and the
shift. They agree but for one case: as an input, pin 27 is taken for pin 21
(`pinMode_eq_fsel_iff`). So a run of calls gives every pin the function last
asked for, and leaves the others alone, exactly if it does not ask for that
(`pinMode_run_iff`).
-/
import CarPi.ArduPi.Gpio

namespace CarPi.ArduPi

open CarPi.Foundation

variable {REV : Nat}

/-! ## Pins that have a case -/

theorem mem_gpioPins {arduinoPin n : Nat} (h : raspberryPinNumber REV arduinoPin = some n) :
    n ∈ gpioPins := by
  unfold raspberryPinNumber at h
  split at h <;> (try split at h) <;> cases h <;> decide

theorem Pin.mem_gpioPins (pin : Pin REV) : pin.gpio ∈ gpioPins := ArduPi.mem_gpioPins pin.known

/-- Where the chip has a pin 27 for the Arduino, it has no pin 21 for it. -/
theorem Pin.gpio_ne_21 {pin : Pin REV} (hpin : pin.gpio = 27) (other : Pin REV) :
    other.gpio ≠ 21 := by
  have hrev : REV ≠ 1 := by
    rintro rfl
    have hknown := pin.known
    rw [hpin] at hknown
    unfold raspberryPinNumber at hknown
    split at hknown <;> simp at hknown
  intro hother
  have hknown := other.known
  rw [hother] at hknown
  unfold raspberryPinNumber at hknown
  split at hknown <;> simp [hrev] at hknown

theorem outputCase_eq : ∀ pin ∈ gpioPins, outputCase pin = some (pin / 10, pin % 10 * 3) := by
  decide

theorem inputCase_eq : ∀ pin ∈ gpioPins,
    inputCase pin = some ((if pin = 27 then 21 else pin) / 10,
      (if pin = 27 then 21 else pin) % 10 * 3) := by
  decide

/-! ## One call -/

/-- The function that a mode asks for. -/
def Pinmode.code : Pinmode → BitVec 3
  | .INPUT => 0
  | .OUTPUT => 1

/-- The pin whose function a call changes. -/
def Pinmode.touched (mode : Pinmode) (pin : Nat) : Nat :=
  if mode = .INPUT ∧ pin = 27 then 21 else pin

theorem shiftMask_eq (pin : Nat) : 7#32 <<< (pin % 10 * 3) = fieldMask 32 3 (pin % 10) := by
  rw [fieldMask, Nat.mul_comm]
  rfl

/-- Only the three low bits of the mode count. -/
theorem fsel_eq (g : Gpio) (pin : Nat) (mode : BitVec 8) :
    g.bcm2835_gpio_fsel pin mode =
      { g with gpfsel := setFieldAt 10 g.gpfsel pin (mode.setWidth 3) } := by
  have hword : setBits (g.gpfsel (pin / 10)) (mode.setWidth 32 <<< (pin % 10 * 3))
      (7#32 <<< (pin % 10 * 3)) = setField (g.gpfsel (pin / 10)) (pin % 10) (mode.setWidth 3) := by
    apply BitVec.eq_of_getLsbD_eq
    intro j hj
    rw [setField, getLsbD_setBits, getLsbD_setBits, shiftMask_eq, getLsbD_fieldMask]
    split
    · next hmask =>
      simp only [decide_eq_true_eq] at hmask
      have hlow : j - 3 * (pin % 10) < 3 := by omega
      rw [Nat.mul_comm (pin % 10) 3]
      simp [BitVec.getLsbD_shiftLeft, BitVec.getLsbD_setWidth, hlow]
    · rfl
  simp only [Gpio.bcm2835_gpio_fsel, Gpio.writeSelect, setFieldAt, hword]

theorem pinMode_eq (g : Gpio) (pin : Pin REV) (mode : Pinmode) :
    g.pinMode pin mode =
      { g with gpfsel := setFieldAt 10 g.gpfsel (mode.touched pin.gpio) mode.code } := by
  cases mode with
  | OUTPUT =>
    have hfsel := fsel_eq g pin.gpio 1
    have hset : 1#32 <<< (pin.gpio % 10 * 3) &&& 7#32 <<< (pin.gpio % 10 * 3) =
        1#32 <<< (pin.gpio % 10 * 3) := by
      rw [← BitVec.shiftLeft_and_distrib]
      rfl
    simp only [Gpio.pinMode, outputCase_eq _ pin.mem_gpioPins]
    simpa [Gpio.bcm2835_gpio_fsel, setBits, hset, Pinmode.touched, Pinmode.code] using hfsel
  | INPUT =>
    have hfsel := fsel_eq g (if pin.gpio = 27 then 21 else pin.gpio) 0
    simp only [Gpio.pinMode, inputCase_eq _ pin.mem_gpioPins]
    simpa [Gpio.bcm2835_gpio_fsel, setBits, Pinmode.touched, Pinmode.code] using hfsel

theorem functionOf_fsel (g : Gpio) (pin q : Nat) (mode : BitVec 8) :
    (g.bcm2835_gpio_fsel pin mode).functionOf q =
      if q = pin then mode.setWidth 3 else g.functionOf q := by
  rw [fsel_eq]
  exact fieldAt_setFieldAt (by decide) (by decide) g.gpfsel pin q (mode.setWidth 3)

theorem functionOf_pinMode (g : Gpio) (pin : Pin REV) (mode : Pinmode) (q : Nat) :
    (g.pinMode pin mode).functionOf q =
      if q = mode.touched pin.gpio then mode.code else g.functionOf q := by
  rw [pinMode_eq]
  exact fieldAt_setFieldAt (by decide) (by decide) g.gpfsel (mode.touched pin.gpio) q mode.code

/-- Registers in which pin 21 is an output. -/
def outputs : Gpio := { gpfsel := fun _ => 8, gplev0 := 0 }

theorem functionOf_outputs : outputs.functionOf 21 = 1 := by decide

/-- **The cases of `pinMode` are what `bcm2835_gpio_fsel` computes, but for pin 27 as an
input**: that one selects the function of pin 21. -/
theorem pinMode_eq_fsel_iff (pin : Pin REV) (mode : Pinmode) :
    (∀ g : Gpio, g.pinMode pin mode = g.bcm2835_gpio_fsel pin.gpio (mode.code.setWidth 8)) ↔
      ¬ (mode = .INPUT ∧ pin.gpio = 27) := by
  constructor
  · rintro h ⟨rfl, hpin⟩
    have hfunction := congrArg (Gpio.functionOf · 21) (h outputs)
    simp only [functionOf_pinMode, functionOf_fsel, functionOf_outputs, hpin] at hfunction
    revert hfunction
    decide
  · intro hnot g
    rw [pinMode_eq, fsel_eq, Pinmode.touched, if_neg hnot]
    cases mode <;> rfl

/-! ## Runs of calls -/

def pinModes (g : Gpio) (calls : List (Pin REV × Pinmode)) : Gpio :=
  calls.foldl (fun g call => g.pinMode call.1 call.2) g

/-- Behind any run of calls. -/
theorem functionOf_pinModes (calls : List (Pin REV × Pinmode)) (g : Gpio) (q : Nat) :
    (pinModes g calls).functionOf q =
      (lastFor q (calls.map fun call => (call.2.touched call.1.gpio, call.2.code))).getD
        (g.functionOf q) := by
  have hselect : ∀ g : Gpio, (pinModes g calls).gpfsel =
      (calls.map fun call => (call.2.touched call.1.gpio, call.2.code)).foldl
        (fun ws update => setFieldAt 10 ws update.1 update.2) g.gpfsel := by
    induction calls with
    | nil => intro g; rfl
    | cons call calls ih =>
      intro g
      rw [List.map_cons, List.foldl_cons, pinModes, List.foldl_cons, ← pinModes, ih, pinMode_eq]
  rw [Gpio.functionOf, hselect, fieldAt_foldl (by decide) (by decide)]
  rfl

/-- What a run of calls asks for. -/
def asked (calls : List (Pin REV × Pinmode)) : List (Nat × BitVec 3) :=
  calls.map fun call => (call.1.gpio, call.2.code)

/-- **A run of `pinMode` gives every pin the function last asked for it, and leaves the
others alone, exactly if it never asks for pin 27 as an input.** -/
theorem pinMode_run_iff (calls : List (Pin REV × Pinmode)) :
    (∀ (g : Gpio) (q : Nat),
        (pinModes g calls).functionOf q = (lastFor q (asked calls)).getD (g.functionOf q)) ↔
      ∀ call ∈ calls, ¬ (call.2 = .INPUT ∧ call.1.gpio = 27) := by
  constructor
  · rintro h ⟨pin, mode⟩ hcall ⟨rfl, hpin⟩
    change pin.gpio = 27 at hpin
    -- no call asks for pin 21, but this one has changed it
    have hasked : lastFor 21 (asked calls) = none := by
      refine lastFor_eq_none_iff.mpr ?_
      intro update hupdate
      obtain ⟨other, -, rfl⟩ := List.mem_map.mp hupdate
      exact Pin.gpio_ne_21 hpin other.1
    have hfunction := h outputs 21
    rw [hasked, Option.getD_none, functionOf_outputs, functionOf_pinModes] at hfunction
    cases hlast : lastFor 21
        (calls.map fun call => (call.2.touched call.1.gpio, call.2.code)) with
    | none =>
      refine lastFor_eq_none_iff.mp hlast _ (List.mem_map.mpr ⟨_, hcall, rfl⟩) ?_
      simp [Pinmode.touched, hpin]
    | some code =>
      rw [hlast, Option.getD_some] at hfunction
      obtain ⟨⟨other, mode⟩, -, heq⟩ := List.mem_map.mp (mem_of_lastFor hlast)
      obtain ⟨htouched, hcode⟩ := Prod.mk.inj heq
      have hinput : mode = .INPUT := by
        by_contra hne
        rw [Pinmode.touched, if_neg fun hand => hne hand.1] at htouched
        exact Pin.gpio_ne_21 hpin other htouched
      rw [← hcode, hinput] at hfunction
      cases hfunction
  · intro hnot g q
    have hsame : (calls.map fun call => (call.2.touched call.1.gpio, call.2.code)) =
        asked calls := by
      refine List.map_congr_left ?_
      intro call hcall
      rw [Pinmode.touched, if_neg (hnot call hcall)]
    rw [functionOf_pinModes, hsame]

end CarPi.ArduPi
