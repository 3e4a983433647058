/-
CarPi.ArduPi.SpiSettings — the settings of `SPIPi`, kept in the control register `CS`
beside the status of the controller: what a run of calls leaves of them.

`bcm2835_peri_set_bits` reads the word, changes the bits of a mask and writes all of it. What it reads
of the status is up to the controller, at every call anew; the bits that `CLEAR`
sets are no settings and are read as the controller has them.

`SpiSettings` is what a program asks for, and `settingsOf` reads it off the word. That a
run of calls on the word does to its settings what the calls say is
`settings_run`.

Not modelled: the clock divider, which has a register to itself.
-/
import CarPi.ArduPi.Gpio

namespace CarPi.ArduPi

open CarPi.Foundation

/-! ## The register -/

def BCM2835_SPI0_CS_CS : Word := 0x00000003

def BCM2835_SPI0_CS_CPHA : Word := 0x00000004

def BCM2835_SPI0_CS_CPOL : Word := 0x00000008

def BCM2835_SPI0_CS_CLEAR : Word := 0x00000030

def BCM2835_SPI0_CS_TA : Word := 0x00000080

/-- `RXF`, `RXR`, `TXD`, `RXD`, `DONE` and `CLEAR`. -/
def controllerBits : Word := 0x001f0030

/-- What is read of a register that `cs` was written to. -/
def bcm2835_peri_read (cs status : Word) : Word := setBits cs status controllerBits

def bcm2835_peri_set_bits (cs status value mask : Word) : Word :=
  setBits (bcm2835_peri_read cs status) value mask

inductive SpiCall where
  | begin
  | setDataMode (mode : BitVec 8) (status : Word)
  | chipSelect (cs : BitVec 8) (status : Word)
  | setChipSelectPolarity (cs active : BitVec 8) (status : Word)
  /-- `transfer` and `transfernb` -/
  | transfer (clear start stop : Word)
  deriving DecidableEq

/-- What is written to the register; `begin` writes zero before it. -/
def spiCall (word : Word) : SpiCall → Word
  | .begin => BCM2835_SPI0_CS_CLEAR
  | .setDataMode mode status =>
    bcm2835_peri_set_bits word status (mode.setWidth 32 <<< 2)
      (BCM2835_SPI0_CS_CPOL ||| BCM2835_SPI0_CS_CPHA)
  | .chipSelect cs status =>
    bcm2835_peri_set_bits word status (cs.setWidth 32) BCM2835_SPI0_CS_CS
  | .setChipSelectPolarity cs active status =>
    let shift := (21 + cs).toNat
    bcm2835_peri_set_bits word status (active.setWidth 32 <<< shift) (1#32 <<< shift)
  | .transfer clear start stop =>
    let word := bcm2835_peri_set_bits word clear BCM2835_SPI0_CS_CLEAR BCM2835_SPI0_CS_CLEAR
    let word := bcm2835_peri_set_bits word start BCM2835_SPI0_CS_TA BCM2835_SPI0_CS_TA
    bcm2835_peri_set_bits word stop 0 BCM2835_SPI0_CS_TA

/-- The shift of `setChipSelectPolarity` is less than the width of the word, without going
round at the width of a `uint8_t`. -/
def SpiCall.Fits : SpiCall → Prop
  | .setChipSelectPolarity cs _ _ => 21 + cs.toNat < 32
  | _ => True

instance : (call : SpiCall) → Decidable call.Fits
  | .setChipSelectPolarity cs _ _ => inferInstanceAs (Decidable (21 + cs.toNat < 32))
  | .begin | .setDataMode _ _ | .chipSelect _ _ | .transfer _ _ _ =>
    inferInstanceAs (Decidable True)

/-! ## The settings -/

@[ext]
structure SpiSettings where
  /-- `CPOL` and `CPHA` -/
  mode : BitVec 2
  select : BitVec 2
  /-- `CSPOL0`, `CSPOL1` and `CSPOL2` -/
  polarity : Fin 3 → Bool
  transferring : Bool

def SpiSettings.call (s : SpiSettings) : SpiCall → SpiSettings
  | .begin => { mode := 0, select := 0, polarity := fun _ => false, transferring := false }
  | .setDataMode mode _ => { s with mode := mode.setWidth 2 }
  | .chipSelect cs _ => { s with select := cs.setWidth 2 }
  | .setChipSelectPolarity cs active _ =>
    { s with polarity := fun line =>
        if cs.toNat = line then active.getLsbD 0 else s.polarity line }
  | .transfer _ _ _ => { s with transferring := false }

def settingsOf (word : Word) : SpiSettings where
  mode := field 2 word 1
  select := field 2 word 0
  polarity := fun line => word.getLsbD (21 + line)
  transferring := word.getLsbD 7

/-! ## What a run of calls leaves -/

/-- A bit that is a setting is the one written, or what it was. -/
theorem getLsbD_set_bits {j : Nat} (hsetting : controllerBits.getLsbD j = false)
    (word status value mask : Word) :
    (bcm2835_peri_set_bits word status value mask).getLsbD j =
      if mask.getLsbD j then value.getLsbD j else word.getLsbD j := by
  rw [bcm2835_peri_set_bits, getLsbD_setBits, bcm2835_peri_read, getLsbD_setBits, hsetting]
  rfl

/-- The same for a field of two bits. -/
theorem field_set_bits {i : Nat} (hsetting : field 2 controllerBits i = 0)
    (word status value mask : Word) :
    field 2 (bcm2835_peri_set_bits word status value mask) i =
      setBits (field 2 word i) (field 2 value i) (field 2 mask i) := by
  rw [bcm2835_peri_set_bits, field_setBits, bcm2835_peri_read, field_setBits, hsetting,
    setBits_zero]

/-- The masked update of a word, on its settings. -/
def SpiSettings.masked (s value mask : SpiSettings) : SpiSettings where
  mode := setBits s.mode value.mode mask.mode
  select := setBits s.select value.select mask.select
  polarity := fun line => if mask.polarity line then value.polarity line else s.polarity line
  transferring := if mask.transferring then value.transferring else s.transferring

/-- No bit of the controller is one of a setting. -/
theorem settingsOf_set_bits (word status value mask : Word) :
    settingsOf (bcm2835_peri_set_bits word status value mask) =
      (settingsOf word).masked (settingsOf value) (settingsOf mask) := by
  have hpolarity : ∀ line : Fin 3, controllerBits.getLsbD (21 + line) = false := by decide
  simp only [settingsOf, SpiSettings.masked, field_set_bits (i := 1) (by decide),
    field_set_bits (i := 0) (by decide), getLsbD_set_bits (hpolarity _),
    getLsbD_set_bits (j := 7) (by decide)]
  rfl

theorem settingsOf_setDataMode (word status : Word) (mode : BitVec 8) :
    settingsOf (spiCall word (.setDataMode mode status)) =
      (settingsOf word).call (.setDataMode mode status) := by
  have hvalue : field 2 (mode.setWidth 32 <<< 2) 1 = mode.setWidth 2 := by
    apply BitVec.eq_of_getLsbD_eq
    intro j hj
    have hlt : 2 + j < 32 := by omega
    have hlow : ¬ 2 + j < 2 := by omega
    rw [getLsbD_field, BitVec.getLsbD_shiftLeft]
    simp [hj, hlt, hlow]
    omega
  have hmask : settingsOf (BCM2835_SPI0_CS_CPOL ||| BCM2835_SPI0_CS_CPHA) =
      ⟨BitVec.allOnes 2, 0, fun _ => false, false⟩ :=
    SpiSettings.ext (by decide) (by decide) (funext (by decide)) (by decide)
  rw [spiCall, settingsOf_set_bits, hmask]
  exact SpiSettings.ext ((setBits_allOnes _ _).trans hvalue) (setBits_zero _ _) rfl rfl

theorem settingsOf_chipSelect (word status : Word) (cs : BitVec 8) :
    settingsOf (spiCall word (.chipSelect cs status)) =
      (settingsOf word).call (.chipSelect cs status) := by
  have hvalue : field 2 (cs.setWidth 32) 0 = cs.setWidth 2 := by
    apply BitVec.eq_of_getLsbD_eq
    intro j hj
    have hlt : j < 32 := by omega
    rw [getLsbD_field, BitVec.getLsbD_setWidth]
    simp [hj, hlt]
  have hmask : settingsOf BCM2835_SPI0_CS_CS = ⟨0, BitVec.allOnes 2, fun _ => false, false⟩ :=
    SpiSettings.ext (by decide) (by decide) (funext (by decide)) (by decide)
  rw [spiCall, settingsOf_set_bits, hmask]
  exact SpiSettings.ext (setBits_zero _ _) ((setBits_allOnes _ _).trans hvalue) rfl rfl

/-- The bit of a line is not one of another, nor of another setting. -/
theorem settingsOf_setChipSelectPolarity (word status : Word) (cs active : BitVec 8)
    (hfits : 21 + cs.toNat < 32) :
    settingsOf (spiCall word (.setChipSelectPolarity cs active status)) =
      (settingsOf word).call (.setChipSelectPolarity cs active status) := by
  have hshift : (21 + cs).toNat = 21 + cs.toNat := by
    rw [BitVec.toNat_add]
    exact Nat.mod_eq_of_lt (by simp; omega)
  have hbit : ∀ j < 32, (1#32 <<< (21 + cs.toNat)).getLsbD j = decide (j = 21 + cs.toNat) := by
    intro j hj
    rw [BitVec.getLsbD_shiftLeft, BitVec.getLsbD_one, Bool.eq_iff_iff]
    simp
    omega
  have hlow : ∀ i < 2, field 2 (1#32 <<< (21 + cs.toNat)) i = 0 := by
    intro i hi
    apply BitVec.eq_of_getLsbD_eq
    intro j hj
    rw [getLsbD_field, hbit _ (by omega)]
    simp
    omega
  have hmask : settingsOf (1#32 <<< (21 + cs.toNat)) =
      ⟨0, 0, fun line => decide (cs.toNat = line), false⟩ := by
    refine SpiSettings.ext (hlow 1 (by omega)) (hlow 0 (by omega)) (funext fun line => ?_) ?_
    · have hline : 21 + (line : Nat) = 21 + cs.toNat ↔ cs.toNat = line := by omega
      simp only [settingsOf, hbit _ (show 21 + (line : Nat) < 32 by omega), hline]
    · simp only [settingsOf, hbit 7 (by omega), decide_eq_false_iff_not]
      omega
  have hvalue : (active.setWidth 32 <<< (21 + cs.toNat)).getLsbD (21 + cs.toNat) =
      active.getLsbD 0 := by
    rw [BitVec.getLsbD_shiftLeft, BitVec.getLsbD_setWidth]
    simp [hfits]
  simp only [spiCall, hshift]
  rw [settingsOf_set_bits, hmask]
  refine SpiSettings.ext (setBits_zero _ _) (setBits_zero _ _) (funext fun line => ?_) rfl
  change (if decide (cs.toNat = line) = true
      then (active.setWidth 32 <<< (21 + cs.toNat)).getLsbD (21 + line)
      else word.getLsbD (21 + line)) =
    if cs.toNat = line then active.getLsbD 0 else word.getLsbD (21 + line)
  by_cases hline : cs.toNat = line
  · rw [if_pos (decide_eq_true hline), if_pos hline, ← hline, hvalue]
  · rw [if_neg (by simp [hline]), if_neg hline]

theorem settingsOf_CLEAR :
    settingsOf BCM2835_SPI0_CS_CLEAR = ⟨0, 0, fun _ => false, false⟩ :=
  SpiSettings.ext (by decide) (by decide) (funext (by decide)) (by decide)

theorem settingsOf_TA : settingsOf BCM2835_SPI0_CS_TA = ⟨0, 0, fun _ => false, true⟩ :=
  SpiSettings.ext (by decide) (by decide) (funext (by decide)) (by decide)

theorem SpiSettings.masked_none (s value : SpiSettings) :
    s.masked value ⟨0, 0, fun _ => false, false⟩ = s :=
  SpiSettings.ext (setBits_zero _ _) (setBits_zero _ _) rfl rfl

theorem SpiSettings.masked_transferring (s value : SpiSettings) :
    s.masked value ⟨0, 0, fun _ => false, true⟩ = { s with transferring := value.transferring } :=
  SpiSettings.ext (setBits_zero _ _) (setBits_zero _ _) rfl rfl

/-- A transfer changes no setting, and is over behind it. -/
theorem settingsOf_transfer (word clear start stop : Word) :
    settingsOf (spiCall word (.transfer clear start stop)) =
      (settingsOf word).call (.transfer clear start stop) := by
  rw [spiCall, settingsOf_set_bits, settingsOf_set_bits, settingsOf_set_bits, settingsOf_CLEAR,
    settingsOf_TA, SpiSettings.masked_none, SpiSettings.masked_transferring,
    SpiSettings.masked_transferring]
  rfl

/-- **A run of calls does to the settings what the calls say**, whatever the
controller shows of its status meanwhile. -/
theorem settings_run (calls : List SpiCall) (word : Word) (hfits : ∀ call ∈ calls, call.Fits) :
    settingsOf (calls.foldl spiCall word) = calls.foldl SpiSettings.call (settingsOf word) := by
  induction calls generalizing word with
  | nil => rfl
  | cons call calls ih =>
    have hstep : settingsOf (spiCall word call) = (settingsOf word).call call := by
      cases call with
      | begin => exact settingsOf_CLEAR
      | setDataMode mode status => exact settingsOf_setDataMode word status mode
      | chipSelect cs status => exact settingsOf_chipSelect word status cs
      | setChipSelectPolarity cs active status =>
        exact settingsOf_setChipSelectPolarity word status cs active (hfits _ List.mem_cons_self)
      | transfer clear start stop => exact settingsOf_transfer word clear start stop
    rw [List.foldl_cons, List.foldl_cons, ← hstep]
    exact ih _ fun other hother => hfits other (List.mem_cons_of_mem _ hother)

/-- `SPI_MODE3` on `SPI_CS1` and a transfer, with every status bit read as set or as clear. -/
def configured : List SpiCall :=
  [.begin, .setDataMode 3 (BitVec.allOnes 32), .chipSelect 1 0,
    .setChipSelectPolarity 1 1 (BitVec.allOnes 32), .transfer (BitVec.allOnes 32) 0 0]

theorem settings_run_configured :
    settingsOf (configured.foldl spiCall 0) = configured.foldl SpiSettings.call (settingsOf 0) ∧
      (configured.foldl SpiSettings.call (settingsOf 0)).mode = 3 :=
  ⟨settings_run configured 0 (by decide), by decide⟩

end CarPi.ArduPi
