/-
CarPi.Obd2.OpenPort — `libObd2::openPort`, and the line speed it sets.

The function opens the device, reads its settings, changes them, and writes
them back. For a pseudo terminal it leaves the speed alone. It asks for one
with `strspn("/dev/pts", portName) >= 8`, which is not a test for a prefix:
the arguments are the wrong way round, as in the NO DATA test, and the
question is whether all LETTERS of "/dev/pts" occur in the name. Every device
under "/dev/serial/by-path" passes.

What `open` and `tcgetattr` find is the input of a call. A speed that is not
set is `none`: the one `tcgetattr` found stays. The flags are the constants of
`<termios.h>` on Linux.
-/
import CarPi.Foundation.CString

namespace CarPi.Obd2

open CarPi.Foundation

/-! ## Settings -/

inductive Speed where
  | B4800
  | B9600
  | B19200
  | B38400
  | B115200
  deriving DecidableEq, Repr

/-- The part of `struct termios` the function works on. -/
structure Termios where
  c_cflag : UInt32
  c_lflag : UInt32
  c_oflag : UInt32
  vmin : UInt8
  vtime : UInt8
  deriving DecidableEq, Repr

/-- What is written back: `newtio`, and the speeds set in it. -/
structure Settings extends Termios where
  ispeed : Option Speed
  ospeed : Option Speed
  deriving DecidableEq, Repr

def CLOCAL : UInt32 := 0o4000
def CREAD : UInt32 := 0o200
def ICANON : UInt32 := 0o2
def ECHO : UInt32 := 0o10
def ECHOE : UInt32 := 0o20
def ISIG : UInt32 := 0o1
def OPOST : UInt32 := 0o1

/-- `!x` of C, which is not `~x`. -/
def lnot (x : UInt32) : UInt32 := if x = 0 then 1 else 0

/-- The speed chosen for `baudrate`. -/
def speedFor (baudrate : Int) : Speed :=
  if baudrate = 38400 then .B38400
  else if baudrate = 115200 then .B115200
  else if baudrate = 19200 then .B19200
  else if baudrate = 9600 then .B9600
  else if baudrate = 4800 then .B4800
  else .B38400

/-! ## The function -/

def devPts : List UInt8 := bytes ['/', 'd', 'e', 'v', '/', 'p', 't', 's']

/-- What a call leaves behind: its result, the handle, and the settings written
to the device, if it was opened. -/
structure Opening where
  result : Int
  portHandle : Int
  settings : Option Settings
  deriving DecidableEq, Repr

/-- `portHandle` is what `open` returns, `oldtio` what `tcgetattr` finds. -/
def openPort (portName : List UInt8) (baudrate : Int) (portHandle : Int) (oldtio : Termios) :
    Opening :=
  if portHandle < 0 then ⟨-1, portHandle, none⟩
  else
    let BAUD := speedFor baudrate
    -- "PTS Detected... disabling baud rate selection"
    let baudrate := if 8 ≤ strspn devPts portName then -1 else baudrate
    let newtio : Termios :=
      { c_cflag := oldtio.c_cflag ||| (CLOCAL ||| CREAD)
        c_lflag := oldtio.c_lflag &&& lnot (ICANON ||| ECHO ||| ECHOE ||| ISIG)
        c_oflag := oldtio.c_oflag &&& lnot OPOST
        vmin := 0
        vtime := 100 }
    let speed := if baudrate ≠ -1 then some BAUD else none
    ⟨0, portHandle, some { toTermios := newtio, ispeed := speed, ospeed := speed }⟩

/-- `openPort(portName)` -/
def openPortDefault (portName : List UInt8) (portHandle : Int) (oldtio : Termios) : Opening :=
  openPort portName (-1) portHandle oldtio

/-! ## The speed -/

/-- The name holds every letter of "/dev/pts". -/
def HoldsDevPts (portName : List UInt8) : Prop := ∀ c ∈ devPts, c ∈ cstr portName

instance (portName : List UInt8) : Decidable (HoldsDevPts portName) :=
  inferInstanceAs (Decidable (∀ c ∈ devPts, c ∈ cstr portName))

/-- What the test asks for. -/
theorem le_strspn_devPts_iff (portName : List UInt8) :
    8 ≤ strspn devPts portName ↔ HoldsDevPts portName := by
  have hspan := strspn_eq_length_iff devPts portName
  have hle : strspn devPts portName ≤ 8 := strspn_le devPts portName
  have hlen : (cstr devPts).length = 8 := by decide
  have hcstr : cstr devPts = devPts := by decide
  rw [hlen, hcstr] at hspan
  rw [HoldsDevPts, ← hspan]
  omega

/-- A device that opens is set up with the speed chosen, unless the test or the
caller says otherwise. -/
theorem openPort_settings (portName : List UInt8) (baudrate : Int) {portHandle : Int}
    (hopen : 0 ≤ portHandle) (oldtio : Termios) :
    ∃ settings, (openPort portName baudrate portHandle oldtio).settings = some settings ∧
      settings.ispeed = settings.ospeed ∧
      settings.ospeed
        = if HoldsDevPts portName ∨ baudrate = -1 then none else some (speedFor baudrate) := by
  rw [openPort, if_neg (by omega)]
  refine ⟨_, rfl, rfl, ?_⟩
  simp only [le_strspn_devPts_iff]
  by_cases hholds : HoldsDevPts portName <;> by_cases hbaud : baudrate = -1 <;>
    simp [hholds, hbaud]

/-- `!` of the flags is zero, so all local and output modes are cleared, and not
only those named. -/
theorem openPort_modes (portName : List UInt8) (baudrate : Int) {portHandle : Int}
    (hopen : 0 ≤ portHandle) (oldtio : Termios) :
    ∃ settings, (openPort portName baudrate portHandle oldtio).settings = some settings ∧
      settings.c_lflag = 0 ∧ settings.c_oflag = 0 := by
  have hlocal : lnot (ICANON ||| ECHO ||| ECHOE ||| ISIG) = 0 := by decide
  have houtput : lnot OPOST = 0 := by decide
  rw [openPort, if_neg (by omega)]
  exact ⟨_, rfl, by simp [hlocal], by simp [houtput]⟩

/-- The speed is left alone for the names under "/dev/pts", and set to the one
chosen for `baudrate`, in both directions, for all others. -/
def SkipsOnlyPts (portName : List UInt8) (baudrate : Int) (settings : Settings) : Prop :=
  ((settings.ispeed = none ∧ settings.ospeed = none) ↔ devPts <+: cstr portName) ∧
    (¬ devPts <+: cstr portName →
      settings.ispeed = some (speedFor baudrate) ∧ settings.ospeed = some (speedFor baudrate))

/-- **The speed is left alone for pseudo terminals only, exactly when the name is
one or lacks a letter of "/dev/pts".** -/
theorem openPort_skips_iff (portName : List UInt8) (baudrate portHandle : Int)
    (oldtio : Termios) (hbaud : baudrate ≠ -1) (hopen : 0 ≤ portHandle) :
    (∃ settings, (openPort portName baudrate portHandle oldtio).settings = some settings ∧
        SkipsOnlyPts portName baudrate settings) ↔
      devPts <+: cstr portName ∨ ∃ c ∈ devPts, c ∉ cstr portName := by
  obtain ⟨settings, hsettings, hsame, hspeed⟩ :=
    openPort_settings portName baudrate hopen oldtio
  have hlacks : (∃ c ∈ devPts, c ∉ cstr portName) ↔ ¬ HoldsDevPts portName := by
    simp [HoldsDevPts]
  simp only [hsettings, Option.some.injEq, exists_eq_left', SkipsOnlyPts, hsame, hspeed, hlacks,
    hbaud, or_false]
  by_cases hpre : devPts <+: cstr portName
  · have hholds : HoldsDevPts portName := fun c hc => hpre.subset hc
    simp [hpre, hholds]
  · by_cases hholds : HoldsDevPts portName <;> simp [hpre, hholds]

/-- "/dev/ttyUSB0" lacks the "p". -/
theorem openPort_skips_ttyUSB0 :
    ∃ settings, (openPort (bytes ['/', 'd', 'e', 'v', '/', 't', 't', 'y', 'U', 'S', 'B', '0'])
        38400 3 ⟨0, 0, 0, 0, 0⟩).settings = some settings ∧
      SkipsOnlyPts (bytes ['/', 'd', 'e', 'v', '/', 't', 't', 'y', 'U', 'S', 'B', '0']) 38400
        settings :=
  (openPort_skips_iff _ 38400 3 ⟨0, 0, 0, 0, 0⟩ (by decide) (by decide)).mpr (by decide)

/-- A port under "/dev/serial/by-path" keeps the speed it had. -/
theorem byPath_taken_for_pts :
    ¬ ∀ (portName : List UInt8) (baudrate portHandle : Int) (oldtio : Termios),
        baudrate ≠ -1 → 0 ≤ portHandle →
        ∃ settings, (openPort portName baudrate portHandle oldtio).settings = some settings ∧
          SkipsOnlyPts portName baudrate settings := by
  intro h
  let portName := bytes ("/dev/serial/by-path/pci-0".toList)
  obtain ⟨settings, hsettings, hskips, _⟩ := h portName 38400 3 ⟨0, 0, 0, 0, 0⟩ (by decide)
    (by decide)
  have hspeeds : (openPort portName 38400 3 ⟨0, 0, 0, 0, 0⟩).settings.map
      (fun settings => (settings.ispeed, settings.ospeed)) = some (none, none) := by decide
  rw [hsettings, Option.map_some, Option.some.injEq, Prod.mk.injEq] at hspeeds
  exact absurd (hskips.mp hspeeds) (by decide)

end CarPi.Obd2
