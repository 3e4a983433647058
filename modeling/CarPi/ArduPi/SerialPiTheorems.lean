/-
CarPi.ArduPi.SerialPiTheorems — what `findUntil`, `readBytes` and
`readBytesUntil` do for every input and every clock.

* What `findUntil` finds is there (`findUntil_sound`), and it finds every occurrence
  exactly for the targets that `Resettable` describes (`findUntil_complete_iff`). While
  nothing else ends the call it is the matcher of `Foundation.Matcher` on the bytes
  received (`findLoop_undisturbed`).
* The terminator is compared with the byte an earlier `read` left, never with what
  comes in (`terminal_ignored_iff`).
* The deadline sees what the time elapsed has beyond whole seconds (`late_iff`), so a
  call can time out only if `timeOut` is below a second's worth of microseconds
  (`findUntil_timesOut_iff`).
* The count of `readBytes` counts looks (`readBytes_onTime`), and `readBytesUntil`
  compares a cell that nothing was read into (`readBytesUntil_received_iff`).
-/
import CarPi.ArduPi.SerialPi
import Mathlib.Data.List.GetD

namespace CarPi.ArduPi

open CarPi.Foundation

/-! ## The deadline -/

namespace Timespec

/-- As `clock_gettime` gives it. -/
def Normal (t : Timespec) : Prop := 0 ≤ t.tv_nsec ∧ t.tv_nsec < 1000000000

def nanos (t : Timespec) : Int := t.tv_sec * 1000000000 + t.tv_nsec

end Timespec

open Timespec

/-- The difference is normal again, and is the time between the two. -/
theorem timeDiff_spec {start end' : Timespec} (hstart : start.Normal) (hend : end'.Normal) :
    (timeDiff start end').Normal ∧ (timeDiff start end').nanos = end'.nanos - start.nanos := by
  obtain ⟨hs0, hs1⟩ := hstart
  obtain ⟨he0, he1⟩ := hend
  unfold timeDiff
  split
  · refine ⟨⟨?_, ?_⟩, ?_⟩ <;> simp only [nanos] <;> omega
  · refine ⟨⟨?_, ?_⟩, ?_⟩ <;> simp only [nanos] <;> omega

theorem timeDiff_tv_nsec {start end' : Timespec} (hstart : start.Normal) (hend : end'.Normal) :
    (timeDiff start end').tv_nsec = (end'.nanos - start.nanos) % 1000000000 := by
  obtain ⟨⟨h0, h1⟩, hnanos⟩ := timeDiff_spec hstart hend
  rw [← hnanos, nanos]
  omega

/-- **The deadline sees what is left of the time elapsed beyond whole seconds**, in
microseconds. -/
theorem late_iff {p : SerialPi} {time1 time2 : Timespec} (h1 : time1.Normal) (h2 : time2.Normal) :
    p.late time1 time2 = true ↔
      p.timeOut < (time2.nanos - time1.nanos) % 1000000000 / 1000 := by
  have hpos : 0 ≤ (timeDiff time1 time2).tv_nsec := (timeDiff_spec h1 h2).1.1
  rw [SerialPi.late, decide_eq_true_iff, Int.tdiv_eq_ediv_of_nonneg hpos, timeDiff_tv_nsec h1 h2]

theorem not_late_self {p : SerialPi} (htime : 0 ≤ p.timeOut) (time1 : Timespec) :
    p.late time1 time1 = false := by
  simpa [SerialPi.late, timeDiff] using htime

/-! ## What is found is there -/

variable {p : SerialPi} {time1 : Timespec}

@[simp] theorem received_nil : received [] = [] := rfl

theorem received_cons (turn : Turn) (turns : List Turn) :
    received (turn :: turns) = turn.byte.toList ++ received turns := by
  cases h : turn.byte <;> simp [received, h]

/-- Whatever the terminator, the member `c` and the clock, a match is one of the matcher
on the bytes received. -/
theorem resetScan_of_findLoop {target terminal : List UInt8} {turns rest : List Turn} :
    ∀ {index termIndex : Nat},
      p.findLoop time1 target terminal index termIndex turns = some (true, rest) →
      resetScan target index (received turns) = some (received rest) := by
  induction turns with
  | nil =>
    intro index termIndex h
    cases h
  | cons turn turns ih =>
    intro index termIndex h
    rw [SerialPi.findLoop] at h
    rw [received_cons]
    cases hbyte : turn.byte with
    | none =>
      simp only [hbyte] at h
      split at h
      · simp at h
      · exact ih h
    | some readed =>
      rw [Option.toList_some, List.singleton_append, resetScan]
      simp only [hbyte] at h
      split at h
      · next hfull =>
        obtain rfl : turns = rest := by simpa using h
        rw [if_pos hfull]
      · next hshort =>
        rw [if_neg hshort]
        split at h
        · simp at h
        · split at h
          · simp at h
          · exact ih h

/-- Behind a call that found its target the bytes read end with it. -/
theorem findUntil_sound {target terminal : List UInt8} {turns rest : List Turn}
    (hne : target ≠ []) (h : p.findUntil time1 target terminal turns = some (true, rest)) :
    ∃ read, received turns = read ++ received rest ∧ target <:+ read := by
  rw [SerialPi.findUntil, if_neg hne] at h
  have hstart : target.take 0 <:+ [] := by simp
  exact resetScan_sound (List.length_pos_of_ne_nil hne) hstart (resetScan_of_findLoop h)

/-! ## The terminator -/

/-- A terminator that something other than the member `c` stands in, or none. -/
def SerialPi.Ignores (p : SerialPi) (terminal : List UInt8) : Prop :=
  terminal = [] ∨ ∃ b ∈ terminal, b ≠ p.c

instance (p : SerialPi) (terminal : List UInt8) : Decidable (p.Ignores terminal) :=
  inferInstanceAs (Decidable (_ ∨ _))

/-- The index into the terminator counts bytes equal to `c`. -/
theorem termStep_cases {terminal : List UInt8} {termIndex : Nat}
    (hc : ∀ b ∈ terminal.take termIndex, b = p.c) :
    (p.termStep terminal termIndex = none ∧ terminal ≠ [] ∧ ∀ b ∈ terminal, b = p.c) ∨
      ∃ next, p.termStep terminal termIndex = some next ∧
        ∀ b ∈ terminal.take next, b = p.c := by
  rw [SerialPi.termStep]
  split
  · next hmatch =>
    simp only [Bool.and_eq_true, decide_eq_true_eq] at hmatch
    obtain ⟨hpos, hmatch⟩ := hmatch
    have hnext : ∀ b ∈ terminal.take (termIndex + 1), b = p.c := by
      rw [List.take_add_one, hmatch, Option.toList_some]
      simpa [or_imp, forall_and] using hc
    split
    · next hfull =>
      rw [List.take_of_length_le hfull] at hnext
      exact .inl ⟨rfl, List.ne_nil_of_length_pos hpos, hnext⟩
    · exact .inr ⟨_, rfl, hnext⟩
  · exact .inr ⟨0, rfl, by simp⟩

theorem termStep_nil (termIndex : Nat) : p.termStep [] termIndex = some 0 := by
  simp [SerialPi.termStep]

/-- A search whose terminator is never complete is one without it. `J` says so of the
index into the terminator and the looks to come. -/
theorem findLoop_of_incomplete {target terminal : List UInt8} {J : Nat → List Turn → Prop}
    (hidle : ∀ {termIndex turn turns}, J termIndex (turn :: turns) → turn.byte = none →
      J termIndex turns)
    (hbyte : ∀ {termIndex turn turns}, J termIndex (turn :: turns) → turn.byte ≠ none →
      ∃ next, p.termStep terminal termIndex = some next ∧ J next turns)
    {turns : List Turn} : ∀ (index termIndex other : Nat), J termIndex turns →
      p.findLoop time1 target terminal index termIndex turns =
        p.findLoop time1 target [] index other turns := by
  induction turns with
  | nil =>
    intro index termIndex other _
    rfl
  | cons turn turns ih =>
    intro index termIndex other hJ
    rw [SerialPi.findLoop, SerialPi.findLoop]
    cases hread : turn.byte with
    | none => simp only [ih index termIndex other (hidle hJ hread)]
    | some readed =>
      obtain ⟨next, hnext, hJnext⟩ := hbyte hJ (by simp [hread])
      simp only [hnext, termStep_nil, ih _ next 0 hJnext]

/-- **A terminator that is ignored is as good as none.** -/
theorem findUntil_of_ignores {terminal : List UInt8} (hignore : p.Ignores terminal)
    (target : List UInt8) (turns : List Turn) :
    p.findUntil time1 target terminal turns = p.findUntil time1 target [] turns := by
  unfold SerialPi.findUntil
  split
  · rfl
  · refine findLoop_of_incomplete (J := fun termIndex _ => ∀ b ∈ terminal.take termIndex, b = p.c)
      (fun hc _ => hc) ?_ 0 0 0 (by simp)
    intro termIndex turn turns hc _
    rcases termStep_cases hc with ⟨_, hne, hall⟩ | hnext
    · obtain ⟨b, hb, hdiff⟩ := hignore.resolve_left hne
      exact absurd (hall b hb) hdiff
    · exact hnext

/-- So is one that is longer than what comes in. -/
theorem findUntil_of_few {terminal : List UInt8} {turns : List Turn}
    (hfew : (received turns).length < terminal.length) (target : List UInt8) :
    p.findUntil time1 target terminal turns = p.findUntil time1 target [] turns := by
  unfold SerialPi.findUntil
  split
  · rfl
  · refine findLoop_of_incomplete
      (J := fun termIndex turns => termIndex + (received turns).length < terminal.length)
      ?_ ?_ 0 0 0 (by omega)
    · intro termIndex turn turns hlt hidle
      simpa [received_cons, hidle] using hlt
    · intro termIndex turn turns hlt hbyte
      obtain ⟨readed, hread⟩ := Option.ne_none_iff_exists'.mp hbyte
      simp only [received_cons, hread, Option.toList_some, List.length_append,
        List.length_singleton] at hlt
      rw [SerialPi.termStep]
      split
      · rw [if_neg (by omega)]
        exact ⟨_, rfl, by omega⟩
      · exact ⟨_, rfl, by omega⟩

/-- A terminator of `c` alone ends the call at the latest with the byte of its own
length, whatever the bytes are. -/
theorem findLoop_of_all {target terminal : List UInt8} (hall : ∀ b ∈ terminal, b = p.c)
    {turns : List Turn} : ∀ {index termIndex : Nat}, termIndex < terminal.length →
      terminal.length ≤ termIndex + (received turns).length →
      p.findLoop time1 target terminal index termIndex turns ≠ none := by
  induction turns with
  | nil =>
    intro index termIndex hlt hle
    rw [received_nil, List.length_nil] at hle
    omega
  | cons turn turns ih =>
    intro index termIndex hlt hle
    rw [SerialPi.findLoop]
    cases hbyte : turn.byte with
    | none =>
      simp only [received_cons, hbyte, Option.toList_none, List.nil_append] at hle
      simp only
      split
      · simp
      · exact ih hlt hle
    | some readed =>
      have hmatch : terminal[termIndex]? = some p.c := by
        rw [List.getElem?_eq_getElem hlt, hall _ (List.getElem_mem hlt)]
      have hpos : 0 < terminal.length := by omega
      simp only [received_cons, hbyte, Option.toList_some, List.length_append,
        List.length_singleton] at hle
      simp only [SerialPi.termStep, hmatch, hpos, decide_true, Bool.and_self, if_true]
      split
      · simp
      · split
        · simp
        · next heq =>
          split at heq
          · cases heq
          · obtain rfl := Option.some.inj heq
            split
            · simp
            · exact ih (by omega) (by omega)

/-! ## What is there is found -/

/-- The call ends for the target only: no look is late. -/
def SerialPi.OnTime (p : SerialPi) (time1 : Timespec) (turns : List Turn) : Prop :=
  ∀ turn ∈ turns, p.late time1 turn.time2 = false

/-- **A search that nothing else ends is the matcher on the bytes received.** -/
theorem findLoop_undisturbed (target : List UInt8) {turns : List Turn}
    (hontime : p.OnTime time1 turns) : ∀ (index termIndex : Nat),
      (p.findLoop time1 target [] index termIndex turns).map
          (fun result => (result.1, received result.2)) =
        (resetScan target index (received turns)).map fun rest => (true, rest) := by
  induction turns with
  | nil =>
    intro index termIndex
    rfl
  | cons turn turns ih =>
    intro index termIndex
    have hrest : p.OnTime time1 turns := fun t ht => hontime t (List.mem_cons_of_mem _ ht)
    have hturn : p.late time1 turn.time2 = false := hontime turn List.mem_cons_self
    rw [SerialPi.findLoop]
    cases hbyte : turn.byte with
    | none => simp [received_cons, hbyte, hturn, ih hrest index termIndex]
    | some readed =>
      rw [received_cons, hbyte, Option.toList_some, List.singleton_append, resetScan]
      simp only [termStep_nil, hturn]
      split
      · simp
      · simpa using ih hrest (resetStep target index readed) 0

theorem findUntil_isSome_iff {target : List UInt8} (hne : target ≠ []) {turns : List Turn}
    (hontime : p.OnTime time1 turns) :
    (∃ rest, p.findUntil time1 target [] turns = some (true, rest)) ↔
      (resetScan target 0 (received turns)).isSome = true := by
  have hmap := findLoop_undisturbed target hontime 0 0
  rw [SerialPi.findUntil, if_neg hne]
  constructor
  · rintro ⟨rest, h⟩
    rw [h] at hmap
    cases hscan : resetScan target 0 (received turns) with
    | none => simp [hscan] at hmap
    | some rest => rfl
  · intro hsome
    obtain ⟨bytes, hbytes⟩ := Option.isSome_iff_exists.mp hsome
    rw [hbytes] at hmap
    obtain ⟨⟨found, rest⟩, hloop, heq⟩ := Option.map_eq_some_iff.mp hmap
    obtain ⟨rfl, -⟩ := Prod.mk.inj heq
    exact ⟨rest, hloop⟩

theorem findUntil_eq_none_iff {target : List UInt8} (hne : target ≠ []) {turns : List Turn}
    (hontime : p.OnTime time1 turns) :
    p.findUntil time1 target [] turns = none ↔
      resetScan target 0 (received turns) = none := by
  have hmap := findLoop_undisturbed target hontime 0 0
  rw [SerialPi.findUntil, if_neg hne]
  constructor
  · intro h
    rwa [h, Option.map_none, eq_comm, Option.map_eq_none_iff] at hmap
  · intro h
    rwa [h, Option.map_none, Option.map_eq_none_iff] at hmap

/-- Looks that bring the bytes and take no time. -/
def prompt (time1 : Timespec) (bytes : List UInt8) : List Turn :=
  bytes.map fun b => ⟨some b, time1⟩

theorem received_prompt (bytes : List UInt8) : received (prompt time1 bytes) = bytes := by
  simp [received, prompt, List.filterMap_map]

theorem onTime_prompt (htime : 0 ≤ p.timeOut) (time1 : Timespec) (bytes : List UInt8) :
    p.OnTime time1 (prompt time1 bytes) := by
  intro turn hturn
  obtain ⟨b, -, rfl⟩ := List.mem_map.mp hturn
  exact not_late_self htime time1

/-- **`findUntil` finds what comes in exactly for the resettable targets.** Each of
the others is in some text that is searched in vain. -/
theorem findUntil_complete_iff {target terminal : List UInt8} (htime : 0 ≤ p.timeOut)
    (hne : target ≠ []) (hignore : p.Ignores terminal) :
    ((∀ turns, p.OnTime time1 turns →
        ((∃ rest, p.findUntil time1 target terminal turns = some (true, rest)) ↔
          target <:+: received turns)) ↔
      Resettable target) ∧
    (¬ Resettable target → ∃ turns, p.OnTime time1 turns ∧ target <:+: received turns ∧
      p.findUntil time1 target terminal turns = none) := by
  rw [← resetScan_complete_iff hne]
  constructor
  · constructor
    · intro h text hoccurs
      have hontime := onTime_prompt htime time1 text
      have hfound := (h _ hontime).mpr (by rwa [received_prompt])
      rwa [findUntil_of_ignores hignore, findUntil_isSome_iff hne hontime,
        received_prompt] at hfound
    · intro h turns hontime
      constructor
      · rintro ⟨rest, hfound⟩
        obtain ⟨read, hread, hends⟩ := findUntil_sound hne hfound
        rw [hread]
        exact hends.isInfix.trans (List.prefix_append _ _).isInfix
      · intro hoccurs
        rw [findUntil_of_ignores hignore]
        exact (findUntil_isSome_iff hne hontime).mpr (h _ hoccurs)
  · intro hnot
    obtain ⟨text, hmissed⟩ := not_forall.mp hnot
    obtain ⟨hoccurs, hnone⟩ := Classical.not_imp.mp hmissed
    have hontime := onTime_prompt htime time1 text
    refine ⟨prompt time1 text, hontime, by rwa [received_prompt], ?_⟩
    rw [findUntil_of_ignores hignore, findUntil_eq_none_iff hne hontime, received_prompt]
    exact Option.not_isSome_iff_eq_none.mp hnone

/-- "OK" is found; "aab" is not, behind "a". -/
theorem findUntil_complete_ok :
    (∃ rest, (⟨0, 1000⟩ : SerialPi).findUntil ⟨0, 0⟩ [79, 75] [] (prompt ⟨0, 0⟩ [13, 79, 75]) =
        some (true, rest)) ↔
      [79, 75] <:+: received (prompt ⟨0, 0⟩ [13, 79, 75]) :=
  (findUntil_complete_iff (by decide) (by decide) (.inl rfl)).1.mpr (by decide) _
    (onTime_prompt (by decide) ⟨0, 0⟩ _)

example : ¬ Resettable ([97, 97, 98] : List UInt8) := by decide

/-- **The terminator has no effect exactly if something other than `c` stands in it.**
What comes in plays no part. -/
theorem terminal_ignored_iff (htime : 0 ≤ p.timeOut) (terminal : List UInt8) :
    (∀ time1 target turns,
        p.findUntil time1 target terminal turns = p.findUntil time1 target [] turns) ↔
      p.Ignores terminal := by
  constructor
  · intro h
    by_contra hnot
    simp only [SerialPi.Ignores, not_or, not_exists, not_and, not_not] at hnot
    obtain ⟨hne, hall⟩ := hnot
    -- a target one byte longer than what comes in
    have hlong : List.replicate (terminal.length + 1) p.c ≠ [] := by simp
    have hsame := h ⟨0, 0⟩ (List.replicate (terminal.length + 1) p.c) (prompt ⟨0, 0⟩ terminal)
    have hterm : p.findUntil ⟨0, 0⟩ (List.replicate (terminal.length + 1) p.c) terminal
        (prompt ⟨0, 0⟩ terminal) ≠ none := by
      rw [SerialPi.findUntil, if_neg hlong]
      exact findLoop_of_all hall (List.length_pos_of_ne_nil hne) (by simp [received_prompt])
    have hmap := findLoop_undisturbed (List.replicate (terminal.length + 1) p.c)
      (onTime_prompt htime ⟨0, 0⟩ terminal) 0 0
    rw [received_prompt, resetScan_of_short (by simp), Option.map_none,
      Option.map_eq_none_iff] at hmap
    rw [hsame, SerialPi.findUntil, if_neg hlong] at hterm
    exact hterm hmap
  · intro hignore time1 target turns
    exact findUntil_of_ignores hignore target turns

/-- A newline as terminator comes in, behind a carriage return that `read` left. -/
theorem terminal_ignored_newline :
    (⟨13, 1000⟩ : SerialPi).findUntil ⟨0, 0⟩ [79, 75] [10] (prompt ⟨0, 0⟩ [10, 79, 75]) =
      (⟨13, 1000⟩ : SerialPi).findUntil ⟨0, 0⟩ [79, 75] [] (prompt ⟨0, 0⟩ [10, 79, 75]) :=
  (terminal_ignored_iff (by decide) [10]).mpr (by decide) _ _ _

/-! ## Time -/

/-- A call that the terminator does not end is ended by a late look. -/
theorem late_of_findLoop_false {target : List UInt8} {turns rest : List Turn} :
    ∀ {index termIndex : Nat},
      p.findLoop time1 target [] index termIndex turns = some (false, rest) →
      ∃ turn ∈ turns, p.late time1 turn.time2 = true := by
  intro index termIndex h
  by_contra hnone
  have hontime : p.OnTime time1 turns := by
    intro turn hturn
    by_contra hlate
    exact hnone ⟨turn, hturn, by simpa using hlate⟩
  have hmap := findLoop_undisturbed target hontime index termIndex
  rw [h] at hmap
  cases hscan : resetScan target index (received turns) <;> simp [hscan] at hmap

/-- The terminator cannot end the call: it is ignored, or longer than what comes in. -/
def SerialPi.Unended (p : SerialPi) (terminal : List UInt8) (turns : List Turn) : Prop :=
  p.Ignores terminal ∨ (received turns).length < terminal.length

/-- **A call can time out exactly if `timeOut` is less than a second of
microseconds**, whatever the terminator. -/
theorem findUntil_timesOut_iff {target : List UInt8} (hne : target ≠ [])
    (terminal : List UInt8) (hnormal : time1.Normal) :
    (∃ turns rest, (∀ turn ∈ turns, turn.time2.Normal) ∧ p.Unended terminal turns ∧
        p.findUntil time1 target terminal turns = some (false, rest)) ↔
      p.timeOut < 999999 := by
  constructor
  · rintro ⟨turns, rest, hclock, hunended, hfalse⟩
    have hsame : p.findUntil time1 target terminal turns = p.findUntil time1 target [] turns :=
      hunended.elim (fun hignore => findUntil_of_ignores hignore target turns)
        (fun hfew => findUntil_of_few hfew target)
    rw [hsame, SerialPi.findUntil, if_neg hne] at hfalse
    obtain ⟨turn, hturn, hlate⟩ := late_of_findLoop_false hfalse
    rw [late_iff hnormal (hclock turn hturn)] at hlate
    omega
  · intro htime
    -- one look, a nanosecond before the second is over
    let after := time1.nanos + 999999999
    let time2 : Timespec := ⟨after / 1000000000, after % 1000000000⟩
    have htime2 : time2.Normal := ⟨Int.emod_nonneg _ (by decide), Int.emod_lt_of_pos _ (by decide)⟩
    have hnanos : time2.nanos = time1.nanos + 999999999 := by
      simp only [nanos, time2, after]
      omega
    have hlate : p.late time1 time2 = true := by
      rw [late_iff hnormal htime2, hnanos]
      omega
    have hunended : p.Unended terminal [⟨none, time2⟩] := by
      rcases eq_or_ne terminal [] with rfl | hterminal
      · exact .inl (.inl rfl)
      · exact .inr (List.length_pos_of_ne_nil hterminal)
    refine ⟨[⟨none, time2⟩], [], by simpa using htime2, hunended, ?_⟩
    rw [SerialPi.findUntil, if_neg hne, SerialPi.findLoop]
    simp [hlate]

/-- A call that is given a second waits for ever. -/
theorem findUntil_timesOut_second :
    ¬ ∃ turns rest, (∀ turn ∈ turns, turn.time2.Normal) ∧
      (⟨13, 1000000⟩ : SerialPi).Unended [13] turns ∧
      (⟨13, 1000000⟩ : SerialPi).findUntil ⟨0, 0⟩ [79, 75] [13] turns = some (false, rest) :=
  fun h => absurd ((findUntil_timesOut_iff (by decide) [13]
    (by simp [Timespec.Normal])).mp h) (by decide)

/-! ## Cells that nothing was read into -/

theorem length_store (turn : Turn) (count : Nat) (message : List UInt8) :
    (SerialPi.store turn count message).length = message.length := by
  cases h : turn.byte <;> simp [SerialPi.store, h]

/-- The cell looked at behind a turn: the byte of the turn, or what was there. -/
theorem getD_store {turn : Turn} {count : Nat} {message : List UInt8}
    (hcount : count < message.length) :
    (SerialPi.store turn count message).getD count 0 = turn.byte.getD (message.getD count 0) := by
  cases h : turn.byte <;> simp [SerialPi.store, h, hcount, List.getD_eq_getElem?_getD]

theorem getD_store_of_ne {turn : Turn} {count n : Nat} {message : List UInt8} (hne : count ≠ n) :
    (SerialPi.store turn count message).getD n 0 = message.getD n 0 := by
  cases h : turn.byte <;> simp [SerialPi.store, h, List.getD_eq_getElem?_getD, hne]

/-- The loop of `readBytes` from `count` on: one cell a look. -/
theorem readLoop_onTime {left count : Nat} {message : List UInt8} {turns : List Turn}
    {n : Nat} {message' : List UInt8} {rest : List Turn}
    (hroom : count + left ≤ message.length) (hontime : p.OnTime time1 turns)
    (h : p.readLoop time1 left count message turns = some (n, message', rest)) :
    n = count + left ∧ ∃ used, turns = used ++ rest ∧ used.length = left ∧
      message'.length = message.length ∧
      (∀ m < count, message'.getD m 0 = message.getD m 0) ∧
      ∀ m, message'.getD (count + m) 0 =
        (used[m]?.bind Turn.byte).getD (message.getD (count + m) 0) := by
  induction left generalizing count message turns with
  | zero =>
    obtain ⟨rfl, rfl, rfl⟩ : count = n ∧ message = message' ∧ turns = rest := by
      simpa [SerialPi.readLoop] using h
    exact ⟨rfl, [], rfl, rfl, rfl, fun _ _ => rfl, fun _ => rfl⟩
  | succ left ih =>
    cases turns with
    | nil => cases h
    | cons turn turns =>
      have hturn : p.late time1 turn.time2 = false := hontime turn List.mem_cons_self
      have hrest : p.OnTime time1 turns := fun t ht => hontime t (List.mem_cons_of_mem _ ht)
      simp only [SerialPi.readLoop, hturn, Bool.false_eq_true, if_false] at h
      obtain ⟨rfl, used, rfl, rfl, hlen, hbefore, hcells⟩ :=
        ih (by rw [length_store]; omega) hrest h
      refine ⟨by omega, turn :: used, rfl, rfl, by rw [hlen, length_store], ?_, ?_⟩
      · intro m hm
        rw [hbefore m (by omega), getD_store_of_ne (by omega)]
      · intro m
        cases m with
        | zero =>
          rw [Nat.add_zero, hbefore count (by omega), getD_store (by omega)]
          rfl
        | succ m =>
          have hcell := hcells m
          rw [getD_store_of_ne (by omega)] at hcell
          rw [show count + (m + 1) = count + 1 + m by omega, hcell, List.getElem?_cons_succ]

/-- **A call of `readBytes` that is on time counts its looks, not the bytes it read**:
it looks `size` times, and a look that brings nothing leaves its cell as it was. -/
theorem readBytes_onTime {size : Nat} {message : List UInt8} {turns : List Turn}
    {n : Nat} {message' : List UInt8} {rest : List Turn}
    (hroom : size ≤ message.length) (hontime : p.OnTime time1 turns)
    (h : p.readBytes time1 message size turns = some (n, message', rest)) :
    n = size ∧ ∃ used, turns = used ++ rest ∧ used.length = size ∧
      message'.length = message.length ∧
      ∀ m, message'.getD m 0 = (used[m]?.bind Turn.byte).getD (message.getD m 0) := by
  obtain ⟨hn, used, hused, hlen, hmessage, -, hcells⟩ :=
    readLoop_onTime (by omega) hontime h
  exact ⟨by omega, used, hused, hlen, hmessage, by simpa using hcells⟩

/-- A call of `readBytesUntil` that ends short of its length ends at a look whose cell
holds the character. -/
theorem untilLoop_onTime {character : UInt8} {left count : Nat} {lastReaded : UInt8}
    {buffer : List UInt8} {turns : List Turn} {n : Nat} {buffer' : List UInt8} {rest : List Turn}
    (hroom : count + left ≤ buffer.length) (hontime : p.OnTime time1 turns)
    (h : p.untilLoop time1 character left lastReaded count buffer turns = some (n, buffer', rest))
    (hshort : n < count + left) :
    ∃ used, turns = used ++ rest ∧ n = count + used.length ∧
      (used = [] ∧ lastReaded = character ∨
        ∃ last, used.getLast? = some last ∧
          last.byte.getD (buffer.getD (n - 1) 0) = character) := by
  induction left generalizing count lastReaded buffer turns with
  | zero =>
    obtain ⟨rfl, rfl, rfl⟩ : count = n ∧ buffer = buffer' ∧ turns = rest := by
      simpa [SerialPi.untilLoop] using h
    omega
  | succ left ih =>
    rw [SerialPi.untilLoop.eq_def] at h
    simp only at h
    split at h
    · next heq =>
      obtain ⟨rfl, rfl, rfl⟩ : count = n ∧ buffer = buffer' ∧ turns = rest := by simpa using h
      exact ⟨[], rfl, rfl, .inl ⟨rfl, heq⟩⟩
    · cases turns with
      | nil => cases h
      | cons turn turns =>
        have hturn : p.late time1 turn.time2 = false := hontime turn List.mem_cons_self
        have hrest : p.OnTime time1 turns := fun t ht => hontime t (List.mem_cons_of_mem _ ht)
        simp only [hturn, Bool.false_eq_true, if_false] at h
        obtain ⟨used, rfl, rfl, hend⟩ :=
          ih (by rw [length_store]; omega) hrest h (by omega)
        refine ⟨turn :: used, rfl, by simp only [List.length_cons]; omega, .inr ?_⟩
        rcases hend with ⟨rfl, hlast⟩ | ⟨last, hlast, hcell⟩
        · refine ⟨turn, rfl, ?_⟩
          rwa [getD_store (by omega)] at hlast
        · refine ⟨last, ?_, ?_⟩
          · rw [List.getLast?_cons, hlast]
            rfl
          · have hpos : 0 < used.length := by
              cases used with
              | nil => cases hlast
              | cons _ _ => simp
            rwa [getD_store_of_ne (by omega)] at hcell

/-- Looks that bring nothing and take no time. -/
def idle (time1 : Timespec) (n : Nat) : List Turn := List.replicate n ⟨none, time1⟩

/-- Looks that bring nothing walk through the buffer up to the character in it. -/
theorem untilLoop_idle {character : UInt8} (htime : 0 ≤ p.timeOut) (time1 : Timespec) {k : Nat} :
    ∀ {left : Nat} (count : Nat) {lastReaded : UInt8} (buffer : List UInt8), k + 1 < left →
      lastReaded ≠ character → (∀ j < k, buffer.getD (count + j) 0 ≠ character) →
      buffer.getD (count + k) 0 = character →
      p.untilLoop time1 character left lastReaded count buffer (idle time1 (k + 1)) =
        some (count + k + 1, buffer, []) := by
  induction k with
  | zero =>
    rintro (_ | _ | left) count lastReaded buffer hleft hne _ hcell
    · omega
    · omega
    · rw [Nat.add_zero, List.getD_eq_getElem?_getD] at hcell
      simp [SerialPi.untilLoop, idle, hne, SerialPi.store, not_late_self htime, hcell]
  | succ k ih =>
    rintro (_ | left) count lastReaded buffer hleft hne hbefore hcell
    · omega
    · have hnext := ih (count + 1) buffer (show k + 1 < left by omega)
        (hbefore 0 (by omega)) (fun j hj => ?_) (by rw [← hcell]; congr 1; omega)
      · rw [idle, List.replicate_succ, ← idle, SerialPi.untilLoop, if_neg hne]
        simp only [SerialPi.store, not_late_self htime, Bool.false_eq_true, if_false]
        rw [Nat.add_zero] at hnext
        rw [hnext]
        congr 2
        omega
      · have := hbefore (j + 1) (by omega)
        rwa [show count + 1 + j = count + (j + 1) by omega]

theorem add_one_ne (c : UInt8) : c + 1 ≠ c := by
  intro h
  have hnat := congrArg UInt8.toNat h
  have hlt := c.toNat_lt
  rw [UInt8.toNat_add] at hnat
  simp only [UInt8.reduceToNat] at hnat
  omega

/-- **`readBytesUntil` ends for a character received exactly if the buffer did not
hold it**, the last cell apart: a look that brings nothing compares what is there. -/
theorem readBytesUntil_received_iff {character : UInt8} {buffer : List UInt8} {length : Nat}
    (htime : 0 ≤ p.timeOut) (hroom : length ≤ buffer.length) :
    (∀ turns n buffer' rest, p.OnTime time1 turns →
        p.readBytesUntil time1 character buffer length turns = some (n, buffer', rest) →
        n < length →
        ∃ used last, turns = used ++ rest ∧ n = used.length ∧ used.getLast? = some last ∧
          last.byte = some character) ↔
      character ∉ buffer.take (length - 1) := by
  constructor
  · intro h hmem
    -- the first cell that holds it
    classical
    have hexists : ∃ i, i < length - 1 ∧ buffer.getD i 0 = character := by
      obtain ⟨i, hi, hcell⟩ := List.mem_iff_getElem.mp hmem
      rw [List.length_take] at hi
      rw [List.getElem_take] at hcell
      refine ⟨i, by omega, ?_⟩
      rw [List.getD_eq_getElem _ _ (by omega), hcell]
    have hfirst := Nat.find_spec hexists
    have hidle := untilLoop_idle htime time1 0 buffer
      (show Nat.find hexists + 1 < length by omega) (add_one_ne character)
      (fun j hj hcell => Nat.find_min hexists hj ⟨by omega, by rwa [Nat.zero_add] at hcell⟩)
      (by rw [Nat.zero_add]; exact hfirst.2)
    have hontime : p.OnTime time1 (idle time1 (Nat.find hexists + 1)) := by
      intro turn hturn
      rw [List.eq_of_mem_replicate hturn]
      exact not_late_self htime time1
    obtain ⟨used, last, hused, -, hlast, hbyte⟩ := h _ _ _ _ hontime hidle (by omega)
    have hturn : last ∈ idle time1 (Nat.find hexists + 1) := by
      rw [hused, List.append_nil]
      exact List.mem_of_getLast? hlast
    rw [List.eq_of_mem_replicate hturn] at hbyte
    cases hbyte
  · intro hnot turns n buffer' rest hontime h hshort
    obtain ⟨used, hused, hn, hend⟩ :=
      untilLoop_onTime (by omega) hontime h (by omega)
    rw [Nat.zero_add] at hn
    rcases hend with ⟨-, hlast⟩ | ⟨last, hlast, hcell⟩
    · exact absurd hlast (add_one_ne character)
    · refine ⟨used, last, hused, hn, hlast, ?_⟩
      cases hbyte : last.byte with
      | some b =>
        rw [hbyte, Option.getD_some] at hcell
        rw [hcell]
      | none =>
        rw [hbyte, Option.getD_none, List.getD_eq_getElem _ _ (by omega)] at hcell
        refine absurd ?_ hnot
        refine List.mem_iff_getElem.mpr ⟨n - 1, ?_, ?_⟩
        · have hpos : 0 < used.length := by
            cases used with
            | nil => cases hlast
            | cons _ _ => simp
          rw [List.length_take]
          omega
        · rw [List.getElem_take, hcell]

/-- A newline received into cells that were cleared. -/
theorem readBytesUntil_received_cleared :
    ∃ used last, prompt ⟨0, 0⟩ [65, 10] = used ++ [] ∧ 2 = used.length ∧
      used.getLast? = some last ∧ last.byte = some 10 :=
  (readBytesUntil_received_iff (show (0 : Int) ≤ (⟨0, 1000⟩ : SerialPi).timeOut by decide)
    (show 3 ≤ ([0, 0, 0] : List UInt8).length by decide)).mpr (by decide)
    (prompt ⟨0, 0⟩ [65, 10]) 2 [65, 10, 0] [] (onTime_prompt (by decide) ⟨0, 0⟩ _) (by decide)
    (by decide)

end CarPi.ArduPi
