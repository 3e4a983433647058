/-
CarPi.ArduPi.BusTheorems — what the polled transfers deliver, under every
interleaving of the code with the controller.

* `wireWrite_delivers`: the I2C FIFO is never written to when it is full, and the slave
  gets the bytes in order. OK says that there was no error and that the FIFO got all of
  them; up to sixteen may still be in it.
* `wireRead_stores`: the inner loop of `read` does not look at `remaining`. What it stores
  stays inside the array exactly as long as the controller gives no more bytes than
  it was asked for.
* `spiTransfer_exchanges`: no more than one byte is in the FIFOs, so that `rbuf[i]` is what
  came in for `tbuf[i]`.
-/
import CarPi.ArduPi.Buses
import Mathlib.Data.List.Infix

namespace CarPi.ArduPi

open CarPi.Foundation

/-! ## The controller -/

@[simp] theorem report_fifo (b : Bsc) (act : BscAct) : (b.report act).fifo = b.fifo := by
  cases act <;> rfl

theorem reason_eq_ok_iff {b : Bsc} {remaining : Bool} :
    b.reason remaining = .OK ↔ b.err = false ∧ b.clkt = false ∧ remaining = false := by
  cases herr : b.err <;> cases hclkt : b.clkt <;> cases remaining <;>
    simp [Bsc.reason, herr, hclkt]

theorem reason_eq_data_iff {b : Bsc} {remaining : Bool} :
    b.reason remaining = .ERROR_DATA ↔ b.err = false ∧ b.clkt = false ∧ remaining = true := by
  cases herr : b.err <;> cases hclkt : b.clkt <;> cases remaining <;>
    simp [Bsc.reason, herr, hclkt]

/-! ## WirePi::write -/

/-- The pre-population fills the FIFO with the first bytes. -/
theorem prefill_eq (left : List UInt8) : ∀ (i : Nat) (fifo : List UInt8),
    prefill i fifo left =
      (fifo ++ left.take (BCM2835_BSC_FIFO_SIZE - i), left.drop (BCM2835_BSC_FIFO_SIZE - i)) := by
  induction left with
  | nil => simp [prefill]
  | cons b left ih =>
    intro i fifo
    rw [prefill]
    split
    · next hlt =>
      have hroom : BCM2835_BSC_FIFO_SIZE - i = BCM2835_BSC_FIFO_SIZE - (i + 1) + 1 := by omega
      rw [ih, hroom, List.take_succ_cons, List.drop_succ_cons, List.append_assoc,
        List.singleton_append]
    · next hfull =>
      have hnone : BCM2835_BSC_FIFO_SIZE - i = 0 := by omega
      rw [hnone, List.take_zero, List.drop_zero, List.append_nil]

theorem writeStart_eq (buf : List UInt8) :
    writeStart buf =
      { bsc := { Bsc.cleared with fifo := buf.take BCM2835_BSC_FIFO_SIZE }
        left := buf.drop BCM2835_BSC_FIFO_SIZE
        stage := .polling
        taken := [] } := by
  simp [writeStart, prefill_eq]

/-- Where the bytes of `buf` are, and what the stages know. -/
structure WriteBusInv (buf : List UInt8) (s : WriteState) : Prop where
  bytes : s.taken ++ s.bsc.fifo ++ s.left = buf
  room : s.bsc.fifo.length ≤ BCM2835_BSC_FIFO_SIZE
  writing : s.stage = .writing → s.bsc.fifo.length < BCM2835_BSC_FIFO_SIZE
  returned : ∀ reason, s.stage = .returned reason →
    s.bsc.done = true ∧ reason = s.bsc.reason (!s.left.isEmpty)

theorem writeBusInv_start (buf : List UInt8) : WriteBusInv buf (writeStart buf) := by
  rw [writeStart_eq]
  exact ⟨List.take_append_drop _ _, List.length_take_le _ _, nofun, nofun⟩

theorem writeBusInv_step {buf : List UInt8} {s s' : WriteState} {act : WriteAct}
    (h : WriteBusInv buf s) (hs : writeStep s act = some s') : WriteBusInv buf s' := by
  -- a step of the controller finds the code still waiting
  have hwaits : s.bsc.done = false → ∀ reason, s.stage ≠ .returned reason := by
    intro hdone reason hstage
    rw [(h.returned reason hstage).1] at hdone
    cases hdone
  cases act with
  | poll =>
    simp only [writeStep, Option.ite_none_right_eq_some, Option.some.injEq] at hs
    obtain ⟨-, rfl⟩ := hs
    by_cases hdone : s.bsc.done = true
    · rw [if_pos hdone]
      refine ⟨h.bytes, h.room, nofun, ?_⟩
      exact fun reason hreason => ⟨hdone, (WriteStage.returned.inj hreason).symm⟩
    · rw [if_neg hdone]
      exact ⟨h.bytes, h.room, nofun, nofun⟩
  | check =>
    simp only [writeStep, Option.ite_none_right_eq_some, Option.some.injEq] at hs
    obtain ⟨-, rfl⟩ := hs
    by_cases hready : (!s.left.isEmpty && s.bsc.TXD) = true
    · have htxd : s.bsc.TXD = true := (Bool.and_eq_true_iff.mp hready).2
      rw [if_pos hready]
      exact ⟨h.bytes, h.room, fun _ => of_decide_eq_true htxd, nofun⟩
    · rw [if_neg hready]
      exact ⟨h.bytes, h.room, nofun, nofun⟩
  | put =>
    simp only [writeStep] at hs
    split at hs
    · next b left hstage hleft =>
      obtain rfl := Option.some.inj hs
      -- the byte goes from `left` into a FIFO that was seen to have room
      have hroom := h.writing hstage
      refine ⟨?_, ?_, nofun, nofun⟩
      · rw [← h.bytes, hleft]
        simp
      · rw [List.length_append, List.length_singleton]
        omega
    · cases hs
  | shift =>
    simp only [writeStep] at hs
    split at hs
    · next b fifo hfifo =>
      simp only [Option.ite_none_left_eq_some, Bool.not_eq_true, Option.some.injEq] at hs
      obtain ⟨hdone, rfl⟩ := hs
      -- the byte goes from the FIFO to `taken`
      have hless : fifo.length < s.bsc.fifo.length := by simp [hfifo]
      refine ⟨?_, ?_, ?_, ?_⟩
      · rw [← h.bytes, hfifo]
        simp
      · exact (Nat.le_of_lt hless).trans h.room
      · exact fun hstage => hless.trans (h.writing hstage)
      · exact fun reason hstage => absurd hstage (hwaits hdone reason)
    · cases hs
  | bsc act =>
    simp only [writeStep, Option.ite_none_left_eq_some, Bool.not_eq_true,
      Option.some.injEq] at hs
    obtain ⟨hdone, rfl⟩ := hs
    refine ⟨?_, ?_, ?_, ?_⟩
    · rw [report_fifo]
      exact h.bytes
    · rw [report_fifo]
      exact h.room
    · intro hstage
      rw [report_fifo]
      exact h.writing hstage
    · exact fun reason hstage => absurd hstage (hwaits hdone reason)

theorem writeBusInv {buf : List UInt8} {s : WriteState} (h : (wireWrite buf).Reachable s) :
    WriteBusInv buf s := by
  refine h.invariant (I := WriteBusInv buf) ?_ ?_
  · rintro s rfl
    exact writeBusInv_start buf
  · intro s act s' hI hs
    exact writeBusInv_step hI (show writeStep s act = some s' from hs)

/-- The code at the head of the inner loop, the transfer going on without an error. -/
def filling (fifo left taken : List UInt8) : WriteState :=
  { bsc := { Bsc.cleared with fifo := fifo }, left := left, stage := .filling, taken := taken }

/-- For each byte that the slave takes from a full FIFO the code puts another in, until none
is left. -/
theorem reachable_filling {buf left : List UInt8} : ∀ {fifo taken : List UInt8},
    left ≠ [] → fifo.length = BCM2835_BSC_FIFO_SIZE →
    (wireWrite buf).Reachable (filling fifo left taken) →
    ∃ fifo' taken', fifo'.length = BCM2835_BSC_FIFO_SIZE ∧
      taken'.length = taken.length + left.length ∧
      (wireWrite buf).Reachable (filling fifo' [] taken') := by
  induction left with
  | nil =>
    intro fifo taken hne
    exact absurd rfl hne
  | cons b left ih =>
    intro fifo taken _ hfull h
    cases fifo with
    | nil => cases hfull
    | cons a fifo =>
      have hroom : fifo.length < BCM2835_BSC_FIFO_SIZE := by
        rw [← hfull, List.length_cons]
        omega
      -- the slave takes `a`, and `b` is put in
      have hshift := h.step
        (show writeStep (filling (a :: fifo) (b :: left) taken) .shift =
          some (filling fifo (b :: left) (taken ++ [a])) from rfl)
      have hcheck := hshift.step
        (show writeStep (filling fifo (b :: left) (taken ++ [a])) .check =
          some { filling fifo (b :: left) (taken ++ [a]) with stage := .writing } by
          simp [writeStep, filling, Bsc.TXD, hroom])
      have hput := hcheck.step
        (show writeStep { filling fifo (b :: left) (taken ++ [a]) with stage := .writing } .put =
          some (filling (fifo ++ [b]) left (taken ++ [a])) from rfl)
      have hfull' : (fifo ++ [b]).length = BCM2835_BSC_FIFO_SIZE := by simpa using hfull
      rcases eq_or_ne left [] with rfl | hleft
      · exact ⟨_, _, hfull', by simp, hput⟩
      · obtain ⟨fifo', taken', hlen, htaken, hreach⟩ := ih hleft hfull' hput
        refine ⟨fifo', taken', hlen, ?_, hreach⟩
        rw [htaken, List.length_append, List.length_singleton, List.length_cons]
        omega

/-- The slave takes as much of the FIFO as it likes. -/
theorem reachable_taken {buf : List UInt8} {n : Nat} : ∀ {fifo taken : List UInt8},
    n ≤ fifo.length → (wireWrite buf).Reachable (filling fifo [] taken) →
    ∃ fifo' taken', taken'.length = taken.length + n ∧
      (wireWrite buf).Reachable (filling fifo' [] taken') := by
  induction n with
  | zero =>
    intro fifo taken _ h
    exact ⟨fifo, taken, rfl, h⟩
  | succ n ih =>
    intro fifo taken hn h
    cases fifo with
    | nil => cases hn
    | cons a fifo =>
      have hshift := h.step
        (show writeStep (filling (a :: fifo) [] taken) .shift =
          some (filling fifo [] (taken ++ [a])) from rfl)
      obtain ⟨fifo', taken', htaken, hreach⟩ := ih (Nat.le_of_succ_le_succ hn) hshift
      refine ⟨fifo', taken', ?_, hreach⟩
      rw [htaken, List.length_append, List.length_singleton]
      omega

/-- A controller that is done without an error lets `write` say OK. -/
theorem reachable_returned {buf fifo taken : List UInt8}
    (h : (wireWrite buf).Reachable (filling fifo [] taken)) :
    ∃ s, (wireWrite buf).Reachable s ∧ s.stage = .returned .OK ∧ s.taken = taken := by
  let b : Bsc := { Bsc.cleared with fifo := fifo, done := true }
  have hfinish := h.step
    (show writeStep (filling fifo [] taken) (.bsc .finish) =
      some { filling fifo [] taken with bsc := b } from rfl)
  have hcheck := hfinish.step
    (show writeStep { filling fifo [] taken with bsc := b } .check =
      some { filling fifo [] taken with bsc := b, stage := .polling } from rfl)
  have hpoll := hcheck.step
    (show writeStep { filling fifo [] taken with bsc := b, stage := .polling } .poll =
      some { filling fifo [] taken with bsc := b, stage := .returned .OK } from rfl)
  exact ⟨_, hpoll, rfl, rfl⟩

/-- Some run hands all of `buf` to the FIFO with the slave having taken only what had to
make room. -/
theorem exists_filling (buf : List UInt8) :
    ∃ fifo taken, taken.length = buf.length - BCM2835_BSC_FIFO_SIZE ∧
      fifo.length + taken.length = buf.length ∧
      (wireWrite buf).Reachable (filling fifo [] taken) := by
  let fifo := buf.take BCM2835_BSC_FIFO_SIZE
  let left := buf.drop BCM2835_BSC_FIFO_SIZE
  have hfifo : fifo.length = min BCM2835_BSC_FIFO_SIZE buf.length := List.length_take
  have hleft : left.length = buf.length - BCM2835_BSC_FIFO_SIZE := List.length_drop
  have hstart : (wireWrite buf).Reachable (writeStart buf) := ⟨_, [], rfl, .nil⟩
  have hpoll := hstart.step
    (show writeStep (writeStart buf) .poll = some (filling fifo left []) by
      rw [writeStart_eq]
      rfl)
  by_cases hshort : left = []
  · rw [hshort] at hpoll hleft
    rw [List.length_nil] at hleft
    exact ⟨fifo, [], by simpa using hleft, by rw [List.length_nil]; omega, hpoll⟩
  · have hpos := List.length_pos_of_ne_nil hshort
    obtain ⟨fifo', taken', hfull, htaken, hreach⟩ :=
      reachable_filling hshort (by omega) hpoll
    rw [List.length_nil] at htaken
    exact ⟨fifo', taken', by omega, by omega, hreach⟩

/-- Twenty bytes, the slave failing to acknowledge the seventeenth. -/
def nackRun : List WriteAct :=
  List.replicate 16 .shift ++ [.poll, .check, .put, .bsc .nack, .bsc .finish, .check, .put, .check,
    .put, .check, .put, .check, .poll]

/-- Where the bytes of the slave are, and what `remaining` counts: it wraps behind the
last byte asked for. -/
structure ReadBusInv (n : UInt32) (s : ReadState) : Prop where
  bytes : s.stored ++ s.bsc.fifo = s.given
  remaining : s.remaining + UInt32.ofNat s.stored.length = n
  fetching : s.stage = .fetching ∨ s.stage = .grabFetching → s.bsc.fifo ≠ []
  grabbing : s.stage = .grabbing ∨ s.stage = .grabFetching → s.bsc.done = true
  returned : ∀ reason, s.stage = .returned reason →
    s.bsc.done = true ∧ (s.remaining = 0 ∨ s.bsc.fifo = []) ∧
      reason = s.bsc.reason (s.remaining ≠ 0)

theorem readBusInv_start (n : UInt32) : ReadBusInv n (readStart n) := by
  refine ⟨rfl, ?_, by simp [readStart], by simp [readStart], nofun⟩
  simp [readStart]

/-- Taking a byte out of the FIFO, in one loop or the other. -/
theorem readBusInv_fetch {n : UInt32} {s s' : ReadState} {stage : ReadStage}
    (h : ReadBusInv n s) (hstage : stage = .draining ∨ stage = .grabbing ∧ s.stage = .grabFetching)
    (hs : s.fetch stage = some s') : ReadBusInv n s' := by
  simp only [ReadState.fetch] at hs
  split at hs
  · next b fifo hfifo =>
    obtain rfl := Option.some.inj hs
    refine ⟨?_, ?_, ?_, ?_, ?_⟩
    · rw [← h.bytes, hfifo]
      simp
    · have hcount := h.remaining
      simp only [List.length_append, List.length_singleton, UInt32.ofNat_add]
      grind
    · rcases hstage with rfl | ⟨rfl, -⟩ <;> simp
    · rcases hstage with rfl | ⟨rfl, hgrab⟩
      · simp
      · exact fun _ => h.grabbing (.inr hgrab)
    · rcases hstage with rfl | ⟨rfl, -⟩ <;> exact nofun
  · cases hs

theorem readBusInv_step {n : UInt32} {s s' : ReadState} {act : ReadAct}
    (h : ReadBusInv n s) (hs : readStep s act = some s') : ReadBusInv n s' := by
  -- a step of the controller finds the code in the first loop
  have hpolls : s.bsc.done = false → ¬ (s.stage = .grabbing ∨ s.stage = .grabFetching) := by
    intro hdone hgrab
    rw [h.grabbing hgrab] at hdone
    cases hdone
  have hwaits : s.bsc.done = false → ∀ reason, s.stage ≠ .returned reason := by
    intro hdone reason hstage
    rw [(h.returned reason hstage).1] at hdone
    cases hdone
  cases act with
  | poll =>
    simp only [readStep, Option.ite_none_right_eq_some, Option.some.injEq] at hs
    obtain ⟨-, rfl⟩ := hs
    by_cases hdone : s.bsc.done = true
    · rw [if_pos hdone]
      exact ⟨h.bytes, h.remaining, by simp, fun _ => hdone, nofun⟩
    · rw [if_neg hdone]
      exact ⟨h.bytes, h.remaining, by simp, by simp, nofun⟩
  | check =>
    simp only [readStep] at hs
    split at hs
    · next hstage =>
      obtain rfl := Option.some.inj hs
      by_cases hrxd : s.bsc.RXD = true
      · have hfifo : s.bsc.fifo ≠ [] := by simpa [Bsc.RXD] using hrxd
        rw [if_pos hrxd]
        exact ⟨h.bytes, h.remaining, fun _ => hfifo, by simp, nofun⟩
      · rw [if_neg hrxd]
        exact ⟨h.bytes, h.remaining, by simp, by simp, nofun⟩
    · next hstage =>
      obtain rfl := Option.some.inj hs
      have hdone := h.grabbing (.inl hstage)
      by_cases hmore : (s.remaining ≠ 0 && s.bsc.RXD) = true
      · have hfifo : s.bsc.fifo ≠ [] := by
          simpa [Bsc.RXD] using (Bool.and_eq_true_iff.mp hmore).2
        rw [if_pos hmore]
        exact ⟨h.bytes, h.remaining, fun _ => hfifo, fun _ => hdone, nofun⟩
      · rw [if_neg hmore]
        refine ⟨h.bytes, h.remaining, by simp, fun _ => hdone, ?_⟩
        intro reason hreason
        refine ⟨hdone, ?_, (ReadStage.returned.inj hreason).symm⟩
        by_contra hneither
        rw [not_or] at hneither
        exact hmore (by simp [Bsc.RXD, hneither.1, hneither.2])
    · cases hs
  | fetch =>
    simp only [readStep] at hs
    split at hs
    · exact readBusInv_fetch h (.inl rfl) hs
    · next hstage => exact readBusInv_fetch h (.inr ⟨rfl, hstage⟩) hs
    · cases hs
  | shift b =>
    simp only [readStep, Option.ite_none_right_eq_some, Option.some.injEq, Bool.and_eq_true,
      Bool.not_eq_true'] at hs
    obtain ⟨⟨hdone, -⟩, rfl⟩ := hs
    -- the byte goes from the slave to the FIFO
    refine ⟨?_, h.remaining, fun _ => by simp, ?_, ?_⟩
    · rw [← h.bytes, List.append_assoc]
    · exact fun hgrab => absurd hgrab (hpolls hdone)
    · exact fun reason hstage => absurd hstage (hwaits hdone reason)
  | bsc act =>
    simp only [readStep, Option.ite_none_left_eq_some, Bool.not_eq_true,
      Option.some.injEq] at hs
    obtain ⟨hdone, rfl⟩ := hs
    refine ⟨?_, h.remaining, ?_, ?_, ?_⟩
    · rw [report_fifo]
      exact h.bytes
    · intro hfetch
      rw [report_fifo]
      exact h.fetching hfetch
    · exact fun hgrab => absurd hgrab (hpolls hdone)
    · exact fun reason hstage => absurd hstage (hwaits hdone reason)

theorem readBusInv {n : UInt32} {s : ReadState} (h : (wireRead n).Reachable s) :
    ReadBusInv n s := by
  refine h.invariant (I := ReadBusInv n) ?_ ?_
  · rintro s rfl
    exact readBusInv_start n
  · intro s act s' hI hs
    exact readBusInv_step hI (show readStep s act = some s' from hs)

theorem remaining_eq_zero_iff {n : UInt32} {s : ReadState} (h : ReadBusInv n s) :
    s.remaining = 0 ↔ s.stored.length % UInt32.size = n.toNat := by
  have hcount := h.remaining
  have hzero : s.remaining = 0 ↔ UInt32.ofNat s.stored.length = n := by
    constructor
    · intro hnone
      rwa [hnone, UInt32.zero_add] at hcount
    · intro hall
      rwa [hall, UInt32.add_eq_right] at hcount
  rw [hzero, ← UInt32.toNat_inj, UInt32.toNat_ofNat']

/-- However many bytes there are, the inner loop stores them. -/
theorem exists_stored (n : UInt32) (m : Nat) :
    ∃ s, (wireRead n).Reachable s ∧ s.stage = .draining ∧ s.bsc = .cleared ∧
      s.given.length = m ∧ s.stored.length = m := by
  induction m with
  | zero =>
    have hstart : (wireRead n).Reachable (readStart n) := ⟨_, [], rfl, .nil⟩
    exact ⟨_, hstart.step (show readStep (readStart n) .poll =
      some { readStart n with stage := .draining } from rfl), rfl, rfl, rfl, rfl⟩
  | succ m ih =>
    obtain ⟨⟨bsc, remaining, stored, stage, given⟩, h, rfl, rfl, hgiven, hstored⟩ := ih
    -- the slave gives a byte, and the code fetches it
    have hshift := h.step (show readStep ⟨.cleared, remaining, stored, .draining, given⟩
        (.shift 0) =
      some ⟨{ Bsc.cleared with fifo := [0] }, remaining, stored, .draining, given ++ [0]⟩
      from rfl)
    have hcheck := hshift.step (show readStep ⟨{ Bsc.cleared with fifo := [0] }, remaining,
        stored, .draining, given ++ [0]⟩ .check =
      some ⟨{ Bsc.cleared with fifo := [0] }, remaining, stored, .fetching, given ++ [0]⟩
      from rfl)
    have hfetch := hcheck.step (show readStep ⟨{ Bsc.cleared with fifo := [0] }, remaining,
        stored, .fetching, given ++ [0]⟩ .fetch =
      some ⟨.cleared, remaining - 1, stored ++ [0], .draining, given ++ [0]⟩ from rfl)
    exact ⟨_, hfetch, rfl, rfl, by simpa using hgiven, by simpa using hstored⟩

/-- Two bytes: one is fetched in the loop, the other behind it. -/
def fetchRun : List ReadAct :=
  [.poll, .shift 5, .check, .fetch, .check, .shift 6, .bsc .finish, .poll, .check, .fetch, .check]

/-- The FIFOs hold the byte that the stage waits for, or none. -/
structure SpiInv (tbuf : List UInt8) (s : SpiState) : Prop where
  sent : s.exchanged.map Prod.fst ++ s.tx ++ s.left = tbuf
  received : s.rbuf ++ s.rx = s.exchanged.map Prod.snd
  fifos : s.tx.length + s.rx.length =
    if s.stage = .waitRXD ∨ s.stage = .reading then 1 else 0
  reading : s.stage = .reading → s.rx ≠ []
  done : s.stage = .waitDONE ∨ s.stage = .returned → s.left = []

/-- A stage that moves no byte keeps what there is in the FIFOs. -/
theorem SpiInv.moved {tbuf : List UInt8} {s : SpiState} {stage : SpiStage} (h : SpiInv tbuf s)
    (hfifos : (stage = .waitRXD ∨ stage = .reading) ↔ (s.stage = .waitRXD ∨ s.stage = .reading))
    (hreading : stage = .reading → s.rx ≠ [])
    (hdone : stage = .waitDONE ∨ stage = .returned → s.left = []) :
    SpiInv tbuf { s with stage := stage } :=
  ⟨h.sent, h.received, by simpa only [hfifos] using h.fifos, hreading, hdone⟩

theorem spiInv_step {tbuf : List UInt8} {s s' : SpiState} {act : SpiAct}
    (h : SpiInv tbuf s) (hs : spiStep s act = some s') : SpiInv tbuf s' := by
  have hfifos := h.fifos
  cases act with
  | checkTXD ready =>
    simp only [spiStep, Option.ite_none_right_eq_some, Option.some.injEq] at hs
    obtain ⟨hstage, rfl⟩ := hs
    by_cases hleft : s.left.isEmpty = true
    · rw [if_pos hleft]
      exact h.moved (by simp [hstage]) nofun fun _ => List.isEmpty_iff.mp hleft
    · rw [if_neg hleft]
      cases ready
      · exact h.moved (by simp [hstage]) nofun (by simp)
      · exact h.moved (by simp [hstage]) nofun (by simp)
  | put =>
    simp only [spiStep] at hs
    split at hs
    · next b left hstage hleft =>
      obtain rfl := Option.some.inj hs
      -- the FIFOs were empty, and hold the byte put in
      simp only [hstage, reduceCtorEq, or_self, if_false] at hfifos
      refine ⟨?_, h.received, ?_, nofun, by simp⟩
      · rw [← h.sent, hleft]
        simp
      · simp only [List.length_append, List.length_singleton, true_or, if_true]
        omega
    · cases hs
  | checkRXD =>
    simp only [spiStep, Option.ite_none_right_eq_some, Option.some.injEq] at hs
    obtain ⟨hstage, rfl⟩ := hs
    by_cases hrx : s.rx.isEmpty = true
    · rw [if_pos hrx]
      exact h.moved (by simp [hstage]) nofun (by simp)
    · rw [if_neg hrx]
      exact h.moved (by simp [hstage]) (fun _ => by simpa using hrx) (by simp)
  | get =>
    simp only [spiStep] at hs
    split at hs
    · next b rx hstage hrx =>
      obtain rfl := Option.some.inj hs
      -- the byte that the FIFOs held is taken out
      simp only [hstage, or_true, if_true, hrx, List.length_cons] at hfifos
      refine ⟨h.sent, ?_, ?_, nofun, by simp⟩
      · rw [← h.received, hrx, List.append_assoc, List.singleton_append]
      · simp only [reduceCtorEq, or_self, if_false]
        omega
    · cases hs
  | checkDONE =>
    simp only [spiStep, Option.ite_none_right_eq_some, Option.some.injEq] at hs
    obtain ⟨hstage, rfl⟩ := hs
    have hleft := h.done (.inl hstage)
    by_cases htx : s.tx.isEmpty = true
    · rw [if_pos htx]
      exact h.moved (by simp [hstage]) nofun fun _ => hleft
    · rw [if_neg htx]
      exact h.moved (by simp [hstage]) nofun fun _ => hleft
  | exchange b =>
    simp only [spiStep] at hs
    split at hs
    · next a tx htx =>
      obtain rfl := Option.some.inj hs
      -- a byte goes out and one comes in
      refine ⟨?_, ?_, ?_, fun _ => by simp, h.done⟩
      · rw [← h.sent, htx]
        simp
      · rw [List.map_append, ← h.received, List.append_assoc]
        rfl
      · rw [← hfifos, htx]
        simp only [List.length_append, List.length_cons, List.length_nil]
        omega
    · cases hs

/-- **What `transfernb` exchanges.** In every reachable state the FIFOs hold one byte at most,
and `rbuf` holds what came in with the first bytes of `tbuf`; once `transfernb` has returned,
with all of them. -/
theorem spiTransfer_exchanges {tbuf : List UInt8} {s : SpiState}
    (h : (spiTransfer tbuf).Reachable s) :
    s.tx.length + s.rx.length ≤ 1 ∧ s.exchanged.map Prod.fst <+: tbuf ∧
      s.rbuf <+: s.exchanged.map Prod.snd ∧
      (s.stage = .returned →
        s.exchanged.map Prod.fst = tbuf ∧ s.rbuf = s.exchanged.map Prod.snd) := by
  have hinv : SpiInv tbuf s := by
    refine h.invariant (I := SpiInv tbuf) ?_ ?_
    · rintro s rfl
      constructor <;> simp [spiStart]
    · intro s act s' hI hs
      exact spiInv_step hI (show spiStep s act = some s' from hs)
  obtain ⟨hsent, hreceived, hfifos, -, hdone⟩ := hinv
  refine ⟨by split at hfifos <;> omega, ⟨s.tx ++ s.left, by rw [← hsent, List.append_assoc]⟩,
    ⟨s.rx, hreceived⟩, ?_⟩
  intro hstage
  simp only [hstage, reduceCtorEq, or_self, if_false] at hfifos
  have htx : s.tx = [] := List.length_eq_zero_iff.mp (by omega)
  have hrx : s.rx = [] := List.length_eq_zero_iff.mp (by omega)
  refine ⟨?_, by rw [← hreceived, hrx, List.append_nil]⟩
  rw [← hsent, htx, hdone (.inr hstage), List.append_nil, List.append_nil]

/-- Two bytes, the controller being busy before the first. -/
def exchangeRun : List SpiAct :=
  [.checkTXD false, .checkTXD true, .put, .checkRXD, .exchange 9, .checkRXD, .get, .checkTXD true,
    .put, .exchange 8, .checkRXD, .get, .checkTXD true, .checkDONE]

theorem spiTransfer_exchanges_exchangeRun :
    ∃ s, exec spiStep (spiStart [1, 2]) exchangeRun = some s ∧
      s.exchanged.map Prod.fst = [1, 2] ∧ s.rbuf = s.exchanged.map Prod.snd := by
  have hsome : ∃ s ∈ exec spiStep (spiStart [1, 2]) exchangeRun, s.stage = .returned := by decide
  obtain ⟨s, hs, hstage⟩ := hsome
  have hall := (spiTransfer_exchanges (LTS.reachable_of_exec exchangeRun hs)).2.2.2 hstage
  exact ⟨s, hs, hall.1, hall.2⟩

end CarPi.ArduPi
