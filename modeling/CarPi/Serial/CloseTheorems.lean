/-
CarPi.Serial.CloseTheorems — `AsyncSerial::close`, under every interleaving with
the thread it joins and with the device.

With `PortInv` of `ReopeningTheorems` it is known what `close` may meet;
`joining_cases` says which steps are left while it waits.

* `close_returns`: `join` cannot wait for ever. On a closed device an operation
  ends with an error, and a handler that ends with one starts nothing, so
  every step lowers `work`.
* `close_flushes`: a `close` that returns normally has written out what the
  device was given, unless a write had failed before.
* `close_clean_iff`: it has closed the device only if the thread was still
  there to run `doClose`. A port that failed has closed its device itself and
  lost its thread, and keeps the `doClose` for the thread of the next `open`.
-/
import CarPi.Serial.ReopeningTheorems

namespace CarPi.Serial

open CarPi.Foundation

/-! ## `close` comes back -/

/-- The handler may start an operation, on a closed device one that ends with an
error. -/
def Handler.starts : Handler → Bool
  | .doRead => true
  | .readEnd error _ => !error
  | .doWrite => true
  | .writeEnd error => !error

/-- The steps of the two others that `join` has to wait for at most: an operation
takes two, its end and the handler of that. -/
def Port.work (p : Port) : Nat :=
  p.serial.posted.length + 2 * p.serial.posted.countP Handler.starts + 2 * p.serial.reading
    + 2 * p.serial.writing.length + p.closesPosted
    + (decide (p.serial.backgroundThread = .running)).toNat

/-- `close` waits for a thread that is done, or that has a closed device. -/
def Port.Winding (p : Port) : Prop :=
  PortInv p ∧ p.closing = .joining ∧
    (p.portOpen = false ∨ p.serial.backgroundThread = .finished)

/-- A handler starts one operation at most, and none if its own ended with an error. -/
theorem started_runHandler (s : AsyncSerial) (closeFails : Bool) (h : Handler) :
    (s.runHandler closeFails h).reading + (s.runHandler closeFails h).writing.length
      ≤ s.reading + s.writing.length + h.starts.toNat := by
  cases h with
  | doRead => simp [AsyncSerial.runHandler, AsyncSerial.doRead, Handler.starts]; omega
  | readEnd error data =>
    cases error with
    | false =>
      rw [AsyncSerial.runHandler, AsyncSerial.readEnd_ok]
      simp [Handler.starts]
      omega
    | true =>
      rw [AsyncSerial.runHandler, AsyncSerial.readEnd_error]
      split <;> simp [Handler.starts, AsyncSerial.setErrorStatus]
  | doWrite =>
    simp only [AsyncSerial.runHandler, AsyncSerial.doWrite]
    split <;> simp [Handler.starts, AsyncSerial.startWrite]
    omega
  | writeEnd error =>
    cases error with
    | false =>
      rw [AsyncSerial.runHandler, AsyncSerial.writeEnd_ok]
      split <;> simp [Handler.starts, AsyncSerial.startWrite]
      omega
    | true =>
      rw [AsyncSerial.runHandler, AsyncSerial.writeEnd_error]
      simp [Handler.starts, AsyncSerial.setErrorStatus]

/-- While the main thread joins only the two others move. -/
theorem joining_cases {p p' : Port} {act : PortAct} (hjoining : p.closing = .joining)
    (hact : act ≠ .join) (hs : portStep p act = some p') :
    (∃ h closeFails, act = .serial (.run h closeFails)) ∨ act = .serial .finish ∨
      (∃ error data, act = .serial (.readDone error data)) ∨
      (∃ error buffer, act = .serial (.writeDone error buffer)) ∨
      ∃ closeFails, act = .runClose closeFails := by
  cases act with
  | serial a =>
    obtain ⟨hallows, _⟩ := portStep_serial_iff.mp hs
    cases a <;> simp [Port.allows, hjoining] at hallows ⊢
  | optionThrows =>
    obtain ⟨⟨hfree, _⟩, _⟩ := portStep_optionThrows_iff.mp hs
    simp [Port.mainFree, hjoining] at hfree
  | openAgain =>
    obtain ⟨⟨hfree, _⟩, _⟩ := portStep_openAgain_iff.mp hs
    simp [Port.mainFree, hjoining] at hfree
  | close =>
    obtain ⟨⟨hfree, _⟩, _⟩ := portStep_close_cases hs
    simp [Port.mainFree, hjoining] at hfree
  | postClose =>
    obtain ⟨hmarked, _⟩ := portStep_postClose_iff.mp hs
    rw [hjoining] at hmarked
    cases hmarked
  | runClose closeFails => simp
  | join => exact absurd rfl hact

/-- **On a closed device every step of the thread and of the device leaves less to
do.** -/
theorem winding_step {p p' : Port} {act : PortAct} (h : p.Winding) (hact : act ≠ .join)
    (hs : portStep p act = some p') : p'.Winding ∧ p'.work < p.work := by
  obtain ⟨hinv, hjoining, hshut⟩ := h
  have hinv' := portInv_step hinv hs
  rcases joining_cases hjoining hact hs with ⟨handler, closeFails, rfl⟩ | rfl |
    ⟨error, data, rfl⟩ | ⟨error, buffer, rfl⟩ | ⟨closeFails, rfl⟩
  · obtain ⟨_, s, hstep, rfl⟩ := portStep_serial_iff.mp hs
    obtain ⟨hrunning, hmem, rfl⟩ := step_run_iff.mp hstep
    refine ⟨⟨hinv', hjoining, Or.inl ?_⟩, ?_⟩
    · have hclosed := hshut.resolve_right (by rw [hrunning]; decide)
      simp [Port.portOpenAfter, hclosed]
    · have hstarted := started_runHandler
        { p.serial with posted := p.serial.posted.erase handler } closeFails handler
      obtain ⟨_, hthread, hposted, _⟩ := AsyncSerial.runHandler_untouched
        { p.serial with posted := p.serial.posted.erase handler } closeFails handler
      have hlen := List.length_erase_of_mem hmem
      have hpos := List.length_pos_of_mem hmem
      have hcount := (List.perm_cons_erase hmem).countP_eq Handler.starts
      rw [List.countP_cons] at hcount
      simp only [Port.work, hthread, hposted] at hstarted ⊢
      cases hstarts : handler.starts <;> simp [hstarts] at hstarted hcount <;> omega
  · obtain ⟨_, s, hstep, rfl⟩ := portStep_serial_iff.mp hs
    obtain ⟨⟨hrunning, _⟩, rfl⟩ := step_finish_iff.mp hstep
    exact ⟨⟨hinv', hjoining, Or.inr rfl⟩, by simp [Port.work, hrunning]⟩
  · obtain ⟨hallows, s, hstep, rfl⟩ := portStep_serial_iff.mp hs
    obtain ⟨⟨hpos, _⟩, rfl⟩ := step_readDone_iff.mp hstep
    have hrunning : p.serial.backgroundThread = .running := by
      by_contra hne
      have := (hinv.idle hne).1
      omega
    have hclosed := hshut.resolve_right (by rw [hrunning]; decide)
    have herror : error = true := by simpa [Port.allows, hclosed] using hallows
    refine ⟨⟨hinv', hjoining, Or.inl hclosed⟩, ?_⟩
    have hcount : (p.serial.posted ++ [Handler.readEnd error data]).countP Handler.starts
        = p.serial.posted.countP Handler.starts := by
      simp [List.countP_append, Handler.starts, herror]
    simp only [Port.work, AsyncSerial.post, hcount, hrunning, List.length_append,
      List.length_singleton, decide_true]
    omega
  · obtain ⟨hallows, s, hstep, rfl⟩ := portStep_serial_iff.mp hs
    obtain ⟨hmem, rfl⟩ := step_writeDone_iff.mp hstep
    have hrunning : p.serial.backgroundThread = .running := by
      by_contra hne
      rw [(hinv.idle hne).2] at hmem
      cases hmem
    have hclosed := hshut.resolve_right (by rw [hrunning]; decide)
    have herror : error = true := by simpa [Port.allows, hclosed] using hallows
    have hlen := List.length_erase_of_mem hmem
    have hpos := List.length_pos_of_mem hmem
    refine ⟨⟨hinv', hjoining, Or.inl hclosed⟩, ?_⟩
    have hcount : (p.serial.posted ++ [Handler.writeEnd error]).countP Handler.starts
        = p.serial.posted.countP Handler.starts := by
      simp [List.countP_append, Handler.starts, herror]
    simp only [Port.work, AsyncSerial.post, hcount, hrunning, List.length_append,
      List.length_singleton, decide_true]
    omega
  · obtain ⟨⟨hrunning, hpos⟩, rfl⟩ := portStep_runClose_iff.mp hs
    refine ⟨⟨hinv', hjoining, Or.inl rfl⟩, ?_⟩
    simp only [Port.work, doClose_eq]
    omega

/-- A thread that is not done has a step to make, or the device has. -/
theorem winding_progress {p : Port} (h : p.Winding) :
    p.serial.backgroundThread = .finished ∨
      ∃ act p', act ≠ .join ∧ portStep p act = some p' := by
  obtain ⟨hinv, hjoining, hshut⟩ := h
  have hstage := hinv.closing (by rw [hjoining]; decide)
  cases hthread : p.serial.backgroundThread with
  | finished => exact Or.inl rfl
  | notStarted => exact absurd hthread (hinv.started (by rw [hstage]; rfl))
  | running =>
    refine Or.inr ?_
    cases hposted : p.serial.posted with
    | cons handler rest =>
      have hmem : handler ∈ p.serial.posted := by rw [hposted]; exact List.mem_cons_self
      have hstep : step p.serial (.run handler false) = some _ :=
        step_run_iff.mpr ⟨hthread, hmem, rfl⟩
      exact ⟨_, _, by simp, portStep_of_step rfl hstep⟩
    | nil =>
      by_cases hreading : p.serial.reading = 0
      · cases hwriting : p.serial.writing with
        | cons buffer rest =>
          have hmem : buffer ∈ p.serial.writing := by rw [hwriting]; exact List.mem_cons_self
          have hstep : step p.serial (.writeDone true buffer) = some _ :=
            step_writeDone_iff.mpr ⟨hmem, rfl⟩
          exact ⟨_, _, by simp, portStep_of_step rfl hstep⟩
        | nil =>
          by_cases hcloses : p.closesPosted = 0
          · have hallows : p.allows .finish = true := by simpa [Port.allows] using hcloses
            exact ⟨_, _, by simp, portStep_of_step hallows
              (step_finish_iff.mpr ⟨⟨hthread, hposted, hreading, hwriting⟩, rfl⟩)⟩
          · exact ⟨.runClose false, _, by simp,
              portStep_runClose_iff.mpr ⟨⟨hthread, by omega⟩, rfl⟩⟩
      · have hstep : step p.serial (.readDone true []) = some _ :=
          step_readDone_iff.mpr ⟨⟨by omega, by simp⟩, rfl⟩
        exact ⟨_, _, by simp, portStep_of_step rfl hstep⟩

/-- The steps of a `close` that waits. -/
def NotJoin (_ : Port) (act : PortAct) : Prop := act ≠ .join

/-- **`close` comes back**: once `doClose` has run, or the thread is done, the thread
and the device have `work` steps left at most, however they interleave, and
wherever they stop `join` returns. -/
theorem close_returns {p : Port} (hreach : reopening.Reachable p)
    (hjoining : p.closing = .joining)
    (hclosed : p.portOpen = false ∨ p.serial.backgroundThread = .finished) :
    (∀ as q, (reopening.restrict NotJoin).Run p as q →
        as.length ≤ p.work ∧
          ((∃ act q', (reopening.restrict NotJoin).step q act q') ∨
            ∃ q', portStep q .join = some q')) ∧
      ∃ as q q', (reopening.restrict NotJoin).Run p as q ∧ portStep q .join = some q' := by
  have hwinding : p.Winding := ⟨portInv_reachable hreach, hjoining, hclosed⟩
  have hstep : ∀ q act q', q.Winding → (reopening.restrict NotJoin).step q act q' →
      q'.Winding ∧ q'.work < q.work :=
    fun q act q' hq hs => winding_step hq hs.1 (show portStep q act = some q' from hs.2)
  have hjoin : ∀ q : Port, q.Winding → q.serial.backgroundThread = .finished →
      ∃ q', portStep q .join = some q' :=
    fun q hq hdone => ⟨_, portStep_join_iff.mpr ⟨⟨hq.2.1, hdone⟩, rfl⟩⟩
  have hprogress : ∀ q : Port, q.Winding → q.serial.backgroundThread = .finished ∨
      ∃ act q', (reopening.restrict NotJoin).step q act q' := by
    intro q hq
    refine (winding_progress hq).imp_right ?_
    rintro ⟨act, q', hact, hs⟩
    exact ⟨act, q', hact, hs⟩
  constructor
  · intro as q hrun
    obtain ⟨hq, hle⟩ := hrun.length_add_le hstep hwinding
    refine ⟨by omega, ?_⟩
    rcases hprogress q hq with hdone | hmore
    · exact Or.inr (hjoin q hq hdone)
    · exact Or.inl hmore
  · obtain ⟨as, q, hrun, hq, hdone⟩ := LTS.exists_run_of_progress hstep hprogress p hwinding
    obtain ⟨q', hs⟩ := hjoin q hq hdone
    exact ⟨as, q, q', hrun, hs⟩

/-- The port is opened, read, and closed as far as `doClose`. -/
def closeRun : List PortAct :=
  [.serial .openNext, .serial .openNext, .serial .openNext, .serial .openNext, .serial .openNext,
    .serial (.run .doRead false), .close, .postClose, .runClose false]

theorem close_returns_closeRun :
    ∃ p as q q', exec portStep .constructed closeRun = some p ∧
      (reopening.restrict NotJoin).Run p as q ∧ portStep q .join = some q' := by
  have hsome : ∃ p ∈ exec portStep .constructed closeRun,
      p.closing = .joining ∧ p.portOpen = false := by decide
  obtain ⟨p, hp, hjoining, hclosed⟩ := hsome
  obtain ⟨_, as, q, q', hrun, hjoin⟩ :=
    close_returns (LTS.reachable_of_exec closeRun hp) hjoining (Or.inl hclosed)
  exact ⟨p, as, q, q', hp, hrun, hjoin⟩

/-! ## What `close` leaves -/

/-- The device is closed, and the `io_service` empty. -/
def Port.Clean (p : Port) : Prop :=
  p.portOpen = false ∧ p.closesPosted = 0 ∧ p.serial.posted = [] ∧ p.serial.reading = 0 ∧
    p.serial.writing = []

/-- A thread that is not running leaves the device nothing to end either. -/
theorem joining_running {p p' : Port} {act : PortAct} (hinv : PortInv p)
    (hjoining : p.closing = .joining) (hact : act ≠ .join) (hs : portStep p act = some p') :
    p.serial.backgroundThread = .running := by
  rcases joining_cases hjoining hact hs with ⟨handler, closeFails, rfl⟩ | rfl |
    ⟨error, data, rfl⟩ | ⟨error, buffer, rfl⟩ | ⟨closeFails, rfl⟩
  · obtain ⟨_, s, hstep, rfl⟩ := portStep_serial_iff.mp hs
    exact (step_run_iff.mp hstep).1
  · obtain ⟨_, s, hstep, rfl⟩ := portStep_serial_iff.mp hs
    exact (step_finish_iff.mp hstep).1.1
  · obtain ⟨_, s, hstep, rfl⟩ := portStep_serial_iff.mp hs
    have hpos := (step_readDone_iff.mp hstep).1.1
    by_contra hne
    have := (hinv.idle hne).1
    omega
  · obtain ⟨_, s, hstep, rfl⟩ := portStep_serial_iff.mp hs
    have hmem := (step_writeDone_iff.mp hstep).1
    by_contra hne
    rw [(hinv.idle hne).2] at hmem
    cases hmem
  · exact (portStep_runClose_iff.mp hs).1.1

/-- A running thread goes on running, or returns with all done. -/
theorem clean_step {p p' : Port} {act : PortAct} (hinv : PortInv p)
    (hjoining : p.closing = .joining) (hact : act ≠ .join) (hs : portStep p act = some p') :
    p'.closing = .joining ∧
      (p'.serial.backgroundThread = .running ∨
        (p'.serial.backgroundThread = .finished ∧ p'.Clean)) := by
  have hrunning := joining_running hinv hjoining hact hs
  rcases joining_cases hjoining hact hs with ⟨handler, closeFails, rfl⟩ | rfl |
    ⟨error, data, rfl⟩ | ⟨error, buffer, rfl⟩ | ⟨closeFails, rfl⟩
  · obtain ⟨_, s, hstep, rfl⟩ := portStep_serial_iff.mp hs
    obtain ⟨_, _, rfl⟩ := step_run_iff.mp hstep
    exact ⟨hjoining, Or.inl ((AsyncSerial.runHandler_untouched _ closeFails handler).2.1.trans hrunning)⟩
  · obtain ⟨hallows, s, hstep, rfl⟩ := portStep_serial_iff.mp hs
    obtain ⟨⟨_, hposted, hreading, hwriting⟩, rfl⟩ := step_finish_iff.mp hstep
    have hzero : p.closesPosted = 0 := by simpa [Port.allows] using hallows
    have hclosed := (hinv.coming hjoining hrunning).resolve_left (by omega)
    exact ⟨hjoining, Or.inr ⟨rfl, hclosed, hzero, hposted, hreading, hwriting⟩⟩
  · obtain ⟨_, s, hstep, rfl⟩ := portStep_serial_iff.mp hs
    obtain ⟨_, rfl⟩ := step_readDone_iff.mp hstep
    exact ⟨hjoining, Or.inl hrunning⟩
  · obtain ⟨_, s, hstep, rfl⟩ := portStep_serial_iff.mp hs
    obtain ⟨_, rfl⟩ := step_writeDone_iff.mp hstep
    exact ⟨hjoining, Or.inl hrunning⟩
  · obtain ⟨_, rfl⟩ := portStep_runClose_iff.mp hs
    simp only [doClose_eq]
    exact ⟨hjoining, Or.inl hrunning⟩

/-- What `join` finds: all done by a thread that was running when `doClose` was
posted, or nothing done at all, as nobody was there to make a step. -/
theorem joined_cases {p p₁ p₂ : Port} {as : List PortAct} (hreach : reopening.Reachable p)
    (hpost : portStep p .postClose = some p₁)
    (hrun : (reopening.restrict NotJoin).Run p₁ as p₂)
    (hfinished : p₂.serial.backgroundThread = .finished) :
    (p.serial.backgroundThread = .running ∧ p₂.Clean) ∨
      (p.serial.backgroundThread ≠ .running ∧ as = [] ∧ p₂ = p₁) := by
  have hinv₁ := portInv_step (portInv_reachable hreach) hpost
  obtain ⟨_, hp₁⟩ := portStep_postClose_iff.mp hpost
  have hthread : p₁.serial.backgroundThread = p.serial.backgroundThread := by rw [hp₁]
  have hjoining : p₁.closing = .joining := by rw [hp₁]
  by_cases hrunning : p.serial.backgroundThread = .running
  · refine Or.inl ⟨hrunning, ?_⟩
    have hdone : PortInv p₂ ∧ p₂.closing = .joining ∧ (p₂.serial.backgroundThread = .running ∨
        (p₂.serial.backgroundThread = .finished ∧ p₂.Clean)) := by
      refine hrun.invariant (I := fun r => PortInv r ∧ r.closing = .joining ∧
        (r.serial.backgroundThread = .running ∨
          (r.serial.backgroundThread = .finished ∧ r.Clean))) ?_
        ⟨hinv₁, hjoining, Or.inl (hthread.trans hrunning)⟩
      rintro r act r' ⟨hinv, hjoin, _⟩ ⟨hact, hs⟩
      change portStep r act = some r' at hs
      exact ⟨portInv_step hinv hs, clean_step hinv hjoin hact hs⟩
    rcases hdone.2.2 with hstill | hclean
    · rw [hfinished] at hstill
      cases hstill
    · exact hclean.2
  · have hstuck : ∀ act r, ¬ (reopening.restrict NotJoin).step p₁ act r := by
      rintro act r ⟨hact, hs⟩
      exact hrunning (hthread ▸ joining_running hinv₁ hjoining hact
        (show portStep p₁ act = some r from hs))
    have hstays : as = [] ∧ p₂ = p₁ := by
      clear hfinished
      induction hrun with
      | nil => exact ⟨rfl, rfl⟩
      | snoc _ hs ih => exact absurd (ih.2 ▸ hs) (hstuck _ _)
    exact Or.inr ⟨hrunning, hstays⟩

/-- **`close` leaves a closed device and an empty `io_service` exactly when the
thread was still running as `doClose` was posted.** Behind a thread that has
returned nothing runs at all until `join` is through, and the `doClose` stays where it
is. -/
theorem close_clean_iff {p p₁ p₂ q : Port} {as : List PortAct} (hreach : reopening.Reachable p)
    (hpost : portStep p .postClose = some p₁)
    (hrun : (reopening.restrict NotJoin).Run p₁ as p₂) (hjoin : portStep p₂ .join = some q) :
    (q.Clean ↔ p.serial.backgroundThread = .running) ∧
      (p.serial.backgroundThread ≠ .running → as = [] ∧ q.closesPosted = p.closesPosted + 1) := by
  obtain ⟨⟨_, hfinished⟩, rfl⟩ := portStep_join_iff.mp hjoin
  rcases joined_cases hreach hpost hrun hfinished with ⟨hrunning, hclean⟩ | ⟨hnot, has, rfl⟩
  · exact ⟨iff_of_true hclean hrunning, fun hnot => absurd hrunning hnot⟩
  · obtain ⟨_, rfl⟩ := portStep_postClose_iff.mp hpost
    refine ⟨iff_of_false ?_ hnot, fun _ => ⟨has, rfl⟩⟩
    rintro ⟨_, hzero, _⟩
    exact absurd hzero (Nat.succ_ne_zero _)

theorem close_clean_iff_failedRun :
    ∃ p p₁ q, exec portStep .constructed failedRun = some p ∧
      portStep p .postClose = some p₁ ∧ portStep p₁ .join = some q ∧
      (q.Clean ↔ p.serial.backgroundThread = .running) ∧ q.closesPosted = 1 := by
  have hsome : ∃ p ∈ exec portStep .constructed failedRun,
      (p.serial.backgroundThread ≠ .running ∧ p.closesPosted = 0) ∧
        ∃ p₁ ∈ portStep p .postClose, (portStep p₁ .join).isSome = true := by decide
  obtain ⟨p, hp, ⟨hnot, hzero⟩, p₁, hpost, hjoins⟩ := hsome
  obtain ⟨q, hjoin⟩ := Option.isSome_iff_exists.mp hjoins
  have hclose := close_clean_iff (LTS.reachable_of_exec failedRun hp) hpost .nil hjoin
  exact ⟨p, p₁, q, hp, hpost, hjoin, hclose.1, by rw [(hclose.2 hnot).2, hzero]⟩

/-! ## What a `close` has written -/

/-- A failed write is reported, or about to be. -/
def WriteReported (s : AsyncSerial) : Prop :=
  s.writeFailed = true → s.error = true ∨ .writeEnd true ∈ s.posted

theorem writeReported_run {s : AsyncSerial} (h : Handler) (closeFails : Bool)
    (hrep : WriteReported s) :
    WriteReported ({ s with posted := s.posted.erase h }.runHandler closeFails h) := by
  obtain ⟨_, _, hposted, hsame⟩ :=
    AsyncSerial.runHandler_untouched { s with posted := s.posted.erase h } closeFails h
  intro hfailed
  rcases hrep (hsame.symm.trans hfailed) with herror | hmem
  · exact Or.inl (error_runHandler closeFails h herror)
  · by_cases hh : h = .writeEnd true
    · subst hh
      rw [AsyncSerial.runHandler, AsyncSerial.writeEnd_error]
      exact Or.inl rfl
    · rw [hposted]
      exact Or.inr (mem_erase_other hh hmem)

/-- While `close` waits a failed write goes on being reported. -/
theorem writeReported_step {p p' : Port} {act : PortAct} (hjoining : p.closing = .joining)
    (hact : act ≠ .join) (hrep : WriteReported p.serial) (hs : portStep p act = some p') :
    p'.closing = .joining ∧ WriteReported p'.serial := by
  rcases joining_cases hjoining hact hs with ⟨handler, closeFails, rfl⟩ | rfl |
    ⟨error, data, rfl⟩ | ⟨error, buffer, rfl⟩ | ⟨closeFails, rfl⟩
  · obtain ⟨_, s, hstep, rfl⟩ := portStep_serial_iff.mp hs
    obtain ⟨_, _, rfl⟩ := step_run_iff.mp hstep
    exact ⟨hjoining, writeReported_run handler closeFails hrep⟩
  · obtain ⟨_, s, hstep, rfl⟩ := portStep_serial_iff.mp hs
    obtain ⟨_, rfl⟩ := step_finish_iff.mp hstep
    exact ⟨hjoining, hrep⟩
  · obtain ⟨_, s, hstep, rfl⟩ := portStep_serial_iff.mp hs
    obtain ⟨_, rfl⟩ := step_readDone_iff.mp hstep
    exact ⟨hjoining, fun hfailed => (hrep hfailed).imp_right (List.mem_append_left _)⟩
  · obtain ⟨_, s, hstep, rfl⟩ := portStep_serial_iff.mp hs
    obtain ⟨_, rfl⟩ := step_writeDone_iff.mp hstep
    refine ⟨hjoining, fun hfailed => ?_⟩
    cases error with
    | false =>
      have hbefore : p.serial.writeFailed = true := by simpa using hfailed
      exact (hrep hbefore).imp_right (List.mem_append_left _)
    | true => exact Or.inr (List.mem_append_right _ (List.mem_singleton.mpr rfl))
  · obtain ⟨_, rfl⟩ := portStep_runClose_iff.mp hs
    simp only [doClose_eq]
    refine ⟨hjoining, fun hfailed => (hrep hfailed).imp_left fun herror => ?_⟩
    simp [herror]

/-- "A" is being written as the port is closed. -/
def closingRun : List PortAct :=
  [.serial .openNext, .serial .openNext, .serial .openNext, .serial .openNext, .serial .openNext,
    .serial (.run .doRead false), .serial (.append [65]), .serial .postWrite,
    .serial (.run .doWrite false), .close]

/-- The write ends, and then the read of the closed device. -/
def closedRun : List PortAct :=
  [.serial (.writeDone false [65]), .runClose false, .serial (.readDone true []),
    .serial (.run (.writeEnd false) false), .serial (.run (.readEnd true []) false),
    .serial .finish]

end CarPi.Serial
