/-
CarPi.Serial.ReadTheorems — whether the health check of `startPolling`
(`errorStatus()` false, `isOpen()` true) tells that answers still arrive.

One read is under way from the post of `doRead` in `open` on: outstanding,
or its `doRead` or `readEnd` is posted (`liveReads`). Each handler passes it
on, except a `readEnd` with an error, which ends it. That handler reports the
error only if the port is already marked open. `open` marks it last, after
the thread is running and after it has cleared the error flag, so a read
that fails in between is dropped without a trace.

`step_read_cases` says what any step can do to the read, and the three
invariants below follow from it. `liveRead_iff_no_early_failure` says that the
early failure is the only way: in a state where `open` has returned and the
check passes, a read is alive exactly when no `readEnd` of the run came with an
error before the port was marked open. The Apple branch of the same file marks
the port open before it starts the thread.
-/
import CarPi.Serial.AsyncSerial

namespace CarPi.Serial

open CarPi.Foundation

/-! ## The read under way -/

def Handler.isRead : Handler → Bool
  | .doRead => true
  | .readEnd _ _ => true
  | .doWrite => false
  | .writeEnd _ => false

/-- A read is outstanding, or a handler of the read path is posted. -/
def LiveRead (s : AsyncSerial) : Prop :=
  0 < s.reading ∨ ∃ h ∈ s.posted, h.isRead = true

instance (s : AsyncSerial) : Decidable (LiveRead s) :=
  inferInstanceAs (Decidable (0 < s.reading ∨ ∃ h ∈ s.posted, h.isRead = true))

/-- Outstanding reads and posted handlers of the read path. -/
def liveReads (s : AsyncSerial) : Nat := s.reading + s.posted.countP Handler.isRead

theorem liveRead_iff_pos (s : AsyncSerial) : LiveRead s ↔ 0 < liveReads s := by
  rw [LiveRead, liveReads, ← List.countP_pos_iff]
  omega

/-- `open` has posted its `doRead`. -/
def OpenStage.readStarted : OpenStage → Bool
  | .constructed | .threw | .portOpened => false
  | .readPosted | .threadStarted | .errorCleared | .returned => true

/-! ## What the handlers do to it -/

theorem liveReads_post (s : AsyncSerial) (h : Handler) :
    liveReads (s.post h) = liveReads s + h.isRead.toNat := by
  cases hr : h.isRead <;> simp [liveReads, AsyncSerial.post, hr, Nat.add_assoc]

theorem liveReads_erase {s : AsyncSerial} {h : Handler} (hmem : h ∈ s.posted) :
    liveReads { s with posted := s.posted.erase h } + h.isRead.toNat = liveReads s := by
  have hperm := (List.perm_cons_erase hmem).countP_eq Handler.isRead
  rw [List.countP_cons] at hperm
  cases hr : h.isRead <;> simp [liveReads, hr] at hperm ⊢ <;> omega

/-- No handler touches what `open` keeps track of. -/
theorem runHandler_frame (s : AsyncSerial) (closeFails : Bool) (h : Handler) :
    (s.runHandler closeFails h).stage = s.stage ∧
      (s.runHandler closeFails h).open' = s.open' := by
  cases h with
  | doRead => exact ⟨rfl, rfl⟩
  | readEnd error data =>
    cases error with
    | false => simp [AsyncSerial.runHandler, AsyncSerial.readEnd_ok]
    | true =>
      rw [AsyncSerial.runHandler, AsyncSerial.readEnd_error]
      split <;> exact ⟨rfl, rfl⟩
  | doWrite =>
    simp only [AsyncSerial.runHandler, AsyncSerial.doWrite]
    split <;> exact ⟨rfl, rfl⟩
  | writeEnd error =>
    cases error with
    | false =>
      rw [AsyncSerial.runHandler, AsyncSerial.writeEnd_ok]
      split <;> exact ⟨rfl, rfl⟩
    | true => simp [AsyncSerial.runHandler, AsyncSerial.writeEnd_error, AsyncSerial.setErrorStatus]

/-- What a handler itself starts: one read, unless it writes or its read
failed. -/
def Handler.startsRead : Handler → Bool
  | .doRead => true
  | .readEnd error _ => !error
  | .doWrite => false
  | .writeEnd _ => false

theorem liveReads_runHandler (s : AsyncSerial) (closeFails : Bool) (h : Handler) :
    liveReads (s.runHandler closeFails h) = liveReads s + h.startsRead.toNat := by
  cases h with
  | doRead => simp [liveReads, AsyncSerial.runHandler, AsyncSerial.doRead, Handler.startsRead,
      Nat.add_right_comm]
  | readEnd error data =>
    cases error with
    | false => simp [liveReads, AsyncSerial.runHandler, AsyncSerial.readEnd_ok, Handler.startsRead,
        Nat.add_right_comm]
    | true =>
      rw [AsyncSerial.runHandler, AsyncSerial.readEnd_error]
      split <;> rfl
  | doWrite =>
    simp only [AsyncSerial.runHandler, AsyncSerial.doWrite]
    split <;> rfl
  | writeEnd error =>
    cases error with
    | false =>
      rw [AsyncSerial.runHandler, AsyncSerial.writeEnd_ok]
      split <;> rfl
    | true =>
      rw [AsyncSerial.runHandler, AsyncSerial.writeEnd_error]
      rfl

/-- A handler run ends the read it belonged to exactly when it is a `readEnd`
with an error. -/
theorem liveReads_run {s : AsyncSerial} {h : Handler} (hmem : h ∈ s.posted)
    (closeFails : Bool) :
    liveReads ({ s with posted := s.posted.erase h }.runHandler closeFails h)
        + h.isRead.toNat
      = liveReads s + h.startsRead.toNat := by
  have herase := liveReads_erase hmem
  rw [liveReads_runHandler]
  omega

/-- Once set, the error flag is cleared by no handler. -/
theorem error_runHandler {s : AsyncSerial} (closeFails : Bool) (h : Handler)
    (herr : s.error = true) : (s.runHandler closeFails h).error = true := by
  cases h with
  | doRead => exact herr
  | readEnd error data =>
    cases error with
    | false =>
      rw [AsyncSerial.runHandler, AsyncSerial.readEnd_ok]
      exact herr
    | true =>
      rw [AsyncSerial.runHandler, AsyncSerial.readEnd_error]
      split
      · rfl
      · exact herr
  | doWrite =>
    simp only [AsyncSerial.runHandler, AsyncSerial.doWrite]
    split <;> exact herr
  | writeEnd error =>
    cases error with
    | false =>
      rw [AsyncSerial.runHandler, AsyncSerial.writeEnd_ok]
      split <;> exact herr
    | true =>
      rw [AsyncSerial.runHandler, AsyncSerial.writeEnd_error]
      rfl

/-! ## What a step does to it -/

/-- The act runs a `readEnd` with an error, which ends the read. -/
def Act.endsRead : Act → Bool
  | .run (.readEnd error _) _ => error
  | _ => false

/-- A step that leaves `open` where it is: it takes no error back, and it ends a
read or leaves them as they are. -/
structure KeepsReads (s s' : AsyncSerial) (a : Act) : Prop where
  stage : s'.stage = s.stage
  marked : s'.open' = s.open'
  error : s.error = true → s'.error = true
  reads : liveReads s' + a.endsRead.toNat = liveReads s

theorem keepsReads_run {s : AsyncSerial} {h : Handler} (hmem : h ∈ s.posted)
    (closeFails : Bool) :
    KeepsReads s ({ s with posted := s.posted.erase h }.runHandler closeFails h)
      (.run h closeFails) := by
  have hframe := runHandler_frame { s with posted := s.posted.erase h } closeFails h
  have hreads := liveReads_run hmem closeFails
  refine ⟨hframe.1, hframe.2, fun he => error_runHandler closeFails h he, ?_⟩
  cases h with
  | readEnd error data =>
    cases error <;> simpa [Act.endsRead, Handler.isRead, Handler.startsRead] using hreads
  | _ => simpa [Act.endsRead, Handler.isRead, Handler.startsRead] using hreads

theorem liveReads_readDone {s : AsyncSerial} (hpos : 0 < s.reading) (error : Bool)
    (data : List UInt8) :
    liveReads { s.post (.readEnd error data) with reading := s.reading - 1 } = liveReads s := by
  have hpost := liveReads_post s (.readEnd error data)
  simp only [liveReads, AsyncSerial.post, Handler.isRead, Bool.toNat_true] at hpost ⊢
  omega

/-- Every step is one of `open`, or keeps the reads. -/
theorem step_read_cases {s s' : AsyncSerial} {a : Act} (hs : step s a = some s') :
    a = .openNext ∨ a = .openThrows ∨ KeepsReads s s' a := by
  cases a with
  | openNext => exact Or.inl rfl
  | openThrows => exact Or.inr (Or.inl rfl)
  | setCallback set =>
    obtain ⟨_, rfl⟩ := step_setCallback_iff.mp hs
    exact Or.inr (Or.inr ⟨rfl, rfl, id, rfl⟩)
  | append str =>
    obtain ⟨_, rfl⟩ := step_append_iff.mp hs
    exact Or.inr (Or.inr ⟨rfl, rfl, id, rfl⟩)
  | postWrite =>
    obtain ⟨_, rfl⟩ := step_postWrite_iff.mp hs
    exact Or.inr (Or.inr ⟨rfl, rfl, id, liveReads_post s .doWrite⟩)
  | run h closeFails =>
    obtain ⟨_, hmem, rfl⟩ := step_run_iff.mp hs
    exact Or.inr (Or.inr (keepsReads_run hmem closeFails))
  | finish =>
    obtain ⟨_, rfl⟩ := step_finish_iff.mp hs
    exact Or.inr (Or.inr ⟨rfl, rfl, id, rfl⟩)
  | readDone error data =>
    obtain ⟨⟨hpos, _⟩, rfl⟩ := step_readDone_iff.mp hs
    exact Or.inr (Or.inr ⟨rfl, rfl, id, liveReads_readDone hpos error data⟩)
  | writeDone error buffer =>
    obtain ⟨_, rfl⟩ := step_writeDone_iff.mp hs
    exact Or.inr (Or.inr ⟨rfl, rfl, id, liveReads_post s (.writeEnd error)⟩)

/-! ## One read at most -/

/-- There is no read before `open` posts one, and one at most from then on;
the port is marked open by the last step of `open`. -/
structure OneRead (s : AsyncSerial) : Prop where
  fresh : s.stage.readStarted = false → liveReads s = 0
  atMostOne : liveReads s ≤ 1
  marked : s.open' = true ↔ s.stage = .returned

theorem oneRead_constructed : OneRead .constructed :=
  ⟨fun _ => rfl, Nat.zero_le _, by decide⟩

theorem OneRead.keepsReads {s s' : AsyncSerial} {a : Act} (h : OneRead s)
    (hkeeps : KeepsReads s s' a) : OneRead s' := by
  have hle : liveReads s' ≤ liveReads s := Nat.le_of_add_right_le (Nat.le_of_eq hkeeps.reads)
  refine ⟨fun hfresh => ?_, Nat.le_trans hle h.atMostOne, ?_⟩
  · rw [hkeeps.stage] at hfresh
    have := h.fresh hfresh
    omega
  · rw [hkeeps.stage, hkeeps.marked]
    exact h.marked

theorem oneRead_step {s s' : AsyncSerial} {a : Act} (h : OneRead s)
    (hs : step s a = some s') : OneRead s' := by
  have hmarked := h.marked
  rcases step_read_cases hs with rfl | rfl | hkeeps
  · obtain ⟨_, ⟨hstage, rfl⟩ | ⟨hstage, rfl⟩ | ⟨hstage, rfl⟩ | ⟨hstage, rfl⟩ | ⟨hstage, rfl⟩⟩ :=
      step_openNext_cases hs
    · rw [hstage] at hmarked
      exact ⟨fun _ => h.fresh (by rw [hstage]; rfl), h.atMostOne,
        by simpa [AsyncSerial.setErrorStatus] using hmarked⟩
    · -- the read of this port starts here
      have hzero := h.fresh (by rw [hstage]; rfl)
      rw [hstage] at hmarked
      refine ⟨fun hfresh => absurd hfresh (by simp [OpenStage.readStarted]), ?_,
        by simpa [AsyncSerial.post] using hmarked⟩
      show liveReads (s.post .doRead) ≤ 1
      rw [liveReads_post, hzero]
      decide
    · rw [hstage] at hmarked
      exact ⟨fun hfresh => absurd hfresh (by simp [OpenStage.readStarted]), h.atMostOne,
        by simpa using hmarked⟩
    · rw [hstage] at hmarked
      exact ⟨fun hfresh => absurd hfresh (by simp [OpenStage.readStarted]), h.atMostOne,
        by simpa [AsyncSerial.setErrorStatus] using hmarked⟩
    · exact ⟨fun hfresh => absurd hfresh (by simp [OpenStage.readStarted]), h.atMostOne,
        by simp⟩
  · obtain ⟨⟨_, hstage⟩, rfl⟩ := step_openThrows_iff.mp hs
    rw [hstage] at hmarked
    exact ⟨fun _ => h.fresh (by rw [hstage]; rfl), h.atMostOne,
      by simpa [AsyncSerial.setErrorStatus] using hmarked⟩
  · exact h.keepsReads hkeeps

/-! ## A lost read stays lost -/

/-- `open` has posted its read, and it is gone. -/
def ReadLost (s : AsyncSerial) : Prop := s.stage.readStarted = true ∧ liveReads s = 0

theorem readLost_step {s s' : AsyncSerial} {a : Act} (h : ReadLost s)
    (hs : step s a = some s') : ReadLost s' := by
  obtain ⟨hstarted, hzero⟩ := h
  rcases step_read_cases hs with rfl | rfl | hkeeps
  · obtain ⟨_, ⟨hstage, rfl⟩ | ⟨hstage, rfl⟩ | ⟨hstage, rfl⟩ | ⟨hstage, rfl⟩ | ⟨hstage, rfl⟩⟩ :=
      step_openNext_cases hs
    · rw [hstage] at hstarted; cases hstarted
    · rw [hstage] at hstarted; cases hstarted
    · exact ⟨rfl, hzero⟩
    · exact ⟨rfl, hzero⟩
    · exact ⟨rfl, hzero⟩
  · obtain ⟨⟨_, hstage⟩, rfl⟩ := step_openThrows_iff.mp hs
    rw [hstage] at hstarted
    cases hstarted
  · have hreads := hkeeps.reads
    exact ⟨by rw [hkeeps.stage]; exact hstarted, by omega⟩

/-! ## The health check -/

/-- A `readEnd` with an error runs only once the port is marked open. -/
def FailsOnlyWhenOpen (s : AsyncSerial) (a : Act) : Prop :=
  ∀ data closeFails, a = .run (.readEnd true data) closeFails → s.isOpen = true

theorem endsRead_iff (a : Act) :
    a.endsRead = true ↔ ∃ data closeFails, a = .run (.readEnd true data) closeFails := by
  cases a with
  | run h closeFails => cases h <;> simp [Act.endsRead]
  | _ => simp [Act.endsRead]

/-- The read is alive, or its end was reported. -/
def ReadReported (s : AsyncSerial) : Prop :=
  s.stage.readStarted = true →
    0 < liveReads s ∨ (s.stage = .returned ∧ s.error = true)

/-- A read that ends on a port marked open is reported. -/
theorem error_of_endsRead {s s' : AsyncSerial} {a : Act} (hopen : s.isOpen = true)
    (hends : a.endsRead = true) (hs : step s a = some s') : s'.error = true := by
  obtain ⟨data, closeFails, rfl⟩ := (endsRead_iff a).mp hends
  obtain ⟨_, _, rfl⟩ := step_run_iff.mp hs
  have hopen' : { s with posted := s.posted.erase (.readEnd true data) }.isOpen = true := hopen
  rw [AsyncSerial.runHandler, AsyncSerial.readEnd_error, if_pos hopen']
  rfl

/-- One step of a run in which reads fail only once the port is open. -/
theorem readReported_step {s s' : AsyncSerial} {a : Act} (hone : OneRead s)
    (h : ReadReported s) (hok : FailsOnlyWhenOpen s a) (hs : step s a = some s') :
    ReadReported s' := by
  rcases step_read_cases hs with rfl | rfl | hkeeps
  · -- until the port is marked open, the read must be alive
    have hlive : s.stage.readStarted = true → s.stage ≠ .returned → 0 < liveReads s :=
      fun hstarted hne => (h hstarted).resolve_right fun hret => hne hret.1
    obtain ⟨_, ⟨hstage, rfl⟩ | ⟨hstage, rfl⟩ | ⟨hstage, rfl⟩ | ⟨hstage, rfl⟩ | ⟨hstage, rfl⟩⟩ :=
      step_openNext_cases hs
    · intro hstarted; cases hstarted
    · intro _
      refine Or.inl ?_
      show 0 < liveReads (s.post .doRead)
      rw [liveReads_post]
      exact Nat.succ_pos _
    · exact fun _ => Or.inl (hlive (by rw [hstage]; rfl) (by simp [hstage]))
    · exact fun _ => Or.inl (hlive (by rw [hstage]; rfl) (by simp [hstage]))
    · exact fun _ => Or.inl (hlive (by rw [hstage]; rfl) (by simp [hstage]))
  · obtain ⟨_, rfl⟩ := step_openThrows_iff.mp hs
    intro hstarted
    cases hstarted
  · intro hstarted
    rw [hkeeps.stage] at hstarted
    have hreads := hkeeps.reads
    cases hends : a.endsRead with
    | true =>
      obtain ⟨data, closeFails, rfl⟩ := (endsRead_iff a).mp hends
      have hopen := hok data closeFails rfl
      refine Or.inr ⟨?_, error_of_endsRead hopen hends hs⟩
      rw [hkeeps.stage]
      exact hone.marked.mp hopen
    | false =>
      rw [hends, Bool.toNat_false, Nat.add_zero] at hreads
      rcases h hstarted with hlive | ⟨hret, herr⟩
      · exact Or.inl (by omega)
      · exact Or.inr ⟨hkeeps.stage.trans hret, hkeeps.error herr⟩

/-- A run in which reads fail only once the port is open reports every end of
its read. -/
theorem readReported_of_restrict {s : AsyncSerial} {as : List Act}
    (h : (asyncSerial.restrict FailsOnlyWhenOpen).Run .constructed as s) : ReadReported s := by
  have hboth : OneRead s ∧ ReadReported s := by
    refine h.invariant (I := fun s => OneRead s ∧ ReadReported s) ?_ ?_
    · rintro s a s' ⟨hone, hrep⟩ ⟨hok, hs⟩
      have hs' : step s a = some s' := hs
      exact ⟨oneRead_step hone hs', readReported_step hone hrep hok hs'⟩
    · exact ⟨oneRead_constructed, fun hstarted => by cases hstarted⟩
  exact hboth.2

/-- A `readEnd` with an error, before the port is marked open, loses the read. -/
theorem readLost_of_early_failure {s s' : AsyncSerial} {a : Act} (hone : OneRead s)
    (hbad : ¬ FailsOnlyWhenOpen s a) (hs : step s a = some s') : ReadLost s' := by
  unfold FailsOnlyWhenOpen at hbad
  push Not at hbad
  obtain ⟨data, closeFails, rfl, _⟩ := hbad
  have hkeeps := (step_read_cases hs).resolve_left (by simp) |>.resolve_left (by simp)
  have hreads : liveReads s' + 1 = liveReads s := hkeeps.reads
  have hmost := hone.atMostOne
  refine ⟨?_, by omega⟩
  rw [hkeeps.stage]
  by_contra hnot
  have := hone.fresh (by simpa using hnot)
  omega

/-- **Where the check of `startPolling` passes, a read is alive exactly when no
read of the run failed before the port was marked open.** -/
theorem liveRead_iff_no_early_failure {as : List Act} {s : AsyncSerial}
    (hrun : asyncSerial.Run .constructed as s) (hreturned : s.stage = .returned)
    (hcheck : s.errorStatus = false ∧ s.isOpen = true) :
    LiveRead s ↔ (asyncSerial.restrict FailsOnlyWhenOpen).Run .constructed as s := by
  rw [liveRead_iff_pos]
  refine ⟨fun hlive => ?_, fun hgood => ?_⟩
  · rcases hrun.restrict_or FailsOnlyWhenOpen with
      hgood | ⟨s₁, a, s₂, as₁, as₂, hbefore, hstep, hbad, hafter⟩
    · exact hgood
    · have hone : OneRead s₁ := hbefore.invariant
        (fun s a s' h hs => oneRead_step h (show step s a = some s' from hs))
        oneRead_constructed
      have hlost : ReadLost s := hafter.invariant
        (fun s a s' h hs => readLost_step h (show step s a = some s' from hs))
        (readLost_of_early_failure hone hbad hstep)
      have := hlost.2
      omega
  · rcases readReported_of_restrict hgood (by rw [hreturned]; rfl) with hlive | ⟨_, herr⟩
    · exact hlive
    · rw [show s.error = false from hcheck.1] at herr
      cases herr

/-- `open` runs through, and its read starts. -/
def openRun : List Act :=
  [.openNext, .openNext, .openNext, .openNext, .openNext, .run .doRead false]

theorem liveRead_iff_openRun :
    ∃ s, exec step .constructed openRun = some s ∧ s.stage = .returned ∧
      (s.errorStatus = false ∧ s.isOpen = true) ∧
      (LiveRead s ↔ (asyncSerial.restrict FailsOnlyWhenOpen).Run .constructed openRun s) := by
  have hsome : ∃ s ∈ exec step .constructed openRun,
      s.stage = .returned ∧ s.errorStatus = false ∧ s.isOpen = true := by decide
  obtain ⟨s, hs, hret, hcheck⟩ := hsome
  exact ⟨s, hs, hret, hcheck, liveRead_iff_no_early_failure (LTS.run_of_exec hs) hret hcheck⟩

/-- The read fails while `open` has not yet marked the port. -/
def earlyFailureRun : List Act :=
  [.openNext, .openNext, .openNext, .run .doRead false, .readDone true [],
    .run (.readEnd true []) false, .openNext, .openNext]

/-- The check passes, and nothing will ever be read. -/
theorem check_passes_on_dead_port :
    ¬ ∀ s, asyncSerial.Reachable s → s.stage = .returned →
      s.errorStatus = false ∧ s.isOpen = true → LiveRead s := by
  intro h
  have hsome : ∃ s ∈ exec step .constructed earlyFailureRun,
      s.stage = .returned ∧ (s.errorStatus = false ∧ s.isOpen = true) ∧ ¬ LiveRead s := by decide
  obtain ⟨s, hs, hret, hcheck, hdead⟩ := hsome
  exact hdead (h s (LTS.reachable_of_exec earlyFailureRun hs) hret hcheck)

end CarPi.Serial
