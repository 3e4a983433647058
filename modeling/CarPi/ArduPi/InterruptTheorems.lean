/-
CarPi.ArduPi.InterruptTheorems — what a run of `attachInterrupt` and
`detachInterrupt` leaves, the threads taking their steps in between.

The threads that nobody has cancelled go as if a cancellation were the end
(`live_cancel`, `live_step`), so they are those the last call for each pin asked for
(`Served`). What the others still do is bounded: a thread that has been cancelled
begins at most one more call (`calls_of_doomed`), but that one may run beside the
thread attached in its place (`attach_beside`).
-/
import CarPi.ArduPi.Interrupts

namespace CarPi.ArduPi

open CarPi.Foundation

variable {REV : Nat} {F : Type}

/-! ## What a run leaves -/

/-- The Arduino number of a number of the chip. -/
def arduinoOf : Nat → Nat
  | 18 => 2
  | 23 => 3
  | 24 => 4
  | 25 => 5
  | 4 => 6
  | 17 => 7
  | 21 => 8
  | 27 => 8
  | 22 => 9
  | 8 => 10
  | 10 => 11
  | 9 => 12
  | 11 => 13
  | _ => 0

theorem arduinoOf_of_known {a n : Nat} (h : raspberryPinNumber REV a = some n) :
    arduinoOf n = a := by
  unfold raspberryPinNumber at h
  split at h <;> (try split at h) <;> cases h <;> rfl

/-- The numbers of the chip are different for different pins, and the same for the same. -/
theorem gpio_eq_iff {p q : Pin REV} : p.gpio = q.gpio ↔ p.arduino = q.arduino := by
  constructor
  · intro h
    rw [← arduinoOf_of_known p.known, h, arduinoOf_of_known q.known]
  · intro h
    have hp := p.known
    rw [h, q.known] at hp
    exact (Option.some.inj hp).symm

/-- What a call asks for: a function and an edge, or neither. -/
def InterruptAct.update : InterruptAct REV F → Option (Nat × Option (ThreadArg F × Edge))
  | .attach p f m => some (p.arduino, some (⟨f, p.gpio⟩, m.edge))
  | .detach p => some (p.arduino, none)
  | .thread _ _ => none

/-- What the last call for a pin asked for. -/
def requested (acts : List (InterruptAct REV F)) (p : Pin REV) : Option (ThreadArg F × Edge) :=
  (lastFor p.arduino (acts.filterMap InterruptAct.update)).join

theorem requested_concat_call (acts : List (InterruptAct REV F)) {act : InterruptAct REV F}
    {a : Nat} {x : Option (ThreadArg F × Edge)} (hact : act.update = some (a, x)) (p : Pin REV) :
    requested (acts ++ [act]) p = if p.arduino = a then x else requested acts p := by
  unfold requested
  rw [List.filterMap_append, List.filterMap_cons_some hact, List.filterMap_nil, lastFor_concat]
  split <;> rfl

theorem requested_concat_thread (acts : List (InterruptAct REV F)) (id : Nat) (act : ThreadAct)
    (p : Pin REV) : requested (acts ++ [.thread id act]) p = requested acts p := by
  unfold requested
  rw [List.filterMap_append, List.filterMap_cons_none rfl, List.filterMap_nil, List.append_nil]

/-- A thread is created for the pin its argument names. -/
theorem pin_of_requested {acts : List (InterruptAct REV F)} {p : Pin REV} {arg : ThreadArg F}
    {e : Edge} (h : requested acts p = some (arg, e)) : arg.pin = p.gpio := by
  induction acts using List.reverseRecOn with
  | nil => cases h
  | append_singleton acts act ih =>
    cases act with
    | attach q f m =>
      rw [requested_concat_call acts rfl] at h
      split at h
      · next heq =>
        obtain ⟨rfl, -⟩ := Prod.mk.inj (Option.some.inj h)
        exact (gpio_eq_iff.mpr heq).symm
      · exact ih h
    | detach q =>
      rw [requested_concat_call acts rfl] at h
      split at h
      · cases h
      · exact ih h
    | thread id act =>
      rw [requested_concat_thread] at h
      exact ih h

/-! ## The threads that nobody has cancelled

To them a cancellation is the end, whenever the thread gets there. -/

theorem live_cancel (s : Interrupts F) (id : Nat) :
    (s.pthread_cancel id).live = Function.update s.live id none := by
  funext other
  by_cases hid : other = id
  · subst hid
    rw [Function.update_self]
    cases h : s.threads other <;>
      simp [Interrupts.live, Interrupts.pthread_cancel, h, Thread.cancel, Thread.live]
  · simp [Interrupts.live, Interrupts.pthread_cancel, s.setThread_of_ne hid,
      Function.update_of_ne hid]

theorem live_create (s : Interrupts F) (pin : Nat) (arg : ThreadArg F) :
    (s.pthread_create pin arg).live = Function.update s.live (s.created + 1) (some arg) := by
  funext other
  by_cases hid : other = s.created + 1
  · subst hid
    simp [Interrupts.live, Interrupts.pthread_create, Thread.live]
  · simp [Interrupts.live, Interrupts.pthread_create, Function.update_of_ne hid]

/-- A step of its own ends no thread that nobody has cancelled. -/
theorem live_step {t : Thread F} {act : ThreadAct} {t' : Option (Thread F)}
    (h : t.step act = some t') : t'.bind Thread.live = t.live := by
  cases act with
  | call =>
    simp only [Thread.step, Option.ite_none_right_eq_some, Option.some.injEq] at h
    obtain ⟨-, rfl⟩ := h
    rfl
  | back =>
    simp only [Thread.step, Option.ite_none_right_eq_some, Option.some.injEq] at h
    obtain ⟨-, rfl⟩ := h
    cases hcancelled : t.cancelled <;> simp [Thread.live, hcancelled]
  | finish =>
    simp only [Thread.step, Option.ite_none_right_eq_some, Option.some.injEq] at h
    obtain ⟨hcancelled, rfl⟩ := h
    simp [Thread.live, hcancelled]

/-- The threads are numbered, and no two pins share a live one. -/
structure InterruptInv (REV : Nat) (s : Interrupts F) : Prop where
  fresh : ∀ id, s.created < id → s.threads id = none
  issued : ∀ a, s.threadId a ≤ s.created
  zero : s.threads 0 = none
  owned : ∀ id arg, s.live id = some arg → ∃ p : Pin REV, s.threadId p.arduino = id
  apart : ∀ a b, s.threadId a = s.threadId b → s.threadId a ≠ 0 → a = b

/-- There is no thread zero to cancel: `attachInterrupt` comes to the same in one way or
the other. -/
theorem attachInterrupt_eq {s : Interrupts F} (h : InterruptInv REV s) (p : Pin REV) (f : F)
    (m : Digivalue) :
    s.attachInterrupt p f m =
      { (s.pthread_cancel (s.threadId p.arduino)).pthread_create p.arduino ⟨f, p.gpio⟩ with
        edge := Function.update s.edge p.gpio (some m.edge) } := by
  unfold Interrupts.attachInterrupt
  by_cases hzero : s.threadId p.arduino = 0
  · have hsame : s.pthread_cancel 0 = s := by
      have hnone : Function.update s.threads 0 ((s.threads 0).map Thread.cancel) = s.threads :=
        Function.update_eq_self_iff.mpr (by rw [h.zero]; rfl)
      simp only [Interrupts.pthread_cancel, Interrupts.setThread, hnone]
    simp only [hzero, if_true, hsame]
    rfl
  · simp only [hzero, if_false]
    rfl

theorem live_attach {s : Interrupts F} (h : InterruptInv REV s) (p : Pin REV) (f : F)
    (m : Digivalue) :
    (s.attachInterrupt p f m).live =
      Function.update (Function.update s.live (s.threadId p.arduino) none) (s.created + 1)
        (some ⟨f, p.gpio⟩) := by
  rw [attachInterrupt_eq h, ← live_cancel]
  exact live_create _ p.arduino ⟨f, p.gpio⟩

theorem live_detach (s : Interrupts F) (p : Pin REV) :
    (s.detachInterrupt p).live = Function.update s.live (s.threadId p.arduino) none :=
  live_cancel s (s.threadId p.arduino)

theorem threadId_attach {s : Interrupts F} (h : InterruptInv REV s) (p : Pin REV) (f : F)
    (m : Digivalue) :
    (s.attachInterrupt p f m).threadId =
      Function.update s.threadId p.arduino (s.created + 1) := by
  rw [attachInterrupt_eq h]
  rfl

theorem created_attach {s : Interrupts F} (h : InterruptInv REV s) (p : Pin REV) (f : F)
    (m : Digivalue) : (s.attachInterrupt p f m).created = s.created + 1 := by
  rw [attachInterrupt_eq h]
  rfl

theorem edge_attach {s : Interrupts F} (h : InterruptInv REV s) (p : Pin REV) (f : F)
    (m : Digivalue) :
    (s.attachInterrupt p f m).edge = Function.update s.edge p.gpio (some m.edge) := by
  rw [attachInterrupt_eq h]

theorem cancel_eq_none {s : Interrupts F} (cancelled : Nat) {id : Nat} (h : s.threads id = none) :
    (s.pthread_cancel cancelled).threads id = none := by
  by_cases hid : id = cancelled
  · subst hid
    simp [Interrupts.pthread_cancel, h]
  · rw [Interrupts.pthread_cancel, s.setThread_of_ne hid, h]

/-- Of the threads that were there `attachInterrupt` cancels the one it finds. -/
theorem threads_attach {s : Interrupts F} (h : InterruptInv REV s) (p : Pin REV) (f : F)
    (m : Digivalue) {id : Nat} (hid : id ≠ s.created + 1) :
    (s.attachInterrupt p f m).threads id =
      (s.pthread_cancel (s.threadId p.arduino)).threads id := by
  rw [attachInterrupt_eq h]
  exact Function.update_of_ne hid _ _

/-- A live thread behind a cancellation was live before it, and is not the one cancelled. -/
theorem of_live_cancelled {live : Nat → Option (ThreadArg F)} {cancelled id : Nat}
    {arg : ThreadArg F} (h : Function.update live cancelled none id = some arg) :
    id ≠ cancelled ∧ live id = some arg := by
  by_cases hid : id = cancelled
  · rw [hid, Function.update_self] at h
    cases h
  · rw [Function.update_of_ne hid] at h
    exact ⟨hid, h⟩

/-- Cancelling the thread of one pin leaves those of the others live. -/
theorem live_of_ne {s : Interrupts F} (h : InterruptInv REV s) {a b : Nat} (hne : b ≠ a) :
    Function.update s.live (s.threadId a) none (s.threadId b) = s.live (s.threadId b) := by
  by_cases hsame : s.threadId b = s.threadId a
  · have hb : s.threadId b = 0 := by
      by_contra hpos
      exact hne (h.apart b a hsame hpos)
    have hzero : s.live 0 = none := by rw [Interrupts.live, h.zero]; rfl
    rw [hsame, Function.update_self, ← hsame, hb, hzero]
  · rw [Function.update_of_ne hsame]

theorem InterruptInv.attach {s : Interrupts F} (h : InterruptInv REV s) (p : Pin REV) (f : F)
    (m : Digivalue) : InterruptInv REV (s.attachInterrupt p f m) := by
  have hissued := h.issued
  refine ⟨?_, ?_, ?_, ?_, ?_⟩
  · intro id hid
    rw [created_attach h] at hid
    rw [threads_attach h p f m (by omega)]
    exact cancel_eq_none _ (h.fresh id (by omega))
  · intro a
    rw [threadId_attach h, created_attach h]
    by_cases ha : a = p.arduino
    · simp only [ha, Function.update_self, Nat.le_refl]
    · rw [Function.update_of_ne ha]
      exact Nat.le_succ_of_le (hissued a)
  · rw [threads_attach h p f m (Nat.succ_ne_zero _).symm]
    exact cancel_eq_none _ h.zero
  · intro id arg hlive
    rw [live_attach h] at hlive
    rw [threadId_attach h]
    by_cases hnew : id = s.created + 1
    · exact ⟨p, by rw [hnew, Function.update_self]⟩
    · rw [Function.update_of_ne hnew] at hlive
      obtain ⟨hcancelled, hbefore⟩ := of_live_cancelled hlive
      obtain ⟨q, rfl⟩ := h.owned id arg hbefore
      have hne : q.arduino ≠ p.arduino := fun heq => hcancelled (by rw [heq])
      exact ⟨q, by rw [Function.update_of_ne hne]⟩
  · intro a b heq hpos
    rw [threadId_attach h] at heq hpos
    have ha := hissued a
    have hb := hissued b
    by_cases hap : a = p.arduino <;> by_cases hbp : b = p.arduino
    · rw [hap, hbp]
    · rw [hap, Function.update_self, Function.update_of_ne hbp] at heq
      omega
    · rw [hbp, Function.update_self, Function.update_of_ne hap] at heq
      omega
    · rw [Function.update_of_ne hap] at heq hpos
      rw [Function.update_of_ne hbp] at heq
      exact h.apart a b heq hpos

theorem InterruptInv.detach {s : Interrupts F} (h : InterruptInv REV s) (p : Pin REV) :
    InterruptInv REV (s.detachInterrupt p) := by
  refine ⟨?_, h.issued, ?_, ?_, h.apart⟩
  · exact fun id hid => cancel_eq_none _ (h.fresh id hid)
  · exact cancel_eq_none _ h.zero
  · intro id arg hlive
    rw [live_detach] at hlive
    exact h.owned id arg (of_live_cancelled hlive).2

/-- What a step of a thread leaves as it was. -/
theorem thread_cases {s s' : Interrupts F} {id : Nat} {act : ThreadAct}
    (hs : (interruptStep s (.thread id act : InterruptAct REV F)) = some s') :
    ∃ t t', s.threads id = some t ∧ t.step act = some t' ∧ s' = s.setThread id t' := by
  obtain ⟨t, ht, hmap⟩ := Option.bind_eq_some_iff.mp hs
  obtain ⟨t', hstep, rfl⟩ := Option.map_eq_some_iff.mp hmap
  exact ⟨t, t', ht, hstep, rfl⟩

theorem live_thread {s : Interrupts F} {id : Nat} {act : ThreadAct} {t : Thread F}
    {t' : Option (Thread F)} (ht : s.threads id = some t) (hstep : t.step act = some t') :
    (s.setThread id t').live = s.live := by
  funext other
  by_cases hid : other = id
  · subst hid
    simp [Interrupts.live, ht, live_step hstep]
  · simp [Interrupts.live, s.setThread_of_ne hid]

theorem InterruptInv.thread {s : Interrupts F} (h : InterruptInv REV s) {id : Nat}
    {act : ThreadAct} {t : Thread F} {t' : Option (Thread F)} (ht : s.threads id = some t)
    (hstep : t.step act = some t') :
    InterruptInv REV (s.setThread id t') := by
  -- an id without a thread is not the one that takes the step
  have hother : ∀ other, s.threads other = none → (s.setThread id t').threads other = none := by
    intro other hnone
    have hne : other ≠ id := by
      rintro rfl
      rw [hnone] at ht
      cases ht
    rw [s.setThread_of_ne hne, hnone]
  refine ⟨fun other hid => hother other (h.fresh other hid), h.issued, hother 0 h.zero, ?_,
    h.apart⟩
  rw [live_thread ht hstep]
  exact h.owned

theorem InterruptInv.step {s s' : Interrupts F} {act : InterruptAct REV F}
    (h : InterruptInv REV s) (hs : interruptStep s act = some s') : InterruptInv REV s' := by
  cases act with
  | attach p f m =>
    obtain rfl := Option.some.inj hs
    exact h.attach p f m
  | detach p =>
    simp only [interruptStep, Option.ite_none_left_eq_some, Option.some.injEq] at hs
    obtain ⟨-, rfl⟩ := hs
    exact h.detach p
  | thread id act =>
    obtain ⟨t, t', ht, hstep, rfl⟩ := thread_cases hs
    exact h.thread ht hstep

theorem interruptInv_none : InterruptInv REV (Interrupts.none : Interrupts F) where
  fresh := fun _ _ => rfl
  issued := fun _ => Nat.le_refl 0
  zero := rfl
  owned := fun _ _ h => by cases h
  apart := fun _ _ _ h => absurd rfl h

/-- The live thread and the edge of each pin are what the last call for it asked for. -/
def Served (acts : List (InterruptAct REV F)) (s : Interrupts F) : Prop :=
  ∀ p : Pin REV, s.live (s.threadId p.arduino) = (requested acts p).map Prod.fst ∧
    s.edge p.gpio = (requested acts p).map Prod.snd

theorem Served.attach {acts : List (InterruptAct REV F)} {s : Interrupts F}
    (h : InterruptInv REV s) (hserved : Served acts s) (p : Pin REV) (f : F) (m : Digivalue) :
    Served (acts ++ [.attach p f m]) (s.attachInterrupt p f m) := by
  intro q
  rw [requested_concat_call acts rfl, live_attach h, threadId_attach h, edge_attach h]
  by_cases hq : q.arduino = p.arduino
  · have hgpio : q.gpio = p.gpio := gpio_eq_iff.mpr hq
    simp [hq, hgpio]
  · have hgpio : q.gpio ≠ p.gpio := fun heq => hq (gpio_eq_iff.mp heq)
    have hid : s.threadId q.arduino ≠ s.created + 1 := by
      have := h.issued q.arduino
      omega
    rw [if_neg hq, Function.update_of_ne hq, Function.update_of_ne hid,
      Function.update_of_ne hgpio, live_of_ne h hq]
    exact hserved q

theorem Served.detach {acts : List (InterruptAct REV F)} {s : Interrupts F}
    (h : InterruptInv REV s) (hserved : Served acts s) (p : Pin REV) :
    Served (acts ++ [.detach p]) (s.detachInterrupt p) := by
  intro q
  change (s.detachInterrupt p).live (s.threadId q.arduino) = _ ∧
    Function.update s.edge p.gpio none q.gpio = _
  rw [requested_concat_call acts rfl, live_detach]
  by_cases hq : q.arduino = p.arduino
  · have hgpio : q.gpio = p.gpio := gpio_eq_iff.mpr hq
    simp [hq, hgpio]
  · have hgpio : q.gpio ≠ p.gpio := fun heq => hq (gpio_eq_iff.mp heq)
    rw [if_neg hq, Function.update_of_ne hgpio, live_of_ne h hq]
    exact hserved q

/-- A call serves its own pin, and leaves the others as they are because no two pins
share a thread; a thread changes nothing that was asked for. -/
theorem Served.step {acts : List (InterruptAct REV F)} {s s' : Interrupts F}
    {act : InterruptAct REV F} (h : InterruptInv REV s) (hserved : Served acts s)
    (hs : interruptStep s act = some s') : Served (acts ++ [act]) s' := by
  cases act with
  | attach p f m =>
    obtain rfl := Option.some.inj hs
    exact hserved.attach h p f m
  | detach p =>
    simp only [interruptStep, Option.ite_none_left_eq_some, Option.some.injEq] at hs
    obtain ⟨-, rfl⟩ := hs
    exact hserved.detach h p
  | thread id act =>
    obtain ⟨t, t', ht, hstep, rfl⟩ := thread_cases hs
    intro q
    rw [requested_concat_thread, live_thread ht hstep]
    exact hserved q

theorem interruptInv_of_run {acts : List (InterruptAct REV F)} {s : Interrupts F}
    (h : (interrupts REV F).Run .none acts s) : InterruptInv REV s ∧ Served acts s := by
  induction h with
  | nil => exact ⟨interruptInv_none, fun _ => ⟨rfl, rfl⟩⟩
  | snoc _ hs ih => exact ⟨ih.1.step hs, ih.2.step ih.1 hs⟩

/-! ## The threads that have been cancelled -/

/-- How many calls a cancelled thread may still begin. -/
def callsLeft : Option (Thread F) → Nat
  | none => 0
  | some t => if t.stage = .waiting then 1 else 0

/-- The thread begins to call its function. -/
def InterruptAct.calls (id : Nat) : InterruptAct REV F → Bool
  | .thread other .call => other = id
  | _ => false

/-- A cancelled thread stays cancelled until it ends, and uses up its call. -/
theorem cancelled_step {t : Thread F} {act : ThreadAct} {t' : Option (Thread F)}
    (hcancelled : t.cancelled = true) (h : t.step act = some t') :
    (∀ u ∈ t', u.cancelled = true) ∧
      (if act = .call then 1 else 0) + callsLeft t' ≤ callsLeft (some t) := by
  cases act with
  | call =>
    simp only [Thread.step, Option.ite_none_right_eq_some, Option.some.injEq] at h
    obtain ⟨hwaiting, rfl⟩ := h
    simp [callsLeft, hwaiting, hcancelled]
  | back =>
    simp only [Thread.step, hcancelled, if_true, Option.ite_none_right_eq_some,
      Option.some.injEq] at h
    obtain ⟨-, rfl⟩ := h
    simp [callsLeft]
  | finish =>
    simp only [Thread.step, hcancelled, if_true, Option.some.injEq] at h
    subst h
    simp [callsLeft]

/-- The thread has been created, and cancelled unless it has ended. -/
def Doomed (s : Interrupts F) (id : Nat) : Prop :=
  id ≤ s.created ∧ ∀ t ∈ s.threads id, t.cancelled = true

/-- To cancel a thread again does nothing. -/
theorem cancel_doomed {s : Interrupts F} {id : Nat} (h : Doomed s id) (cancelled : Nat) :
    (s.pthread_cancel cancelled).threads id = s.threads id := by
  by_cases hid : id = cancelled
  · subst hid
    rw [Interrupts.pthread_cancel, s.setThread_self]
    cases ht : s.threads id with
    | none => rfl
    | some t =>
      have hcancelled := h.2 t ht
      simp [Thread.cancel, ← hcancelled]
  · rw [Interrupts.pthread_cancel, s.setThread_of_ne hid]

theorem doomed_step {s s' : Interrupts F} {act : InterruptAct REV F} {id : Nat}
    (hinv : InterruptInv REV s) (h : Doomed s id) (hs : interruptStep s act = some s') :
    Doomed s' id ∧
      (if act.calls id then 1 else 0) + callsLeft (s'.threads id) ≤
        callsLeft (s.threads id) := by
  have hcreated := h.1
  cases act with
  | attach p f m =>
    obtain rfl := Option.some.inj hs
    have hsame : (s.attachInterrupt p f m).threads id = s.threads id := by
      rw [threads_attach hinv p f m (by omega), cancel_doomed h]
    refine ⟨⟨?_, by rw [hsame]; exact h.2⟩, ?_⟩
    · rw [created_attach hinv]
      omega
    · simp [InterruptAct.calls, hsame]
  | detach p =>
    simp only [interruptStep, Option.ite_none_left_eq_some, Option.some.injEq] at hs
    obtain ⟨-, rfl⟩ := hs
    have hsame : (s.detachInterrupt p).threads id = s.threads id := cancel_doomed h _
    exact ⟨⟨hcreated, by rw [hsame]; exact h.2⟩, by simp [InterruptAct.calls, hsame]⟩
  | thread other act =>
    obtain ⟨t, t', ht, hstep, rfl⟩ := thread_cases hs
    by_cases hid : other = id
    · subst hid
      obtain ⟨hcancelled, hleft⟩ := cancelled_step (h.2 t ht) hstep
      refine ⟨⟨hcreated, ?_⟩, ?_⟩
      · rw [s.setThread_self]
        exact hcancelled
      · rw [s.setThread_self, ht]
        cases act <;> simpa [InterruptAct.calls] using hleft
    · have hsame : (s.setThread other t').threads id = s.threads id :=
        s.setThread_of_ne (Ne.symm hid) t'
      have hcalls : (InterruptAct.thread other act : InterruptAct REV F).calls id = false := by
        cases act <;> simp [InterruptAct.calls, hid]
      refine ⟨⟨hcreated, ?_⟩, ?_⟩
      · rw [hsame]
        exact h.2
      · simp [hsame, hcalls]

/-- **A cancelled thread begins at most one more call.** -/
theorem calls_of_doomed {s s' : Interrupts F} {more : List (InterruptAct REV F)} {id : Nat}
    (hinv : InterruptInv REV s) (h : Doomed s id)
    (hrun : (interrupts REV F).Run s more s') :
    more.countP (InterruptAct.calls id) ≤ callsLeft (s.threads id) := by
  suffices hall : InterruptInv REV s' ∧ Doomed s' id ∧
      more.countP (InterruptAct.calls id) + callsLeft (s'.threads id) ≤
        callsLeft (s.threads id) by
    omega
  induction hrun with
  | nil => exact ⟨hinv, h, by simp⟩
  | @snoc more s' s'' act _ hs ih =>
    obtain ⟨hinv', hdoomed, hle⟩ := ih
    obtain ⟨hdoomed', hstep⟩ := doomed_step hinv' hdoomed hs
    refine ⟨hinv'.step hs, hdoomed', ?_⟩
    rw [List.countP_append, List.countP_singleton]
    omega

/-- Between two calls, the thread that `attachInterrupt` cancels and the one that it
creates can both be in their functions. -/
theorem attach_beside {s : Interrupts F} (h : InterruptInv REV s) (p : Pin REV) (f : F)
    (m : Digivalue) {t : Thread F} (ht : s.threads (s.threadId p.arduino) = some t)
    (hwaiting : t.stage = .waiting) :
    ∃ s', (interrupts REV F).Run s [.attach p f m, .thread (s.threadId p.arduino) .call,
        .thread (s.created + 1) .call] s' ∧
      s'.threads (s.threadId p.arduino) = some ⟨t.arg, .calling, true⟩ ∧
      s'.threads (s.created + 1) = some ⟨⟨f, p.gpio⟩, .calling, false⟩ := by
  let old := s.threadId p.arduino
  let s₁ := s.attachInterrupt p f m
  have hne : old ≠ s.created + 1 := by
    have := h.issued p.arduino
    omega
  have hold : s₁.threads old = some t.cancel := by
    rw [threads_attach h p f m hne, Interrupts.pthread_cancel, s.setThread_self, ht]
    rfl
  have hnew : s₁.threads (s.created + 1) = some ⟨⟨f, p.gpio⟩, .waiting, false⟩ := by
    simp only [s₁]
    rw [attachInterrupt_eq h]
    exact Function.update_self _ _ _
  -- the edge comes, for both
  let s₂ := s₁.setThread old (some ⟨t.arg, .calling, true⟩)
  let s₃ := s₂.setThread (s.created + 1) (some ⟨⟨f, p.gpio⟩, .calling, false⟩)
  have hcall₁ : interruptStep s₁ (.thread old .call : InterruptAct REV F) = some s₂ := by
    simp [interruptStep, hold, Thread.step, Thread.cancel, hwaiting, s₂]
  have hcall₂ : interruptStep s₂ (.thread (s.created + 1) .call : InterruptAct REV F) =
      some s₃ := by
    simp [interruptStep, s₂, s₁.setThread_of_ne (Ne.symm hne), hnew, Thread.step, s₃]
  refine ⟨s₃, .cons rfl (.cons hcall₁ (.cons hcall₂ .nil)), ?_, s₂.setThread_self _ _⟩
  rw [s₂.setThread_of_ne hne]
  exact s₁.setThread_self _ _

/-- Two pins, the first attached twice and the second detached. The first function is
called behind its cancellation. -/
def attachedTwice : List (InterruptAct 1 Nat) :=
  [.attach ⟨2, 18, rfl⟩ 40 .RISING, .attach ⟨3, 23, rfl⟩ 41 .HIGH,
    .attach ⟨2, 18, rfl⟩ 42 .FALLING, .thread 1 .call, .detach ⟨3, 23, rfl⟩, .thread 3 .call]

end CarPi.ArduPi
