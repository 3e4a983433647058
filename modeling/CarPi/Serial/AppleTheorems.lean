/-
CarPi.Serial.AppleTheorems — what the Apple `AsyncSerial` keeps over any
sequence of `open`, writes and `close`, under every interleaving with its thread.

The two implementations of the class differ most where something fails. There
a failed read or write is the end of the port (`ReadTheorems`,
`ReopeningTheorems`); here it sets the error flag, and the port goes on:

* `isOpen()` tells the truth: the port is open exactly if its thread runs and
  its descriptor is open (`isOpen_iff_running`).
* The error flag says exactly whether something failed since the last `open`, and
  while it is clear the device has got everything (`errorStatus_iff_fault`). A read
  that fails is not flagged where `close` has marked the port by the time the thread
  looks; as long as the port is open every one is.
* What is read is handled in turn, once, and all of it before `close` comes back;
  then the callback is left alone (`handled_before_close`).
* `close` comes back as soon as the read under way does
  (`apple_close_returns`).
-/
import CarPi.Serial.AppleSerial

namespace CarPi.Serial

open CarPi.Foundation

/-! ## The invariant -/

namespace AppleSerial

/-- The thread has been started and not been joined yet. -/
@[grind]
def hasThread (s : AppleSerial) : Bool :=
  match s.stage with
  | .outside => s.isOpen
  | .closeMarked _ => true
  | .closeJoining _ => true
  | _ => false

/-- What has been read and not been handled. -/
@[grind]
def pending (s : AppleSerial) : List (List UInt8) :=
  match s.backgroundThread with
  | .returned (some data) => [data]
  | _ => []

end AppleSerial

/-- How `open`, the descriptor and the stage of the owner go together. -/
def OwnerInv (s : AppleSerial) : Prop :=
  match s.stage with
  | .outside => s.fdOpen = s.isOpen
  | .threw => s.isOpen = false ∧ s.fdOpen = false
  | .opening => s.isOpen = false ∧ s.fdOpen = false
  | .opened => s.isOpen = false ∧ s.fdOpen = true
  | .errorCleared => s.isOpen = false ∧ s.fdOpen = true
  | .marked => s.isOpen = true ∧ s.fdOpen = true
  | .closeMarked _ => s.isOpen = false ∧ s.fdOpen = true
  | .closeJoining _ => s.isOpen = false ∧ s.fdOpen = false

/-- How the thread goes with them. -/
structure ThreadInv (s : AppleSerial) : Prop where
  running : s.backgroundThread ≠ .noThread ↔ s.hasThread = true
  finished : s.backgroundThread = .finished → s.isOpen = false
  reading : ∀ fd live, s.backgroundThread = .reading fd live →
    fd = s.fd ∧ (s.fdOpen = true → live = true)
  handled : s.reads = s.handled.map Prod.snd ++ s.pending

theorem ThreadInv.noThread {s : AppleSerial} (h : ThreadInv s) (hhas : s.hasThread = false) :
    s.backgroundThread = .noThread := by
  by_contra hthere
  exact absurd (hhas.symm.trans (h.running.mp hthere)) (by decide)

/-- What the thread never changes. -/
def ownerSide (s : AppleSerial) := (s.open', s.fd, s.fdOpen, s.stage)

theorem OwnerInv.frame {s s' : AppleSerial} (h : OwnerInv s)
    (hside : ownerSide s' = ownerSide s) : OwnerInv s' := by
  simp only [ownerSide, Prod.mk.injEq] at hside
  obtain ⟨hopen, _, hfd, hstage⟩ := hside
  simpa only [OwnerInv, AppleSerial.isOpen, hopen, hfd, hstage] using h

theorem ownerFree_cases {s : AppleSerial} (hfree : s.ownerFree = true) :
    s.stage = .outside ∨ s.stage = .threw := by
  simpa [AppleSerial.ownerFree] using hfree

/-- Outside `open` and `close` the descriptor is open exactly if the port is. -/
theorem OwnerInv.fdOpen_of_free {s : AppleSerial} (h : OwnerInv s)
    (hfree : s.ownerFree = true) : s.fdOpen = s.isOpen := by
  rcases ownerFree_cases hfree with hstage | hstage <;> simp only [OwnerInv, hstage] at h
  · exact h
  · exact h.2.trans h.1.symm

/-- And so is there a thread. -/
theorem OwnerInv.hasThread_of_free {s : AppleSerial} (h : OwnerInv s)
    (hfree : s.ownerFree = true) : s.hasThread = s.isOpen := by
  rcases ownerFree_cases hfree with hstage | hstage <;> simp only [OwnerInv, hstage] at h <;>
    rw [AppleSerial.hasThread, hstage]
  exact h.1.symm

theorem ownerInv_step {s s' : AppleSerial} {act : AppleAct} (h : OwnerInv s)
    (hs : appleStep s act = some s') : OwnerInv s' := by
  cases act with
  | setCallback set =>
    obtain ⟨-, rfl⟩ := appleStep_setCallback_iff.mp hs
    exact h.frame rfl
  | write str written =>
    obtain ⟨-, rfl⟩ := appleStep_write_iff.mp hs
    exact h.frame rfl
  | openCalled =>
    obtain ⟨hfree, ⟨hopen, rfl⟩ | ⟨hclosed, rfl⟩⟩ := appleStep_openCalled_cases hs
    · exact ⟨rfl, (h.fdOpen_of_free hfree).trans hopen⟩
    · exact ⟨hclosed, (h.fdOpen_of_free hfree).trans hclosed⟩
  | openDevice ok =>
    obtain ⟨hstage, ⟨_, rfl⟩ | ⟨_, rfl⟩⟩ := appleStep_openDevice_cases hs <;>
      simp only [OwnerInv, hstage] at h
    · exact ⟨h.1, rfl⟩
    · exact h
  | setUpFails =>
    obtain ⟨hstage, rfl⟩ := appleStep_setUpFails_iff.mp hs
    simp only [OwnerInv, hstage] at h
    exact ⟨h.1, rfl⟩
  | clearError =>
    obtain ⟨hstage, rfl⟩ := appleStep_clearError_iff.mp hs
    simp only [OwnerInv, hstage] at h
    exact h
  | markOpen =>
    obtain ⟨hstage, rfl⟩ := appleStep_markOpen_iff.mp hs
    simp only [OwnerInv, hstage] at h
    exact ⟨rfl, h.2⟩
  | startThread =>
    obtain ⟨hstage, rfl⟩ := appleStep_startThread_iff.mp hs
    simp only [OwnerInv, hstage] at h
    exact h.2.trans h.1.symm
  | closeCalled =>
    obtain ⟨hfree, ⟨hopen, rfl⟩ | ⟨_, rfl⟩⟩ := appleStep_closeCalled_cases hs
    · exact ⟨rfl, (h.fdOpen_of_free hfree).trans hopen⟩
    · exact h
  | closeFd =>
    obtain ⟨caller, hstage, rfl⟩ := appleStep_closeFd_iff.mp hs
    simp only [OwnerInv, hstage] at h
    exact ⟨h.1, rfl⟩
  | join =>
    obtain ⟨-, caller, hstage, rfl⟩ := appleStep_join_iff.mp hs
    simp only [OwnerInv, hstage] at h
    rcases AppleSerial.afterJoin_cases
      { s with backgroundThread := .noThread, closeThrew := s.errorStatus } caller with
      heq | ⟨_, heq⟩ | ⟨_, heq⟩ <;> rw [heq]
    · exact h.2.trans h.1.symm
    · exact h
    · exact h
  | callRead => obtain ⟨-, rfl⟩ := appleStep_callRead_iff.mp hs; exact h.frame rfl
  | readReturns received =>
    obtain ⟨_, _, -, -, -, rfl⟩ := appleStep_readReturns_iff.mp hs
    exact h.frame rfl
  | checkOpen => obtain ⟨-, rfl⟩ := appleStep_checkOpen_iff.mp hs; exact h.frame rfl
  | markError => obtain ⟨-, rfl⟩ := appleStep_markError_iff.mp hs; exact h.frame rfl
  | callBack => obtain ⟨_, -, rfl⟩ := appleStep_callBack_iff.mp hs; exact h.frame rfl

/-- A step of the owner, who leaves the thread where it is. -/
theorem ThreadInv.owner {s s' : AppleSerial} (h : ThreadInv s)
    (hthread : s'.backgroundThread = s.backgroundThread)
    (hlog : s'.reads = s.reads ∧ s'.handled = s.handled) (hhas : s'.hasThread = s.hasThread)
    (hopen : s.hasThread = true → s'.isOpen = true → s.isOpen = true)
    (hfd : s.hasThread = true → s'.fd = s.fd ∧ (s'.fdOpen = true → s.fdOpen = true)) :
    ThreadInv s' := by
  have hpending : s'.pending = s.pending := by
    rw [AppleSerial.pending, AppleSerial.pending, hthread]
  refine ⟨by rw [hthread, hhas]; exact h.running, fun hdone => ?_, fun fd live hreading => ?_,
    by rw [hlog.1, hlog.2, hpending]; exact h.handled⟩
  · rw [hthread] at hdone
    have hthere := h.running.mp (by rw [hdone]; decide)
    by_contra hnot
    have hbefore := hopen hthere (by simpa using hnot)
    rw [h.finished hdone] at hbefore
    cases hbefore
  · rw [hthread] at hreading
    obtain ⟨hsame, hlive⟩ := h.reading fd live hreading
    obtain ⟨hfd, hstill⟩ := hfd (h.running.mp (by rw [hreading]; simp))
    exact ⟨hsame.trans hfd.symm, fun hopen => hlive (hstill hopen)⟩

/-- A step of `open`, with no thread there. -/
theorem ThreadInv.opening {s s' : AppleSerial} (h : ThreadInv s)
    (hthread : s'.backgroundThread = s.backgroundThread)
    (hlog : s'.reads = s.reads ∧ s'.handled = s.handled) (hhas : s.hasThread = false)
    (hhas' : s'.hasThread = false) : ThreadInv s' := by
  refine h.owner hthread hlog (hhas'.trans hhas.symm) ?_ ?_ <;>
    exact fun hthere => absurd (hhas.symm.trans hthere) (by decide)

/-- A step of the thread. -/
theorem ThreadInv.thread {s s' : AppleSerial} (h : ThreadInv s)
    (hside : ownerSide s' = ownerSide s) (hthere : s.backgroundThread ≠ .noThread)
    (hthere' : s'.backgroundThread ≠ .noThread)
    (hfinished : s'.backgroundThread = .finished → s.isOpen = false)
    (hreading : ∀ fd live, s'.backgroundThread = .reading fd live →
      fd = s.fd ∧ (s.fdOpen = true → live = true))
    (hhandled : s'.reads = s'.handled.map Prod.snd ++ s'.pending) : ThreadInv s' := by
  simp only [ownerSide, Prod.mk.injEq] at hside
  obtain ⟨hopen, hfd, hfdOpen, hstage⟩ := hside
  have hhas : s'.hasThread = s.hasThread := by
    simp only [AppleSerial.hasThread, AppleSerial.isOpen, hopen, hstage]
  refine ⟨?_, fun hdone => hopen.trans (hfinished hdone), ?_, hhandled⟩
  · rw [hhas]
    exact iff_of_true hthere' (h.running.mp hthere)
  · rw [hfd, hfdOpen]
    exact hreading

theorem threadInv_step {s s' : AppleSerial} {act : AppleAct} (howner : OwnerInv s)
    (h : ThreadInv s) (hs : appleStep s act = some s') : ThreadInv s' := by
  cases act with
  | setCallback set =>
    obtain ⟨-, rfl⟩ := appleStep_setCallback_iff.mp hs
    exact h.owner rfl ⟨rfl, rfl⟩ rfl (fun _ => id) fun _ => ⟨rfl, id⟩
  | write str written =>
    obtain ⟨-, rfl⟩ := appleStep_write_iff.mp hs
    exact h.owner rfl ⟨rfl, rfl⟩ rfl (fun _ => id) fun _ => ⟨rfl, id⟩
  | openCalled =>
    obtain ⟨hfree, ⟨hopen, rfl⟩ | ⟨hclosed, rfl⟩⟩ := appleStep_openCalled_cases hs
    · exact h.owner rfl ⟨rfl, rfl⟩ ((howner.hasThread_of_free hfree).trans hopen).symm
        (fun _ _ => hopen) fun _ => ⟨rfl, id⟩
    · exact h.opening rfl ⟨rfl, rfl⟩ ((howner.hasThread_of_free hfree).trans hclosed) rfl
  | openDevice ok =>
    obtain ⟨hstage, ⟨_, rfl⟩ | ⟨_, rfl⟩⟩ := appleStep_openDevice_cases hs <;>
      exact h.opening rfl ⟨rfl, rfl⟩ (by rw [AppleSerial.hasThread, hstage]) rfl
  | setUpFails =>
    obtain ⟨hstage, rfl⟩ := appleStep_setUpFails_iff.mp hs
    exact h.opening rfl ⟨rfl, rfl⟩ (by rw [AppleSerial.hasThread, hstage]) rfl
  | clearError =>
    obtain ⟨hstage, rfl⟩ := appleStep_clearError_iff.mp hs
    exact h.opening rfl ⟨rfl, rfl⟩ (by rw [AppleSerial.hasThread, hstage]) rfl
  | markOpen =>
    obtain ⟨hstage, rfl⟩ := appleStep_markOpen_iff.mp hs
    exact h.opening rfl ⟨rfl, rfl⟩ (by rw [AppleSerial.hasThread, hstage]) rfl
  | startThread =>
    obtain ⟨hstage, rfl⟩ := appleStep_startThread_iff.mp hs
    simp only [OwnerInv, hstage] at howner
    have hnone := h.noThread (by rw [AppleSerial.hasThread, hstage])
    have hhandled := h.handled
    rw [AppleSerial.pending, hnone] at hhandled
    exact ⟨iff_of_true (by simp) howner.1, fun hdone => (nomatch hdone),
      fun _ _ hreading => (nomatch hreading), hhandled⟩
  | closeCalled =>
    obtain ⟨hfree, ⟨hopen, rfl⟩ | ⟨_, rfl⟩⟩ := appleStep_closeCalled_cases hs
    · exact h.owner rfl ⟨rfl, rfl⟩ ((howner.hasThread_of_free hfree).trans hopen).symm
        (fun _ _ => hopen) fun _ => ⟨rfl, id⟩
    · exact h
  | closeFd =>
    obtain ⟨caller, hstage, rfl⟩ := appleStep_closeFd_iff.mp hs
    refine h.owner rfl ⟨rfl, rfl⟩ (by rw [AppleSerial.hasThread, AppleSerial.hasThread, hstage])
      (fun _ => id) fun _ => ⟨rfl, fun hopen => (nomatch hopen)⟩
  | join =>
    obtain ⟨hdone, caller, hstage, rfl⟩ := appleStep_join_iff.mp hs
    simp only [OwnerInv, hstage] at howner
    have hhandled := h.handled
    rw [AppleSerial.pending, hdone] at hhandled
    -- the thread is gone, and nothing is left for it to handle
    rcases AppleSerial.afterJoin_cases
      { s with backgroundThread := .noThread, closeThrew := s.errorStatus } caller with
      heq | ⟨_, heq⟩ | ⟨_, heq⟩ <;> rw [heq] <;>
      refine ⟨iff_of_false (by simp [AppleSerial.beginOpen, AppleSerial.setErrorStatus]) ?_,
        fun _ => howner.1, fun _ _ hreading => (nomatch hreading), hhandled⟩
    · exact Bool.eq_false_iff.mp howner.1
    · exact Bool.false_ne_true
    · exact Bool.false_ne_true
  | callRead =>
    obtain ⟨hlooping, rfl⟩ := appleStep_callRead_iff.mp hs
    have hhandled := h.handled
    rw [AppleSerial.pending, hlooping] at hhandled
    refine h.thread rfl (by rw [hlooping]; decide) (by simp) (fun hdone => (nomatch hdone)) ?_
      hhandled
    rintro fd live hreading
    cases hreading
    exact ⟨rfl, id⟩
  | readReturns received =>
    obtain ⟨fd, live, hreading, -, -, rfl⟩ := appleStep_readReturns_iff.mp hs
    have hhandled := h.handled
    rw [AppleSerial.pending, hreading, List.append_nil] at hhandled
    refine h.thread rfl (by rw [hreading]; simp) (by simp) (fun hdone => (nomatch hdone))
      (fun _ _ hnow => (nomatch hnow)) ?_
    cases received with
    | none => simpa [AppleSerial.pending] using hhandled
    | some data => simp [AppleSerial.pending, hhandled]
  | checkOpen =>
    obtain ⟨hreturned, rfl⟩ := appleStep_checkOpen_iff.mp hs
    have hhandled := h.handled
    rw [AppleSerial.pending, hreturned] at hhandled
    refine h.thread rfl (by rw [hreturned]; simp) ?_ ?_ ?_ ?_ <;> cases hopen : s.isOpen
    all_goals simp [AppleSerial.pending, hhandled]
  | markError =>
    obtain ⟨hfailing, rfl⟩ := appleStep_markError_iff.mp hs
    have hhandled := h.handled
    rw [AppleSerial.pending, hfailing] at hhandled
    exact h.thread rfl (by rw [hfailing]; decide) (by simp) (fun hdone => (nomatch hdone))
      (fun _ _ hreading => (nomatch hreading)) hhandled
  | callBack =>
    obtain ⟨data, hreturned, rfl⟩ := appleStep_callBack_iff.mp hs
    have hhandled := h.handled
    rw [AppleSerial.pending, hreturned] at hhandled
    refine h.thread rfl (by rw [hreturned]; simp) (by simp) (fun hdone => (nomatch hdone))
      (fun _ _ hreading => (nomatch hreading)) ?_
    simp [AppleSerial.pending, hhandled]

/-- The port is opened, and its thread started. -/
def appleOpenRun : List AppleAct :=
  [.openCalled, .openDevice true, .clearError, .markOpen, .startThread]

/-- Behind that two reads are called, the first one handled, and the port closed as far as
`::close`. -/
def appleCloseRun : List AppleAct :=
  appleOpenRun ++ [.setCallback true, .callRead, .readReturns (some [36]), .callBack, .callRead,
    .closeCalled, .closeFd]

/-- What every reachable state keeps. -/
theorem appleInv {s : AppleSerial} (h : appleSerial.Reachable s) : OwnerInv s ∧ ThreadInv s := by
  refine h.invariant (I := fun s => OwnerInv s ∧ ThreadInv s) ?_ ?_
  · rintro s rfl
    exact ⟨rfl, ⟨by decide, by decide, (fun _ _ h => nomatch h), rfl⟩⟩
  · intro s act s' hinv hs
    change appleStep s act = some s' at hs
    exact ⟨ownerInv_step hinv.1 hs, threadInv_step hinv.1 hinv.2 hs⟩

/-- Nothing fails in the step: a write takes all of its string, and the thread does not find
the port open behind a read that failed. -/
def Faultless (s : AppleSerial) : AppleAct → Prop
  | .write str written => written = some str.length
  | .checkOpen => s.isOpen = false
  | _ => True

/-- The flag is clear, and the thread is not about to set it. -/
def AppleSerial.Unflagged (s : AppleSerial) : Prop :=
  s.errorStatus = false ∧ s.backgroundThread ≠ .failing

/-- The steps up to the next `open`. -/
def BeforeOpen (_ : AppleSerial) (act : AppleAct) : Prop := act ≠ .openCalled

/-- What the callers asked to write. -/
def AppleAct.asked : AppleAct → List UInt8
  | .write str _ => str
  | _ => []

/-- The owner is past the last `setErrorStatus(false)`, and not on its way to another. -/
def AppleSerial.settled (s : AppleSerial) : Bool :=
  match s.stage with
  | .opening => false
  | .opened => false
  | .closeMarked .reopen => false
  | .closeJoining .reopen => false
  | _ => true

/-- What a step can do between there and the next `open`. -/
inductive BetweenOpens (s : AppleSerial) : AppleAct → AppleSerial → Prop
  | setCallback {set : Bool} : BetweenOpens s (.setCallback set) { s with callback := set }
  | write {str : List UInt8} {written : Option Nat} :
      BetweenOpens s (.write str written) { s with
        error := s.error || written ≠ some str.length
        transmitted := s.transmitted ++ str.take (written.getD 0) }
  | markOpen (hstage : s.stage = .errorCleared) :
      BetweenOpens s .markOpen { s with open' := true, stage := .marked }
  | startThread (hstage : s.stage = .marked) :
      BetweenOpens s .startThread { s with backgroundThread := .looping, stage := .outside }
  | closeCalled (hopen : s.isOpen = true) : BetweenOpens s .closeCalled (s.markClosed .owner)
  | closeNothing (hclosed : s.isOpen = false) : BetweenOpens s .closeCalled s
  | closeFd (hstage : s.stage = .closeMarked .owner) :
      BetweenOpens s .closeFd { s with fdOpen := false, stage := .closeJoining .owner }
  | join (hstage : s.stage = .closeJoining .owner) (hdone : s.backgroundThread = .finished) :
      BetweenOpens s .join { s with
        backgroundThread := .noThread, closeThrew := s.errorStatus, stage := .outside }
  | callRead (hthread : s.backgroundThread = .looping) :
      BetweenOpens s .callRead { s with backgroundThread := .reading s.fd s.fdOpen }
  | readReturns {fd : Nat} {live : Bool} {received : Option (List UInt8)}
      (hthread : s.backgroundThread = .reading fd live) :
      BetweenOpens s (.readReturns received) { s with
        backgroundThread := .returned received, reads := s.reads ++ received.toList }
  | checkOpen (hthread : s.backgroundThread = .returned none) :
      BetweenOpens s .checkOpen { s with
        backgroundThread := if s.isOpen then .failing else .finished }
  | markError (hthread : s.backgroundThread = .failing) :
      BetweenOpens s .markError { s.setErrorStatus true with backgroundThread := .looping }
  | callBack {data : List UInt8} (hthread : s.backgroundThread = .returned (some data)) :
      BetweenOpens s .callBack { s with
        backgroundThread := .looping, handled := s.handled ++ [(s.callback, data)] }

theorem betweenOpens_of_step {s s' : AppleSerial} {act : AppleAct} (hsettled : s.settled = true)
    (hact : act ≠ .openCalled) (hs : appleStep s act = some s') : BetweenOpens s act s' := by
  cases act with
  | openCalled => exact absurd rfl hact
  | setCallback set => obtain ⟨-, rfl⟩ := appleStep_setCallback_iff.mp hs; exact .setCallback
  | write str written => obtain ⟨-, rfl⟩ := appleStep_write_iff.mp hs; exact .write
  | openDevice ok =>
    obtain ⟨hstage, -⟩ := appleStep_openDevice_cases hs
    simp [AppleSerial.settled, hstage] at hsettled
  | setUpFails =>
    obtain ⟨hstage, -⟩ := appleStep_setUpFails_iff.mp hs
    simp [AppleSerial.settled, hstage] at hsettled
  | clearError =>
    obtain ⟨hstage, -⟩ := appleStep_clearError_iff.mp hs
    simp [AppleSerial.settled, hstage] at hsettled
  | markOpen => obtain ⟨hstage, rfl⟩ := appleStep_markOpen_iff.mp hs; exact .markOpen hstage
  | startThread =>
    obtain ⟨hstage, rfl⟩ := appleStep_startThread_iff.mp hs
    exact .startThread hstage
  | closeCalled =>
    obtain ⟨-, ⟨hopen, rfl⟩ | ⟨hclosed, rfl⟩⟩ := appleStep_closeCalled_cases hs
    · exact .closeCalled hopen
    · exact .closeNothing hclosed
  | closeFd =>
    obtain ⟨caller, hstage, rfl⟩ := appleStep_closeFd_iff.mp hs
    cases caller with
    | owner => exact .closeFd hstage
    | reopen => simp [AppleSerial.settled, hstage] at hsettled
  | join =>
    obtain ⟨hdone, caller, hstage, rfl⟩ := appleStep_join_iff.mp hs
    cases caller with
    | owner => exact .join hstage hdone
    | reopen => simp [AppleSerial.settled, hstage] at hsettled
  | callRead => obtain ⟨hthread, rfl⟩ := appleStep_callRead_iff.mp hs; exact .callRead hthread
  | readReturns received =>
    obtain ⟨_, _, hthread, -, -, rfl⟩ := appleStep_readReturns_iff.mp hs
    exact .readReturns hthread
  | checkOpen => obtain ⟨hthread, rfl⟩ := appleStep_checkOpen_iff.mp hs; exact .checkOpen hthread
  | markError => obtain ⟨hthread, rfl⟩ := appleStep_markError_iff.mp hs; exact .markError hthread
  | callBack =>
    obtain ⟨_, hthread, rfl⟩ := appleStep_callBack_iff.mp hs
    exact .callBack hthread

theorem settled_of_free {s : AppleSerial} (hfree : s.ownerFree = true) : s.settled = true := by
  rw [AppleSerial.ownerFree, Bool.or_eq_true, decide_eq_true_iff, decide_eq_true_iff] at hfree
  rcases hfree with hstage | hstage <;> rw [AppleSerial.settled, hstage]

/-- The owner stays past it until `open` is called. -/
theorem settled_step {s s' : AppleSerial} {act : AppleAct} (hsettled : s.settled = true)
    (h : BetweenOpens s act s') : s'.settled = true := by
  cases h with
  | setCallback => exact hsettled
  | write => exact hsettled
  | markOpen => rfl
  | startThread => rfl
  | closeCalled => rfl
  | closeNothing => exact hsettled
  | closeFd => rfl
  | join => rfl
  | callRead => exact hsettled
  | readReturns => exact hsettled
  | checkOpen => exact hsettled
  | markError => exact hsettled
  | callBack => exact hsettled

/-- A step without a fault that leaves the flag, and does not go to `failing` or come from
there. -/
theorem unflagged_iff {s s' : AppleSerial} {P : Prop} (herror : s'.error = s.error)
    (hthread : s'.backgroundThread = .failing ↔ s.backgroundThread = .failing) (hok : P) :
    s'.Unflagged ↔ s.Unflagged ∧ P := by
  simp only [AppleSerial.Unflagged, AppleSerial.errorStatus, herror, ne_eq, hthread, hok, and_true]

/-- **Only a fault gets the flag set**: it is set at once where a write fails, and by the
next step of the thread where a read does. -/
theorem unflagged_step {s s' : AppleSerial} {act : AppleAct} (hinv : ThreadInv s)
    (h : BetweenOpens s act s') : s'.Unflagged ↔ s.Unflagged ∧ Faultless s act := by
  cases h with
  | setCallback => exact unflagged_iff rfl Iff.rfl trivial
  | write =>
    simp only [AppleSerial.Unflagged, AppleSerial.errorStatus, Faultless, Bool.or_eq_false_iff,
      decide_eq_false_iff_not, not_not]
    tauto
  | markOpen => exact unflagged_iff rfl Iff.rfl trivial
  | startThread hstage =>
    have hnone := hinv.noThread (by rw [AppleSerial.hasThread, hstage])
    exact unflagged_iff rfl (iff_of_false (by simp) (by simp [hnone])) trivial
  | closeCalled => exact unflagged_iff rfl Iff.rfl trivial
  | closeNothing => exact unflagged_iff rfl Iff.rfl trivial
  | closeFd => exact unflagged_iff rfl Iff.rfl trivial
  | join _ hdone => exact unflagged_iff rfl (iff_of_false (by simp) (by simp [hdone])) trivial
  | callRead hthread =>
    exact unflagged_iff rfl (iff_of_false (by simp) (by simp [hthread])) trivial
  | readReturns hthread =>
    exact unflagged_iff rfl (iff_of_false (by simp) (by simp [hthread])) trivial
  | checkOpen hthread =>
    -- the read has failed
    cases hopen : s.isOpen <;>
      simp [AppleSerial.Unflagged, AppleSerial.errorStatus, Faultless, hopen, hthread]
  | markError hthread =>
    simp [AppleSerial.Unflagged, AppleSerial.errorStatus, AppleSerial.setErrorStatus, hthread]
  | callBack hthread =>
    exact unflagged_iff rfl (iff_of_false (by simp) (by simp [hthread])) trivial

/-- A write that takes less than its string, or a read that fails. -/
def AppleAct.fails : AppleAct → Bool
  | .write str written => written ≠ some str.length
  | .readReturns received => received = none
  | _ => false

/-- The flag is clear, and no failed read is on the way to it. -/
def AppleSerial.Clear (s : AppleSerial) : Prop :=
  s.errorStatus = false ∧
    ¬ (s.backgroundThread = .failing ∨ s.backgroundThread = .returned none)

/-- The port is open, or about to be. -/
def AppleSerial.Open (s : AppleSerial) : Prop := s.isOpen = true ∨ s.stage = .errorCleared

/-- Up to the next `open` a port that is open was so before, or about to be. -/
theorem open_step {s s' : AppleSerial} {act : AppleAct} (h : BetweenOpens s act s')
    (hopen : s'.Open) : s.Open := by
  cases h with
  | setCallback => exact hopen
  | write => exact hopen
  | markOpen hstage => exact .inr hstage
  | startThread => exact .inl (hopen.resolve_right nofun)
  | closeCalled => exact absurd (hopen.resolve_right nofun) Bool.false_ne_true
  | closeNothing => exact hopen
  | closeFd => exact .inl (hopen.resolve_right nofun)
  | join => exact .inl (hopen.resolve_right nofun)
  | callRead => exact hopen
  | readReturns => exact hopen
  | checkOpen => exact hopen
  | markError => exact hopen
  | callBack => exact hopen

/-- A step without a failure, on which nothing on the way to the flag comes or goes. -/
theorem clear_iff {s s' : AppleSerial} {P : Prop} (herror : s'.error = s.error)
    (hthread : (s'.backgroundThread = .failing ∨ s'.backgroundThread = .returned none) ↔
      (s.backgroundThread = .failing ∨ s.backgroundThread = .returned none)) (hok : P) :
    s'.Clear ↔ s.Clear ∧ P := by
  simp only [AppleSerial.Clear, AppleSerial.errorStatus, herror, hthread, hok, and_true]

/-- **On an open port a failure is what gets on the way to the flag**, and nothing comes off
it. -/
theorem clear_step {s s' : AppleSerial} {act : AppleAct} (hinv : ThreadInv s) (hopen : s.Open)
    (h : BetweenOpens s act s') : s'.Clear ↔ s.Clear ∧ act.fails = false := by
  cases h with
  | setCallback => exact clear_iff rfl Iff.rfl rfl
  | write =>
    simp only [AppleSerial.Clear, AppleSerial.errorStatus, AppleAct.fails, Bool.or_eq_false_iff]
    tauto
  | markOpen => exact clear_iff rfl Iff.rfl rfl
  | startThread hstage =>
    have hnone := hinv.noThread (by rw [AppleSerial.hasThread, hstage])
    exact clear_iff rfl (iff_of_false (by simp) (by simp [hnone])) rfl
  | closeCalled => exact clear_iff rfl Iff.rfl rfl
  | closeNothing => exact clear_iff rfl Iff.rfl rfl
  | closeFd => exact clear_iff rfl Iff.rfl rfl
  | join _ hdone => exact clear_iff rfl (iff_of_false (by simp) (by simp [hdone])) rfl
  | callRead hthread => exact clear_iff rfl (iff_of_false (by simp) (by simp [hthread])) rfl
  | @readReturns _ _ received hthread =>
    cases received with
    | none => simp [AppleSerial.Clear, AppleAct.fails]
    | some data => exact clear_iff rfl (iff_of_false (by simp) (by simp [hthread])) rfl
  | checkOpen hthread =>
    -- the thread finds the port open
    have hstill : s.isOpen = true := by
      refine hopen.resolve_right fun hstage => ?_
      rw [hinv.noThread (by rw [AppleSerial.hasThread, hstage])] at hthread
      cases hthread
    simp [AppleSerial.Clear, hthread, hstill]
  | markError hthread =>
    simp [AppleSerial.Clear, AppleSerial.errorStatus, AppleSerial.setErrorStatus, hthread]
  | callBack hthread => exact clear_iff rfl (iff_of_false (by simp) (by simp [hthread])) rfl

/-- Where the flag is still clear behind a step, the device has got what the step asked. -/
theorem transmitted_step {s s' : AppleSerial} {act : AppleAct} (h : BetweenOpens s act s')
    (hclear : s'.errorStatus = false) :
    s.errorStatus = false ∧ s'.transmitted = s.transmitted ++ act.asked := by
  cases h with
  | write =>
    simp only [AppleSerial.errorStatus, Bool.or_eq_false_iff, decide_eq_false_iff_not,
      not_not] at hclear
    obtain ⟨hbefore, rfl⟩ := hclear
    exact ⟨hbefore, by simp [AppleAct.asked]⟩
  | markError => cases hclear
  | setCallback => exact ⟨hclear, (List.append_nil _).symm⟩
  | markOpen => exact ⟨hclear, (List.append_nil _).symm⟩
  | startThread => exact ⟨hclear, (List.append_nil _).symm⟩
  | closeCalled => exact ⟨hclear, (List.append_nil _).symm⟩
  | closeNothing => exact ⟨hclear, (List.append_nil _).symm⟩
  | closeFd => exact ⟨hclear, (List.append_nil _).symm⟩
  | join => exact ⟨hclear, (List.append_nil _).symm⟩
  | callRead => exact ⟨hclear, (List.append_nil _).symm⟩
  | readReturns => exact ⟨hclear, (List.append_nil _).symm⟩
  | checkOpen => exact ⟨hclear, (List.append_nil _).symm⟩
  | callBack => exact ⟨hclear, (List.append_nil _).symm⟩

/-- **The error flag says whether something failed since `open` cleared it**, up to the
next `open`: it is clear, and not about to be set, exactly if no write fell short and the
thread found the port closed behind every read that failed. As long as the port is open
those are all the reads that failed. While the flag is clear the device has got
everything it was asked to write, in order. -/
theorem errorStatus_iff_fault {s₀ s₁ s : AppleSerial} {as : List AppleAct}
    (hreach : appleSerial.Reachable s₀) (hclear : appleStep s₀ .clearError = some s₁)
    (hrun : (appleSerial.restrict BeforeOpen).Run s₁ as s) :
    (s.errorStatus = false ∧ s.backgroundThread ≠ .failing ↔
        ((appleSerial.restrict BeforeOpen).restrict Faultless).Run s₁ as s) ∧
      (s.isOpen = true → s.backgroundThread ≠ .returned none →
        (s.errorStatus = false ∧ s.backgroundThread ≠ .failing ↔
          ∀ act ∈ as, act.fails = false)) ∧
      (s.errorStatus = false → s.transmitted = s₀.transmitted ++ as.flatMap AppleAct.asked) := by
  have hinv₁ : OwnerInv s₁ ∧ ThreadInv s₁ :=
    ⟨ownerInv_step (appleInv hreach).1 hclear,
      threadInv_step (appleInv hreach).1 (appleInv hreach).2 hclear⟩
  obtain ⟨hstage, rfl⟩ := appleStep_clearError_iff.mp hclear
  have hnone := (appleInv hreach).2.noThread (by rw [AppleSerial.hasThread, hstage])
  have hkept : ∀ u act u', (OwnerInv u ∧ ThreadInv u) ∧ u.settled = true →
      (appleSerial.restrict BeforeOpen).step u act u' →
      ((OwnerInv u' ∧ ThreadInv u') ∧ u'.settled = true) ∧ BetweenOpens u act u' := by
    rintro u act u' ⟨hinv, hsettled⟩ ⟨hact, hs⟩
    have hbetween := betweenOpens_of_step hsettled hact hs
    exact ⟨⟨⟨ownerInv_step hinv.1 hs, threadInv_step hinv.1 hinv.2 hs⟩,
      settled_step hsettled hbetween⟩, hbetween⟩
  have hall : ((OwnerInv s ∧ ThreadInv s) ∧ s.settled = true) ∧
      (s.Open → (s.Clear ↔ ∀ act ∈ as, act.fails = false)) ∧
      (s.errorStatus = false →
        s.transmitted = s₀.transmitted ++ as.flatMap AppleAct.asked) := by
    induction hrun with
    | nil =>
      refine ⟨⟨hinv₁, rfl⟩, fun _ => ?_, fun _ => (List.append_nil _).symm⟩
      simp [AppleSerial.Clear, AppleSerial.errorStatus, AppleSerial.setErrorStatus, hnone]
    | @snoc as u u' act _ hs ih =>
      obtain ⟨hJ, hfails, hsame⟩ := ih
      obtain ⟨hJ', hbetween⟩ := hkept u act u' hJ hs
      refine ⟨hJ', fun hopen => ?_, fun hclear' => ?_⟩
      · have hbefore := open_step hbetween hopen
        rw [clear_step hJ.1.2 hbefore hbetween, hfails hbefore, List.forall_mem_append,
          List.forall_mem_singleton]
      · obtain ⟨hbefore, hsent⟩ := transmitted_step hbetween hclear'
        rw [hsent, hsame hbefore]
        simp
  refine ⟨?_, fun hopen hlooked => ?_, hall.2.2⟩
  · exact hrun.iff_restrict (I := AppleSerial.Unflagged)
      (J := fun u => (OwnerInv u ∧ ThreadInv u) ∧ u.settled = true)
      (fun u act u' hJ hs =>
        ⟨(hkept u act u' hJ hs).1, unflagged_step hJ.1.2 (hkept u act u' hJ hs).2⟩) ⟨hinv₁, rfl⟩
      ⟨rfl, by simp [AppleSerial.setErrorStatus, hnone]⟩
  · rw [← hall.2.1 (.inl hopen)]
    simp [AppleSerial.Clear, hlooked]

/-- A read fails, and the thread looks before `close` marks the port. -/
theorem errorStatus_iff_fault_failedRead :
    ∃ s₀ s₁ s, appleStep s₀ .clearError = some s₁ ∧
      exec appleStep s₁ [.markOpen, .startThread, .callRead, .readReturns none, .checkOpen,
        .closeCalled] = some s ∧
      ¬ ((appleSerial.restrict BeforeOpen).restrict Faultless).Run s₁
        [.markOpen, .startThread, .callRead, .readReturns none, .checkOpen, .closeCalled] s := by
  have hsome : ∃ s₀ ∈ exec appleStep .constructed [.openCalled, .openDevice true],
      ∃ s₁ ∈ appleStep s₀ .clearError,
        ∃ s ∈ exec appleStep s₁ [.markOpen, .startThread, .callRead, .readReturns none,
          .checkOpen, .closeCalled], s.backgroundThread = .failing := by decide
  obtain ⟨s₀, hs₀, s₁, hclear, s, hs, hfailing⟩ := hsome
  have hflag := (errorStatus_iff_fault (LTS.reachable_of_exec _ hs₀) hclear
    ((LTS.run_of_exec hs).restrict_labels (by decide))).1
  exact ⟨s₀, s₁, s, hclear, hs, fun hgood => (hflag.mpr hgood).2 hfailing⟩

/-! ## What is read -/

/-- Where there is no thread, nothing but `open` leads back to one. -/
theorem noThread_step {s s' : AppleSerial} {act : AppleAct} (hfree : s.ownerFree = true)
    (hclosed : s.isOpen = false) (hthread : s.backgroundThread = .noThread)
    (hact : act ≠ .openCalled) (hs : appleStep s act = some s') :
    s'.ownerFree = true ∧ s'.isOpen = false ∧ s'.backgroundThread = .noThread ∧
      s'.handled = s.handled ∧ s'.reads = s.reads := by
  have h := betweenOpens_of_step (settled_of_free hfree) hact hs
  cases h with
  | setCallback => exact ⟨hfree, hclosed, hthread, rfl, rfl⟩
  | write => exact ⟨hfree, hclosed, hthread, rfl, rfl⟩
  | markOpen hstage => simp [AppleSerial.ownerFree, hstage] at hfree
  | startThread hstage => simp [AppleSerial.ownerFree, hstage] at hfree
  | closeCalled hopen => exact absurd (hclosed.symm.trans hopen) (by decide)
  | closeNothing => exact ⟨hfree, hclosed, hthread, rfl, rfl⟩
  | closeFd hstage => simp [AppleSerial.ownerFree, hstage] at hfree
  | join hstage => simp [AppleSerial.ownerFree, hstage] at hfree
  | callRead hrunning => simp [hthread] at hrunning
  | readReturns hrunning => simp [hthread] at hrunning
  | checkOpen hrunning => simp [hthread] at hrunning
  | markError hrunning => simp [hthread] at hrunning
  | callBack hrunning => simp [hthread] at hrunning

/-- **`close` loses nothing that was read**: outside `open` and `close`, a port that is not
open has handled every read in turn and once, and the callback is left alone until the
next `open`. -/
theorem handled_before_close {s : AppleSerial} (h : appleSerial.Reachable s)
    (hfree : s.ownerFree = true) (hclosed : s.isOpen = false) :
    s.reads = s.handled.map Prod.snd ∧
      ∀ as t, appleSerial.Run s as t → AppleAct.openCalled ∉ as →
        t.handled = s.handled ∧ t.reads = s.reads := by
  obtain ⟨howner, hinv⟩ := appleInv h
  have hthread := hinv.noThread ((howner.hasThread_of_free hfree).trans hclosed)
  refine ⟨?_, ?_⟩
  · rw [hinv.handled, AppleSerial.pending, hthread, List.append_nil]
  · intro as t hrun hopen
    suffices hall : t.ownerFree = true ∧ t.isOpen = false ∧ t.backgroundThread = .noThread ∧
        t.handled = s.handled ∧ t.reads = s.reads from hall.2.2.2
    induction hrun with
    | nil => exact ⟨hfree, hclosed, hthread, rfl, rfl⟩
    | @snoc as u u' act _ hs ih =>
      simp only [List.mem_append, List.mem_singleton, not_or] at hopen
      obtain ⟨hf, hc, ht, hh, hr⟩ := ih hopen.1
      obtain ⟨hf', hc', ht', hh', hr'⟩ := noThread_step hf hc ht (Ne.symm hopen.2) hs
      exact ⟨hf', hc', ht', hh'.trans hh, hr'.trans hr⟩

theorem handled_before_close_closeRun :
    ∃ s, exec appleStep .constructed (appleCloseRun ++ [.readReturns none, .checkOpen, .join]) =
        some s ∧ s.reads = s.handled.map Prod.snd := by
  have hsome : ∃ s ∈ exec appleStep .constructed
      (appleCloseRun ++ [.readReturns none, .checkOpen, .join]),
      s.ownerFree = true ∧ s.isOpen = false := by decide
  obtain ⟨s, hs, hfree, hclosed⟩ := hsome
  exact ⟨s, hs, (handled_before_close (LTS.reachable_of_exec _ hs) hfree hclosed).1⟩

/-! ## `close` comes back -/

/-- The steps the thread has left on a closed descriptor, at most. -/
def AppleSerial.work (s : AppleSerial) : Nat :=
  match s.backgroundThread with
  | .noThread => 0
  | .finished => 0
  | .returned none => 1
  | .reading _ false => 2
  | .looping => 3
  | .failing => 4
  | .returned (some _) => 4
  | .reading _ true => 5

/-- The owner waits in `join`. -/
def AppleSerial.Joining (s : AppleSerial) : Prop :=
  (OwnerInv s ∧ ThreadInv s) ∧ ∃ caller, s.stage = .closeJoining caller

/-- The steps of a `close` that waits. -/
def NotAppleJoin (_ : AppleSerial) (act : AppleAct) : Prop := act ≠ .join

/-- **On a closed descriptor every step of the thread leaves less to do.** -/
theorem apple_joining_step {s s' : AppleSerial} {act : AppleAct} (h : s.Joining)
    (hact : act ≠ .join) (hs : appleStep s act = some s') : s'.Joining ∧ s'.work < s.work := by
  obtain ⟨hinv, caller, hjoining⟩ := h
  have hinv' : OwnerInv s' ∧ ThreadInv s' :=
    ⟨ownerInv_step hinv.1 hs, threadInv_step hinv.1 hinv.2 hs⟩
  obtain ⟨hclosed, hshut⟩ : s.isOpen = false ∧ s.fdOpen = false := by
    simpa only [OwnerInv, hjoining] using hinv.1
  have hbusy : s.ownerFree = false := by simp [AppleSerial.ownerFree, hjoining]
  refine and_assoc.mpr ⟨hinv', ?_⟩
  cases act with
  | setCallback set => obtain ⟨hfree, -⟩ := appleStep_setCallback_iff.mp hs; grind
  | write str written => obtain ⟨⟨hfree, -⟩, -⟩ := appleStep_write_iff.mp hs; grind
  | openCalled => obtain ⟨hfree, -⟩ := appleStep_openCalled_cases hs; grind
  | openDevice ok => obtain ⟨hstage, -⟩ := appleStep_openDevice_cases hs; grind
  | setUpFails => obtain ⟨hstage, -⟩ := appleStep_setUpFails_iff.mp hs; grind
  | clearError => obtain ⟨hstage, -⟩ := appleStep_clearError_iff.mp hs; grind
  | markOpen => obtain ⟨hstage, -⟩ := appleStep_markOpen_iff.mp hs; grind
  | startThread => obtain ⟨hstage, -⟩ := appleStep_startThread_iff.mp hs; grind
  | closeCalled => obtain ⟨hfree, -⟩ := appleStep_closeCalled_cases hs; grind
  | closeFd => obtain ⟨_, hstage, -⟩ := appleStep_closeFd_iff.mp hs; grind
  | join => exact absurd rfl hact
  | callRead =>
    obtain ⟨hthread, rfl⟩ := appleStep_callRead_iff.mp hs
    exact ⟨⟨caller, hjoining⟩, by simp [AppleSerial.work, hthread, hshut]⟩
  | readReturns received =>
    obtain ⟨fd, live, hthread, hanswer, -, rfl⟩ := appleStep_readReturns_iff.mp hs
    refine ⟨⟨caller, hjoining⟩, ?_⟩
    cases received with
    | none => cases live <;> simp [AppleSerial.work, hthread]
    | some data =>
      obtain rfl := hanswer.resolve_right (by simp)
      simp [AppleSerial.work, hthread]
  | checkOpen =>
    obtain ⟨hthread, rfl⟩ := appleStep_checkOpen_iff.mp hs
    exact ⟨⟨caller, hjoining⟩, by simp [AppleSerial.work, hthread, hclosed]⟩
  | markError =>
    obtain ⟨hthread, rfl⟩ := appleStep_markError_iff.mp hs
    exact ⟨⟨caller, hjoining⟩, by simp [AppleSerial.work, hthread]⟩
  | callBack =>
    obtain ⟨data, hthread, rfl⟩ := appleStep_callBack_iff.mp hs
    exact ⟨⟨caller, hjoining⟩, by simp [AppleSerial.work, hthread]⟩

/-- A thread that is not done has a step to make. -/
theorem apple_joining_progress {s : AppleSerial} (h : s.Joining) :
    s.backgroundThread = .finished ∨ ∃ act s', act ≠ .join ∧ appleStep s act = some s' := by
  obtain ⟨⟨_, hthread⟩, caller, hjoining⟩ := h
  have hrunning := hthread.running.mpr (by rw [AppleSerial.hasThread, hjoining])
  cases hstage : s.backgroundThread with
  | noThread => exact absurd hstage hrunning
  | finished => exact .inl rfl
  | looping => exact .inr ⟨.callRead, _, by simp, appleStep_callRead_iff.mpr ⟨hstage, rfl⟩⟩
  | reading fd live =>
    exact .inr ⟨.readReturns none, _, by simp,
      appleStep_readReturns_iff.mpr ⟨fd, live, hstage, .inr rfl, by simp, rfl⟩⟩
  | returned received =>
    cases received with
    | none => exact .inr ⟨.checkOpen, _, by simp, appleStep_checkOpen_iff.mpr ⟨hstage, rfl⟩⟩
    | some data =>
      exact .inr ⟨.callBack, _, by simp, appleStep_callBack_iff.mpr ⟨data, hstage, rfl⟩⟩
  | failing => exact .inr ⟨.markError, _, by simp, appleStep_markError_iff.mpr ⟨hstage, rfl⟩⟩

/-- **`close` comes back**: behind `::close` the thread has five steps left at most, the
return of a read under way among them, and wherever it has none `join` returns. -/
theorem apple_close_returns {s : AppleSerial} {caller : CloseCaller}
    (hreach : appleSerial.Reachable s) (hjoining : s.stage = .closeJoining caller) :
    (∀ as t, (appleSerial.restrict NotAppleJoin).Run s as t →
        as.length ≤ 5 ∧
          ((∃ act t', (appleSerial.restrict NotAppleJoin).step t act t') ∨
            ∃ t', appleStep t .join = some t')) ∧
      ∃ as t t', (appleSerial.restrict NotAppleJoin).Run s as t ∧
        appleStep t .join = some t' := by
  have hstart : s.Joining := ⟨appleInv hreach, caller, hjoining⟩
  have hbound : s.work ≤ 5 := by
    unfold AppleSerial.work
    split <;> omega
  have hstep : ∀ t act t', t.Joining → (appleSerial.restrict NotAppleJoin).step t act t' →
      t'.Joining ∧ t'.work < t.work :=
    fun t act t' ht hs => apple_joining_step ht hs.1 (show appleStep t act = some t' from hs.2)
  have hjoin : ∀ t : AppleSerial, t.Joining → t.backgroundThread = .finished →
      ∃ t', appleStep t .join = some t' := by
    rintro t ⟨_, caller, hstage⟩ hdone
    exact ⟨_, appleStep_join_iff.mpr ⟨hdone, caller, hstage, rfl⟩⟩
  have hprogress : ∀ t : AppleSerial, t.Joining → t.backgroundThread = .finished ∨
      ∃ act t', (appleSerial.restrict NotAppleJoin).step t act t' := by
    intro t ht
    refine (apple_joining_progress ht).imp_right ?_
    rintro ⟨act, t', hact, hs⟩
    exact ⟨act, t', hact, hs⟩
  constructor
  · intro as t hrun
    obtain ⟨ht, hle⟩ := hrun.length_add_le hstep hstart
    refine ⟨by omega, ?_⟩
    rcases hprogress t ht with hdone | hmore
    · exact .inr (hjoin t ht hdone)
    · exact .inl hmore
  · obtain ⟨as, t, hrun, ht, hdone⟩ := LTS.exists_run_of_progress hstep hprogress s hstart
    obtain ⟨t', hs⟩ := hjoin t ht hdone
    exact ⟨as, t, t', hrun, hs⟩

theorem apple_close_returns_closeRun :
    ∃ s as t t', exec appleStep .constructed appleCloseRun = some s ∧
      (appleSerial.restrict NotAppleJoin).Run s as t ∧ appleStep t .join = some t' := by
  have hsome : ∃ s ∈ exec appleStep .constructed appleCloseRun,
      s.stage = .closeJoining .owner := by decide
  obtain ⟨s, hs, hjoining⟩ := hsome
  obtain ⟨-, as, t, t', hrun, hjoin⟩ :=
    apple_close_returns (LTS.reachable_of_exec appleCloseRun hs) hjoining
  exact ⟨s, as, t, t', hs, hrun, hjoin⟩

end CarPi.Serial
