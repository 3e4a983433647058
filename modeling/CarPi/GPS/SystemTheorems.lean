/-
CarPi.GPS.SystemTheorems — from the wire to the log: what the logger of the
running daemon gets to see of what the modem sends.

The bytes of a read go through the `io_service`: the device ends the read,
`readEnd` is posted, and when it runs the callback is called. There is one read
at a time (`OneRead`), so nothing can overtake, and `Heard` accounts for every
read of a run: it came before the callback was set, was handed to it, came behind
`clearCallback`, or its `readEnd` is still posted. `heard_step` keeps it under a
step of any of the three machines.
-/
import CarPi.GPS.System

namespace CarPi.GPS

open CarPi.Foundation

/-! ## What comes in -/

/-- The bytes of the successful reads of a run. -/
def readsOf (acts : List SystemAct) : List (List UInt8) :=
  acts.filterMap fun
    | .readDone false data => some data
    | _ => none

/-- The bytes of a read whose `readEnd` is posted. -/
def readData : Serial.Handler → Option (List UInt8)
  | .readEnd false data => some data
  | _ => none

def pendingReads (s : Serial.AsyncSerial) : List (List UInt8) := s.posted.filterMap readData

theorem filterMap_erase_of_none {α β : Type} [DecidableEq α] {f : α → Option β} {a : α}
    (ha : f a = none) : ∀ l : List α, (l.erase a).filterMap f = l.filterMap f
  | [] => rfl
  | b :: l => by
    by_cases hb : b = a
    · subst hb
      rw [List.erase_cons_head, List.filterMap_cons_none ha]
    · rw [List.erase_cons_tail (by simpa using hb), List.filterMap_cons, List.filterMap_cons,
        filterMap_erase_of_none ha l]

theorem filterMap_readData_eq_nil {l : List Serial.Handler}
    (h : l.countP Serial.Handler.isRead = 0) : l.filterMap readData = [] := by
  rw [List.filterMap_eq_nil_iff]
  intro k hk
  have hnot := List.countP_eq_zero.mp h k hk
  cases k with
  | readEnd error data => exact absurd rfl hnot
  | _ => rfl

/-- The one read there is has ended well: nothing was pending. -/
theorem pendingReads_readDone {s : Serial.AsyncSerial} (hone : Serial.OneRead s)
    (hreading : 0 < s.reading) : pendingReads s = [] := by
  have hmost := hone.atMostOne
  rw [Serial.liveReads] at hmost
  exact filterMap_readData_eq_nil (by omega)

/-- The one read there is has its `readEnd` run: nothing else is pending. -/
theorem pendingReads_readEnd {s : Serial.AsyncSerial} (hone : Serial.OneRead s)
    {data : List UInt8} (hmem : .readEnd false data ∈ s.posted) :
    pendingReads s = [data] ∧ (s.posted.erase (.readEnd false data)).filterMap readData = [] := by
  have hmost := hone.atMostOne
  obtain ⟨before, behind, _, hsplit, herase⟩ := List.exists_erase_eq hmem
  rw [Serial.liveReads, hsplit, List.countP_append, List.countP_cons] at hmost
  simp only [Serial.Handler.isRead, if_true] at hmost
  have hbefore := filterMap_readData_eq_nil (l := before) (by omega)
  have hbehind := filterMap_readData_eq_nil (l := behind) (by omega)
  rw [pendingReads, herase, hsplit]
  simp [readData, hbefore, hbehind]

/-- Where the bytes of the reads are, and what the logger has made of them. -/
structure Heard (acts : List SystemAct) (sys : System) : Prop where
  lg : sys.lg = GPSLogger.fresh.receive sys.calls
  delivered : sys.serial.delivered = sys.calls.map (·.data)
  reads : readsOf acts
    = sys.early ++ sys.calls.map (·.data) ++ sys.late ++ pendingReads sys.serial
  unheard : sys.serial.callback = false → sys.daemon.phase ≠ .exited → sys.calls = []
  running : sys.daemon.phase ≠ .exited → sys.late = []

theorem heard_start : Heard [] .start := by
  refine ⟨rfl, rfl, rfl, ?_, ?_⟩ <;> intros <;> rfl

/-- A step that neither ends a read nor runs the `readEnd` of one. -/
theorem Heard.frame {acts : List SystemAct} {act : SystemAct} {sys : System} {daemon : Daemon}
    {serial : Serial.AsyncSerial} (h : Heard acts sys) (hreads : readsOf [act] = [])
    (hdelivered : serial.delivered = sys.serial.delivered)
    (hpending : pendingReads serial = pendingReads sys.serial)
    (hunheard : serial.callback = false → daemon.phase ≠ .exited →
      sys.serial.callback = false ∧ sys.daemon.phase ≠ .exited)
    (hrunning : daemon.phase ≠ .exited → sys.daemon.phase ≠ .exited) :
    Heard (acts ++ [act]) { sys with daemon, serial } := by
  refine ⟨h.lg, hdelivered.trans h.delivered, ?_, fun hdeaf hphase => ?_,
    fun hphase => h.running (hrunning hphase)⟩
  · have happend : readsOf (acts ++ [act]) = readsOf acts ++ readsOf [act] :=
      List.filterMap_append
    rw [happend, hreads, List.append_nil, hpending]
    exact h.reads
  · obtain ⟨hbefore, hphase'⟩ := hunheard hdeaf hphase
    exact h.unheard hbefore hphase'

/-- The callback is called by a successful `readEnd` only. -/
theorem delivered_runHandler (s : Serial.AsyncSerial) (closeFails : Bool) {h : Serial.Handler}
    (hread : readData h = none) : (s.runHandler closeFails h).delivered = s.delivered := by
  cases h with
  | doRead => rfl
  | readEnd error data =>
    cases error with
    | false => cases hread
    | true =>
      rw [Serial.AsyncSerial.runHandler, Serial.AsyncSerial.readEnd_error]
      split <;> rfl
  | doWrite =>
    simp only [Serial.AsyncSerial.runHandler, Serial.AsyncSerial.doWrite]
    split <;> rfl
  | writeEnd error =>
    cases error with
    | false =>
      rw [Serial.AsyncSerial.runHandler, Serial.AsyncSerial.writeEnd_ok]
      split <;> rfl
    | true => rw [Serial.AsyncSerial.runHandler, Serial.AsyncSerial.writeEnd_error]; rfl

/-- A handler that reads nothing runs. -/
theorem heard_run {acts : List SystemAct} {sys : System} {handler : Serial.Handler}
    {closeFails opened : Bool} (h : Heard acts sys) (hread : readData handler = none) :
    Heard (acts ++ [.run handler closeFails opened])
      { sys with
        serial := Serial.AsyncSerial.runHandler
          { sys.serial with posted := sys.serial.posted.erase handler } closeFails handler } := by
  have huntouched := Serial.AsyncSerial.runHandler_untouched
    { sys.serial with posted := sys.serial.posted.erase handler } closeFails handler
  obtain ⟨hmain, _, hposted, _⟩ := huntouched
  simp only [Serial.AsyncSerial.mainSide, Prod.mk.injEq] at hmain
  refine h.frame rfl (delivered_runHandler _ closeFails hread) ?_ ?_ id
  · rw [pendingReads, hposted]
    exact filterMap_erase_of_none hread _
  · rw [hmain.2.2.2.1]
    exact fun hdeaf hphase => ⟨hdeaf, hphase⟩

/-- The `readEnd` of a successful read runs. -/
theorem heard_readEnd {acts : List SystemAct} {sys : System} {data : List UInt8}
    {closeFails opened : Bool} (h : Heard acts sys) (hinv : SystemInv sys)
    (hone : Serial.OneRead sys.serial) (hmem : .readEnd false data ∈ sys.serial.posted) :
    Heard (acts ++ [.run (.readEnd false data) closeFails opened])
      { sys.deliver (.run (.readEnd false data) closeFails opened) with
        daemon := sys.daemon
        serial := Serial.AsyncSerial.runHandler
          { sys.serial with posted := sys.serial.posted.erase (.readEnd false data) } closeFails
          (.readEnd false data) } := by
  obtain ⟨hpending, hrest⟩ := pendingReads_readEnd hone hmem
  have hreads := h.reads
  rw [hpending] at hreads
  have happend : readsOf (acts ++ [.run (.readEnd false data) closeFails opened])
      = readsOf acts := List.filterMap_append.trans (List.append_nil _)
  rw [Serial.AsyncSerial.runHandler, Serial.AsyncSerial.readEnd_ok]
  cases hcallback : sys.serial.callback with
  | true =>
    have hphase := (hinv.heard hcallback).2
    have hlate := h.running hphase
    refine ⟨?_, ?_, ?_, ?_, ?_⟩
    · simp [System.deliver, hcallback, h.lg, GPSLogger.receive]
    · simp [System.deliver, hcallback, h.delivered]
    · rw [happend, hreads]
      simp [System.deliver, hcallback, hlate, pendingReads, hrest]
    · intro hdeaf
      cases hdeaf
    · intro _
      simpa [System.deliver, hcallback] using hlate
  | false =>
    by_cases hphase : sys.daemon.phase = .exited
    · refine ⟨?_, ?_, ?_, ?_, ?_⟩
      · simpa [System.deliver, hcallback, hphase] using h.lg
      · simpa [System.deliver, hcallback, hphase] using h.delivered
      · rw [happend, hreads]
        simp [System.deliver, hcallback, hphase, pendingReads, hrest]
      · exact fun _ hnot => absurd hphase hnot
      · exact fun hnot => absurd hphase hnot
    · have hcalls := h.unheard hcallback hphase
      have hlate := h.running hphase
      refine ⟨?_, ?_, ?_, ?_, ?_⟩
      · simpa [System.deliver, hcallback, hphase] using h.lg
      · simpa [System.deliver, hcallback, hphase] using h.delivered
      · rw [happend, hreads]
        simp [System.deliver, hcallback, hphase, hcalls, hlate, pendingReads, hrest]
      · intro _ _
        simpa [System.deliver, hcallback, hphase] using hcalls
      · intro _
        simpa [System.deliver, hcallback, hphase] using hlate

/-- **One step of any of the three keeps account of every read.** -/
theorem heard_step {acts : List SystemAct} {act : SystemAct} {sys sys' : System}
    (h : Heard acts sys) (hinv : SystemInv sys) (hone : Serial.OneRead sys.serial)
    (hs : systemStep sys act = some sys') : Heard (acts ++ [act]) sys' := by
  obtain ⟨hallows, daemon, serial, hmain, hport, rfl⟩ := systemStep_iff.mp hs
  cases act with
  | signal s =>
    cases hport
    obtain ⟨hphase, rfl⟩ := step_cases hmain
    exact h.frame rfl rfl rfl (fun hdeaf _ => ⟨hdeaf, hphase⟩) fun _ => hphase
  | openNext =>
    cases hmain
    obtain ⟨_, ⟨_, rfl⟩ | ⟨_, rfl⟩ | ⟨_, rfl⟩ | ⟨_, rfl⟩ | ⟨_, rfl⟩⟩ :=
      Serial.step_openNext_cases hport
    case inr.inl =>
      refine h.frame rfl rfl ?_ (fun hdeaf hphase => ⟨hdeaf, hphase⟩) id
      simp [pendingReads, Serial.AsyncSerial.post, readData]
    all_goals exact h.frame rfl rfl rfl (fun hdeaf hphase => ⟨hdeaf, hphase⟩) id
  | openThrows =>
    cases hmain
    obtain ⟨_, rfl⟩ := Serial.step_openThrows_iff.mp hport
    exact h.frame rfl rfl rfl (fun hdeaf hphase => ⟨hdeaf, hphase⟩) id
  | construct opened =>
    cases hport
    obtain ⟨hstarting, rfl⟩ := step_cases hmain
    have hphase : sys.daemon.phase ≠ .exited := by rw [hstarting]; decide
    exact h.frame rfl rfl rfl (fun hdeaf _ => ⟨hdeaf, hphase⟩) fun _ => hphase
  | setCallback =>
    cases hmain
    obtain ⟨_, rfl⟩ := Serial.step_setCallback_iff.mp hport
    exact h.frame rfl rfl rfl (fun hdeaf _ => by cases hdeaf) id
  | loop =>
    cases hport
    obtain ⟨i, hlooping, rfl⟩ := step_cases hmain
    have hphase : sys.daemon.phase ≠ .exited := by rw [hlooping]; simp
    exact h.frame rfl rfl rfl (fun hdeaf _ => ⟨hdeaf, hphase⟩) fun _ => hphase
  | check =>
    cases hport
    obtain ⟨i, running, hchecking, rfl⟩ := step_cases hmain
    have hphase : sys.daemon.phase ≠ .exited := by rw [hchecking]; simp
    exact h.frame rfl rfl rfl (fun hdeaf _ => ⟨hdeaf, hphase⟩) fun _ => hphase
  | append =>
    obtain ⟨i, running, check, hwriting, rfl⟩ := step_cases hmain
    obtain ⟨_, rfl⟩ := Serial.step_append_iff.mp hport
    have hphase : sys.daemon.phase ≠ .exited := by rw [hwriting]; simp
    exact h.frame rfl rfl rfl (fun hdeaf _ => ⟨hdeaf, hphase⟩) fun _ => hphase
  | postWrite =>
    cases hmain
    obtain ⟨_, rfl⟩ := Serial.step_postWrite_iff.mp hport
    refine h.frame rfl rfl ?_ (fun hdeaf hphase => ⟨hdeaf, hphase⟩) id
    simp [pendingReads, Serial.AsyncSerial.post, readData]
  | wake =>
    cases hport
    obtain ⟨i, hsleeping, rfl⟩ := step_cases hmain
    have hphase : sys.daemon.phase ≠ .exited := by rw [hsleeping]; simp
    exact h.frame rfl rfl rfl (fun hdeaf _ => ⟨hdeaf, hphase⟩) fun _ => hphase
  | clearCallback =>
    obtain ⟨hpolled, rfl⟩ := step_cases hmain
    obtain ⟨_, rfl⟩ := Serial.step_setCallback_iff.mp hport
    exact h.frame rfl rfl rfl (fun _ hnot => absurd rfl hnot) fun hnot => absurd rfl hnot
  | run handler closeFails opened =>
    cases hmain
    obtain ⟨_, hmem, rfl⟩ := Serial.step_run_iff.mp hport
    cases handler with
    | readEnd error data =>
      cases error with
      | false => exact heard_readEnd h hinv hone hmem
      | true => exact heard_run h rfl
    | _ => exact heard_run h rfl
  | finish =>
    cases hmain
    obtain ⟨_, rfl⟩ := Serial.step_finish_iff.mp hport
    exact h.frame rfl rfl rfl (fun hdeaf hphase => ⟨hdeaf, hphase⟩) id
  | readDone error data =>
    cases hmain
    obtain ⟨⟨hreading, _⟩, rfl⟩ := Serial.step_readDone_iff.mp hport
    cases error with
    | true =>
      refine h.frame rfl rfl ?_ (fun hdeaf hphase => ⟨hdeaf, hphase⟩) id
      simp [pendingReads, Serial.AsyncSerial.post, readData]
    | false =>
      have hreads := h.reads
      rw [pendingReads_readDone hone hreading, List.append_nil] at hreads
      refine ⟨h.lg, h.delivered, ?_, h.unheard, h.running⟩
      have hnone := pendingReads_readDone hone hreading
      rw [pendingReads] at hnone
      have happend : readsOf (acts ++ [.readDone false data]) = readsOf acts ++ [data] :=
        List.filterMap_append
      rw [happend, hreads]
      simp [System.deliver, pendingReads, Serial.AsyncSerial.post, hnone, readData]
  | writeDone error buffer =>
    cases hmain
    obtain ⟨_, rfl⟩ := Serial.step_writeDone_iff.mp hport
    refine h.frame rfl rfl ?_ (fun hdeaf hphase => ⟨hdeaf, hphase⟩) id
    simp [pendingReads, Serial.AsyncSerial.post, readData]

/-- **The logger is called with every read in turn, once**: the reads of a run are
those that came before the callback was set, the calls of the callback, those
behind `clearCallback`, and the one whose `readEnd` is posted; and the logger is
what its callback makes of the calls. -/
theorem logger_gets_reads {acts : List SystemAct} {sys : System}
    (hrun : system.Run .start acts sys) : Heard acts sys := by
  induction hrun with
  | nil => exact heard_start
  | @snoc acts sys sys' act hrun hs ih =>
    have hreach : system.Reachable sys := ⟨.start, acts, rfl, hrun⟩
    have hone : Serial.OneRead sys.serial := by
      refine (system_simulates_asyncSerial.reachable hreach).invariant ?_ ?_
      · rintro s rfl
        exact Serial.oneRead_constructed
      · intro s a s' h hstep
        exact Serial.oneRead_step h (show Serial.step s a = some s' from hstep)
    exact heard_step ih (systemInv_reachable hreach) hone
      (show systemStep sys act = some sys' from hs)

/-- **From the wire to the log**: where no read came early, every record is opened,
and no call finds a line end waiting, the records and the buffer spell all that was
read while the callback was set. What comes behind `clearCallback` follows, and there is
none of it while the daemon runs. -/
theorem log_spells_reads {acts : List SystemAct} {sys : System}
    (hrun : system.Run .start acts sys) (hearly : sys.early = [])
    (hopened : ∀ call ∈ sys.calls, call.opened = true)
    (hwaiting : Throughout recievedDataCallback NoWaitingLF .fresh sys.calls) :
    sys.lg.records.flatten ++ sys.lg.response
          ++ norm (sys.late ++ pendingReads sys.serial).flatten
        = norm (readsOf acts).flatten ∧
      (sys.daemon.phase ≠ .exited → sys.late = []) := by
  have hheard := logger_gets_reads hrun
  have hcalls : sys.calls = (sys.calls.map (·.data)).map .accepted := by
    rw [List.map_map]
    conv_lhs => rw [← List.map_id sys.calls]
    refine List.map_congr_left fun call hcall => ?_
    have hopen := hopened call hcall
    cases call
    simp_all [Delivery.accepted]
  have hcontent := content_receive (sys.calls.map (·.data)) .fresh List.not_mem_nil
    (by rw [← hcalls]; exact hwaiting)
  rw [GPSLogger.receiveChunks, ← hcalls, ← hheard.lg] at hcontent
  refine ⟨?_, hheard.running⟩
  rw [hheard.reads, hearly, List.nil_append, ← GPSLogger.content, hcontent]
  simp only [List.flatten_append, norm_append, List.append_assoc]
  rfl

/-- The port is opened, and the modem answers "OK". -/
def hearingRun : List SystemAct :=
  [.openNext, .openNext, .openNext, .openNext, .openNext, .run .doRead false true,
    .construct true, .setCallback, .readDone false okWord,
    .run (.readEnd false okWord) false true]

theorem logger_gets_reads_hearingRun :
    ∃ sys, exec systemStep .start hearingRun = some sys ∧ sys.lg.records = [okWord] ∧
      Heard hearingRun sys := by
  have hsome : ∃ sys ∈ exec systemStep .start hearingRun, sys.lg.records = [okWord] := by decide
  obtain ⟨sys, hsys, hrecords⟩ := hsome
  exact ⟨sys, hsys, hrecords, logger_gets_reads (LTS.run_of_exec hsys)⟩

/-- The daemon polls to its end, and the modem answers once more behind `clearCallback`. -/
def lateRun : List SystemAct :=
  hearingRun
    ++ (List.replicate 5 [.loop, .check, .append, .postWrite, .wake]).flatten
    ++ [.loop, .clearCallback, .readDone false okWord, .run (.readEnd false okWord) false true]

theorem log_spells_reads_lateRun :
    ∃ sys, exec systemStep .start lateRun = some sys ∧ sys.late = [okWord] ∧
      sys.lg.records.flatten ++ sys.lg.response
          ++ norm (sys.late ++ pendingReads sys.serial).flatten
        = norm (readsOf lateRun).flatten := by
  have hsome : ∃ sys ∈ exec systemStep .start lateRun, sys.late = [okWord] ∧
      sys.early = [] ∧ (∀ call ∈ sys.calls, call.opened = true) ∧
        Throughout recievedDataCallback NoWaitingLF .fresh sys.calls := by decide
  obtain ⟨sys, hsys, hlate, hearly, hopened, hwaiting⟩ := hsome
  exact ⟨sys, hsys, hlate,
    (log_spells_reads (LTS.run_of_exec hsys) hearly hopened hwaiting).1⟩

end CarPi.GPS
