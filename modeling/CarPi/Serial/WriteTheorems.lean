/-
CarPi.Serial.WriteTheorems — what the write path of `AsyncSerial` guarantees
under every interleaving of its two threads and the device.

Two handlers start writes, `doWrite` and `writeEnd`, and the only guard is
that `writeBuffer` is null. `WriteInv` says why that is enough: the
buffer is set exactly while one write is outstanding, or its successful end is
posted, or a write has failed (`busy`); what was appended is what was handed
on, followed by the queue (`accounted`); and a queue that is not empty has
somebody coming for it (`wakeup`).

`writeInv_step` keeps it under one step, with one lemma for the handlers
that write and a frame (`WriteInv.frame`) for everything else.
`asyncSerial_simulates_fifo` is the result in its abstract form: whatever the
interleaving, the port is a first-in-first-out channel.

A queue left alone is a queue being written only once `writeString` is
through: between its append and its post nobody has been told yet, so
`quiescent_transmitted` speaks of states in which the main thread is not in
between.
-/
import CarPi.Serial.AsyncSerial
import CarPi.Foundation.Fifo

namespace CarPi.Serial

open CarPi.Foundation

/-! ## The invariant -/

structure WriteInv (s : AsyncSerial) : Prop where
  accounted : s.handed ++ s.writeQueue = s.appended
  busy : s.writing.length + s.posted.count (.writeEnd false) + s.writeFailed.toNat
    = s.writeBuffer.isSome.toNat
  transmits : s.writeFailed = false → s.transmitted ++ s.writing.flatten = s.handed
  wakeup : s.writeQueue ≠ [] →
    s.posting = true ∨ .doWrite ∈ s.posted ∨ s.writeBuffer.isSome = true

/-- The fields the write path reads and writes, the posted handlers apart. -/
def writeSide (s : AsyncSerial) :=
  (s.writeQueue, s.writeBuffer, s.writing, s.posting, s.appended, s.handed, s.transmitted,
    s.writeFailed)

/-- A step that leaves the write side alone, takes no `doWrite` away, and
neither adds nor takes a successful `writeEnd`. -/
theorem WriteInv.frame {s s' : AsyncSerial} (h : WriteInv s)
    (hside : writeSide s' = writeSide s)
    (hend : s'.posted.count (.writeEnd false) = s.posted.count (.writeEnd false))
    (hwake : .doWrite ∈ s.posted → .doWrite ∈ s'.posted) : WriteInv s' := by
  simp only [writeSide, Prod.mk.injEq] at hside
  obtain ⟨hq, hb, hw, hp, ha, hh, ht, hf⟩ := hside
  refine ⟨?_, ?_, ?_, ?_⟩
  · rw [hh, hq, ha]; exact h.accounted
  · rw [hw, hend, hf, hb]; exact h.busy
  · rw [hf, ht, hw, hh]; exact h.transmits
  · rw [hq, hp, hb]
    intro hne
    rcases h.wakeup hne with hposting | hposted | hbuffer
    · exact Or.inl hposting
    · exact Or.inr (Or.inl (hwake hposted))
    · exact Or.inr (Or.inr hbuffer)

theorem writeInv_constructed : WriteInv .constructed :=
  ⟨rfl, rfl, fun _ => rfl, fun h => absurd rfl h⟩

/-! ## Handlers -/

/-- A write that is still going on, or ended well, did not fail. -/
theorem writeFailed_of_busy {s : AsyncSerial} (h : WriteInv s)
    (hlt : s.writeBuffer.isSome.toNat < s.writing.length + s.posted.count (.writeEnd false) + 1) :
    s.writeFailed = false := by
  have hbusy := h.busy
  cases hf : s.writeFailed with
  | false => rfl
  | true =>
    rw [hf, Bool.toNat_true] at hbusy
    omega

/-- With nothing outstanding all that was handed on has been transmitted. -/
theorem transmitted_of_idle {s : AsyncSerial} (h : WriteInv s) (hwriting : s.writing = [])
    (hfailed : s.writeFailed = false) : s.transmitted = s.handed := by
  have htrans := h.transmits hfailed
  rw [hwriting] at htrans
  simpa using htrans

/-- Nothing is outstanding, no successful end is posted, and no write failed. -/
theorem idle_of_buffer_none {s : AsyncSerial} (h : WriteInv s) (hb : s.writeBuffer = none) :
    s.writing = [] ∧ s.posted.count (.writeEnd false) = 0 ∧ s.writeFailed = false := by
  have hnone : s.writeBuffer.isSome.toNat = 0 := by rw [hb]; rfl
  have hbusy := h.busy
  refine ⟨List.length_eq_zero_iff.mp (by omega), by omega, ?_⟩
  exact writeFailed_of_busy h (by omega)

/-- Starting a write when none is under way. -/
theorem writeInv_startWrite {s : AsyncSerial} (hacc : s.handed ++ s.writeQueue = s.appended)
    (htrans : s.transmitted = s.handed) (hwriting : s.writing = [])
    (hend : s.posted.count (.writeEnd false) = 0) (hfailed : s.writeFailed = false) :
    WriteInv s.startWrite := by
  refine ⟨?_, ?_, ?_, ?_⟩
  · simpa [AsyncSerial.startWrite] using hacc
  · simp [AsyncSerial.startWrite, hwriting, hend, hfailed]
  · intro _
    simp [AsyncSerial.startWrite, hwriting, htrans]
  · intro hne
    exact absurd rfl hne

/-- The end of a read is of no concern to the write path. -/
theorem readEnd_frame (s : AsyncSerial) (error : Bool) (data : List UInt8)
    (closeFails : Bool) :
    writeSide (s.readEnd error data closeFails) = writeSide s ∧
      (s.readEnd error data closeFails).posted = s.posted := by
  cases error with
  | false => simp [AsyncSerial.readEnd_ok, writeSide]
  | true =>
    rw [AsyncSerial.readEnd_error]
    split <;> exact ⟨rfl, rfl⟩

/-- Taking one handler off the `io_service` leaves the others. -/
theorem count_erase_other {h k : Handler} (hne : h ≠ k) (l : List Handler) :
    (l.erase h).count k = l.count k :=
  List.count_erase_of_ne (Ne.symm hne)

theorem mem_erase_other {h k : Handler} (hne : h ≠ k) {l : List Handler} (hk : k ∈ l) :
    k ∈ l.erase h :=
  (List.mem_erase_of_ne (Ne.symm hne)).mpr hk

theorem writeInv_doWrite {s : AsyncSerial} (h : WriteInv s) :
    WriteInv (AsyncSerial.doWrite { s with posted := s.posted.erase .doWrite }) := by
  have hcount := count_erase_other (k := .writeEnd false) (h := .doWrite) (by decide) s.posted
  unfold AsyncSerial.doWrite
  split
  · next hb =>
    obtain ⟨hwriting, hend, hfailed⟩ := idle_of_buffer_none h hb
    have htrans := transmitted_of_idle h hwriting hfailed
    exact writeInv_startWrite h.accounted htrans hwriting (hcount.trans hend) hfailed
  · next hb =>
    -- the write in progress will come back for the queue
    refine ⟨h.accounted, ?_, h.transmits, ?_⟩
    · simpa [hcount] using h.busy
    · intro _
      refine Or.inr (Or.inr ?_)
      exact Option.isSome_iff_ne_none.mpr hb

theorem writeInv_writeEnd_ok {s : AsyncSerial} (h : WriteInv s) (closeFails : Bool)
    (hmem : .writeEnd false ∈ s.posted) :
    WriteInv (AsyncSerial.writeEnd { s with posted := s.posted.erase (.writeEnd false) }
      false closeFails) := by
  have hbusy := h.busy
  have hpos : 0 < s.posted.count (.writeEnd false) := List.count_pos_iff.mpr hmem
  have hone : s.writeBuffer.isSome.toNat ≤ 1 := Bool.toNat_le _
  have hwriting : s.writing = [] := List.length_eq_zero_iff.mp (by omega)
  have hcount : (s.posted.erase (.writeEnd false)).count (.writeEnd false) = 0 := by
    rw [List.count_erase_self]
    omega
  have hfailed := writeFailed_of_busy h (by omega)
  have htrans := transmitted_of_idle h hwriting hfailed
  rw [AsyncSerial.writeEnd_ok]
  split
  · next hempty =>
    have hnil : s.writeQueue = [] := List.isEmpty_iff.mp hempty
    refine ⟨h.accounted, ?_, h.transmits, ?_⟩
    · simp [hwriting, hcount, hfailed]
    · intro hne
      exact absurd hnil hne
  · exact writeInv_startWrite h.accounted htrans hwriting hcount hfailed

theorem writeInv_writeEnd_error {s : AsyncSerial} (h : WriteInv s) (closeFails : Bool) :
    WriteInv (AsyncSerial.writeEnd { s with posted := s.posted.erase (.writeEnd true) }
      true closeFails) := by
  rw [AsyncSerial.writeEnd_error]
  refine h.frame rfl ?_ ?_
  · exact count_erase_other (by decide) s.posted
  · exact mem_erase_other (by decide)

/-- Every handler keeps the invariant. -/
theorem writeInv_runHandler {s : AsyncSerial} (h : WriteInv s) (closeFails : Bool)
    {handler : Handler} (hmem : handler ∈ s.posted) :
    WriteInv ({ s with posted := s.posted.erase handler }.runHandler closeFails handler) := by
  cases handler with
  | doRead =>
    refine h.frame rfl ?_ ?_
    · exact count_erase_other (by decide) s.posted
    · exact mem_erase_other (by decide)
  | readEnd error data =>
    have hframe := readEnd_frame { s with posted := s.posted.erase (.readEnd error data) } error
      data closeFails
    refine h.frame hframe.1 ?_ ?_
    · rw [AsyncSerial.runHandler, hframe.2]
      exact count_erase_other (by simp) s.posted
    · rw [AsyncSerial.runHandler, hframe.2]
      exact mem_erase_other (by simp)
  | doWrite => exact writeInv_doWrite h
  | writeEnd error =>
    cases error with
    | false => exact writeInv_writeEnd_ok h closeFails hmem
    | true => exact writeInv_writeEnd_error h closeFails

/-! ## Device and main thread -/

theorem writeInv_writeDone {s : AsyncSerial} (h : WriteInv s) {error : Bool}
    {buffer : List UInt8} (hmem : buffer ∈ s.writing) :
    WriteInv { s.post (.writeEnd error) with
      writing := s.writing.erase buffer
      transmitted := if error then s.transmitted else s.transmitted ++ buffer
      writeFailed := s.writeFailed || error } := by
  have hbusy := h.busy
  have hone : s.writeBuffer.isSome.toNat ≤ 1 := Bool.toNat_le _
  have hpos := List.length_pos_of_mem hmem
  -- the operation that ends was the only one
  have hlen : s.writing.length = 1 := by omega
  have hfailed := writeFailed_of_busy h (by omega)
  obtain ⟨only, honly⟩ := List.length_eq_one_iff.mp hlen
  rw [honly, List.mem_singleton] at hmem
  subst hmem
  rw [honly] at hbusy
  have htrans := h.transmits hfailed
  rw [honly, List.flatten_singleton] at htrans
  refine ⟨h.accounted, ?_, ?_, ?_⟩
  · rw [hfailed] at hbusy ⊢
    cases error <;> simp [AsyncSerial.post, honly] at hbusy ⊢ <;> omega
  · cases error with
    | false => intro _; simpa [honly, AsyncSerial.post] using htrans
    | true => simp
  · intro hne
    rcases h.wakeup hne with hposting | hposted | hbuffer
    · exact Or.inl hposting
    · exact Or.inr (Or.inl (List.mem_append_left _ hposted))
    · exact Or.inr (Or.inr hbuffer)

/-- A handler other than a successful `writeEnd` is posted. -/
theorem count_post_other {s : AsyncSerial} {k : Handler} (hne : k ≠ .writeEnd false) :
    (s.post k).posted.count (.writeEnd false) = s.posted.count (.writeEnd false) := by
  simp [AsyncSerial.post, List.count_append, hne]

theorem mem_post {s : AsyncSerial} {k h : Handler} (hmem : h ∈ s.posted) :
    h ∈ (s.post k).posted :=
  List.mem_append_left _ hmem

theorem writeInv_append {s : AsyncSerial} (h : WriteInv s) (str : List UInt8) :
    WriteInv { s with
      writeQueue := s.writeQueue ++ str, appended := s.appended ++ str, posting := true } := by
  refine ⟨?_, h.busy, h.transmits, fun _ => Or.inl rfl⟩
  rw [← h.accounted, List.append_assoc]

theorem writeInv_postWrite {s : AsyncSerial} (h : WriteInv s) :
    WriteInv { s.post .doWrite with posting := false } := by
  refine ⟨h.accounted, ?_, h.transmits, fun _ => Or.inr (Or.inl ?_)⟩
  · have hbusy := h.busy
    rw [← count_post_other (s := s) (k := .doWrite) (by decide)] at hbusy
    exact hbusy
  · exact List.mem_append_right _ (List.mem_singleton.mpr rfl)

/-- **One step of either thread, or of the device, keeps the invariant.** -/
theorem writeInv_step {s s' : AsyncSerial} {a : Act} (h : WriteInv s)
    (hs : step s a = some s') : WriteInv s' := by
  cases a with
  | openNext =>
    obtain ⟨_, ⟨_, rfl⟩ | ⟨_, rfl⟩ | ⟨_, rfl⟩ | ⟨_, rfl⟩ | ⟨_, rfl⟩⟩ := step_openNext_cases hs
    · exact h.frame rfl rfl id
    · exact h.frame rfl (count_post_other (by decide)) mem_post
    · exact h.frame rfl rfl id
    · exact h.frame rfl rfl id
    · exact h.frame rfl rfl id
  | openThrows =>
    obtain ⟨_, rfl⟩ := step_openThrows_iff.mp hs
    exact h.frame rfl rfl id
  | setCallback set =>
    obtain ⟨_, rfl⟩ := step_setCallback_iff.mp hs
    exact h.frame rfl rfl id
  | append str =>
    obtain ⟨_, rfl⟩ := step_append_iff.mp hs
    exact writeInv_append h str
  | postWrite =>
    obtain ⟨_, rfl⟩ := step_postWrite_iff.mp hs
    exact writeInv_postWrite h
  | run handler closeFails =>
    obtain ⟨_, hmem, rfl⟩ := step_run_iff.mp hs
    exact writeInv_runHandler h closeFails hmem
  | finish =>
    obtain ⟨_, rfl⟩ := step_finish_iff.mp hs
    exact h.frame rfl rfl id
  | readDone error data =>
    obtain ⟨_, rfl⟩ := step_readDone_iff.mp hs
    exact h.frame rfl (count_post_other (by simp)) mem_post
  | writeDone error buffer =>
    obtain ⟨hmem, rfl⟩ := step_writeDone_iff.mp hs
    exact writeInv_writeDone h hmem

theorem writeInv_reachable {s : AsyncSerial} (h : asyncSerial.Reachable s) : WriteInv s := by
  refine h.invariant ?_ ?_
  · rintro s rfl
    exact writeInv_constructed
  · intro s a s' hi hs
    exact writeInv_step hi (show step s a = some s' from hs)

/-! ## The port as a channel -/

/-- Where the bytes stand: taken in by `writeString`, handed to `async_write`. -/
def channelOf (s : AsyncSerial) : Fifo UInt8 := ⟨s.appended, s.handed⟩

theorem channelOf_startWrite {s : AsyncSerial} (h : s.handed ++ s.writeQueue = s.appended) :
    (fifo UInt8).step (channelOf s) (.send s.writeQueue) (channelOf s.startWrite) :=
  .send _ _ (by rw [channelOf, h])

theorem channelOf_runHandler {s : AsyncSerial} (h : s.handed ++ s.writeQueue = s.appended)
    (closeFails : Bool) (handler : Handler) :
    (∃ b, (fifo UInt8).step (channelOf s) b (channelOf (s.runHandler closeFails handler)))
      ∨ channelOf (s.runHandler closeFails handler) = channelOf s := by
  cases handler with
  | doRead => exact Or.inr rfl
  | readEnd error data =>
    have hside := (readEnd_frame s error data closeFails).1
    simp only [writeSide, Prod.mk.injEq] at hside
    exact Or.inr (by simp [channelOf, AsyncSerial.runHandler, hside])
  | doWrite =>
    simp only [AsyncSerial.runHandler, AsyncSerial.doWrite]
    split
    · exact Or.inl ⟨_, channelOf_startWrite h⟩
    · exact Or.inr rfl
  | writeEnd error =>
    cases error with
    | false =>
      simp only [AsyncSerial.runHandler, AsyncSerial.writeEnd_ok]
      split
      · exact Or.inr rfl
      · exact Or.inl ⟨_, channelOf_startWrite h⟩
    | true =>
      rw [AsyncSerial.runHandler, AsyncSerial.writeEnd_error]
      exact Or.inr rfl

/-- Each step takes a string in, hands the queue on, or changes neither. -/
theorem channelOf_step {s s' : AsyncSerial} {a : Act} (h : WriteInv s)
    (hs : step s a = some s') :
    (∃ b, (fifo UInt8).step (channelOf s) b (channelOf s')) ∨ channelOf s' = channelOf s := by
  cases a with
  | openNext =>
    obtain ⟨_, ⟨_, rfl⟩ | ⟨_, rfl⟩ | ⟨_, rfl⟩ | ⟨_, rfl⟩ | ⟨_, rfl⟩⟩ :=
      step_openNext_cases hs <;> exact Or.inr rfl
  | openThrows => obtain ⟨_, rfl⟩ := step_openThrows_iff.mp hs; exact Or.inr rfl
  | setCallback set => obtain ⟨_, rfl⟩ := step_setCallback_iff.mp hs; exact Or.inr rfl
  | append str =>
    obtain ⟨_, rfl⟩ := step_append_iff.mp hs
    exact Or.inl ⟨.accept str, .accept _ str⟩
  | postWrite => obtain ⟨_, rfl⟩ := step_postWrite_iff.mp hs; exact Or.inr rfl
  | run handler closeFails =>
    obtain ⟨_, _, rfl⟩ := step_run_iff.mp hs
    exact channelOf_runHandler
      (s := { s with posted := s.posted.erase handler }) h.accounted closeFails handler
  | finish => obtain ⟨_, rfl⟩ := step_finish_iff.mp hs; exact Or.inr rfl
  | readDone error data => obtain ⟨_, rfl⟩ := step_readDone_iff.mp hs; exact Or.inr rfl
  | writeDone error buffer =>
    obtain ⟨_, rfl⟩ := step_writeDone_iff.mp hs
    exact Or.inr rfl

/-- **The port is a first-in-first-out channel.** -/
theorem asyncSerial_simulates_fifo : LTS.Simulation asyncSerial (fifo UInt8) channelOf := by
  refine ⟨?_, ?_⟩
  · rintro s rfl
    rfl
  · intro s a s' hreach hs
    exact channelOf_step (writeInv_reachable hreach) (show step s a = some s' from hs)

/-- What reaches the device is a prefix of what was appended, in every state. -/
theorem handed_prefix_appended {s : AsyncSerial} (h : asyncSerial.Reachable s) :
    s.handed <+: s.appended :=
  fifo_sent_prefix (asyncSerial_simulates_fifo.reachable h)

/-! ## Order, loss and lost wake-ups -/

/-- No handler is posted, no write is outstanding, and no write has failed. -/
def Quiet (s : AsyncSerial) : Prop :=
  s.posted = [] ∧ s.writing = [] ∧ s.writeFailed = false

instance (s : AsyncSerial) : Decidable (Quiet s) :=
  inferInstanceAs (Decidable (s.posted = [] ∧ s.writing = [] ∧ s.writeFailed = false))

theorem quiescent_transmitted {s : AsyncSerial} (h : WriteInv s) (hquiet : Quiet s)
    (hposting : s.posting = false) : s.writeQueue = [] ∧ s.transmitted = s.appended := by
  obtain ⟨hposted, hwriting, hfailed⟩ := hquiet
  have hbuffer : s.writeBuffer.isSome = false := by
    have hbusy := h.busy
    rw [hposted, hwriting, hfailed] at hbusy
    cases hb : s.writeBuffer.isSome with
    | false => rfl
    | true => rw [hb] at hbusy; simp at hbusy
  have hqueue : s.writeQueue = [] := by
    by_contra hne
    rcases h.wakeup hne with hp | hp | hp
    · rw [hposting] at hp; cases hp
    · rw [hposted] at hp; exact absurd hp List.not_mem_nil
    · rw [hbuffer] at hp; cases hp
  have htrans := h.transmits hfailed
  have hacc := h.accounted
  rw [hwriting, List.flatten_nil, List.append_nil] at htrans
  rw [hqueue, List.append_nil] at hacc
  exact ⟨hqueue, htrans.trans hacc⟩

/-- **Commands reach the wire in order, without loss or duplication.** -/
theorem writes_in_order {s : AsyncSerial} (h : asyncSerial.Reachable s) :
    s.writing.length ≤ 1 ∧ s.handed ++ s.writeQueue = s.appended ∧
      (Quiet s → s.posting = false → s.writeQueue = [] ∧ s.transmitted = s.appended) := by
  have hinv := writeInv_reachable h
  have hbusy := hinv.busy
  have hone : s.writeBuffer.isSome.toNat ≤ 1 := Bool.toNat_le _
  exact ⟨by omega, hinv.accounted, quiescent_transmitted hinv⟩

/-- The port is opened, "A" is written, and its write ends. -/
def writeRun : List Act :=
  [.openNext, .openNext, .openNext, .openNext, .openNext, .run .doRead false,
    .append [65], .postWrite, .run .doWrite false, .writeDone false [65],
    .run (.writeEnd false) false]

theorem writes_in_order_writeRun :
    ∃ s, exec step .constructed writeRun = some s ∧ s.transmitted = [65] ∧
      s.writing.length ≤ 1 ∧ s.handed ++ s.writeQueue = s.appended ∧
      (Quiet s → s.posting = false → s.writeQueue = [] ∧ s.transmitted = s.appended) := by
  have hsome : (exec step .constructed writeRun).isSome = true := by decide
  obtain ⟨s, hs⟩ := Option.isSome_iff_exists.mp hsome
  have htrans : ((exec step .constructed writeRun).map (·.transmitted)) = some [65] := by decide
  rw [hs] at htrans
  exact ⟨s, hs, by simpa using htrans, writes_in_order (LTS.reachable_of_exec writeRun hs)⟩

/-- Between the append and the post of `writeString` the port is quiet with
its string still queued. -/
theorem quiet_between_append_and_post :
    ¬ ∀ s, asyncSerial.Reachable s →
      s.writing.length ≤ 1 ∧ s.handed ++ s.writeQueue = s.appended ∧
        (Quiet s → s.writeQueue = [] ∧ s.transmitted = s.appended) := by
  intro h
  have hreach : asyncSerial.Reachable
      { AsyncSerial.constructed with writeQueue := [65], appended := [65], posting := true } :=
    LTS.reachable_of_exec [.append [65]] (by decide)
  have hqueue := ((h _ hreach).2.2 ⟨rfl, rfl, rfl⟩).1
  cases hqueue

end CarPi.Serial
