/-
CarPi.Obd2.ReadLoop — what `sendObdRequestString` does, said without its
loop.

Whether a turn of the loop is the last one depends on that turn alone
(`Turn.ending`). So a call makes the turns up to the first such one, ends the
way that turn says, and has by then read `text`: the bytes of these turns
without the prompts. All three are functions of the input.

`readLoop_eq` is the connection: the loop stores `text` and ends as `ending`
says, unless `text` does not fit. `sendObdRequestString_eq` carries it
through the checks behind the loop. Later modules use this equation, or take
the ways a call goes (`Exchange`) one by one, and do not open the loop again.
-/
import CarPi.Obd2.LibObd2

namespace CarPi.Obd2

open CarPi.Foundation

/-! ## The abstract exchange -/

/-- The bytes of a read that go into the reply. -/
def withoutPrompts (bs : List UInt8) : List UInt8 := bs.filter (· ≠ prompt)

def ReadResult.bytes : ReadResult → List UInt8
  | .error => []
  | .data tmp => tmp.bytes

section Exchange

variable (sleeptime timeout seconds : Int)

/-- How the loop is left at the end of this turn, if it is. The tests come in
the order of the source: a turn that brings the prompt too late times out. -/
def Turn.ending (turn : Turn) : Option LoopEnd :=
  match turn.read with
  | .error => some .readError
  | .data tmp =>
    if 0 < timeout ∧ deadlinePassed sleeptime timeout seconds turn.now then some .timedOut
    else if timeout = -1 then some .notWaiting
    else if prompt ∈ tmp.bytes then some .prompted
    else none

/-- The turns up to the first that ends the loop. -/
def turnsMade (turns : List Turn) : List Turn :=
  turns.take (turns.findIdx (fun turn => (turn.ending sleeptime timeout seconds).isSome) + 1)

/-- How the loop ends; `none` while it has not. -/
def endingOf (turns : List Turn) : Option LoopEnd :=
  turns.findSome? (Turn.ending sleeptime timeout seconds)

/-- The bytes read by the turns made. -/
def bytesRead (turns : List Turn) : List UInt8 :=
  (turnsMade sleeptime timeout seconds turns).flatMap (·.read.bytes)

/-- The bytes read, without the prompts. -/
def textOf (turns : List Turn) : List UInt8 :=
  withoutPrompts (bytesRead sleeptime timeout seconds turns)

end Exchange

namespace PortBehaviour

def ending (port : PortBehaviour) (sleeptime timeout : Int) : Option LoopEnd :=
  endingOf sleeptime timeout port.start port.turns

def text (port : PortBehaviour) (sleeptime timeout : Int) : List UInt8 :=
  textOf sleeptime timeout port.start port.turns

end PortBehaviour

/-! ## Turn by turn -/

theorem withoutPrompts_append (bs cs : List UInt8) :
    withoutPrompts (bs ++ cs) = withoutPrompts bs ++ withoutPrompts cs :=
  List.filter_append bs cs

section Exchange

variable {sleeptime timeout seconds : Int} {turn : Turn}

theorem turnsMade_cons_last {how : LoopEnd}
    (h : turn.ending sleeptime timeout seconds = some how) (turns : List Turn) :
    turnsMade sleeptime timeout seconds (turn :: turns) = [turn] := by
  simp [turnsMade, List.findIdx_cons, h]

theorem turnsMade_cons {turns : List Turn} (h : turn.ending sleeptime timeout seconds = none) :
    turnsMade sleeptime timeout seconds (turn :: turns)
      = turn :: turnsMade sleeptime timeout seconds turns := by
  simp [turnsMade, List.findIdx_cons, h]

theorem bytesRead_cons_last {how : LoopEnd}
    (h : turn.ending sleeptime timeout seconds = some how) (turns : List Turn) :
    bytesRead sleeptime timeout seconds (turn :: turns) = turn.read.bytes := by
  simp [bytesRead, turnsMade_cons_last h]

theorem bytesRead_cons {turns : List Turn} (h : turn.ending sleeptime timeout seconds = none) :
    bytesRead sleeptime timeout seconds (turn :: turns)
      = turn.read.bytes ++ bytesRead sleeptime timeout seconds turns := by
  simp [bytesRead, turnsMade_cons h]

theorem textOf_cons_last {how : LoopEnd}
    (h : turn.ending sleeptime timeout seconds = some how) (turns : List Turn) :
    textOf sleeptime timeout seconds (turn :: turns) = withoutPrompts turn.read.bytes := by
  rw [textOf, bytesRead_cons_last h]

theorem textOf_cons {turns : List Turn} (h : turn.ending sleeptime timeout seconds = none) :
    textOf sleeptime timeout seconds (turn :: turns)
      = withoutPrompts turn.read.bytes ++ textOf sleeptime timeout seconds turns := by
  rw [textOf, bytesRead_cons h, withoutPrompts_append, textOf]

theorem endingOf_cons_last {how : LoopEnd}
    (h : turn.ending sleeptime timeout seconds = some how) (turns : List Turn) :
    endingOf sleeptime timeout seconds (turn :: turns) = some how := by
  rw [endingOf, List.findSome?_cons, h]

theorem endingOf_cons {turns : List Turn} (h : turn.ending sleeptime timeout seconds = none) :
    endingOf sleeptime timeout seconds (turn :: turns)
      = endingOf sleeptime timeout seconds turns := by
  rw [endingOf, List.findSome?_cons, h, endingOf]

end Exchange

/-- What is behind each way to leave the loop. -/
theorem ending_cause {sleeptime timeout seconds : Int} {turn : Turn} {how : LoopEnd}
    (h : turn.ending sleeptime timeout seconds = some how) :
    match how with
    | .readError => turn.read = .error
    | .timedOut => 0 < timeout ∧ deadlinePassed sleeptime timeout seconds turn.now = true
    | .notWaiting => timeout = -1
    | .prompted => prompt ∈ turn.read.bytes := by
  obtain ⟨read, now⟩ := turn
  cases read with
  | error =>
    cases Option.some.inj h
    rfl
  | data tmp =>
    simp only [Turn.ending] at h
    split at h
    · cases Option.some.inj h
      assumption
    · split at h
      · cases Option.some.inj h
        assumption
      · split at h
        · cases Option.some.inj h
          assumption
        · cases h

theorem bytesRead_prefix (sleeptime timeout seconds : Int) (turns : List Turn) :
    bytesRead sleeptime timeout seconds turns <+: turns.flatMap (·.read.bytes) :=
  (List.take_prefix _ turns).flatMap _

/-- A call that ends at a prompt has read one. -/
theorem prompt_mem_bytesRead {sleeptime timeout seconds : Int} : ∀ {turns : List Turn},
    endingOf sleeptime timeout seconds turns = some .prompted →
      prompt ∈ bytesRead sleeptime timeout seconds turns
  | [], h => by cases h
  | turn :: turns, h => by
    cases hend : turn.ending sleeptime timeout seconds with
    | none =>
      rw [endingOf_cons hend] at h
      rw [bytesRead_cons hend]
      exact List.mem_append_right _ (prompt_mem_bytesRead h)
    | some how =>
      rw [endingOf_cons_last hend] at h
      rw [bytesRead_cons_last hend]
      rw [h] at hend
      exact ending_cause hend

/-- Only a caller with `timeout == -1` leaves the loop without waiting. -/
theorem timeout_of_notWaiting {sleeptime timeout seconds : Int} {turns : List Turn}
    (h : endingOf sleeptime timeout seconds turns = some .notWaiting) : timeout = -1 := by
  obtain ⟨turn, _, hend⟩ := List.exists_of_findSome?_eq_some h
  exact ending_cause hend

/-! ## A stream cut into reads -/

/-- Without a prompt inside, only the whole of `answer` and its prompt holds a
prompt. -/
theorem eq_of_prefix_of_prompt_mem {answer bs : List UInt8} (hanswer : prompt ∉ answer)
    (hpre : bs <+: answer ++ [prompt]) (hmem : prompt ∈ bs) : bs = answer ++ [prompt] := by
  rcases List.prefix_concat_iff.mp hpre with heq | hpre
  · exact heq
  · exact absurd (hpre.subset hmem) hanswer

theorem withoutPrompts_of_not_mem {bs : List UInt8} (h : prompt ∉ bs) :
    withoutPrompts bs = bs :=
  filter_ne_of_not_mem h

/-- The text of a call that has read one answer through its prompt. -/
theorem withoutPrompts_answer {answer : List UInt8} (h : prompt ∉ answer) :
    withoutPrompts (answer ++ [prompt]) = answer := by
  rw [withoutPrompts_append, withoutPrompts_of_not_mem h]
  simp [withoutPrompts]

/-- During a call the port brings `stream` in some pieces: no read fails, and no
turn ends past the deadline. -/
structure Delivers (port : PortBehaviour) (sleeptime timeout : Int)
    (stream : List UInt8) : Prop where
  reads : ∀ turn ∈ port.turns, turn.read ≠ .error
  cut : port.turns.flatMap (·.read.bytes) = stream
  inTime : ∀ turn ∈ port.turns,
    deadlinePassed sleeptime timeout port.start turn.now = false

/-- In such a call a waiting caller goes on until a read holds a prompt. -/
theorem ending_of_waiting {sleeptime timeout seconds : Int} {turn : Turn}
    (hwait : 0 < timeout) (hread : turn.read ≠ .error)
    (htime : deadlinePassed sleeptime timeout seconds turn.now = false) :
    turn.ending sleeptime timeout seconds
      = if prompt ∈ turn.read.bytes then some .prompted else none := by
  have hne : timeout ≠ -1 := by omega
  obtain ⟨read, now⟩ := turn
  cases read with
  | error => exact absurd rfl hread
  | data tmp =>
    by_cases hmem : prompt ∈ tmp.bytes <;> simp_all [Turn.ending, ReadResult.bytes]

theorem endingOf_of_prompt_mem {sleeptime timeout seconds : Int} (hwait : 0 < timeout) :
    ∀ {turns : List Turn}, (∀ turn ∈ turns, turn.read ≠ .error) →
      (∀ turn ∈ turns, deadlinePassed sleeptime timeout seconds turn.now = false) →
      prompt ∈ turns.flatMap (·.read.bytes) →
      endingOf sleeptime timeout seconds turns = some .prompted
  | [], _, _, hmem => by simp at hmem
  | turn :: turns, hreads, htime, hmem => by
    obtain ⟨hread, hreads⟩ := List.forall_mem_cons.mp hreads
    obtain ⟨hnow, htime⟩ := List.forall_mem_cons.mp htime
    have hturn := ending_of_waiting hwait hread hnow
    by_cases hp : prompt ∈ turn.read.bytes
    · rw [if_pos hp] at hturn
      exact endingOf_cons_last hturn turns
    · rw [if_neg hp] at hturn
      rw [endingOf_cons hturn]
      rw [List.flatMap_cons, List.mem_append] at hmem
      exact endingOf_of_prompt_mem hwait hreads htime (hmem.resolve_left hp)

/-- A stream with a prompt brings a waiting call to its prompt. -/
theorem Delivers.ending {port : PortBehaviour} {sleeptime timeout : Int} {stream : List UInt8}
    (h : Delivers port sleeptime timeout stream) (hwait : 0 < timeout)
    (hmem : prompt ∈ stream) : port.ending sleeptime timeout = some .prompted :=
  endingOf_of_prompt_mem hwait h.reads h.inTime (h.cut ▸ hmem)

/-- One answer and its prompt: the call reads all of it. -/
theorem Delivers.text {port : PortBehaviour} {sleeptime timeout : Int} {answer : List UInt8}
    (h : Delivers port sleeptime timeout (answer ++ [prompt])) (hwait : 0 < timeout)
    (hanswer : prompt ∉ answer) : port.text sleeptime timeout = answer := by
  have hend := h.ending hwait (List.mem_append_right _ List.mem_cons_self)
  have hpre := bytesRead_prefix sleeptime timeout port.start port.turns
  rw [h.cut] at hpre
  have hread := eq_of_prefix_of_prompt_mem hanswer hpre (prompt_mem_bytesRead hend)
  rw [PortBehaviour.text, textOf, hread, withoutPrompts_answer hanswer]

/-- A port that brings these reads at once. -/
def inReads (tmps : List Chunk) : PortBehaviour where
  write := fun req => req.length
  start := 0
  turns := tmps.map fun tmp => ⟨.data tmp, 0⟩

theorem inReads_delivers {tmps : List Chunk} {stream : List UInt8} {sleeptime timeout : Int}
    (h : tmps.flatMap (·.bytes) = stream) (hsleep : 0 ≤ sleeptime) (hwait : 0 < timeout) :
    Delivers (inReads tmps) sleeptime timeout stream := by
  refine ⟨?_, ?_, ?_⟩
  · simp [inReads]
  · simpa [inReads, List.flatMap_map, ReadResult.bytes] using h
  · intro turn hturn
    obtain ⟨tmp, _, rfl⟩ := List.mem_map.mp hturn
    simp only [deadlinePassed, inReads]
    exact decide_eq_false (by omega)

/-! ## The loop computes it -/

/-- One read: its bytes without the prompts are stored, and a prompt ends the
outer loop. -/
theorem storeRead_eq : ∀ (tmp : List UInt8) (totalReply : Buffer UInt8 replySize)
    (continueLoop : Bool),
    storeRead tmp totalReply continueLoop =
      match totalReply.storeAll (withoutPrompts tmp) with
      | none => .error replySize
      | some totalReply => .ok (totalReply, continueLoop && decide (prompt ∉ tmp))
  | [], totalReply, continueLoop => by
    simp [storeRead, withoutPrompts]
  | b :: tmp, totalReply, continueLoop => by
    by_cases hb : b = prompt
    · rw [storeRead, if_neg (not_not_intro hb), storeRead_eq tmp]
      simp [withoutPrompts, hb]
    · have hcons : withoutPrompts (b :: tmp) = b :: withoutPrompts tmp := by
        simp [withoutPrompts, hb]
      rw [storeRead, if_pos hb, hcons, Buffer.storeAll_cons]
      cases hstore : totalReply.store b with
      | none =>
        rw [Buffer.loc_of_store_eq_none hstore]
        rfl
      | some totalReply =>
        have hmem : prompt ∉ b :: tmp ↔ prompt ∉ tmp := by
          simp [Ne.symm hb]
        simp only [hmem]
        exact storeRead_eq tmp totalReply continueLoop

/-- One turn: what it read is stored, and the loop ends or goes on. -/
theorem readLoop_cons (sleeptime timeout seconds : Int) (turn : Turn) (turns : List Turn)
    (totalReply : Buffer UInt8 replySize) :
    readLoop sleeptime timeout seconds (turn :: turns) totalReply =
      match totalReply.storeAll (withoutPrompts turn.read.bytes) with
      | none => .overrun replySize
      | some totalReply =>
        match turn.ending sleeptime timeout seconds with
        | some how => .ended how totalReply
        | none => readLoop sleeptime timeout seconds turns totalReply := by
  cases hread : turn.read with
  | error => simp [readLoop, Turn.ending, hread, ReadResult.bytes, withoutPrompts]
  | data tmp =>
    simp only [readLoop, Turn.ending, hread, storeRead_eq, ReadResult.bytes]
    cases totalReply.storeAll (withoutPrompts tmp.bytes) with
    | none => rfl
    | some totalReply =>
      by_cases hlate : 0 < timeout ∧ deadlinePassed sleeptime timeout seconds turn.now = true
      · simp [hlate]
      · by_cases hwait : timeout = -1
        · simp [hwait]
        · by_cases hmem : prompt ∈ tmp.bytes <;> simp [hlate, hwait, hmem]

/-- **The read loop stores the text of its turns and ends with the first turn
that ends it**, as long as the text fits. -/
theorem readLoop_eq (sleeptime timeout seconds : Int) : ∀ (turns : List Turn)
    (totalReply : Buffer UInt8 replySize),
    readLoop sleeptime timeout seconds turns totalReply =
      match totalReply.storeAll (textOf sleeptime timeout seconds turns) with
      | none => .overrun replySize
      | some totalReply =>
        match endingOf sleeptime timeout seconds turns with
        | none => .blocked
        | some how => .ended how totalReply
  | [], totalReply => by
    simp [readLoop, textOf, bytesRead, turnsMade, endingOf, withoutPrompts]
  | turn :: turns, totalReply => by
    rw [readLoop_cons]
    cases hend : turn.ending sleeptime timeout seconds with
    | some how => rw [textOf_cons_last hend, endingOf_cons_last hend]
    | none =>
      rw [textOf_cons hend, endingOf_cons hend, Buffer.storeAll_append]
      cases totalReply.storeAll (withoutPrompts turn.read.bytes) with
      | none => rfl
      | some totalReply => exact readLoop_eq sleeptime timeout seconds turns totalReply

/-! ## The call computes it -/

/-- The test for the adapter's NO DATA message: every letter of the word occurs
in the reply. -/
def NoData (reply : List UInt8) : Prop := strspn nodataWord reply = 6

instance (reply : List UInt8) : Decidable (NoData reply) :=
  inferInstanceAs (Decidable (strspn nodataWord reply = 6))

theorem checkReply_eq (lib : LibObd2) (totalReply : Buffer UInt8 replySize) :
    checkReply lib totalReply =
      if totalReply.loc = replySize then .overrun replySize
      else if NoData totalReply.items then
        .returned ⟨lib.fail .nodata, false, totalReply.items⟩
      else .returned ⟨lib, true, totalReply.items⟩ := by
  have hfits : totalReply.loc ≤ replySize := totalReply.fits
  by_cases hloc : totalReply.loc = replySize
  · have hstore : totalReply.store 0 = none := by
      simp [Buffer.store, hloc]
    simp [checkReply, hstore, hloc]
  · have hlt : totalReply.loc < replySize := by omega
    have hspan : strspn nodataWord (totalReply.items ++ [0])
        = strspn nodataWord totalReply.items := by
      unfold strspn
      rw [cstr_append_nul]
    simp only [checkReply, Buffer.store, dif_pos hlt, hloc, if_false, hspan]
    rfl

/-- The result of `write` changes nothing. -/
theorem sendObdRequestString_eq_awaitReply (lib : LibObd2) (port : PortBehaviour)
    (req : List UInt8) (sleeptime timeout : Int) :
    sendObdRequestString lib port req sleeptime timeout
      = awaitReply lib port sleeptime timeout := by
  unfold sendObdRequestString sendObdRequestStringCall
  exact ite_self _

/-- **A call, by how its reads end and the text they bring.** -/
theorem sendObdRequestString_eq (lib : LibObd2) (port : PortBehaviour) (req : List UInt8)
    (sleeptime timeout : Int) :
    sendObdRequestString lib port req sleeptime timeout =
      if sleeptime = -1 then .returned ⟨lib, true, []⟩
      else if replySize < (port.text sleeptime timeout).length then .overrun replySize
      else
        match port.ending sleeptime timeout with
        | none => .blocked
        | some .readError => .returned ⟨lib.fail .serialReadError, false, []⟩
        | some .timedOut => .returned ⟨lib.fail .timeout, false, []⟩
        | some .notWaiting => .returned ⟨lib, true, []⟩
        | some .prompted =>
          if (port.text sleeptime timeout).length = replySize then .overrun replySize
          else if NoData (port.text sleeptime timeout) then
            .returned ⟨lib.fail .nodata, false, port.text sleeptime timeout⟩
          else .returned ⟨lib, true, port.text sleeptime timeout⟩ := by
  rw [sendObdRequestString_eq_awaitReply, awaitReply]
  by_cases hblind : sleeptime = -1
  · rw [if_pos hblind, if_pos hblind]
  · rw [if_neg hblind, if_neg hblind, readLoop_eq, Buffer.storeAll_eq]
    show _ = if replySize < (textOf sleeptime timeout port.start port.turns).length then _ else _
    by_cases hfits : (textOf sleeptime timeout port.start port.turns).length ≤ replySize
    · have hempty : (Buffer.empty : Buffer UInt8 replySize).loc
          + (textOf sleeptime timeout port.start port.turns).length ≤ replySize := by
        simpa [Buffer.loc] using hfits
      rw [dif_pos hempty, if_neg (by omega)]
      simp only [PortBehaviour.ending, PortBehaviour.text]
      cases endingOf sleeptime timeout port.start port.turns with
      | none => rfl
      | some how =>
        cases how with
        | prompted =>
          simp only [checkReply_eq]
          rfl
        | readError => rfl
        | timedOut => rfl
        | notWaiting => rfl
    · have hempty : ¬ (Buffer.empty : Buffer UInt8 replySize).loc
          + (textOf sleeptime timeout port.start port.turns).length ≤ replySize := by
        simpa [Buffer.loc] using hfits
      rw [dif_neg hempty, if_pos (by omega)]

/-! ## The ways a call goes -/

/-- The ways a call goes, each with what it says of the input. -/
inductive Exchange (lib : LibObd2) (port : PortBehaviour) (sleeptime timeout : Int) :
    Outcome Answer → Prop where
  | blind : sleeptime = -1 → Exchange lib port sleeptime timeout (.returned ⟨lib, true, []⟩)
  | tooLong : sleeptime ≠ -1 → replySize < (port.text sleeptime timeout).length →
      Exchange lib port sleeptime timeout (.overrun replySize)
  | blocked : sleeptime ≠ -1 → (port.text sleeptime timeout).length ≤ replySize →
      port.ending sleeptime timeout = none → Exchange lib port sleeptime timeout .blocked
  | readError : sleeptime ≠ -1 → (port.text sleeptime timeout).length ≤ replySize →
      port.ending sleeptime timeout = some .readError →
      Exchange lib port sleeptime timeout (.returned ⟨lib.fail .serialReadError, false, []⟩)
  | timedOut : sleeptime ≠ -1 → (port.text sleeptime timeout).length ≤ replySize →
      port.ending sleeptime timeout = some .timedOut →
      Exchange lib port sleeptime timeout (.returned ⟨lib.fail .timeout, false, []⟩)
  | notWaiting : sleeptime ≠ -1 → (port.text sleeptime timeout).length ≤ replySize →
      port.ending sleeptime timeout = some .notWaiting →
      Exchange lib port sleeptime timeout (.returned ⟨lib, true, []⟩)
  /-- The text fills the array, and the NUL comes behind it. -/
  | full : sleeptime ≠ -1 → (port.text sleeptime timeout).length = replySize →
      port.ending sleeptime timeout = some .prompted →
      Exchange lib port sleeptime timeout (.overrun replySize)
  | noData : sleeptime ≠ -1 → (port.text sleeptime timeout).length < replySize →
      port.ending sleeptime timeout = some .prompted → NoData (port.text sleeptime timeout) →
      Exchange lib port sleeptime timeout
        (.returned ⟨lib.fail .nodata, false, port.text sleeptime timeout⟩)
  | answered : sleeptime ≠ -1 → (port.text sleeptime timeout).length < replySize →
      port.ending sleeptime timeout = some .prompted → ¬ NoData (port.text sleeptime timeout) →
      Exchange lib port sleeptime timeout (.returned ⟨lib, true, port.text sleeptime timeout⟩)

theorem sendObdRequestString_exchange (lib : LibObd2) (port : PortBehaviour)
    (req : List UInt8) (sleeptime timeout : Int) :
    Exchange lib port sleeptime timeout
      (sendObdRequestString lib port req sleeptime timeout) := by
  rw [sendObdRequestString_eq]
  by_cases hblind : sleeptime = -1
  · rw [if_pos hblind]
    exact .blind hblind
  · rw [if_neg hblind]
    by_cases hlong : replySize < (port.text sleeptime timeout).length
    · rw [if_pos hlong]
      exact .tooLong hblind hlong
    · have hfits := Nat.le_of_not_lt hlong
      rw [if_neg hlong]
      cases hend : port.ending sleeptime timeout with
      | none => exact .blocked hblind hfits hend
      | some how =>
        cases how with
        | readError => exact .readError hblind hfits hend
        | timedOut => exact .timedOut hblind hfits hend
        | notWaiting => exact .notWaiting hblind hfits hend
        | prompted =>
          simp only
          by_cases hfull : (port.text sleeptime timeout).length = replySize
          · rw [if_pos hfull]
            exact .full hblind hfull hend
          · have hlt : (port.text sleeptime timeout).length < replySize := by omega
            rw [if_neg hfull]
            by_cases hnodata : NoData (port.text sleeptime timeout)
            · rw [if_pos hnodata]
              exact .noData hblind hlt hend hnodata
            · rw [if_neg hnodata]
              exact .answered hblind hlt hend hnodata

end CarPi.Obd2
