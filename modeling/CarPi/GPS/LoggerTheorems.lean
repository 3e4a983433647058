/-
CarPi.GPS.LoggerTheorems — what the reassembly of modem answers keeps over
any sequence of callback calls.

Two properties are characterised exactly, over every sequence of calls:

* nothing received is lost: the records pushed so far and the buffer
  together spell `norm` of everything received if and only if no call finds
  an LF in `response` (`receive_eq_norm_iff`). The LF a call finds there is
  a CR that arrived earlier, and the rewriting of the whole buffer deletes it.
* only complete answers are logged: if and only if every call finds an "OK"
  in its text (`completeAnswers_iff`). Without one the cut is at `npos + 2`,
  so one byte is cut off and logged.

The first is a balance of lengths. Each step adds `norm` of its input and
loses the LF that waited (`content_step`), so the length missing at the end
of a run is the `tally` of those losses (`length_content_receive`).
-/
import CarPi.GPS.Logger

namespace CarPi.GPS

open CarPi.Foundation

/-! ## No byte lost -/

/-- Everything the logger has kept of its input, in order: the records, then
the buffer. -/
def GPSLogger.content (lg : GPSLogger) : List UInt8 := lg.records.flatten ++ lg.response

/-- The line ends waiting in the buffer, which the next call deletes. -/
def GPSLogger.waitingLF (lg : GPSLogger) (_ : Delivery) : Nat := lg.response.count LF

/-- Successive calls whose records the logging core accepts. -/
def GPSLogger.receiveChunks (lg : GPSLogger) (chunks : List (List UInt8)) : GPSLogger :=
  lg.receive (chunks.map .accepted)

/-- The callback finds no line end of an earlier call in its buffer. -/
def NoWaitingLF (lg : GPSLogger) (_ : Delivery) : Prop := LF ∉ lg.response

instance (lg : GPSLogger) (call : Delivery) : Decidable (NoWaitingLF lg call) :=
  inferInstanceAs (Decidable (LF ∉ lg.response))

theorem receiveChunks_cons (lg : GPSLogger) (d : List UInt8) (ds : List (List UInt8)) :
    lg.receiveChunks (d :: ds)
      = (recievedDataCallback lg (.accepted d)).receiveChunks ds := rfl

/-- Cutting the text in two keeps all of it, wherever the cut is. -/
theorem content_step {lg : GPSLogger} (h : CR ∉ lg.response) (d : List UInt8) :
    (recievedDataCallback lg (.accepted d)).content
      = lg.records.flatten ++ (lg.response.filter (· ≠ LF) ++ norm d) := by
  have htext := text_eq h (.accepted d)
  rw [recievedDataCallback_eq, GPSLogger.content]
  simp only [Delivery.accepted, if_true, List.flatten_append, List.flatten_singleton,
    List.append_assoc]
  rw [List.take_append_drop]
  exact congrArg _ htext

theorem length_filter_add_count (s : List UInt8) :
    (s.filter (· ≠ LF)).length + s.count LF = s.length := by
  rw [← List.countP_eq_length_filter, List.count, Nat.add_comm,
    List.length_eq_countP_add_countP (· == LF)]
  simp

/-- The length missing after a run is the number of line ends its calls found
waiting. -/
theorem length_content_receive : ∀ (chunks : List (List UInt8)) (lg : GPSLogger),
    CR ∉ lg.response →
    (lg.receiveChunks chunks).content.length
        + tally recievedDataCallback GPSLogger.waitingLF lg (chunks.map .accepted)
      = lg.content.length + (norm chunks.flatten).length
  | [], lg, _ => by simp [GPSLogger.receiveChunks, GPSLogger.receive, tally, norm]
  | d :: ds, lg, h => by
      have ih := length_content_receive ds (recievedDataCallback lg (.accepted d))
        (cr_not_mem_response lg _)
      have hcount := length_filter_add_count lg.response
      rw [content_step h d] at ih
      rw [receiveChunks_cons, List.map_cons, tally, List.flatten_cons, norm_append]
      simp only [GPSLogger.content, GPSLogger.waitingLF, List.length_append] at ih ⊢
      omega

/-- Where no line end waits, a run adds exactly `norm` of what it receives. -/
theorem content_receive : ∀ (chunks : List (List UInt8)) (lg : GPSLogger),
    CR ∉ lg.response →
    Throughout recievedDataCallback NoWaitingLF lg (chunks.map .accepted) →
    (lg.receiveChunks chunks).content = lg.content ++ norm chunks.flatten
  | [], lg, _, _ => by simp [GPSLogger.receiveChunks, GPSLogger.receive, norm]
  | d :: ds, lg, h, ⟨hlf, hrest⟩ => by
      have hkeep : lg.response.filter (· ≠ LF) = lg.response := filter_ne_of_not_mem hlf
      rw [receiveChunks_cons,
        content_receive ds _ (cr_not_mem_response lg _) hrest,
        content_step h d, hkeep, List.flatten_cons, norm_append]
      simp [GPSLogger.content]

/-- **Nothing received is lost exactly when no call finds a line end waiting
in its buffer.** -/
theorem receive_eq_norm_iff (chunks : List (List UInt8)) :
    (GPSLogger.fresh.receiveChunks chunks).records.flatten
        ++ (GPSLogger.fresh.receiveChunks chunks).response = norm chunks.flatten
      ↔ Throughout recievedDataCallback NoWaitingLF .fresh (chunks.map .accepted) := by
  have hcr : CR ∉ GPSLogger.fresh.response := List.not_mem_nil
  constructor
  · intro heq
    have hlen := length_content_receive chunks .fresh hcr
    have hsame : (GPSLogger.fresh.receiveChunks chunks).content.length
        = (norm chunks.flatten).length := congrArg List.length heq
    have hzero : GPSLogger.fresh.content.length = 0 := rfl
    have htally : tally recievedDataCallback GPSLogger.waitingLF .fresh
        (chunks.map .accepted) = 0 := by omega
    have hall := (tally_eq_zero_iff _ _ _ _).mp htally
    refine (throughout_congr (I := fun _ => True) (fun _ _ _ _ => trivial) ?_ _ _ trivial).mp hall
    intro lg _ _
    exact List.count_eq_zero
  · intro hall
    exact content_receive chunks .fresh hcr hall

/-- The answer "A CR B", cut behind its CR: the line end is lost. -/
theorem receive_loses_line_end :
    ¬ ∀ (s : List UInt8) (chunks : List (List UInt8)), chunks.flatten = s →
      (GPSLogger.fresh.receiveChunks chunks).records.flatten
        ++ (GPSLogger.fresh.receiveChunks chunks).response = norm s := by
  intro h
  have hlost := h [65, CR, 66] [[65, CR], [66]] rfl
  revert hlost
  decide

/-! ## Only complete answers -/

/-- A complete answer ends with "OK", and holds no earlier "OK". -/
structure CompleteAnswer (rec : List UInt8) : Prop where
  ends : okWord <:+ rec
  first : ∀ q, q + okWord.length < rec.length → ¬ okWord <+: rec.drop q

/-- A call that finds no "OK" pushes no record, and keeps its whole text. -/
def WaitsForOk (lg : GPSLogger) (call : Delivery) : Prop :=
  ¬ okWord <:+: lg.text call →
    (recievedDataCallback lg call).records = lg.records ∧
    (recievedDataCallback lg call).response = lg.text call

/-- The text of the call holds an "OK"; or there is no text at all, and no
record is opened. -/
def FindsOk (lg : GPSLogger) (call : Delivery) : Prop :=
  okWord <:+: lg.text call ∨ (lg.text call = [] ∧ call.opened = false)

/-- What is cut off a text that holds an "OK" is a complete answer. -/
theorem completeAnswer_take_cut {lg : GPSLogger} {call : Delivery}
    (h : okWord <:+: lg.text call) : CompleteAnswer ((lg.text call).take (lg.cut call)) := by
  obtain ⟨p, hp, hcut⟩ := cut_of_infix h
  rw [hcut]
  exact ⟨isSuffix_take_find hp, fun q hq => not_isPrefix_take_find hp hq⟩

/-- A call waits for its "OK" exactly when it has one to find, or nothing to
cut. -/
theorem waitsForOk_iff (lg : GPSLogger) (call : Delivery) :
    WaitsForOk lg call ↔ FindsOk lg call := by
  unfold WaitsForOk FindsOk
  by_cases hok : okWord <:+: lg.text call
  · simp [hok]
  · simp only [hok, not_false_eq_true, true_imp_iff, false_or]
    rw [recievedDataCallback_records, recievedDataCallback_response, cut_of_not_infix hok]
    constructor
    · rintro ⟨hrec, hresp⟩
      have hlen := congrArg List.length hresp
      rw [List.length_drop] at hlen
      have hnil : lg.text call = [] := List.length_eq_zero_iff.mp (by omega)
      refine ⟨hnil, ?_⟩
      cases hopen : call.opened with
      | false => rfl
      | true => simp [hopen] at hrec
    · rintro ⟨hnil, hopen⟩
      simp [hnil, hopen]

/-- A call that finds its "OK" adds complete answers only. -/
theorem completeAnswers_step {lg : GPSLogger} {call : Delivery} (hfinds : FindsOk lg call)
    (hold : ∀ rec ∈ lg.records, CompleteAnswer rec) :
    ∀ rec ∈ (recievedDataCallback lg call).records, CompleteAnswer rec := by
  intro rec hrec
  rw [recievedDataCallback_records] at hrec
  rcases hfinds with hok | ⟨_, hopen⟩
  · cases hopen : call.opened with
    | false =>
      simp only [hopen, Bool.false_eq_true, if_false] at hrec
      exact hold rec hrec
    | true =>
      simp only [hopen, if_true, List.mem_append, List.mem_singleton] at hrec
      rcases hrec with hin | rfl
      · exact hold rec hin
      · exact completeAnswer_take_cut hok
  · simp only [hopen, Bool.false_eq_true, if_false] at hrec
    exact hold rec hrec

/-- **Only complete answers are logged, and a call without an "OK" waits,
exactly when every call has an "OK" in its text.** -/
theorem completeAnswers_iff (calls : List Delivery) :
    ((∀ rec ∈ (GPSLogger.fresh.receive calls).records, CompleteAnswer rec) ∧
        Throughout recievedDataCallback WaitsForOk .fresh calls)
      ↔ Throughout recievedDataCallback FindsOk .fresh calls := by
  have hsame : Throughout recievedDataCallback WaitsForOk .fresh calls
      ↔ Throughout recievedDataCallback FindsOk .fresh calls :=
    throughout_congr (I := fun _ => True) (fun _ _ _ _ => trivial)
      (fun lg call _ => waitsForOk_iff lg call) calls .fresh trivial
  constructor
  · rintro ⟨_, hwaits⟩
    exact hsame.mp hwaits
  · intro hfinds
    refine ⟨?_, hsame.mpr hfinds⟩
    exact Throughout.invariant
      (I := fun lg : GPSLogger => ∀ rec ∈ lg.records, CompleteAnswer rec)
      (fun lg call hold hcall => completeAnswers_step hcall hold) calls .fresh hfinds
      (fun rec hrec => absurd hrec List.not_mem_nil)

/-- The single byte "A" is logged as an answer, and is gone from the buffer. -/
theorem incomplete_answer_logged :
    ¬ ((∀ rec ∈ (GPSLogger.fresh.receive [.accepted [65]]).records, CompleteAnswer rec) ∧
        Throughout recievedDataCallback WaitsForOk .fresh [.accepted [65]]) := by
  rintro ⟨hcomplete, _⟩
  have hends := (hcomplete [65] (by decide)).ends
  exact absurd hends.length_le (by decide)

end CarPi.GPS
