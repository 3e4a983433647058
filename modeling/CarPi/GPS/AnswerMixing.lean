/-
CarPi.GPS.AnswerMixing — which response each byte of a log record comes
from.

`MarkedLogger` is the logger of `CarPi.GPS.Logger` with every byte carrying
the number of the modem response it belongs to. It decides nothing by the
marks: `unmark_markedCallback` says that forgetting them gives the
callback back, so the marked run IS the run of the code, observed.

The responses arrive one after the other, so the marks in the buffer and in
what is still to come are sorted, and every call keeps them sorted
(`marks_text_sublist`). A record is a prefix of the text of its call, so it
is of one response exactly when nothing that waits in front of its "OK" is
older than the response of that "OK" (`fromOneResponse_take_cut_iff`). Three
things leave such bytes behind: an ERROR result, which the callback never
looks for; a line end that arrives after the "OK" it belongs to; and an "OK"
broken up by the one-byte cuts of calls that found none.
-/
import CarPi.GPS.Logger
import CarPi.Foundation.Provenance

namespace CarPi.GPS

open CarPi.Foundation

/-! ## Modem responses -/

/-- A response: lines without a result word, then the final result line. -/
structure ModemResponse where
  lines : List UInt8
  succeeded : Bool
  linesEnded : lines = [] ∨ lines.getLast? = some LF
  noOk : ¬ okWord <:+: lines
  noError : ¬ errorWord <:+: lines

/-- The bytes on the wire: the result line ends with CR LF. -/
def ModemResponse.wire (r : ModemResponse) : List UInt8 :=
  r.lines ++ (if r.succeeded then okWord else errorWord) ++ [CR, LF]

/-! ## The marked logger -/

structure MarkedLogger where
  response : List (UInt8 × Nat)
  records : List (List (UInt8 × Nat))
  deriving DecidableEq, Repr

def MarkedLogger.fresh : MarkedLogger := ⟨[], []⟩

structure MarkedDelivery where
  data : List (UInt8 × Nat)
  opened : Bool
  deriving DecidableEq, Repr

def MarkedLogger.unmark (lg : MarkedLogger) : GPSLogger :=
  ⟨Foundation.unmark lg.response, lg.records.map Foundation.unmark⟩

def MarkedDelivery.unmark (call : MarkedDelivery) : Delivery :=
  ⟨Foundation.unmark call.data, call.opened⟩

/-- The rewriting of line ends, which keeps the marks. -/
def normaliseMarked (s : List (UInt8 × Nat)) : List (UInt8 × Nat) :=
  (s.filter (·.1 ≠ LF)).map fun x => if x.1 = CR then (LF, x.2) else x

def MarkedLogger.text (lg : MarkedLogger) (call : MarkedDelivery) : List (UInt8 × Nat) :=
  normaliseMarked (lg.response ++ call.data)

def MarkedLogger.cut (lg : MarkedLogger) (call : MarkedDelivery) : Nat :=
  lg.unmark.cut call.unmark

/-- The callback on marked bytes, cutting where the callback cuts. -/
def markedCallback (lg : MarkedLogger) (call : MarkedDelivery) : MarkedLogger :=
  { response := (lg.text call).drop (lg.cut call)
    records := if call.opened then lg.records ++ [(lg.text call).take (lg.cut call)]
               else lg.records }

def MarkedLogger.receive (lg : MarkedLogger) (calls : List MarkedDelivery) : MarkedLogger :=
  calls.foldl markedCallback lg

theorem unmark_normaliseMarked (s : List (UInt8 × Nat)) :
    unmark (normaliseMarked s) = normalise (unmark s) := by
  rw [normalise_eq_norm, norm, normaliseMarked, unmark, unmark, List.map_map, List.filter_map,
    List.map_map]
  refine List.map_congr_left fun x _ => ?_
  by_cases hcr : x.1 = CR <;> simp [hcr]

theorem unmark_text (lg : MarkedLogger) (call : MarkedDelivery) :
    unmark (lg.text call) = lg.unmark.text call.unmark := by
  rw [MarkedLogger.text, unmark_normaliseMarked, unmark_append]
  rfl

/-- The marked callback is the callback, with the marks kept. -/
theorem unmark_markedCallback (lg : MarkedLogger) (call : MarkedDelivery) :
    (markedCallback lg call).unmark = recievedDataCallback lg.unmark call.unmark := by
  rw [recievedDataCallback_eq, ← unmark_text]
  cases hopen : call.opened <;>
    simp [markedCallback, MarkedLogger.unmark, MarkedDelivery.unmark, hopen,
      MarkedLogger.cut, Foundation.unmark, List.map_take, List.map_drop]

/-- So is a run of it. -/
theorem unmark_receive : ∀ (calls : List MarkedDelivery) (lg : MarkedLogger),
    (lg.receive calls).unmark = lg.unmark.receive (calls.map (·.unmark))
  | [], _ => rfl
  | call :: calls, lg => by
      have ih := unmark_receive calls (markedCallback lg call)
      rw [unmark_markedCallback] at ih
      exact ih

/-- Pieces of the marked responses are pieces of what is on the wire. -/
theorem unmark_pieces {calls : List MarkedDelivery} {responses : List ModemResponse}
    (h : (calls.map (·.data)).flatten = markParts (responses.map (·.wire))) :
    ((calls.map (·.unmark)).map (·.data)).flatten = (responses.map (·.wire)).flatten := by
  have hwires := unmark_markParts (responses.map (·.wire))
  rw [← h, Foundation.unmark, List.map_flatten, List.map_map] at hwires
  rw [← hwires, List.map_map]
  rfl

/-! ## The marks of one call -/

/-- The marks of the text of a call: those of the bytes that are not LF. -/
theorem marks_text (lg : MarkedLogger) (call : MarkedDelivery) :
    marks (lg.text call)
      = ((lg.response ++ call.data).filter (·.1 ≠ LF)).map Prod.snd := by
  rw [MarkedLogger.text, normaliseMarked, marks, List.map_map]
  refine List.map_congr_left fun x _ => ?_
  by_cases hcr : x.1 = CR <;> simp [hcr]

theorem marks_text_sublist (lg : MarkedLogger) (call : MarkedDelivery) :
    (marks (lg.text call)).Sublist (marks (lg.response ++ call.data)) := by
  rw [marks_text]
  exact List.filter_sublist.map _

/-- What a call leaves in the buffer, with what is still to come, is sorted
if what it found was. -/
theorem sorted_markedCallback {lg : MarkedLogger} {call : MarkedDelivery}
    {later : List (UInt8 × Nat)}
    (h : (marks (lg.response ++ (call.data ++ later))).Pairwise (· ≤ ·)) :
    (marks ((markedCallback lg call).response ++ later)).Pairwise (· ≤ ·) := by
  refine List.Pairwise.sublist ?_ h
  rw [← List.append_assoc, marks_append, marks_append]
  refine List.Sublist.append ?_ (List.Sublist.refl _)
  have hdrop : (marks (markedCallback lg call).response).Sublist (marks (lg.text call)) :=
    (List.drop_sublist _ _).map _
  exact hdrop.trans (marks_text_sublist lg call)

/-- All bytes of the record come from one response. -/
def FromOneResponse (rec : List (UInt8 × Nat)) : Prop :=
  ∀ x ∈ rec, ∀ y ∈ rec, x.2 = y.2

instance (rec : List (UInt8 × Nat)) : Decidable (FromOneResponse rec) :=
  inferInstanceAs (Decidable (∀ x ∈ rec, ∀ y ∈ rec, x.2 = y.2))

/-- When the call logs an answer, neither the buffer nor the piece that
arrived holds anything but LF of a response older than the one the "OK" is
of. -/
def NothingOlderWaits (lg : MarkedLogger) (call : MarkedDelivery) : Prop :=
  call.opened = true → ∀ p, find okWord (lg.unmark.text call.unmark) = .pos p →
    ∀ k ∈ (marks (lg.text call))[p + 1]?,
      ∀ x ∈ lg.response ++ call.data, x.1 ≠ LF → k ≤ x.2

instance (lg : MarkedLogger) (call : MarkedDelivery) : Decidable (NothingOlderWaits lg call) :=
  match hf : find okWord (lg.unmark.text call.unmark) with
  | .npos => isTrue fun _ p hp => by rw [hf] at hp; cases hp
  | .pos p =>
    decidable_of_iff (call.opened = true → ∀ k ∈ (marks (lg.text call))[p + 1]?,
        ∀ x ∈ lg.response ++ call.data, x.1 ≠ LF → k ≤ x.2)
      ⟨fun h hopen q hq => by rw [hf] at hq; cases hq; exact h hopen, fun h hopen => h hopen p hf⟩

theorem fromOneResponse_iff (rec : List (UInt8 × Nat)) :
    FromOneResponse rec ↔ ∀ a ∈ marks rec, ∀ b ∈ marks rec, a = b := by
  constructor
  · intro h a ha b hb
    obtain ⟨x, hx, rfl⟩ := List.mem_map.mp ha
    obtain ⟨y, hy, rfl⟩ := List.mem_map.mp hb
    exact h x hx y hy
  · intro h x hx y hy
    exact h x.2 (List.mem_map_of_mem hx) y.2 (List.mem_map_of_mem hy)

/-- What a call cuts off is of one response exactly when nothing older waits. -/
theorem fromOneResponse_take_cut_iff {lg : MarkedLogger} {call : MarkedDelivery}
    (hsorted : (marks (lg.response ++ call.data)).Pairwise (· ≤ ·))
    (hopen : call.opened = true) :
    FromOneResponse ((lg.text call).take (lg.cut call)) ↔ NothingOlderWaits lg call := by
  have htext : (marks (lg.text call)).Pairwise (· ≤ ·) :=
    hsorted.sublist (marks_text_sublist lg call)
  have hlen : (marks (lg.text call)).length = (lg.unmark.text call.unmark).length := by
    rw [← unmark_text]
    simp [marks, Foundation.unmark]
  rw [fromOneResponse_iff, marks, List.map_take, ← marks]
  cases hf : find okWord (lg.unmark.text call.unmark) with
  | npos =>
    -- one byte at most is cut off
    have hcut : lg.cut call = 1 := by
      rw [MarkedLogger.cut, GPSLogger.cut, hf]
      rfl
    constructor
    · intro _ _ p hp
      rw [hf] at hp
      cases hp
    · intro _ a ha b hb
      rw [hcut] at ha hb
      cases hm : marks (lg.text call) with
      | nil => rw [hm] at ha; exact absurd ha List.not_mem_nil
      | cons m ms =>
        rw [hm] at ha hb
        simp only [List.take_succ_cons, List.take_zero, List.mem_singleton] at ha hb
        rw [ha, hb]
  | pos p =>
    have hcut : lg.cut call = p + 1 + 1 := by
      rw [MarkedLogger.cut, GPSLogger.cut, hf]
      rfl
    have hbound : p + 1 < (marks (lg.text call)).length := by
      have hfit := find_add_length_le hf (by decide)
      have htwo : okWord.length = 2 := rfl
      omega
    rw [hcut, take_constant_iff htext hbound]
    have hmark := List.getElem?_eq_getElem hbound
    constructor
    · intro hmin _ p' hp k hk x hx hne
      rw [hf] at hp
      cases hp
      rw [hmark, Option.mem_some_iff] at hk
      subst hk
      apply hmin
      rw [marks_text, List.mem_map]
      exact ⟨x, List.mem_filter.mpr ⟨hx, by simpa using hne⟩, rfl⟩
    · intro hwaits a ha
      rw [marks_text, List.mem_map] at ha
      obtain ⟨x, hx, rfl⟩ := ha
      rw [List.mem_filter] at hx
      exact hwaits hopen p hf _ hmark x hx.1 (by simpa using hx.2)

/-! ## Whole runs -/

theorem records_subset_receive : ∀ (calls : List MarkedDelivery) (lg : MarkedLogger),
    lg.records ⊆ (lg.receive calls).records
  | [], _ => List.Subset.refl _
  | call :: calls, lg => by
      have hstep : lg.records ⊆ (markedCallback lg call).records := by
        unfold markedCallback
        split
        · exact List.subset_append_left _ _
        · exact List.Subset.refl _
      exact List.Subset.trans hstep (records_subset_receive calls (markedCallback lg call))

/-- A call adds a record of one response, or none, exactly when nothing older
waits. -/
theorem unmixed_step_iff {lg : MarkedLogger} {call : MarkedDelivery}
    (hsorted : (marks (lg.response ++ call.data)).Pairwise (· ≤ ·))
    (hold : ∀ rec ∈ lg.records, FromOneResponse rec) :
    (∀ rec ∈ (markedCallback lg call).records, FromOneResponse rec)
      ↔ NothingOlderWaits lg call := by
  cases hopen : call.opened with
  | false =>
    refine iff_of_true ?_ (fun h => by rw [hopen] at h; cases h)
    simpa [markedCallback, hopen] using hold
  | true =>
    rw [← fromOneResponse_take_cut_iff hsorted hopen]
    simp only [markedCallback, hopen, if_true, List.mem_append, List.mem_singleton]
    constructor
    · intro h
      exact h _ (Or.inr rfl)
    · rintro h rec (hin | rfl)
      · exact hold rec hin
      · exact h

/-- The induction over the calls: the marks in the buffer and in the pieces
still to come are sorted. -/
theorem unmixed_receive_iff : ∀ (calls : List MarkedDelivery) (lg : MarkedLogger),
    (marks (lg.response ++ (calls.map (·.data)).flatten)).Pairwise (· ≤ ·) →
    (∀ rec ∈ lg.records, FromOneResponse rec) →
    ((∀ rec ∈ (lg.receive calls).records, FromOneResponse rec)
      ↔ Throughout markedCallback NothingOlderWaits lg calls)
  | [], lg, _, hold => iff_of_true hold trivial
  | call :: calls, lg, hsorted, hold => by
      rw [List.map_cons, List.flatten_cons] at hsorted
      have hhere : (marks (lg.response ++ call.data)).Pairwise (· ≤ ·) := by
        rw [← List.append_assoc, marks_append] at hsorted
        exact (List.pairwise_append.mp hsorted).1
      have hstep := unmixed_step_iff hhere hold
      have hrest := unmixed_receive_iff calls (markedCallback lg call)
        (sorted_markedCallback hsorted)
      constructor
      · intro hall
        have hnow : ∀ rec ∈ (markedCallback lg call).records, FromOneResponse rec :=
          fun rec hrec => hall rec (records_subset_receive calls _ hrec)
        exact ⟨hstep.mp hnow, (hrest hnow).mp hall⟩
      · rintro ⟨hcall, hcalls⟩
        exact (hrest (hstep.mpr hcall)).mpr hcalls

/-- **No record mixes two responses exactly when every call that logs an
answer finds nothing older waiting.** -/
theorem records_unmixed_iff (responses : List ModemResponse) (calls : List MarkedDelivery)
    (hcalls : (calls.map (·.data)).flatten = markParts (responses.map (·.wire))) :
    (∀ rec ∈ (MarkedLogger.fresh.receive calls).records, FromOneResponse rec)
      ↔ Throughout markedCallback NothingOlderWaits .fresh calls := by
  apply unmixed_receive_iff
  · rw [hcalls]
    exact marks_markParts_sorted _
  · exact fun rec hrec => absurd hrec List.not_mem_nil

/-- A bare "OK" result. -/
def okResponse : ModemResponse := ⟨[], true, .inl rfl, by decide, by decide⟩

/-- A bare "ERROR" result. -/
def errorResponse : ModemResponse := ⟨[], false, .inl rfl, by decide, by decide⟩

/-- A line "+C", and the result. -/
def lineResponse : ModemResponse :=
  ⟨bytes ['+', 'C', '\r', '\n'], true, .inr rfl, by decide, by decide⟩

/-- That one and a bare result, cut inside the "OK" of the first. -/
def cutInOk : List MarkedDelivery :=
  [⟨(markParts [lineResponse.wire, okResponse.wire]).take 5, true⟩,
    ⟨(markParts [lineResponse.wire, okResponse.wire]).drop 5, true⟩]

theorem records_unmixed_okResponse :
    (MarkedLogger.fresh.receive cutInOk).records.map Foundation.unmark
        = [bytes ['+'], bytes ['C', 'O', 'K']] ∧
      ∀ rec ∈ (MarkedLogger.fresh.receive cutInOk).records, FromOneResponse rec :=
  ⟨by decide, (records_unmixed_iff [lineResponse, okResponse] cutInOk (by decide)).mpr (by decide)⟩

/-- A failed command, then a successful one, in one piece: the record of the
second holds the text of the first. -/
theorem error_answer_mixed :
    ¬ ∀ (responses : List ModemResponse) (calls : List MarkedDelivery),
      (calls.map (·.data)).flatten = markParts (responses.map (·.wire)) →
      ∀ rec ∈ (MarkedLogger.fresh.receive calls).records, FromOneResponse rec := by
  intro h
  have hmixed := h [errorResponse, okResponse]
    [⟨markParts [errorResponse.wire, okResponse.wire], true⟩] (by decide)
  revert hmixed
  decide

end CarPi.GPS
