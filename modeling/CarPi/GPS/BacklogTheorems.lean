/-
CarPi.GPS.BacklogTheorems — complete answers that are left waiting.

One call of the callback looks for one "OK" and cuts the buffer behind it.
What it does not do is look again: if its text holds two answers, the second
waits for the next call, and if that brings an answer too, so does the one
after it. `CarPi::run` clears the callback when polling ends, and what waits
then is never logged. And an answer that comes in two calls has lost a byte
to the first of them by the time its "OK" is found.

An answer is what has been received through its "OK" (`Intake.answers`). It is
pushed when some record holds it, all of it. The callback takes line ends for
something to be removed, so `view` leaves open whether they belong to the
answer; the result is the same for both.

`drained_iff` is about every sequence of calls: each leaves nothing complete
behind exactly when none finds more than one "OK" in its text, and that text,
where an answer is complete, is all that was received of it.

`backlog_le_receive` is about the time after: as long as every chunk completes
an answer, the number of answers that wait does not fall again.
-/
import CarPi.Foundation.Pieces
import CarPi.GPS.Logger
import Mathlib.Data.List.Flatten

namespace CarPi.GPS

open CarPi.Foundation

/-! ## What has been received -/

/-- The logger, and everything its callback was ever given. -/
structure Intake where
  logger : GPSLogger
  received : List UInt8
  deriving DecidableEq, Repr

namespace Intake

def fresh : Intake := ⟨.fresh, []⟩

def receive (h : Intake) (call : Delivery) : Intake :=
  ⟨recievedDataCallback h.logger call, h.received ++ call.data⟩

/-- The answers received, each through its "OK", in the writing of the callback. -/
def answers (h : Intake) : Pieces UInt8 := pieces okWord (norm h.received)

/-- What will have been received of the answer that is not complete yet. -/
def pending (h : Intake) (call : Delivery) : List UInt8 := h.answers.rest ++ norm call.data

end Intake

/-- A text with its line ends, or without. -/
def view (lineEnds : Bool) (s : List UInt8) : List UInt8 := s.filter fun b => lineEnds || b ≠ LF

/-- The call leaves nothing complete behind: no "OK" waits in the buffer, and every answer
received has become a record, in order. -/
def Drained (lineEnds : Bool) (h : Intake) (call : Delivery) : Prop :=
  ¬ okWord <:+: (h.receive call).logger.response ∧
    ((h.receive call).answers.complete.map (view lineEnds)).Sublist
      ((h.receive call).logger.records.map (view lineEnds))

/-- The text of the call holds one "OK" at most. Where an answer is complete, the text is
what was received of it, and a record is opened. -/
def TakesAnswer (lineEnds : Bool) (h : Intake) (call : Delivery) : Prop :=
  occurrences okWord (h.logger.text call) ≤ 1 ∧
    (okWord <:+: h.pending call →
      view lineEnds (h.logger.text call) = view lineEnds (h.pending call) ∧ call.opened = true)

instance (lineEnds : Bool) (h : Intake) (call : Delivery) :
    Decidable (TakesAnswer lineEnds h call) :=
  inferInstanceAs (Decidable (_ ∧ (_ → _ ∧ _)))

/-! ## One "OK" in the text -/

/-- Cutting behind the first "OK" takes that one away, and no other: the word
does not overlap itself. -/
theorem occurrences_response {lg : GPSLogger} {call : Delivery}
    (h : okWord <:+: lg.text call) :
    occurrences okWord (lg.text call)
      = 1 + occurrences okWord (recievedDataCallback lg call).response := by
  obtain ⟨p, hp, hcut⟩ := cut_of_infix h
  obtain ⟨rest, hrest⟩ := isPrefix_of_find hp
  have hk : (lg.text call).drop (p + 1) = 75 :: rest := by
    rw [← List.drop_drop, ← hrest]
    rfl
  have hbehind : (lg.text call).drop (p + okWord.length) = rest := by
    rw [← List.drop_drop, ← hrest, List.drop_left]
  have hno : okWord.isPrefixOf (75 :: rest) = false := rfl
  have hskip : occurrences okWord (75 :: rest) = occurrences okWord rest := by
    rw [occurrences, hno, if_neg Bool.false_ne_true, Nat.zero_add]
  rw [occurrences_of_find (by decide) hp, recievedDataCallback_response, hcut, hbehind, hk, hskip]

/-- No "OK" waits behind a call exactly when there was one at most. -/
theorem not_infix_response_iff (lg : GPSLogger) (call : Delivery) :
    ¬ okWord <:+: (recievedDataCallback lg call).response ↔
      occurrences okWord (lg.text call) ≤ 1 := by
  by_cases hok : okWord <:+: lg.text call
  · rw [occurrences_response hok, ← occurrences_eq_zero_iff]
    omega
  · have hrest : ¬ okWord <:+: (recievedDataCallback lg call).response := by
      rw [recievedDataCallback_response]
      exact fun h => hok (h.trans (List.drop_suffix _ _).isInfix)
    rw [occurrences_eq_zero_iff.mpr hok]
    exact iff_of_true hrest (by decide)

/-- A text is cut behind its only "OK". -/
theorem taken_of_ends {lg : GPSLogger} {call : Delivery} {x y : List UInt8}
    (htext : lg.text call = x ++ y) (hends : okWord <:+ x)
    (hone : occurrences okWord (lg.text call) ≤ 1) :
    (lg.text call).take (lg.cut call) = x ∧ (recievedDataCallback lg call).response = y := by
  obtain ⟨front, rfl⟩ := hends
  have hfind : find okWord (lg.text call) = .pos front.length := by
    refine find_of_occurrences_le_one (by decide) hone ?_
    rw [htext, List.append_assoc, List.drop_left]
    exact List.prefix_append _ _
  have hcut : lg.cut call = (front ++ okWord).length := by
    rw [GPSLogger.cut, hfind, List.length_append]
    rfl
  rw [recievedDataCallback_response, hcut, htext]
  exact ⟨List.take_left, List.drop_left⟩

/-- A text that goes on by `d` ends with "OK" then: `d` does, or it is the "K" behind an
"O". -/
theorem ends_append_iff {s d : List UInt8} (hne : d ≠ []) :
    okWord <:+ s ++ d ↔ okWord <:+ d ∨ d = [75] ∧ [79] <:+ s := by
  constructor
  · intro h
    by_cases hlong : 2 ≤ d.length
    · exact .inl (List.suffix_of_suffix_length_le h (List.suffix_append s d) hlong)
    · obtain ⟨b, rfl⟩ : ∃ b, d = [b] := by
        refine List.length_eq_one_iff.mp ?_
        have hpos := List.length_pos_iff.mpr hne
        omega
      obtain ⟨t, ht⟩ := h
      have hparts : (t ++ [79]) ++ [75] = s ++ [b] := by
        rw [← ht, List.append_assoc]
        rfl
      obtain ⟨hs, hb⟩ := List.append_inj' hparts rfl
      exact .inr ⟨hb.symm, t, hs⟩
  · rintro (h | ⟨rfl, t, rfl⟩)
    · exact h.trans (List.suffix_append s d)
    · refine ⟨t, ?_⟩
      rw [List.append_assoc]
      rfl

/-! ## Views -/

section

variable {lineEnds : Bool}

theorem view_append (s t : List UInt8) :
    view lineEnds (s ++ t) = view lineEnds s ++ view lineEnds t := List.filter_append _ _

theorem view_flatten (ss : List (List UInt8)) :
    view lineEnds ss.flatten = (ss.map (view lineEnds)).flatten := List.filter_flatten

/-- Either view of a text without LF is the text. -/
theorem view_of_not_mem (lineEnds : Bool) {s : List UInt8} (h : LF ∉ s) : view lineEnds s = s := by
  rw [view, List.filter_eq_self]
  intro b hb
  have hne : b ≠ LF := fun heq => h (heq ▸ hb)
  simp [hne]

/-- No view is longer for line ends that are deleted. -/
theorem length_view_filter_le (lineEnds : Bool) (s : List UInt8) :
    (view lineEnds (s.filter (· ≠ LF))).length ≤ (view lineEnds s).length :=
  (List.filter_sublist.filter _).length_le

theorem lf_not_mem_filter (s : List UInt8) : LF ∉ s.filter (· ≠ LF) := by simp

/-- The last letter of "OK" is seen in either view. -/
theorem view_pos_of_ends (lineEnds : Bool) {s d : List UInt8} (hne : d ≠ []) (h : okWord <:+ s ++ d) :
    0 < (view lineEnds d).length := by
  have hk : (75 : UInt8) ∈ d := by
    rcases (ends_append_iff hne).mp h with hends | ⟨rfl, _⟩
    · exact hends.subset (by decide)
    · exact List.mem_cons_self
  exact List.length_pos_of_mem (List.mem_filter.mpr ⟨hk, by cases lineEnds <;> rfl⟩)

/-! ## What a run keeps -/

/-- The invariant: what waits is what was received of the next answer, or the end of it,
line ends apart; nothing is in two places; and what is complete has become records. -/
structure IntakeInv (lineEnds : Bool) (h : Intake) : Prop where
  noCR : CR ∉ h.logger.response
  within : h.logger.response.filter (· ≠ LF) <:+ h.answers.rest.filter (· ≠ LF)
  spent : (view lineEnds h.logger.records.flatten).length
      + (view lineEnds h.logger.response).length ≤ (view lineEnds (norm h.received)).length
  logged : (h.answers.complete.map (view lineEnds)).Sublist
    (h.logger.records.map (view lineEnds))

theorem intakeInv_fresh : IntakeInv lineEnds .fresh :=
  ⟨List.not_mem_nil, List.suffix_rfl, Nat.le_refl _, List.nil_sublist _⟩

theorem Intake.answers_receive (h : Intake) (call : Delivery) :
    (h.receive call).answers = h.answers.addAll okWord (norm call.data) := by
  rw [Intake.answers, Intake.receive, norm_append, pieces, Pieces.addAll_append]
  rfl

theorem Intake.not_infix_rest (h : Intake) : ¬ okWord <:+: h.answers.rest :=
  Pieces.not_infix_rest_addAll (by decide) _ _ (by decide)

theorem Intake.answers_content (h : Intake) :
    h.answers.complete.flatten ++ h.answers.rest = norm h.received :=
  (Pieces.content_addAll _ _).trans (by simp)

/-- A call adds what it was given to the records and the buffer, less the line ends that
waited. -/
theorem spent_step {h : Intake} (hinv : IntakeInv lineEnds h) (call : Delivery) :
    (view lineEnds (h.receive call).logger.records.flatten).length
        + (view lineEnds (h.receive call).logger.response).length
      ≤ (view lineEnds (norm (h.receive call).received)).length := by
  have hlf := length_view_filter_le lineEnds h.logger.response
  have hspent := hinv.spent
  have htext : (view lineEnds (h.logger.text call)).length
      = (view lineEnds (h.logger.response.filter (· ≠ LF))).length
        + (view lineEnds (norm call.data)).length := by
    rw [text_eq hinv.noCR, view_append, List.length_append]
  have hcut : (view lineEnds (h.logger.text call)).length
      = (view lineEnds ((h.logger.text call).take (h.logger.cut call))).length
        + (view lineEnds ((h.logger.text call).drop (h.logger.cut call))).length := by
    rw [← List.length_append, ← view_append, List.take_append_drop]
  simp only [Intake.receive, recievedDataCallback_records, recievedDataCallback_response,
    norm_append, view_append, List.length_append]
  split
  · rw [List.flatten_append, List.flatten_singleton, view_append, List.length_append]
    omega
  · omega

theorem records_prefix_step (lg : GPSLogger) (call : Delivery) :
    lg.records <+: (recievedDataCallback lg call).records := by
  rw [recievedDataCallback_records]
  split
  · exact List.prefix_append _ _
  · exact List.prefix_refl _

/-- The records cannot hold an answer before it is complete: they are too short. -/
theorem not_logged_before {h : Intake} (hinv : IntakeInv lineEnds h) {d : List UInt8}
    (hne : d ≠ []) (hends : okWord <:+ h.answers.rest ++ d) :
    ¬ (h.answers.complete.map (view lineEnds) ++ [view lineEnds (h.answers.rest ++ d)]).Sublist
      (h.logger.records.map (view lineEnds)) := by
  intro hsub
  have hlen := hsub.flatten.length_le
  have hd := view_pos_of_ends lineEnds hne hends
  have hspent := hinv.spent
  rw [← h.answers_content] at hspent
  simp only [List.flatten_append, List.flatten_singleton, ← view_flatten, view_append,
    List.length_append] at hlen hspent
  omega

/-- The last of a list found in another is its last, or found before. -/
theorem sublist_concat_concat {α : Type} {l m : List α} {a b : α}
    (h : (l ++ [a]).Sublist (m ++ [b])) : (l ++ [a]).Sublist m ∨ l.Sublist m ∧ a = b := by
  have hrev := h.reverse
  rw [List.reverse_concat, List.reverse_concat] at hrev
  cases hrev with
  | cons _ hsub =>
    rw [← List.reverse_concat] at hsub
    exact .inl (List.reverse_sublist.mp hsub)
  | cons_cons _ hsub => exact .inr ⟨List.reverse_sublist.mp hsub, rfl⟩

/-! ## One call -/

/-- Where no answer is complete, what is received waits, or the end of it. -/
theorem drained_of_pending {h : Intake} {call : Delivery} (hinv : IntakeInv lineEnds h)
    (hone : occurrences okWord (h.logger.text call) ≤ 1) (hok : ¬ okWord <:+: h.pending call) :
    IntakeInv lineEnds (h.receive call) ∧ Drained lineEnds h call := by
  have hresponse := (not_infix_response_iff h.logger call).mpr hone
  have hanswers := Pieces.addAll_of_not_infix _ h.answers hok
  rw [← h.answers_receive] at hanswers
  have hlogged : ((h.receive call).answers.complete.map (view lineEnds)).Sublist
      ((h.receive call).logger.records.map (view lineEnds)) := by
    rw [hanswers]
    exact hinv.logged.trans ((records_prefix_step h.logger call).sublist.map _)
  refine ⟨⟨cr_not_mem_response h.logger call, ?_, spent_step hinv call, hlogged⟩, hresponse,
    hlogged⟩
  obtain ⟨front, hfront⟩ := hinv.within
  have hwithin : (h.logger.text call).filter (· ≠ LF) <:+ (h.pending call).filter (· ≠ LF) := by
    rw [text_eq hinv.noCR, Intake.pending, List.filter_append, List.filter_append, ← hfront]
    simp
  rw [hanswers, Intake.receive, recievedDataCallback_response]
  exact ((List.drop_suffix _ _).filter _).trans hwithin

/-- Where one is complete and all of it is in the text, it is what is pushed. -/
theorem drained_of_complete {h : Intake} {call : Delivery} (hinv : IntakeInv lineEnds h)
    (hone : occurrences okWord (h.logger.text call) ≤ 1) (hok : okWord <:+: h.pending call)
    (hview : view lineEnds (h.logger.text call) = view lineEnds (h.pending call))
    (hopen : call.opened = true) :
    IntakeInv lineEnds (h.receive call) ∧ Drained lineEnds h call := by
  have htext := text_eq hinv.noCR call
  have hresponse := (not_infix_response_iff h.logger call).mpr hone
  obtain ⟨d, later, hdata, hne, hends, hanswers⟩ :=
    Pieces.addAll_of_infix _ h.answers h.not_infix_rest hok
  rw [← h.answers_receive] at hanswers
  -- what waits is what was received of the answer
  have hsame : h.logger.response.filter (· ≠ LF) = view lineEnds h.answers.rest := by
    rw [htext, Intake.pending, view_append, view_append] at hview
    rw [← List.append_cancel_right hview, view_of_not_mem lineEnds (lf_not_mem_filter _)]
  have hends' : okWord <:+ h.logger.response.filter (· ≠ LF) ++ d := by
    rw [ends_append_iff hne] at hends ⊢
    refine hends.imp_right fun ⟨hd, ho⟩ => ⟨hd, ?_⟩
    rw [hsame]
    exact view_of_not_mem lineEnds (s := [79]) (by decide) ▸ ho.filter _
  obtain ⟨htake, hdrop⟩ := taken_of_ends
    (by rw [htext, hdata, List.append_assoc]) hends' hone
  rw [Pieces.addAll_of_not_infix later _ (by simpa [← hdrop] using hresponse)] at hanswers
  have hlogged : ((h.receive call).answers.complete.map (view lineEnds)).Sublist
      ((h.receive call).logger.records.map (view lineEnds)) := by
    have hrecord : view lineEnds (h.answers.rest ++ d)
        = view lineEnds (h.logger.response.filter (· ≠ LF) ++ d) := by
      rw [view_append, view_append, view_of_not_mem lineEnds (lf_not_mem_filter _), hsame]
    rw [hanswers, Intake.receive, recievedDataCallback_records, if_pos hopen, htake]
    simp only [List.map_append, List.map_cons, List.map_nil, hrecord]
    exact hinv.logged.append (List.Sublist.refl _)
  refine ⟨⟨cr_not_mem_response h.logger call, ?_, spent_step hinv call, hlogged⟩, hresponse,
    hlogged⟩
  rw [hanswers, Intake.receive, hdrop]
  exact List.suffix_rfl

/-- A call that takes its answer keeps the invariant, and leaves nothing behind. -/
theorem drained_of_takesAnswer {h : Intake} {call : Delivery} (hinv : IntakeInv lineEnds h)
    (htakes : TakesAnswer lineEnds h call) :
    IntakeInv lineEnds (h.receive call) ∧ Drained lineEnds h call := by
  obtain ⟨hone, hwhole⟩ := htakes
  by_cases hok : okWord <:+: h.pending call
  · exact drained_of_complete hinv hone hok (hwhole hok).1 (hwhole hok).2
  · exact drained_of_pending hinv hone hok

/-- A call that leaves nothing behind has taken its answer. -/
theorem takesAnswer_of_drained {h : Intake} {call : Delivery} (hinv : IntakeInv lineEnds h)
    (hdrained : Drained lineEnds h call) : TakesAnswer lineEnds h call := by
  obtain ⟨hresponse, hlogged⟩ := hdrained
  have hone := (not_infix_response_iff h.logger call).mp hresponse
  refine ⟨hone, fun hok => ?_⟩
  have htext := text_eq hinv.noCR call
  obtain ⟨d, later, hdata, hne, hends, hanswers⟩ :=
    Pieces.addAll_of_infix _ h.answers h.not_infix_rest hok
  rw [← h.answers_receive] at hanswers
  have hshort := not_logged_before hinv hne hends
  have hfirst := Pieces.complete_prefix_addAll okWord later
    ⟨h.answers.complete ++ [h.answers.rest ++ d], []⟩
  rw [← hanswers] at hfirst
  have hfound := (hfirst.sublist.map (view lineEnds)).trans hlogged
  rw [List.map_append, List.map_singleton] at hfound
  -- the answer must be the record of this call
  have hopen : call.opened = true := by
    by_contra hclosed
    rw [Intake.receive, recievedDataCallback_records, if_neg hclosed] at hfound
    exact hshort hfound
  rw [Intake.receive, recievedDataCallback_records, if_pos hopen, List.map_append,
    List.map_singleton] at hfound hlogged
  have hrecord := ((sublist_concat_concat hfound).resolve_left hshort).2
  -- so it is the only one
  have hlater : ¬ okWord <:+: later := by
    intro hmore
    obtain ⟨e, last, _, _, _, hsecond⟩ := Pieces.addAll_of_infix later
      ⟨h.answers.complete ++ [h.answers.rest ++ d], []⟩
      (show ¬ okWord <:+: [] by decide) hmore
    have htwo := Pieces.complete_prefix_addAll okWord last
      ⟨h.answers.complete ++ [h.answers.rest ++ d] ++ [[] ++ e], []⟩
    rw [← hsecond, ← hanswers] at htwo
    have hfound := (htwo.sublist.map (view lineEnds)).trans hlogged
    rw [List.map_append, List.map_append, List.map_singleton, List.map_singleton] at hfound
    rcases sublist_concat_concat hfound with hbefore | ⟨hbefore, _⟩
    · exact hshort ((List.sublist_append_left _ _).trans hbefore)
    · exact hshort hbefore
  have htake : (h.logger.text call).take (h.logger.cut call)
      = h.logger.response.filter (· ≠ LF) ++ d := by
    by_cases hends' : okWord <:+ h.logger.response.filter (· ≠ LF) ++ d
    · exact (taken_of_ends (y := later)
        (by rw [htext, hdata, List.append_assoc]) hends' hone).1
    · -- the "O" is no longer there, and with it nothing is that came before the "K"
      rw [ends_append_iff hne, not_or] at hends'
      obtain ⟨rfl, ho⟩ := ((ends_append_iff hne).mp hends).resolve_left hends'.1
      have hnil : h.logger.response.filter (· ≠ LF) = [] := by
        by_contra hfull
        have hpos := List.length_pos_iff.mpr hfull
        exact hends'.2 ⟨rfl, List.suffix_of_suffix_length_le (ho.filter (· ≠ LF)) hinv.within hpos⟩
      have hnone : ¬ okWord <:+: h.logger.text call := by
        rw [htext, hdata, hnil, List.nil_append, List.singleton_append, List.infix_cons_iff]
        rintro (hstart | hmore)
        · exact absurd (List.cons_prefix_cons.mp hstart).1 (by decide)
        · exact hlater hmore
      have hcut := cut_of_not_infix hnone
      rw [hcut, htext, hdata, hnil]
      rfl
  refine ⟨?_, hopen⟩
  rw [htake] at hrecord
  rw [htext, Intake.pending, hdata, ← List.append_assoc, ← List.append_assoc, view_append,
    view_append (s := h.answers.rest ++ d), hrecord]

end

/-- **After every call nothing complete waits exactly when no call has more than
one answer to take, and each takes its answer whole.** -/
theorem drained_iff (lineEnds : Bool) (calls : List Delivery) :
    Throughout Intake.receive (Drained lineEnds) .fresh calls ↔
      Throughout Intake.receive (TakesAnswer lineEnds) .fresh calls :=
  throughout_congr (I := IntakeInv lineEnds) (fun _ _ hinv htakes => (drained_of_takesAnswer hinv htakes).1)
    (fun _ _ hinv => ⟨takesAnswer_of_drained hinv,
      fun htakes => (drained_of_takesAnswer hinv htakes).2⟩) calls .fresh intakeInv_fresh

/-- "A" and "B" with their results, each in a call of its own. -/
example : Throughout Intake.receive (TakesAnswer false) .fresh
    [.accepted [65, 13, 10, 79, 75, 13, 10], .accepted [66, 13, 10, 79, 75, 13, 10]] := by
  decide

/-- Of two answers in one chunk the second is left waiting. -/
theorem second_answer_waits :
    ¬ ∃ lineEnds, ∀ calls : List Delivery,
      Throughout Intake.receive (Drained lineEnds) .fresh calls := by
  rintro ⟨lineEnds, h⟩
  obtain ⟨⟨hempty, _⟩, _⟩ := h [.accepted [79, 75, 13, 79, 75, 13]]
  exact hempty (by decide)

/-! ## The backlog -/

/-- The number of complete answers that wait. -/
def GPSLogger.backlog (lg : GPSLogger) : Nat := occurrences okWord lg.response

/-- A call whose chunk completes an answer takes one off and adds one: the
rewriting of what waited cannot undo an "OK". -/
theorem backlog_le_step {lg : GPSLogger} (hcr : CR ∉ lg.response) {call : Delivery}
    (hanswer : okWord <:+: norm call.data) :
    lg.backlog ≤ (recievedDataCallback lg call).backlog := by
  have hne : okWord ≠ [] := by decide
  have hok : okWord <:+: lg.text call := by
    rw [text_eq hcr]
    exact hanswer.trans (List.suffix_append _ _).isInfix
  have hnew : 1 ≤ occurrences okWord (norm call.data) := by
    by_contra hzero
    exact occurrences_eq_zero_iff.mp (by omega) hanswer
  have hold : occurrences okWord lg.response
      ≤ occurrences okWord (lg.response.filter (· ≠ LF)) :=
    occurrences_filter_le hne (List.all_eq_true.mp (by decide)) lg.response
  have hboth := occurrences_append_le hne (lg.response.filter (· ≠ LF)) (norm call.data)
  rw [← text_eq hcr, occurrences_response hok] at hboth
  simp only [GPSLogger.backlog]
  omega

/-- **Once answers wait, as many wait as long as every chunk completes one**: the
logger does not catch up. -/
theorem backlog_le_receive : ∀ (calls : List Delivery) {lg : GPSLogger},
    CR ∉ lg.response → (∀ call ∈ calls, okWord <:+: norm call.data) →
    lg.backlog ≤ (lg.receive calls).backlog
  | [], _, _, _ => Nat.le_refl _
  | call :: calls, lg, hcr, hanswers => by
    obtain ⟨hanswer, hrest⟩ := List.forall_mem_cons.mp hanswers
    exact Nat.le_trans (backlog_le_step hcr hanswer)
      (backlog_le_receive calls (cr_not_mem_response lg call) hrest)

end CarPi.GPS
