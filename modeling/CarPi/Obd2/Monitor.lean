/-
CarPi.Obd2.Monitor — `libObd2::monitorModeReadLine`, for an adapter that
monitors the bus and sends line after line.

The function reads until a read holds an LF and returns what it has read,
without the LF. As in `sendObdRequestString` the loop over the bytes of a
read does not stop at the byte it looks for: what comes behind the LF is
appended to the same line, and nothing is kept for the next call. An LF that
is not the last byte of its read merges two lines, or loses one.

`monitor_lines_iff` is over all calls made on a stream and all ways to cut it
into reads. The function is the reader `wholeReads` of the library
(`monitorLines_eq`), so it gives the lines of the stream exactly when every
read has its LF, if any, at its end.
-/
import CarPi.Foundation.Lines
import CarPi.Obd2.LibObd2

namespace CarPi.Obd2

open CarPi.Foundation

/-! ## The function -/

/-- The loop over the bytes of one read: `retval` and `breakit` afterwards. -/
def appendRead : List UInt8 → List UInt8 → Bool → List UInt8 × Bool
  | [], retval, breakit => (retval, breakit)
  | b :: tmp, retval, breakit =>
    if b = LF then appendRead tmp retval true
    else appendRead tmp (retval ++ [b]) breakit

/-- What a call leaves behind: the object, the line, and the reads to come. -/
structure MonitorAnswer where
  lib : LibObd2
  retval : List UInt8
  unread : List ReadResult

def monitorLoop (lib : LibObd2) : List ReadResult → List UInt8 → Outcome MonitorAnswer
  | [], _ => .blocked
  | .error :: reads, _ => .returned ⟨lib.fail .serialReadError, [], reads⟩
  | .data tmp :: reads, retval =>
    -- an empty read sleeps and goes on
    if tmp.bytes.length = 0 then monitorLoop lib reads retval
    else
      match appendRead tmp.bytes retval false with
      | (retval, breakit) =>
        if breakit then .returned ⟨lib, retval, reads⟩ else monitorLoop lib reads retval

def monitorModeReadLine (lib : LibObd2) (reads : List ReadResult) : Outcome MonitorAnswer :=
  monitorLoop lib reads []

/-- What `n` successive calls return, up to one that is still reading. -/
def monitorLines (lib : LibObd2) (reads : List ReadResult) : Nat → List (List UInt8)
  | 0 => []
  | n + 1 =>
    match monitorModeReadLine lib reads with
    | .returned a => a.retval :: monitorLines a.lib a.unread n
    | _ => []

/-! ## One call -/

/-- The bytes of a read but its LF are appended, and an LF ends the call. -/
theorem appendRead_eq : ∀ (tmp retval : List UInt8) (breakit : Bool),
    appendRead tmp retval breakit
      = (retval ++ tmp.filter (· ≠ LF), breakit || decide (LF ∈ tmp))
  | [], retval, breakit => by simp [appendRead]
  | b :: tmp, retval, breakit => by
    by_cases hb : b = LF
    · rw [appendRead, if_pos hb, appendRead_eq tmp]
      simp [hb]
    · rw [appendRead, if_neg hb, appendRead_eq tmp]
      simp [hb, Ne.symm hb]

theorem monitorLoop_cons (lib : LibObd2) (tmp : Chunk) (reads : List ReadResult)
    (retval : List UInt8) :
    monitorLoop lib (.data tmp :: reads) retval =
      if LF ∈ tmp.bytes then .returned ⟨lib, retval ++ tmp.bytes.filter (· ≠ LF), reads⟩
      else monitorLoop lib reads (retval ++ tmp.bytes) := by
  by_cases hempty : tmp.bytes.length = 0
  · have hnil : tmp.bytes = [] := List.length_eq_zero_iff.mp hempty
    rw [monitorLoop, if_pos hempty]
    simp [hnil]
  · rw [monitorLoop, if_neg hempty, appendRead_eq]
    by_cases hlf : LF ∈ tmp.bytes
    · simp [hlf]
    · rw [filter_ne_of_not_mem hlf]
      simp [hlf]

/-- A call waits for a line the reader does not give, or returns the first one
it gives and leaves the reads of the others. -/
theorem monitorLoop_cases (lib : LibObd2) : ∀ (reads : List Chunk) (retval : List UInt8),
    (monitorLoop lib (reads.map .data) retval = .blocked ∧
        wholeReads LF retval (reads.map Chunk.bytes) = []) ∨
      ∃ line, ∃ rest : List Chunk, monitorLoop lib (reads.map .data) retval
          = .returned ⟨lib, line, rest.map .data⟩ ∧
        wholeReads LF retval (reads.map Chunk.bytes)
          = line :: wholeReads LF [] (rest.map Chunk.bytes)
  | [], retval => Or.inl ⟨rfl, rfl⟩
  | tmp :: reads, retval => by
    rw [List.map_cons, List.map_cons, monitorLoop_cons, wholeReads]
    by_cases hlf : LF ∈ tmp.bytes
    · rw [if_pos hlf, if_pos hlf]
      exact Or.inr ⟨_, reads, rfl, rfl⟩
    · rw [if_neg hlf, if_neg hlf]
      exact monitorLoop_cases lib reads _

/-! ## All calls -/

/-- Successive calls are the reader that uses its reads as a whole. -/
theorem monitorLines_eq (lib : LibObd2) : ∀ (n : Nat) (reads : List Chunk),
    monitorLines lib (reads.map .data) n
      = (wholeReads LF [] (reads.map Chunk.bytes)).take n
  | 0, _ => by simp [monitorLines]
  | n + 1, reads => by
    rw [monitorLines, monitorModeReadLine]
    rcases monitorLoop_cases lib reads [] with ⟨hcall, hlines⟩ | ⟨line, rest, hcall, hlines⟩
    · rw [hcall, hlines]
      rfl
    · rw [hcall, hlines, List.take_succ_cons]
      exact congrArg _ (monitorLines_eq lib n rest)

/-- **Successive calls return the lines of the stream exactly when no read holds
an LF before its last byte.** -/
theorem monitor_lines_iff (lib : LibObd2) (reads : List Chunk) :
    (∀ n, monitorLines lib (reads.map .data) n
        = (lines LF (reads.flatMap Chunk.bytes)).take n) ↔
      ∀ tmp ∈ reads, LF ∉ tmp.bytes.dropLast := by
  have hreader := wholeReads_eq_lines_iff (reads.map Chunk.bytes) (List.not_mem_nil (a := LF))
  rw [List.nil_append, ← List.flatMap_def, List.forall_mem_map] at hreader
  rw [← hreader]
  simp only [monitorLines_eq]
  constructor
  · intro h
    have hall := h (max (wholeReads LF [] (reads.map Chunk.bytes)).length
      (lines LF (reads.flatMap Chunk.bytes)).length)
    rwa [List.take_of_length_le (Nat.le_max_left _ _),
      List.take_of_length_le (Nat.le_max_right _ _)] at hall
  · intro h n
    rw [h]

/-- "a LF b LF" in one read comes out as the single line "ab". -/
theorem monitor_merges_lines :
    ¬ ∀ (lib : LibObd2) (reads : List Chunk), (∀ tmp ∈ reads, tmp.bytes ≠ []) →
        ∀ n, monitorLines lib (reads.map .data) n
          = (lines LF (reads.flatMap Chunk.bytes)).take n := by
  intro h
  have hlines := h .new [⟨[97, LF, 98, LF], by decide⟩] (by simp) 2
  revert hlines
  decide

end CarPi.Obd2
