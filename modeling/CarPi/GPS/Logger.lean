/-
CarPi.GPS.Logger — the reassembly of modem answers in
`Pi::GPS::GPSLogger::recievedDataCallback` (`gps_logger.cpp`).

The serial port hands the callback its input in pieces of up to 512
bytes. The callback appends the piece to `response`, deletes every LF of
the WHOLE buffer, turns every CR of it into LF, and cuts the buffer behind
the first "OK".

Two things in the source decide what the callback does, and the model keeps
both:

* `(pos = response.find("OK")) >= 0` compares a `size_t` with zero, so it
  holds for `npos` too. The branch is always taken and the `else if` below
  it never. With `npos` the cut is at `npos + 2`, which wraps around to 1.
* the rewriting is of `response`, not of the piece that arrived, so text that
  waited in the buffer is rewritten again on each call.

`std::cout` is left out, and so is the construction of the log record: a
record is the text streamed into it.
-/
import CarPi.Foundation.Runs
import CarPi.Foundation.CString

namespace CarPi.GPS

open CarPi.Foundation

/-- The result word of a successful answer. -/
def okWord : List UInt8 := bytes ['O', 'K']

/-- The result word of a failed command. -/
def errorWord : List UInt8 := bytes ['E', 'R', 'R', 'O', 'R']

/-- The members of `GPSLogger` the callback works on: the reassembly buffer,
and the records pushed to the logging core so far, oldest first. -/
structure GPSLogger where
  response : List UInt8
  records : List (List UInt8)
  deriving DecidableEq, Repr

/-- A logger as constructed. -/
def GPSLogger.fresh : GPSLogger := ⟨[], []⟩

/-- One call of the callback: the bytes `data[0..length)`, and whether
`lg.open_record()` yields a record (the logging core may turn it down). -/
structure Delivery where
  data : List UInt8
  opened : Bool
  deriving DecidableEq, Repr

/-- A call whose record the logging core accepts. -/
def Delivery.accepted (data : List UInt8) : Delivery := ⟨data, true⟩

/-- `replace_all(response, "\n", "")`, then `replace_all(response, "\r", "\n")` -/
def normalise (response : List UInt8) : List UInt8 :=
  replaceAll (replaceAll response LF []) CR [LF]

/-- The accumulated response a call works on, after its normalisation. -/
def GPSLogger.text (lg : GPSLogger) (call : Delivery) : List UInt8 :=
  normalise (lg.response ++ call.data)

def recievedDataCallback (lg : GPSLogger) (call : Delivery) : GPSLogger :=
  let response := lg.text call
  -- read Until OK or ERROR
  let pos := find okWord response
  if pos.ge 0 then
    let completeAnswer := response.take (pos.add 2)
    { response := response.drop (pos.add 2)
      records := if call.opened then lg.records ++ [completeAnswer] else lg.records }
  else if (find errorWord response).ge 0 then
    { lg with response := response }
  else
    { lg with response := response }

/-- Successive calls of the callback. -/
def GPSLogger.receive (lg : GPSLogger) (calls : List Delivery) : GPSLogger :=
  calls.foldl recievedDataCallback lg

/-- The number of bytes a call cuts off its text: through the first "OK",
and one byte where there is none. -/
def GPSLogger.cut (lg : GPSLogger) (call : Delivery) : Nat :=
  (find okWord (lg.text call)).add 2

/-! ## What one call does -/

/-- The guard of the callback holds for every result of `find`. -/
theorem recievedDataCallback_eq (lg : GPSLogger) (call : Delivery) :
    recievedDataCallback lg call =
      { response := (lg.text call).drop (lg.cut call)
        records := if call.opened then lg.records ++ [(lg.text call).take (lg.cut call)]
                   else lg.records } := by
  simp [recievedDataCallback, GPSLogger.cut]

@[simp] theorem recievedDataCallback_response (lg : GPSLogger) (call : Delivery) :
    (recievedDataCallback lg call).response = (lg.text call).drop (lg.cut call) := by
  rw [recievedDataCallback_eq]

theorem recievedDataCallback_records (lg : GPSLogger) (call : Delivery) :
    (recievedDataCallback lg call).records =
      if call.opened then lg.records ++ [(lg.text call).take (lg.cut call)]
      else lg.records := by
  rw [recievedDataCallback_eq]

/-- Without an "OK" one byte is cut off. -/
theorem cut_of_not_infix {lg : GPSLogger} {call : Delivery}
    (h : ¬ okWord <:+: lg.text call) : lg.cut call = 1 := by
  rw [GPSLogger.cut, find_eq_npos_iff.mpr h]
  rfl

/-- With an "OK" the cut is behind the first one. -/
theorem cut_of_infix {lg : GPSLogger} {call : Delivery} (h : okWord <:+: lg.text call) :
    ∃ p, find okWord (lg.text call) = .pos p ∧ lg.cut call = p + okWord.length := by
  cases hf : find okWord (lg.text call) with
  | npos => exact absurd h (find_eq_npos_iff.mp hf)
  | pos p => exact ⟨p, rfl, by rw [GPSLogger.cut, hf]; rfl⟩

/-! ## The rewriting of line ends -/

/-- What the rewriting is for: without LF, and with CR turned into LF. -/
def norm (s : List UInt8) : List UInt8 :=
  (s.filter (· ≠ LF)).map fun b => if b = CR then LF else b

theorem normalise_eq_norm (s : List UInt8) : normalise s = norm s := by
  rw [normalise, replaceAll_nil, replaceAll_singleton, norm]

theorem norm_append (s t : List UInt8) : norm (s ++ t) = norm s ++ norm t := by
  simp [norm]

/-- The rewriting leaves no CR. -/
theorem cr_not_mem_normalise (s : List UInt8) : CR ∉ normalise s := by
  rw [normalise_eq_norm, norm, List.mem_map]
  rintro ⟨b, _, hb⟩
  split at hb
  · exact absurd hb (by decide)
  · contradiction

/-- Text without CR loses its LF when it is rewritten once more, and nothing
else. -/
theorem norm_of_not_mem_cr {s : List UInt8} (h : CR ∉ s) :
    norm s = s.filter (· ≠ LF) := by
  unfold norm
  rw [List.map_congr_left (g := id), List.map_id]
  intro b hb
  have hne : b ≠ CR := fun hc => h (hc ▸ (List.mem_filter.mp hb).1)
  simp [hne]

/-- The rewriting of the whole buffer, when what waits in it was rewritten
before: the waiting text loses its LF. -/
theorem text_eq {lg : GPSLogger} (h : CR ∉ lg.response) (call : Delivery) :
    lg.text call = lg.response.filter (· ≠ LF) ++ norm call.data := by
  rw [GPSLogger.text, normalise_eq_norm, norm_append, norm_of_not_mem_cr h]

/-- Between calls the buffer holds no CR. -/
theorem cr_not_mem_response (lg : GPSLogger) (call : Delivery) :
    CR ∉ (recievedDataCallback lg call).response := by
  rw [recievedDataCallback_response]
  exact fun h => cr_not_mem_normalise _ (List.mem_of_mem_drop h)

end CarPi.GPS
