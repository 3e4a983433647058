/-
CarPi.Obd2.CInterfaceTheorems — the stores of the C wrappers into the array
of their caller.

Both wrappers compare the size of the reply with `replylength` before they
copy it. They store outside of the array all the same:

* `obdLibSendObdRequest` puts a `'.'` behind the copy, and the comparison
  leaves no room for it: a reply of exactly `replylength` bytes passes.
* `obdLibSendObdRequestString` stores its error codes, two or three bytes,
  whatever `replylength` is, and one byte when the reply is empty.

`c_stores_inside_iff` gives the condition for each, in terms of the text the
call underneath hands over (`received`) and of its failure (`Fails`). A call
that overruns `totalReply` ensures nothing about the array of the caller.
-/
import CarPi.Obd2.ResultTheorems

namespace CarPi.Obd2

open CarPi.Foundation

variable {port : PortBehaviour} {sleeptime timeout : Int}

/-! ## Failing calls -/

/-- The call returns `false`: a read fails, the deadline passes, or the text
fires the NO DATA test. -/
def Fails (port : PortBehaviour) (sleeptime timeout : Int) : Prop :=
  EndsInLoop port sleeptime timeout .readError ∨ EndsInLoop port sleeptime timeout .timedOut ∨
    EndsInNoData port sleeptime timeout

theorem returned_false_iff (lib : LibObd2) (req : List UInt8) :
    (∃ a, sendObdRequestString lib port req sleeptime timeout = .returned a ∧ a.ok = false) ↔
      Fails port sleeptime timeout := by
  simp only [failed_iff, Fails, exists_or, exists_and_left, exists_eq, and_true]

/-! ## The stores -/

/-- Where the wrapper returns, it has stored below `replylength` only. -/
def StoresInside (replylength : Nat) (result : Outcome CAnswer) : Prop :=
  result.Ensures fun a => ∀ store ∈ a.stores, store.1 < replylength

/-- Only the indices count. -/
theorem inside_iff_fst (stores : List (Nat × UInt8)) (replylength : Nat) :
    (∀ store ∈ stores, store.1 < replylength) ↔
      ∀ index ∈ stores.map Prod.fst, index < replylength := by
  simp

theorem copyStores_inside_iff (replyvect : List UInt8) (replylength : Nat) :
    (∀ store ∈ copyStores replyvect, store.1 < replylength) ↔
      replyvect.length ≤ replylength := by
  have hfst : (copyStores replyvect).map Prod.fst = List.range replyvect.length :=
    List.map_fst_zip (by simp)
  rw [inside_iff_fst, hfst]
  constructor
  · intro h
    by_contra hlong
    exact absurd (h replylength (List.mem_range.mpr (by omega))) (by omega)
  · intro h i hi
    exact Nat.lt_of_lt_of_le (List.mem_range.mp hi) h

/-- Which error it is does not change where it is stored. -/
theorem failureStores_inside_iff (layer : Layer) (e e' : ObdError) (replylength : Nat) :
    (∀ store ∈ layer.failureStores e, store.1 < replylength) ↔
      ∀ store ∈ layer.failureStores e', store.1 < replylength := by
  have hfst : (layer.failureStores e).map Prod.fst = (layer.failureStores e').map Prod.fst := by
    cases layer <;> rfl
  rw [inside_iff_fst, hfst, ← inside_iff_fst]

/-- A text handed over to `obdLibSendObdRequest`. -/
theorem decoded_stores_inside_iff (lib : LibObd2) (reply : List UInt8) (replylength : Nat) :
    (∀ store ∈ (Layer.report lib reply (.cDecoded replylength)).stores, store.1 < replylength) ↔
      (reply ≠ [] → (pairs isSeparator reply).length ≠ replylength) := by
  simp only [Layer.report]
  split
  · next h =>
    have hne : reply ≠ [] → (pairs isSeparator reply).length ≠ replylength := by
      intro hne
      have hlong := h.resolve_left hne
      omega
    simpa using hne
  · next h =>
    obtain ⟨hempty, hfits⟩ := not_or.mp h
    have hle : (decodeReply reply).length ≤ replylength := by
      rw [length_decodeReply]
      omega
    have hcopy := (copyStores_inside_iff (decodeReply reply) replylength).mpr hle
    rw [List.forall_mem_append]
    simp only [List.forall_mem_singleton, hempty, ne_eq, not_false_eq_true, true_implies]
    constructor
    · rintro ⟨_, hdot⟩
      omega
    · intro hne
      exact ⟨hcopy, by omega⟩

/-- A text handed over to `obdLibSendObdRequestString`. -/
theorem string_stores_inside_iff (lib : LibObd2) (reply : List UInt8) (replylength : Nat) :
    (∀ store ∈ (Layer.report lib reply (.cString replylength)).stores, store.1 < replylength) ↔
      (replylength < reply.length → 1 < replylength) ∧ (reply = [] → 0 < replylength) := by
  simp only [Layer.report]
  split
  · next hlong =>
    have hne : reply ≠ [] := by
      intro hempty
      simp [hempty] at hlong
    simp only [hlong, hne, List.forall_mem_cons, true_implies, false_implies, and_true]
    simp
    omega
  · next hfits =>
    have hcopy := (copyStores_inside_iff reply replylength).mpr (by omega)
    rw [List.forall_mem_append]
    by_cases hempty : reply = []
    · simp [hempty, copyStores]
    · simp only [hempty, hfits, if_false, false_implies, and_true, iff_true]
      exact ⟨hcopy, by simp⟩

/-- A wrapper and the layer that reports it store the same. -/
theorem storesInside_iff_of_run {replylength : Nat} {result : Outcome CAnswer}
    {run : Outcome Report}
    (h : run = result.map fun a => ⟨a.lib, a.ok, a.stores⟩) :
    StoresInside replylength result ↔
      run.Ensures fun report => ∀ store ∈ report.stores, store.1 < replylength := by
  rw [h, Outcome.ensures_map, StoresInside]

/-- The stores of a layer: those for the text it is handed, or for the failure
it is told of. -/
theorem layer_stores_inside_iff (lib : LibObd2) (port : PortBehaviour) (r : Request)
    (replylength : Nat) :
    ((r.run lib port).Ensures fun report => ∀ store ∈ report.stores, store.1 < replylength) ↔
      FitsBuffer port r.sleeptime r.timeout ∧
      (Fails port r.sleeptime r.timeout →
        ∀ store ∈ r.layer.failureStores lib.lastError, store.1 < replylength) ∧
      ∀ reply, port.received r.sleeptime r.timeout = some reply →
        ∀ store ∈ (r.layer.report lib reply).stores, store.1 < replylength := by
  rw [← returned_false_iff lib r.req]
  cases sendObdRequestString_uniform port r.req r.sleeptime r.timeout with
  | received reply hreceived hfits hcall =>
    rw [run_received (hcall lib), hcall lib, hreceived]
    simp [hfits]
  | failed e reply hreceived hfits hcall =>
    rw [run_failed (hcall lib), hcall lib, hreceived]
    simpa [hfits]
      using failureStores_inside_iff r.layer (lib.fail e).lastError lib.lastError replylength
  | blocked hreceived hfits hcall =>
    rw [run_blocked (hcall lib), hcall lib, hreceived]
    simp [hfits]
  | overrun hreceived hfits hcall =>
    rw [run_overrun (hcall lib)]
    simp [hfits]

/-- **The stores of the C wrappers stay inside the array of the caller exactly
when `totalReply` is not overrun, the reply leaves room for the dot, and the error codes
fit.** -/
theorem c_stores_inside_iff (lib : LibObd2) (port : PortBehaviour) (req : List UInt8)
    (replylength : Nat) (sleeptime timeout : Int) :
    (StoresInside replylength
        (obdLibSendObdRequest lib port req replylength sleeptime timeout) ↔
      FitsBuffer port sleeptime timeout ∧
        ∀ reply, port.received sleeptime timeout = some reply → reply ≠ [] →
          (pairs isSeparator reply).length ≠ replylength) ∧
    (StoresInside replylength
        (obdLibSendObdRequestString lib port req replylength sleeptime timeout) ↔
      FitsBuffer port sleeptime timeout ∧ (Fails port sleeptime timeout → 2 < replylength) ∧
        ∀ reply, port.received sleeptime timeout = some reply →
          (replylength < reply.length → 1 < replylength) ∧ (reply = [] → 0 < replylength)) := by
  constructor
  · have hrun : Request.run ⟨.cDecoded replylength, req, sleeptime, timeout⟩ lib port
        = (obdLibSendObdRequest lib port req replylength sleeptime timeout).map fun a =>
          ⟨a.lib, a.ok, a.stores⟩ := rfl
    rw [storesInside_iff_of_run hrun, layer_stores_inside_iff]
    simp only [decoded_stores_inside_iff, Layer.failureStores]
    simp
  · have hrun : Request.run ⟨.cString replylength, req, sleeptime, timeout⟩ lib port
        = (obdLibSendObdRequestString lib port req replylength sleeptime timeout).map fun a =>
          ⟨a.lib, a.ok, a.stores⟩ := rfl
    rw [storesInside_iff_of_run hrun, layer_stores_inside_iff]
    have herror : (∀ store ∈ (Layer.cString replylength).failureStores lib.lastError,
        store.1 < replylength) ↔ 2 < replylength := by
      simp only [Layer.failureStores, List.forall_mem_cons]
      simp
      omega
    simp only [string_stores_inside_iff, herror]

/-- The dot behind a reply of one byte, for a caller with an array of one byte. -/
theorem dot_stored_outside :
    ¬ ∀ (lib : LibObd2) (port : PortBehaviour) (req : List UInt8) (replylength : Nat)
        (sleeptime timeout : Int),
        StoresInside replylength
            (obdLibSendObdRequest lib port req replylength sleeptime timeout) ∧
          StoresInside replylength
            (obdLibSendObdRequestString lib port req replylength sleeptime timeout) := by
  intro h
  let port := inReads [⟨[52, 49, prompt], by decide⟩]
  have hcall : obdLibSendObdRequest .new port [] 1 100 5
      = .returned ⟨.new, true, [(0, 65), (1, 46)], none⟩ := by decide
  have hresult := (h .new port [] 1 100 5).1
  rw [StoresInside, hcall] at hresult
  exact absurd (hresult (1, 46) (by decide)) (by decide)

end CarPi.Obd2
