/-
CarPi.Obd2.LastErrorTheorems — whether `lastError()` tells why this request
failed.

`m_lastError` is set on the failing paths of `sendObdRequestString` and never
reset. The layers above return `false` for reasons of their own (a text of
length zero, a reply too long for the caller's array) and leave the field as
some earlier request left it; `obdLibSendObdRequestString` even stores it
into the array of the caller when the text is empty.

The statement is about two runs: one request, on one port, with two objects
of any history. `sameReport_iff` gives the requests whose report does not
depend on the history. They are those that stay inside `totalReply` and do not come to
such a reason, which `PortBehaviour.received` reads off the input.
-/
import CarPi.Foundation.Hex
import CarPi.Foundation.Runs
import CarPi.Obd2.HexTheorems

namespace CarPi.Obd2

open CarPi.Foundation

/-! ## Requests and histories -/

/-- The function a request goes through. The overloads of the first two pass
`sleeptime` and `timeout` of their own. -/
inductive Layer where
  /-- `sendObdRequestString`, and the blind `sendObdRequest` over it -/
  | string
  /-- `sendObdRequest` -/
  | decoded
  /-- `obdLibSendObdRequest` -/
  | cDecoded (replylength : Nat)
  /-- `obdLibSendObdRequestString` -/
  | cString (replylength : Nat)

structure Request where
  layer : Layer
  req : List UInt8
  sleeptime : Int
  timeout : Int

/-- What a caller can tell from a request besides the reply: the object, the
return value, and the stores into the array of a C caller. -/
structure Report where
  lib : LibObd2
  ok : Bool
  stores : List (Nat × UInt8)
  deriving DecidableEq, Repr

def Request.run (r : Request) (lib : LibObd2) (port : PortBehaviour) : Outcome Report :=
  match r.layer with
  | .string =>
    (sendObdRequestString lib port r.req r.sleeptime r.timeout).map fun a => ⟨a.lib, a.ok, []⟩
  | .decoded =>
    (sendObdRequest lib port r.req r.sleeptime r.timeout).map fun a => ⟨a.lib, a.ok, []⟩
  | .cDecoded replylength =>
    (obdLibSendObdRequest lib port r.req replylength r.sleeptime r.timeout).map fun a =>
      ⟨a.lib, a.ok, a.stores⟩
  | .cString replylength =>
    (obdLibSendObdRequestString lib port r.req replylength r.sleeptime r.timeout).map fun a =>
      ⟨a.lib, a.ok, a.stores⟩

/-- The objects a program can have: new ones, and those on which requests have
returned. -/
def objects : LTS LibObd2 (Request × PortBehaviour) where
  init := fun lib => lib = .new
  step := fun lib call lib' =>
    ∃ report, call.1.run lib call.2 = .returned report ∧ report.lib = lib'

/-- Whatever the histories of two objects, the request reports the same: the
error, where it returns `false`, and the codes it stores. -/
def SameReport (r : Request) (port : PortBehaviour) : Prop :=
  ∀ lib lib', objects.Reachable lib → objects.Reachable lib' →
    (r.run lib port).Ensures fun report => (r.run lib' port).Ensures fun report' =>
      (report.ok = false → report.lib.lastError = report'.lib.lastError) ∧
        report.stores = report'.stores

/-! ## One request, on any object -/

/-- The text on the port that the layers above get to see, if there is one:
the empty one for a caller that does not wait, else what is read up to the
prompt, unless it does not fit or says NO DATA. -/
def PortBehaviour.received (port : PortBehaviour) (sleeptime timeout : Int) :
    Option (List UInt8) :=
  if sleeptime = -1 then some []
  else if replySize < (port.text sleeptime timeout).length then none
  else
    match port.ending sleeptime timeout with
    | some .notWaiting => some []
    | some .prompted =>
      if (port.text sleeptime timeout).length = replySize then none
      else if NoData (port.text sleeptime timeout) then none
      else some (port.text sleeptime timeout)
    | _ => none

/-- What a call does to any object: the object has no part in it but to be told the
error. -/
inductive Uniform (port : PortBehaviour) (req : List UInt8) (sleeptime timeout : Int) : Prop where
  /-- It returns `true` and leaves the object alone. -/
  | received (reply : List UInt8)
      (hreceived : port.received sleeptime timeout = some reply)
      (hfits : FitsBuffer port sleeptime timeout)
      (hcall : ∀ lib, sendObdRequestString lib port req sleeptime timeout
        = .returned ⟨lib, true, reply⟩)
  /-- It returns `false`, with an error of its own. -/
  | failed (e : ObdError) (reply : List UInt8)
      (hreceived : port.received sleeptime timeout = none)
      (hfits : FitsBuffer port sleeptime timeout)
      (hcall : ∀ lib, sendObdRequestString lib port req sleeptime timeout
        = .returned ⟨lib.fail e, false, reply⟩)
  | blocked
      (hreceived : port.received sleeptime timeout = none)
      (hfits : FitsBuffer port sleeptime timeout)
      (hcall : ∀ lib, sendObdRequestString lib port req sleeptime timeout = .blocked)
  | overrun
      (hreceived : port.received sleeptime timeout = none)
      (hfits : ¬ FitsBuffer port sleeptime timeout)
      (hcall : ∀ lib, sendObdRequestString lib port req sleeptime timeout = .overrun replySize)

theorem sendObdRequestString_uniform (port : PortBehaviour) (req : List UInt8)
    (sleeptime timeout : Int) : Uniform port req sleeptime timeout := by
  have hcall := fun lib => sendObdRequestString_eq lib port req sleeptime timeout
  by_cases hblind : sleeptime = -1
  · refine .received [] (by simp [PortBehaviour.received, hblind]) (.inl hblind) ?_
    simpa [hblind] using hcall
  · by_cases hlong : replySize < (port.text sleeptime timeout).length
    · refine .overrun (by simp [PortBehaviour.received, hblind, hlong]) ?_ ?_
      · rintro (h | ⟨hle, _⟩)
        · exact hblind h
        · omega
      · simpa [hblind, hlong] using hcall
    · have hle := Nat.le_of_not_lt hlong
      simp only [hblind, hlong, if_false] at hcall
      cases hend : port.ending sleeptime timeout with
      | none =>
        simp only [hend] at hcall
        refine .blocked ?_ (.inr ⟨hle, by simp [hend]⟩) hcall
        simp [PortBehaviour.received, hblind, hlong, hend]
      | some how =>
        cases how with
        | readError =>
          simp only [hend] at hcall
          refine .failed _ _ ?_ (.inr ⟨hle, by simp [hend]⟩) hcall
          simp [PortBehaviour.received, hblind, hlong, hend]
        | timedOut =>
          simp only [hend] at hcall
          refine .failed _ _ ?_ (.inr ⟨hle, by simp [hend]⟩) hcall
          simp [PortBehaviour.received, hblind, hlong, hend]
        | notWaiting =>
          simp only [hend] at hcall
          refine .received [] ?_ (.inr ⟨hle, by simp [hend]⟩) hcall
          simp [PortBehaviour.received, hblind, hlong, hend]
        | prompted =>
          by_cases hfull : (port.text sleeptime timeout).length = replySize
          · simp only [hend, hfull, if_true] at hcall
            refine .overrun ?_ ?_ hcall
            · simp [PortBehaviour.received, hblind, hend, hfull]
            · rintro (h | ⟨_, hlt⟩)
              · exact hblind h
              · exact absurd (hlt hend) (by omega)
          · have hlt : (port.text sleeptime timeout).length < replySize := by omega
            by_cases hnodata : NoData (port.text sleeptime timeout)
            · simp only [hend, hfull, hnodata, if_true, if_false] at hcall
              refine .failed _ _ ?_ (.inr ⟨hle, fun _ => hlt⟩) hcall
              simp [PortBehaviour.received, hblind, hlong, hend, hnodata]
            · simp only [hend, hfull, hnodata, if_false] at hcall
              refine .received _ ?_ (.inr ⟨hle, fun _ => hlt⟩) hcall
              simp [PortBehaviour.received, hblind, hlong, hend, hnodata, hfull]

/-! ## The layers above -/

/-- What a layer makes of a call that returned `true` with `reply`. -/
def Layer.report (lib : LibObd2) (reply : List UInt8) : Layer → Report
  | .string => ⟨lib, true, []⟩
  | .decoded => ⟨lib, decide (reply ≠ []), []⟩
  | .cDecoded replylength =>
    if reply = [] ∨ replylength < (pairs isSeparator reply).length then ⟨lib, false, []⟩
    else
      ⟨lib, true, copyStores (decodeReply reply) ++ [((pairs isSeparator reply).length, 46)]⟩
  | .cString replylength =>
    if replylength < reply.length then ⟨lib, false, [(0, 255), (1, 2)]⟩
    else ⟨lib, true, copyStores reply ++ if reply = [] then [(0, lib.lastError.code)] else []⟩

theorem length_decodeReply (text : List UInt8) :
    (decodeReply text).length = (pairs isSeparator text).length := by
  rw [decodeReply_eq, List.length_map]

theorem run_received {r : Request} {port : PortBehaviour} {lib : LibObd2} {reply : List UInt8}
    (h : sendObdRequestString lib port r.req r.sleeptime r.timeout = .returned ⟨lib, true, reply⟩) :
    r.run lib port = .returned (r.layer.report lib reply) := by
  obtain ⟨layer, req, sleeptime, timeout⟩ := r
  simp only at h
  cases layer with
  | string => simp [Request.run, h, Outcome.map, Layer.report]
  | decoded =>
    by_cases hempty : reply = [] <;>
      simp [Request.run, sendObdRequest, h, Outcome.map, Layer.report, hempty]
  | cDecoded replylength =>
    by_cases hempty : reply = []
    · simp [Request.run, obdLibSendObdRequest, sendObdRequest, h, Outcome.map, Layer.report,
        hempty]
    · by_cases hlong : replylength < (pairs isSeparator reply).length <;>
        simp [Request.run, obdLibSendObdRequest, sendObdRequest, h, Outcome.map, Layer.report,
          hempty, length_decodeReply, hlong]
  | cString replylength =>
    by_cases hlong : replylength < reply.length
    · simp [Request.run, obdLibSendObdRequestString, h, Outcome.map, Layer.report, hlong]
    · by_cases hempty : reply = [] <;>
        simp [Request.run, obdLibSendObdRequestString, h, Outcome.map, Layer.report, hlong,
          hempty]

/-- The stores of a layer that is told of the failure `e`. -/
def Layer.failureStores (e : ObdError) : Layer → List (Nat × UInt8)
  | .cString _ => [(0, 255), (1, 1), (2, e.code)]
  | _ => []

/-- Every layer passes a failure on, with the object. -/
theorem run_failed {r : Request} {port : PortBehaviour} {lib lib' : LibObd2}
    {reply : List UInt8}
    (h : sendObdRequestString lib port r.req r.sleeptime r.timeout
      = .returned ⟨lib', false, reply⟩) :
    r.run lib port = .returned ⟨lib', false, r.layer.failureStores lib'.lastError⟩ := by
  obtain ⟨layer, req, sleeptime, timeout⟩ := r
  simp only at h
  cases layer <;>
    simp [Request.run, obdLibSendObdRequest, obdLibSendObdRequestString, sendObdRequest, h,
      Outcome.map, Layer.failureStores]

/-- Where the call underneath does not return, no layer does, and for the same
reason. -/
theorem run_blocked {r : Request} {port : PortBehaviour} {lib : LibObd2}
    (h : sendObdRequestString lib port r.req r.sleeptime r.timeout = .blocked) :
    r.run lib port = .blocked := by
  obtain ⟨layer, req, sleeptime, timeout⟩ := r
  simp only at h
  cases layer <;>
    simp [Request.run, obdLibSendObdRequest, obdLibSendObdRequestString, sendObdRequest, h,
      Outcome.map]

theorem run_overrun {r : Request} {port : PortBehaviour} {lib : LibObd2} {index : Nat}
    (h : sendObdRequestString lib port r.req r.sleeptime r.timeout = .overrun index) :
    r.run lib port = .overrun index := by
  obtain ⟨layer, req, sleeptime, timeout⟩ := r
  simp only at h
  cases layer <;>
    simp [Request.run, obdLibSendObdRequest, obdLibSendObdRequestString, sendObdRequest, h,
      Outcome.map]

/-! ## Two histories -/

/-- A layer has a reason of its own to return `false`, or to report an error:
it was handed this text. -/
def Layer.Refuses (reply : List UInt8) : Layer → Prop
  | .string => False
  | .decoded => reply = []
  | .cDecoded replylength => reply = [] ∨ replylength < (pairs isSeparator reply).length
  | .cString replylength => reply = [] ∨ replylength < reply.length

theorem report_of_not_refuses {layer : Layer} {reply : List UInt8}
    (h : ¬ layer.Refuses reply) (lib lib' : LibObd2) :
    (layer.report lib reply).ok = true ∧
      (layer.report lib reply).stores = (layer.report lib' reply).stores := by
  cases layer <;> simp_all [Layer.Refuses, Layer.report, not_or, Nat.not_lt.mpr]

theorem code_injective {e e' : ObdError} (h : e.code = e'.code) : e = e' := by
  cases e <;> cases e' <;> first | rfl | exact absurd h (by decide)

/-- What is reported then is the error the object happens to have. -/
theorem report_of_refuses {layer : Layer} {reply : List UInt8} (h : layer.Refuses reply)
    (lib lib' : LibObd2)
    (hsame : ((layer.report lib reply).ok = false →
        (layer.report lib reply).lib.lastError = (layer.report lib' reply).lib.lastError) ∧
      (layer.report lib reply).stores = (layer.report lib' reply).stores) :
    lib.lastError = lib'.lastError := by
  obtain ⟨herror, hstores⟩ := hsame
  cases layer with
  | string => cases h
  | decoded =>
    simp only [Layer.Refuses] at h
    simpa [Layer.report, h] using herror
  | cDecoded replylength =>
    simp only [Layer.Refuses] at h
    simpa [Layer.report, h] using herror
  | cString replylength =>
    by_cases hlong : replylength < reply.length
    · simpa [Layer.report, hlong] using herror
    · have hempty : reply = [] := h.resolve_right hlong
      subst hempty
      apply code_injective
      simpa [Layer.report, copyStores] using hstores

/-- A request on a port whose read fails. -/
def failingRequest : Request × PortBehaviour :=
  (⟨.string, [], 20, 3⟩, ⟨fun req => req.length, 0, [⟨.error, 0⟩]⟩)

theorem reachable_new : objects.Reachable .new := ⟨.new, [], rfl, .nil⟩

theorem reachable_readError : objects.Reachable ⟨.serialReadError⟩ :=
  ⟨.new, [failingRequest], rfl, .snoc .nil ⟨⟨⟨.serialReadError⟩, false, []⟩, by decide, rfl⟩⟩

/-- **A request reports the same after every history exactly when it stays inside its
array and its layer does not refuse the text it gets.** -/
theorem sameReport_iff (r : Request) (port : PortBehaviour) :
    SameReport r port ↔
      FitsBuffer port r.sleeptime r.timeout ∧
        ∀ reply, port.received r.sleeptime r.timeout = some reply → ¬ r.layer.Refuses reply := by
  cases sendObdRequestString_uniform port r.req r.sleeptime r.timeout with
  | received reply hreceived hfits hcall =>
    have hrun : ∀ lib, r.run lib port = .returned (r.layer.report lib reply) :=
      fun lib => run_received (hcall lib)
    simp only [SameReport, hrun, Outcome.ensures_returned, hreceived, hfits, true_and,
      Option.some.injEq, forall_eq']
    constructor
    · intro h hrefuses
      have hsame := h .new ⟨.serialReadError⟩ reachable_new reachable_readError
      exact absurd (report_of_refuses hrefuses _ _ hsame) (by decide)
    · intro hnot lib lib' _ _
      have hok := report_of_not_refuses hnot lib lib'
      exact ⟨fun hfalse => absurd hfalse (by simp [hok.1]), hok.2⟩
  | failed e reply hreceived hfits hcall =>
    -- a failure sets the error, whatever it was
    have hrun := fun lib => run_failed (r := r) (hcall lib)
    simp only [SameReport, hrun, Outcome.ensures_returned, hreceived, hfits]
    simp [LibObd2.fail, LibObd2.lastError]
  | blocked hreceived hfits hcall =>
    have hrun := fun lib => run_blocked (r := r) (hcall lib)
    simp [SameReport, hrun, hreceived, hfits]
  | overrun hreceived hfits hcall =>
    have hrun := fun lib => run_overrun (r := r) (hcall lib)
    simp only [SameReport, hrun, Outcome.ensures_overrun, hfits, false_and, iff_false]
    intro h
    exact h .new .new reachable_new reachable_new

/-- `sendObdRequest` gets an empty text: what it reports as the error is that of
a read that failed earlier, or none. -/
theorem stale_error_reported : ¬ ∀ r port, SameReport r port := by
  intro h
  have hnew : Request.run ⟨.decoded, [], 100, 5⟩ .new (inReads [⟨[prompt], by decide⟩])
      = .returned ⟨.new, false, []⟩ := by decide
  have hold : Request.run ⟨.decoded, [], 100, 5⟩ ⟨.serialReadError⟩
      (inReads [⟨[prompt], by decide⟩]) = .returned ⟨⟨.serialReadError⟩, false, []⟩ := by decide
  have hsame := h ⟨.decoded, [], 100, 5⟩ (inReads [⟨[prompt], by decide⟩]) _ _ reachable_new
    reachable_readError
  rw [hnew, hold] at hsame
  exact absurd (hsame.1 rfl) (by decide)

end CarPi.Obd2
