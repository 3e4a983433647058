/-
CarPi.Foundation.Fifo — what a first-in-first-out channel of bytes, or of
anything else, is for: it takes sequences in at one end and hands on, in
pieces of its own choosing, what it took in, in order and once.

The abstract system says nothing about buffers. A component is a channel
when a `Simulation` maps it here; `fifo_sent_prefix` then holds of it.

Nothing here mentions the repository.
-/
import CarPi.Foundation.Runs
import Mathlib.Data.List.Infix

namespace CarPi.Foundation

universe u

variable {α : Type u}

/-- Everything the channel has taken in, and everything it has handed on. -/
structure Fifo (α : Type u) where
  accepted : List α
  sent : List α

inductive FifoAct (α : Type u) where
  | accept (xs : List α)
  | send (xs : List α)

/-- The channel takes in any sequence, and hands on a piece of what it still
owes. -/
inductive FifoStep : Fifo α → FifoAct α → Fifo α → Prop
  | accept (c : Fifo α) (xs : List α) :
      FifoStep c (.accept xs) ⟨c.accepted ++ xs, c.sent⟩
  | send (c : Fifo α) (xs : List α) :
      c.sent ++ xs <+: c.accepted → FifoStep c (.send xs) ⟨c.accepted, c.sent ++ xs⟩

def fifo (α : Type u) : LTS (Fifo α) (FifoAct α) where
  init := fun c => c = ⟨[], []⟩
  step := FifoStep

/-- What a channel has handed on is what it took in first, in order. -/
theorem fifo_sent_prefix {c : Fifo α} (h : (fifo α).Reachable c) : c.sent <+: c.accepted := by
  refine h.invariant (I := fun c => c.sent <+: c.accepted) ?_ ?_
  · rintro c rfl
    exact List.prefix_rfl
  · intro c a c' hc hs
    cases hs with
    | accept xs => exact hc.trans (List.prefix_append _ _)
    | send xs hxs => exact hxs

end CarPi.Foundation
