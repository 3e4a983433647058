/-
CarPi.Foundation.Pieces — a stream taken apart behind each occurrence of a
word.

`pieces word s` are the parts of `s` that end with the word, each cut off as
soon as it does, and what is behind the last of them. The stream comes byte
by byte (`Pieces.addAll`), so that what is known of a part of it can be gone
on from: nothing is lost (`content_addAll`), what is complete stays
(`complete_prefix_addAll`), and the next piece is the one in which the word
comes up first (`addAll_of_infix`).

Nothing here mentions the repository.
-/
import Mathlib.Data.List.Infix
import Mathlib.Tactic.Common

namespace CarPi.Foundation

universe u

variable {α : Type u} [DecidableEq α]

/-- The pieces completed so far, and what has come behind the last. -/
structure Pieces (α : Type u) where
  complete : List (List α)
  rest : List α
  deriving DecidableEq, Repr

namespace Pieces

/-- The word is completed by `b`, or is not. -/
def add (word : List α) (p : Pieces α) (b : α) : Pieces α :=
  if word <:+ p.rest ++ [b] then ⟨p.complete ++ [p.rest ++ [b]], []⟩
  else ⟨p.complete, p.rest ++ [b]⟩

def addAll (word : List α) (p : Pieces α) (s : List α) : Pieces α := s.foldl (add word) p

end Pieces

/-- The pieces of `s`. -/
def pieces (word s : List α) : Pieces α := Pieces.addAll word ⟨[], []⟩ s

namespace Pieces

variable {word : List α}

theorem addAll_cons (p : Pieces α) (b : α) (s : List α) :
    addAll word p (b :: s) = addAll word (add word p b) s := rfl

theorem addAll_append (p : Pieces α) (s t : List α) :
    addAll word p (s ++ t) = addAll word (addAll word p s) t := List.foldl_append

/-- The pieces and the rest are the stream. -/
theorem content_addAll (s : List α) : ∀ p : Pieces α,
    (addAll word p s).complete.flatten ++ (addAll word p s).rest
      = p.complete.flatten ++ p.rest ++ s := by
  induction s with
  | nil => intro p; simp [addAll]
  | cons b s ih =>
    intro p
    rw [addAll_cons, ih, add]
    split <;> simp

theorem complete_prefix_addAll (word s : List α) : ∀ p : Pieces α,
    p.complete <+: (addAll word p s).complete := by
  induction s with
  | nil => exact fun _ => List.prefix_refl _
  | cons b s ih =>
    intro p
    rw [addAll_cons]
    refine List.IsPrefix.trans ?_ (ih _)
    rw [add]
    split
    · exact List.prefix_append _ _
    · exact List.prefix_refl _

/-- The rest holds no word. -/
theorem not_infix_rest_addAll (hne : word ≠ []) (s : List α) : ∀ p : Pieces α,
    ¬ word <:+: p.rest → ¬ word <:+: (addAll word p s).rest := by
  induction s with
  | nil => exact fun _ hrest => hrest
  | cons b s ih =>
    intro p hrest
    rw [addAll_cons]
    refine ih _ ?_
    rw [add]
    split
    · exact fun h => hne (List.infix_nil.mp h)
    · next hends => exact fun h => (List.infix_concat_iff.mp h).elim hends hrest

/-- Where the word does not come up, everything is added to the rest. -/
theorem addAll_of_not_infix (s : List α) : ∀ p : Pieces α,
    ¬ word <:+: p.rest ++ s → addAll word p s = ⟨p.complete, p.rest ++ s⟩ := by
  induction s with
  | nil => intro p _; simp [addAll]
  | cons b s ih =>
    intro p hnot
    have hsplit : p.rest ++ b :: s = p.rest ++ [b] ++ s := by simp
    have hends : ¬ word <:+ p.rest ++ [b] := by
      intro h
      rw [hsplit] at hnot
      exact hnot (h.isInfix.trans (List.prefix_append _ _).isInfix)
    rw [addAll_cons, add, if_neg hends, ih _ (hsplit ▸ hnot), hsplit]

/-- Where it does, the next piece ends at its first end. -/
theorem addAll_of_infix (s : List α) : ∀ p : Pieces α,
    ¬ word <:+: p.rest → word <:+: p.rest ++ s →
    ∃ d t, s = d ++ t ∧ d ≠ [] ∧ word <:+ p.rest ++ d ∧
      addAll word p s = addAll word ⟨p.complete ++ [p.rest ++ d], []⟩ t := by
  induction s with
  | nil =>
    intro p hrest h
    rw [List.append_nil] at h
    exact absurd h hrest
  | cons b s ih =>
    intro p hrest h
    have hsplit : p.rest ++ b :: s = p.rest ++ [b] ++ s := by simp
    by_cases hends : word <:+ p.rest ++ [b]
    · refine ⟨[b], s, rfl, by simp, hends, ?_⟩
      rw [addAll_cons, add, if_pos hends]
    · have hrest' : ¬ word <:+: p.rest ++ [b] :=
        fun h => (List.infix_concat_iff.mp h).elim hends hrest
      obtain ⟨d, t, rfl, _, hd, heq⟩ := ih ⟨p.complete, p.rest ++ [b]⟩ hrest' (hsplit ▸ h)
      refine ⟨b :: d, t, rfl, by simp, by simpa using hd, ?_⟩
      rw [addAll_cons, add, if_neg hends, heq]
      simp

end Pieces

end CarPi.Foundation
