import Mathlib

/-!
# Names that are used again

Things are added and deleted by name, and a name that was deleted can be added again for
another thing.  What a receiver has processed is a list of notes, each with the id of the
thing it was meant for; the receiver itself does not look at the ids of the deletes.

`live name` are the ids that were added under the name since its last delete.  `Follows`
is what one note may do to the things that a receiver keeps under their names, and
`Follows.live` that such a receiver keeps only live things.
-/

namespace SimSearch.Lib

inductive Note (N I : Type)
  | add (name : N) (id : I)
  | delete (name : N) (id : I)
  deriving DecidableEq, Repr

variable {N I : Type} [DecidableEq N]

def noted (name : N) (ids : List I) : Note N I → List I
  | .add n id => if n = name then ids ++ [id] else ids
  | .delete n _ => if n = name then [] else ids

def live (name : N) (notes : List (Note N I)) : List I := notes.foldl (noted name) []

theorem live_snoc (name : N) (notes : List (Note N I)) (x : Note N I) :
    live name (notes ++ [x]) = noted name (live name notes) x := by
  rw [live, List.foldl_append]
  rfl

/-- What is kept under the names before and after a note: only an add puts something
there, and nothing is left under a name that was deleted. -/
structure Follows (x : Note N I) (kept kept' : N → I → Prop) : Prop where
  source : ∀ name id, kept' name id → x = .add name id ∨ kept name id
  gone : ∀ name id i, kept' name id → x ≠ .delete name i

/-- **A receiver keeps only live things.** -/
theorem Follows.live {x : Note N I} {kept kept' : N → I → Prop} (h : Follows x kept kept')
    {notes : List (Note N I)} (hkept : ∀ name id, kept name id → id ∈ Lib.live name notes) :
    ∀ name id, kept' name id → id ∈ Lib.live name (notes ++ [x]) := by
  intro name id hid
  rw [live_snoc]
  rcases h.source name id hid with rfl | hold
  · rw [noted, if_pos rfl]
    exact List.mem_append_right _ List.mem_cons_self
  have hlive := hkept name id hold
  cases x with
  | add n i =>
    rw [noted]
    split_ifs
    · exact List.mem_append_left _ hlive
    · exact hlive
  | delete n i =>
    have hne : n ≠ name := by
      rintro rfl
      exact h.gone n id i hid rfl
    rw [noted, if_neg hne]
    exact hlive

end SimSearch.Lib
