/-
# Library.Pieces -- a field that arrives in pieces

An incremental parser reports a field in the pieces in which it finds it: at once, or in pieces that
follow each other, some of them empty perhaps.  `Pieces` is such a report, `whole` the field and
`joined` the report made when everything arrives together.  The last piece is the field exactly when
nothing of it came before (`length_last_eq_iff`).
-/
import Mathlib

namespace H2LoadRunner.Library

set_option autoImplicit false

universe u v

/-- A field as a parser reports it. -/
structure Pieces (α : Type u) where
  parts : List (List α)
  nonempty : parts ≠ []

namespace Pieces

variable {α : Type u}

instance [DecidableEq α] : DecidableEq (Pieces α) := fun a b =>
  decidable_of_iff (a.parts = b.parts) ⟨fun same => by cases a; cases b; cases same; rfl,
    congrArg parts⟩

def whole (pieces : Pieces α) : List α := pieces.parts.flatten

def atOnce (field : List α) : Pieces α where
  parts := [field]
  nonempty := List.cons_ne_nil field []

def joined (pieces : Pieces α) : Pieces α := atOnce pieces.whole

def last (pieces : Pieces α) : List α := pieces.parts.getLast pieces.nonempty

@[simp] theorem whole_atOnce (field : List α) : (atOnce field).whole = field := by
  simp [whole, atOnce]

theorem parts_of_length_one {pieces : Pieces α} (single : pieces.parts.length = 1) :
    pieces.parts = [pieces.whole] := by
  obtain ⟨part, only⟩ := List.length_eq_one_iff.mp single
  rw [whole, only]
  simp

theorem length_parts_pos (pieces : Pieces α) : 1 ≤ pieces.parts.length :=
  List.length_pos_iff.mpr pieces.nonempty

theorem eq_joined_of_length_one {pieces : Pieces α} (single : pieces.parts.length = 1) :
    pieces = pieces.joined := by
  have same := parts_of_length_one single
  cases pieces
  simp only [joined, atOnce, mk.injEq]
  exact same

theorem whole_eq (pieces : Pieces α) : pieces.whole = pieces.parts.dropLast.flatten ++ pieces.last := by
  conv_lhs => rw [whole, ← List.dropLast_append_getLast pieces.nonempty, List.flatten_append]
  simp [last]

theorem length_last_le (pieces : Pieces α) : pieces.last.length ≤ pieces.whole.length := by
  rw [whole_eq, List.length_append]
  omega

/-- Nothing of the field comes before its last piece. -/
def Unbroken (pieces : Pieces α) : Prop := pieces.parts.dropLast.flatten = []

instance [DecidableEq α] (pieces : Pieces α) : Decidable pieces.Unbroken := inferInstanceAs (Decidable (_ = _))

theorem Unbroken.last_eq {pieces : Pieces α} (unbroken : pieces.Unbroken) : pieces.last = pieces.whole := by
  rw [whole_eq, unbroken, List.nil_append]

theorem length_last_eq_iff (pieces : Pieces α) : pieces.last.length = pieces.whole.length ↔ pieces.Unbroken := by
  rw [whole_eq, List.length_append, Unbroken, ← List.length_eq_zero_iff]
  omega

end Pieces

/-! ## Reports of many fields -/

theorem eq_of_sum_eq {β : Type v} {f g : β → Nat} {items : List β} (below : ∀ x ∈ items, f x ≤ g x)
    (same : (items.map f).sum = (items.map g).sum) : ∀ x ∈ items, f x = g x := by
  induction items with
  | nil => simp
  | cons y rest ih =>
    have here := below y (by simp)
    have later : ∀ x ∈ rest, f x ≤ g x := fun x member => below x (by simp [member])
    have sums := List.sum_le_sum later
    simp only [List.map_cons, List.sum_cons] at same
    intro x member
    rcases List.mem_cons.mp member with rfl | old
    · omega
    · exact ih later (by omega) x old

end H2LoadRunner.Library
