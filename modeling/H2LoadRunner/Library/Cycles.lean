/-
# Library.Cycles -- counters that start over at the end of a range

`next` counts through a range and starts over behind its last value.  From a value of the range it
stays inside (`iterate_next_inside`), and as many successive values as the range has are its values,
each once (`iterate_perm`), wherever they start: a window of a sequence of iterates is itself one
(`eq_iterate_of_split`).
-/
import Mathlib

namespace H2LoadRunner.Library.Cycles

set_option autoImplicit false

/-- The value behind `x` in the range from `lo` up to, and without, `hi`. -/
def next (lo hi x : Nat) : Nat := if hi ≤ x + 1 then lo else x + 1

theorem iterate_next {lo hi x : Nat} (above : lo ≤ x) (below : x < hi) (k : Nat) :
    (next lo hi)^[k] x = lo + (x - lo + k) % (hi - lo) := by
  induction k with
  | zero =>
    rw [Function.iterate_zero_apply, Nat.add_zero, Nat.mod_eq_of_lt (by omega)]
    omega
  | succ k ih =>
    have small := Nat.mod_lt (x - lo + k) (show 0 < hi - lo by omega)
    have step : (x - lo + (k + 1)) % (hi - lo) = ((x - lo + k) % (hi - lo) + 1) % (hi - lo) := by
      rw [Nat.mod_add_mod, Nat.add_assoc]
    rw [Function.iterate_succ_apply', ih, step, next]
    by_cases last : (x - lo + k) % (hi - lo) + 1 = hi - lo
    · rw [last, Nat.mod_self, if_pos (by omega), Nat.add_zero]
    · rw [Nat.mod_eq_of_lt (show (x - lo + k) % (hi - lo) + 1 < hi - lo by omega), if_neg (by omega)]
      rfl

theorem iterate_next_inside {lo hi x : Nat} (above : lo ≤ x) (below : x < hi) (k : Nat) :
    lo ≤ (next lo hi)^[k] x ∧ (next lo hi)^[k] x < hi := by
  have small := Nat.mod_lt (x - lo + k) (show 0 < hi - lo by omega)
  rw [iterate_next above below]
  omega

/-- **One round visits every value once.** -/
theorem iterate_perm {lo hi x : Nat} (above : lo ≤ x) (below : x < hi) :
    (List.iterate (next lo hi) x (hi - lo)).Perm (List.range' lo (hi - lo)) := by
  have rotated : List.iterate (next lo hi) x (hi - lo) = (List.range' lo (hi - lo)).rotate (x - lo) := by
    refine List.ext_getElem (by simp) fun i here there => ?_
    rw [List.getElem_iterate, iterate_next above below, List.getElem_rotate, List.getElem_range',
      List.length_range', Nat.one_mul, Nat.add_comm i]
  rw [rotated]
  exact List.rotate_perm _ _

theorem eq_iterate_of_split {α : Type*} {f : α → α} {a : α} {n : Nat} {early window late : List α}
    (split : List.iterate f a n = early ++ window ++ late) :
    window = List.iterate f (f^[early.length] a) window.length := by
  have total : n = early.length + (window.length + late.length) := by
    have lengths := congrArg List.length split
    rw [List.length_iterate, List.length_append, List.length_append] at lengths
    omega
  rw [total, List.iterate_add, List.iterate_add, List.append_assoc] at split
  obtain ⟨-, rest⟩ := List.append_inj split (List.length_iterate _ _ _)
  exact (List.append_inj rest (List.length_iterate _ _ _)).1.symm

end H2LoadRunner.Library.Cycles
