/-
# Library.Transition -- runs of a machine whose steps may fault

A machine takes one event at a time; a step gives the next state or a fault, and a fault ends the run.
What every step preserves under a condition holds in every state a run along that condition reaches
(`run_invariant`, `Along.of_invariant`), and a fault no step can raise under the invariant is one no such
run ends in (`run_ne_fault`).  A run of a longer list is a run of its beginning and one of the rest
(`run_append`), so a statement about the end of every run is one about every state on the way.
-/
import Mathlib

namespace H2LoadRunner.Library.Transition

set_option autoImplicit false

universe u v w

variable {S : Type u} {E : Type v} {F : Type w} {es : List E} {s t : S} {C : S → E → Prop} {I : S → Prop}

def run (step : S → E → Except F S) : S → List E → Except F S
  | s, [] => .ok s
  | s, e :: es =>
    match step s e with
    | .ok t => run step t es
    | .error f => .error f

def Along (step : S → E → Except F S) (C : S → E → Prop) : S → List E → Prop
  | _, [] => True
  | s, e :: es =>
    C s e ∧
      match step s e with
      | .ok t => Along step C t es
      | .error _ => True

instance decidableAlong (step : S → E → Except F S) (C : S → E → Prop)
    [∀ s e, Decidable (C s e)] : (s : S) → (es : List E) → Decidable (Along step C s es)
  | _, [] => isTrue trivial
  | s, e :: es =>
    have : Decidable (match step s e with
        | .ok t => Along step C t es
        | .error _ => True) :=
      match step s e with
      | .ok t => decidableAlong step C t es
      | .error _ => isTrue trivial
    inferInstanceAs (Decidable (_ ∧ _))

theorem ok_of_bind {α β : Type u} {first : Except F α} {next : α → Except F β} {result : β}
    (ran : (first >>= next) = .ok result) : ∃ value, first = .ok value ∧ next value = .ok result := by
  cases first with
  | error f => cases ran
  | ok value => exact ⟨value, rfl, ran⟩

variable {step : S → E → Except F S}

@[simp] theorem run_nil (s : S) : run step s [] = .ok s := rfl

theorem run_cons (s : S) (e : E) (es : List E) :
    run step s (e :: es) = (step s e).bind fun t => run step t es := by
  rw [run]
  cases step s e <;> rfl

theorem run_append (s : S) (es fs : List E) :
    run step s (es ++ fs) = (run step s es).bind fun t => run step t fs := by
  induction es generalizing s with
  | nil => rfl
  | cons e es ih =>
    rw [List.cons_append, run_cons, run_cons]
    cases step s e with
    | error f => rfl
    | ok t => exact ih t

theorem run_append_of_ok (ends : run step s es = .ok t) (fs : List E) :
    run step s (es ++ fs) = run step t fs := by
  rw [run_append, ends]
  rfl

theorem ok_of_run_cons {u : S} {e : E} (ends : run step s (e :: es) = .ok u) :
    ∃ t, step s e = .ok t ∧ run step t es = .ok u := by
  rw [run_cons] at ends
  cases taken : step s e with
  | error f =>
    rw [taken] at ends
    cases ends
  | ok t =>
    rw [taken] at ends
    exact ⟨t, rfl, ends⟩

theorem along_of_ok {e : E} (along : Along step C s (e :: es)) (taken : step s e = .ok t) :
    Along step C t es := by
  have later := along.2
  rw [taken] at later
  exact later

/-- Under an invariant that every step along `C` preserves, a run along `C` is one along what `C`
implies. -/
theorem Along.of_invariant {D : S → E → Prop}
    (kept : ∀ s e t, C s e → I s → step s e = .ok t → I t) (implies : ∀ s e, I s → C s e → D s e)
    (along : Along step C s es) (initial : I s) : Along step D s es := by
  induction es generalizing s with
  | nil => trivial
  | cons e es ih =>
    refine ⟨implies s e initial along.1, ?_⟩
    cases taken : step s e with
    | error f => trivial
    | ok t => exact ih (along_of_ok along taken) (kept s e t along.1 initial taken)

/-- What every step along `C` preserves holds where a run along `C` ends. -/
theorem run_invariant (kept : ∀ s e t, C s e → I s → step s e = .ok t → I t)
    (along : Along step C s es) (ends : run step s es = .ok t) (initial : I s) : I t := by
  induction es generalizing s with
  | nil =>
    cases ends
    exact initial
  | cons e es ih =>
    obtain ⟨next, taken, rest⟩ := ok_of_run_cons ends
    exact ih (along_of_ok along taken) rest (kept s e next along.1 initial taken)

theorem along_true (s : S) (es : List E) : Along step (fun _ _ => True) s es := by
  induction es generalizing s with
  | nil => trivial
  | cons e es ih =>
    refine ⟨trivial, ?_⟩
    cases taken : step s e with
    | error f => trivial
    | ok t => exact ih t

/-- A fault that no step along `C` raises under the invariant ends no run along `C`. -/
theorem run_ne_fault {fault : F} (kept : ∀ s e t, C s e → I s → step s e = .ok t → I t)
    (avoided : ∀ s e, C s e → I s → step s e ≠ .error fault) (along : Along step C s es)
    (initial : I s) : run step s es ≠ .error fault := by
  induction es generalizing s with
  | nil => simp
  | cons e es ih =>
    rw [run_cons]
    cases taken : step s e with
    | error f =>
      intro same
      exact avoided s e along.1 initial (taken.trans same)
    | ok t => exact ih (along_of_ok along taken) (kept s e t along.1 initial taken)

/-- Where an event keeps `P` exactly when it meets `C`, a run has `P` in every state exactly
when it is along `C`. -/
theorem along_iff_throughout {P : S → Prop}
    (sharp : ∀ s e t, I s → P s → step s e = .ok t → I t ∧ (P t ↔ C s e))
    (ends : run step s es = .ok t) (initial : I s) (start : P s) :
    Along step C s es ↔ ∀ n u, run step s (es.take n) = .ok u → P u := by
  induction es generalizing s with
  | nil =>
    refine iff_of_true trivial fun n u reached => ?_
    rw [List.take_nil] at reached
    cases reached
    exact start
  | cons e es ih =>
    obtain ⟨next, taken, rest⟩ := ok_of_run_cons ends
    obtain ⟨later, now⟩ := sharp s e next initial start taken
    constructor
    · intro along n u reached
      cases n with
      | zero =>
        cases reached
        exact start
      | succ n =>
        rw [List.take_succ_cons, run_cons, taken] at reached
        exact (ih rest later (now.mpr along.1)).mp (along_of_ok along taken) n u reached
    · intro always
      have first : P next := always 1 next (by rw [List.take_succ_cons, run_cons, taken]; rfl)
      refine ⟨now.mp first, ?_⟩
      rw [taken]
      refine (ih rest later first).mpr fun n u reached => always (n + 1) u ?_
      rw [List.take_succ_cons, run_cons, taken]
      exact reached

/-- A run on fixed events, checked by evaluation. -/
theorem exists_run (step : S → E → Except F S) (s : S) (es : List E) (P : S → Prop) [DecidablePred P]
    (passes : (match run step s es with
      | .ok t => decide (P t)
      | .error _ => false) = true) : ∃ t, run step s es = .ok t ∧ P t := by
  cases ends : run step s es with
  | error f => simp [ends] at passes
  | ok t =>
    rw [ends] at passes
    exact ⟨t, rfl, of_decide_eq_true passes⟩

theorem run_faults [DecidableEq F] (step : S → E → Except F S) (s : S) (es : List E) (fault : F)
    (fails : (match run step s es with
      | .ok _ => false
      | .error f => decide (f = fault)) = true) : run step s es = .error fault := by
  cases ends : run step s es with
  | ok t => simp [ends] at fails
  | error f =>
    rw [ends] at fails
    rw [of_decide_eq_true fails]

end H2LoadRunner.Library.Transition
