/-
# Library.Memo -- a memo table keyed by identifiers

Evaluating a rule consults a table under the rule's identifier, and only a miss
evaluates.  Nothing forces two rules under one identifier to evaluate alike, so
the table is an optimisation only where they do.

`consultAll_eq_map_iff` says exactly that: over a set of rules, every sequence of consultations that
starts from the empty table answers what fresh evaluation would, if and only if rules of that set
sharing an identifier evaluate alike.
-/
import Mathlib

namespace H2LoadRunner.Library.Memo

set_option autoImplicit false

universe u v w

variable {ρ : Type u} {ι : Type v} {β : Type w} [DecidableEq ι]

/-- Answer from the table under the rule's identifier, or evaluate and record. -/
def consult (ident : ρ → ι) (eval : ρ → β) (rule : ρ) (table : List (ι × β)) :
    β × List (ι × β) :=
  match table.lookup (ident rule) with
  | some answer => (answer, table)
  | none => (eval rule, (ident rule, eval rule) :: table)

def consultAll (ident : ρ → ι) (eval : ρ → β) : List ρ → List (ι × β) → List β
  | [], _ => []
  | rule :: rules, table =>
    (consult ident eval rule table).1 ::
      consultAll ident eval rules (consult ident eval rule table).2

def allConsult (ident : ρ → ι) (eval : ρ → Bool) : List ρ → List (ι × Bool) → Bool × List (ι × Bool)
  | [], table => (true, table)
  | rule :: rules, table =>
    match consult ident eval rule table with
    | (true, table) => allConsult ident eval rules table
    | (false, table) => (false, table)

/-- Rules of `rules` that share an identifier evaluate alike. -/
def Faithful (ident : ρ → ι) (eval : ρ → β) (rules : Set ρ) : Prop :=
  ∀ left ∈ rules, ∀ right ∈ rules, ident left = ident right → eval left = eval right

/-- Every recorded answer is the evaluation of each rule it would serve. -/
def Sound (ident : ρ → ι) (eval : ρ → β) (rules : Set ρ) (table : List (ι × β)) : Prop :=
  ∀ rule ∈ rules, ∀ answer, table.lookup (ident rule) = some answer → answer = eval rule

variable {ident : ρ → ι} {eval : ρ → β} {rules : Set ρ} {table : List (ι × β)}

theorem sound_nil : Sound ident eval rules [] := by
  intro rule _ answer found
  simp at found

theorem consult_fst (sound : Sound ident eval rules table) {rule : ρ} (member : rule ∈ rules) :
    (consult ident eval rule table).1 = eval rule := by
  unfold consult
  split
  · rename_i answer found
    exact sound rule member answer found
  · rfl

theorem consult_sound (faithful : Faithful ident eval rules)
    (sound : Sound ident eval rules table) {rule : ρ} (member : rule ∈ rules) :
    Sound ident eval rules (consult ident eval rule table).2 := by
  unfold consult
  split
  · exact sound
  · intro other otherMember answer found
    by_cases same : ident other = ident rule
    · rw [same, List.lookup_cons_self] at found
      rw [← Option.some.inj found]
      exact (faithful other otherMember rule member same).symm
    · have differs : (ident other == ident rule) = false := beq_eq_false_iff_ne.mpr same
      rw [List.lookup_cons, differs] at found
      exact sound other otherMember answer found

theorem consultAll_eq_map (faithful : Faithful ident eval rules) (sequence : List ρ)
    (within : ∀ rule ∈ sequence, rule ∈ rules) (sound : Sound ident eval rules table) :
    consultAll ident eval sequence table = sequence.map eval := by
  induction sequence generalizing table with
  | nil => rfl
  | cons rule rest ih =>
    have member : rule ∈ rules := within rule (by simp)
    have tail : ∀ other ∈ rest, other ∈ rules := fun other h => within other (by simp [h])
    rw [consultAll, List.map_cons, consult_fst sound member,
      ih tail (consult_sound faithful sound member)]

/-- The memo table is transparent over `rules` exactly when identifiers are
faithful there. -/
theorem consultAll_eq_map_iff : (∀ sequence : List ρ, (∀ rule ∈ sequence, rule ∈ rules) →
      consultAll ident eval sequence [] = sequence.map eval) ↔ Faithful ident eval rules := by
  constructor
  · intro transparent left leftMember right rightMember same
    -- Ask for `left` and then for `right`: the second answer is the first one's.
    have answers := transparent [left, right] (by simp [leftMember, rightMember])
    simp [consultAll, consult, same] at answers
    exact answers
  · intro faithful sequence within
    exact consultAll_eq_map faithful sequence within sound_nil

theorem allConsult_spec {eval : ρ → Bool} {table : List (ι × Bool)}
    (faithful : Faithful ident eval rules) (sequence : List ρ)
    (within : ∀ rule ∈ sequence, rule ∈ rules) (sound : Sound ident eval rules table) :
    (allConsult ident eval sequence table).1 = sequence.all eval ∧
      Sound ident eval rules (allConsult ident eval sequence table).2 := by
  induction sequence generalizing table with
  | nil => exact ⟨rfl, sound⟩
  | cons rule rest ih =>
    have member : rule ∈ rules := within rule (by simp)
    have tail : ∀ other ∈ rest, other ∈ rules := fun other h => within other (by simp [h])
    have answer := consult_fst sound member
    have kept := consult_sound faithful sound member
    simp only [allConsult, List.all_cons]
    split
    · rename_i next consulted
      rw [consulted] at answer kept
      simpa [← answer] using ih tail kept
    · rename_i next consulted
      rw [consulted] at answer kept
      simpa [← answer] using kept

end H2LoadRunner.Library.Memo
