/-
# Library.Templates -- texts with references to names

A reference is a name between an opening mark of two characters and a closing mark of one.  A
`Template` is a text read from the left: in front of each reference stands a literal without an opening
mark, each name ends at the first closing mark, and what is left over has no complete reference.

* `exists_text`, `text_injective`: every text is read in exactly one way.
-/
import H2LoadRunner.Library.Strings

namespace H2LoadRunner.Library

open Strings

set_option autoImplicit false

universe u

/-- The characters around a name; a search for one of the marks does not stop inside the other. -/
structure Marks (α : Type u) where
  first : α
  second : α
  close : α
  first_ne_second : first ≠ second
  close_ne_first : close ≠ first
  close_ne_second : close ≠ second

namespace Marks

variable {α : Type u} (m : Marks α)

def opening : List α := [m.first, m.second]

def reference (name : List α) : List α := m.opening ++ (name ++ [m.close])

def HasReference (text : List α) : Prop :=
  ∃ before name after, text = before ++ (m.reference name ++ after)

theorem close_not_mem_opening : m.close ∉ m.opening := by
  intro listed
  rcases List.mem_cons.mp listed with same | listed
  · exact m.close_ne_first same
  · exact m.close_ne_second (List.mem_singleton.mp listed)

theorem reference_append (name rest : List α) :
    m.reference name ++ rest = m.opening ++ (name ++ m.close :: rest) := by
  simp [reference]

theorem not_hasReference_of_notMem {text : List α} (absent : m.close ∉ text) : ¬ m.HasReference text := by
  rintro ⟨before, name, after, rfl⟩
  exact absent (by simp [reference_append])

theorem not_hasReference_of_plain {text : List α} (plain : ¬ m.opening <:+: text) : ¬ m.HasReference text := by
  rintro ⟨before, name, after, rfl⟩
  exact plain ⟨before, name ++ m.close :: after, by rw [reference_append, List.append_assoc]⟩

theorem hasReference_of_opening {text : List α} {position : Nat} (opens : m.opening <+: text.drop position)
    (closes : m.close ∈ text.drop position) : m.HasReference text := by
  obtain ⟨tail, split⟩ := opens
  rw [← split] at closes
  have behind : m.close ∈ tail := (List.mem_append.mp closes).resolve_left m.close_not_mem_opening
  obtain ⟨name, after, rfl⟩ := List.append_of_mem behind
  refine ⟨text.take position, name, after, ?_⟩
  rw [reference_append, split, List.take_append_drop]

variable [DecidableEq α] {m}

theorem find_opening {literal : List α} (plain : ¬ m.opening <:+: literal) (rest : List α) :
    find m.opening (literal ++ (m.opening ++ rest)) = some literal.length := by
  induction literal with
  | nil => exact find_eq_zero_iff.mpr (List.prefix_append ..)
  | cons c cs ih =>
    have other : ¬ m.opening <+: c :: (cs ++ (m.opening ++ rest)) := by
      intro occurs
      obtain ⟨same, occurs⟩ := List.cons_prefix_cons.mp occurs
      cases cs with
      | nil => exact m.first_ne_second (List.cons_prefix_cons.mp occurs).1.symm
      | cons d ds =>
        have next : m.second = d := (List.cons_prefix_cons.mp occurs).1
        refine plain ⟨[], ds, ?_⟩
        rw [opening, same, next]
        rfl
    have later : ¬ m.opening <:+: cs := fun occurs => plain (List.infix_cons occurs)
    rw [List.cons_append, find, if_neg other, ih later]
    rfl

theorem find_close {name : List α} (closed : m.close ∉ name) (rest : List α) :
    find [m.close] (m.opening ++ (name ++ m.close :: rest)) = some (2 + name.length) := by
  have absent : m.close ∉ m.opening ++ name := by
    intro listed
    exact (List.mem_append.mp listed).elim m.close_not_mem_opening closed
  rw [← List.append_assoc, find_singleton_append absent, List.length_append]
  rfl

theorem HasReference.first {text : List α} (references : m.HasReference text) :
    ∃ literal name rest, text = literal ++ (m.reference name ++ rest) ∧ ¬ m.opening <:+: literal ∧
      m.close ∉ name := by
  have occurs : m.opening <:+: text := not_not.mp fun plain => m.not_hasReference_of_plain plain references
  obtain ⟨position, found⟩ := Option.isSome_iff_exists.mp (isSome_find_of_occurs occurs)
  obtain ⟨before, name, after, whole⟩ := references
  obtain ⟨-, ⟨tail, opens⟩, first⟩ := find_eq_some_iff.mp found
  -- The opening mark of the given reference is not in front of the first one.
  have reaches : position ≤ before.length := by
    refine Nat.le_of_not_lt fun before_it => first before.length before_it ?_
    rw [whole, List.drop_left, reference_append]
    exact List.prefix_append ..
  have closes : m.close ∈ tail := by
    have listed : m.close ∈ m.opening ++ tail := by
      rw [opens, whole, List.drop_append_of_le_length reaches, reference_append]
      simp
    exact (List.mem_append.mp listed).resolve_left m.close_not_mem_opening
  obtain ⟨shorter, rest, rfl, closed⟩ := List.eq_append_cons_of_mem closes
  refine ⟨text.take position, shorter, rest, ?_, ?_, closed⟩
  · rw [reference_append, opens, List.take_append_drop]
  · exact not_infix_take_of_find (List.cons_ne_nil _ _) found

end Marks

structure Reference {α : Type u} (m : Marks α) where
  literal : List α
  name : List α
  plain : ¬ m.opening <:+: literal
  closed : m.close ∉ name

/-- A text read from the left. -/
structure Template {α : Type u} (m : Marks α) where
  references : List (Reference m)
  rest : List α
  complete : ¬ m.HasReference rest

namespace Template

variable {α : Type u} {m : Marks α}

/-- The text, with something in the place of each reference. -/
def fill (value : List α → List α) (t : Template m) : List α :=
  (t.references.flatMap fun r => r.literal ++ value r.name) ++ t.rest

def text (t : Template m) : List α := t.fill m.reference

def names (t : Template m) : List (List α) := t.references.map Reference.name

def segments (t : Template m) : List (List α) := t.references.map Reference.literal ++ [t.rest]

def cons (r : Reference m) (t : Template m) : Template m := { t with references := r :: t.references }

theorem fill_cons (value : List α → List α) (r : Reference m) (t : Template m) :
    (cons r t).fill value = r.literal ++ (value r.name ++ t.fill value) := by
  simp [fill, cons]

theorem text_cons (r : Reference m) (t : Template m) :
    (cons r t).text = r.literal ++ (m.opening ++ (r.name ++ m.close :: t.text)) := by
  rw [text, fill_cons, ← text, Marks.reference_append]

theorem hasReference_cons (r : Reference m) (t : Template m) : m.HasReference (cons r t).text :=
  ⟨r.literal, r.name, t.text, by rw [text_cons, Marks.reference_append]⟩

theorem induction {motive : Template m → Prop} (rest : ∀ last complete, motive ⟨[], last, complete⟩)
    (cons : ∀ r t, motive t → motive (cons r t)) (t : Template m) : motive t := by
  obtain ⟨references, last, complete⟩ := t
  induction references with
  | nil => exact rest last complete
  | cons r references ih => exact cons r ⟨references, last, complete⟩ ih

theorem length_references_le (t : Template m) : t.references.length ≤ t.text.length := by
  induction t using induction with
  | rest => exact Nat.zero_le _
  | cons r t ih =>
    rw [text_cons]
    simp only [cons, List.length_cons, List.length_append]
    omega

variable [DecidableEq α]

theorem exists_text (m : Marks α) (source : List α) : ∃ t : Template m, t.text = source := by
  induction size : source.length using Nat.strongRecOn generalizing source with
  | _ n ih =>
    by_cases references : m.HasReference source
    · obtain ⟨literal, name, rest, rfl, plain, closed⟩ := references.first
      have shorter : rest.length < n := by
        rw [← size, Marks.reference_append]
        simp only [List.length_append, List.length_cons]
        omega
      obtain ⟨t, read⟩ := ih rest.length shorter rest rfl
      refine ⟨cons ⟨literal, name, plain, closed⟩ t, ?_⟩
      rw [text_cons, read, Marks.reference_append]
    · exact ⟨⟨[], source, references⟩, rfl⟩

theorem text_injective {t u : Template m} (same : t.text = u.text) : t = u := by
  induction t using induction generalizing u with
  | rest last complete =>
    induction u using induction with
    | rest =>
      cases same
      rfl
    | cons r u =>
      have whole : last = (cons r u).text := same
      exact absurd (whole ▸ hasReference_cons r u) complete
  | cons r t ih =>
    induction u using induction with
    | rest last complete =>
      have whole : (cons r t).text = last := same
      exact absurd (whole ▸ hasReference_cons r t) complete
    | cons s u =>
      rw [text_cons, text_cons] at same
      have opens := Marks.find_opening r.plain (r.name ++ m.close :: t.text)
      rw [same, Marks.find_opening s.plain] at opens
      obtain ⟨literals, rests⟩ := List.append_inj same (Option.some.inj opens).symm
      obtain ⟨-, behind⟩ := List.append_inj rests rfl
      have closes := find_singleton_append r.closed t.text
      rw [behind, find_singleton_append s.closed] at closes
      obtain ⟨names, rest⟩ := List.append_inj behind (Option.some.inj closes).symm
      rw [ih (List.cons.inj rest).2]
      obtain ⟨literal, name, plain, closed⟩ := r
      cases literals
      cases names
      rfl

end Template

end H2LoadRunner.Library
