/-
# Library.Strings -- searching and cutting strings

Strings as lists: the position of the first and of the last occurrence of a string in another
(`find`, `rfind`), and the pieces of a string between the occurrences of a delimiter (`tokenize`).
Pieces without the first character of the delimiter are read back from what they are joined to
(`tokenize_intercalate`); the pieces of any text are free of the delimiter and joined to it again
(`not_infix_of_mem_tokenize`, `intercalate_tokenize`), and with values between them they are the text
with the delimiters replaced (`replaced_weave`).
-/
import Mathlib

namespace H2LoadRunner.Library.Strings

set_option autoImplicit false

universe u

/-- `std::isspace`, in the classic locale. -/
def isSpace (c : Char) : Bool := c.isWhitespace || c.toNat = 11 || c.toNat = 12

variable {α : Type u} [DecidableEq α]

def find (needle : List α) : List α → Option Nat
  | [] => if needle = [] then some 0 else none
  | c :: cs => if needle <+: c :: cs then some 0 else (find needle cs).map (· + 1)

def rfind (needle : List α) : List α → Option Nat
  | [] => if needle = [] then some 0 else none
  | c :: cs =>
    match rfind needle cs with
    | some position => some (position + 1)
    | none => if needle <+: c :: cs then some 0 else none

/-- The rest of the current piece, in reverse so far, and the pieces behind it; `skip` characters of
a delimiter are still to be left out. -/
def tokenizeFrom (delimiter : List α) : Nat → List α → List α → List (List α)
  | _, piece, [] => [piece.reverse]
  | skip + 1, piece, _ :: cs => tokenizeFrom delimiter skip piece cs
  | 0, piece, c :: cs =>
    if delimiter <+: c :: cs then
      piece.reverse :: tokenizeFrom delimiter (delimiter.length - 1) [] cs
    else tokenizeFrom delimiter 0 (c :: piece) cs

/-- The pieces between the occurrences of the delimiter; the whole where the delimiter is empty. -/
def tokenize (delimiter source : List α) : List (List α) :=
  if delimiter = [] then [source] else tokenizeFrom delimiter 0 [] source

theorem find_eq_zero_iff {needle hay : List α} : find needle hay = some 0 ↔ needle <+: hay := by
  cases hay with
  | nil =>
    rw [find, List.prefix_nil]
    split <;> simp_all
  | cons c cs =>
    rw [find]
    split
    · simp_all
    · rename_i elsewhere
      refine iff_of_false ?_ elsewhere
      cases find needle cs <;> simp

theorem find_eq_some_iff {needle hay : List α} {position : Nat} : find needle hay = some position ↔
      position ≤ hay.length ∧ needle <+: hay.drop position ∧
        ∀ earlier < position, ¬ needle <+: hay.drop earlier := by
  induction hay generalizing position with
  | nil =>
    rw [find]
    split
    · rename_i empty
      subst empty
      constructor
      · intro found
        cases found
        exact ⟨Nat.le_refl _, List.nil_prefix, fun _ before => absurd before (Nat.not_lt_zero _)⟩
      · rintro ⟨within, -, -⟩
        rw [Nat.le_zero.mp within]
    · rename_i proper
      refine iff_of_false nofun fun ⟨_, occurs, _⟩ => proper ?_
      rw [List.drop_nil] at occurs
      exact List.prefix_nil.mp occurs
  | cons c cs ih =>
    rw [find]
    split
    · rename_i here
      constructor
      · intro found
        cases found
        exact ⟨Nat.zero_le _, here, fun _ before => absurd before (Nat.not_lt_zero _)⟩
      · rintro ⟨-, -, first⟩
        rcases Nat.eq_zero_or_pos position with rfl | later
        · rfl
        · exact absurd here (first 0 later)
    · rename_i elsewhere
      cases position with
      | zero => refine iff_of_false ?_ fun occurs => elsewhere occurs.2.1
                cases find needle cs <;> simp
      | succ position =>
        rw [Option.map_eq_some_iff]
        constructor
        · rintro ⟨_, found, same⟩
          cases Nat.succ.inj same
          obtain ⟨within, occurs, first⟩ := ih.mp found
          refine ⟨Nat.succ_le_succ within, occurs, fun earlier before => ?_⟩
          cases earlier with
          | zero => exact elsewhere
          | succ earlier => exact first earlier (Nat.lt_of_succ_lt_succ before)
        · rintro ⟨within, occurs, first⟩
          refine ⟨position, ih.mpr ⟨Nat.le_of_succ_le_succ within, occurs, fun earlier before => ?_⟩, rfl⟩
          exact first (earlier + 1) (Nat.succ_lt_succ before)

theorem isSome_find_of_occurs {needle hay : List α} (occurs : needle <:+: hay) : (find needle hay).isSome := by
  induction hay with
  | nil => rw [find, if_pos (List.infix_nil.mp occurs), Option.isSome_some]
  | cons c cs ih =>
    rw [find]
    split
    · rfl
    · rename_i elsewhere
      rw [Option.isSome_map]
      exact ih ((List.infix_cons_iff.mp occurs).resolve_left elsewhere)

theorem not_infix_of_find {needle hay : List α} (absent : find needle hay = none) : ¬ needle <:+: hay := by
  intro occurs
  have found := isSome_find_of_occurs occurs
  rw [absent] at found
  cases found

theorem not_infix_take_of_find {needle hay : List α} {position : Nat} (proper : needle ≠ [])
    (found : find needle hay = some position) : ¬ needle <:+: hay.take position := by
  rintro ⟨front, back, split⟩
  obtain ⟨within, -, first⟩ := find_eq_some_iff.mp found
  have lengths := congrArg List.length split
  rw [List.length_take, Nat.min_eq_left within] at lengths
  have some := List.length_pos_iff.mpr proper
  simp only [List.length_append] at lengths
  refine first front.length (by omega) ?_
  rw [← List.take_append_drop position hay, ← split, List.append_assoc, List.append_assoc, List.drop_left]
  exact List.prefix_append ..

theorem eq_append_of_find {needle hay : List α} {position : Nat} (found : find needle hay = some position) :
    hay = hay.take position ++ (needle ++ hay.drop (position + needle.length)) := by
  obtain ⟨-, ⟨rest, occurs⟩, -⟩ := find_eq_some_iff.mp found
  rw [← List.drop_drop, ← occurs, List.drop_left, occurs, List.take_append_drop]

theorem find_append {d : α} {front : List α} (absent : d ∉ front) (ds rest : List α) :
    find (d :: ds) (front ++ (d :: ds ++ rest)) = some front.length := by
  induction front with
  | nil => exact find_eq_zero_iff.mpr (List.prefix_append ..)
  | cons c cs ih =>
    have other : ¬ d :: ds <+: c :: (cs ++ (d :: ds ++ rest)) := by
      intro occurs
      exact absent (List.mem_cons.mpr (.inl (List.cons_prefix_cons.mp occurs).1))
    rw [List.cons_append, find, if_neg other, ih fun listed => absent (List.mem_cons_of_mem _ listed)]
    rfl

theorem find_singleton_append {d : α} {front : List α} (absent : d ∉ front) (rest : List α) :
    find [d] (front ++ d :: rest) = some front.length :=
  find_append absent [] rest

theorem find_of_not_mem {d : α} {hay : List α} (absent : d ∉ hay) (ds : List α) : find (d :: ds) hay = none := by
  rw [← Option.not_isSome_iff_eq_none]
  intro found
  obtain ⟨position, found⟩ := Option.isSome_iff_exists.mp found
  rw [eq_append_of_find found] at absent
  simp at absent

theorem rfind_some {needle hay : List α} {position : Nat} (found : rfind needle hay = some position) :
    needle <+: hay.drop position ∧ position ≤ hay.length := by
  induction hay generalizing position with
  | nil =>
    rw [rfind] at found
    split at found <;> simp_all
  | cons c cs ih =>
    rw [rfind] at found
    cases later : rfind needle cs with
    | some behind =>
      rw [later] at found
      cases found
      obtain ⟨occurs, within⟩ := ih later
      exact ⟨occurs, Nat.succ_le_succ within⟩
    | none =>
      rw [later] at found
      simp only at found
      split at found <;> cases found
      exact ⟨‹_›, Nat.zero_le _⟩

theorem le_rfind {needle hay : List α} {position : Nat} (occurs : needle <+: hay.drop position)
    (within : position ≤ hay.length) : ∃ last, rfind needle hay = some last ∧ position ≤ last := by
  induction hay generalizing position with
  | nil =>
    rw [List.drop_nil, List.prefix_nil] at occurs
    exact ⟨0, by rw [rfind, if_pos occurs], within⟩
  | cons c cs ih =>
    rw [rfind]
    cases later : rfind needle cs with
    | some behind =>
      refine ⟨behind + 1, rfl, ?_⟩
      cases position with
      | zero => exact Nat.zero_le _
      | succ position =>
        obtain ⟨last, found, reaches⟩ := ih occurs (Nat.le_of_succ_le_succ within)
        rw [later] at found
        cases found
        exact Nat.succ_le_succ reaches
    | none =>
      cases position with
      | zero => exact ⟨0, if_pos occurs, Nat.le_refl _⟩
      | succ position =>
        obtain ⟨last, found, -⟩ := ih occurs (Nat.le_of_succ_le_succ within)
        rw [later] at found
        cases found

theorem rfind_at_end_iff {needle hay : List α} :
    (∃ position, rfind needle hay = some position ∧ hay.length - position = needle.length) ↔
      needle <:+ hay := by
  constructor
  · rintro ⟨position, found, reaches⟩
    obtain ⟨⟨rest, split⟩, within⟩ := rfind_some found
    have lengths := congrArg List.length split
    rw [List.length_append, List.length_drop] at lengths
    have empty : rest = [] := List.eq_nil_of_length_eq_zero (by omega)
    rw [empty, List.append_nil] at split
    rw [split]
    exact List.drop_suffix _ _
  · rintro ⟨front, rfl⟩
    have occurs : needle <+: (front ++ needle).drop front.length := by
      rw [List.drop_left]
    obtain ⟨last, found, reaches⟩ := le_rfind occurs (by simp)
    refine ⟨last, found, ?_⟩
    obtain ⟨⟨rest, split⟩, within⟩ := rfind_some found
    have lengths := congrArg List.length split
    simp only [List.length_append, List.length_drop] at lengths within ⊢
    omega

/-! ## Pieces -/

theorem tokenizeFrom_skip (delimiter piece skipped rest : List α) :
    tokenizeFrom delimiter skipped.length piece (skipped ++ rest) = tokenizeFrom delimiter 0 piece rest := by
  induction skipped with
  | nil => rfl
  | cons c skipped ih => exact ih

theorem tokenizeFrom_eq {delimiter : List α} (proper : delimiter ≠ []) (piece source : List α) :
    tokenizeFrom delimiter 0 piece source =
      match find delimiter source with
      | none => [piece.reverse ++ source]
      | some position => (piece.reverse ++ source.take position) ::
          tokenizeFrom delimiter 0 [] (source.drop (position + delimiter.length)) := by
  induction source generalizing piece with
  | nil => simp [tokenizeFrom, find, proper]
  | cons c cs ih =>
    rw [tokenizeFrom, find]
    split
    · rename_i here
      obtain ⟨rest, whole⟩ := here
      obtain ⟨d, ds, rfl⟩ := List.exists_cons_of_ne_nil proper
      obtain ⟨-, rfl⟩ := List.cons.inj whole
      simp [tokenizeFrom_skip]
    · rw [ih]
      cases find delimiter cs with
      | none => simp
      | some position => simp [Nat.add_right_comm position 1]

section Pieces

variable {delimiter source : List α}

theorem tokenize_of_find_none (absent : find delimiter source = none) : tokenize delimiter source = [source] := by
  rw [tokenize]
  split
  · rfl
  · rename_i proper
    rw [tokenizeFrom_eq proper, absent]
    rfl

theorem tokenize_of_find_some {position : Nat} (proper : delimiter ≠ [])
    (found : find delimiter source = some position) :
    tokenize delimiter source =
      source.take position :: tokenize delimiter (source.drop (position + delimiter.length)) := by
  rw [tokenize, tokenize, if_neg proper, if_neg proper, tokenizeFrom_eq proper, found]
  rfl

/-- What holds of a text without the delimiter, and of one whose rest behind the first occurrence it holds
of, holds of every text. -/
theorem delimited_induction (proper : delimiter ≠ []) {motive : List α → Prop}
    (last : ∀ source, find delimiter source = none → motive source)
    (next : ∀ source position, find delimiter source = some position →
      motive (source.drop (position + delimiter.length)) → motive source) (source : List α) :
    motive source := by
  induction size : source.length using Nat.strongRecOn generalizing source with
  | _ n ih =>
    cases found : find delimiter source with
    | none => exact last source found
    | some position =>
      refine next source position found (ih _ ?_ _ rfl)
      have lengths := congrArg List.length (eq_append_of_find found)
      have some := List.length_pos_iff.mpr proper
      simp only [List.length_append] at lengths
      omega

theorem tokenize_ne_nil (delimiter source : List α) : tokenize delimiter source ≠ [] := by
  by_cases proper : delimiter = []
  · simp [tokenize, proper]
  · cases found : find delimiter source with
    | none => simp [tokenize_of_find_none found]
    | some position => simp [tokenize_of_find_some proper found]

theorem intercalate_tokenize (delimiter source : List α) :
    List.intercalate delimiter (tokenize delimiter source) = source := by
  by_cases proper : delimiter = []
  · simp [tokenize, proper]
  · induction source using delimited_induction proper with
    | last source absent => rw [tokenize_of_find_none absent, List.intercalate_singleton]
    | next source position found ih =>
      obtain ⟨piece, pieces, cut⟩ := List.exists_cons_of_ne_nil
        (tokenize_ne_nil delimiter (source.drop (position + delimiter.length)))
      rw [tokenize_of_find_some proper found, cut, List.intercalate_cons_cons, ← cut, ih, List.append_assoc,
        ← eq_append_of_find found]

theorem not_infix_of_mem_tokenize {token : List α} (proper : delimiter ≠ [])
    (listed : token ∈ tokenize delimiter source) : ¬ delimiter <:+: token := by
  induction source using delimited_induction proper with
  | last source absent =>
    rw [tokenize_of_find_none absent] at listed
    rw [List.mem_singleton.mp listed]
    exact not_infix_of_find absent
  | next source position found ih =>
    rw [tokenize_of_find_some proper found] at listed
    rcases List.mem_cons.mp listed with rfl | later
    · exact not_infix_take_of_find proper found
    · exact ih later

theorem infix_of_mem_tokenize {token : List α} (listed : token ∈ tokenize delimiter source) :
    token <:+: source := by
  by_cases proper : delimiter = []
  · rw [tokenize, if_pos proper] at listed
    rw [List.mem_singleton.mp listed]
  · induction source using delimited_induction proper with
    | last source absent =>
      rw [tokenize_of_find_none absent] at listed
      rw [List.mem_singleton.mp listed]
    | next source position found ih =>
      rw [tokenize_of_find_some proper found] at listed
      rcases List.mem_cons.mp listed with rfl | later
      · exact (List.take_prefix _ _).isInfix
      · exact (ih later).trans (List.drop_suffix _ _).isInfix

theorem length_le_of_mem_tokenize {token : List α} (listed : token ∈ tokenize delimiter source) :
    token.length ≤ source.length :=
  (infix_of_mem_tokenize listed).length_le

theorem length_tokenize_le (delimiter source : List α) :
    (tokenize delimiter source).length ≤ source.length + 1 := by
  by_cases proper : delimiter = []
  · simp [tokenize, proper]
  · induction source using delimited_induction proper with
    | last source absent => simp [tokenize_of_find_none absent]
    | next source position found ih =>
      have lengths := congrArg List.length (eq_append_of_find found)
      have some := List.length_pos_iff.mpr proper
      simp only [List.length_append] at lengths
      rw [tokenize_of_find_some proper found, List.length_cons]
      omega

end Pieces

/-! ## Replacing -/

/-- Pieces, each with a value behind it as long as there is one. -/
def weave : List (List α) → List (List α) → List α
  | [], _ => []
  | piece :: pieces, [] => piece ++ weave pieces []
  | piece :: pieces, value :: values => piece ++ (value ++ weave pieces values)

omit [DecidableEq α] in
theorem weave_replicate (pieces : List (List α)) (last value : List α) :
    weave (pieces ++ [last]) (List.replicate pieces.length value) =
      (pieces.flatMap fun piece => piece ++ value) ++ last := by
  induction pieces with
  | nil => simp [weave]
  | cons piece pieces ih => simp [weave, List.replicate_succ, ih]

/-- The result is the source with its occurrences of the delimiter replaced from the left, each by the next
of the values; what is put in is not looked at again. -/
inductive Replaced (delimiter : List α) : List α → List (List α) → List α → Prop
  | last {source : List α} : find delimiter source = none → Replaced delimiter source [] source
  | next {source value result : List α} {values : List (List α)} {position : Nat} :
      find delimiter source = some position →
      Replaced delimiter (source.drop (position + delimiter.length)) values result →
      Replaced delimiter source (value :: values) (source.take position ++ (value ++ result))

/-- One value for each place between two pieces. -/
theorem replaced_weave {delimiter source : List α} {values : List (List α)} (proper : delimiter ≠ [])
    (fits : (tokenize delimiter source).length = values.length + 1) :
    Replaced delimiter source values (weave (tokenize delimiter source) values) := by
  induction source using delimited_induction proper generalizing values with
  | last source absent =>
    rw [tokenize_of_find_none absent] at fits ⊢
    cases List.eq_nil_of_length_eq_zero (Nat.succ.inj fits).symm
    simpa [weave] using Replaced.last absent
  | next source position found ih =>
    rw [tokenize_of_find_some proper found] at fits ⊢
    cases values with
    | nil =>
      have some := List.length_pos_iff.mpr
        (tokenize_ne_nil delimiter (source.drop (position + delimiter.length)))
      rw [List.length_cons, List.length_nil] at fits
      omega
    | cons value values => exact .next found (ih (Nat.succ.inj fits))

/-! ## Joined pieces -/

section Joined

variable {d : α} {ds : List α}

theorem tokenize_of_not_mem {source : List α} (absent : d ∉ source) :
    tokenize (d :: ds) source = [source] :=
  tokenize_of_find_none (find_of_not_mem absent ds)

theorem tokenize_append {front : List α} (absent : d ∉ front) (rest : List α) :
    tokenize (d :: ds) (front ++ d :: ds ++ rest) = front :: tokenize (d :: ds) rest := by
  rw [List.append_assoc, tokenize_of_find_some (List.cons_ne_nil _ _) (find_append absent ds rest),
    List.take_left, ← List.drop_drop, List.drop_left, List.drop_left]

theorem tokenize_intercalate {pieces : List (List α)} (absent : ∀ piece ∈ pieces, d ∉ piece)
    (some : pieces ≠ []) : tokenize (d :: ds) (List.intercalate (d :: ds) pieces) = pieces := by
  induction pieces with
  | nil => exact absurd rfl some
  | cons piece pieces ih =>
    have here := absent piece (List.mem_cons_self ..)
    cases pieces with
    | nil =>
      rw [List.intercalate_singleton]
      exact tokenize_of_not_mem here
    | cons next pieces =>
      rw [List.intercalate_cons_cons, tokenize_append here,
        ih (fun other listed => absent other (List.mem_cons_of_mem _ listed)) (List.cons_ne_nil _ _)]

theorem head_tokenize_singleton (d : α) (source : List α) :
    (tokenize [d] source).head? = some (source.takeWhile (· ≠ d)) := by
  by_cases listed : d ∈ source
  · obtain ⟨front, rest, rfl, absent⟩ := List.eq_append_cons_of_mem listed
    have cut : tokenize [d] (front ++ [d] ++ rest) = _ := tokenize_append absent rest
    have plain : ∀ c ∈ front, decide (c ≠ d) = true := fun c inside =>
      decide_eq_true fun same => absent (same ▸ inside)
    rw [List.append_cons, cut, List.append_assoc, List.takeWhile_append_of_pos plain]
    simp
  · have plain : ∀ c ∈ source, decide (c ≠ d) = true := fun c inside =>
      decide_eq_true fun same => listed (same ▸ inside)
    rw [tokenize_of_not_mem listed, List.takeWhile_eq_self_iff.mpr plain]
    rfl

end Joined

omit [DecidableEq α] in
theorem intercalate_append (delimiter : List α) {front rest : List (List α)} (some : front ≠ [])
    (more : rest ≠ []) :
    List.intercalate delimiter (front ++ rest) =
      List.intercalate delimiter front ++ delimiter ++ List.intercalate delimiter rest := by
  induction front with
  | nil => exact absurd rfl some
  | cons piece front ih =>
    cases front with
    | nil =>
      obtain ⟨next, later, rfl⟩ := List.exists_cons_of_ne_nil more
      simp [List.intercalate_cons_cons]
    | cons next front =>
      rw [List.cons_append, List.cons_append, List.intercalate_cons_cons,
        List.intercalate_cons_cons, ← List.cons_append, ih (List.cons_ne_nil _ _)]
      simp only [List.append_assoc]

end H2LoadRunner.Library.Strings
