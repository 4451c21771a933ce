/-
# MockServer.ConfiguredResponses -- responses as they are read from the configuration

A service has responses with weights.  The payload and the headers of a response are texts with
placeholders, each of which has an argument: a value of the request, of which a part may be taken.

* `read_replaced`: a text is cut at its placeholders, and what is sent is the text with the values of the
  arguments in their places.
-/
import H2LoadRunner.Library.Lots
import H2LoadRunner.MockServer.Responses

namespace H2LoadRunner.MockServer.Responses

open Library Library.Lots
open Http1 (Text)

set_option autoImplicit false

/-! ## Choosing a response -/

/-- The loop of `init_distribution_map_and_total_weight`, over the weights that are left. -/
def initDistributionMap : Nat → Nat → List (Nat × Nat) → List Nat → List (Nat × Nat)
  | _, _, map, [] => map
  | index, total, map, weight :: rest =>
    if weight ≠ 0 then
      let total := (total + weight) % 2 ^ 64
      initDistributionMap (index + 1) total (assign total index map) rest
    else initDistributionMap (index + 1) total map rest

def distributionMap (weights : List Nat) : List (Nat × Nat) := initDistributionMap 0 0 [] weights

def totalWeight (weights : List Nat) : Nat :=
  if distributionMap weights ≠ [] then (distributionMap weights).foldl (fun most entry => max most entry.1) 0
  else 1

/-- `select_response`, where `number` is what the generator gives if it is asked. -/
def selectResponse (weights : List Nat) (number : Nat) : Nat :=
  let responseIndex := ((least (distributionMap weights)).map Prod.snd).getD 0
  if 1 < (distributionMap weights).length then
    (upperBound (distributionMap weights) number).getD responseIndex
  else responseIndex

theorem initDistributionMap_ends {weights rest : List Nat} {map : List (Nat × Nat)} (index : Nat)
    (total : weights.sum < 2 ^ 64) (behind : weights.drop index = rest) (inside : index ≤ weights.length)
    (ends : Ends weights index map) :
    Ends weights weights.length (initDistributionMap index (start weights index) map rest) := by
  induction rest generalizing index map with
  | nil =>
    have all : index = weights.length := Nat.le_antisymm inside (List.drop_eq_nil_iff.mp behind)
    subst all
    exact ends
  | cons weight rest ih =>
    have found : weights[index]? = some weight := by
      rw [← List.head?_drop, behind]
      rfl
    have further : weights.drop (index + 1) = rest := by
      rw [← List.tail_drop, behind]
      rfl
    have inside' : index + 1 ≤ weights.length := (List.getElem?_eq_some_iff.mp found).1
    rw [initDistributionMap]
    split
    · rename_i positive
      have next : (start weights index + weight) % 2 ^ 64 = start weights (index + 1) := by
        rw [← start_succ found]
        exact Nat.mod_eq_of_lt ((start_le_sum weights _).trans_lt total)
      dsimp only
      rw [next]
      exact ih (index + 1) further inside' (ends.assign found (Nat.pos_of_ne_zero positive))
    · rename_i empty
      rw [not_not.mp empty] at found
      have same : start weights (index + 1) = start weights index := start_succ found
      rw [← same]
      exact ih (index + 1) further inside' (ends.skip found)

section Weights

variable {weights : List Nat} {number i : Nat}

theorem distributionMap_ends (total : weights.sum < 2 ^ 64) :
    Ends weights weights.length (distributionMap weights) :=
  initDistributionMap_ends 0 total rfl (Nat.zero_le _) (ends_nil weights)

/-- The number selects the response into whose share it falls, also where none is drawn. -/
theorem selectResponse_eq (total : weights.sum < 2 ^ 64) (draws : Draws weights number i) :
    selectResponse weights number = i := by
  have ends := distributionMap_ends total
  obtain ⟨share, found, positive⟩ := draws.share_pos
  have listed : (start weights (i + 1), i) ∈ distributionMap weights :=
    (ends.mem_iff _ i).mpr ⟨(List.getElem?_eq_some_iff.mp found).1, ⟨share, found, positive⟩, rfl⟩
  rw [selectResponse]
  split
  · rw [ends.upperBound_eq draws]
    rfl
  · rename_i single
    -- There is one response with a weight.
    obtain ⟨entry, only⟩ : ∃ entry, distributionMap weights = [entry] := by
      refine List.length_eq_one_iff.mp (Nat.le_antisymm (Nat.le_of_not_lt single) ?_)
      exact List.length_pos_iff.mpr (List.ne_nil_of_mem listed)
    rw [only] at listed ⊢
    rw [← List.mem_singleton.mp listed]
    rfl

theorem distributionMap_eq_nil (zero : weights.sum = 0) : distributionMap weights = [] := by
  refine List.eq_nil_iff_forall_not_mem.mpr fun entry member => ?_
  obtain ⟨-, ⟨share, found, positive⟩, -⟩ :=
    ((distributionMap_ends (by omega)).mem_iff entry.1 entry.2).mp member
  have none := List.sum_eq_zero_iff.mp zero share (List.mem_of_getElem? found)
  omega

theorem totalWeight_eq (positive : 0 < weights.sum) (total : weights.sum < 2 ^ 64) :
    totalWeight weights = weights.sum := by
  have ends := distributionMap_ends total
  obtain ⟨i, member⟩ := ends.last (by rwa [start_length])
  rw [totalWeight, if_pos (List.ne_nil_of_mem member), ends.foldl_max_eq positive]

end Weights

/-- **Unless all weights are zero, as many of the numbers below the total weight select a response as its
weight says; what is selected is a response, and one without a weight only where none has one.** -/
theorem selectResponse_weighted {weights : List Nat} (nonempty : weights ≠ []) (small : weights.sum ≤ 2 ^ 31) :
    (0 < weights.sum → totalWeight weights = weights.sum ∧ ∀ i weight, weights[i]? = some weight →
      ((Finset.range (totalWeight weights)).filter (selectResponse weights · = i)).card = weight) ∧
    ∀ number < totalWeight weights, selectResponse weights number < weights.length ∧
      (weights[selectResponse weights number]? = some 0 → ∀ weight ∈ weights, weight = 0) := by
  have total : weights.sum < 2 ^ 64 := by omega
  constructor
  · intro positive
    refine ⟨totalWeight_eq positive total, fun i weight found => ?_⟩
    rw [totalWeight_eq positive total, ← card_draws found]
    congr 1
    refine Finset.filter_congr fun number below => ?_
    rw [Finset.mem_range, ← start_length] at below
    obtain ⟨j, -, draws⟩ := exists_draws below
    rw [selectResponse_eq total draws]
    exact ⟨fun same => same ▸ draws, draws.unique⟩
  · intro number below
    rcases Nat.eq_zero_or_pos weights.sum with zero | positive
    · have first : selectResponse weights number = 0 := by
        rw [selectResponse, distributionMap_eq_nil zero]
        rfl
      rw [first]
      exact ⟨List.length_pos_iff.mpr nonempty, fun _ => List.sum_eq_zero_iff.mp zero⟩
    · rw [totalWeight_eq positive total, ← start_length] at below
      obtain ⟨j, inside, draws⟩ := exists_draws below
      obtain ⟨share, found, large⟩ := draws.share_pos
      rw [selectResponse_eq total draws]
      refine ⟨inside, fun empty => ?_⟩
      rw [found, Option.some.injEq] at empty
      omega

/-- **Satisfiable pole:** a response without a weight between two that have one. -/
theorem threeResponses_weighted :
    ((Finset.range (totalWeight [2, 0, 3])).filter (selectResponse [2, 0, 3] · = 2)).card = 3 :=
  ((selectResponse_weighted (by decide) (by decide)).1 (by decide)).2 2 3 rfl

/-- **Refuting pole:** of two responses without a weight the first is selected by the one number there is,
so that as many select it as there are numbers, not as its weight says. -/
theorem noWeights_selected : totalWeight [0, 0] = 1 ∧
      ((Finset.range (totalWeight [0, 0])).filter (selectResponse [0, 0] · = 0)).card = 1 := by
  decide

/-! ## Texts with placeholders -/

/-- A text of the configuration and its arguments.  A string and a vector have sizes of type `size_t`. -/
structure TemplateSchema where
  text : Text
  placeholder : Text
  arguments : List Argument
  sized : text.length + 1 < 2 ^ 64 ∧ arguments.length < 2 ^ 64

namespace TemplateSchema

def tokens (schema : TemplateSchema) : List Text := Strings.tokenize schema.placeholder schema.text

/-- What the constructors of a response and of a header keep; `none` where they end the program, because
the difference of the two sizes, of type `size_t`, is not 1. -/
def read (schema : TemplateSchema) : Option Template :=
  if (schema.tokens.length + (2 ^ 64 - schema.arguments.length)) % 2 ^ 64 = 1 then
    some ⟨schema.tokens, schema.arguments⟩
  else none

/-- A header has a name in front of a colon and a value behind it. -/
def readHeader (schema : TemplateSchema) : Option Template :=
  match Strings.find ":".toList (schema.text.drop 1) with
  | none => none
  | some position =>
    if schema.text.head? = some ':' ∧ position = 0 ∨ schema.text.drop (position + 2) = [] then none
    else schema.read

theorem read_eq_some_iff (schema : TemplateSchema) (template : Template) : schema.read = some template ↔
      schema.tokens.length = schema.arguments.length + 1 ∧ ⟨schema.tokens, schema.arguments⟩ = template := by
  have most : schema.tokens.length ≤ schema.text.length + 1 := Strings.length_tokenize_le _ _
  have least : 0 < schema.tokens.length := List.length_pos_iff.mpr (Strings.tokenize_ne_nil _ _)
  have sized := schema.sized
  have same : (schema.tokens.length + (2 ^ 64 - schema.arguments.length)) % 2 ^ 64 = 1 ↔
      schema.tokens.length = schema.arguments.length + 1 := by
    omega
  rw [read]
  split
  · rename_i one
    rw [Option.some.injEq, and_iff_right (same.mp one)]
  · rename_i other
    exact iff_of_false nofun fun both => other (same.mpr both.1)

theorem read_of_readHeader {schema : TemplateSchema} {template : Template}
    (accepted : schema.readHeader = some template) : schema.read = some template := by
  rw [readHeader] at accepted
  split at accepted
  · cases accepted
  · split at accepted
    · cases accepted
    · exact accepted

end TemplateSchema

theorem length_of_values {engines : Engines} {msg : Message} {drawn : Nat → Text} {template : Template}
    {values : List Text} (produced : template.values engines msg drawn = .ok values) :
    values.length = template.arguments.length := by
  rw [Template.values] at produced
  rw [show template.arguments.length = template.arguments.zipIdx.length by simp]
  generalize template.arguments.zipIdx = entries at produced
  induction entries generalizing values with
  | nil =>
    cases produced
    rfl
  | cons entry entries ih =>
    rw [List.mapM_cons] at produced
    obtain ⟨value, -, produced⟩ := Transition.ok_of_bind produced
    obtain ⟨others, rest, produced⟩ := Transition.ok_of_bind produced
    cases produced
    rw [List.length_cons, List.length_cons, ih rest]

theorem interleave_eq_weave (tokens values : List Text) : interleave tokens values = Strings.weave tokens values := by
  induction tokens generalizing values with
  | nil => rfl
  | cons token tokens ih =>
    cases values with
    | nil => rw [interleave, Strings.weave, ih]
    | cons value values => rw [interleave, Strings.weave, ih, List.append_assoc]

/-- **The tokens are free of the placeholder and joined by it are the text; it is accepted exactly when
it has one placeholder for each argument, and then it is filled, if the arguments have values, by
replacing the placeholders from the left, each by the value of the next argument.** -/
theorem read_replaced (schema : TemplateSchema) (proper : schema.placeholder ≠ []) :
    List.intercalate schema.placeholder schema.tokens = schema.text ∧
    (∀ token ∈ schema.tokens, ¬ schema.placeholder <:+: token) ∧
    (schema.read.isSome ↔ schema.tokens.length = schema.arguments.length + 1) ∧
    ∀ (engines : Engines) (msg : Message) (template : Template),
      (schema.read = some template ∨ schema.readHeader = some template) → ∀ drawn : Nat → Text,
        match template.values engines msg drawn with
        | .ok values => values.length = schema.arguments.length ∧
            ∃ filled, template.fill engines msg drawn = .ok filled ∧
              Strings.Replaced schema.placeholder schema.text values filled
        | .error fault => template.fill engines msg drawn = .error fault := by
  refine ⟨Strings.intercalate_tokenize _ _, fun _ => Strings.not_infix_of_mem_tokenize proper, ?_, ?_⟩
  · rw [Option.isSome_iff_exists]
    simp [schema.read_eq_some_iff]
  · intro engines msg template accepted drawn
    have accepted : schema.read = some template := accepted.elim id TemplateSchema.read_of_readHeader
    obtain ⟨fits, rfl⟩ := (schema.read_eq_some_iff template).mp accepted
    rw [Template.fill]
    cases produced : Template.values engines msg drawn ⟨schema.tokens, schema.arguments⟩ with
    | error fault => rfl
    | ok values =>
      have lengths := length_of_values produced
      refine ⟨lengths, _, rfl, ?_⟩
      rw [interleave_eq_weave]
      exact Strings.replaced_weave proper (by rw [lengths]; exact fits)

/-- A header with a placeholder that overlaps itself. -/
def agingHeader : TemplateSchema where
  text := "age:%%%".toList
  placeholder := "%%".toList
  arguments := [{ substringStart := 0, substringLength := -1, valType := .rawPayload }]
  sized := by decide

/-- **Satisfiable pole:** the value contains the placeholder and is not looked at again. -/
theorem agingHeader_replaced :
    Strings.Replaced "%%".toList "age:%%%".toList ["%%%%".toList] "age:%%%%%".toList := by
  obtain ⟨-, _, filled, replaced⟩ := (read_replaced agingHeader (by decide)).2.2.2 noEngines
    ⟨[], "%%%%".toList⟩ ⟨["age:".toList, "%".toList], agingHeader.arguments⟩ (.inr (by decide)) fun _ => []
  cases filled
  exact replaced

/-! ## Parts of values -/

structure SchemaArgument where
  typeOfValue : Text
  valueIdentifier : Text
  substringStart : Int
  substringLength : Int
  regex : Text

/-- An argument of the configuration.  The constructor sets the start twice, to -1 at last, and the length
not at all; `memory` is what it happens to be.  A field that is not given stays as it is. -/
def SchemaArgument.read (memory : Int) (typeOfValue valueIdentifier regex : Text) (start length : Option Int) :
    SchemaArgument where
  typeOfValue := typeOfValue
  valueIdentifier := valueIdentifier
  substringStart := start.getD (-1)
  substringLength := length.getD memory
  regex := regex

namespace Argument

def ofSchema (schema : SchemaArgument) : Argument where
  jsonPointer := if schema.typeOfValue = "JsonPointer".toList then schema.valueIdentifier else []
  headerName := if schema.typeOfValue = "Header".toList then schema.valueIdentifier else []
  valType :=
    if schema.typeOfValue = "Pseudo-UUID".toList then .uuid
    else if schema.typeOfValue = "RandomHex".toList then .randomHex
    else if schema.typeOfValue = "TimeStamp".toList then .timestamp
    else if schema.typeOfValue = "RawPayload".toList then .rawPayload
    else .invalid
  substringStart := schema.substringStart
  substringLength := schema.substringLength
  regex := if schema.regex = [] then none else some schema.regex

end Argument

/-- The part that is asked for: from the start on, at most so many characters; left out they are the whole. -/
def wanted (start length : Option Int) (text : Text) : Text :=
  let rest := text.drop (start.getD 0).toNat
  if length.getD (-1) = -1 then rest else rest.take (length.getD (-1)).toNat

/-- Whether the part is taken that is asked for: the start is inside the value; without it nothing is to
be cut off, and without a length the memory does not cut off anything. -/
def TakesPart (memory : Int) (start length : Option Int) (text : Text) : Prop :=
  text = [] ∨
    match start, length with
    | none, none => True
    | none, some length => length = -1 ∨ text.length ≤ length
    | some start, some _ => start < text.length
    | some start, none => start < text.length ∧ (memory < 0 ∨ text.length ≤ start + memory)

theorem substring_of_outside {arg : Argument} {text : Text}
    (outside : arg.substringStart < 0 ∨ text.length ≤ arg.substringStart) : arg.substring text = text :=
  if_neg fun both => by omega

theorem substring_of_inside {arg : Argument} {text : Text} (front : 0 ≤ arg.substringStart)
    (inside : arg.substringStart < text.length) : arg.substring text =
      if arg.substringLength < 0 then text.drop arg.substringStart.toNat
      else (text.drop arg.substringStart.toNat).take arg.substringLength.toNat := by
  rw [Argument.substring]
  by_cases whole : arg.substringStart = 0 ∧ arg.substringLength = -1
  · simp [whole.1, whole.2]
  · rw [if_pos ⟨by omega, front, inside⟩]

theorem substring_eq_iff (memory : Int) (typeOfValue valueIdentifier regex : Text) {start length : Option Int}
    (front : ∀ s ∈ start, 0 ≤ s) (most : ∀ l ∈ length, -1 ≤ l) (text : Text) :
    (Argument.ofSchema (.read memory typeOfValue valueIdentifier regex start length)).substring text =
      wanted start length text ↔ TakesPart memory start length text := by
  by_cases empty : text = []
  · subst empty
    exact iff_of_true (by simp [Argument.substring, wanted]) (.inl rfl)
  unfold TakesPart
  rw [or_iff_right empty]
  have some : 0 < text.length := List.length_pos_iff.mpr empty
  cases start with
  | none =>
    rw [substring_of_outside (.inl (show (-1 : Int) < 0 by omega)), wanted]
    cases length with
    | none => simp
    | some l =>
      have most := most l rfl
      simp only [Option.getD_none, Int.toNat_zero, List.drop_zero, Option.getD_some]
      split_ifs with whole
      · exact iff_of_true rfl (.inl whole)
      · rw [eq_comm, List.take_eq_self_iff, or_iff_right whole]
        omega
  | some s =>
    have front : 0 ≤ s := front s rfl
    by_cases inside : s < text.length
    · rw [substring_of_inside front inside, wanted]
      cases length with
      | none =>
        simp only [inside, true_and]
        change ((if memory < 0 then _ else (text.drop s.toNat).take memory.toNat) = text.drop s.toNat) ↔ _
        split_ifs with negative
        · exact iff_of_true rfl (.inl negative)
        · rw [List.take_eq_self_iff, List.length_drop, or_iff_right negative]
          omega
      | some l =>
        have open_end : l < 0 ↔ l = -1 := by
          have := most l rfl
          omega
        refine iff_of_true ?_ inside
        change (if l < 0 then _ else _) = _
        simp only [open_end, Option.getD_some]
        rfl
    · have behind : text.drop s.toNat = [] := List.drop_eq_nil_of_le (by omega)
      rw [substring_of_outside (.inr (show (text.length : Int) ≤ s by omega)), wanted, Option.getD_some, behind]
      simp only [List.take_nil, ite_self, empty, false_iff]
      cases length with
      | none => exact fun taken => inside taken.1
      | some l => exact inside

/-- **For every start and length, given or left out, the value is the part that is asked for exactly when
the start is inside the value and the memory behind a length that is left out cuts off nothing, or the
start is left out and nothing is to be cut off, or there is nothing to take a part of.** -/
theorem getValue_part (engines : Engines) (msg : Message) (drawn : Text) (memory : Int)
    (typeOfValue valueIdentifier regex : Text) (start length : Option Int) (front : ∀ s ∈ start, 0 ≤ s)
    (most : ∀ l ∈ length, -1 ≤ l) {text : Text} :
    let arg := Argument.ofSchema (.read memory typeOfValue valueIdentifier regex start length)
    arg.extracted engines msg drawn = .ok text →
      (arg.getValue engines msg drawn = .ok (wanted start length text) ↔ TakesPart memory start length text) := by
  intro arg extracted
  rw [Argument.getValue, extracted, Except.map, Except.ok.injEq]
  exact substring_eq_iff memory typeOfValue valueIdentifier regex front most text

def partOfHeader (memory : Int) (start length : Option Int) : Except JsonPointers.Fault Text :=
  (Argument.ofSchema (.read memory "Header".toList "h".toList [] start length)).getValue noEngines
    ⟨[("h".toList, "abc".toList)], []⟩ []

/-- **Satisfiable pole:** a part inside the value, and the rest of it where the memory is a long length. -/
theorem innerPart_taken : partOfHeader 7 (some 1) (some 1) = .ok "b".toList ∧
    partOfHeader 7 (some 1) none = .ok "bc".toList := by
  constructor
  · exact (getValue_part noEngines ⟨[("h".toList, "abc".toList)], []⟩ [] 7 "Header".toList "h".toList []
      (some 1) (some 1) (by simp) (by simp) rfl).mpr (.inr (show (1 : Int) < 3 by decide))
  · exact (getValue_part noEngines ⟨[("h".toList, "abc".toList)], []⟩ [] 7 "Header".toList "h".toList []
      (some 1) none (by simp) (by simp) rfl).mpr
      (.inr (show (1 : Int) < 3 ∧ ((7 : Int) < 0 ∨ (3 : Int) ≤ 1 + 7) by decide))

/-- **Refuting pole:** from behind the end the whole value is taken; without a start the length is not
looked at, and without a length what is in memory is. -/
theorem otherParts_taken :
    partOfHeader 7 (some 3) (some 1) = .ok "abc".toList ∧ wanted (some 3) (some 1) "abc".toList = [] ∧
    partOfHeader 7 none (some 1) = .ok "abc".toList ∧ wanted none (some 1) "abc".toList = "a".toList ∧
    partOfHeader 0 (some 1) none = .ok [] ∧ wanted (some 1) none "abc".toList = "bc".toList :=
  ⟨rfl, rfl, rfl, rfl, rfl, rfl⟩

end H2LoadRunner.MockServer.Responses
