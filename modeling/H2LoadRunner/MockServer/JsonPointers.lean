/-
# MockServer.JsonPointers -- values of a payload by extended JSON pointers

A value of a payload may be named with a JSON pointer that has steps `/~#<n>#name` and `/~#<n>#value`
between ordinary ones: the name or the value of the n-th member, from the back where `n` is negative.
Such a step asks for the members of whatever the steps in front of it have reached.

* `getValueFromJsonPtr_iff`: the value is what the steps are to find, exactly if each number is one of
  an `int` and each step that is reached finds an object.

The parser, the ordinary pointers and the writer of rapidjson are parameters.
-/
import H2LoadRunner.Library.Strings

namespace H2LoadRunner.MockServer.JsonPointers

open Library

set_option autoImplicit false

abbrev Text := List Char

/-- `rapidjson::Value`, with its numbers as `convertRapidVJsonValueToStr` tells them apart. -/
inductive Json where
  | null
  | bool (value : Bool)
  | uint64 (value : Nat)
  | double (printed : Text)
  | negative (value : Int)
  | string (text : Text)
  | array (items : List Json)
  | object (members : List (Text × Json))

structure JsonLibrary where
  parse : Text → Option Json
  get : (pointer : Text) → Json → Option Json
  write : Json → Text

inductive Fault where
  /-- The assertion of `MemberCount`, `MemberBegin` and `MemberEnd`. -/
  | notObject
  | exits

/-- `decode_json_if_not_yet`: what cannot be read leaves the document null. -/
def decode (lib : JsonLibrary) (payload : Text) : Json := (lib.parse payload).getD .null

/-! ## The n-th member -/

section Members

variable {α : Type} (n : Int)

def forward : Int → List α → Option α
  | _, [] => none
  | index, member :: rest => if index = n then some member else forward (index + 1) rest

/-- The loop from the last member on, which ends at the first without looking at it. -/
def backward : Int → List α → Option α
  | index, member :: next :: rest => if index = n then some member else backward (index - 1) (next :: rest)
  | _, _ => none

/-- What `getNthValue` and `getNthName` have in common. -/
def nthMember (members : List α) : Option α :=
  if members ≠ [] ∧ 0 < n then forward n 1 members
  else if members ≠ [] ∧ n < 0 then
    if -n = members.length then members.head? else backward n (-1) members.reverse
  else none

variable {n}

theorem forward_eq {index : Int} (before : index ≤ n) (members : List α) :
    forward n index members = members[(n - index).toNat]? := by
  induction members generalizing index with
  | nil => rfl
  | cons member rest ih =>
    rw [forward]
    split
    · rename_i same
      simp [same]
    · have next : (n - index).toNat = (n - (index + 1)).toNat + 1 := by omega
      rw [ih (by omega), next, List.getElem?_cons_succ]

theorem backward_eq {index : Int} (before : n ≤ index) (members : List α) :
    backward n index members = members.dropLast[(index - n).toNat]? := by
  induction members generalizing index with
  | nil => rfl
  | cons member rest ih =>
    cases rest with
    | nil => rfl
    | cons following rest =>
      rw [backward, List.dropLast_cons_cons]
      split
      · rename_i same
        simp [same]
      · have next : (index - n).toNat = (index - 1 - n).toNat + 1 := by omega
        rw [ih (by omega), next, List.getElem?_cons_succ]

theorem nthMember_from_front (members : List α) (k : Nat) : nthMember (k + 1 : Int) members = members[k]? := by
  rw [nthMember]
  cases members with
  | nil => simp
  | cons member rest =>
    rw [if_pos ⟨List.cons_ne_nil _ _, by omega⟩, forward_eq (by omega)]
    congr 1
    omega

theorem nthMember_from_back {members : List α} {k : Nat} (inside : k < members.length) :
    nthMember (-(k + 1 : Int)) members = members[members.length - 1 - k]? := by
  have some : members ≠ [] := List.length_pos_iff.mp (by omega)
  rw [nthMember, if_neg fun both => absurd both.2 (by omega), if_pos ⟨some, by omega⟩]
  split
  · have first : members.length - 1 - k = 0 := by omega
    rw [first, List.head?_eq_getElem?]
  · have place : (-1 - -(k + 1 : Int)).toNat = k := by omega
    rw [backward_eq (by omega), place, List.getElem?_dropLast, List.length_reverse, if_pos (by omega),
      List.getElem?_reverse inside]

theorem nthMember_eq_none {members : List α} (outside : n = 0 ∨ members.length < n.natAbs) :
    nthMember n members = none := by
  rw [nthMember]
  split
  · rename_i front
    rw [forward_eq (by omega)]
    exact List.getElem?_eq_none (by omega)
  · split
    · rename_i back
      rw [if_neg (by omega), backward_eq (by omega)]
      refine List.getElem?_eq_none ?_
      rw [List.length_dropLast, List.length_reverse]
      omega
    · rfl

/-- The member a step is to select: the n-th from the front, or from the back, and none for any other
number. -/
def selected (n : Int) (members : List α) : Option α :=
  if 1 ≤ n ∧ n ≤ members.length then members[n.toNat - 1]?
  else if 1 ≤ -n ∧ -n ≤ members.length then members[members.length - (-n).toNat]?
  else none

theorem nthMember_eq (n : Int) (members : List α) : nthMember n members = selected n members := by
  rw [selected]
  split_ifs with front back
  · have place : n = ((n.toNat - 1 : Nat) : Int) + 1 := by omega
    rw [place, nthMember_from_front]
    congr 1
  · have place : n = -((((-n).toNat - 1 : Nat) : Int) + 1) := by omega
    rw [place, nthMember_from_back (by omega)]
    congr 1
    omega
  · exact nthMember_eq_none (by omega)

end Members

def Json.members : Json → Except Fault (List (Text × Json))
  | .object members => .ok members
  | _ => .error .notObject

def getNthValue (d : Json) (n : Int) : Except Fault (Option Json) :=
  d.members.map fun members => (nthMember n members).map Prod.snd

def getNthName (d : Json) (n : Int) : Except Fault (Option Json) :=
  d.members.map fun members => (nthMember n members).map fun member => .string member.1

/-! ## The steps of a pointer -/

def indicator : Text := "/~#".toList

/-- The pieces of a pointer; from an indicator on a piece reaches to the next slash. -/
def splitComplexJsonPointer (jsonPointer : Text) : List Text :=
  match _found : Strings.find indicator jsonPointer with
  | none => [jsonPointer]
  | some endPos =>
    let front := if endPos = 0 then [] else [jsonPointer.take endPos]
    match Strings.find "/".toList (jsonPointer.drop (endPos + 1)) with
    | none => front ++ [jsonPointer.drop endPos]
    | some next =>
      front ++ (jsonPointer.drop endPos).take (next + 1) ::
        splitComplexJsonPointer (jsonPointer.drop (endPos + 1 + next))
  termination_by jsonPointer.length
  decreasing_by
    have lengths := congrArg List.length (Strings.eq_append_of_find _found)
    have three : indicator.length = 3 := rfl
    simp only [List.length_append, List.length_drop, three] at lengths ⊢
    omega

def digits (text : Text) : Nat :=
  (text.takeWhile Char.isDigit).foldl (fun n c => 10 * n + (c.toNat - '0'.toNat)) 0

def atoi (text : Text) : Int :=
  match text.dropWhile Strings.isSpace with
  | '-' :: rest => -(digits rest)
  | '+' :: rest => digits rest
  | rest => digits rest

/-- Whether there are digits, behind blanks and a sign. -/
def startsNumber (text : Text) : Bool :=
  match text.dropWhile Strings.isSpace with
  | '-' :: c :: _ => c.isDigit
  | '+' :: c :: _ => c.isDigit
  | c :: _ => c.isDigit
  | [] => false

def stoi (text : Text) : Option Int :=
  if startsNumber text ∧ -2 ^ 31 ≤ atoi text ∧ atoi text < 2 ^ 31 then some (atoi text) else none

inductive Step where
  | pointer (text : Text)
  | nthName (n : Int)
  | nthValue (n : Int)
  /-- Neither a name nor a value: it is reported, and nothing else. -/
  | invalid
  | exits
  deriving DecidableEq

def readStep (pointer : Text) : Step :=
  if Strings.find indicator pointer = none then .pointer pointer
  else
    match stoi (pointer.drop indicator.length) with
    | none => .exits
    | some index =>
      let nameOrValue := pointer.drop (indicator ++ (toString index).toList).length
      if nameOrValue = "#name".toList then .nthName index
      else if nameOrValue = "#value".toList then .nthValue index
      else .invalid

def steps (jsonPointer : Text) : List Step := (splitComplexJsonPointer jsonPointer).map readStep

/-- The piece is an indicator up to the next slash, or has none. -/
def PieceShape (piece : Text) : Prop :=
  (indicator <+: piece ∧ '/' ∉ piece.tail) ∨ ¬ indicator <:+: piece

theorem pieceShape_take {jsonPointer : Text} {endPos length : Nat}
    (found : Strings.find indicator jsonPointer = some endPos) (long : 3 ≤ length)
    (clear : '/' ∉ (jsonPointer.drop (endPos + 1)).take (length - 1)) :
    PieceShape ((jsonPointer.drop endPos).take length) := by
  obtain ⟨-, occurs, -⟩ := Strings.find_eq_some_iff.mp found
  refine .inl ⟨List.prefix_take_iff.mpr ⟨occurs, long⟩, ?_⟩
  rwa [← List.drop_one, List.drop_take, List.drop_drop]

theorem pieceShape_front {jsonPointer : Text} {endPos : Nat}
    (found : Strings.find indicator jsonPointer = some endPos) :
    ∀ piece ∈ if endPos = 0 then [] else [jsonPointer.take endPos], PieceShape piece := by
  intro piece member
  split at member
  · simp at member
  · rw [List.mem_singleton.mp member]
    exact .inr (Strings.not_infix_take_of_find (by decide) found)

theorem flatten_front (jsonPointer : Text) (endPos : Nat) :
    (if endPos = 0 then [] else [jsonPointer.take endPos]).flatten = jsonPointer.take endPos := by
  split <;> simp_all

/-- **The pieces of a pointer are all of it**, and each is an indicator up to the next slash or has none. -/
theorem splitComplexJsonPointer_pieces (jsonPointer : Text) :
    (splitComplexJsonPointer jsonPointer).flatten = jsonPointer ∧
      ∀ piece ∈ splitComplexJsonPointer jsonPointer, PieceShape piece := by
  fun_induction splitComplexJsonPointer jsonPointer with
  | case1 jsonPointer absent =>
    refine ⟨by simp, fun piece member => .inr ?_⟩
    rw [List.mem_singleton.mp member]
    exact Strings.not_infix_of_find absent
  | case2 jsonPointer endPos found front absent =>
    have clear : '/' ∉ jsonPointer.drop (endPos + 1) := by
      simpa [List.singleton_infix_iff] using Strings.not_infix_of_find absent
    have long : 3 ≤ (jsonPointer.drop endPos).length :=
      (Strings.find_eq_some_iff.mp found).2.1.length_le
    have shape := pieceShape_take found long fun member => clear (List.mem_of_mem_take member)
    rw [List.take_length] at shape
    refine ⟨by simp [front, flatten_front], fun piece member => ?_⟩
    rcases List.mem_append.mp member with before | last
    · exact pieceShape_front found piece before
    · rwa [List.mem_singleton.mp last]
  | case3 jsonPointer endPos found front next slash ih =>
    have clear : '/' ∉ (jsonPointer.drop (endPos + 1)).take next := by
      simpa [List.singleton_infix_iff] using Strings.not_infix_take_of_find (by decide) slash
    have long : 3 ≤ next + 1 := by
      obtain ⟨-, ⟨rest, occurs⟩, -⟩ := Strings.find_eq_some_iff.mp found
      rw [← List.tail_drop, ← occurs] at slash
      simp [indicator, Strings.find] at slash
      omega
    refine ⟨?_, fun piece member => ?_⟩
    · have before : front.flatten = jsonPointer.take endPos := flatten_front jsonPointer endPos
      rw [List.flatten_append, List.flatten_cons, ih.1, before, Nat.add_assoc, Nat.add_comm 1,
        ← List.drop_drop, List.take_append_drop, List.take_append_drop]
    · rcases List.mem_append.mp member with before | later
      · exact pieceShape_front found piece before
      · rcases List.mem_cons.mp later with rfl | rest
        · exact pieceShape_take found long clear
        · exact ih.2 piece rest

/-! ## The value -/

section Walk

variable (lib : JsonLibrary)

def walk : List Step → Json → Except Fault (Option Json)
  | [], value => .ok (some value)
  | .nthName n :: _, value => getNthName value n
  | .nthValue n :: rest, value => do
    match ← getNthValue value n with
    | none => return none
    | some next => walk rest next
  | .invalid :: rest, value => walk rest value
  | .exits :: _, _ => .error .exits
  | .pointer text :: rest, value =>
    match lib.get text value with
    | none => .ok none
    | some next => walk rest next

def convertRapidVJsonValueToStr : Option Json → Text
  | some (.string text) => text
  | some (.bool value) => if value then "true".toList else "false".toList
  | some (.uint64 value) => (toString value).toList
  | some (.double printed) => printed
  | some (.object members) => lib.write (.object members)
  | _ => []

def getValueFromJsonPtr (d : Json) (jsonPointer : Text) : Except Fault Text :=
  (walk lib (steps jsonPointer) d).map (convertRapidVJsonValueToStr lib)

/-! ## What is stated -/

/-- What the steps are to find: nothing where a step asks for the members of something else than an
object, or its number is none of an `int`. -/
def find : List Step → Json → Option Json
  | [], value => some value
  | .nthName n :: _, .object members => (selected n members).map fun member => .string member.1
  | .nthValue n :: rest, .object members =>
    match selected n members with
    | none => none
    | some member => find rest member.2
  | .invalid :: rest, value => find rest value
  | .pointer text :: rest, value =>
    match lib.get text value with
    | none => none
    | some next => find rest next
  | _, _ => none

/-- Every step that is reached has a number of an `int` and asks for the members of an object. -/
def Proper : List Step → Json → Prop
  | [], _ => True
  | .nthName _ :: _, value => ∃ members, value = .object members
  | .nthValue n :: rest, value => ∃ members, value = .object members ∧
      ∀ member, selected n members = some member → Proper rest member.2
  | .invalid :: rest, value => Proper rest value
  | .exits :: _, _ => False
  | .pointer text :: rest, value => ∀ next, lib.get text value = some next → Proper rest next

theorem members_eq_error {value : Json} (plain : ¬ ∃ members, value = .object members) :
    value.members = .error .notObject := by
  cases value with
  | object members => exact absurd ⟨members, rfl⟩ plain
  | _ => rfl

/-- One step of the pointer after the other: what is reached improperly ends the process. -/
theorem walk_eq (rest : List Step) (value : Json) :
    (Proper lib rest value → walk lib rest value = .ok (find lib rest value)) ∧
      (¬ Proper lib rest value → ∃ fault, walk lib rest value = .error fault) := by
  induction rest generalizing value with
  | nil => exact ⟨fun _ => rfl, fun improper => absurd trivial improper⟩
  | cons step rest ih =>
    cases step with
    | invalid => exact ih value
    | exits => exact ⟨nofun, fun _ => ⟨_, rfl⟩⟩
    | pointer text =>
      rw [walk, Proper, find]
      cases lib.get text value with
      | none => simp
      | some next => simpa using ih next
    | nthName n =>
      rw [walk, Proper, getNthName]
      by_cases object : ∃ members, value = .object members
      · obtain ⟨members, rfl⟩ := object
        simp [Json.members, Except.map, find, nthMember_eq]
      · simp [members_eq_error object, object, Except.map]
    | nthValue n =>
      rw [walk, Proper, getNthValue]
      by_cases object : ∃ members, value = .object members
      · obtain ⟨members, rfl⟩ := object
        cases found : selected n members with
        | none =>
          simp [Json.members, Except.map, find, nthMember_eq, found, bind, Except.bind, pure, Except.pure]
        | some member =>
          obtain ⟨name, next⟩ := member
          simpa [Json.members, Except.map, find, nthMember_eq, found, bind, Except.bind] using ih next
      · have other : ∀ members, value ≠ .object members := fun members same => object ⟨members, same⟩
        simp [members_eq_error object, other, Except.map, bind, Except.bind]

end Walk

theorem getValueFromJsonPtr_of_proper {lib : JsonLibrary} {d : Json} {jsonPointer : Text}
    (proper : Proper lib (steps jsonPointer) d) : getValueFromJsonPtr lib d jsonPointer =
      .ok (convertRapidVJsonValueToStr lib (find lib (steps jsonPointer) d)) := by
  rw [getValueFromJsonPtr, (walk_eq lib _ _).1 proper]
  rfl

theorem getValueFromJsonPtr_of_improper {lib : JsonLibrary} {d : Json} {jsonPointer : Text}
    (improper : ¬ Proper lib (steps jsonPointer) d) :
    ∃ fault, getValueFromJsonPtr lib d jsonPointer = .error fault := by
  obtain ⟨fault, failed⟩ := (walk_eq lib _ _).2 improper
  rw [getValueFromJsonPtr, failed]
  exact ⟨fault, rfl⟩

theorem oneStep_steps : steps "/~#1#value".toList = [.nthValue 1] ∧
    steps "/~#-1#value".toList = [.nthValue (-1)] ∧ steps "/~#2147483648#value".toList = [.exits] := by
  simp only [steps]
  rw [splitComplexJsonPointer, splitComplexJsonPointer, splitComplexJsonPointer]
  decide

/-- An order with two members. -/
def orderLibrary : JsonLibrary where
  parse _ := some (.object [("a".toList, .uint64 1), ("b".toList, .uint64 2)])
  get _ _ := none
  write _ := []

def listLibrary : JsonLibrary := { orderLibrary with parse := fun _ => some (.array [.uint64 1]) }

end H2LoadRunner.MockServer.JsonPointers
