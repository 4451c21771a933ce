/-
# Load.VariableText -- texts with variables

The path, the payload and the headers of a request may refer to variables, `${name}`.  When the
configuration is read, `split_string_and_var` cuts such a text at its references and keeps the numbers of
the variables; for each request, `assemble_string` puts the pieces together again with the values the
variables have then.

* `splits_and_assembles`: if every name is defined, the loop ends, the pieces and the names make up the
  text, and what is assembled is the text with its references replaced, unless the `int` that its size
  is added up in is negative.
* `splitStringAndVar_text`: if not, the first name without a definition is reported.
-/
import H2LoadRunner.Library.Templates
import H2LoadRunner.Load.ClientIds
import H2LoadRunner.Load.Cookies

namespace H2LoadRunner.Load.VariableText

open Library Library.Strings
open Cookies (Text)

set_option autoImplicit false

/-! ## The variables of a scenario -/

def decimal (n : Nat) : Text := Nat.toDigits 10 n

/-- `Generic_Variable`, with what its values are made of. -/
structure ValueVariable extends ClientIds.GenericVariable where
  varValueList : List (List Text)
  fullRangeLen : Nat
  /-- The constructor for a range; the one for lists leaves the length at 0. -/
  measured : varValueList = [] → fullRangeLen = (decimal rangeEnd).length

namespace ValueVariable

def varName (var : ValueVariable) : Text := var.name.toList

/-- `produce_value`; `none` where the length of the padding wraps and `std::string` throws. -/
def produceValue (var : ValueVariable) (col userId : Nat) : Option Text :=
  if var.varValueList ≠ [] then
    let column := var.varValueList.getD (col % var.varValueList.length) []
    if column ≠ [] then some (column.getD (userId % column.length) []) else some []
  else if var.rangeStart < var.rangeEnd then
    let digits := decimal userId
    if var.fullRangeLen < digits.length then none
    else some (List.replicate (var.fullRangeLen - digits.length) '0' ++ digits)
  else some []

def estimateValueSize (var : ValueVariable) (col userId : Nat) : Nat :=
  if var.varValueList ≠ [] then
    let column := var.varValueList.getD (col % var.varValueList.length) []
    if column ≠ [] then (column.getD (userId % column.length) []).length else 0
  else if var.rangeStart < var.rangeEnd then var.fullRangeLen
  else 0

/-- The estimate is the size of the value. -/
theorem estimateValueSize_of_produceValue {var : ValueVariable} {col userId : Nat} {value : Text}
    (produced : var.produceValue col userId = some value) : var.estimateValueSize col userId = value.length := by
  unfold produceValue at produced
  unfold estimateValueSize
  dsimp only at produced ⊢
  split_ifs at produced ⊢ <;> cases produced
  · rfl
  · rfl
  · rename_i fits
    rw [List.length_append, List.length_replicate]
    omega
  · rfl

end ValueVariable

/-- `Variable_Manager`: each name has the number of the variable that has it. -/
structure VariableManager where
  genericVariables : List ValueVariable
  varNameToId : FiniteMap Text Nat
  sized : varNameToId.size = genericVariables.length
  keyed : ∀ {name : Text} {id : Nat}, varNameToId.lookup name = some id →
    (genericVariables[id]?).map ValueVariable.varName = some name

namespace VariableManager

def empty : VariableManager := ⟨[], ∅, rfl, nofun⟩

def getGenVarId (manager : VariableManager) (name : Text) : Option Nat := manager.varNameToId.lookup name

def getNumberOfGenericVariables (manager : VariableManager) : Nat := manager.varNameToId.size

def getVarName (manager : VariableManager) (id : Nat) : Text :=
  ((manager.genericVariables[id]?).map ValueVariable.varName).getD []

def produceValue (manager : VariableManager) (id reqId userId : Nat) : Option Text :=
  (manager.genericVariables[id]?).bind fun var => var.produceValue reqId userId

def estimateValueSize (manager : VariableManager) (id reqId userId : Nat) : Option Nat :=
  (manager.genericVariables[id]?).map fun var => var.estimateValueSize reqId userId

variable {manager : VariableManager} {name : Text}

theorem lt_of_getGenVarId {id : Nat} (known : manager.getGenVarId name = some id) :
    id < manager.getNumberOfGenericVariables := by
  have named := manager.keyed known
  rw [getNumberOfGenericVariables, manager.sized]
  by_contra beyond
  rw [List.getElem?_eq_none (Nat.le_of_not_lt beyond)] at named
  cases named

theorem getVarName_of_getGenVarId {id : Nat} (known : manager.getGenVarId name = some id) :
    manager.getVarName id = name := by
  rw [getVarName, manager.keyed known, Option.getD_some]

def append (var : ValueVariable) (manager : VariableManager)
    (fresh : manager.getGenVarId var.varName = none) : VariableManager where
  genericVariables := manager.genericVariables ++ [var]
  varNameToId := manager.varNameToId.insert var.varName manager.getNumberOfGenericVariables
  sized := by
    have absent : var.varName ∉ manager.varNameToId := AList.lookup_eq_none.mp fresh
    rw [FiniteMap.size, AList.entries_insert_of_notMem absent, List.length_cons, List.length_append]
    exact congrArg (· + 1) manager.sized
  keyed {name id} known := by
    rw [FiniteMap.lookup_insert_eq] at known
    split at known
    · rename_i same
      cases known
      rw [getNumberOfGenericVariables, manager.sized, List.getElem?_concat_length, same]
      rfl
    · have before := lt_of_getGenVarId known
      rw [getNumberOfGenericVariables, manager.sized] at before
      rw [List.getElem?_append_left before]
      exact manager.keyed known

/-- `insert`: a name that is there keeps its variable. -/
def insert (var : ValueVariable) (manager : VariableManager) : VariableManager :=
  match fresh : manager.getGenVarId var.varName with
  | some _ => manager
  | none => manager.append var fresh

theorem getGenVarId_insert (var : ValueVariable) (manager : VariableManager) (name : Text) :
    (manager.insert var).getGenVarId name =
      match manager.getGenVarId name with
      | some id => some id
      | none => if name = var.varName then some manager.getNumberOfGenericVariables else none := by
  unfold insert
  split
  · rename_i id known
    cases held : manager.getGenVarId name with
    | some other => rfl
    | none =>
      have other : name ≠ var.varName := by
        rintro rfl
        rw [known] at held
        cases held
      rw [if_neg other]
  · rename_i fresh
    refine (FiniteMap.lookup_insert_eq ..).trans ?_
    by_cases same : name = var.varName
    · rw [if_pos same, same, fresh, if_pos rfl]
    · rw [if_neg same]
      change manager.getGenVarId name = _
      cases manager.getGenVarId name with
      | some id => rfl
      | none => rw [if_neg same]

def insertAll (vars : List ValueVariable) (manager : VariableManager) : VariableManager :=
  vars.foldl (fun manager var => manager.insert var) manager

theorem isSome_getGenVarId_insertAll (manager : VariableManager) (vars : List ValueVariable) (name : Text) :
    ((manager.insertAll vars).getGenVarId name).isSome ↔
      (manager.getGenVarId name).isSome ∨ name ∈ vars.map ValueVariable.varName := by
  induction vars generalizing manager with
  | nil => simp [insertAll]
  | cons var vars ih =>
    refine (ih (manager.insert var)).trans ?_
    rw [getGenVarId_insert, List.map_cons, List.mem_cons, ← or_assoc]
    refine or_congr_left ?_
    cases manager.getGenVarId name with
    | some id => simp
    | none => by_cases same : name = var.varName <;> simp [same]

end VariableManager

/-- What `assemble_string` reads of a scenario. -/
structure Scenario where
  variableManager : VariableManager
  numberOfVariablesFromValuePickers : Nat

theorem zero_sized : 0 < sizeMax ∧ 0 < sizeMax := by decide

def savedVariable (name : Text) : ValueVariable where
  name := String.ofList name
  rangeStart := 0
  rangeEnd := 0
  sized := zero_sized
  ordered := .inl rfl
  varValueList := []
  fullRangeLen := 1
  measured _ := rfl

/-- `process_variables`: the variables that value pickers save to, then those that are defined by a range
or by lists. -/
def processVariables (saved : List Text) (defined : List ValueVariable) : Scenario :=
  let pickers := VariableManager.empty.insertAll (saved.map savedVariable)
  { variableManager := pickers.insertAll defined
    numberOfVariablesFromValuePickers := pickers.getNumberOfGenericVariables }

variable {name : Text} {manager : VariableManager} {names : List Text} {ids : List Nat}
  {scenario : Scenario}

/-! ## Splitting -/

def marks : Marks Char := ⟨'$', '\x7b', '\x7d', by decide, by decide, by decide⟩

structure StringWithVariablesInBetween where
  stringSegments : List Text := []
  variableIdsInBetween : List Nat := []

/-- `source.find(needle, offset)`; `none` is `npos`. -/
def findFrom (needle source : Text) (offset : Nat) : Option Nat :=
  (find needle (source.drop offset)).map (offset + ·)

def substr (source : Text) (position count : Nat) : Text := (source.drop position).take count

/-- `source.size() - 1`, which wraps where the source is empty. -/
def sizeMinusOne (source : Text) : Nat := if source = [] then sizeMax - 1 else source.length - 1

/-- `variable_present`: the positions of the marks, if it is true. -/
def variablePresent (source : Text) (startOffset : Nat) : Option (Nat × Nat) :=
  if sizeMinusOne source ≤ startOffset then none
  else
    match findFrom marks.opening source startOffset with
    -- From `npos` on nothing is found.
    | none => none
    | some varStart =>
      match findFrom [marks.close] source varStart with
      | none => none
      | some varEnd => if varEnd < varStart then none else some (varStart, varEnd)

/-- What is written before the program is ended. -/
def noDefinition (source name : Text) : Text :=
  "variable ".toList ++ marks.reference name ++ " appeared in\n".toList ++ source ++
    "\nbut it has no definition on how to get the value\n".toList

section Split

variable (source : Text) (manager : VariableManager)

def splitLoop : Nat → Nat → StringWithVariablesInBetween → Option (Except Text StringWithVariablesInBetween)
  | 0, _, _ => none
  | turns + 1, offset, result =>
    match variablePresent source offset with
    | none => some (.ok { result with stringSegments := result.stringSegments ++ [source.drop offset] })
    | some (varStart, varEnd) =>
      let segment := substr source offset (varStart - offset)
      let varName := substr source (varStart + 2) (varEnd - (varStart + 2))
      match manager.getGenVarId varName with
      | some varUniqueId =>
        splitLoop turns (varEnd + 1)
          ⟨result.stringSegments ++ [segment], result.variableIdsInBetween ++ [varUniqueId]⟩
      | none => some (.error (noDefinition source varName))

def splitStringAndVar (turns : Nat) : Option (Except Text StringWithVariablesInBetween) :=
  splitLoop source manager turns 0 {}

/-- The numbers of the names, or what is reported of the first one that has none. -/
def resolve : List Text → Except Text (List Nat)
  | [] => .ok []
  | name :: names =>
    match manager.getGenVarId name with
    | some id => (resolve names).map (id :: ·)
    | none => .error (noDefinition source name)

end Split

theorem findFrom_append (needle front rest : Text) :
    findFrom needle (front ++ rest) front.length = (find needle rest).map (front.length + ·) := by
  rw [findFrom, List.drop_left]

theorem substr_append (front piece rest : Text) {position count : Nat} (starts : position = front.length)
    (counts : count = piece.length) : substr (front ++ (piece ++ rest)) position count = piece := by
  rw [substr, starts, List.drop_left, counts, List.take_left]

theorem variablePresent_of_rest (front : Text) {rest : Text} (complete : ¬ marks.HasReference rest) :
    variablePresent (front ++ rest) front.length = none := by
  rw [variablePresent]
  split
  · rfl
  · rw [findFrom_append]
    cases opens : find marks.opening rest with
    | none => rfl
    | some position =>
      obtain ⟨-, occurs, -⟩ := find_eq_some_iff.mp opens
      have closes : findFrom [marks.close] (front ++ rest) (front.length + position) = none := by
        rw [findFrom, List.drop_append, Nat.add_sub_cancel_left, List.drop_eq_nil_of_le (by omega),
          List.nil_append, Option.map_eq_none_iff]
        cases found : find [marks.close] (rest.drop position) with
        | none => rfl
        | some behind =>
          obtain ⟨-, ⟨tail, there⟩, -⟩ := find_eq_some_iff.mp found
          refine absurd (marks.hasReference_of_opening occurs ?_) complete
          refine List.mem_of_mem_drop (i := behind) ?_
          rw [← there]
          exact List.mem_cons_self
      simp only [Option.map_some]
      rw [closes]

theorem variablePresent_of_reference (front : Text) (r : Reference marks) (rest : Text) :
    variablePresent (front ++ (r.literal ++ (marks.opening ++ (r.name ++ marks.close :: rest)))) front.length =
      some (front.length + r.literal.length, front.length + r.literal.length + (2 + r.name.length)) := by
  have opens : findFrom marks.opening
      (front ++ (r.literal ++ (marks.opening ++ (r.name ++ marks.close :: rest)))) front.length =
      some (front.length + r.literal.length) := by
    rw [findFrom_append, Marks.find_opening r.plain, Option.map_some]
  have closes : findFrom [marks.close]
      (front ++ (r.literal ++ (marks.opening ++ (r.name ++ marks.close :: rest))))
      (front.length + r.literal.length) =
      some (front.length + r.literal.length + (2 + r.name.length)) := by
    rw [← List.append_assoc, ← List.length_append, findFrom_append, Marks.find_close r.closed,
      Option.map_some]
  have reaches : ¬ sizeMinusOne (front ++ (r.literal ++ (marks.opening ++ (r.name ++ marks.close :: rest)))) ≤
      front.length := by
    have two : marks.opening.length = 2 := rfl
    rw [sizeMinusOne]
    split
    · simp_all
    · simp only [List.length_append, List.length_cons, two]
      omega
  rw [variablePresent, if_neg reaches, opens]
  simp only
  rw [closes]
  simp only
  rw [if_neg (by omega)]

/-- **Behind what has been read, the loop reads the rest of the text from the left.** -/
theorem splitLoop_text (manager : VariableManager) {source : Text} (front : Text) (t : Template marks)
    (whole : source = front ++ t.text) {turns : Nat} (enough : t.references.length < turns)
    (result : StringWithVariablesInBetween) :
    splitLoop source manager turns front.length result =
      some ((resolve source manager t.names).map fun ids =>
        ⟨result.stringSegments ++ t.segments, result.variableIdsInBetween ++ ids⟩) := by
  induction t using Template.induction generalizing front turns result with
  | rest last complete =>
    obtain ⟨turns, rfl⟩ := Nat.exists_eq_add_of_lt enough
    have whole : source = front ++ last := whole
    rw [splitLoop, whole, variablePresent_of_rest front complete, List.drop_left]
    simp [resolve, Template.names, Template.segments, Except.map]
  | cons r t ih =>
    cases turns with
    | zero => cases enough
    | succ turns =>
      rw [Template.text_cons] at whole
      have found := variablePresent_of_reference front r t.text
      rw [← whole] at found
      have segment : substr source front.length (front.length + r.literal.length - front.length) =
          r.literal := by
        rw [whole]
        exact substr_append front r.literal _ rfl (by omega)
      have name : substr source (front.length + r.literal.length + 2)
          (front.length + r.literal.length + (2 + r.name.length) -
            (front.length + r.literal.length + 2)) = r.name := by
        have cut : source = (front ++ (r.literal ++ marks.opening)) ++ (r.name ++ marks.close :: t.text) := by
          rw [whole]
          simp
        rw [cut]
        refine substr_append _ r.name _ ?_ (by omega)
        simp only [List.length_append, Nat.add_assoc]
        rfl
      have next : source = (front ++ (r.literal ++ (marks.opening ++ (r.name ++ [marks.close])))) ++ t.text := by
        rw [whole]
        simp
      have read : front.length + r.literal.length + (2 + r.name.length) + 1 =
          (front ++ (r.literal ++ (marks.opening ++ (r.name ++ [marks.close])))).length := by
        have two : marks.opening.length = 2 := rfl
        simp only [List.length_append, List.length_singleton, two]
        omega
      rw [splitLoop, found]
      simp only
      rw [segment, name, read]
      simp only [Template.names, Template.cons, List.map_cons, resolve]
      cases manager.getGenVarId r.name with
      | none => rfl
      | some id =>
        simp only
        rw [ih _ next (Nat.lt_of_succ_lt_succ enough)]
        simp only [Template.names, Template.segments]
        cases resolve source manager (t.references.map Reference.name) <;>
          simp [Except.map]

theorem splitStringAndVar_text (manager : VariableManager) (t : Template marks) {turns : Nat}
    (enough : t.text.length < turns) :
    splitStringAndVar t.text manager turns =
      some ((resolve t.text manager t.names).map fun ids => ⟨t.segments, ids⟩) :=
  splitLoop_text manager [] t rfl (t.length_references_le.trans_lt enough) {}

theorem resolve_of_defined (source : Text) (defined : ∀ name ∈ names, (manager.getGenVarId name).isSome) :
    ∃ ids, resolve source manager names = .ok ids ∧
      List.Forall₂ (fun name id => manager.getGenVarId name = some id) names ids := by
  induction names with
  | nil => exact ⟨[], rfl, .nil⟩
  | cons name names ih =>
    obtain ⟨id, known⟩ := Option.isSome_iff_exists.mp (defined name List.mem_cons_self)
    obtain ⟨ids, resolved, all⟩ := ih fun other listed => defined other (List.mem_cons_of_mem _ listed)
    refine ⟨id :: ids, ?_, .cons known all⟩
    rw [resolve, known, resolved]
    rfl

/-! ## Assembling -/

/-- What `assemble_string` reads of `Scenario_Data_Per_User`. -/
structure ScenarioDataPerUser where
  variableIndexToValue : List Text
  userIds : List Nat
  sized : variableIndexToValue.length = userIds.length

section Assemble

variable (scenario : Scenario) (data : ScenarioDataPerUser) (reqIndex : Nat)

/-- The value that is appended for a variable; `none` where there is none to append. -/
def valueOf (varId : Nat) : Option Text :=
  if varId < scenario.numberOfVariablesFromValuePickers then data.variableIndexToValue[varId]?
  else (data.userIds[varId]?).bind fun userId => scenario.variableManager.produceValue varId reqIndex userId

/-- What is added to the size for a variable. -/
def sizeOfValue (varId : Nat) : Option Nat :=
  if varId < scenario.numberOfVariablesFromValuePickers then (data.variableIndexToValue[varId]?).map List.length
  else (data.userIds[varId]?).bind fun userId => scenario.variableManager.estimateValueSize varId reqIndex userId

/-- What an `int` holds that a number is assigned to. -/
def asInt (n : Int) : Int := n.bmod 4294967296

/-- `string_size`: `std::accumulate` starts with the `int` 0. -/
def stringSize (source : StringWithVariablesInBetween) : Option Int :=
  source.variableIdsInBetween.foldlM
    (fun size varId => (sizeOfValue scenario data reqIndex varId).map fun more : Nat => asInt (size + more))
    (source.stringSegments.foldl (fun size segment => asInt (size + segment.length)) 0)

def assembleLoop (segments : List Text) : List Nat → Nat → Text → Option Text
  | [], _, result => some result
  | varId :: varIds, index, result =>
    (segments[index]?).bind fun segment =>
      (valueOf scenario data reqIndex varId).bind fun value =>
        assembleLoop segments varIds (index + 1) (result ++ segment ++ value)

def assembleString (source : StringWithVariablesInBetween) : Option Text :=
  (stringSize scenario data reqIndex source).bind fun size =>
    -- `reserve` throws.
    if size < 0 then none
    else
      (assembleLoop scenario data reqIndex source.stringSegments source.variableIdsInBetween 0 []).bind
        fun result => (source.stringSegments.getLast?).map (result ++ ·)

def currentValue (name : Text) : Option Text :=
  (scenario.variableManager.getGenVarId name).bind (valueOf scenario data reqIndex)

end Assemble

/-! ## What is stated -/

/-- Segments with something between them. -/
def interleave : List Text → List Text → Text
  | [], _ => []
  | segment :: segments, [] => segment ++ interleave segments []
  | segment :: segments, between :: rest => segment ++ (between ++ interleave segments rest)

def Defined (manager : VariableManager) (source : Text) : Prop :=
  ∀ t : Template marks, t.text = source → ∀ name ∈ t.names, (manager.getGenVarId name).isSome

structure Splits (manager : VariableManager) (source : Text) (result : StringWithVariablesInBetween) : Prop where
  one_more : result.stringSegments.length = result.variableIdsInBetween.length + 1
  interleaved :
    interleave result.stringSegments
      (result.variableIdsInBetween.map fun id => marks.reference (manager.getVarName id)) = source
  literal : ∀ segment ∈ result.stringSegments.dropLast, ¬ marks.HasReference segment

/-- Whether an `int` that a size is assigned to is not negative. -/
def reservable (size : Nat) : Bool := decide (size % 4294967296 < 2147483648)

/-- What is assembled is the source, read from the left, with the current values in it, if room for it can
be reserved; where a value is missing, nothing is. -/
structure Assembles (scenario : Scenario) (data : ScenarioDataPerUser) (reqIndex : Nat) (t : Template marks)
    (result : StringWithVariablesInBetween) : Prop where
  replaced : ∀ value : Text → Text,
    (∀ name ∈ t.names, currentValue scenario data reqIndex name = some (value name)) →
      assembleString scenario data reqIndex result =
        if reservable (t.fill value).length then some (t.fill value) else none
  missing : ∀ name ∈ t.names, currentValue scenario data reqIndex name = none →
    assembleString scenario data reqIndex result = none

theorem interleave_map {m : Marks Char} (references : List (Reference m)) (rest : Text) (value : Text → Text) :
    interleave (references.map Reference.literal ++ [rest]) (references.map fun r => value r.name) =
      (references.flatMap fun r => r.literal ++ value r.name) ++ rest := by
  induction references with
  | nil => simp [interleave]
  | cons r references ih =>
    simp only [List.map_cons, List.cons_append, interleave, List.flatMap_cons, List.append_assoc]
    rw [ih]

theorem map_getVarName (all : List.Forall₂ (fun name id => manager.getGenVarId name = some id) names ids) :
    ids.map manager.getVarName = names := by
  induction all with
  | nil => rfl
  | cons known _ ih => rw [List.map_cons, ih, VariableManager.getVarName_of_getGenVarId known]

theorem splits_template {t : Template marks}
    (all : List.Forall₂ (fun name id => manager.getGenVarId name = some id) t.names ids) :
    Splits manager t.text ⟨t.segments, ids⟩ where
  one_more := by
    have lengths := all.length_eq
    rw [Template.names, List.length_map] at lengths
    simp [Template.segments, lengths]
  interleaved := by
    have names : (ids.map fun id => marks.reference (manager.getVarName id)) =
        t.references.map fun r => marks.reference r.name := by
      have both := congrArg (List.map marks.reference) (map_getVarName all)
      rw [Template.names, List.map_map, List.map_map] at both
      exact both
    simp only
    rw [names]
    exact interleave_map t.references t.rest marks.reference
  literal segment listed := by
    rw [Template.segments, List.dropLast_concat] at listed
    obtain ⟨r, -, rfl⟩ := List.mem_map.mp listed
    exact marks.not_hasReference_of_plain r.plain

theorem asInt_asInt_add (m n : Int) : asInt (asInt m + n) = asInt (m + n) := by simp [asInt]

theorem asInt_neg_iff (n : Nat) : asInt n < 0 ↔ reservable n = false := by
  rw [asInt, Int.bmod, reservable, decide_eq_false_iff_not]
  split <;> omega

theorem foldl_asInt (segments : List Text) (n : Int) :
    segments.foldl (fun size segment => asInt (size + segment.length)) (asInt n) =
      asInt (n + (segments.map List.length).sum) := by
  induction segments generalizing n with
  | nil => simp
  | cons segment segments ih =>
    rw [List.foldl_cons, asInt_asInt_add, ih, List.map_cons, List.sum_cons, Nat.cast_add, add_assoc]

theorem sizeOfValue_of_valueOf {data : ScenarioDataPerUser} {reqIndex varId : Nat} {value : Text}
    (current : valueOf scenario data reqIndex varId = some value) :
    sizeOfValue scenario data reqIndex varId = some value.length := by
  unfold valueOf at current
  unfold sizeOfValue
  split_ifs at current ⊢
  · rw [current]
    rfl
  · obtain ⟨userId, user, produced⟩ := Option.bind_eq_some_iff.mp current
    obtain ⟨var, there, produced⟩ := Option.bind_eq_some_iff.mp produced
    rw [user, Option.bind_some, VariableManager.estimateValueSize, there, Option.map_some,
      ValueVariable.estimateValueSize_of_produceValue produced]

theorem foldlM_asInt {data : ScenarioDataPerUser} {reqIndex : Nat} {value : Text → Text}
    (all : List.Forall₂ (fun name id => scenario.variableManager.getGenVarId name = some id) names ids)
    (values : ∀ name ∈ names, currentValue scenario data reqIndex name = some (value name)) (n : Int) :
    ids.foldlM (fun size id => (sizeOfValue scenario data reqIndex id).map fun more : Nat => asInt (size + more))
      (asInt n) = some (asInt (n + (names.map fun name => (value name).length).sum)) := by
  induction all generalizing n with
  | nil => simp
  | cons known _ ih =>
    have current := values _ List.mem_cons_self
    rw [currentValue, known, Option.bind_some] at current
    rw [List.foldlM_cons, sizeOfValue_of_valueOf current]
    simp only [Option.map_some, Option.bind_eq_bind, Option.bind_some, asInt_asInt_add]
    rw [ih fun other listed => values other (List.mem_cons_of_mem _ listed), List.map_cons, List.sum_cons,
      Nat.cast_add, add_assoc]

theorem length_fill (t : Template marks) (value : Text → Text) : (t.fill value).length =
      (t.segments.map List.length).sum + (t.names.map fun name => (value name).length).sum := by
  induction t using Template.induction with
  | rest last complete => simp [Template.fill, Template.segments, Template.names]
  | cons r t ih =>
    rw [Template.fill_cons, List.length_append, List.length_append, ih]
    simp only [Template.segments, Template.names, Template.cons, List.map_cons, List.cons_append, List.sum_cons]
    omega

theorem stringSize_template {t : Template marks} {data : ScenarioDataPerUser} {reqIndex : Nat} {value : Text → Text}
    (all : List.Forall₂ (fun name id => scenario.variableManager.getGenVarId name = some id) t.names ids)
    (values : ∀ name ∈ t.names, currentValue scenario data reqIndex name = some (value name)) :
    stringSize scenario data reqIndex ⟨t.segments, ids⟩ = some (asInt (t.fill value).length) := by
  have segments := foldl_asInt t.segments 0
  have zero : asInt 0 = 0 := rfl
  rw [zero, zero_add] at segments
  rw [stringSize, segments, foldlM_asInt all values, length_fill, Nat.cast_add]

theorem assembleLoop_eq {data : ScenarioDataPerUser} {reqIndex : Nat} {value : Text → Text}
    {references : List (Reference marks)}
    (all : List.Forall₂ (fun name id => scenario.variableManager.getGenVarId name = some id)
      (references.map Reference.name) ids)
    (values : ∀ r ∈ references, currentValue scenario data reqIndex r.name = some (value r.name))
    (before after : List Text) (result : Text) :
    assembleLoop scenario data reqIndex (before ++ (references.map Reference.literal ++ after)) ids
        before.length result =
      some (result ++ references.flatMap fun r => r.literal ++ value r.name) := by
  induction references generalizing ids before result with
  | nil =>
    cases all
    simp [assembleLoop]
  | cons r references ih =>
    rw [List.map_cons] at all
    cases all with
    | cons known all =>
      rename_i id ids
      have here : valueOf scenario data reqIndex id = some (value r.name) := by
        have current := values r List.mem_cons_self
        rw [currentValue, known, Option.bind_some] at current
        exact current
      have segment : (before ++ ((r :: references).map Reference.literal ++ after))[before.length]? =
          some r.literal := by
        simp
      have moved : before ++ ((r :: references).map Reference.literal ++ after) =
          (before ++ [r.literal]) ++ (references.map Reference.literal ++ after) := by
        simp
      have step : before.length + 1 = (before ++ [r.literal]).length := by simp
      rw [assembleLoop, segment, here, Option.bind_some, Option.bind_some, moved, step,
        ih all (fun other listed => values other (List.mem_cons_of_mem _ listed))]
      simp

theorem assembleLoop_of_missing {data : ScenarioDataPerUser} {reqIndex : Nat}
    (all : List.Forall₂ (fun name id => scenario.variableManager.getGenVarId name = some id) names ids)
    (listed : name ∈ names) (missing : currentValue scenario data reqIndex name = none)
    (segments : List Text) (index : Nat) (result : Text) :
    assembleLoop scenario data reqIndex segments ids index result = none := by
  induction all generalizing index result with
  | nil => cases listed
  | cons known _ ih =>
    rw [assembleLoop, Option.bind_eq_none_iff]
    intro segment _
    rw [Option.bind_eq_none_iff]
    intro value produced
    rcases List.mem_cons.mp listed with rfl | later
    · rw [currentValue, known, Option.bind_some, produced] at missing
      cases missing
    · exact ih later ..

theorem assembles_template {t : Template marks}
    (all : List.Forall₂ (fun name id => scenario.variableManager.getGenVarId name = some id) t.names ids)
    (data : ScenarioDataPerUser) (reqIndex : Nat) :
    Assembles scenario data reqIndex t ⟨t.segments, ids⟩ where
  replaced value values := by
    have loop : assembleLoop scenario data reqIndex t.segments ids 0 [] =
        some (t.references.flatMap fun r => r.literal ++ value r.name) :=
      assembleLoop_eq all (fun r listed => values r.name (List.mem_map.mpr ⟨r, listed, rfl⟩)) [] [t.rest] []
    have last : t.segments.getLast? = some t.rest := List.getLast?_concat
    rw [assembleString, stringSize_template all values, Option.bind_some]
    by_cases fits : reservable (t.fill value).length = true
    · have room : ¬ asInt (t.fill value).length < 0 := by simp [asInt_neg_iff, fits]
      rw [if_neg room, if_pos fits, loop, Option.bind_some, last]
      rfl
    · rw [if_pos ((asInt_neg_iff _).mpr (by simpa using fits)), if_neg fits]
  missing name listed absent := by
    rw [assembleString, Option.bind_eq_none_iff]
    intro size _
    rw [assembleLoop_of_missing all listed absent, Option.bind_none, ite_self]

/-- **A text whose names are defined is split into its pieces in as many turns as it has characters, and
one, and put together again with the current values, if room for them can be reserved.** -/
theorem splits_and_assembles (scenario : Scenario) (source : Text)
    (defined : Defined scenario.variableManager source) :
    ∃ result : StringWithVariablesInBetween, (∀ turns, source.length < turns →
        splitStringAndVar source scenario.variableManager turns = some (.ok result)) ∧
      Splits scenario.variableManager source result ∧
      ∃ t : Template marks, t.text = source ∧ ∀ data reqIndex, Assembles scenario data reqIndex t result := by
  obtain ⟨t, rfl⟩ := Template.exists_text marks source
  obtain ⟨ids, resolved, all⟩ := resolve_of_defined t.text (defined t rfl)
  refine ⟨⟨t.segments, ids⟩, fun turns enough => ?_, splits_template all, t, rfl, assembles_template all⟩
  rw [splitStringAndVar_text _ t enough, resolved]
  rfl

/-! ## The current values -/

theorem length_decimal_le {m n : Nat} (below : m ≤ n) : (decimal m).length ≤ (decimal n).length := by
  have some : 0 < (decimal n).length := List.length_pos_iff.mpr Nat.toDigits_ne_nil
  refine (Nat.length_toDigits_le_iff (by decide) some).mpr (below.trans_lt ?_)
  exact (Nat.length_toDigits_le_iff (by decide) some).mp (Nat.le_refl _)

theorem toNat_of_isDigit {c : Char} (digit : c.isDigit = true) : 48 ≤ c.toNat ∧ c.toNat ≤ 57 := by
  simpa [Char.isDigit, UInt32.le_iff_toNat_le] using digit

/-- Digits do not make up for a smaller beginning. -/
theorem ofDigitChars_lt {s t : Text} (digits : ∀ c ∈ s, c.isDigit = true) (same : s.length = t.length)
    {a b : Nat} (less : a < b) : Nat.ofDigitChars 10 s a < Nat.ofDigitChars 10 t b := by
  induction s generalizing t a b with
  | nil => simpa [List.length_eq_zero_iff.mp same.symm] using less
  | cons c s ih =>
    obtain ⟨d, t, rfl⟩ := List.exists_cons_of_length_eq_add_one same.symm
    obtain ⟨digit, digits⟩ := List.forall_mem_cons.mp digits
    have bounds := toNat_of_isDigit digit
    have zero : '0'.toNat = 48 := rfl
    rw [Nat.ofDigitChars_cons, Nat.ofDigitChars_cons]
    exact ih digits (Nat.succ_inj.mp same) (by omega)

theorem ofDigitChars_lt_of_lt {s t : Text} (digits : ∀ c ∈ s, c.isDigit = true) (same : s.length = t.length)
    (less : s < t) (a : Nat) : Nat.ofDigitChars 10 s a < Nat.ofDigitChars 10 t a := by
  induction s generalizing t a with
  | nil => simp [List.length_eq_zero_iff.mp same.symm] at less
  | cons c s ih =>
    obtain ⟨d, t, rfl⟩ := List.exists_cons_of_length_eq_add_one same.symm
    obtain ⟨digit, digits⟩ := List.forall_mem_cons.mp digits
    rw [Nat.ofDigitChars_cons, Nat.ofDigitChars_cons]
    rcases List.cons_lt_cons_iff.mp less with head | ⟨rfl, tail⟩
    · have bounds := toNat_of_isDigit digit
      have zero : '0'.toNat = 48 := rfl
      have less : c.toNat < d.toNat := head
      exact ofDigitChars_lt digits (Nat.succ_inj.mp same) (by omega)
    · exact ih digits (Nat.succ_inj.mp same) tail _

def padded (length n : Nat) : Text := List.replicate (length - (decimal n).length) '0' ++ decimal n

theorem value_padded (length n : Nat) : Nat.ofDigitChars 10 (padded length n) 0 = n := by
  simp [padded, Nat.ofDigitChars_append, decimal]

theorem isDigit_of_mem_padded {length n : Nat} : ∀ c ∈ padded length n, c.isDigit = true := by
  intro c member
  rcases List.mem_append.mp member with zero | digit
  · rw [List.eq_of_mem_replicate zero]
    rfl
  · exact Nat.isDigit_of_mem_toDigits (by decide) (by decide) digit

theorem padded_lt_iff {length m n : Nat} (same : (padded length m).length = (padded length n).length) :
    padded length m < padded length n ↔ m < n := by
  have ordered {m n : Nat} (same : (padded length m).length = (padded length n).length)
      (less : padded length m < padded length n) : m < n := by
    have values := ofDigitChars_lt_of_lt isDigit_of_mem_padded same less 0
    rwa [value_padded, value_padded] at values
  refine ⟨ordered same, fun less => ?_⟩
  rcases lt_trichotomy (padded length m) (padded length n) with below | equal | above
  · exact below
  · have values := congrArg (Nat.ofDigitChars 10 · 0) equal
    simp only [value_padded] at values
    omega
  · have := ordered same.symm above
    omega

/-- **The values of a range are as long as the number of its end**, as estimated, and ordered like the
cursors. -/
theorem produceValue_ordered (var : ValueVariable) (unlisted : var.varValueList = [])
    (proper : var.rangeStart < var.rangeEnd) (col m n : Nat) (inside : m ≤ var.rangeEnd)
    (within : n ≤ var.rangeEnd) : ∃ s t, var.produceValue col m = some s ∧ var.produceValue col n = some t ∧
      s.length = (decimal var.rangeEnd).length ∧ var.estimateValueSize col m = s.length ∧
      (s < t ↔ m < n) ∧ (s = t → m = n) := by
  have fits {n : Nat} (within : n ≤ var.rangeEnd) : (decimal n).length ≤ var.fullRangeLen :=
    (length_decimal_le within).trans_eq (var.measured unlisted).symm
  have value {n : Nat} (within : n ≤ var.rangeEnd) :
      var.produceValue col n = some (padded var.fullRangeLen n) := by
    simp [ValueVariable.produceValue, unlisted, proper, (fits within).not_gt, padded]
  have length {n : Nat} (within : n ≤ var.rangeEnd) : (padded var.fullRangeLen n).length = var.fullRangeLen := by
    simp [padded, fits within]
  refine ⟨_, _, value inside, value within, (length inside).trans (var.measured unlisted), ?_, ?_, fun same => ?_⟩
  · simp [ValueVariable.estimateValueSize, unlisted, proper, length inside]
  · exact padded_lt_iff ((length inside).trans (length within).symm)
  · rw [← value_padded var.fullRangeLen m, same, value_padded]

theorem hundred_sized : 0 < sizeMax ∧ 100 < sizeMax := by decide

def userVariable : ValueVariable where
  name := "user"
  rangeStart := 0
  rangeEnd := 100
  sized := hundred_sized
  ordered := .inr (by decide)
  varValueList := []
  fullRangeLen := 3
  measured _ := rfl

/-- **Satisfiable pole:** users 7 and 42 of a hundred. -/
theorem userVariable_ordered :
    ∃ s t, userVariable.produceValue 0 7 = some s ∧ userVariable.produceValue 0 42 = some t ∧ s < t := by
  obtain ⟨s, t, first, second, -, -, order, -⟩ :=
    produceValue_ordered userVariable rfl (by decide) 0 7 42 (by decide) (by decide)
  exact ⟨s, t, first, second, order.mpr (by decide)⟩

def orderVariables : Scenario := processVariables ["token".toList] [userVariable]

def orderPath : Template marks where
  references :=
    [⟨"/u/".toList, "user".toList, by decide, by decide⟩,
      ⟨"?t=".toList, "token".toList, by decide, by decide⟩]
  rest := "&q=$\x7b".toList
  complete := marks.not_hasReference_of_notMem (by decide)

theorem orderPath_defined : Defined orderVariables.variableManager orderPath.text := by
  intro t same name listed
  rw [Template.text_injective same] at listed
  rcases List.mem_cons.mp listed with rfl | listed
  · rfl
  · rw [List.mem_singleton.mp listed]
    rfl

/-- **Satisfiable pole:** the number of the user is padded to the width of the range, and what is not
closed stays as it is. -/
theorem orderPath_assembled :
    ∃ result, splitStringAndVar orderPath.text orderVariables.variableManager 40 = some (.ok result) ∧
      assembleString orderVariables ⟨["abc".toList, []], [0, 7], rfl⟩ 0 result =
        some "/u/007?t=abc&q=$\x7b".toList := by
  obtain ⟨result, split, -, t, read, assembles⟩ :=
    splits_and_assembles orderVariables orderPath.text orderPath_defined
  cases Template.text_injective read
  refine ⟨result, split 40 (by decide), ?_⟩
  refine ((assembles _ _).replaced (fun name => if name = "user".toList then "007".toList else "abc".toList) ?_).trans
    (if_pos (by decide))
  intro name listed
  rcases List.mem_cons.mp listed with rfl | listed
  · rfl
  · rw [List.mem_singleton.mp listed]
    rfl

/-- A text without variables that is too long for the `int`. -/
theorem longText_lost (scenario : Scenario) {source : Text} (plain : ¬ marks.opening <:+: source)
    (long : reservable source.length = false) :
    ∃ result, (∀ turns, source.length < turns →
        splitStringAndVar source scenario.variableManager turns = some (.ok result)) ∧
      ∀ data reqIndex, assembleString scenario data reqIndex result = none := by
  let t : Template marks := ⟨[], source, marks.not_hasReference_of_plain plain⟩
  refine ⟨⟨t.segments, []⟩, fun turns enough => splitStringAndVar_text _ t enough, fun data reqIndex => ?_⟩
  refine ((assembles_template .nil data reqIndex).replaced id fun _ listed => absurd listed List.not_mem_nil).trans (if_neg ?_)
  exact fun fits => Bool.false_ne_true (long.symm.trans fits)

def manyLetters (n : Nat) : Text := List.replicate n 'a'

theorem manyLetters_plain (n : Nat) : ¬ marks.opening <:+: manyLetters n := by
  intro opens
  have member : '$' ∈ manyLetters n := opens.subset List.mem_cons_self
  exact absurd (List.eq_of_mem_replicate member) (by decide)

theorem manyLetters_long : reservable (manyLetters 2147483648).length = false := by
  rw [manyLetters, List.length_replicate]
  decide

/-- **Refuting pole:** two GiB of letters. -/
theorem twoGibibytes_lost :
    Defined orderVariables.variableManager (manyLetters 2147483648) ∧ ∃ result, (∀ turns,
        (manyLetters 2147483648).length < turns →
          splitStringAndVar (manyLetters 2147483648) orderVariables.variableManager turns = some (.ok result)) ∧
      ∀ data reqIndex, assembleString orderVariables data reqIndex result = none := by
  refine ⟨fun t same name listed => ?_, longText_lost orderVariables (manyLetters_plain _) manyLetters_long⟩
  let u : Template marks := ⟨[], manyLetters 2147483648, marks.not_hasReference_of_plain (manyLetters_plain _)⟩
  have read : t.text = u.text := same
  rw [Template.text_injective read] at listed
  cases listed

end H2LoadRunner.Load.VariableText
