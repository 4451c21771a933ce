/-
# Load.VariableFiles -- where the variables of a scenario come from

`process_variables` makes the variables of a scenario from ranges, from a table with a row for each user
(`read_csv_file`) and from a table with a column for each variable
(`load_generic_variables_from_csv_file`).  A scenario of the old style has one variable, whose name stands
in the texts as it is; `transform_old_style_variable` makes a reference of every occurrence.

* `normalise_row_iff`: a row is padded or cut to the number of the names exactly when they differ by one
  at most, since the loops look at the size that they change.
-/
import H2LoadRunner.Load.VariableText

namespace H2LoadRunner.Load.VariableText

open Library Library.Strings
open Cookies (Text)

set_option autoImplicit false

/-! ## Files -/

/-- What a loop of `std::getline` reads: nothing behind the last delimiter is no line. -/
def getlines (delimiter : Char) (text : Text) : List Text :=
  let pieces := tokenize [delimiter] text
  if pieces.getLast? = some [] then pieces.dropLast else pieces

def cells (line : Text) : List Text := getlines ',' line

def withoutReturn (line : Text) : Text := if line.getLast? = some '\r' then line.dropLast else line

def readCsvFile (file : Text) : List (List Text) :=
  ((getlines '\n' file).drop 1).map fun line => cells (withoutReturn line)

def utf8Bom : Text := [Char.ofNat 0xEF, Char.ofNat 0xBB, Char.ofNat 0xBF]

def trim (cell : Text) : Text := ((cell.dropWhile isSpace).reverse.dropWhile isSpace).reverse

def variableNames (file : Text) : List Text :=
  let line := (getlines '\n' file).headD []
  (cells (if utf8Bom <+: line then line.drop utf8Bom.length else line)).map trim

/-! ## A column for each variable -/

/-- The loop that appends cells while `i` is below the difference. -/
def padRow (n i : Nat) (row : List Text) : List Text :=
  if i < n - row.length then padRow n (i + 1) (row ++ [[]]) else row
  termination_by n - row.length - i
  decreasing_by
    rw [List.length_append, List.length_singleton]
    omega

def cutRow (n i : Nat) (row : List Text) : List Text :=
  if i < row.length - n then cutRow n (i + 1) row.dropLast else row
  termination_by row.length - n - i
  decreasing_by
    rw [List.length_dropLast]
    omega

def normaliseRow (n : Nat) (row : List Text) : List Text :=
  if row.length < n then padRow n 0 row else cutRow n 0 row

/-- Each turn also makes the difference smaller, so that half of the cells are appended. -/
theorem padRow_eq (n i : Nat) (row : List Text) :
    padRow n i row = row ++ List.replicate ((n - row.length - i + 1) / 2) [] := by
  fun_induction padRow n i row with
  | case1 i row more ih =>
    have count : (n - row.length - i + 1) / 2 = (n - (row ++ [[]]).length - (i + 1) + 1) / 2 + 1 := by
      rw [List.length_append, List.length_singleton]
      omega
    rw [ih, count, List.replicate_succ, List.append_assoc]
    rfl
  | case2 i row enough =>
    have none : (n - row.length - i + 1) / 2 = 0 := by omega
    rw [none, List.replicate_zero, List.append_nil]

theorem cutRow_eq (n i : Nat) (row : List Text) :
    cutRow n i row = row.take (row.length - (row.length - n - i + 1) / 2) := by
  fun_induction cutRow n i row with
  | case1 i row more ih =>
    rw [ih, List.length_dropLast, List.dropLast_eq_take, List.take_take]
    congr 1
    omega
  | case2 i row enough =>
    have none : (row.length - n - i + 1) / 2 = 0 := by omega
    rw [none, Nat.sub_zero, List.take_length]

theorem length_normaliseRow (n : Nat) (row : List Text) :
    (normaliseRow n row).length = if row.length < n then row.length + (n - row.length + 1) / 2
      else row.length - (row.length - n + 1) / 2 := by
  rw [normaliseRow]
  split
  · rw [padRow_eq, List.length_append, List.length_replicate, Nat.sub_zero]
  · rw [cutRow_eq, List.length_take, Nat.sub_zero]
    omega

theorem take_normaliseRow (n : Nat) (row : List Text) :
    (normaliseRow n row).take (min n row.length) = row.take (min n row.length) := by
  rw [normaliseRow]
  split
  · rw [padRow_eq, List.take_append_of_le_length (Nat.min_le_right ..)]
  · rw [cutRow_eq, List.take_take]
    congr 1
    omega

/-- The size of the longest of the lists, `max_element(..)->size()`. -/
def longest : List (List Text) → Nat
  | [] => 0
  | list :: lists => max list.length (longest lists)

theorem length_le_longest {list : List Text} {lists : List (List Text)} (listed : list ∈ lists) :
    list.length ≤ longest lists := by
  induction lists with
  | nil => cases listed
  | cons first lists ih =>
    rw [longest]
    rcases List.mem_cons.mp listed with rfl | later
    · exact Nat.le_max_left ..
    · exact (ih later).trans (Nat.le_max_right ..)

/-- The constructor of `Generic_Variable` for lists of values, of which there is one. -/
def listVariable (name : Text) (valueList : List (List Text)) (nonempty : valueList ≠ []) : ValueVariable where
  name := String.ofList name
  rangeStart := 0
  rangeEnd := longest valueList % sizeMax
  sized := ⟨by decide, Nat.mod_lt _ (by decide)⟩
  ordered := Nat.eq_zero_or_pos _
  varValueList := valueList
  fullRangeLen := 0
  measured empty := absurd empty nonempty

/-- `load_generic_variables_from_csv_file`; `none` where a row has no cell for a name. -/
def loadGenericVariablesFromCsvFile (file : Text) : Option (List ValueVariable) :=
  let names := variableNames file
  let rows := (readCsvFile file).map (normaliseRow names.length)
  names.zipIdx.mapM fun entry =>
    (rows.mapM (·[entry.2]?)).map fun column => listVariable entry.1 [column] (List.cons_ne_nil _ _)

section MapM

variable {α β : Type} {f : α → Option β}

theorem isSome_mapM {list : List α} : (list.mapM f).isSome ↔ ∀ a ∈ list, (f a).isSome := by
  induction list with
  | nil => simp
  | cons a list ih =>
    rw [List.mapM_cons, List.forall_mem_cons, ← ih]
    cases f a <;> cases list.mapM f <;> simp

theorem exists_of_mapM {list : List α} {images : List β} (all : list.mapM f = some images) {a : α}
    (listed : a ∈ list) : ∃ b ∈ images, f a = some b := by
  induction list generalizing images with
  | nil => cases listed
  | cons first list ih =>
    rw [List.mapM_cons] at all
    obtain ⟨b, here, all⟩ := Option.bind_eq_some_iff.mp all
    obtain ⟨others, later, same⟩ := Option.bind_eq_some_iff.mp all
    cases same
    rcases List.mem_cons.mp listed with rfl | behind
    · exact ⟨b, List.mem_cons_self, here⟩
    · obtain ⟨c, inside, image⟩ := ih later behind
      exact ⟨c, List.mem_cons_of_mem _ inside, image⟩

end MapM

/-- **A row gets as many cells as there are names exactly when it has one more or less at most, and what it
has of them stays in front; the cells that are read are there exactly when no row lacks two.** -/
theorem normalise_row_iff (file : Text) :
    let n := (variableNames file).length
    (∀ row, ((normaliseRow n row).length = n ↔ row.length ≤ n + 1 ∧ n ≤ row.length + 1) ∧
      (normaliseRow n row).take (min n row.length) = row.take (min n row.length)) ∧
    ((loadGenericVariablesFromCsvFile file).isSome ↔ ∀ row ∈ readCsvFile file, n ≤ row.length + 1) := by
  intro n
  refine ⟨fun row => ⟨?_, take_normaliseRow n row⟩, ?_⟩
  · rw [length_normaliseRow]
    split <;> omega
  · have within (row : List Text) : n ≤ row.length + 1 ↔ n ≤ (normaliseRow n row).length := by
      rw [length_normaliseRow]
      split <;> omega
    rw [loadGenericVariablesFromCsvFile, isSome_mapM]
    simp only [Option.isSome_map, isSome_mapM, List.forall_mem_map, isSome_getElem?, within]
    constructor
    · intro reads row listed
      rcases Nat.eq_zero_or_pos n with none | some
      · omega
      · have last : n - 1 < (normaliseRow n row).length :=
          reads ((variableNames file).get ⟨n - 1, by omega⟩, n - 1) (by simp [List.mem_zipIdx_iff_getElem?]) row listed
        omega
    · rintro long ⟨name, index⟩ listed row inside
      exact (List.snd_lt_of_mem_zipIdx listed).trans_le (long row inside)

/-- **Refuting pole:** with two names an empty line gets one cell, and the second is read. -/
theorem emptyLine_short :
    variableNames "a,b\n\n".toList = ["a".toList, "b".toList] ∧ readCsvFile "a,b\n\n".toList = [[]] ∧
    (normaliseRow 2 []).length = 1 ∧ loadGenericVariablesFromCsvFile "a,b\n\n".toList = none := by
  have read : readCsvFile "a,b\n\n".toList = [[]] := by decide
  have names : variableNames "a,b\n\n".toList = ["a".toList, "b".toList] := by decide
  refine ⟨names, read, length_normaliseRow 2 [], ?_⟩
  rw [loadGenericVariablesFromCsvFile, names, read]
  rw [List.map_singleton, normaliseRow, if_pos (by decide), padRow_eq]
  rfl

/-! ## A row for each user -/

def addRow (vals : List (List Text)) (row : List Text) : List (List Text) :=
  row.zipIdx.foldl (fun vals cell => vals.modify cell.2 (· ++ [cell.1])) vals

def twoDVals (rawData : List (List Text)) : List (List Text) :=
  rawData.foldl addRow (List.replicate (longest rawData) [])

/-- The variable of a table; `none` where there is no row, or no cell to take the longest column of. -/
def twoDimVariable (name : Text) (rawData : List (List Text)) : Option ValueVariable :=
  if nonempty : twoDVals rawData ≠ [] then some (listVariable name (twoDVals rawData) nonempty) else none

theorem getElem?_addRow (vals : List (List Text)) (row : List Text) (c : Nat) :
    (addRow vals row)[c]? = vals[c]?.map (· ++ row[c]?.toList) := by
  suffices all : ∀ first, ((row.zipIdx first).foldl (fun vals cell => vals.modify cell.2 (· ++ [cell.1])) vals)[c]? =
      vals[c]?.map (· ++ (if first ≤ c then row[c - first]? else none).toList) by
    simpa [addRow] using all 0
  intro first
  induction row generalizing first vals with
  | nil => simp
  | cons cell row ih =>
    rw [List.zipIdx_cons, List.foldl_cons, ih, List.getElem?_modify]
    cases vals[c]? with
    | none => rfl
    | some column =>
      rcases Nat.lt_trichotomy first c with before | rfl | behind
      · have next : c - first = c - (first + 1) + 1 := by omega
        simp [before.ne, before.le, Nat.succ_le_of_lt before, next]
      · simp
      · simp [behind.ne', Nat.not_le.mpr behind, Nat.not_le.mpr (Nat.lt_succ_of_lt behind)]

theorem getElem?_twoDVals {rawData : List (List Text)} {c : Nat} (reached : c < longest rawData) :
    (twoDVals rawData)[c]? = some (rawData.filterMap (·[c]?)) := by
  suffices all : ∀ (rows vals : List (List Text)),
      (rows.foldl addRow vals)[c]? = vals[c]?.map (· ++ rows.filterMap (·[c]?)) by
    rw [twoDVals, all, List.getElem?_replicate, if_pos reached]
    rfl
  intro rows
  induction rows with
  | nil => simp
  | cons row rows ih =>
    intro vals
    rw [List.foldl_cons, ih, getElem?_addRow, Option.map_map]
    congr 1
    funext column
    cases here : row[c]? <;> simp [here]

/-- The rows that reach a column, with their numbers. -/
def reaching (rows : List (List Text)) (c : Nat) : List (List Text × Nat) :=
  rows.zipIdx.filter fun entry => c < entry.1.length

/-- The row that a user's value is taken from: the column has one value for each row that reaches it. -/
def rowTaken (rows : List (List Text)) (c u : Nat) : Option Nat :=
  ((reaching rows c)[u % (reaching rows c).length]?).map Prod.snd

/-- The rows in front of the user's that do not reach the column. -/
def shortRows (rows : List (List Text)) (c u : Nat) : Nat :=
  ((rows.take u).filter fun row => row.length ≤ c).length

section Rows

variable {rows : List (List Text)} {row : List Text} {u c : Nat}

theorem column_eq (rows : List (List Text)) (c : Nat) :
    rows.filterMap (·[c]?) = (reaching rows c).map fun entry => entry.1.getD c [] := by
  suffices all : ∀ first, rows.filterMap (·[c]?) =
      ((rows.zipIdx first).filter fun entry => c < entry.1.length).map fun entry => entry.1.getD c [] from all 0
  induction rows with
  | nil => simp
  | cons row rows ih =>
    intro first
    rw [List.zipIdx_cons, List.filterMap_cons, List.filter_cons, ih (first + 1)]
    by_cases reached : c < row.length <;> simp [reached]

theorem length_reaching (rows : List (List Text)) (c : Nat) :
    (reaching rows c).length + (rows.filter fun row => row.length ≤ c).length = rows.length := by
  suffices all : ∀ first, ((rows.zipIdx first).filter fun entry => c < entry.1.length).length +
      (rows.filter fun row => row.length ≤ c).length = rows.length from all 0
  induction rows with
  | nil => simp
  | cons row rows ih =>
    intro first
    have later := ih (first + 1)
    rw [List.zipIdx_cons, List.filter_cons, List.filter_cons]
    by_cases reached : c < row.length
    · simp [reached, Nat.not_le.mpr reached]
      omega
    · simp [reached, Nat.le_of_not_lt reached]
      omega

/-- The user's own row stands behind the rows in front of it that reach the column. -/
theorem getElem?_reaching (user : rows[u]? = some row) (column : c < row.length) :
    (reaching rows c)[(reaching (rows.take u) c).length]? = some (row, u) := by
  obtain ⟨inside, here⟩ := List.getElem?_eq_some_iff.mp user
  have whole : rows = rows.take u ++ row :: rows.drop (u + 1) := by
    rw [← here, List.getElem_cons_drop, List.take_append_drop]
  have split : reaching rows c = reaching (rows.take u) c ++
      (row, u) :: ((rows.drop (u + 1)).zipIdx (u + 1)).filter fun entry => c < entry.1.length := by
    conv_lhs => rw [whole]
    rw [reaching, List.zipIdx_append, List.filter_append, List.zipIdx_cons, List.length_take,
      Nat.min_eq_left inside.le, List.filter_cons_of_pos (by simpa using column), Nat.zero_add]
    rfl
  rw [split, List.getElem?_append_right le_rfl, Nat.sub_self]
  rfl

theorem nodup_reaching (rows : List (List Text)) (c : Nat) : ((reaching rows c).map Prod.snd).Nodup := by
  refine List.Nodup.sublist (List.filter_sublist.map Prod.snd) ?_
  rw [List.zipIdx_map_snd]
  exact List.nodup_range'

theorem rowTaken_eq_iff (user : rows[u]? = some row) (column : c < row.length) :
    rowTaken rows c u = some u ↔ (reaching rows c).length ∣ shortRows rows c u := by
  have own := getElem?_reaching user column
  have place : ((reaching rows c).map Prod.snd)[(reaching (rows.take u) c).length]? = some u := by
    rw [List.getElem?_map, own]
    rfl
  have below := (List.getElem?_eq_some_iff.mp own).1
  have inside := (List.getElem?_eq_some_iff.mp user).1
  have count : (reaching (rows.take u) c).length + shortRows rows c u = u := by
    have counted := length_reaching (rows.take u) c
    rw [List.length_take, Nat.min_eq_left inside.le] at counted
    exact counted
  rw [rowTaken, ← List.getElem?_map, ← place]
  constructor
  · intro same
    have index := (List.getElem?_inj (by rw [List.length_map]; exact below) (nodup_reaching rows c)).mp same.symm
    have congruent : (reaching (rows.take u) c).length + shortRows rows c u ≡
        (reaching (rows.take u) c).length + 0 [MOD (reaching rows c).length] := by
      rw [count, Nat.add_zero, Nat.ModEq, ← index, Nat.mod_eq_of_lt below]
    exact Nat.modEq_zero_iff_dvd.mp (Nat.ModEq.add_left_cancel' _ congruent)
  · rintro ⟨times, short⟩
    have index : u % (reaching rows c).length = (reaching (rows.take u) c).length := by
      calc u % (reaching rows c).length
        _ = ((reaching (rows.take u) c).length + (reaching rows c).length * times) % (reaching rows c).length := by
          rw [← short, count]
        _ = (reaching (rows.take u) c).length := by
          rw [Nat.add_mul_mod_self_left, Nat.mod_eq_of_lt below]
    rw [index]

end Rows

/-- **The value of a user is the cell of a row that reaches the column, and the row is the user's exactly
if the number of rows that reach it divides that of the shorter rows in front of the user's.** -/
theorem produceValue_row_iff (name file : Text) {row : List Text} {u c : Nat}
    (user : (readCsvFile file)[u]? = some row) (column : c < row.length) :
    ∃ var taken cells, twoDimVariable name (readCsvFile file) = some var ∧
      rowTaken (readCsvFile file) c u = some taken ∧ (readCsvFile file)[taken]? = some cells ∧
      cells[c]?.isSome ∧ var.produceValue c u = cells[c]? ∧
      (taken = u ↔ (reaching (readCsvFile file) c).length ∣ shortRows (readCsvFile file) c u) := by
  generalize readCsvFile file = rows at user
  have reached : c < longest rows := column.trans_le (length_le_longest (List.mem_of_getElem? user))
  have found := getElem?_twoDVals reached
  have nonempty : twoDVals rows ≠ [] := List.ne_nil_of_mem (List.mem_of_getElem? found)
  have filled : 0 < (reaching rows c).length :=
    (Nat.zero_le _).trans_lt (List.getElem?_eq_some_iff.mp (getElem?_reaching user column)).1
  obtain ⟨entry, there⟩ : ∃ entry, (reaching rows c)[u % (reaching rows c).length]? = some entry :=
    ⟨_, List.getElem?_eq_getElem (Nat.mod_lt _ filled)⟩
  obtain ⟨listed, long⟩ := List.mem_filter.mp (List.mem_of_getElem? there)
  have taken : rowTaken rows c u = some entry.2 := by rw [rowTaken, there, Option.map_some]
  have long : c < entry.1.length := by simpa using long
  refine ⟨listVariable name (twoDVals rows) nonempty, entry.2, entry.1, dif_pos nonempty, taken,
    List.mem_zipIdx_iff_getElem?.mp listed, by simpa using long, ?_, ?_⟩
  · have small : c % (twoDVals rows).length = c := Nat.mod_eq_of_lt (List.getElem?_eq_some_iff.mp found).1
    have values : rows.filterMap (·[c]?) ≠ [] := by
      rw [column_eq, ne_eq, List.map_eq_nil_iff]
      exact List.ne_nil_of_length_pos filled
    rw [ValueVariable.produceValue, if_pos (by exact nonempty)]
    simp only [listVariable, small, List.getD_eq_getElem?_getD, found, Option.getD_some]
    rw [if_pos values, column_eq, List.length_map, List.getElem?_map, there]
    simp [long]
  · rw [← rowTaken_eq_iff user column, taken, Option.some.injEq]

def raggedFile : Text := "c1,c2\na\nb,c\nd,e\n".toList

/-- **Satisfiable pole:** the first column is full. -/
theorem raggedTable_full : ∃ var, twoDimVariable "id".toList (readCsvFile raggedFile) = some var ∧
      var.produceValue 0 1 = some "b".toList := by
  have user : (readCsvFile raggedFile)[1]? = some ["b".toList, "c".toList] := by decide
  obtain ⟨var, taken, row, made, -, there, -, value, own⟩ :=
    produceValue_row_iff "id".toList raggedFile user (c := 0) (by decide)
  obtain rfl := own.mpr (by decide)
  obtain rfl := Option.some.inj (user.symm.trans there)
  exact ⟨var, made, value⟩

/-- **Refuting pole:** in the second column the second user has the third user's cell. -/
theorem raggedTable_mixed : (readCsvFile raggedFile)[1]? = some ["b".toList, "c".toList] ∧
    rowTaken (readCsvFile raggedFile) 1 1 = some 2 ∧
    (twoDimVariable "id".toList (readCsvFile raggedFile)).bind (·.produceValue 1 1) = some "e".toList := by
  decide

/-! ## The configuration -/

structure RangeBasedVariable where
  variableName : Text
  variableRangeStart : Nat
  variableRangeEnd : Nat
  sized : variableRangeStart < sizeMax ∧ variableRangeEnd < sizeMax

/-- The constructor of `Generic_Variable` for a range; `none` where it ends the program. -/
def rangeVariable (r : RangeBasedVariable) : Option ValueVariable :=
  if ordered : r.variableRangeEnd = 0 ∨ r.variableRangeStart < r.variableRangeEnd then
    some
      { name := String.ofList r.variableName
        rangeStart := r.variableRangeStart
        rangeEnd := r.variableRangeEnd
        sized := r.sized
        ordered := ordered
        varValueList := []
        fullRangeLen := (decimal r.variableRangeEnd).length
        measured := fun _ => rfl }
  else none

structure TwoDimensioningVariable where
  variableName : Text
  idListFileName : Text

structure RequestSchema where
  /-- `uri.input` -/
  input : Text
  payload : Text

/-- What `process_variables` reads of a scenario. -/
structure ScenarioSchema where
  /-- The parameters of the variable of the old style; there is none where the name is empty. -/
  variableNameInPathAndData : Text := []
  variableRangeStart : Nat := 0
  variableRangeEnd : Nat := 0
  ranged : variableRangeStart < sizeMax ∧ variableRangeEnd < sizeMax := by decide
  userIdListFile : Text := []
  requests : List RequestSchema
  rangeBasedVariables : List RangeBasedVariable := []
  twoDimVariables : List TwoDimensioningVariable := []
  userVariablesInputFile : Text := []
  /-- The names that the value pickers of the requests save to. -/
  savedNames : List Text := []

section Configuration

variable (files : Text → Option Text)

/-- `load_file_content`: a text that names a file is its content. -/
def loadFileContent (source : Text) : Text := if source = [] then source else (files source).getD source

def transformVariable (varName target : Text) : Text :=
  let tokenizedTarget := tokenize varName target
  (tokenizedTarget.dropLast.flatMap fun token => token ++ marks.reference varName) ++ tokenizedTarget.getLastD []

def transformOldStyleVariable (scenario : ScenarioSchema) : ScenarioSchema :=
  let name := scenario.variableNameInPathAndData
  if name ≠ [] then
    { scenario with
      requests := scenario.requests.map fun request =>
        { input := transformVariable name request.input
          payload := transformVariable name (loadFileContent files request.payload) }
      twoDimVariables :=
        if scenario.userIdListFile ≠ [] then scenario.twoDimVariables ++ [⟨name, scenario.userIdListFile⟩]
        else scenario.twoDimVariables
      rangeBasedVariables :=
        if scenario.userIdListFile ≠ [] then scenario.rangeBasedVariables
        else scenario.rangeBasedVariables ++
          [⟨name, scenario.variableRangeStart, scenario.variableRangeEnd, scenario.ranged⟩]
      variableNameInPathAndData := []
      variableRangeStart := 0
      variableRangeEnd := 0
      ranged := zero_sized
      userIdListFile := [] }
  else scenario

/-- A file that cannot be opened is reported, and nothing else. -/
def columnVariables (userVariablesInputFile : Text) : Option (List ValueVariable) :=
  if userVariablesInputFile = [] then some []
  else ((files userVariablesInputFile).map loadGenericVariablesFromCsvFile).getD (some [])

/-- The variables that are defined, in the order they are inserted; `none` where the program ends. -/
def definedVariables (scenario : ScenarioSchema) : Option (List ValueVariable) := do
  let ranges ← scenario.rangeBasedVariables.mapM rangeVariable
  let tables ← scenario.twoDimVariables.mapM fun dv =>
    twoDimVariable dv.variableName (((files dv.idListFileName).map readCsvFile).getD [])
  let columns ← columnVariables files scenario.userVariablesInputFile
  return ranges ++ (tables ++ columns)

/-- The variables of a scenario, behind the migration. -/
def processScenario (scenario : ScenarioSchema) : Option Scenario :=
  (definedVariables files (transformOldStyleVariable files scenario)).map
    (processVariables scenario.savedNames)

end Configuration

/-! ## Migrated texts -/

def migrated {name : Text} (closed : marks.close ∉ name) (pieces : List Text)
    (plain : ∀ piece ∈ pieces, ¬ marks.opening <:+: piece) (rest : Text) (last : ¬ marks.opening <:+: rest) :
    Template marks where
  references := pieces.pmap (fun piece plain => ⟨piece, name, plain, closed⟩) plain
  rest := rest
  complete := marks.not_hasReference_of_plain last

theorem migrated_fill {name : Text} (closed : marks.close ∉ name) {pieces : List Text}
    (plain : ∀ piece ∈ pieces, ¬ marks.opening <:+: piece) {rest : Text} (last : ¬ marks.opening <:+: rest)
    (value : Text → Text) :
    (migrated closed pieces plain rest last).fill value =
      (pieces.flatMap fun piece => piece ++ value name) ++ rest := by
  refine congrArg (· ++ rest) ?_
  induction pieces with
  | nil => rfl
  | cons piece pieces ih =>
    rw [List.flatMap_cons, ← ih fun other listed => plain other (List.mem_cons_of_mem _ listed)]
    rfl

def Migrates (files : Text → Option Text) (scenario : ScenarioSchema) (source target : Text) : Prop :=
  ∃ (i : Nat) (request after : RequestSchema), scenario.requests[i]? = some request ∧
    (transformOldStyleVariable files scenario).requests[i]? = some after ∧
    (source = request.input ∧ target = after.input ∨
      source = loadFileContent files request.payload ∧ target = after.payload)

section Migration

variable {files : Text → Option Text} {scenario : ScenarioSchema} {source target : Text}

theorem Migrates.target_eq (migrates : Migrates files scenario source target)
    (named : scenario.variableNameInPathAndData ≠ []) :
    target = transformVariable scenario.variableNameInPathAndData source := by
  obtain ⟨i, request, after, before, there, texts⟩ := migrates
  rw [transformOldStyleVariable, if_pos named, List.getElem?_map, before] at there
  cases there
  rcases texts with ⟨rfl, rfl⟩ | ⟨rfl, rfl⟩ <;> rfl

/-- The migration defines the variable. -/
theorem isSome_getGenVarId_processScenario {processed : Scenario}
    (accepted : processScenario files scenario = some processed)
    (named : scenario.variableNameInPathAndData ≠ []) :
    (processed.variableManager.getGenVarId scenario.variableNameInPathAndData).isSome := by
  obtain ⟨defined, made, rfl⟩ := Option.map_eq_some_iff.mp accepted
  refine (VariableManager.isSome_getGenVarId_insertAll ..).mpr (.inr (List.mem_map.mpr ?_))
  obtain ⟨ranges, ranged, made⟩ := Option.bind_eq_some_iff.mp made
  obtain ⟨tables, tabled, made⟩ := Option.bind_eq_some_iff.mp made
  obtain ⟨columns, -, made⟩ := Option.bind_eq_some_iff.mp made
  cases made
  rw [transformOldStyleVariable, if_pos named] at ranged tabled
  by_cases listed : scenario.userIdListFile = []
  · simp only [listed, ne_eq, not_true_eq_false, if_false] at ranged
    obtain ⟨var, inside, made⟩ := exists_of_mapM ranged (List.mem_append_right _ (List.mem_singleton_self _))
    rw [rangeVariable] at made
    split at made <;> cases made
    exact ⟨_, List.mem_append_left _ inside, String.toList_ofList⟩
  · simp only [listed, ne_eq, not_false_eq_true, if_true] at tabled
    obtain ⟨var, inside, made⟩ := exists_of_mapM tabled (List.mem_append_right _ (List.mem_singleton_self _))
    rw [twoDimVariable] at made
    split at made <;> cases made
    exact ⟨_, List.mem_append_right _ (List.mem_append_left _ inside), String.toList_ofList⟩

/-- **What is assembled from a migrated text is the original with every occurrence of the name, from the
left, replaced by the value of the variable, if room for it can be reserved.** -/
theorem migrated_assembled {processed : Scenario} (accepted : processScenario files scenario = some processed)
    (named : scenario.variableNameInPathAndData ≠ []) (closed : marks.close ∉ scenario.variableNameInPathAndData)
    (migrates : Migrates files scenario source target) (plain : ¬ marks.opening <:+: source) :
    ∃ result : StringWithVariablesInBetween, (∀ turns, target.length < turns →
        splitStringAndVar target processed.variableManager turns = some (.ok result)) ∧ ∀ data reqIndex value,
        currentValue processed data reqIndex scenario.variableNameInPathAndData = some value →
          ∃ count assembled,
            Replaced scenario.variableNameInPathAndData source (List.replicate count value) assembled ∧
            assembleString processed data reqIndex result =
              if reservable assembled.length then some assembled else none := by
  have known := isSome_getGenVarId_processScenario accepted named
  rw [migrates.target_eq named]
  generalize scenario.variableNameInPathAndData = name at named closed known
  have free : ∀ piece ∈ tokenize name source, ¬ marks.opening <:+: piece := fun piece listed opens =>
    plain (opens.trans (infix_of_mem_tokenize listed))
  obtain ⟨pieces, last, cut⟩ : ∃ pieces last, tokenize name source = pieces ++ [last] :=
    ⟨_, _, (List.dropLast_concat_getLast (tokenize_ne_nil name source)).symm⟩
  rw [cut] at free
  have before : ∀ piece ∈ pieces, ¬ marks.opening <:+: piece := fun piece listed =>
    free piece (List.mem_append_left _ listed)
  have behind : ¬ marks.opening <:+: last := free last (List.mem_append_right _ (List.mem_singleton_self _))
  have filled := migrated_fill closed before behind
  have text : (migrated closed pieces before last behind).text = transformVariable name source := by
    rw [transformVariable, cut, List.dropLast_concat, List.getLastD_concat]
    exact filled marks.reference
  have names : ∀ other ∈ (migrated closed pieces before last behind).names, other = name := by
    intro other listed
    obtain ⟨r, inside, rfl⟩ := List.mem_map.mp listed
    obtain ⟨piece, -, rfl⟩ := List.mem_pmap.mp inside
    rfl
  obtain ⟨ids, resolved, all⟩ := resolve_of_defined (transformVariable name source)
    fun other listed => names other listed ▸ known
  refine ⟨⟨(migrated closed pieces before last behind).segments, ids⟩, fun turns enough => ?_,
    fun data reqIndex value current => ?_⟩
  · rw [← text] at enough resolved ⊢
    rw [splitStringAndVar_text _ _ enough, resolved]
    rfl
  · refine ⟨pieces.length, _, ?_, (assembles_template all data reqIndex).replaced (fun _ => value)
      fun other listed => names other listed ▸ current⟩
    have woven := weave_replicate pieces last value
    rw [filled, ← woven, ← cut]
    exact replaced_weave named (by rw [cut]; simp)

end Migration

/-- A name that overlaps itself, next to what looks like a reference. -/
def oldStyle : ScenarioSchema where
  variableNameInPathAndData := "xx".toList
  variableRangeStart := 0
  variableRangeEnd := 100
  ranged := hundred_sized
  requests := [⟨"/u/$xxx\x7dxx".toList, []⟩]

/-- **Satisfiable pole:** the text is split, and every value fills it. -/
theorem oldStyle_assembled : ∃ processed, processScenario (fun _ => none) oldStyle = some processed ∧
      ∃ result, splitStringAndVar "/u/$$\x7bxx\x7dx\x7d$\x7bxx\x7d".toList processed.variableManager 40 =
          some (.ok result) ∧
        ∀ data reqIndex value, currentValue processed data reqIndex "xx".toList = some value →
          ∃ count assembled,
            Replaced "xx".toList "/u/$xxx\x7dxx".toList (List.replicate count value) assembled ∧
            assembleString processed data reqIndex result =
              if reservable assembled.length then some assembled else none := by
  obtain ⟨processed, accepted⟩ := Option.isSome_iff_exists.mp
    (show (processScenario (fun _ => none) oldStyle).isSome = true by rfl)
  obtain ⟨result, split, assembled⟩ := migrated_assembled accepted (by decide) (by decide)
    ⟨0, _, _, rfl, rfl, .inl ⟨rfl, rfl⟩⟩ (by decide)
  exact ⟨processed, accepted, result, split 40 (by decide), assembled⟩

def longPayload : ScenarioSchema := { oldStyle with requests := [⟨"/".toList, manyLetters 2147483648⟩] }

/-- **Refuting pole:** a payload of two GiB in which the name does not occur. -/
theorem longPayload_lost : ∃ processed, processScenario (fun _ => none) longPayload = some processed ∧
      Migrates (fun _ => none) longPayload (manyLetters 2147483648) (manyLetters 2147483648) ∧
      ∃ result, (∀ turns, (manyLetters 2147483648).length < turns →
          splitStringAndVar (manyLetters 2147483648) processed.variableManager turns = some (.ok result)) ∧
        ∀ data reqIndex, assembleString processed data reqIndex result = none := by
  obtain ⟨processed, accepted⟩ := Option.isSome_iff_exists.mp
    (show (processScenario (fun _ => none) longPayload).isSome = true by rfl)
  refine ⟨processed, accepted, ?_, longText_lost processed (manyLetters_plain _) manyLetters_long⟩
  have content : loadFileContent (fun _ => none) (manyLetters 2147483648) = manyLetters 2147483648 := ite_self ..
  have absent : 'x' ∉ manyLetters 2147483648 := fun member =>
    absurd (List.eq_of_mem_replicate member) (by decide)
  have kept : transformVariable "xx".toList (manyLetters 2147483648) = manyLetters 2147483648 := by
    have none : find "xx".toList (manyLetters 2147483648) = none := find_of_not_mem absent ['x']
    rw [transformVariable, tokenize_of_find_none none]
    rfl
  exact ⟨0, _, _, rfl, rfl, .inr ⟨content.symm, ((congrArg _ content).trans kept).symm⟩⟩

end H2LoadRunner.Load.VariableText
