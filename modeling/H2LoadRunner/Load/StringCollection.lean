/-
# Load.StringCollection -- the strings a request keeps for itself

A `Request_Data` points to its texts.  Those made for it are in its `string_collection`, with room for
twelve; one more moves them all, and the pointers to them dangle.

* `prepared_stable_iff`: this happens only where the script returns two tables, and then exactly when the
  URI and what the table that is read last lacks come to more than three strings.
-/
import H2LoadRunner.Load.Cookies

namespace H2LoadRunner.Load.StringCollection

open Cookies (Text)

set_option autoImplicit false

/-! ## Preparing a request -/

/-- The text a pointer was set to; for one of the collection, with the moves until then. -/
structure Pointer where
  text : Text := []
  taken : Option Nat := none

inductive Field where
  | schema | authority | reqPayload | path | method
  deriving DecidableEq

/-- With twelve strings or fewer no pointer dangles. -/
structure RequestData where
  size : Nat := 0
  capacity : Nat := 12
  /-- How often the strings have been moved. -/
  moves : Nat := 0
  pointers : Field → Pointer := fun _ => {}
  valid : size ≤ 12 → capacity = 12 ∧ ∀ field, ∀ old ∈ (pointers field).taken, old = moves := by simp

namespace RequestData

def point (r : RequestData) (field : Field) (text : Text) : RequestData :=
  { r with
    pointers := Function.update r.pointers field { text := text }
    valid few := by
      refine ⟨(r.valid few).1, fun other => ?_⟩
      by_cases same : other = field
      · simp [same]
      · simpa [same] using (r.valid few).2 other }

def keep (r : RequestData) (field : Field) (text : Text) : RequestData :=
  let moves := if r.size < r.capacity then r.moves else r.moves + 1
  { size := r.size + 1
    capacity := if r.size < r.capacity then r.capacity else 2 * r.capacity
    moves := moves
    pointers := Function.update r.pointers field ⟨text, some moves⟩
    valid few := by
      obtain ⟨capacity, valid⟩ := r.valid (by omega)
      have room : r.size < r.capacity := by omega
      simp only [moves, if_pos room]
      refine ⟨capacity, fun other => ?_⟩
      by_cases same : other = field
      · simp [same]
      · simpa [same] using valid other }

def empty (r : RequestData) (field : Field) : Bool := (r.pointers field).text.isEmpty

end RequestData

structure Template where
  method : Text
  schema : Text
  authority : Text
  payload : Text

def populateRequestFromConfigTemplate (template : Template) : RequestData :=
  ((({} : RequestData).point .method template.method).point .schema template.schema
    |>.point .authority template.authority).keep .reqPayload template.payload

/-- A parsed URI: its path and query, and scheme and authority if it has both. -/
structure ParsedUri where
  reqline : Text
  origin : Option (Text × Text)

/-- `parse_uri_and_poupate_request`, where the URI can be parsed; nothing is done with an empty one. -/
def parseUriAndPopulateRequest (uri : Option ParsedUri) (r : RequestData) : RequestData :=
  match uri with
  | none => r
  | some ⟨reqline, none⟩ => r.keep .path reqline
  | some ⟨reqline, some (schema, authority)⟩ =>
    ((r.keep .path reqline).keep .schema schema).keep .authority authority

/-- The URI of a request, by its action, with the texts of the finished request that are read. -/
inductive UriStep where
  | inputUri (path : Text)
  | sameWithLastOne (path schema authority : Text)
  | fromResponseHeader (uri : Option ParsedUri) (schema authority : Text)
  | inputWithVariable (uri : Option ParsedUri)
  | other

def UriStep.run (r : RequestData) : UriStep → RequestData
  | .inputUri path => r.keep .path path
  | .sameWithLastOne path schema authority =>
    ((r.keep .path path).keep .schema schema).keep .authority authority
  | .fromResponseHeader uri schema authority =>
    let parsed := parseUriAndPopulateRequest uri r
    if (uri.bind ParsedUri.origin).isSome then parsed
    else (parsed.keep .schema schema).keep .authority authority
  | .inputWithVariable uri => parseUriAndPopulateRequest uri r
  | .other => r

/-- The pseudo headers of a table; a missing one is empty. -/
structure Table where
  method : Text := []
  path : Text := []
  authority : Text := []
  schema : Text := []

inductive LuaValue where
  | string (text : Text)
  | table (table : Table)
  | other

/-- A value on the stack; `none` where the scenario is aborted. -/
def LuaValue.take (r : RequestData) : LuaValue → Option RequestData
  | .string text => some (r.keep .reqPayload text)
  | .table t =>
    some ((((r.keep .method t.method).keep .path t.path).keep .authority t.authority).keep .schema t.schema)
  | .other => none

/-- `update_request_with_lua` with the two values of `make_request`; the second is on top. -/
def updateRequestWithLua (script : Option (LuaValue × LuaValue)) (r : RequestData) : Option RequestData :=
  match script with
  | none => some r
  | some (first, second) => (second.take r).bind first.take

def sanitizeRequest (schema authority : Text) (r : RequestData) : RequestData :=
  let r := if r.empty .schema then r.keep .schema schema else r
  if r.empty .authority then r.keep .authority authority else r

/-- What a scenario request is prepared from; `schema` and `authority` are the client's. -/
structure Inputs where
  template : Template
  uri : UriStep
  script : Option (LuaValue × LuaValue)
  schema : Text
  authority : Text

/-- `prepare_next_request`, and `prepare_first_request` with the actions it knows. -/
def prepare (inputs : Inputs) : Option RequestData :=
  (updateRequestWithLua inputs.script
    (inputs.uri.run (populateRequestFromConfigTemplate inputs.template))).map
      (sanitizeRequest inputs.schema inputs.authority)

/-! ## Twelve strings -/

/-- No more than twelve strings, and every pointer to one of them is valid. -/
def RequestData.Stable (r : RequestData) : Prop :=
  r.size ≤ 12 ∧ ∀ field, ∀ old ∈ (r.pointers field).taken, old = r.moves

def UriStep.strings : UriStep → Nat
  | .inputUri _ | .inputWithVariable (some ⟨_, none⟩) => 1
  | .sameWithLastOne _ _ _ | .fromResponseHeader (some _) _ _ | .inputWithVariable (some ⟨_, some _⟩) => 3
  | .fromResponseHeader none _ _ => 2
  | .inputWithVariable none | .other => 0

def Table.missing (t : Table) : Nat := (if t.schema = [] then 1 else 0) + if t.authority = [] then 1 else 0

/-- The script returns two tables, and the URI and what the one that is read last lacks give more than
three strings. -/
def Inputs.Crowded (inputs : Inputs) : Prop :=
  ∃ first second : Table, inputs.script = some (.table first, .table second) ∧
    3 < inputs.uri.strings + first.missing

namespace RequestData

theorem stable_iff (r : RequestData) : r.Stable ↔ r.size ≤ 12 :=
  ⟨And.left, fun few => ⟨few, (r.valid few).2⟩⟩

@[simp] theorem size_keep (r : RequestData) (field : Field) (text : Text) :
    (r.keep field text).size = r.size + 1 := rfl

@[simp] theorem empty_keep (r : RequestData) (field other : Field) (text : Text) :
    (r.keep field text).empty other = if other = field then text.isEmpty else r.empty other := by
  simp only [empty, keep, Function.update_apply]
  split <;> rfl

theorem size_sanitize (r : RequestData) (schema authority : Text) :
    (sanitizeRequest schema authority r).size =
      r.size + (if r.empty .schema then 1 else 0) + if r.empty .authority then 1 else 0 := by
  simp only [sanitizeRequest]
  split_ifs <;> simp_all

theorem size_run (r : RequestData) (uri : UriStep) :
    (uri.run r).size = r.size + uri.strings ∧ uri.strings ≤ 3 := by
  rcases uri with path | ⟨path, schema, authority⟩ | ⟨_ | ⟨reqline, _ | origin⟩, schema, authority⟩ |
    (_ | ⟨reqline, _ | origin⟩) | _ <;> simp [UriStep.run, UriStep.strings, parseUriAndPopulateRequest]

end RequestData

/-- **A request that is prepared has at most twelve strings and valid pointers exactly when it is not
crowded.** -/
theorem prepared_stable_iff (inputs : Inputs) (r : RequestData) (prepared : prepare inputs = some r) :
    r.Stable ↔ ¬ inputs.Crowded := by
  obtain ⟨template, uri, script, schema, authority⟩ := inputs
  obtain ⟨size, most⟩ := (populateRequestFromConfigTemplate template).size_run uri
  rw [show (populateRequestFromConfigTemplate template).size = 1 from rfl] at size
  obtain ⟨updated, scripted, rfl⟩ := Option.map_eq_some_iff.mp prepared
  dsimp only at scripted ⊢
  rw [RequestData.stable_iff, RequestData.size_sanitize]
  generalize uri.run (populateRequestFromConfigTemplate template) = given at size scripted
  rcases script with _ | ⟨first, second⟩
  · cases scripted
    refine iff_of_true ?_ (by simp [Inputs.Crowded])
    split_ifs <;> omega
  · obtain ⟨between, taken, takes⟩ := Option.bind_eq_some_iff.mp scripted
    cases first <;> cases second <;> cases takes <;> cases taken
    case some.table.table.refl.refl t u =>
      simp only [Inputs.Crowded, Option.some.injEq, Prod.mk.injEq, LuaValue.table.injEq, and_assoc,
        exists_and_left, exists_eq_left', Table.missing, RequestData.size_keep, RequestData.empty_keep, size,
        reduceCtorEq, ↓reduceIte, List.isEmpty_iff]
      split_ifs <;> omega
    -- with a string there are six strings of the script at most
    all_goals
      refine iff_of_true ?_ (by simp [Inputs.Crowded])
      simp only [RequestData.size_keep, size]
      split_ifs <;> omega

def twoTables (first : Table) : Inputs where
  template := ⟨"GET".toList, [], [], []⟩
  uri := .sameWithLastOne "/a".toList "http".toList "host".toList
  script := some (.table first, .table {})
  schema := "http".toList
  authority := "host".toList

/-- **Satisfiable pole:** with a scheme and an authority. -/
theorem fullTable_stable :
    ∃ r, prepare (twoTables ⟨[], [], "b".toList, "http".toList⟩) = some r ∧ r.Stable :=
  ⟨_, rfl, (prepared_stable_iff (twoTables _) _ rfl).mpr
    (by simp [Inputs.Crowded, twoTables, UriStep.strings, Table.missing])⟩

/-- **Refuting pole:** without, fourteen strings, and the pointer to the path is left dangling. -/
theorem twoTables_not_stable :
    ∃ r, prepare (twoTables {}) = some r ∧ r.size = 14 ∧ (r.pointers .path).taken ≠ some r.moves ∧
      ¬ r.Stable := by
  refine ⟨_, rfl, by decide, by decide, fun stable => ?_⟩
  exact absurd stable.1 (by decide)

end H2LoadRunner.Load.StringCollection
