/-
# Load.ValuePickers -- values picked from a finished request

When a response has arrived, `run_post_response_action` picks a value for a variable from each place
the configuration names: a header of the response or of the request, or a JSON pointer into either
payload.  The payloads are parsed when the first pointer needs them.  Two of the places are not read:
the case of the request's payload has no `break` and goes on to that of the response's, and the names of
the pseudo headers are compared with the value that has not been found, which is empty.  A pointer that
asks for the members of something else than an object ends the process.

The regular expressions are not part of the program.
-/
import H2LoadRunner.Library.Table
import H2LoadRunner.Load.HeaderMap
import H2LoadRunner.MockServer.JsonPointers

namespace H2LoadRunner.Load.ValuePickers

open Library
open Cookies (Text)
open MockServer
open JsonPointers hiding Text

set_option autoImplicit false

/-! ## The engines -/

/-- Regular expressions and rapidjson. -/
structure Engines (Regex : Type) where
  /-- `std::regex_search`: the first match. -/
  search : Regex → Text → Option Text
  within : ∀ regex text found, search regex text = some found → found <:+: text
  json : JsonLibrary

inductive SourceType where
  | resHeader | reqHeader | reqPointer | resPointer
  deriving DecidableEq

structure RegexPicker (Regex : Type) (n : Nat) where
  whereToPickUpFrom : SourceType
  source : Text
  pickerRegexp : Regex
  uniqueId : Fin n

structure Finished where
  request : Outgoing
  respHeaders : List HeaderMap
  respPayload : Text

section Model

variable {Regex : Type} {n : Nat} (engines : Engines Regex) (finished : Finished)

def pick (regex : Regex) (text : Text) : Text := (engines.search regex text).getD []

/-! ## The code -/

/-- `req_json_payload` and `resp_json_payload`, once they are decoded. -/
structure Decoded where
  request : Option Json := none
  response : Option Json := none

/-- The value of a pseudo header, if the text is its name; the text itself if it is none. -/
def pseudoOr (text : Text) : Text :=
  if text = pathHeader then finished.request.path
  else if text = schemeHeader then finished.request.schema
  else if text = methodHeader then finished.request.method
  else if text = authorityHeader then finished.request.authority
  else text

def requestHeader (name : Text) : Option Text :=
  match finished.request.reqHeadersOfIndividual.value name with
  | some value => some value
  | none => finished.request.reqHeadersFromConfig.value name

def fromResponse (decoded : Decoded) (pointer : Text) : Except JsonPointers.Fault (Text × Decoded) := do
  let document := decoded.response.getD (decode engines.json finished.respPayload)
  let value ← getValueFromJsonPtr engines.json document pointer
  return (value, { decoded with response := some document })

/-- The `switch` over the place: the text that is found. -/
def locate (decoded : Decoded) (picker : RegexPicker Regex n) : Except JsonPointers.Fault (Text × Decoded) :=
  match picker.whereToPickUpFrom with
  | .resHeader =>
    .ok ((finished.respHeaders.findSome? fun headers => headers.value picker.source).getD [], decoded)
  | .reqHeader =>
    match requestHeader finished picker.source with
    | some value => .ok (value, decoded)
    -- The local `source`, which is still empty, is compared with the names.
    | none => .ok (pseudoOr finished [], decoded)
  | .reqPointer => do
    let document := decoded.request.getD (decode engines.json finished.request.reqPayload)
    -- The value is assigned, and the next `case` assigns again.
    let _ ← getValueFromJsonPtr engines.json document picker.source
    fromResponse engines finished { decoded with request := some document } picker.source
  | .resPointer => fromResponse engines finished decoded picker.source

def pickOne (state : (Fin n → Text) × Decoded) (picker : RegexPicker Regex n) :
    Except JsonPointers.Fault ((Fin n → Text) × Decoded) := do
  let located ← locate engines finished state.2 picker
  return (Function.update state.1 picker.uniqueId (pick engines picker.pickerRegexp located.1), located.2)

def runPostResponseAction (pickers : List (RegexPicker Regex n)) (values : Fin n → Text) :
    Except JsonPointers.Fault (Fin n → Text) :=
  (pickers.foldlM (pickOne engines finished) (values, {})).map Prod.fst

/-! ## What is stated -/

/-- The value of a header of the request: of its maps, or else of its own if it is a pseudo header. -/
def headerOfRequest (name : Text) : Option Text :=
  match requestHeader finished name with
  | some value => some value
  | none =>
    if name = pathHeader then some finished.request.path
    else if name = schemeHeader then some finished.request.schema
    else if name = methodHeader then some finished.request.method
    else if name = authorityHeader then some finished.request.authority
    else none

/-- What a pointer is to find in a payload. -/
def answer (payload pointer : Text) : Text :=
  convertRapidVJsonValueToStr engines.json (find engines.json (steps pointer) (decode engines.json payload))

def place (picker : RegexPicker Regex n) : Option Text :=
  match picker.whereToPickUpFrom with
  | .resHeader => finished.respHeaders.findSome? fun headers => headers.value picker.source
  | .reqHeader => headerOfRequest finished picker.source
  | .reqPointer => some (answer engines finished.request.reqPayload picker.source)
  | .resPointer => some (answer engines finished.respPayload picker.source)

/-- What a picker is to pick: the first match in the value, or the empty string. -/
def picked (picker : RegexPicker Regex n) : Text :=
  match place engines finished picker with
  | none => []
  | some value => pick engines picker.pickerRegexp value

/-- Every picker's variable holds what it is to pick, and no other variable changes. -/
structure Picks (pickers : List (RegexPicker Regex n)) (values after : Fin n → Text) : Prop where
  picked : ∀ picker ∈ pickers, after picker.uniqueId = picked engines finished picker
  unchanged : ∀ id, (∀ picker ∈ pickers, picker.uniqueId ≠ id) → after id = values id

def LastFor (pickers : List (RegexPicker Regex n)) (picker : RegexPicker Regex n) : Prop :=
  ∃ before after, pickers = before ++ picker :: after ∧
    ∀ other ∈ after, other.uniqueId ≠ picker.uniqueId

structure ReadsItsPlace (picker : RegexPicker Regex n) : Prop where
  /-- The response has the same match at the pointer as the request. -/
  pointer : picker.whereToPickUpFrom = .reqPointer →
    pick engines picker.pickerRegexp (answer engines finished.respPayload picker.source) =
      pick engines picker.pickerRegexp (answer engines finished.request.reqPayload picker.source)
  /-- There is nothing to match in a pseudo header that the maps have not. -/
  pseudo : picker.whereToPickUpFrom = .reqHeader → requestHeader finished picker.source = none →
    ∀ p : Pseudo, picker.source = p.name → pick engines picker.pickerRegexp (p.get finished.request) = []

/-- The pointer asks only objects for their members: in the response, and if it is one into the request
also there. -/
@[mk_iff answered_iff]
structure Answered (picker : RegexPicker Regex n) : Prop where
  request : picker.whereToPickUpFrom = .reqPointer →
    Proper engines.json (steps picker.source) (decode engines.json finished.request.reqPayload)
  response : picker.whereToPickUpFrom = .reqPointer ∨ picker.whereToPickUpFrom = .resPointer →
    Proper engines.json (steps picker.source) (decode engines.json finished.respPayload)

/-- Every pointer can be asked for, the pickers of one variable agree, and the last of them reads its
place. -/
structure Sound (pickers : List (RegexPicker Regex n)) : Prop where
  answered : ∀ picker ∈ pickers, Answered engines finished picker
  reads : ∀ picker, LastFor pickers picker → ReadsItsPlace engines finished picker
  shared : ∀ one ∈ pickers, ∀ other ∈ pickers, one.uniqueId = other.uniqueId →
    picked engines finished one = picked engines finished other

end Model

/-! ## A picker -/

section Proofs

variable {Regex : Type} {n : Nat} {engines : Engines Regex} {finished : Finished}

/-- What the code reads, whatever has been decoded before. -/
def readText (engines : Engines Regex) (finished : Finished) (picker : RegexPicker Regex n) : Text :=
  match picker.whereToPickUpFrom with
  | .resHeader => (finished.respHeaders.findSome? fun headers => headers.value picker.source).getD []
  | .reqHeader => (requestHeader finished picker.source).getD []
  | .reqPointer => answer engines finished.respPayload picker.source
  | .resPointer => answer engines finished.respPayload picker.source

structure Decoded.Sound (decoded : Decoded) (engines : Engines Regex) (finished : Finished) : Prop where
  request : ∀ document, decoded.request = some document →
    document = decode engines.json finished.request.reqPayload
  response : ∀ document, decoded.response = some document →
    document = decode engines.json finished.respPayload

theorem sound_initial (engines : Engines Regex) (finished : Finished) : Decoded.Sound {} engines finished :=
  ⟨nofun, nofun⟩

theorem getD_of_sound {held : Option Json} {parsed : Json}
    (sound : ∀ document, held = some document → document = parsed) : held.getD parsed = parsed := by
  cases held with
  | none => rfl
  | some document => exact sound document rfl

theorem pseudoOr_nil (finished : Finished) : pseudoOr finished [] = [] := by
  rw [pseudoOr, if_neg (by decide), if_neg (by decide), if_neg (by decide), if_neg (by decide)]

/-- The result is a text and what is decoded then, if the condition holds, and else a fault. -/
structure Locates (engines : Engines Regex) (finished : Finished) (condition : Prop) (text : Text)
    (located : Except JsonPointers.Fault (Text × Decoded)) : Prop where
  found : condition → ∃ after, located = .ok (text, after) ∧ after.Sound engines finished
  fault : ¬ condition → ∃ fault, located = .error fault

theorem fromResponse_locates {decoded : Decoded} (sound : decoded.Sound engines finished) (pointer : Text) :
    Locates engines finished (Proper engines.json (steps pointer) (decode engines.json finished.respPayload))
      (answer engines finished.respPayload pointer) (fromResponse engines finished decoded pointer) := by
  have document := getD_of_sound sound.response
  rw [fromResponse, document]
  constructor
  · intro proper
    rw [getValueFromJsonPtr_of_proper proper]
    exact ⟨_, rfl, sound.request, fun other same => (Option.some.inj same).symm⟩
  · intro improper
    obtain ⟨fault, failed⟩ := getValueFromJsonPtr_of_improper improper
    rw [failed]
    exact ⟨fault, rfl⟩

theorem locate_locates {decoded : Decoded} (sound : decoded.Sound engines finished)
    (picker : RegexPicker Regex n) : Locates engines finished (Answered engines finished picker)
      (readText engines finished picker) (locate engines finished decoded picker) := by
  unfold locate readText
  cases kind : picker.whereToPickUpFrom with
  | resHeader => exact ⟨fun _ => ⟨_, rfl, sound⟩, fun not => absurd (by simp [kind, answered_iff]) not⟩
  | reqHeader =>
    have answered : Answered engines finished picker := by simp [answered_iff, kind]
    refine ⟨fun _ => ?_, fun not => absurd answered not⟩
    cases requestHeader finished picker.source with
    | some value => exact ⟨_, rfl, sound⟩
    | none =>
      simp only [pseudoOr_nil]
      exact ⟨_, rfl, sound⟩
  | reqPointer =>
    have kept : (Decoded.mk (some (decode engines.json finished.request.reqPayload)) decoded.response).Sound
        engines finished :=
      ⟨fun other same => (Option.some.inj same).symm, sound.response⟩
    have after := fromResponse_locates kept picker.source
    simp only [getD_of_sound sound.request]
    by_cases proper : Proper engines.json (steps picker.source)
        (decode engines.json finished.request.reqPayload)
    · rw [getValueFromJsonPtr_of_proper proper]
      have same : Answered engines finished picker ↔
          Proper engines.json (steps picker.source) (decode engines.json finished.respPayload) := by
        simp [answered_iff, kind, proper]
      rwa [same]
    · obtain ⟨fault, failed⟩ := getValueFromJsonPtr_of_improper proper
      rw [failed]
      exact ⟨fun answered => absurd (answered.request kind) proper, fun _ => ⟨fault, rfl⟩⟩
  | resPointer =>
    have same : Answered engines finished picker ↔
        Proper engines.json (steps picker.source) (decode engines.json finished.respPayload) := by
      simp [answered_iff, kind]
    rw [same]
    exact fromResponse_locates sound picker.source

/-- The loop over the pickers: each is read whatever has been decoded for those in front of it. -/
theorem foldlM_pickOne (pickers : List (RegexPicker Regex n)) (values : Fin n → Text) {decoded : Decoded}
    (sound : decoded.Sound engines finished) :
    ((∀ picker ∈ pickers, Answered engines finished picker) →
      (pickers.foldlM (pickOne engines finished) (values, decoded)).map Prod.fst =
        .ok (pickers.foldl (fun values picker => Function.update values picker.uniqueId
          (pick engines picker.pickerRegexp (readText engines finished picker))) values)) ∧
      ((∃ picker ∈ pickers, ¬ Answered engines finished picker) → ∃ fault,
        (pickers.foldlM (pickOne engines finished) (values, decoded)).map Prod.fst = .error fault) := by
  induction pickers generalizing values decoded with
  | nil => exact ⟨fun _ => rfl, by simp⟩
  | cons picker pickers ih =>
    have here := locate_locates sound picker
    rw [List.foldlM_cons, pickOne]
    by_cases answered : Answered engines finished picker
    · obtain ⟨after, located, kept⟩ := here.found answered
      rw [located]
      have later := ih (Function.update values picker.uniqueId
        (pick engines picker.pickerRegexp (readText engines finished picker))) kept
      refine ⟨fun all => later.1 fun other member => all other (List.mem_cons_of_mem _ member), ?_⟩
      rintro ⟨other, member, unanswered⟩
      rcases List.mem_cons.mp member with rfl | member
      · exact absurd answered unanswered
      · exact later.2 ⟨other, member, unanswered⟩
    · obtain ⟨fault, failed⟩ := here.fault answered
      rw [failed]
      exact ⟨fun all => absurd (all picker List.mem_cons_self) answered, fun _ => ⟨fault, rfl⟩⟩

theorem runPostResponseAction_eq {pickers : List (RegexPicker Regex n)}
    (answered : ∀ picker ∈ pickers, Answered engines finished picker) (values : Fin n → Text) :
    runPostResponseAction engines finished pickers values =
      .ok (pickers.foldl (fun values picker => Function.update values picker.uniqueId
        (pick engines picker.pickerRegexp (readText engines finished picker))) values) :=
  (foldlM_pickOne pickers values (sound_initial _ _)).1 answered

theorem answered_of_ok {pickers : List (RegexPicker Regex n)} {values after : Fin n → Text}
    (ok : runPostResponseAction engines finished pickers values = .ok after) :
    ∀ picker ∈ pickers, Answered engines finished picker := by
  by_contra unanswered
  push Not at unanswered
  obtain ⟨fault, failed⟩ := (foldlM_pickOne pickers values (sound_initial _ _)).2 unanswered
  cases failed.symm.trans ok

theorem pick_nil (regex : Regex) : pick engines regex [] = [] := by
  rw [pick]
  cases matched : engines.search regex [] with
  | none => rfl
  | some found => exact List.infix_nil.mp (engines.within regex [] found matched)

theorem headerOfRequest_of_pseudo {p : Pseudo} (absent : requestHeader finished p.name = none) :
    headerOfRequest finished p.name = some (p.get finished.request) := by
  rw [headerOfRequest, absent]
  cases p with
  | path => exact if_pos rfl
  | scheme => exact (if_neg (by decide)).trans (if_pos rfl)
  | method => exact (if_neg (by decide)).trans ((if_neg (by decide)).trans (if_pos rfl))
  | authority =>
    exact (if_neg (by decide)).trans
      ((if_neg (by decide)).trans ((if_neg (by decide)).trans (if_pos rfl)))

theorem headerOfRequest_of_regular {name : Text} (absent : requestHeader finished name = none)
    (regular : ∀ p : Pseudo, name ≠ p.name) : headerOfRequest finished name = none := by
  have path : name ≠ pathHeader := regular .path
  have scheme : name ≠ schemeHeader := regular .scheme
  have method : name ≠ methodHeader := regular .method
  have authority : name ≠ authorityHeader := regular .authority
  rw [headerOfRequest, absent]
  simp only
  rw [if_neg path, if_neg scheme, if_neg method, if_neg authority]

theorem picked_getD (regex : Regex) (value : Option Text) :
    (match value with
      | none => []
      | some value => pick engines regex value) = pick engines regex (value.getD []) := by
  cases value with
  | none => exact (pick_nil regex).symm
  | some value => rfl

/-- Of the headers of a request, only the pseudo headers that the maps have not are missed. -/
theorem pick_requestHeader_iff (regex : Regex) (name : Text) :
    pick engines regex ((requestHeader finished name).getD []) =
        pick engines regex ((headerOfRequest finished name).getD []) ↔ (requestHeader finished name = none →
        ∀ p : Pseudo, name = p.name → pick engines regex (p.get finished.request) = []) := by
  cases held : requestHeader finished name with
  | some value =>
    rw [headerOfRequest, held]
    exact iff_of_true rfl nofun
  | none =>
    rw [Option.getD_none, pick_nil]
    constructor
    · rintro same - p rfl
      rw [headerOfRequest_of_pseudo held] at same
      exact same.symm
    · intro empty
      by_cases pseudo : ∃ p : Pseudo, name = p.name
      · obtain ⟨p, rfl⟩ := pseudo
        rw [headerOfRequest_of_pseudo held]
        exact (empty rfl p rfl).symm
      · rw [headerOfRequest_of_regular held fun p named => pseudo ⟨p, named⟩]
        exact (pick_nil regex).symm

theorem pick_readText_iff (picker : RegexPicker Regex n) :
    pick engines picker.pickerRegexp (readText engines finished picker) = picked engines finished picker ↔
      ReadsItsPlace engines finished picker := by
  rw [picked, picked_getD, place, readText]
  cases kind : picker.whereToPickUpFrom with
  | resHeader =>
    refine iff_of_true rfl ⟨fun other => ?_, fun other => ?_⟩ <;>
    · rw [kind] at other
      cases other
  | resPointer =>
    refine iff_of_true rfl ⟨fun other => ?_, fun other => ?_⟩ <;>
    · rw [kind] at other
      cases other
  | reqHeader =>
    refine (pick_requestHeader_iff picker.pickerRegexp picker.source).trans ⟨fun empty => ?_, fun reads => ?_⟩
    · refine ⟨fun other => ?_, fun _ => empty⟩
      rw [kind] at other
      cases other
    · exact reads.pseudo kind
  | reqPointer =>
    refine ⟨fun same => ⟨fun _ => same, fun other => ?_⟩, fun reads => reads.pointer kind⟩
    rw [kind] at other
    cases other

/-! ## The pickers of a request -/

theorem runPostResponseAction_of_last {pickers : List (RegexPicker Regex n)} {picker : RegexPicker Regex n}
    {values after : Fin n → Text} (ok : runPostResponseAction engines finished pickers values = .ok after)
    (last : LastFor pickers picker) :
    after picker.uniqueId = pick engines picker.pickerRegexp (readText engines finished picker) := by
  rw [runPostResponseAction_eq (answered_of_ok ok)] at ok
  obtain ⟨before, rest, rfl, others⟩ := last
  cases ok
  exact foldl_update_last (fun picker : RegexPicker Regex n => picker.uniqueId) _ before others values

theorem exists_lastFor {pickers : List (RegexPicker Regex n)} {picker : RegexPicker Regex n}
    (listed : picker ∈ pickers) : ∃ last ∈ pickers, LastFor pickers last ∧ last.uniqueId = picker.uniqueId := by
  obtain ⟨before, last, after, rfl, same, others⟩ := exists_last RegexPicker.uniqueId listed
  exact ⟨last, List.mem_append_right _ List.mem_cons_self, ⟨before, after, rfl, others⟩, same⟩

theorem LastFor.mem {pickers : List (RegexPicker Regex n)} {picker : RegexPicker Regex n}
    (last : LastFor pickers picker) : picker ∈ pickers := by
  obtain ⟨before, after, rfl, -⟩ := last
  exact List.mem_append_right _ List.mem_cons_self

/-- **After a response, the variables hold what the pickers are to pick, exactly if every pointer can be
asked for, the last picker of each variable reads its place and the pickers of one variable agree.** -/
theorem picks_iff {Regex : Type} {n : Nat} (engines : Engines Regex) (finished : Finished)
    (pickers : List (RegexPicker Regex n)) (values : Fin n → Text) :
    (∃ after, runPostResponseAction engines finished pickers values = .ok after ∧
        Picks engines finished pickers values after) ↔ Sound engines finished pickers := by
  constructor
  · rintro ⟨after, ok, picks⟩
    refine ⟨answered_of_ok ok, fun picker last => ?_, fun one first other second same => ?_⟩
    · have held := picks.picked picker last.mem
      rw [runPostResponseAction_of_last ok last] at held
      exact (pick_readText_iff picker).mp held
    · rw [← picks.picked one first, ← picks.picked other second, same]
  · intro sound
    have ok := runPostResponseAction_eq sound.answered values
    refine ⟨_, ok, fun picker listed => ?_, fun id others => ?_⟩
    · obtain ⟨last, member, final, same⟩ := exists_lastFor listed
      rw [← same, runPostResponseAction_of_last ok final,
        (pick_readText_iff last).mpr (sound.reads last final)]
      exact sound.shared last member picker listed same
    · exact foldl_update_of_ne RegexPicker.uniqueId _ others values

end Proofs

/-! ## Poles -/

/-- The expressions `.{0,k}`, and documents that are one text. -/
def firstCharacters : Engines Nat where
  search k text := some (text.take k)
  within k text found matched := by
    cases matched
    exact (List.take_prefix k text).isInfix
  json := { parse := fun payload => some (.string payload), get := fun _ value => some value, write := fun _ => [] }

def ordered : Finished where
  request :=
    { method := "POST".toList
      path := "/orders".toList
      schema := "http".toList
      authority := "shop".toList
      reqPayload := "17".toList
      reqHeadersFromConfig := HeaderMap.empty
      reqHeadersOfIndividual := HeaderMap.empty }
  respHeaders := []
  respPayload := "4".toList

/-- **Refuting pole:** the path of the request is not picked. -/
theorem path_not_picked :
    ∃ after, runPostResponseAction firstCharacters ordered [⟨.reqHeader, pathHeader, 9, (0 : Fin 1)⟩]
        (fun _ => "old".toList) = .ok after ∧
      ¬ Picks firstCharacters ordered [⟨.reqHeader, pathHeader, 9, 0⟩] (fun _ => "old".toList) after := by
  refine ⟨_, rfl, fun picks => ?_⟩
  have held := picks.picked _ List.mem_cons_self
  exact absurd held (by decide)

end H2LoadRunner.Load.ValuePickers
