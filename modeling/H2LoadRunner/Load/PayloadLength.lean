/-
# Load.PayloadLength -- the content-length field of a scenario request

The field can come from the configured headers, from a header with variables, or from the table a script
returns; at the end of the preparation `update_content_length` sets it to the length of the payload,
unless the payload is empty.

`contentLength_honest_iff`: what is sent as the length is the number of bytes that are sent, whatever
the template, the variables and the script, exactly when the payload they give is not empty or the
content-length they give, if any, denotes zero.
-/
import H2LoadRunner.Load.EmittedHeaders
import H2LoadRunner.Load.LuaRequest
import H2LoadRunner.Load.RequestPayload

namespace H2LoadRunner.Load.PayloadLength

open Library
open Cookies (Text lower Connection)
open LuaRequest
open RequestPayload (Bytes)

set_option autoImplicit false

/-! ## The request -/

/-- A request of a scenario; `τ` are its texts with variables. -/
structure Template (τ : Type) where
  method : Text
  schema : Text
  authority : Text
  tokenizedPayloadWithVars : τ
  headersInMap : HeaderMap
  headersWithVariable : List (τ × τ)

/-- `populate_request_from_config_template`, for given values of the variables, with the path and the
cookies that are added to it. -/
def Template.populate {τ : Type} (template : Template τ) (assembleString : τ → Text) (path : Text)
    (cookies : Option Text) : Outgoing where
  method := template.method
  path := path
  schema := template.schema
  authority := template.authority
  reqPayload := assembleString template.tokenizedPayloadWithVars
  reqHeadersFromConfig := template.headersInMap
  reqHeadersOfIndividual :=
    let assembled := template.headersWithVariable.foldl
      (fun headers h => headers.emplace (assembleString h.1) (assembleString h.2)) HeaderMap.empty
    cookies.elim assembled fun value => assembled.assign "Cookie".toList value

/-- The request as a session stores it for sending. -/
def stored (r : Outgoing) : RequestPayload.RequestData where
  schema := some r.schema
  authority := some r.authority
  path := some r.path
  method := some r.method
  reqPayload := r.reqPayload.map fun c => UInt8.ofNat c.toNat
  reqHeadersFromConfig := r.reqHeadersFromConfig.entries
  reqHeadersOfIndividual := r.reqHeadersOfIndividual.entries

/-- The list of a header map is searched like the map. -/
theorem find_entries (m : HeaderMap) (name : Text) :
    Http1Response.HeaderFrame.find m.entries name = m.lookup name := by
  rw [Http1Response.HeaderFrame.find]
  cases found : m.entries.find? _ with
  | none =>
    refine (Option.eq_none_iff_forall_ne_some.mpr fun entry there => ?_).symm
    have named : lower entry.1 = lower name := m.spelled there
    have member := (m.mem_entries_iff entry).mpr (named ▸ there)
    exact List.find?_eq_none.mp found entry member (beq_iff_eq.mpr named)
  | some entry =>
    have matched := List.find?_some found
    have named : lower entry.1 = lower name := beq_iff_eq.mp matched
    rw [HeaderMap.lookup, ← named, (m.mem_entries_iff entry).mp (List.mem_of_find?_eq_some found)]

/-- What nghttp2 is given for the stored request are the fields over HTTP/2. -/
theorem http2Nvs_stored (r : Outgoing) : (stored r).http2Nvs = r.http2Fields := by
  have pseudo (name : Text) : decide (name ∉ RequestPayload.pseudoHeaders) = !isPseudo name := by
    rw [Bool.eq_iff_iff]
    simp only [RequestPayload.pseudoHeaders, isPseudo, decide_eq_true_iff, Bool.not_eq_true',
      Bool.or_eq_false_iff, beq_eq_false_iff_ne, List.mem_cons, List.not_mem_nil, or_false, not_or, and_assoc]
    rfl
  simp only [RequestPayload.RequestData.http2Nvs, stored, find_entries, pseudo, Outgoing.http2Fields,
    Outgoing.fields, sentFields, List.append_assoc]
  rfl

def Denotes (value : Text) (n : Nat) : Prop :=
  value ≠ [] ∧ (∀ c ∈ value, c.isDigit = true) ∧ Nat.ofDigitChars 10 value 0 = n

/-- A content-length is sent with the number of bytes that the session sends, however many calls it
takes. -/
def Honest (r : Outgoing) : Prop :=
  ∀ value, (contentLength, value) ∈ lowered r.fields → ∀ (protocol : RequestPayload.Protocol) calls after sent,
    (stored r).send protocol calls = some (after, sent) → Denotes value sent.length

/-! ## What is given -/

def isLength (header : Text × Text) : Bool := lower header.1 = contentLength

def LuaValue.text? : LuaValue → Option Text
  | .string text => some text
  | _ => none

/-- The content-length in a table, if the value is one: the last that is visited. -/
def LuaValue.length? : LuaValue → Option (Option Text)
  | .table visited => some ((visited.filter isLength).getLast?.map Prod.snd)
  | _ => none

section Given

variable {τ : Type} (template : Template τ) (assembleString : τ → Text) (script : Option (List LuaValue))

/-- The last text that the script returns, or else the payload of the template. -/
def givenPayload : Text :=
  ((script.getD []).filterMap LuaValue.text?).getLast?.getD (assembleString template.tokenizedPayloadWithVars)

/-- The last table that the script returns stands for the headers with variables, of which the first
counts; what they have not is configured. -/
def givenLength : Option Text :=
  let assembled := template.headersWithVariable.map fun h => (assembleString h.1, assembleString h.2)
  (((script.getD []).filterMap LuaValue.length?).getLast?.getD ((assembled.find? isLength).map Prod.snd)).or
    (template.headersInMap.value contentLength)

end Given

/-- The content-length among the headers of its own. -/
def ownLength (r : Outgoing) : Option Text := r.reqHeadersOfIndividual.value contentLength

theorem lower_contentLength : lower contentLength = contentLength := by decide

theorem sentAt_contentLength (r : Outgoing) :
    r.sentAt contentLength = (ownLength r).or (r.reqHeadersFromConfig.value contentLength) := by
  rw [Outgoing.sentAt, fieldAt, ownLength, HeaderMap.value, HeaderMap.value, HeaderMap.lookup, HeaderMap.lookup,
    lower_contentLength]
  cases own : r.reqHeadersOfIndividual.places.lookup contentLength with
  | some entry => exact visible_of_lookup own (by decide)
  | none =>
    cases configured : r.reqHeadersFromConfig.places.lookup contentLength with
    | some entry => exact visible_of_lookup configured (by decide)
    | none => rfl

theorem ownLength_takeTable (visited : List (Text × Text)) (r : Outgoing) :
    ownLength (takeTable visited r) = (visited.filter isLength).getLast?.map Prod.snd := by
  have regular : ∀ p : Pseudo, contentLength ≠ p.name := by
    intro p
    cases p <;> decide
  rw [ownLength, HeaderMap.value, HeaderMap.lookup, lower_contentLength,
    lookup_takeTable_of_regular visited r regular, lookup_headersOf]
  rfl

/-- What a script leaves of a request: the configured headers, its last text and its last table. -/
theorem updateRequestWithLua_given {returned : List LuaValue} {r after : Outgoing}
    (updated : updateRequestWithLua returned r = some after) :
    after.reqHeadersFromConfig = r.reqHeadersFromConfig ∧
      after.reqPayload = (returned.filterMap LuaValue.text?).getLast?.getD r.reqPayload ∧
      ownLength after = (returned.filterMap LuaValue.length?).getLast?.getD (ownLength r) := by
  induction returned generalizing r with
  | nil =>
    cases updated
    exact ⟨rfl, rfl, rfl⟩
  | cons value rest ih =>
    cases value with
    | other => cases updated
    | string text =>
      obtain ⟨config, payload, length⟩ := ih updated
      exact ⟨config, by simpa [LuaValue.text?, List.getLast?_cons] using payload, length⟩
    | table visited =>
      obtain ⟨config, payload, length⟩ := ih updated
      rw [ownLength_takeTable] at length
      exact ⟨config, payload, by simpa [LuaValue.length?, List.getLast?_cons] using length⟩

theorem value_foldl_emplace (headers : HeaderMap) (fields : List (Text × Text)) :
    (fields.foldl (fun headers h => headers.emplace h.1 h.2) headers).value contentLength =
      (headers.value contentLength).or ((fields.find? isLength).map Prod.snd) := by
  induction fields generalizing headers with
  | nil => simp
  | cons field fields ih =>
    rw [List.foldl_cons, ih, List.find?_cons]
    have here : (headers.emplace field.1 field.2).value contentLength =
        (headers.value contentLength).or (if isLength field then some field.2 else none) := by
      unfold HeaderMap.emplace
      cases held : headers.lookup field.1 with
      | some entry =>
        by_cases named : isLength field = true
        · have same : lower field.1 = lower contentLength := by
            simpa [isLength, lower_contentLength] using named
          have found : headers.value contentLength = some entry.2 := by
            rw [HeaderMap.value, HeaderMap.lookup, ← same, ← HeaderMap.lookup, held]
            rfl
          simp [found]
        · simp [named]
      | none =>
        simp only [HeaderMap.value, HeaderMap.lookup, HeaderMap.lookup_assign, lower_contentLength]
        by_cases named : isLength field = true
        · have same : contentLength = lower field.1 := by
            simpa [isLength, eq_comm] using named
          rw [HeaderMap.lookup, ← same] at held
          rw [if_pos same, lower_contentLength, held, if_pos named]
          rfl
        · have other : contentLength ≠ lower field.1 := by
            simpa [isLength, eq_comm] using named
          simp [other, named]
    rw [here]
    cases headers.value contentLength <;> cases isLength field <;> simp

theorem ownLength_populate {τ : Type} (template : Template τ) (assembleString : τ → Text) (path : Text)
    (cookies : Option Text) : ownLength (template.populate assembleString path cookies) =
      ((template.headersWithVariable.map fun h => (assembleString h.1, assembleString h.2)).find?
        isLength).map Prod.snd := by
  have assembled := value_foldl_emplace HeaderMap.empty
    (template.headersWithVariable.map fun h => (assembleString h.1, assembleString h.2))
  rw [List.foldl_map] at assembled
  have unset : HeaderMap.empty.value contentLength = none := rfl
  rw [unset, Option.none_or] at assembled
  rw [← assembled]
  cases cookies with
  | none => rfl
  | some value =>
    have other : contentLength ≠ lower "Cookie".toList := by decide
    simp only [ownLength, Template.populate, Option.elim_some, HeaderMap.value, HeaderMap.lookup,
      lower_contentLength, HeaderMap.lookup_assign, if_neg other]

/-! ## The length -/

theorem length_sent {data after : RequestPayload.RequestData} {protocol : RequestPayload.Protocol}
    {calls : List Nat} {sent : Bytes}
    (start : data.reqPayloadCursor = 0) (ends : data.send protocol calls = some (after, sent)) :
    sent.length = data.reqPayload.length := by
  cases protocol with
  | http1 => rw [(RequestPayload.send_http1 ends).1]
  | http2 =>
    obtain ⟨-, enough, rfl⟩ := RequestPayload.send_http2 (start.trans (Nat.zero_min _).symm) ends
    have counted := RequestPayload.length_placed data.reqPayload (Nat.zero_le _) calls
    omega

theorem exists_send (data : RequestPayload.RequestData) (start : data.reqPayloadCursor = 0) :
    ∃ after sent, data.send .http2 [data.reqPayload.length] = some (after, sent) := by
  simp only [RequestPayload.RequestData.send, RequestPayload.read_eq (start.trans (Nat.zero_min _).symm)]
  rw [if_pos ((RequestPayload.chunkAt_eof_iff ..).mpr (by omega))]
  exact ⟨_, _, rfl⟩

theorem honest_iff (r : Outgoing) :
    Honest r ↔ ∀ value, r.sentAt contentLength = some value → Denotes value r.reqPayload.length := by
  simp only [Honest, Outgoing.mem_fields_iff]
  have size : (stored r).reqPayload.length = r.reqPayload.length := List.length_map ..
  refine forall₂_congr fun value _ => ⟨fun every => ?_, fun length protocol calls after sent ends => ?_⟩
  · obtain ⟨after, sent, ends⟩ := exists_send (stored r) rfl
    rw [← size, ← length_sent rfl ends]
    exact every _ _ after sent ends
  · rwa [length_sent rfl ends, size]

theorem denotes_toDigits (n : Nat) : Denotes (Nat.toDigits 10 n) n :=
  ⟨by simp, fun _ member => Nat.isDigit_of_mem_toDigits (by decide) (by decide) member,
    Nat.ofDigitChars_toDigits (by decide) (by decide)⟩

/-- `update_content_length` has the last word on a payload that is not empty. -/
theorem sentAt_finish {r : Outgoing} (filled : r.reqPayload ≠ []) (connection : Connection) :
    (finish connection r).sentAt contentLength = some (Nat.toDigits 10 r.reqPayload.length) := by
  have found := r.reqHeadersOfIndividual.lookup_assign contentLength (Nat.toDigits 10 r.reqPayload.length)
    contentLength
  rw [show lower contentLength = contentLength by decide, if_pos rfl] at found
  simp only [finish, LuaRequest.sanitizeRequest, LuaRequest.updateContentLength, if_neg filled, Outgoing.sentAt, fieldAt, found]
  exact visible_of_lookup found (by decide)

/-- **The length that is sent is that of the payload**, for every template, every value of its variables
and whatever a script returns, exactly when the payload that they give is not empty or the content-length
that they give, if any, denotes zero. -/
theorem contentLength_honest_iff {τ : Type} (template : Template τ) (assembleString : τ → Text) (path : Text)
    (cookies : Option Text) (connection : Connection) (script : Option (List LuaValue)) (r : Outgoing)
    (prepared : prepare connection script (template.populate assembleString path cookies) = some r) :
    Honest r ↔ givenPayload template assembleString script ≠ [] ∨
      ∀ value, givenLength template assembleString script = some value → Denotes value 0 := by
  rw [honest_iff]
  obtain ⟨before, updated, rfl⟩ := Option.map_eq_some_iff.mp prepared
  have returned : updateRequestWithLua (script.getD []) (template.populate assembleString path cookies) =
      some before := by
    cases script <;> exact updated
  obtain ⟨config, payload, length⟩ := updateRequestWithLua_given returned
  have same : (finish connection before).reqPayload = before.reqPayload := by
    simp only [finish, LuaRequest.sanitizeRequest, LuaRequest.updateContentLength]
    split <;> rfl
  have given : givenPayload template assembleString script = before.reqPayload := payload.symm
  rw [same, given]
  by_cases empty : before.reqPayload = []
  · have sent : (finish connection before).sentAt contentLength = givenLength template assembleString script := by
      have kept : (finish connection before).sentAt contentLength = before.sentAt contentLength := by
        simp only [finish, LuaRequest.sanitizeRequest, LuaRequest.updateContentLength, if_pos empty]
        rfl
      rw [kept, sentAt_contentLength, length, config, ownLength_populate]
      rfl
    simp [empty, sent]
  · have denotes := denotes_toDigits before.reqPayload.length
    simp only [sentAt_finish empty, Option.some.injEq, forall_eq', denotes, empty, not_false_eq_true, ne_eq, true_or]

def configured (payload : Text) : Template Text where
  method := "POST".toList
  schema := []
  authority := []
  tokenizedPayloadWithVars := payload
  headersInMap := HeaderMap.empty.assign "Content-Length".toList "5".toList
  headersWithVariable := []

def server : Connection := ⟨"http".toList, "a".toList, by decide⟩

/-- **Satisfiable pole:** the configured length of a payload is replaced. -/
theorem onePayloadByte_honest :
    ∃ r, prepare server none ((configured "a".toList).populate id [] none) = some r ∧ Honest r :=
  ⟨_, rfl, (contentLength_honest_iff (configured "a".toList) id [] none server none _ rfl).mpr (.inl (by decide))⟩

/-- **Refuting pole:** without a payload it is sent as it is. -/
theorem noPayload_not_honest :
    ∃ r, prepare server none ((configured []).populate id [] none) = some r ∧ ¬ Honest r := by
  refine ⟨_, rfl, fun honest => ?_⟩
  have five := (honest_iff _).mp honest "5".toList (by decide)
  exact absurd five.2.2 (by decide)

end H2LoadRunner.Load.PayloadLength
