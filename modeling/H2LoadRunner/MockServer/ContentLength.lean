/-
# MockServer.ContentLength -- whether a response says how long its body is

On a connection that stays open the client finds the end of a body by its `content-length`.
Two places announce it: `send_response` enters it into the header map when the payload is
not empty, the map has no such entry and there are no trailers, and `on_write` writes a line
for it when the map still has none and the size of the payload is not zero.  Both look for
the name in lower case as it is, and neither looks at the value of an entry that is there.

`contentLengths_perm` gives the fields of that name, in any letter case, that a response is
sent with; `announced_iff` says when there is exactly one and it is the length of the body.
An empty payload is never announced, and a name in another letter case is announced twice.
-/
import H2LoadRunner.MockServer.Http1Output
import H2LoadRunner.MockServer.Http1Request

namespace H2LoadRunner.MockServer.Http1

set_option autoImplicit false

/-! ## The fields of a response -/

def Stream.fields (strm : Stream) : List (Text × Text) :=
  (if strm.response.header.find "content-length".toList = none ∧ strm.response.payloadSize ≠ 0 then
      [("content-length".toList, decimal strm.response.payloadSize)]
    else []) ++
    strm.response.header.map fun entry => (entry.1, entry.2.value)

theorem Stream.headerLines_eq_fields (strm : Stream) :
    strm.headerLines = strm.fields.flatMap fun field => Stream.headerLine field.1 field.2 := by
  rw [headerLines, fields, List.flatMap_append, List.flatMap_map]
  congr 1
  split <;> simp

def isContentLength (name : Text) : Bool := name.map Char.toLower == "content-length".toList

def Stream.contentLengths (strm : Stream) : List Text :=
  (strm.fields.filter fun field => isContentLength field.1).map Prod.snd

def isBlank (c : Char) : Bool := c == ' ' || c == '\t'

def trimBlank (value : Text) : Text :=
  ((value.dropWhile isBlank).reverse.dropWhile isBlank).reverse

def fieldNumber (value : Text) : Option Nat :=
  if trimBlank value ≠ [] ∧ (trimBlank value).all Char.isDigit then
    some (Nat.ofDigitChars 10 (trimBlank value) 0)
  else none

/-- One field says how many bytes the body has. -/
def Stream.Announced (strm : Stream) : Prop :=
  ∃ value, strm.contentLengths = [value] ∧ fieldNumber value = some strm.body.length

theorem decimal_eq (n : Nat) : decimal n = Nat.toDigits 10 n := by
  rw [decimal, Nat.toString_eq_repr, Nat.toList_repr]

theorem trimBlank_digits {digits : Text} (all : ∀ c ∈ digits, c.isDigit = true) :
    trimBlank digits = digits := by
  have none : ∀ c ∈ digits, isBlank c = false := by
    intro c member
    have digit := all c member
    by_contra blank
    rw [Bool.not_eq_false, isBlank, Bool.or_eq_true, beq_iff_eq, beq_iff_eq] at blank
    rcases blank with rfl | rfl <;> revert digit <;> decide
  have kept : ∀ text : Text, (∀ c ∈ text, isBlank c = false) → text.dropWhile isBlank = text := by
    intro text clear
    cases text with
    | nil => rfl
    | cons c rest => rw [List.dropWhile_cons_of_neg (by simp [clear c])]
  rw [trimBlank, kept digits none, kept digits.reverse (fun c member =>
    none c (List.mem_reverse.mp member)), List.reverse_reverse]

theorem fieldNumber_decimal (n : Nat) : fieldNumber (decimal n) = some n := by
  have digits : ∀ c ∈ decimal n, c.isDigit = true := by
    intro c member
    rw [decimal_eq] at member
    exact Nat.isDigit_of_mem_toDigits (by decide) (by decide) member
  have filled : decimal n ≠ [] := by
    rw [decimal_eq]
    exact Nat.toDigits_ne_nil
  rw [fieldNumber, trimBlank_digits digits, if_pos ⟨filled, List.all_eq_true.mpr digits⟩, decimal_eq,
    Nat.ofDigitChars_toDigits (by decide) (by decide)]

/-! ## The entries of the header map -/

theorem headerMap_perm (headers : List (Text × Text)) : (Handler.headerMap headers).Perm
      (headers.map fun entry => (entry.1, (⟨entry.2, false⟩ : HeaderValue))) := by
  suffices all : ∀ map : HeaderMap,
      (headers.foldl (fun map entry => HeaderMap.emplace entry.1 ⟨entry.2, false⟩ map) map).Perm
        (headers.map (fun entry => (entry.1, (⟨entry.2, false⟩ : HeaderValue))) ++ map) by
    have whole := all []
    rwa [List.append_nil] at whole
  induction headers with
  | nil => exact fun map => List.Perm.refl _
  | cons entry rest ih =>
    intro map
    refine (ih _).trans ?_
    refine (List.Perm.append_left _ (map.emplace_perm entry.1 ⟨entry.2, false⟩)).trans ?_
    exact List.perm_middle

theorem HeaderMap.find_eq_none_iff (header : HeaderMap) (key : Text) :
    header.find key = none ↔ ∀ entry ∈ header, entry.1 ≠ key := by
  simp [HeaderMap.find]

/-! ## What is sent -/

theorem Handler.findStream_modifyResponse (h : Handler) (streamId : Int) (change : Response → Response) :
    (h.modifyResponse streamId change).findStream streamId =
      (h.findStream streamId).map fun strm => { strm with response := change strm.response } :=
  h.findStream_modifyStream streamId _ fun _ => rfl

theorem findStream_sendResponse {h : Handler} {streamId : Int} {strm : Stream}
    (found : h.findStream streamId = some strm) (fresh : strm.response.state = .initial)
    {statusCode : Nat} (answers : statusCode ≠ 0)
    (expects : expectResponseBody strm.request.method statusCode = true)
    (headers : List (Text × Text)) (payload : Text) (trailers : List (Text × Text)) :
    ∃ sent, (h.sendResponse streamId statusCode headers payload trailers).findStream streamId = some sent ∧
      sent.response.header = Handler.responseHeaders headers payload trailers ∧
      sent.response.payloadSize = payload.length ∧ sent.body = payload := by
  have name : strm.streamId = streamId := by simpa using List.find?_some found
  have started : ∀ h : Handler, (h.startResponse streamId).findStream streamId =
      h.findStream streamId := fun _ => rfl
  simp only [Handler.sendResponse, if_neg answers, Handler.respond, found, Handler.writeHead, fresh,
    ne_eq, not_true_eq_false, if_false, name, Handler.findStream_modifyResponse, started,
    Option.map_some]
  refine ⟨_, rfl, ?_⟩
  simp only [Stream.body, Stream.expectsBody]
  split <;> simp [Response.head, Response.endWith, expects]

/-- The headers of that name that the configuration or the Lua function gives. -/
def givenLengths (headers : List (Text × Text)) : List (Text × Text) :=
  headers.filter fun header => isContentLength header.1

/-- The name stands among the headers as `count` looks for it. -/
def HasExact (headers : List (Text × Text)) : Prop :=
  ∃ header ∈ headers, header.1 = "content-length".toList

instance (headers : List (Text × Text)) : Decidable (HasExact headers) :=
  inferInstanceAs (Decidable (∃ header ∈ headers, _))

theorem find_headerMap_eq_none_iff (headers : List (Text × Text)) :
    (Handler.headerMap headers).find "content-length".toList = none ↔ ¬ HasExact headers := by
  rw [HeaderMap.find_eq_none_iff]
  constructor
  · rintro missing ⟨header, member, same⟩
    refine missing (header.1, ⟨header.2, false⟩) ?_ same
    exact (headerMap_perm headers).mem_iff.mpr (List.mem_map.mpr ⟨header, member, rfl⟩)
  · intro missing entry member same
    obtain ⟨header, given, rfl⟩ := List.mem_map.mp ((headerMap_perm headers).mem_iff.mp member)
    exact missing ⟨header, given, same⟩

def lengthsIn (header : HeaderMap) : List Text :=
  ((header.map fun entry => (entry.1, entry.2.value)).filter fun field =>
    isContentLength field.1).map Prod.snd

theorem lengthsIn_perm {header other : HeaderMap} (perm : header.Perm other) :
    (lengthsIn header).Perm (lengthsIn other) :=
  ((perm.map _).filter _).map _

theorem lengthsIn_headerMap_perm (headers : List (Text × Text)) :
    (lengthsIn (Handler.headerMap headers)).Perm ((givenLengths headers).map Prod.snd) := by
  refine (lengthsIn_perm (headerMap_perm headers)).trans ?_
  have same : lengthsIn (headers.map fun entry => (entry.1, (⟨entry.2, false⟩ : HeaderValue))) =
      (givenLengths headers).map Prod.snd := by
    simp [lengthsIn, givenLengths, Function.comp_def]
  rw [same]

/-- Whichever of the two places announces the length, it is announced once, unless the name is
there in lower case or the payload is empty. -/
theorem contentLengths_perm {strm : Stream} {headers : List (Text × Text)} {payload : Text}
    {trailers : List (Text × Text)}
    (header : strm.response.header = Handler.responseHeaders headers payload trailers)
    (size : strm.response.payloadSize = payload.length) :
    strm.contentLengths.Perm ((if payload = [] ∨ HasExact headers then []
      else [decimal payload.length]) ++ (givenLengths headers).map Prod.snd) := by
  have given := lengthsIn_headerMap_perm headers
  have split : strm.contentLengths =
      (if strm.response.header.find "content-length".toList = none ∧ payload.length ≠ 0 then
        [decimal payload.length] else []) ++ lengthsIn strm.response.header := by
    rw [Stream.contentLengths, Stream.fields, List.filter_append, List.map_append, size]
    congr 1
    split <;> rfl
  have missing := find_headerMap_eq_none_iff headers
  rw [split, header]
  by_cases silent : payload = [] ∨ HasExact headers
  · have kept : Handler.responseHeaders headers payload trailers = Handler.headerMap headers := by
      rw [Handler.responseHeaders, if_neg]
      rintro ⟨filled, none, -⟩
      exact silent.elim filled (missing.mp none)
    have unwritten : ¬ ((Handler.headerMap headers).find "content-length".toList = none ∧
        payload.length ≠ 0) := by
      rintro ⟨none, filled⟩
      exact silent.elim (fun empty => filled (by simp [empty])) (missing.mp none)
    rw [kept, if_neg unwritten, if_pos silent]
    exact given
  · obtain ⟨filled, other⟩ := not_or.mp silent
    rw [if_neg silent]
    by_cases plain : trailers = []
    · -- `send_response` has entered it, so `on_write` finds it.
      have entered := HeaderMap.emplace_perm (Handler.headerMap headers) "content-length".toList
        ⟨decimal payload.length, false⟩
      have held : HeaderMap.find "content-length".toList ((Handler.headerMap headers).emplace
          "content-length".toList ⟨decimal payload.length, false⟩) ≠ none := by
        rw [ne_eq, HeaderMap.find_eq_none_iff]
        exact fun none => none _ (entered.mem_iff.mpr List.mem_cons_self) rfl
      have added : Handler.responseHeaders headers payload trailers =
          (Handler.headerMap headers).emplace "content-length".toList
            ⟨decimal payload.length, false⟩ := by
        rw [Handler.responseHeaders, if_pos ⟨filled, missing.mpr other, plain⟩]
        rfl
      rw [added, if_neg fun both => held both.1]
      exact (lengthsIn_perm entered).trans (given.cons _)
    · have kept : Handler.responseHeaders headers payload trailers = Handler.headerMap headers := by
        rw [Handler.responseHeaders, if_neg fun all => plain all.2.2]
      rw [kept, if_pos ⟨missing.mpr other, by simpa using filled⟩]
      exact given.cons _

/-- A header map that leaves it to the server to announce the length of a payload, or announces
it itself where the server sees it. -/
def AnnouncesLength (headers : List (Text × Text)) (payload : Text) : Prop :=
  (payload ≠ [] ∧ givenLengths headers = []) ∨
    ∃ name value, givenLengths headers = [(name, value)] ∧
      fieldNumber value = some payload.length ∧ (payload ≠ [] → name = "content-length".toList)

theorem hasExact_iff (headers : List (Text × Text)) :
    HasExact headers ↔ ∃ value, ("content-length".toList, value) ∈ givenLengths headers := by
  have named : isContentLength "content-length".toList = true := by decide
  constructor
  · rintro ⟨⟨name, value⟩, member, rfl⟩
    exact ⟨value, List.mem_filter.mpr ⟨member, named⟩⟩
  · rintro ⟨value, member⟩
    exact ⟨_, (List.mem_filter.mp member).1, rfl⟩

/-- What the fields of a response come to, in terms of what was given. -/
theorem announces_iff (headers : List (Text × Text)) (payload : Text) :
    (∃ value, (if payload = [] ∨ HasExact headers then [] else [decimal payload.length]) ++
        (givenLengths headers).map Prod.snd = [value] ∧
      fieldNumber value = some payload.length) ↔ AnnouncesLength headers payload := by
  by_cases silent : payload = [] ∨ HasExact headers
  · rw [if_pos silent, List.nil_append]
    constructor
    · rintro ⟨value, one, number⟩
      obtain ⟨⟨name, _⟩, given, rfl⟩ := List.map_eq_singleton_iff.mp one
      refine .inr ⟨name, _, given, number, fun filled => ?_⟩
      obtain ⟨other, member⟩ := (hasExact_iff headers).mp (silent.resolve_left filled)
      rw [given, List.mem_singleton] at member
      exact (Prod.mk.inj member).1.symm
    · rintro (⟨filled, none⟩ | ⟨name, value, given, number, -⟩)
      · obtain ⟨other, member⟩ := (hasExact_iff headers).mp (silent.resolve_left filled)
        rw [none] at member
        cases member
      · exact ⟨value, by rw [given]; rfl, number⟩
  · obtain ⟨filled, other⟩ := not_or.mp silent
    rw [if_neg silent]
    constructor
    · rintro ⟨value, one, -⟩
      exact .inl ⟨filled, by simpa using (List.cons.inj one).2⟩
    · rintro (⟨-, none⟩ | ⟨name, value, given, -, lower⟩)
      · exact ⟨decimal payload.length, by simp [none], fieldNumber_decimal _⟩
      · refine absurd ((hasExact_iff headers).mpr ⟨value, ?_⟩) other
        rw [given, lower filled, List.mem_singleton]

/-- **A response announces the length of its body** exactly when its payload is not empty and
no header of the name is given in any letter case, or exactly one is, with the right number, and
in lower case unless the payload is empty. -/
theorem announced_iff {h : Handler} {streamId : Int} {strm : Stream}
    (found : h.findStream streamId = some strm) (fresh : strm.response.state = .initial)
    {statusCode : Nat} (answers : statusCode ≠ 0)
    (expects : expectResponseBody strm.request.method statusCode = true)
    (headers : List (Text × Text)) (payload : Text) (trailers : List (Text × Text)) :
    ∃ sent, (h.sendResponse streamId statusCode headers payload trailers).findStream streamId = some sent ∧
      sent.message true = sent.statusLine true ++
        (sent.fields.flatMap fun field => Stream.headerLine field.1 field.2) ++ crlf ++ payload ∧
      (sent.Announced ↔ AnnouncesLength headers payload) := by
  obtain ⟨sent, held, header, size, body⟩ :=
    findStream_sendResponse found fresh answers expects headers payload trailers
  refine ⟨sent, held, ?_, ?_⟩
  · rw [Stream.message, Stream.headerLines_eq_fields, body]
  · rw [← announces_iff, Stream.Announced, body]
    have perm := contentLengths_perm header size
    refine exists_congr fun value => and_congr_left fun _ => ?_
    rw [← List.perm_singleton, ← List.perm_singleton]
    exact ⟨perm.symm.trans, perm.trans⟩

/-! ### The poles -/

def oneRequest (method : Text) : Handler where
  requestCount := 1
  streams := [{ streamId := 1, request := { method := method }, number := 1 }]
  begun := 1

theorem findStream_oneRequest (method : Text) :
    (oneRequest method).findStream 1 =
      some { streamId := 1, request := { method := method }, number := 1 } :=
  rfl

/-- **Satisfiable pole:** a payload without a header about its length. -/
theorem filledPayload_announced : ∃ sent, ((oneRequest "GET".toList).sendResponse 1 200
        [("server".toList, "mock".toList)] "hello".toList []).findStream 1 = some sent ∧ sent.Announced := by
  have answers : 200 ≠ 0 := by decide
  obtain ⟨sent, held, -, announced⟩ := announced_iff (findStream_oneRequest "GET".toList) rfl answers
    (by decide) [("server".toList, "mock".toList)] "hello".toList []
  exact ⟨sent, held, announced.mpr (.inl (by decide))⟩

/-- **Refuting pole:** an empty payload is not announced, and one announced as `Content-Length`
is announced twice. -/
theorem emptyPayload_not_announced :
    (∃ sent, ((oneRequest "GET".toList).sendResponse 1 200 [] [] []).findStream 1 = some sent ∧
        sent.expectsBody = true ∧ ¬ sent.Announced) ∧ ∃ sent, ((oneRequest "GET".toList).sendResponse 1 200
          [("Content-Length".toList, "5".toList)] "hello".toList []).findStream 1 = some sent ∧
        sent.expectsBody = true ∧ ¬ sent.Announced := by
  have counted : ∀ strm : Stream, strm.contentLengths.length ≠ 1 → ¬ strm.Announced := by
    rintro strm other ⟨value, one, -⟩
    exact other (congrArg List.length one)
  exact ⟨⟨_, rfl, by decide +kernel, counted _ (by decide +kernel)⟩,
    ⟨_, rfl, by decide +kernel, counted _ (by decide +kernel)⟩⟩

end H2LoadRunner.MockServer.Http1
