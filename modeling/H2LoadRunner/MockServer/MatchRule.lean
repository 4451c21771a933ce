/-
# MockServer.MatchRule -- one match rule of the mock server

A rule of a configured service names a header or a JSON pointer (or neither: the
raw payload), a verb and an object.  `evaluate` is what the rule says about a
message; `matchMessage` is the code's `Match_Rule::match`, which first looks for
an answer under the rule's `uniqueId` in the message's own table.

`lt` is `Match_Rule::operator<`.  Its last comparison concatenates the verb, the header name, the
pointer and the object without a separator, so two different rules may be neither below nor above
each other.

The library's regular expressions enter as `Engines`, and so does the value under a JSON pointer, which is
that of `getValueFromJsonPtr` (`MockServer.JsonPointers`) for the requests on which it returns one.
-/
import H2LoadRunner.Library.Memo
import H2LoadRunner.Library.OrderedSet

namespace H2LoadRunner.MockServer

open Library

set_option autoImplicit false

/-- What the rules call: `std::regex_match` of a subject against a pattern, and the value that
`getValueFromJsonPtr` gives for a payload and a pointer. -/
structure Engines where
  regexMatch : (subject pattern : String) → Bool
  jsonValue : (payload pointer : String) → String

/-! ## Configuration -/

structure SchemaHeaderMatch where
  matchType : String
  header : String
  input : String

structure SchemaPayloadMatch where
  matchType : String
  jsonPointer : String
  input : String

/-- The `Request` part of a configured service. -/
structure SchemaRequestMatch where
  headerMatch : List SchemaHeaderMatch
  payloadMatch : List SchemaPayloadMatch
  name : String

inductive MatchType where
  | equalsTo
  | startWith
  | endWith
  | contains
  | regexMatch
  deriving DecidableEq

def MatchType.toDigit : MatchType → String
  | .equalsTo => "0"
  | .startWith => "1"
  | .endWith => "2"
  | .contains => "3"
  | .regexMatch => "4"

/-- Lookup in `string_to_match_type`; an unknown name default-initialises the
entry, which is `EQUALS_TO`. -/
def stringToMatchType : String → MatchType
  | "EqualsTo" => .equalsTo
  | "StartsWith" => .startWith
  | "EndsWith" => .endWith
  | "Contains" => .contains
  | "RegexMatch" => .regexMatch
  | _ => .equalsTo

structure MatchRule where
  matchType : MatchType
  headerName : String
  jsonPointer : String
  object : String
  /-- Assigned once the whole configuration is known. -/
  uniqueId : Nat := 0
  deriving DecidableEq

namespace MatchRule

def ofHeaderMatch (headerMatch : SchemaHeaderMatch) : MatchRule where
  matchType := stringToMatchType headerMatch.matchType
  headerName := headerMatch.header
  jsonPointer := ""
  object := headerMatch.input

def ofPayloadMatch (payloadMatch : SchemaPayloadMatch) : MatchRule where
  matchType := stringToMatchType payloadMatch.matchType
  headerName := ""
  jsonPointer := payloadMatch.jsonPointer
  object := payloadMatch.input

end MatchRule

/-- A received request.  `matchResult` is the table `Match_Rule::match` fills. -/
structure RequestMessage where
  headers : List (String × String)
  rawPayload : String
  matchResult : List (Nat × Bool)

def RequestMessage.received (headers : List (String × String)) (payload : String) : RequestMessage where
  headers := headers
  rawPayload := payload
  matchResult := []

namespace MatchRule

/-! ## What a rule says about a message -/

def matchSubject (engines : Engines) (rule : MatchRule) (subject : String) : Bool :=
  match rule.matchType with
  | .equalsTo => subject == rule.object
  | .startWith => rule.object.toList.isPrefixOf subject.toList
  | .endWith => rule.object.toList.isSuffixOf subject.toList
  | .contains => subject.toList.tails.any (rule.object.toList.isPrefixOf ·)
  | .regexMatch => engines.regexMatch subject rule.object

/-- Fresh evaluation: some value of the named header, the value under the
pointer, or the raw payload. -/
def evaluate (engines : Engines) (message : RequestMessage) (rule : MatchRule) : Bool :=
  if rule.headerName ≠ "" then
    (message.headers.filter (·.1 == rule.headerName)).any
      fun header => rule.matchSubject engines header.2
  else if rule.jsonPointer ≠ "" then
    rule.matchSubject engines (engines.jsonValue message.rawPayload rule.jsonPointer)
  else
    rule.matchSubject engines message.rawPayload

def matchMessage (engines : Engines) (rule : MatchRule) (message : RequestMessage) :
    Bool × RequestMessage :=
  match message.matchResult.lookup rule.uniqueId with
  | some matched => (matched, message)
  | none =>
    let matched := rule.evaluate engines message
    (matched, { message with matchResult := (rule.uniqueId, matched) :: message.matchResult })

theorem evaluate_uniqueId (engines : Engines) (message : RequestMessage) (rule : MatchRule) (identifier : Nat) :
    evaluate engines message { rule with uniqueId := identifier } =
      evaluate engines message rule := by
  cases rule
  rfl

/-- The code's memoised match is a table consultation under `uniqueId`. -/
theorem matchMessage_eq_consult (engines : Engines) (rule : MatchRule) (message : RequestMessage) :
    rule.matchMessage engines message =
      ((Memo.consult uniqueId (evaluate engines message) rule message.matchResult).1,
        { message with matchResult :=
            (Memo.consult uniqueId (evaluate engines message) rule message.matchResult).2 }) := by
  cases recorded : message.matchResult.lookup rule.uniqueId <;>
    simp [matchMessage, Memo.consult, recorded]

/-! ## The order of rules -/

/-- The text the last comparison of `operator<` reads. -/
def concatenation (rule : MatchRule) : String :=
  rule.matchType.toDigit ++ rule.headerName ++ rule.jsonPointer ++ rule.object

def lt (rule other : MatchRule) : Bool :=
  if rule.headerName ≠ "" ∧ other.headerName = "" then false
  else if rule.headerName = "" ∧ other.headerName ≠ "" then true
  else if rule.matchType = .equalsTo ∧ other.matchType ≠ .equalsTo then false
  else if other.matchType = .equalsTo ∧ rule.matchType ≠ .equalsTo then true
  else decide (rule.concatenation < other.concatenation)

/-- The key `operator<` compares by: payload rules first, then the rules with a
verb other than equality, then the concatenated text. -/
def sortKey (rule : MatchRule) : Bool ×ₗ Bool ×ₗ String :=
  toLex (decide (rule.headerName ≠ ""),
    toLex (decide (rule.matchType = .equalsTo), rule.concatenation))

theorem byKey_sortKey : OrderedSet.ByKey lt sortKey := by
  intro rule other
  simp only [lt, sortKey, Prod.Lex.toLex_lt_toLex]
  by_cases named : rule.headerName = "" <;> by_cases otherNamed : other.headerName = "" <;>
    by_cases equality : rule.matchType = .equalsTo <;>
    by_cases otherEquality : other.matchType = .equalsTo <;>
    simp [named, otherNamed, equality, otherEquality]

theorem sortKey_uniqueId (rule : MatchRule) (identifier : Nat) :
    sortKey { rule with uniqueId := identifier } = sortKey rule :=
  rfl

end MatchRule

end H2LoadRunner.MockServer
