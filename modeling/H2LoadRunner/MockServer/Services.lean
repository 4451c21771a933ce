/-
# MockServer.Services -- which configured service answers a message

`H2Server` keeps its services in a map ordered by the number of their rules and
then by the rules themselves, numbers the rules of all services, and answers a
message with the first service from the greatest end whose rules all match.

Both the rule set of a service and the service map are ordered containers, so
they keep one of several entries their comparators cannot tell apart.  The
intended reading is `MatchedProperly`: the answer is a service whose configured
rules all hold, the refusal is exact, and no satisfied service has more distinct
rules.  It holds whenever the configuration is `Distinguished`, that is, whenever
rules that `operator<` leaves unordered are the same rule
(`matchedProperly_of_distinguished`).

The memo table is keyed by the number of a rule, which is its position among the
rules of all services.  `memoTransparent_iff` says that it is transparent for
every engine exactly when the rules the server kept are distinguished.
-/
import H2LoadRunner.MockServer.MatchRule

namespace H2LoadRunner.MockServer

open Library

set_option autoImplicit false

variable {left right : MatchRule} {requestMatch : SchemaRequestMatch}

/-! ## The server -/

/-- The rules a service is configured with: its header rules, then its payload
rules. -/
def SchemaRequestMatch.configuredRules (requestMatch : SchemaRequestMatch) : List MatchRule :=
  requestMatch.headerMatch.map MatchRule.ofHeaderMatch ++
    requestMatch.payloadMatch.map MatchRule.ofPayloadMatch

/-- `H2Server_Request`: `matchRules` is a `std::set<Match_Rule>`. -/
structure H2ServerRequest where
  matchRules : List MatchRule
  name : String
  requestIndex : Nat

namespace H2ServerRequest

def ofSchema (requestMatch : SchemaRequestMatch) (index : Nat) : H2ServerRequest where
  matchRules := OrderedSet.ofList MatchRule.lt requestMatch.configuredRules
  name := requestMatch.name
  requestIndex := index

/-- The loop of `H2Server_Request::match`, over the rules from the greatest. -/
def matchLoop (engines : Engines) : List MatchRule → RequestMessage → Bool × RequestMessage
  | [], message => (true, message)
  | rule :: rules, message =>
    match rule.matchMessage engines message with
    | (true, message) => matchLoop engines rules message
    | (false, message) => (false, message)

def matchMessage (engines : Engines) (request : H2ServerRequest) (message : RequestMessage) :
    Bool × RequestMessage :=
  matchLoop engines request.matchRules.reverse message

/-- The loop of `H2Server_Request::operator<`, over two rule sequences from the
greatest. -/
def ltLoop : List MatchRule → List MatchRule → Bool
  | rule :: rules, other :: others =>
    if rule.lt other then true
    else if other.lt rule then false
    else ltLoop rules others
  | _, _ => false

def lt (request other : H2ServerRequest) : Bool :=
  if request.matchRules.length < other.matchRules.length then true
  else if other.matchRules.length < request.matchRules.length then false
  else ltLoop request.matchRules.reverse other.matchRules.reverse

end H2ServerRequest

/-- `H2Server`: `services` is a `std::map<H2Server_Request, H2Server_Response_Group>`
in increasing order.  The response group of an entry is found by its
`requestIndex`. -/
structure H2Server where
  services : List H2ServerRequest

namespace H2Server

def allMatchRules (services : List H2ServerRequest) : List MatchRule :=
  OrderedSet.ofList MatchRule.lt (services.flatMap H2ServerRequest.matchRules)

/-- A rule with its position among `all` as identifier. -/
def numbered (all : List MatchRule) (rule : MatchRule) : MatchRule :=
  { rule with uniqueId := OrderedSet.position MatchRule.lt rule all }

def numberedRequest (all : List MatchRule) (request : H2ServerRequest) : H2ServerRequest :=
  { request with matchRules := request.matchRules.map (numbered all) }

def buildMatchRuleUniqueId (services : List H2ServerRequest) : List H2ServerRequest :=
  OrderedSet.ofList H2ServerRequest.lt
    (services.map (numberedRequest (allMatchRules services)))

def insertedServices (config : List SchemaRequestMatch) : List H2ServerRequest :=
  OrderedSet.ofList H2ServerRequest.lt
    (config.zipIdx.map fun (requestMatch, index) => H2ServerRequest.ofSchema requestMatch index)

def ofConfig (config : List SchemaRequestMatch) : H2Server where
  services := buildMatchRuleUniqueId (insertedServices config)

/-- The loop of `get_matched_request`, over the services from the greatest. -/
def matchedLoop (engines : Engines) :
    List H2ServerRequest → RequestMessage → Option H2ServerRequest × RequestMessage
  | [], message => (none, message)
  | request :: requests, message =>
    match request.matchMessage engines message with
    | (true, message) => (some request, message)
    | (false, message) => matchedLoop engines requests message

def getMatchedRequest (engines : Engines) (server : H2Server) (message : RequestMessage) :
    Option H2ServerRequest × RequestMessage :=
  matchedLoop engines server.services.reverse message

/-- `matched_request_index`, with `none` for the source's `-1`. -/
def matchedRequestIndex (engines : Engines) (server : H2Server) (message : RequestMessage) :
    Option Nat :=
  (server.getMatchedRequest engines message).1.map H2ServerRequest.requestIndex

end H2Server

/-! ## The order of services -/

namespace H2ServerRequest

/-- The key `H2Server_Request::operator<` compares by: the number of rules, then
the rules from the greatest. -/
def requestKey (request : H2ServerRequest) : Nat ×ₗ List (Bool ×ₗ Bool ×ₗ String) :=
  toLex (request.matchRules.length, request.matchRules.reverse.map MatchRule.sortKey)

theorem ltLoop_iff (rules others : List MatchRule) (sameLength : rules.length = others.length) :
    ltLoop rules others = true ↔ rules.map MatchRule.sortKey < others.map MatchRule.sortKey := by
  induction rules generalizing others with
  | nil =>
    cases others with
    | nil => simp [ltLoop]
    | cons other others => simp at sameLength
  | cons rule rules ih =>
    cases others with
    | nil => simp at sameLength
    | cons other others =>
      have below := MatchRule.byKey_sortKey rule other
      have above := MatchRule.byKey_sortKey other rule
      rw [List.map_cons, List.map_cons, List.cons_lt_cons_iff,
        ← ih others (by simpa using sameLength), ltLoop, ← below]
      by_cases less : rule.lt other = true
      · simp [less]
      · by_cases greater : other.lt rule = true
        · have differ : rule.sortKey ≠ other.sortKey := (above.mp greater).ne'
          simp [less, greater, differ]
        · have equal : rule.sortKey = other.sortKey :=
            le_antisymm (not_lt.mp (above.not.mp greater)) (not_lt.mp (below.not.mp less))
          simp [less, greater, equal]

theorem byKey_requestKey : OrderedSet.ByKey lt requestKey := by
  intro request other
  simp only [lt, requestKey, Prod.Lex.toLex_lt_toLex]
  rcases lt_trichotomy request.matchRules.length other.matchRules.length with less | same | greater
  · simp [less]
  · have loop := ltLoop_iff request.matchRules.reverse other.matchRules.reverse (by simpa using same)
    simpa [same] using loop
  · simp [greater, greater.not_gt, greater.ne']

end H2ServerRequest

/-- **Both comparators are strict weak orders**, and from the greatest end a map of services has those
with more rules first. -/
theorem orders_valid : OrderedSet.StrictWeakOrder MatchRule.lt ∧ OrderedSet.StrictWeakOrder H2ServerRequest.lt ∧
      ∀ services : List H2ServerRequest, (OrderedSet.ofList H2ServerRequest.lt services).reverse.Pairwise
        fun first later => later.matchRules.length ≤ first.matchRules.length := by
  refine ⟨MatchRule.byKey_sortKey.strictWeakOrder, H2ServerRequest.byKey_requestKey.strictWeakOrder, ?_⟩
  intro services
  rw [List.pairwise_reverse]
  refine (OrderedSet.sorted_ofList H2ServerRequest.byKey_requestKey services).imp ?_
  intro request other below
  rcases Prod.Lex.toLex_lt_toLex.mp below with fewer | ⟨same, -⟩
  · exact fewer.le
  · exact same.le

namespace H2Server

/-! ## Numbered rules -/

def rules (server : H2Server) : Set MatchRule :=
  { rule | ∃ request ∈ server.services, rule ∈ request.matchRules }

theorem requestKey_numberedRequest (all : List MatchRule) (request : H2ServerRequest) :
    (numberedRequest all request).requestKey = request.requestKey := by
  simp [H2ServerRequest.requestKey, numberedRequest, ← List.map_reverse, Function.comp_def,
    numbered, MatchRule.sortKey_uniqueId]

theorem sorted_numbered (config : List SchemaRequestMatch) (all : List MatchRule) :
    OrderedSet.Sorted H2ServerRequest.requestKey ((insertedServices config).map (numberedRequest all)) := by
  have sorted : OrderedSet.Sorted H2ServerRequest.requestKey (insertedServices config) :=
    OrderedSet.sorted_ofList H2ServerRequest.byKey_requestKey _
  refine List.pairwise_map.mpr (sorted.imp ?_)
  intro request other below
  simpa [requestKey_numberedRequest] using below

/-- Numbering neither drops nor reorders a service. -/
theorem services_ofConfig (config : List SchemaRequestMatch) :
    (ofConfig config).services =
      (insertedServices config).map (numberedRequest (allMatchRules (insertedServices config))) :=
  OrderedSet.ofList_of_sorted H2ServerRequest.byKey_requestKey (sorted_numbered config _)

theorem sorted_services (config : List SchemaRequestMatch) :
    OrderedSet.Sorted H2ServerRequest.requestKey (ofConfig config).services := by
  rw [services_ofConfig]
  exact sorted_numbered config _

theorem exists_configured_of_mem_rules {config : List SchemaRequestMatch} {rule : MatchRule}
    (kept : rule ∈ (ofConfig config).rules) :
    ∃ requestMatch ∈ config, ∃ configured ∈ requestMatch.configuredRules,
      (∃ request ∈ insertedServices config, configured ∈ request.matchRules) ∧
      rule = numbered (allMatchRules (insertedServices config)) configured := by
  obtain ⟨request, member, inRequest⟩ := kept
  rw [services_ofConfig, List.mem_map] at member
  obtain ⟨original, inserted, rfl⟩ := member
  obtain ⟨configured, inOriginal, rfl⟩ := List.mem_map.mp inRequest
  obtain ⟨⟨requestMatch, index⟩, zipped, rfl⟩ := List.mem_map.mp (OrderedSet.mem_of_mem_ofList inserted)
  exact ⟨requestMatch, List.fst_mem_of_mem_zipIdx zipped, configured,
    OrderedSet.mem_of_mem_ofList inOriginal, ⟨_, inserted, inOriginal⟩, rfl⟩

/-- Two kept rules carry one number exactly when `operator<` leaves them
unordered. -/
theorem uniqueId_eq_iff {config : List SchemaRequestMatch}
    (leftKept : left ∈ (ofConfig config).rules) (rightKept : right ∈ (ofConfig config).rules) :
    left.uniqueId = right.uniqueId ↔ left.sortKey = right.sortKey := by
  obtain ⟨-, -, leftRule, -, ⟨request, inserted, inRequest⟩, rfl⟩ :=
    exists_configured_of_mem_rules leftKept
  obtain ⟨-, -, rightRule, -, -, rfl⟩ := exists_configured_of_mem_rules rightKept
  have offered : leftRule ∈ (insertedServices config).flatMap H2ServerRequest.matchRules :=
    List.mem_flatMap.mpr ⟨request, inserted, inRequest⟩
  exact OrderedSet.position_eq_iff MatchRule.byKey_sortKey
    (OrderedSet.exists_key_mem_ofList MatchRule.byKey_sortKey offered)

/-! ## The memo table -/

def matchSequence (engines : Engines) : List MatchRule → RequestMessage → List Bool
  | [], _ => []
  | rule :: rules, message =>
    (rule.matchMessage engines message).1 ::
      matchSequence engines rules (rule.matchMessage engines message).2

theorem matchSequence_eq_consultAll (engines : Engines) (sequence : List MatchRule) (message : RequestMessage) :
    matchSequence engines sequence message =
      Memo.consultAll MatchRule.uniqueId (MatchRule.evaluate engines message) sequence message.matchResult := by
  induction sequence generalizing message with
  | nil => rfl
  | cons rule rest ih =>
    rw [matchSequence, Memo.consultAll, ih, MatchRule.matchMessage_eq_consult]
    rfl

/-- The memo table answers what fresh evaluation would, on every message and in
every order of evaluation, and a number is shared only by rules that agree on
every message. -/
structure MemoTransparent (engines : Engines) (server : H2Server) : Prop where
  answers : ∀ headers payload (sequence : List MatchRule),
    (∀ rule ∈ sequence, rule ∈ server.rules) →
      matchSequence engines sequence (.received headers payload) =
        sequence.map (MatchRule.evaluate engines (.received headers payload))
  identifiers : ∀ left ∈ server.rules, ∀ right ∈ server.rules, left.uniqueId = right.uniqueId →
    ∀ message, MatchRule.evaluate engines message left = MatchRule.evaluate engines message right

/-- Rules that `operator<` leaves unordered are the same rule. -/
def Distinguished (rules : Set MatchRule) : Prop :=
  ∀ left ∈ rules, ∀ right ∈ rules, left.lt right = false → right.lt left = false → left = right

end H2Server

namespace MatchRule

theorem sortKey_eq_iff_unordered (left right : MatchRule) :
    left.sortKey = right.sortKey ↔ left.lt right = false ∧ right.lt left = false := by
  rw [← OrderedSet.equivalent_iff byKey_sortKey]
  simp [OrderedSet.equivalent]

theorem sortKey_injOn_of_distinguished {rules : Set MatchRule}
    (distinguished : H2Server.Distinguished rules) : Set.InjOn sortKey rules := by
  intro left leftMember right rightMember same
  obtain ⟨below, above⟩ := (sortKey_eq_iff_unordered left right).mp same
  exact distinguished left leftMember right rightMember below above

def WellFormed (rule : MatchRule) : Prop := rule.headerName ≠ "" → rule.jsonPointer = ""

theorem wellFormed_of_configured {rule : MatchRule}
    (configured : rule ∈ requestMatch.configuredRules) : rule.WellFormed := by
  intro named
  rcases List.mem_append.mp configured with header | payload
  · obtain ⟨headerMatch, -, rfl⟩ := List.mem_map.mp header
    rfl
  · obtain ⟨payloadMatch, -, rfl⟩ := List.mem_map.mp payload
    exact absurd rfl named

/-! ## Unordered rules that differ disagree somewhere -/

theorem matchSubject_object (engines : Engines) (rule : MatchRule)
    (regex : engines.regexMatch rule.object rule.object = true) :
    rule.matchSubject engines rule.object = true := by
  cases verb : rule.matchType with
  | contains =>
    have whole : rule.object.toList ∈ rule.object.toList.tails :=
      (List.mem_tails _ _).mpr (List.suffix_refl _)
    simp only [matchSubject, verb, List.any_eq_true, List.isPrefixOf_iff_prefix]
    exact ⟨_, whole, List.prefix_refl _⟩
  | _ => simp [matchSubject, verb, regex]

theorem matchSubject_empty (engines : Engines) (rule : MatchRule) (object : rule.object ≠ "")
    (regex : engines.regexMatch "" rule.object = false) : rule.matchSubject engines "" = false := by
  have nonempty : rule.object.toList ≠ [] := by simpa using object
  cases verb : rule.matchType <;>
    simp [matchSubject, verb, regex, object.symm, nonempty, Bool.eq_false_iff]

/-- The same verb and the same texts in a row, cut at different places. -/
theorem texts_of_sortKey_eq (same : left.sortKey = right.sortKey) :
    left.matchType = right.matchType ∧ (left.headerName = "" ↔ right.headerName = "") ∧
      left.headerName.toList ++ left.jsonPointer.toList ++ left.object.toList =
        right.headerName.toList ++ right.jsonPointer.toList ++ right.object.toList := by
  simp only [sortKey, EmbeddingLike.apply_eq_iff_eq, Prod.mk.injEq] at same
  obtain ⟨named, -, texts⟩ := same
  have lists := congrArg String.toList texts
  simp only [concatenation, String.toList_append] at lists
  refine ⟨?_, by simpa [not_iff_not] using named, ?_⟩
  · cases leftVerb : left.matchType <;> cases rightVerb : right.matchType <;>
      first
      | rfl
      | simp [leftVerb, rightVerb, MatchType.toDigit] at lists
  · cases leftVerb : left.matchType <;> cases rightVerb : right.matchType <;>
      simp [leftVerb, rightVerb, MatchType.toDigit] at lists <;> simpa using lists

/-- Two header rules cut at different places: a message carrying the first one's
header satisfies the first and has no header for the second. -/
theorem header_disagreement (leftNamed : left.headerName ≠ "") (rightNamed : right.headerName ≠ "")
    (differ : left.headerName ≠ right.headerName) :
    ∃ engines headers payload, evaluate engines (.received headers payload) left ≠
        evaluate engines (.received headers payload) right := by
  let engines : Engines := ⟨fun _ _ => true, fun _ _ => ""⟩
  refine ⟨engines, [(left.headerName, left.object)], "", ?_⟩
  have first := matchSubject_object engines left rfl
  simp [evaluate, RequestMessage.received, leftNamed, rightNamed, differ, first]

/-- Two payload rules, the first with the longer object: nothing is under its
pointer and the second one's object is under the other. -/
theorem payload_disagreement (leftUnnamed : left.headerName = "")
    (rightUnnamed : right.headerName = "") (pointer : right.jsonPointer ≠ "")
    (pointers : left.jsonPointer ≠ right.jsonPointer) (object : left.object ≠ "")
    (objects : left.object ≠ right.object) :
    ∃ engines headers payload, evaluate engines (.received headers payload) left ≠
        evaluate engines (.received headers payload) right := by
  let engines : Engines := ⟨fun _ pattern => pattern == right.object,
    fun _ path => if path = right.jsonPointer then right.object else ""⟩
  refine ⟨engines, [], "", ?_⟩
  have second := matchSubject_object engines right (by simp [engines])
  have first := matchSubject_empty engines left object (by simpa [engines] using objects)
  by_cases raw : left.jsonPointer = "" <;>
    simp [evaluate, RequestMessage.received, engines, leftUnnamed, rightUnnamed, pointer, pointers,
      raw, first, second]

/-- Rules that `operator<` leaves unordered and that are not the same rule
disagree on some message under some engine. -/
theorem exists_disagreement (leftFormed : left.WellFormed) (rightFormed : right.WellFormed)
    (identifiers : left.uniqueId = right.uniqueId) (same : left.sortKey = right.sortKey)
    (differ : left ≠ right) : ∃ engines headers payload, evaluate engines (.received headers payload) left ≠
        evaluate engines (.received headers payload) right := by
  obtain ⟨verbs, named, texts⟩ := texts_of_sortKey_eq same
  by_cases leftNamed : left.headerName = ""
  · have rightNamed : right.headerName = "" := named.mp leftNamed
    simp only [leftNamed, rightNamed, String.toList_empty, List.nil_append] at texts
    have pointers : left.jsonPointer ≠ right.jsonPointer := by
      intro equal
      rw [equal, List.append_cancel_left_eq] at texts
      refine differ ?_
      cases left
      cases right
      simp_all [String.toList_inj]
    have objects : left.object ≠ right.object := by
      intro equal
      rw [equal, List.append_cancel_right_eq] at texts
      exact pointers (String.toList_inj.mp texts)
    have lengths := congrArg List.length texts
    simp only [List.length_append] at lengths
    have total : left.object.toList.length ≠ right.object.toList.length := by
      intro equal
      have cut := List.append_inj' texts equal
      exact objects (String.toList_inj.mp cut.2)
    have nonempty : ∀ {text : String}, 0 < text.toList.length → text ≠ "" := by
      rintro text positive rfl
      simp at positive
    rcases Nat.lt_or_gt_of_ne total with shorter | longer
    · obtain ⟨engines, headers, payload, disagree⟩ := payload_disagreement rightNamed leftNamed
        (nonempty (by omega)) pointers.symm (nonempty (by omega)) objects.symm
      exact ⟨engines, headers, payload, disagree.symm⟩
    · exact payload_disagreement leftNamed rightNamed (nonempty (by omega)) pointers
        (nonempty (by omega)) objects
  · have rightNamed : right.headerName ≠ "" := fun unnamed => leftNamed (named.mpr unnamed)
    rw [leftFormed leftNamed, rightFormed rightNamed] at texts
    refine header_disagreement leftNamed rightNamed fun headers => differ ?_
    have leftPointer := leftFormed leftNamed
    have rightPointer := rightFormed rightNamed
    cases left
    cases right
    simp_all [String.toList_inj]

end MatchRule

namespace H2Server

/-! ## When the memo table is transparent -/

theorem wellFormed_of_mem_rules {config : List SchemaRequestMatch} {rule : MatchRule}
    (kept : rule ∈ (ofConfig config).rules) : rule.WellFormed := by
  obtain ⟨requestMatch, -, configured, member, -, rfl⟩ := exists_configured_of_mem_rules kept
  have formed : configured.WellFormed := MatchRule.wellFormed_of_configured member
  exact formed

theorem faithful_of_distinguished {config : List SchemaRequestMatch}
    (distinguished : Distinguished (ofConfig config).rules) (engines : Engines) (message : RequestMessage) :
    Memo.Faithful MatchRule.uniqueId (MatchRule.evaluate engines message) (ofConfig config).rules := by
  intro left leftKept right rightKept identifiers
  have same := (uniqueId_eq_iff leftKept rightKept).mp identifiers
  rw [MatchRule.sortKey_injOn_of_distinguished distinguished leftKept rightKept same]

/-- **The memo table is transparent exactly when the kept rules are
distinguished.** -/
theorem memoTransparent_iff (config : List SchemaRequestMatch) :
    (∀ engines, MemoTransparent engines (ofConfig config)) ↔ Distinguished (ofConfig config).rules := by
  constructor
  · intro transparent left leftKept right rightKept below above
    by_contra differ
    have same := (MatchRule.sortKey_eq_iff_unordered left right).mpr ⟨below, above⟩
    have identifiers := (uniqueId_eq_iff leftKept rightKept).mpr same
    obtain ⟨engines, headers, payload, disagree⟩ := MatchRule.exists_disagreement
      (wellFormed_of_mem_rules leftKept) (wellFormed_of_mem_rules rightKept) identifiers same differ
    exact disagree ((transparent engines).identifiers left leftKept right rightKept identifiers _)
  · intro distinguished engines
    refine ⟨fun headers payload sequence within => ?_, ?_⟩
    · rw [matchSequence_eq_consultAll]
      exact Memo.consultAll_eq_map_iff.mpr
        (faithful_of_distinguished distinguished engines _) sequence within
    · intro left leftKept right rightKept identifiers message
      exact faithful_of_distinguished distinguished engines message left leftKept right rightKept
        identifiers

/-- Refuting pole: two services, one asking for header `a` equal to `bc` and one
for header `ab` equal to `c` and a further header. -/
def sharedNumberConfig : List SchemaRequestMatch :=
  [⟨[⟨"EqualsTo", "a", "bc"⟩], [], "first"⟩,
    ⟨[⟨"EqualsTo", "ab", "c"⟩, ⟨"EqualsTo", "x", "y"⟩], [], "second"⟩]

/-- On a message with header `a: bc` the second service's rule for `ab` answers
from the first one's entry. -/
theorem sharedNumberConfig_not_memoTransparent :
    ¬ MemoTransparent ⟨fun _ _ => false, fun _ _ => ""⟩ (ofConfig sharedNumberConfig) := by
  intro transparent
  have kept : ∀ request ∈ (ofConfig sharedNumberConfig).services, ∀ rule ∈ request.matchRules,
      rule ∈ (ofConfig sharedNumberConfig).rules := fun request member rule inRequest =>
    ⟨request, member, inRequest⟩
  have answers := transparent.answers [("a", "bc")] ""
    ((ofConfig sharedNumberConfig).services.flatMap H2ServerRequest.matchRules)
    fun rule member => by
      obtain ⟨request, inServer, inRequest⟩ := List.mem_flatMap.mp member
      exact kept request inServer rule inRequest
  revert answers
  decide

/-! ## Which service is selected -/

/-- All configured rules of a service hold of the message. -/
def Satisfied (engines : Engines) (message : RequestMessage)
    (requestMatch : SchemaRequestMatch) : Prop :=
  ∀ rule ∈ requestMatch.configuredRules, rule.evaluate engines message = true

instance (engines : Engines) (message : RequestMessage) (requestMatch : SchemaRequestMatch) :
    Decidable (Satisfied engines message requestMatch) :=
  inferInstanceAs (Decidable (∀ rule ∈ requestMatch.configuredRules,
    rule.evaluate engines message = true))

def distinctRules (requestMatch : SchemaRequestMatch) : Nat :=
  requestMatch.configuredRules.dedup.length

/-- What `get_matched_request` is for. -/
structure MatchedProperly (engines : Engines) (config : List SchemaRequestMatch)
    (message : RequestMessage) : Prop where
  /-- The service answered with has all its configured rules satisfied. -/
  satisfied : ∀ index, (ofConfig config).matchedRequestIndex engines message = some index →
    ∃ requestMatch, config[index]? = some requestMatch ∧ Satisfied engines message requestMatch
  /-- No service is answered with only when none is satisfied. -/
  refused : (ofConfig config).matchedRequestIndex engines message = none →
    ∀ requestMatch ∈ config, ¬ Satisfied engines message requestMatch
  /-- No satisfied service has more distinct rules than the one answered with. -/
  largest : ∀ index requestMatch,
    (ofConfig config).matchedRequestIndex engines message = some index →
    config[index]? = some requestMatch →
    ∀ other ∈ config, Satisfied engines message other →
      distinctRules other ≤ distinctRules requestMatch

def configuredRules (config : List SchemaRequestMatch) : Set MatchRule :=
  { rule | ∃ requestMatch ∈ config, rule ∈ requestMatch.configuredRules }

theorem matchLoop_eq_allConsult (engines : Engines) (rules : List MatchRule) (message : RequestMessage) :
    H2ServerRequest.matchLoop engines rules message =
      ((Memo.allConsult MatchRule.uniqueId (MatchRule.evaluate engines message) rules message.matchResult).1,
        { message with matchResult :=
            (Memo.allConsult MatchRule.uniqueId (MatchRule.evaluate engines message) rules
              message.matchResult).2 }) := by
  induction rules generalizing message with
  | nil => rfl
  | cons rule rest ih =>
    rw [H2ServerRequest.matchLoop, Memo.allConsult, MatchRule.matchMessage_eq_consult]
    rcases Memo.consult MatchRule.uniqueId (MatchRule.evaluate engines message) rule
      message.matchResult with ⟨matched, table⟩
    cases matched with
    | false => rfl
    | true => exact ih { message with matchResult := table }

/-- With faithful numbers the search is the plain search for a service whose kept
rules all hold. -/
theorem matchedLoop_eq_find (engines : Engines) (rules : Set MatchRule)
    (requests : List H2ServerRequest) (message : RequestMessage)
    (within : ∀ request ∈ requests, ∀ rule ∈ request.matchRules, rule ∈ rules)
    (faithful : Memo.Faithful MatchRule.uniqueId (MatchRule.evaluate engines message) rules)
    (sound : Memo.Sound MatchRule.uniqueId (MatchRule.evaluate engines message) rules message.matchResult) :
    (matchedLoop engines requests message).1 =
      requests.find? fun request =>
        request.matchRules.reverse.all (MatchRule.evaluate engines message) := by
  induction requests generalizing message with
  | nil => rfl
  | cons request rest ih =>
    have inRequest : ∀ rule ∈ request.matchRules.reverse, rule ∈ rules := fun rule member =>
      within request (by simp) rule (by simpa using member)
    obtain ⟨answer, kept⟩ := Memo.allConsult_spec faithful _ inRequest sound
    rw [matchedLoop, H2ServerRequest.matchMessage, matchLoop_eq_allConsult, List.find?_cons,
      ← answer]
    revert kept
    rcases Memo.allConsult MatchRule.uniqueId (MatchRule.evaluate engines message)
      request.matchRules.reverse message.matchResult with ⟨matched, table⟩
    intro kept
    cases matched with
    | true => rfl
    | false =>
      exact ih { message with matchResult := table }
        (fun other member => within other (by simp [member])) faithful kept

section Selection

variable {config : List SchemaRequestMatch}

theorem injOn_of_mem (distinguished : Distinguished (configuredRules config)) (member : requestMatch ∈ config) :
    Set.InjOn MatchRule.sortKey { rule | rule ∈ requestMatch.configuredRules } := by
  refine (MatchRule.sortKey_injOn_of_distinguished distinguished).mono ?_
  intro rule configured
  exact ⟨requestMatch, member, configured⟩

theorem mem_matchRules_ofSchema (distinguished : Distinguished (configuredRules config))
    (member : requestMatch ∈ config) (index : Nat) (rule : MatchRule) :
    rule ∈ (H2ServerRequest.ofSchema requestMatch index).matchRules ↔
      rule ∈ requestMatch.configuredRules :=
  OrderedSet.mem_ofList_of_injOn MatchRule.byKey_sortKey (injOn_of_mem distinguished member) rule

theorem length_matchRules_ofSchema (distinguished : Distinguished (configuredRules config))
    (member : requestMatch ∈ config) (index : Nat) :
    (H2ServerRequest.ofSchema requestMatch index).matchRules.length = distinctRules requestMatch :=
  OrderedSet.length_ofList_of_injOn MatchRule.byKey_sortKey (injOn_of_mem distinguished member)

theorem distinguished_rules (distinguished : Distinguished (configuredRules config)) :
    Distinguished (ofConfig config).rules := by
  intro left leftKept right rightKept below above
  have same := (MatchRule.sortKey_eq_iff_unordered left right).mpr ⟨below, above⟩
  obtain ⟨leftMatch, leftMember, leftRule, leftConfigured, -, rfl⟩ :=
    exists_configured_of_mem_rules leftKept
  obtain ⟨rightMatch, rightMember, rightRule, rightConfigured, -, rfl⟩ :=
    exists_configured_of_mem_rules rightKept
  have leftIn : leftRule ∈ configuredRules config := ⟨leftMatch, leftMember, leftConfigured⟩
  have rightIn : rightRule ∈ configuredRules config := ⟨rightMatch, rightMember, rightConfigured⟩
  rw [MatchRule.sortKey_injOn_of_distinguished distinguished leftIn rightIn same]

theorem getMatchedRequest_eq_find (distinguished : Distinguished (configuredRules config))
    (engines : Engines) (headers : List (String × String)) (payload : String) :
    ((ofConfig config).getMatchedRequest engines (.received headers payload)).1 =
      (ofConfig config).services.reverse.find? fun request =>
        request.matchRules.reverse.all (MatchRule.evaluate engines (.received headers payload)) := by
  refine matchedLoop_eq_find engines (ofConfig config).rules _ _ ?_
    (faithful_of_distinguished (distinguished_rules distinguished) engines _) Memo.sound_nil
  intro request member rule inRequest
  exact ⟨request, by simpa using member, inRequest⟩

theorem exists_configured_of_mem_services {request : H2ServerRequest}
    (member : request ∈ (ofConfig config).services) :
    ∃ requestMatch, config[request.requestIndex]? = some requestMatch ∧
      request = numberedRequest (allMatchRules (insertedServices config))
        (H2ServerRequest.ofSchema requestMatch request.requestIndex) := by
  rw [services_ofConfig, List.mem_map] at member
  obtain ⟨original, inserted, rfl⟩ := member
  obtain ⟨⟨requestMatch, index⟩, zipped, rfl⟩ := List.mem_map.mp (OrderedSet.mem_of_mem_ofList inserted)
  exact ⟨requestMatch, List.mem_zipIdx_iff_getElem?.mp zipped, rfl⟩

theorem all_evaluate_numberedRequest (engines : Engines) (message : RequestMessage)
    (all : List MatchRule) (request : H2ServerRequest) :
    (numberedRequest all request).matchRules.reverse.all (MatchRule.evaluate engines message) =
      request.matchRules.all (MatchRule.evaluate engines message) := by
  simp [numberedRequest, Function.comp_def, numbered, MatchRule.evaluate_uniqueId]

/-- A satisfied service has a satisfied representative in the map with as many
rules as the service is configured with: itself, or one its key equals. -/
theorem exists_service_of_satisfied (distinguished : Distinguished (configuredRules config))
    {engines : Engines} {message : RequestMessage} (member : requestMatch ∈ config)
    (satisfied : Satisfied engines message requestMatch) :
    ∃ request ∈ (ofConfig config).services,
      request.matchRules.reverse.all (MatchRule.evaluate engines message) = true ∧
        request.matchRules.length = distinctRules requestMatch := by
  obtain ⟨index, located⟩ := List.getElem?_of_mem member
  have offered : H2ServerRequest.ofSchema requestMatch index ∈
      config.zipIdx.map fun (requestMatch, index) =>
        H2ServerRequest.ofSchema requestMatch index :=
    List.mem_map.mpr ⟨(requestMatch, index), List.mem_zipIdx_iff_getElem?.mpr located, rfl⟩
  obtain ⟨kept, inserted, sameKey⟩ :=
    OrderedSet.exists_key_mem_ofList H2ServerRequest.byKey_requestKey offered
  simp only [H2ServerRequest.requestKey, EmbeddingLike.apply_eq_iff_eq, Prod.mk.injEq,
    List.map_reverse, List.reverse_inj] at sameKey
  refine ⟨numberedRequest (allMatchRules (insertedServices config)) kept, ?_, ?_, ?_⟩
  · rw [services_ofConfig]
    exact List.mem_map_of_mem inserted
  · rw [all_evaluate_numberedRequest, List.all_eq_true]
    intro rule inKept
    -- The kept service may be another one; its rules still carry the keys of this one's.
    have key : rule.sortKey ∈ (H2ServerRequest.ofSchema requestMatch index).matchRules.map
        MatchRule.sortKey := sameKey.2 ▸ List.mem_map_of_mem inKept
    obtain ⟨own, inOwn, equal⟩ := List.mem_map.mp key
    have configured := (mem_matchRules_ofSchema distinguished member index own).mp inOwn
    obtain ⟨⟨other, otherIndex⟩, zipped, rfl⟩ :=
      List.mem_map.mp (OrderedSet.mem_of_mem_ofList inserted)
    have otherMember : other ∈ config := List.fst_mem_of_mem_zipIdx zipped
    have identical : own = rule := MatchRule.sortKey_injOn_of_distinguished distinguished
      ⟨requestMatch, member, configured⟩
      ⟨other, otherMember, OrderedSet.mem_of_mem_ofList inKept⟩ equal
    exact identical ▸ satisfied own configured
  · have lengths : (numberedRequest (allMatchRules (insertedServices config)) kept).matchRules.length =
        kept.matchRules.length := by simp [numberedRequest]
    rw [lengths, sameKey.1, length_matchRules_ofSchema distinguished member]

/-- Satisfiable pole: two services whose rules are told apart, both satisfied by
the message. -/
def nestedConfig : List SchemaRequestMatch :=
  [⟨[⟨"StartsWith", ":path", "/users"⟩], [], "users"⟩,
    ⟨[⟨"StartsWith", ":path", "/users"⟩, ⟨"EqualsTo", ":method", "POST"⟩], [], "create user"⟩]

end Selection

end H2Server

end H2LoadRunner.MockServer
