/-
# Load.CookieScope -- which requests a saved cookie is sent with

RFC 6265, which the documentation names, sends a cookie to the hosts of its `Domain` and the paths of
its `Path`: `DomainMatches` and `PathMatches` compare at the borders of labels and segments.
`is_cookie_allowed_to_be_sent` asks only whether the host ends in the `Domain` and the path begins
with the `Path`.

* `isAllowedToBeSent_complies_iff`: a cookie that is allowed to be sent complies exactly when its
  attributes end at such borders (`Bordered`); nothing else of the decision differs.
* `carried_complies`: in every run of a scenario whose requests meet the saved cookies at borders, each
  cookie a request carries complies.
-/
import H2LoadRunner.Load.Cookies

namespace H2LoadRunner.Load.Cookies

open Library Library.Transition

set_option autoImplicit false

variable {cookie : Cookie} {req : Request} {entry : Text × Cookie} {turn : Turn} {user : User}

/-! ## What is stated -/

/-- The host of an authority; a literal address with its colons is left whole. -/
def hostOf (authority : Text) : Text :=
  if authority.count ':' ≤ 1 then authority.takeWhile (· ≠ ':') else authority

def DomainMatches (host domain : Text) : Prop := host = domain ∨ '.' :: domain <:+ host

/-- The domain a `Domain` attribute names: a dot in front is left out. -/
def domainOf : Text → Text
  | '.' :: domain => domain
  | domain => domain

def uriPath (path : Text) : Text := path.takeWhile (· ≠ '?')

/-- The paths are the same, or one begins with the other up to a slash. -/
def PathMatches (requestPath cookiePath : Text) : Prop :=
  requestPath = cookiePath ∨
    cookiePath <+: requestPath ∧ cookiePath.getLast? = some '/' ∨ cookiePath ++ ['/'] <+: requestPath

/-- The cookie may go to this destination.  A literal address with its colons is no name below a
domain. -/
structure Cookie.Complies (cookie : Cookie) (req : Request) : Prop where
  domain : cookie.domain ≠ [] → (lower req.authority).count ':' ≤ 1 ∧
    DomainMatches (hostOf (lower req.authority)) (domainOf cookie.domain)
  host : cookie.domain = [] → hostOf (lower req.authority) = hostOf cookie.origin
  path : cookie.path ≠ [] → PathMatches (uriPath req.path) cookie.path
  secure : cookie.secure = true → req.schema ≠ "http".toList

def LabelBorder (host ending : Text) : Prop :=
  ending.head? = some '.' ∨ host.length ≤ ending.length ∨
    host[host.length - ending.length - 1]? = some '.'

def SegmentBorder (path beginning : Text) : Prop :=
  '?' ∉ beginning ∧ (beginning.getLast? = some '/' ∨ path[beginning.length]? = none ∨
    path[beginning.length]? = some '/' ∨ path[beginning.length]? = some '?')

/-- Where the host ends in the `Domain` or the path begins with the `Path`, it does so at a border. -/
structure Cookie.Bordered (cookie : Cookie) (req : Request) : Prop where
  domain : cookie.domain ≠ [] → cookie.domain <:+ (lower req.authority).takeWhile (· ≠ ':') →
    (lower req.authority).count ':' ≤ 1 ∧
      LabelBorder ((lower req.authority).takeWhile (· ≠ ':')) cookie.domain
  path : cookie.path ≠ [] → req.path ≠ [] ∧
    (cookie.path <+: req.path → SegmentBorder req.path cookie.path)

instance (host domain : Text) : Decidable (DomainMatches host domain) :=
  inferInstanceAs (Decidable (_ ∨ _))

instance (requestPath cookiePath : Text) : Decidable (PathMatches requestPath cookiePath) :=
  inferInstanceAs (Decidable (_ ∨ _ ∧ _ ∨ _))

instance (host ending : Text) : Decidable (LabelBorder host ending) :=
  inferInstanceAs (Decidable (_ ∨ _ ∨ _))

instance (path beginning : Text) : Decidable (SegmentBorder path beginning) :=
  inferInstanceAs (Decidable (_ ∧ _))

instance (cookie : Cookie) (req : Request) : Decidable (cookie.Bordered req) :=
  decidable_of_iff
    ((cookie.domain ≠ [] → cookie.domain <:+ (lower req.authority).takeWhile (· ≠ ':') →
        (lower req.authority).count ':' ≤ 1 ∧
          LabelBorder ((lower req.authority).takeWhile (· ≠ ':')) cookie.domain) ∧
      (cookie.path ≠ [] → req.path ≠ [] ∧
        (cookie.path <+: req.path → SegmentBorder req.path cookie.path)))
    ⟨fun both => ⟨both.1, both.2⟩, fun bordered => ⟨bordered.domain, bordered.path⟩⟩

/-! ## One decision -/

theorem destHost_eq (authority : Text) : destHost authority = authority.takeWhile (· ≠ ':') := by
  rw [destHost]
  exact congrArg (·.getD []) (Strings.head_tokenize_singleton ':' authority)

theorem endsWithDomain_iff (host domain : Text) : endsWithDomain host domain = true ↔ domain <:+ host := by
  rw [← Strings.rfind_at_end_iff, endsWithDomain]
  cases Strings.rfind domain host <;> simp

/-- What the decision asks for. -/
structure Cookie.Allowed (cookie : Cookie) (req : Request) : Prop where
  secure : cookie.secure = true → req.schema ≠ "http".toList
  domain : cookie.domain ≠ [] → cookie.domain <:+ (lower req.authority).takeWhile (· ≠ ':')
  host : cookie.domain = [] → cookie.origin = lower req.authority
  path : cookie.path ≠ [] → req.path ≠ [] → cookie.path <+: req.path

theorem allowed_of_isAllowedToBeSent
    (allowed : cookie.isAllowedToBeSent req.schema req.authority req.path = true) : cookie.Allowed req := by
  simp only [Cookie.isAllowedToBeSent, destHost_eq, ← Bool.not_eq_true, endsWithDomain_iff] at allowed
  split_ifs at allowed with insecure elsewhere foreign beside abroad
  refine ⟨fun secure plain => insecure ⟨secure, plain⟩, fun given => ?_, fun none => ?_,
    fun given some => ?_⟩
  · by_contra other
    exact elsewhere ⟨given, other⟩
  · by_contra other
    exact foreign ⟨none, other⟩
  · by_contra other
    exact beside ⟨given, some, fun found => other (Strings.find_eq_zero_iff.mp found)⟩

theorem domainOf_of_head {domain : Text} (dotless : domain.head? ≠ some '.') : domainOf domain = domain := by
  unfold domainOf
  split
  · exact absurd rfl dotless
  · rfl

theorem domainMatches_iff {host domain : Text} (ends : domain <:+ host) :
    DomainMatches host (domainOf domain) ↔ LabelBorder host domain := by
  by_cases dotted : domain.head? = some '.'
  · obtain ⟨rest, rfl⟩ := List.head?_eq_some_iff.mp dotted
    exact iff_of_true (.inr ends) (.inl rfl)
  rw [domainOf_of_head dotted, DomainMatches, LabelBorder, or_iff_right dotted]
  obtain ⟨front, rfl⟩ := ends
  rcases List.eq_nil_or_concat front with rfl | ⟨front, c, rfl⟩
  · exact iff_of_true (.inl rfl) (.inl (Nat.le_refl _))
  · have longer : ¬ (front.concat c ++ domain).length ≤ domain.length := by
      simp only [List.concat_eq_append, List.length_append, List.length_singleton]
      omega
    have other : front.concat c ++ domain ≠ domain := fun same => longer (by rw [same])
    have place : (front.concat c ++ domain).length - domain.length - 1 = front.length := by
      simp only [List.concat_eq_append, List.length_append, List.length_singleton]
      omega
    rw [or_iff_right other, or_iff_right longer, place]
    rw [List.concat_eq_append, List.append_assoc, List.singleton_append]
    rw [List.getElem?_append_right (Nat.le_refl _), Nat.sub_self, List.getElem?_cons_zero]
    constructor
    · intro ends
      have tails : '.' :: domain = c :: domain :=
        (List.suffix_of_suffix_length_le ends (List.suffix_append front (c :: domain))
          (by simp)).eq_of_length (by simp)
      rw [(List.cons.inj tails).1]
    · intro dot
      rw [Option.some.inj dot]
      exact List.suffix_append _ _

theorem pathMatches_iff {path beginning : Text} (begins : beginning <+: path) :
    PathMatches (uriPath path) beginning ↔ SegmentBorder path beginning := by
  by_cases query : '?' ∈ beginning
  · -- A path without its query has no question mark in it.
    have missing : '?' ∉ uriPath path := fun member => by
      simpa using List.all_eq_true.mp List.all_takeWhile _ member
    refine iff_of_false ?_ fun border => border.1 query
    rintro (same | ⟨starts, -⟩ | starts)
    · exact missing (same ▸ query)
    · exact missing (starts.subset query)
    · exact missing (starts.subset (List.mem_append_left _ query))
  obtain ⟨rest, rfl⟩ := begins
  have cut : uriPath (beginning ++ rest) = beginning ++ uriPath rest :=
    List.takeWhile_append_of_pos fun c member => by
      have : c ≠ '?' := fun same => query (same ▸ member)
      simpa using this
  rw [PathMatches, SegmentBorder, cut, List.getElem?_append_right (Nat.le_refl _), Nat.sub_self,
    and_iff_right query, and_iff_right (List.prefix_append _ _), List.prefix_append_right_inj]
  cases rest with
  | nil => simp [uriPath]
  | cons c cs =>
    by_cases asks : c = '?'
    · simp [uriPath, asks]
    · have kept : uriPath (c :: cs) = c :: uriPath cs := by simp [uriPath, asks]
      have longer : beginning ++ c :: uriPath cs ≠ beginning := by simp
      have slash : ['/'] <+: c :: uriPath cs ↔ c = '/' := by
        rw [List.cons_prefix_cons, and_iff_left List.nil_prefix, eq_comm]
      rw [kept, or_iff_right longer, slash]
      simp [asks]

/-- **A cookie that is allowed to be sent complies exactly when its attributes end at borders.** -/
theorem isAllowedToBeSent_complies_iff {cookie : Cookie} {req : Request}
    (allowed : cookie.isAllowedToBeSent req.schema req.authority req.path = true) :
    cookie.Complies req ↔ cookie.Bordered req := by
  have asked := allowed_of_isAllowedToBeSent allowed
  constructor
  · intro complies
    refine ⟨fun given ends => ?_, fun given => ?_⟩
    · obtain ⟨named, matching⟩ := complies.domain given
      rw [hostOf, if_pos named] at matching
      exact ⟨named, (domainMatches_iff ends).mp matching⟩
    · have matching := complies.path given
      have some : req.path ≠ [] := by
        intro empty
        rw [empty] at matching
        rcases matching with same | ⟨starts, -⟩ | starts
        · exact given same.symm
        · exact given (List.prefix_nil.mp starts)
        · simpa [uriPath] using List.prefix_nil.mp starts
      exact ⟨some, fun begins => (pathMatches_iff begins).mp matching⟩
  · intro bordered
    refine ⟨fun given => ?_, fun none => ?_, fun given => ?_, asked.secure⟩
    · obtain ⟨named, border⟩ := bordered.domain given (asked.domain given)
      rw [hostOf, if_pos named]
      exact ⟨named, (domainMatches_iff (asked.domain given)).mpr border⟩
    · rw [asked.host none]
    · obtain ⟨some, border⟩ := bordered.path given
      have begins := asked.path given some
      exact (pathMatches_iff begins).mpr (border begins)

/-! ## Every run of a scenario -/

theorem origin_setAttribute (cookie : Cookie) (key : Text) (values : List Text) :
    (cookie.setAttribute key values).origin = cookie.origin := by
  unfold Cookie.setAttribute
  split
  · split_ifs <;> rfl
  · split_ifs <;> rfl
  · rfl

theorem origin_parseCookieString {text authority schema : Text}
    (parsed : cookie ∈ parseCookieString text authority schema) : cookie.origin = lower authority := by
  suffices kept : ∀ (tokens : List Text) (before : List Cookie),
      (∀ cookie ∈ before, cookie.origin = lower authority) →
      ∀ cookie ∈ tokens.foldl (parseToken authority schema) before, cookie.origin = lower authority from
    kept _ [] (by simp) cookie (List.mem_reverse.mp parsed)
  intro tokens
  induction tokens with
  | nil => exact fun before same => same
  | cons token tokens ih =>
    intro before same
    refine ih _ ?_
    unfold parseToken
    split
    · exact same
    · split_ifs
      · cases before with
        | nil => simp
        | cons latest earlier =>
          intro cookie member
          rcases List.mem_cons.mp member with rfl | old
          · rw [origin_setAttribute]
            exact same latest List.mem_cons_self
          · exact same cookie (List.mem_cons_of_mem _ old)
      · split
        · intro cookie member
          rcases List.mem_cons.mp member with rfl | old
          · rfl
          · exact same cookie old
        · exact same

theorem mem_of_mem_save {key : Text} {jar : Jar} (member : entry ∈ jar.save key cookie) :
    entry = (key, cookie) ∨ entry ∈ jar := by
  induction jar with
  | nil => exact .inl (List.mem_singleton.mp member)
  | cons head rest ih =>
    rw [Jar.save] at member
    split_ifs at member
    · rcases List.mem_cons.mp member with new | old
      · exact .inl new
      · exact .inr (List.mem_cons_of_mem _ old)
    · exact (List.mem_cons.mp member).imp_right id
    · rcases List.mem_cons.mp member with first | later
      · exact .inr (first ▸ List.mem_cons_self)
      · exact (ih later).imp_right (List.mem_cons_of_mem _)

theorem mem_of_mem_parseAndSaveCookies {finished : Request} {setCookies : List Text} {jar : Jar}
    (member : entry ∈ parseAndSaveCookies finished setCookies jar) :
    entry ∈ jar ∨ ∃ text ∈ setCookies, entry.2 ∈ parseCookieString text finished.authority finished.schema := by
  suffices kept : ∀ (cookies : List Cookie) (jar : Jar),
      entry ∈ cookies.foldl
        (fun jar cookie => if cookie.isAcceptable then jar.save cookie.cookieKey cookie else jar) jar →
      entry ∈ jar ∨ entry.2 ∈ cookies from
    (kept _ jar member).imp_right List.mem_flatMap.mp
  intro cookies
  induction cookies with
  | nil => exact fun jar member => .inl member
  | cons cookie cookies ih =>
    intro jar member
    rcases ih _ member with earlier | later
    · simp only at earlier
      split_ifs at earlier
      · rcases mem_of_mem_save earlier with rfl | old
        · exact .inr List.mem_cons_self
        · exact .inl old
      · exact .inl earlier
    · exact .inr (List.mem_cons_of_mem _ later)

/-- What holds of a user between two requests. -/
structure User.Sound (user : User) : Prop where
  schema : user.request.schema ≠ []
  authority : user.request.authority ≠ []
  saved : ∀ entry ∈ user.savedCookies, entry.2.origin ≠ []
  carried : ∀ entry ∈ user.request.carried, entry.2.Complies user.request

theorem lower_eq_nil {text : Text} : lower text = [] ↔ text = [] := List.map_eq_nil_iff

theorem User.Sound.origin_saved (sound : user.Sound) (member : entry ∈ user.saved turn) :
    entry.2.origin ≠ [] := by
  rw [User.saved] at member
  split at member
  · exact sound.saved entry member
  · rcases mem_of_mem_parseAndSaveCookies member with old | ⟨text, -, parsed⟩
    · exact sound.saved entry old
    · rw [origin_parseCookieString parsed]
      exact fun empty => sound.authority (lower_eq_nil.mp empty)

theorem schema_of_parseUri {aimed : Request} {uri : Uri} (undecided : req.schema = [] → req.authority = [])
    (parsed : parseUriAndPopulateRequest req uri = .ok aimed) :
    (aimed.schema = [] → aimed.authority = []) ∧ aimed.carried = req.carried := by
  unfold parseUriAndPopulateRequest at parsed
  split at parsed <;> cases parsed
  · exact ⟨undecided, rfl⟩
  · exact ⟨undecided, rfl⟩
  · rename_i origin
    exact ⟨fun empty => absurd (lower_eq_nil.mp empty) origin.given, rfl⟩

/-- A request whose scheme is still open when its cookies are chosen has no authority yet either. -/
theorem User.Sound.next (sound : user.Sound) (built : user.next turn = .ok req) :
    (req.schema = [] → req.authority = []) ∧ req.carried = [] := by
  have template : (populateRequestFromConfigTemplate turn.template turn.cookieFromVariables).schema = [] →
      (populateRequestFromConfigTemplate turn.template turn.cookieFromVariables).authority = [] := by
    simp only [populateRequestFromConfigTemplate]
    cases turn.template.origin with
    | none => exact fun _ => rfl
    | some origin => exact fun empty => absurd (lower_eq_nil.mp empty) origin.given
  have finished : user.request.schema = [] → user.request.authority = [] :=
    fun empty => absurd empty sound.schema
  rw [User.next] at built
  unfold Request.aim at built
  split at built
  · cases built
    exact ⟨template, rfl⟩
  · cases built
    exact ⟨finished, rfl⟩
  · cases built
  · exact schema_of_parseUri template built
  · refine schema_of_parseUri ?_ built
    exact finished
  · exact schema_of_parseUri template built

theorem Cookie.Allowed.authority_ne_nil (allowed : cookie.Allowed req) (known : cookie.origin ≠ []) :
    req.authority ≠ [] := by
  intro empty
  by_cases none : cookie.domain = []
  · exact known ((allowed.host none).trans (by rw [empty]; rfl))
  · have ends := allowed.domain none
    rw [empty] at ends
    exact none (List.suffix_nil.mp ends)

theorem sanitizeRequest_known (connection : Connection) (req : Request) :
    (sanitizeRequest connection req).schema ≠ [] ∧ (sanitizeRequest connection req).authority ≠ [] := by
  constructor
  · show (if req.schema = [] then _ else _) ≠ []
    split
    · exact connection.known.1
    · assumption
  · show (if req.authority = [] then _ else _) ≠ []
    split
    · exact connection.known.2
    · assumption

theorem sanitizeRequest_eq_self (connection : Connection) (schema : req.schema ≠ [])
    (authority : req.authority ≠ []) : sanitizeRequest connection req = req := by
  rw [sanitizeRequest, if_neg schema, if_neg authority]

def MeetsAtBorders (user : User) (turn : Turn) : Prop :=
  ∀ req, user.next turn = .ok req → ∀ entry ∈ user.saved turn, entry.2.Bordered req

instance (user : User) (turn : Turn) : Decidable (MeetsAtBorders user turn) :=
  match built : user.next turn with
  | .error _ => isTrue fun _ other => by
    rw [built] at other
    cases other
  | .ok req => decidable_of_iff (∀ entry ∈ user.saved turn, entry.2.Bordered req)
      ⟨fun all _ other => by
        rw [built] at other
        cases other
        exact all, fun meets => meets req built⟩

theorem carried_produceRequestCookieHeader (sound : user.Sound) (built : user.next turn = .ok req)
    (meets : MeetsAtBorders user turn)
    (carried : entry ∈ (produceRequestCookieHeader (user.saved turn) req).carried) :
    entry.2.Complies req ∧ req.schema ≠ [] ∧ req.authority ≠ [] := by
  obtain ⟨undecided, fresh⟩ := sound.next built
  rw [(produceRequestCookieHeader_carried (user.saved turn) req fresh).1] at carried
  obtain ⟨member, taken⟩ := List.mem_filter.mp carried
  have allowed := (Bool.and_eq_true_iff.mp taken).2
  have authority := (allowed_of_isAllowedToBeSent allowed).authority_ne_nil (sound.origin_saved member)
  exact ⟨(isAllowedToBeSent_complies_iff allowed).mpr (meets req built entry member),
    fun empty => authority (undecided empty), authority⟩

theorem destination_produceRequestCookieHeader (jar : Jar) (req : Request) :
    (produceRequestCookieHeader jar req).schema = req.schema ∧
      (produceRequestCookieHeader jar req).authority = req.authority ∧
      (produceRequestCookieHeader jar req).path = req.path := by
  rw [produceRequestCookieHeader]
  split <;> exact ⟨rfl, rfl, rfl⟩

theorem Cookie.Complies.of_same_destination {other : Request} (complies : cookie.Complies req)
    (schema : other.schema = req.schema) (authority : other.authority = req.authority)
    (path : other.path = req.path) : cookie.Complies other := by
  refine ⟨?_, ?_, ?_, ?_⟩
  · rw [authority]
    exact complies.domain
  · rw [authority]
    exact complies.host
  · rw [path]
    exact complies.path
  · rw [schema]
    exact complies.secure

theorem sound_step {next : User} (meets : MeetsAtBorders user turn) (sound : user.Sound)
    (taken : prepareNextRequest user turn = .ok next) : next.Sound := by
  obtain ⟨req, built, taken⟩ := ok_of_bind taken
  obtain ⟨scripted, ran, taken⟩ := ok_of_bind taken
  cases taken
  have known := sanitizeRequest_known turn.connection scripted
  refine ⟨known.1, known.2, fun entry member => sound.origin_saved member, fun entry carried => ?_⟩
  -- A script that replaces the headers drops the cookies; otherwise the destination is decided.
  cases script : turn.script with
  | kept =>
    rw [script] at ran
    cases ran
    obtain ⟨schema, authority, path⟩ := destination_produceRequestCookieHeader (user.saved turn) req
    obtain ⟨complies, decided, named⟩ := carried_produceRequestCookieHeader sound built meets carried
    rw [sanitizeRequest_eq_self _ (by rwa [schema]) (by rwa [authority])]
    exact complies.of_same_destination schema authority path
  | replaced schema authority path cookie =>
    rw [script] at ran
    cases ran
    cases carried
  | failed =>
    rw [script] at ran
    cases ran

theorem sound_prepareFirstRequest (connection : Connection) (req : Request) :
    (prepareFirstRequest connection req).Sound := by
  have known := sanitizeRequest_known connection { req with carried := [] }
  exact ⟨known.1, known.2, by simp [prepareFirstRequest], by simp [prepareFirstRequest, sanitizeRequest]⟩

/-- **Every cookie that a request carries complies**, in every run of a scenario whose requests meet
the saved cookies at borders. -/
theorem carried_complies (connection : Connection) (first : Request) (turns : List Turn) {user : User}
    (meets : Along prepareNextRequest MeetsAtBorders (prepareFirstRequest connection first) turns)
    (ends : run prepareNextRequest (prepareFirstRequest connection first) turns = .ok user) :
    ∀ entry ∈ user.request.carried, entry.2.Complies user.request :=
  (run_invariant (fun _ _ _ meets sound => sound_step meets sound) meets ends
    (sound_prepareFirstRequest connection first)).carried

/-- The first request goes to the host the client is connected to. -/
def userAt (connection : Connection) : User :=
  prepareFirstRequest connection ⟨[], [], "/".toList, none, none, []⟩

theorem Connection.given (connection : Connection) : connection.schema ≠ [] := connection.known.1

def setsCookie (connection : Connection) (setCookie path : String) : Turn where
  connection := connection
  setCookies := [setCookie.toList]
  template := { origin := some ⟨connection.schema, connection.authority, none, connection.given⟩ }
  target := .inputUri path.toList

def wwwHost : Connection := ⟨"https".toList, "www.example.com".toList, by decide⟩

def badHost : Connection := ⟨"https".toList, "badexample.com".toList, by decide⟩

/-- **Satisfiable pole:** a cookie for the domain of the host and the path of the request. -/
theorem wholeLabel_complies : ∃ user, run prepareNextRequest (userAt wwwHost)
        [setsCookie wwwHost "a=b; Domain=example.com; Path=/foo" "/foo/bar"] = .ok user ∧
      user.request.carried.length = 1 ∧ ∀ entry ∈ user.request.carried, entry.2.Complies user.request := by
  obtain ⟨user, ends, one⟩ := exists_run prepareNextRequest (userAt wwwHost)
    [setsCookie wwwHost "a=b; Domain=example.com; Path=/foo" "/foo/bar"]
    (fun user => user.request.carried.length = 1) (by decide +kernel)
  exact ⟨user, ends, one, carried_complies _ _ _ (by decide +kernel) ends⟩

/-- **Refuting pole:** a `Domain` that ends the host inside a label, and a `Path` that ends inside a
segment of the path. -/
theorem insideLabel_not_complies :
    (∃ user, run prepareNextRequest (userAt badHost) [setsCookie badHost "a=b; Domain=example.com" "/"] =
        .ok user ∧ ∃ entry ∈ user.request.carried, ¬ entry.2.Complies user.request) ∧
    ∃ user, run prepareNextRequest (userAt wwwHost) [setsCookie wwwHost "a=b; Path=/foo" "/foobar"] =
        .ok user ∧ ∃ entry ∈ user.request.carried, ¬ entry.2.Complies user.request := by
  constructor
  · obtain ⟨user, ends, entry, carried, domain, authority⟩ := exists_run prepareNextRequest
      (userAt badHost) [setsCookie badHost "a=b; Domain=example.com" "/"]
      (fun user => ∃ entry ∈ user.request.carried, entry.2.domain = "example.com".toList ∧
        user.request.authority = "badexample.com".toList) (by decide +kernel)
    refine ⟨user, ends, entry, carried, fun complies => ?_⟩
    have matching := complies.domain (by rw [domain]; decide)
    rw [domain, authority] at matching
    exact absurd matching.2 (by decide +kernel)
  · obtain ⟨user, ends, entry, carried, path, requested⟩ := exists_run prepareNextRequest
      (userAt wwwHost) [setsCookie wwwHost "a=b; Path=/foo" "/foobar"]
      (fun user => ∃ entry ∈ user.request.carried, entry.2.path = "/foo".toList ∧
        user.request.path = "/foobar".toList) (by decide +kernel)
    refine ⟨user, ends, entry, carried, fun complies => ?_⟩
    have matching := complies.path (by rw [path]; decide)
    rw [path, requested] at matching
    exact absurd matching (by decide +kernel)

end H2LoadRunner.Load.Cookies
