/-
# Load.Cookies -- the cookies of a scenario user

What a scenario user keeps of the `Set-Cookie` headers of the responses and puts into the `Cookie`
header of the next request: `Cookie::parse_cookie_string`, `is_cookie_acceptable`,
`is_cookie_allowed_to_be_sent`, `parse_and_save_cookies`, `produce_request_cookie_header`, and of
`prepare_next_request` what decides the destination of the request and its `Cookie` header.

The URI parser is not part of the program: what it finds is part of the input, and it gives no empty
scheme.  The same holds of the header table a script returns.  `carried` is a ghost: the saved cookies
that the `Cookie` header of the request was built from (`produceRequestCookieHeader_carried`).
-/
import H2LoadRunner.Library.Strings
import H2LoadRunner.Library.Transition

namespace H2LoadRunner.Load.Cookies

open Library

set_option autoImplicit false

abbrev Text := List Char

def lower (text : Text) : Text := text.map Char.toLower

/-! ## One cookie -/

structure Cookie where
  origin : Text := []
  secureOrigin : Bool := false
  cookieKey : Text := []
  cookieValue : Text := []
  expires : Text := []
  secure : Bool := false
  httpOnly : Bool := false
  domain : Text := []
  path : Text := []
  sameSite : Text := []
  maxAge : Text := []
  deriving DecidableEq

/-- The names in `cookie_attributes`, which are compared without regard to case. -/
def cookieAttributes : List Text :=
  ["secure".toList, "httponly".toList, "expires".toList, "domain".toList, "path".toList,
    "samesite".toList, "max-age".toList]

def isAttribute (key : Text) : Bool := cookieAttributes.contains (lower key)

/-- What an attribute token changes; `values` is what the token has behind its name. -/
def Cookie.setAttribute (cookie : Cookie) (key : Text) (values : List Text) : Cookie :=
  match values with
  | [] =>
    if key = "secure".toList then { cookie with secure := true }
    else if key = "httponly".toList then { cookie with httpOnly := true }
    else cookie
  | [value] =>
    if key = "expires".toList then { cookie with expires := value }
    else if key = "domain".toList then { cookie with domain := lower value }
    else if key = "path".toList then { cookie with path := value }
    else if key = "samesite".toList then { cookie with sameSite := value }
    else if key = "max-age".toList then { cookie with maxAge := value }
    else cookie
  | _ => cookie

/-- One turn of the loop of `parse_cookie_string`; the cookie parsed last is the first of the list. -/
def parseToken (originAuthority originSchema : Text) (parsed : List Cookie) (token : Text) :
    List Cookie :=
  match Strings.tokenize "=".toList token with
  | [] => parsed
  | key :: values =>
    if isAttribute key then
      match parsed with
      | [] => []
      | latest :: before => latest.setAttribute (lower key) values :: before
    else
      match values with
      | [value] =>
        { origin := lower originAuthority
          secureOrigin := originSchema = "https".toList
          cookieKey := key
          cookieValue := value
          sameSite := "Lax".toList } :: parsed
      | _ => parsed

def parseCookieString (cookieString originAuthority originSchema : Text) : List Cookie :=
  ((Strings.tokenize "; ".toList cookieString).foldl (parseToken originAuthority originSchema) []).reverse

def Cookie.isAcceptable (cookie : Cookie) : Bool :=
  if Strings.find "__Host-".toList cookie.cookieKey = some 0 ∧
      (cookie.secure = false ∨ cookie.secureOrigin = false ∨ cookie.domain ≠ [] ∨
        cookie.path ≠ "/".toList) then false
  else if Strings.find "__Secure-".toList cookie.cookieKey = some 0 ∧
      (cookie.secure = false ∨ cookie.secureOrigin = false) then false
  else if cookie.sameSite = "None".toList ∧ cookie.secure = false then false
  else true

/-- The test of the `Domain` attribute: its last occurrence reaches to the end of the host. -/
def endsWithDomain (host domain : Text) : Bool :=
  match Strings.rfind domain host with
  | none => false
  | some position => host.length - position = domain.length

def destHost (authority : Text) : Text := ((Strings.tokenize ":".toList authority).head?).getD []

def Cookie.isAllowedToBeSent (cookie : Cookie) (destSchema destAuthority destPath : Text) : Bool :=
  let authority := lower destAuthority
  if cookie.secure = true ∧ destSchema = "http".toList then false
  else if cookie.domain ≠ [] ∧ endsWithDomain (destHost authority) cookie.domain = false then false
  else if cookie.domain = [] ∧ cookie.origin ≠ authority then false
  else if cookie.path ≠ [] ∧ destPath ≠ [] ∧ Strings.find cookie.path destPath ≠ some 0 then false
  else if cookie.sameSite ≠ [] ∧ cookie.sameSite ≠ "None".toList ∧ cookie.origin ≠ authority then false
  else true

/-! ## The saved cookies -/

/-- `saved_cookies`, from the greatest key to the least. -/
abbrev Jar := List (Text × Cookie)

def Jar.save (key : Text) (cookie : Cookie) : Jar → Jar
  | [] => [(key, cookie)]
  | (other, old) :: rest =>
    if key = other then (key, cookie) :: rest
    else if other < key then (key, cookie) :: (other, old) :: rest
    else (other, old) :: Jar.save key cookie rest

structure Request where
  schema : Text
  authority : Text
  path : Text
  /-- The entry of `req_headers_from_config`. -/
  cookieFromConfig : Option Text := none
  /-- The entry of `req_headers_of_individual`. -/
  cookieOfIndividual : Option Text := none
  /-- Ghost: the saved cookies in `cookieOfIndividual`. -/
  carried : List (Text × Cookie) := []

/-- `parse_and_save_cookies`, where `setCookies` has the `Set-Cookie` entry of each header map of the
response that has one. -/
def parseAndSaveCookies (finished : Request) (setCookies : List Text) (jar : Jar) : Jar :=
  (setCookies.flatMap fun text => parseCookieString text finished.authority finished.schema).foldl
    (fun jar cookie => if cookie.isAcceptable then jar.save cookie.cookieKey cookie else jar) jar

def Request.cookiesFromConfig (req : Request) : List Text :=
  match req.cookieFromConfig with
  | none => []
  | some text => (parseCookieString text req.authority req.schema).map Cookie.cookieKey

/-- The entry is neither overridden by the configuration nor kept from the destination. -/
def Request.takes (req : Request) (entry : Text × Cookie) : Bool :=
  !req.cookiesFromConfig.contains entry.1 &&
    entry.2.isAllowedToBeSent req.schema req.authority req.path

def cookieDelimeter : Text := "; ".toList

def render (entry : Text × Cookie) : Text := entry.1 ++ '=' :: entry.2.cookieValue

def Request.appendCookies (req : Request) : Text → Jar → Text
  | toAppend, [] => toAppend
  | toAppend, entry :: rest =>
    if req.takes entry then
      req.appendCookies ((if toAppend = [] then [] else toAppend ++ cookieDelimeter) ++ render entry) rest
    else req.appendCookies toAppend rest

def produceRequestCookieHeader (jar : Jar) (req : Request) : Request :=
  let toAppend := req.appendCookies [] jar
  if jar = [] ∨ toAppend = [] then req
  else
    { req with
      cookieOfIndividual :=
        match req.cookieFromConfig with
        | none => some toAppend
        | some text =>
          if text = [] then some toAppend else some (text ++ cookieDelimeter ++ toAppend)
      carried := jar.filter req.takes }

/-! ## The next request of a scenario -/

/-- The scheme and the host a URI names. -/
structure Origin where
  schema : Text
  host : Text
  port : Option Nat := none
  given : schema ≠ []

def Origin.authority (origin : Origin) : Text :=
  lower origin.host ++
    match origin.port with
    | none => []
    | some port => ':' :: Nat.toDigits 10 port

inductive Uri where
  | empty
  | invalid
  | parsed (path : Text) (origin : Option Origin)

/-- What is read of the template of a request; `origin` is what its URI names. -/
structure Template where
  clearOldCookies : Bool := false
  origin : Option Origin := none
  cookieFromConfig : Option Text := none

inductive Target where
  | inputUri (path : Text)
  | sameWithLastOne
  | fromResponseHeader (value : Option Uri)
  | inputWithVariable (uri : Uri)

/-- What `update_request_with_lua` does. -/
inductive Script where
  /-- No script, or one that returns no header table. -/
  | kept
  /-- The script returns a header table. -/
  | replaced (schema authority path : Text) (cookie : Option Text)
  | failed

/-- The client that prepares the request. -/
structure Connection where
  schema : Text
  authority : Text
  known : schema ≠ [] ∧ authority ≠ []

/-- A response has arrived and the next request is prepared. -/
structure Turn where
  connection : Connection
  setCookies : List Text := []
  template : Template := {}
  /-- The `Cookie` header assembled from variables. -/
  cookieFromVariables : Option Text := none
  target : Target
  script : Script := .kept

structure User where
  savedCookies : Jar := []
  /-- The request sent last. -/
  request : Request

inductive Abort where
  | headerNotFound
  | invalidUri
  | script

def populateRequestFromConfigTemplate (template : Template) (fromVariables : Option Text) : Request where
  schema := (template.origin.map fun origin => lower origin.schema).getD []
  authority := (template.origin.map Origin.authority).getD []
  path := []
  cookieFromConfig := template.cookieFromConfig
  cookieOfIndividual := fromVariables

def parseUriAndPopulateRequest (req : Request) : Uri → Except Abort Request
  | .empty => .ok req
  | .invalid => .error .invalidUri
  | .parsed path none => .ok { req with path := path }
  | .parsed path (some origin) =>
    .ok { req with path := path, schema := lower origin.schema, authority := origin.authority }

def Request.withOriginOf (req finished : Request) : Request :=
  { req with schema := finished.schema, authority := finished.authority }

/-- The `switch` over the origin of the URI. -/
def Request.aim (req finished : Request) : Target → Except Abort Request
  | .inputUri path => .ok { req with path := path }
  | .sameWithLastOne => .ok { req.withOriginOf finished with path := finished.path }
  | .fromResponseHeader none => .error .headerNotFound
  | .fromResponseHeader (some (.parsed path (some origin))) =>
    parseUriAndPopulateRequest req (.parsed path (some origin))
  -- The authority is left open by the URI.
  | .fromResponseHeader (some uri) => parseUriAndPopulateRequest (req.withOriginOf finished) uri
  | .inputWithVariable uri => parseUriAndPopulateRequest req uri

def updateRequestWithLua (req : Request) : Script → Except Abort Request
  | .kept => .ok req
  | .replaced schema authority path cookie =>
    .ok { req with
      schema := schema, authority := authority, path := path, cookieOfIndividual := cookie
      carried := [] }
  | .failed => .error .script

def sanitizeRequest (connection : Connection) (req : Request) : Request :=
  { req with
    schema := if req.schema = [] then connection.schema else req.schema
    authority := if req.authority = [] then connection.authority else req.authority }

def User.saved (user : User) (turn : Turn) : Jar :=
  if turn.template.clearOldCookies then user.savedCookies
  else parseAndSaveCookies user.request turn.setCookies user.savedCookies

def User.next (user : User) (turn : Turn) : Except Abort Request :=
  (populateRequestFromConfigTemplate turn.template turn.cookieFromVariables).aim user.request turn.target

def prepareNextRequest (user : User) (turn : Turn) : Except Abort User := do
  let req ← user.next turn
  let req ← updateRequestWithLua (produceRequestCookieHeader (user.saved turn) req) turn.script
  return ⟨user.saved turn, sanitizeRequest turn.connection req⟩

/-- The first request of a scenario, which `prepare_first_request` builds without cookies. -/
def prepareFirstRequest (connection : Connection) (req : Request) : User where
  request := sanitizeRequest connection { req with carried := [] }

/-! ## What the header is built from -/

theorem render_ne_nil (entry : Text × Cookie) : render entry ≠ [] := by
  simp [render]

theorem appendCookies_eq (req : Request) (toAppend : Text) (jar : Jar) :
    req.appendCookies toAppend jar = List.intercalate cookieDelimeter
        ((if toAppend = [] then [] else [toAppend]) ++ (jar.filter req.takes).map render) := by
  induction jar generalizing toAppend with
  | nil =>
    rw [Request.appendCookies]
    split <;> simp_all
  | cons entry rest ih =>
    rw [Request.appendCookies]
    by_cases taken : req.takes entry = true
    · rw [if_pos taken, ih, List.filter_cons_of_pos taken, List.map_cons]
      by_cases empty : toAppend = []
      · simp [empty, render_ne_nil]
      · rw [if_neg empty, if_neg empty, if_neg (by simp [empty])]
        cases (rest.filter req.takes).map render <;> simp [List.intercalate]
    · rw [if_neg taken, ih, List.filter_cons_of_neg taken]

theorem appendCookies_eq_nil (req : Request) (jar : Jar) :
    req.appendCookies [] jar = [] ↔ jar.filter req.takes = [] := by
  rw [appendCookies_eq, if_pos rfl, List.nil_append]
  cases jar.filter req.takes with
  | nil => exact iff_of_true rfl rfl
  | cons entry rest =>
    refine iff_of_false ?_ (List.cons_ne_nil _ _)
    cases rest <;> simp [List.intercalate, render_ne_nil]

/-- The header that is produced: the configured cookies and the carried ones, in order. -/
theorem produceRequestCookieHeader_carried (jar : Jar) (req : Request) (fresh : req.carried = []) :
    (produceRequestCookieHeader jar req).carried = jar.filter req.takes ∧ (jar.filter req.takes ≠ [] →
        (produceRequestCookieHeader jar req).cookieOfIndividual = some
          ((req.cookieFromConfig.filter (· ≠ [])).elim [] (· ++ cookieDelimeter) ++
            List.intercalate cookieDelimeter ((jar.filter req.takes).map render))) := by
  by_cases none : jar.filter req.takes = []
  · have unchanged : produceRequestCookieHeader jar req = req := by
      rw [produceRequestCookieHeader]
      exact if_pos (.inr ((appendCookies_eq_nil req jar).mpr none))
    rw [unchanged, none]
    exact ⟨fresh, fun some => absurd rfl some⟩
  · have added : ¬ (jar = [] ∨ req.appendCookies [] jar = []) := by
      rintro (rfl | empty)
      · exact none rfl
      · exact none ((appendCookies_eq_nil req jar).mp empty)
    have rendered : req.appendCookies [] jar =
        List.intercalate cookieDelimeter ((jar.filter req.takes).map render) :=
      appendCookies_eq req [] jar
    rw [produceRequestCookieHeader, if_neg added]
    refine ⟨rfl, fun _ => ?_⟩
    rw [rendered]
    cases req.cookieFromConfig with
    | none => rfl
    | some text => by_cases empty : text = [] <;> simp [empty, Option.filter]

end H2LoadRunner.Load.Cookies
