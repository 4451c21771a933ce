/-
# Load.SetCookie -- the `Set-Cookie` headers of a response, read back

RFC 6265 gives a `Set-Cookie` header a name and a value, and attributes behind them (`SetCookie`).
`on_header` joins the headers of a response with the delimiter of the attributes, and
`parse_cookie_string` cuts the whole into tokens: a token whose name is that of an attribute belongs
to the cookie before it, any other begins a cookie.  A token with more than one equals sign is not
read at all, although the grammar allows the sign in a value, a path and an extension.

* `parsed_iff_plain`: the cookies of the response are the ones its headers set, exactly if every header
  is plain: its name is not that of an attribute, its value has no equals sign, no extension reads like
  a cookie, and the last attribute of each kind has no equals sign in its value.
-/
import H2LoadRunner.Load.Cookies
import H2LoadRunner.Load.ResponseRecords

namespace H2LoadRunner.Load.Cookies

open Library
open Http1Response (HeaderFrame)

set_option autoImplicit false

/-! ## The grammar -/

def isTokenChar (c : Char) : Bool :=
  33 ≤ c.toNat && c.toNat ≤ 126 && !"()<>@,;:\\\"/[]?=\x7b\x7d".toList.contains c

def isCookieOctet (c : Char) : Bool :=
  33 ≤ c.toNat && c.toNat ≤ 126 && !"\",;\\".toList.contains c

def isAvOctet (c : Char) : Bool := 32 ≤ c.toNat && c.toNat ≤ 126 && c ≠ ';'

structure SetCookie where
  name : Text
  value : Text
  /-- The texts of the attributes. -/
  attributes : List Text
  token : name ≠ [] ∧ name.all isTokenChar = true
  octets : value.all isCookieOctet = true ∨
    ∃ quoted, value = '"' :: quoted ++ ['"'] ∧ quoted.all isCookieOctet = true
  avs : attributes.all (fun av => av.all isAvOctet) = true

namespace SetCookie

def pair (header : SetCookie) : Text := header.name ++ '=' :: header.value

def pieces (header : SetCookie) : List Text := header.pair :: header.attributes

def text (header : SetCookie) : Text := List.intercalate "; ".toList header.pieces

end SetCookie

/-- The attributes that have a value. -/
inductive Field where
  | expires | domain | path | sameSite | maxAge
  deriving DecidableEq

namespace Field

def all : List Field := [expires, domain, path, sameSite, maxAge]

def name : Field → Text
  | expires => "expires".toList
  | domain => "domain".toList
  | path => "path".toList
  | sameSite => "samesite".toList
  | maxAge => "max-age".toList

def get : Field → Cookie → Text
  | expires => Cookie.expires
  | domain => Cookie.domain
  | path => Cookie.path
  | sameSite => Cookie.sameSite
  | maxAge => Cookie.maxAge

/-- The value as it is kept: the letter case of a domain does not matter. -/
def kept : Field → Text → Text
  | domain, value => lower value
  | _, value => value

def put (value : Text) (cookie : Cookie) : Field → Cookie
  | expires => { cookie with expires := value }
  | domain => { cookie with domain := lower value }
  | path => { cookie with path := value }
  | sameSite => { cookie with sameSite := value }
  | maxAge => { cookie with maxAge := value }

end Field

inductive Attribute where
  | secure
  | httpOnly
  | valued (field : Field) (value : Text)
  | extension

/-- The name of an attribute stands in front of its first equals sign. -/
def avName (av : Text) : Text := av.takeWhile (· ≠ '=')

def avValue (av : Text) : Option Text :=
  match av.dropWhile (· ≠ '=') with
  | [] => none
  | _ :: value => some value

def attributeOf (av : Text) : Attribute :=
  match avValue av with
  | none =>
    if lower (avName av) = "secure".toList then .secure
    else if lower (avName av) = "httponly".toList then .httpOnly
    else .extension
  | some value =>
    match Field.all.find? fun field => lower (avName av) = field.name with
    | some field => .valued field value
    | none => .extension

namespace Attribute

def attach (cookie : Cookie) : Attribute → Cookie
  | secure => { cookie with secure := true }
  | httpOnly => { cookie with httpOnly := true }
  | valued field value => field.put value cookie
  | extension => cookie

def valueOf (field : Field) : Attribute → Option Text
  | valued other value => if other = field then some value else none
  | _ => none

end Attribute

def attachAll (cookie : Cookie) (avs : List Text) : Cookie :=
  avs.foldl (fun cookie av => (attributeOf av).attach cookie) cookie

def valuesOf (field : Field) (avs : List Text) : List Text :=
  avs.filterMap fun av => (attributeOf av).valueOf field

namespace SetCookie

variable (header : SetCookie)

def bare (originAuthority originSchema : Text) : Cookie where
  origin := lower originAuthority
  secureOrigin := originSchema = "https".toList
  cookieKey := header.name
  cookieValue := header.value
  sameSite := "Lax".toList

def cookie (originAuthority originSchema : Text) : Cookie :=
  attachAll (header.bare originAuthority originSchema) header.attributes

/-- Cut at the equals signs, the header reads as the grammar reads it. -/
structure Plain : Prop where
  name : isAttribute header.name = false
  value : '=' ∉ header.value
  extensions : ∀ av ∈ header.attributes, av.count '=' = 1 → isAttribute (avName av) = true
  attributes : ∀ field value, (valuesOf field header.attributes).getLast? = some value → '=' ∉ value

end SetCookie

/-- The header map of a response, after `on_header` has been called for each `Set-Cookie`. -/
def received (headers : List SetCookie) : HeaderFrame :=
  headers.foldl (fun frame header =>
    frame.add "set-cookie".toList (ResponseRecords.trim header.text)) []

/-- What `parse_and_save_cookies` parses of a header map. -/
def parsedCookies (frame : HeaderFrame) (originAuthority originSchema : Text) : List Cookie :=
  match frame.find "Set-Cookie".toList with
  | none => []
  | some entry => parseCookieString entry.2 originAuthority originSchema

/-! ## The tokens -/

theorem not_mem_of_all {p : Char → Bool} {text : Text} {c : Char} (all : text.all p = true)
    (other : p c = false) : c ∉ text :=
  fun listed => by simp [List.all_eq_true.mp all c listed] at other

namespace SetCookie

variable (header : SetCookie)

theorem eq_not_mem_name : '=' ∉ header.name := not_mem_of_all header.token.2 (by decide)

theorem semicolon_not_mem_value : ';' ∉ header.value := by
  have octet : isCookieOctet ';' = false := by decide
  rcases header.octets with all | ⟨quoted, whole, all⟩
  · exact not_mem_of_all all octet
  · rw [whole]
    simp only [List.cons_append, List.mem_cons, List.mem_append, List.not_mem_nil, or_false]
    rintro (quote | listed | quote)
    · cases quote
    · exact not_mem_of_all all octet listed
    · cases quote

theorem semicolon_not_mem_pieces : ∀ piece ∈ header.pieces, ';' ∉ piece := by
  intro piece listed
  rcases List.mem_cons.mp listed with rfl | attached
  · have absent := not_mem_of_all header.token.2 (c := ';') (by decide)
    simp [pair, absent, header.semicolon_not_mem_value]
  · exact not_mem_of_all (List.all_eq_true.mp header.avs piece attached) (by decide)

theorem trim_text : ResponseRecords.trim header.text = header.text := by
  obtain ⟨c, rest, named⟩ := List.exists_cons_of_ne_nil header.token.1
  have visible := List.all_eq_true.mp header.token.2 c (by simp [named])
  have starts : ∃ tail, header.text = c :: tail := by
    rw [text, pieces, pair, named]
    cases header.attributes <;> simp [List.intercalate_cons_cons]
  obtain ⟨tail, starts⟩ := starts
  have nonblank : c ≠ ' ' := by
    rintro rfl
    exact absurd visible (by decide)
  rw [starts, ResponseRecords.trim, List.dropWhile_cons_of_neg (by simpa using nonblank)]

end SetCookie

theorem find_received (headers : List SetCookie) (some : headers ≠ []) :
    ((received headers).find "Set-Cookie".toList).map Prod.snd =
      .some (List.intercalate "; ".toList (headers.flatMap SetCookie.pieces)) := by
  induction headers using List.reverseRecOn with
  | nil => exact absurd rfl some
  | append_singleton headers header ih =>
    have added := ResponseRecords.value_add (received headers) "set-cookie".toList
      (ResponseRecords.trim header.text) "Set-Cookie".toList
    rw [if_pos (by decide)] at added
    have last : received (headers ++ [header]) =
        (received headers).add "set-cookie".toList (ResponseRecords.trim header.text) := by
      rw [received, List.foldl_append]
      rfl
    rw [last]
    refine added.trans ?_
    rw [header.trim_text, ResponseRecords.value]
    by_cases empty : headers = []
    · subst empty
      simp [received, HeaderFrame.find, ResponseRecords.join, SetCookie.text]
    · have before : headers.flatMap SetCookie.pieces ≠ [] := by
        obtain ⟨first, rest, rfl⟩ := List.exists_cons_of_ne_nil empty
        simp [SetCookie.pieces]
      rw [ih empty, List.flatMap_append, Strings.intercalate_append _ before (by simp [SetCookie.pieces])]
      simp [ResponseRecords.join, SetCookie.text]

theorem parsedCookies_received (headers : List SetCookie) (originAuthority originSchema : Text) :
    parsedCookies (received headers) originAuthority originSchema =
      ((headers.flatMap SetCookie.pieces).foldl (parseToken originAuthority originSchema) []).reverse := by
  by_cases empty : headers = []
  · subst empty
    rfl
  · have found := find_received headers empty
    rw [parsedCookies]
    cases entered : (received headers).find "Set-Cookie".toList with
    | none =>
      rw [entered] at found
      cases found
    | some entry =>
      rw [entered] at found
      have whole : entry.2 = _ := Option.some.inj found
      have cut : Strings.tokenize "; ".toList entry.2 = headers.flatMap SetCookie.pieces := by
        rw [whole]
        refine Strings.tokenize_intercalate ?_ ?_
        · intro piece listed
          obtain ⟨header, -, inside⟩ := List.mem_flatMap.mp listed
          exact header.semicolon_not_mem_pieces piece inside
        · obtain ⟨first, rest, rfl⟩ := List.exists_cons_of_ne_nil empty
          simp [SetCookie.pieces]
      simp only [parseCookieString, cut]

/-! ## A token -/

theorem avName_append (name value : Text) (absent : '=' ∉ name) :
    avName (name ++ '=' :: value) = name ∧ avValue (name ++ '=' :: value) = some value := by
  have all : ∀ c ∈ name, decide (c ≠ '=') = true := fun c listed =>
    decide_eq_true fun same => absent (same ▸ listed)
  rw [avName, avValue, List.takeWhile_append_of_pos all, List.dropWhile_append_of_pos all]
  simp

theorem eq_of_avValue (av : Text) :
    av = avName av ++ match avValue av with
      | none => []
      | some value => '=' :: value := by
  have whole : av = avName av ++ av.dropWhile (· ≠ '=') := List.takeWhile_append_dropWhile.symm
  rw [avValue]
  cases rest : av.dropWhile (· ≠ '=') with
  | nil =>
    rw [rest] at whole
    exact whole
  | cons c value =>
    have stops : c = '=' := by
      have head := List.head?_dropWhile_not (fun c : Char => decide (c ≠ '=')) av
      rw [rest] at head
      simpa using head
    rw [rest, stops] at whole
    exact whole

theorem eq_not_mem_avName (av : Text) : '=' ∉ avName av := by
  intro listed
  have before := List.mem_takeWhile_imp listed
  simp at before

theorem tokenize_append_eq {front : Text} (absent : '=' ∉ front) (rest : Text) :
    Strings.tokenize "=".toList (front ++ '=' :: rest) = front :: Strings.tokenize "=".toList rest := by
  have cut : Strings.tokenize ['='] (front ++ ['='] ++ rest) = _ := Strings.tokenize_append absent rest
  rw [List.append_assoc] at cut
  exact cut

theorem tokenize_token (av : Text) :
    Strings.tokenize "=".toList av = avName av :: match avValue av with
      | none => []
      | some value => Strings.tokenize "=".toList value := by
  have whole := eq_of_avValue av
  cases valued : avValue av with
  | none =>
    rw [valued, List.append_nil] at whole
    conv_lhs => rw [whole]
    exact Strings.tokenize_of_not_mem (eq_not_mem_avName av)
  | some value =>
    rw [valued] at whole
    conv_lhs => rw [whole]
    exact tokenize_append_eq (eq_not_mem_avName av) value

theorem tokenize_value_of_not_mem {value : Text} (absent : '=' ∉ value) :
    Strings.tokenize "=".toList value = [value] :=
  Strings.tokenize_of_not_mem absent

theorem tokenize_value_of_mem {value : Text} (present : '=' ∈ value) :
    ∃ first second rest, Strings.tokenize "=".toList value = first :: second :: rest := by
  obtain ⟨front, later, rfl, absent⟩ := List.eq_append_cons_of_mem present
  have some : Strings.tokenize "=".toList later ≠ [] := Strings.tokenize_ne_nil _ later
  obtain ⟨second, rest, more⟩ := List.exists_cons_of_ne_nil some
  exact ⟨front, second, rest, (tokenize_append_eq absent later).trans (by rw [more])⟩

theorem count_eq_one_iff (av : Text) : av.count '=' = 1 ↔ ∃ value, avValue av = some value ∧ '=' ∉ value := by
  have whole := eq_of_avValue av
  have front : (avName av).count '=' = 0 := List.count_eq_zero.mpr (eq_not_mem_avName av)
  cases valued : avValue av with
  | none =>
    rw [valued, List.append_nil] at whole
    rw [whole, front]
    simp
  | some value =>
    rw [valued] at whole
    rw [whole, List.count_append, front, List.count_cons_self]
    simp [List.count_eq_zero]

namespace Attribute

/-- What the code takes from an attribute: nothing if its value has an equals sign. -/
def read (cookie : Cookie) : Attribute → Cookie
  | valued field value => if '=' ∈ value then cookie else field.put value cookie
  | other => other.attach cookie

end Attribute

/-- A chain of conditions on the name of a field finds the field; the names themselves do not matter. -/
theorem chain_eq_find? {β : Type} (name : Field → Text) (key : Text) (result : Field → β) (otherwise : β) :
    (if key = name .expires then result .expires else if key = name .domain then result .domain
      else if key = name .path then result .path else if key = name .sameSite then result .sameSite
      else if key = name .maxAge then result .maxAge
      else otherwise) =
      match Field.all.find? fun field => key = name field with
      | some field => result field
      | none => otherwise := by
  simp only [Field.all, List.find?_cons, List.find?_nil]
  split_ifs with expires domain path sameSite maxAge
  · simp [← expires]
  · simp [expires, ← domain]
  · simp [expires, domain, ← path]
  · simp [expires, domain, path, ← sameSite]
  · simp [expires, domain, path, sameSite, ← maxAge]
  · simp [expires, domain, path, sameSite, maxAge]

theorem setAttribute_valued (latest : Cookie) (key value : Text) :
    latest.setAttribute key [value] =
      match Field.all.find? fun field => key = field.name with
      | some field => field.put value latest
      | none => latest :=
  chain_eq_find? Field.name key (fun field => field.put value latest) latest

theorem setAttribute_eq_read (latest : Cookie) (av : Text) (values : List Text)
    (cut : Strings.tokenize "=".toList av = avName av :: values) :
    latest.setAttribute (lower (avName av)) values = (attributeOf av).read latest := by
  rw [tokenize_token] at cut
  have rest := (List.cons.inj cut).2
  unfold attributeOf
  cases valued : avValue av with
  | none =>
    rw [valued] at rest
    subst rest
    simp only [Cookie.setAttribute]
    split
    · rfl
    · split <;> rfl
  | some value =>
    rw [valued] at rest
    subst rest
    by_cases present : '=' ∈ value
    · obtain ⟨first, second, others, more⟩ := tokenize_value_of_mem present
      simp only [more, Cookie.setAttribute]
      cases Field.all.find? fun field => lower (avName av) = field.name with
      | none => rfl
      | some field => exact (if_pos present).symm
    · simp only [tokenize_value_of_not_mem present, setAttribute_valued]
      cases Field.all.find? fun field => lower (avName av) = field.name with
      | none => rfl
      | some field => exact (if_neg present).symm

theorem ne_of_not_isAttribute {key name : Text} (unknown : isAttribute key = false)
    (listed : name ∈ cookieAttributes) : lower key ≠ name := by
  rintro rfl
  have known : isAttribute key = true := List.contains_iff_mem.mpr listed
  rw [known] at unknown
  cases unknown

theorem attributeOf_of_unknown {av : Text} (unknown : isAttribute (avName av) = false) :
    attributeOf av = .extension := by
  unfold attributeOf
  cases avValue av with
  | none =>
    rw [if_neg (ne_of_not_isAttribute unknown (by decide)),
      if_neg (ne_of_not_isAttribute unknown (by decide))]
  | some value =>
    have missing : (Field.all.find? fun field => lower (avName av) = field.name) = none := by
      refine List.find?_eq_none.mpr fun field _ => ?_
      have different : lower (avName av) ≠ field.name :=
        ne_of_not_isAttribute unknown (by cases field <;> decide)
      simpa using different
    simp only [missing]

def begins (token : Text) : Bool := !isAttribute (avName token) && token.count '=' == 1

section Loop

variable (originAuthority originSchema : Text)

theorem parseToken_of_known {av : Text} (known : isAttribute (avName av) = true) (parsed : List Cookie) :
    parseToken originAuthority originSchema parsed av =
      parsed.modifyHead fun latest => (attributeOf av).read latest := by
  unfold parseToken
  have cut := tokenize_token av
  rw [cut]
  simp only [known, if_true]
  cases parsed with
  | nil => rfl
  | cons latest before => exact congrArg (· :: before) (setAttribute_eq_read latest av _ cut)

theorem parseToken_of_begins {token : Text} (fresh : begins token = true) (parsed : List Cookie) :
    ∃ value, avValue token = some value ∧ '=' ∉ value ∧
      parseToken originAuthority originSchema parsed token =
        { origin := lower originAuthority
          secureOrigin := originSchema = "https".toList
          cookieKey := avName token
          cookieValue := value
          sameSite := "Lax".toList } :: parsed := by
  simp only [begins, Bool.and_eq_true, Bool.not_eq_true', beq_iff_eq] at fresh
  obtain ⟨unknown, once⟩ := fresh
  obtain ⟨value, valued, absent⟩ := (count_eq_one_iff token).mp once
  refine ⟨value, valued, absent, ?_⟩
  unfold parseToken
  rw [tokenize_token, valued]
  simp only [unknown, tokenize_value_of_not_mem absent]
  rfl

theorem parseToken_of_not {token : Text} (stale : begins token = false)
    (unknown : isAttribute (avName token) = false) (parsed : List Cookie) :
    parseToken originAuthority originSchema parsed token = parsed := by
  have often : token.count '=' ≠ 1 := by
    intro once
    simp [begins, unknown, once] at stale
  unfold parseToken
  rw [tokenize_token]
  simp only [unknown]
  cases valued : avValue token with
  | none => rfl
  | some value =>
    by_cases present : '=' ∈ value
    · obtain ⟨first, second, rest, more⟩ := tokenize_value_of_mem present
      simp only [more]
      rfl
    · exact absurd ((count_eq_one_iff token).mpr ⟨value, valued, present⟩) often

theorem parseToken_of_not_begins {token : Text} (stale : begins token = false) (parsed : List Cookie) :
    parseToken originAuthority originSchema parsed token =
      parsed.modifyHead fun latest => (attributeOf token).read latest := by
  cases known : isAttribute (avName token) with
  | true => exact parseToken_of_known originAuthority originSchema known parsed
  | false =>
    rw [parseToken_of_not originAuthority originSchema stale known, attributeOf_of_unknown known]
    cases parsed <;> rfl

theorem length_foldl_parseToken (tokens : List Text) (parsed : List Cookie) :
    (tokens.foldl (parseToken originAuthority originSchema) parsed).length =
      parsed.length + tokens.countP begins := by
  induction tokens generalizing parsed with
  | nil => rfl
  | cons token tokens ih =>
    rw [List.foldl_cons, ih, List.countP_cons]
    cases fresh : begins token with
    | true =>
      obtain ⟨value, -, -, added⟩ :=
        parseToken_of_begins originAuthority originSchema fresh parsed
      rw [added, List.length_cons, if_pos rfl]
      omega
    | false =>
      rw [parseToken_of_not_begins originAuthority originSchema fresh, List.length_modifyHead]
      simp

theorem foldl_parseToken_of_not_begins {tokens : List Text} (stale : ∀ token ∈ tokens, begins token = false)
    (latest : Cookie) (before : List Cookie) :
    tokens.foldl (parseToken originAuthority originSchema) (latest :: before) =
      tokens.foldl (fun cookie av => (attributeOf av).read cookie) latest :: before := by
  induction tokens generalizing latest with
  | nil => rfl
  | cons token tokens ih =>
    rw [List.foldl_cons, parseToken_of_not_begins originAuthority originSchema (stale token (by simp)),
      List.modifyHead_cons, ih fun other listed => stale other (List.mem_cons_of_mem _ listed)]
    rfl

end Loop

/-! ## The fields of a cookie -/

theorem eq_of_toLower {c : Char} (same : c.toLower = '=') : c = '=' := by
  unfold Char.toLower at same
  split at same
  · rename_i upper
    have moved : c.val + 32 = 61 := congrArg Char.val same
    grind
  · exact same

theorem Field.eq_mem_kept (field : Field) (value : Text) : '=' ∈ field.kept value ↔ '=' ∈ value := by
  cases field with
  | domain =>
    constructor
    · intro listed
      obtain ⟨c, inside, same⟩ := List.mem_map.mp listed
      exact eq_of_toLower same ▸ inside
    · intro listed
      exact List.mem_map.mpr ⟨'=', listed, by decide⟩
  | expires => exact Iff.rfl
  | path => exact Iff.rfl
  | sameSite => exact Iff.rfl
  | maxAge => exact Iff.rfl

namespace Attribute

theorem get_put (field other : Field) (value : Text) (cookie : Cookie) :
    field.get (other.put value cookie) = if other = field then field.kept value else field.get cookie := by
  cases field <;> cases other <;> rfl

theorem get_attach (field : Field) (a : Attribute) (cookie : Cookie) :
    field.get (a.attach cookie) = (a.valueOf field).elim (field.get cookie) field.kept := by
  cases a with
  | valued other value =>
    rw [attach, get_put, valueOf]
    split <;> rfl
  | secure => cases field <;> rfl
  | httpOnly => cases field <;> rfl
  | extension => rfl

theorem get_read (field : Field) (a : Attribute) (cookie : Cookie) :
    field.get (a.read cookie) =
      ((a.valueOf field).filter fun value => '=' ∉ value).elim (field.get cookie) field.kept := by
  cases a with
  | valued other value =>
    by_cases present : '=' ∈ value
    · rw [read, if_pos present, valueOf]
      split <;> simp [Option.filter, present]
    · rw [read, if_neg present, get_put, valueOf]
      split <;> simp [Option.filter, present]
  | secure => cases field <;> rfl
  | httpOnly => cases field <;> rfl
  | extension => rfl

theorem read_pair (a : Attribute) (cookie : Cookie) :
    (a.read cookie).cookieKey = cookie.cookieKey ∧ (a.read cookie).cookieValue = cookie.cookieValue := by
  cases a with
  | valued field value =>
    rw [read]
    split
    · exact ⟨rfl, rfl⟩
    · cases field <;> exact ⟨rfl, rfl⟩
  | secure => exact ⟨rfl, rfl⟩
  | httpOnly => exact ⟨rfl, rfl⟩
  | extension => exact ⟨rfl, rfl⟩

end Attribute

def Cookie.rest (cookie : Cookie) : Cookie :=
  { cookie with expires := [], domain := [], path := [], sameSite := [], maxAge := [] }

theorem Cookie.eq_of_rest {a b : Cookie} (same : a.rest = b.rest)
    (fields : ∀ field : Field, field.get a = field.get b) : a = b := by
  have expires : a.expires = b.expires := fields .expires
  have domain : a.domain = b.domain := fields .domain
  have path : a.path = b.path := fields .path
  have sameSite : a.sameSite = b.sameSite := fields .sameSite
  have maxAge : a.maxAge = b.maxAge := fields .maxAge
  cases a
  cases b
  simp_all [Cookie.rest]

theorem rest_put (field : Field) (value : Text) (cookie : Cookie) :
    (field.put value cookie).rest = cookie.rest := by
  cases field <;> rfl

theorem rest_read {a b : Cookie} (same : a.rest = b.rest) (x : Attribute) :
    (x.read a).rest = (x.attach b).rest := by
  cases x with
  | valued field value =>
    rw [Attribute.attach, rest_put, ← same, Attribute.read]
    split
    · rfl
    · exact rest_put field value a
  | secure => exact congrArg (fun cookie : Cookie => { cookie with secure := true }) same
  | httpOnly => exact congrArg (fun cookie : Cookie => { cookie with httpOnly := true }) same
  | extension => exact same

/-! ## A header -/

section Attributes

def readAll (cookie : Cookie) (avs : List Text) : Cookie :=
  avs.foldl (fun cookie av => (attributeOf av).read cookie) cookie

variable (cookie : Cookie) (avs : List Text)

theorem get_attachAll (field : Field) :
    field.get (attachAll cookie avs) = (valuesOf field avs).getLast?.elim (field.get cookie) field.kept := by
  induction avs using List.reverseRecOn with
  | nil => rfl
  | append_singleton avs av ih =>
    rw [attachAll, List.foldl_append, List.foldl_cons, List.foldl_nil, Attribute.get_attach,
      ← attachAll, ih, valuesOf, valuesOf, List.filterMap_append, List.getLast?_append]
    cases given : (attributeOf av).valueOf field <;> simp [given]

theorem get_readAll (field : Field) :
    field.get (readAll cookie avs) =
      ((valuesOf field avs).filter fun value => '=' ∉ value).getLast?.elim (field.get cookie)
        field.kept := by
  induction avs using List.reverseRecOn with
  | nil => rfl
  | append_singleton avs av ih =>
    rw [readAll, List.foldl_append, List.foldl_cons, List.foldl_nil, Attribute.get_read, ← readAll,
      ih, valuesOf, valuesOf, List.filterMap_append, List.filter_append, List.getLast?_append]
    cases given : (attributeOf av).valueOf field with
    | none => simp [given]
    | some value => by_cases present : '=' ∈ value <;> simp [given, Option.filter, present]

theorem rest_readAll : (readAll cookie avs).rest = (attachAll cookie avs).rest := by
  induction avs using List.reverseRecOn with
  | nil => rfl
  | append_singleton avs av ih =>
    simp only [readAll, attachAll, List.foldl_append, List.foldl_cons, List.foldl_nil]
    exact rest_read ih (attributeOf av)

theorem readAll_pair : (readAll cookie avs).cookieKey = cookie.cookieKey ∧
      (readAll cookie avs).cookieValue = cookie.cookieValue := by
  induction avs using List.reverseRecOn with
  | nil => exact ⟨rfl, rfl⟩
  | append_singleton avs av ih =>
    rw [readAll, List.foldl_append, List.foldl_cons, List.foldl_nil, ← readAll]
    have kept := (attributeOf av).read_pair (readAll cookie avs)
    exact ⟨kept.1.trans ih.1, kept.2.trans ih.2⟩

theorem attachAll_pair : (attachAll cookie avs).cookieKey = cookie.cookieKey ∧
      (attachAll cookie avs).cookieValue = cookie.cookieValue := by
  have same := rest_readAll cookie avs
  have kept := readAll_pair cookie avs
  exact ⟨(congrArg Cookie.cookieKey same).symm.trans kept.1,
    (congrArg Cookie.cookieValue same).symm.trans kept.2⟩

/-- The last value has no equals sign exactly if it is the last of those that have none. -/
theorem last_eq_iff (field : Field) {start : Text} (free : '=' ∉ start) (values : List Text) :
    (values.filter fun value => '=' ∉ value).getLast?.elim start field.kept =
        values.getLast?.elim start field.kept ↔
      ∀ value, values.getLast? = some value → '=' ∉ value := by
  rcases List.eq_nil_or_concat values with rfl | ⟨before, last, rfl⟩
  · simp
  rw [List.concat_eq_append, List.getLast?_concat]
  simp only [Option.some.injEq, forall_eq']
  by_cases present : '=' ∈ last
  · refine iff_of_false (fun same => ?_) (fun absent => absent present)
    -- what the code keeps is one of the values without the sign, or what was there at first
    have kept : '=' ∉ ((before ++ [last]).filter fun value => '=' ∉ value).getLast?.elim start
        field.kept := by
      cases found : ((before ++ [last]).filter fun value => '=' ∉ value).getLast? with
      | none => exact free
      | some value =>
        have listed := List.mem_of_getLast? found
        rw [Option.elim_some, field.eq_mem_kept]
        simpa using (List.mem_filter.mp listed).2
    rw [same, Option.elim_some, field.eq_mem_kept] at kept
    exact kept present
  · refine iff_of_true ?_ present
    rw [List.filter_append, List.filter_cons_of_pos (by simpa using present), List.filter_nil,
      List.getLast?_concat]

end Attributes

namespace SetCookie

variable (header : SetCookie) (originAuthority originSchema : Text)

theorem readAll_eq_cookie_iff :
    readAll (header.bare originAuthority originSchema) header.attributes =
        header.cookie originAuthority originSchema ↔
      ∀ field value, (valuesOf field header.attributes).getLast? = some value → '=' ∉ value := by
  have free : ∀ field : Field, '=' ∉ field.get (header.bare originAuthority originSchema) := by
    intro field
    cases field <;> simp [Field.get, bare]
  have compare : ∀ field : Field,
      field.get (readAll (header.bare originAuthority originSchema) header.attributes) =
          field.get (header.cookie originAuthority originSchema) ↔
        ∀ value, (valuesOf field header.attributes).getLast? = some value → '=' ∉ value := by
    intro field
    rw [get_readAll, cookie, get_attachAll]
    exact last_eq_iff field (free field) _
  constructor
  · intro same field
    exact (compare field).mp (congrArg field.get same)
  · intro absent
    exact Cookie.eq_of_rest (rest_readAll ..) fun field => (compare field).mpr (absent field)

theorem begins_pair_iff : begins header.pair = true ↔ isAttribute header.name = false ∧ '=' ∉ header.value := by
  obtain ⟨named, valued⟩ := avName_append header.name header.value header.eq_not_mem_name
  rw [begins, Bool.and_eq_true, Bool.not_eq_true', beq_iff_eq, count_eq_one_iff, pair, named, valued]
  simp

/-- A header is plain if its first token alone begins a cookie and no attribute is lost. -/
theorem plain_iff : header.Plain ↔ begins header.pair = true ∧ (∀ av ∈ header.attributes, begins av = false) ∧
      ∀ field value, (valuesOf field header.attributes).getLast? = some value → '=' ∉ value := by
  have extension : ∀ av : Text, (av.count '=' = 1 → isAttribute (avName av) = true) ↔ begins av = false := by
    intro av
    cases known : isAttribute (avName av) <;> simp [begins, known]
  rw [begins_pair_iff]
  constructor
  · intro plain
    exact ⟨⟨plain.name, plain.value⟩, fun av listed => (extension av).mp (plain.extensions av listed),
      plain.attributes⟩
  · rintro ⟨⟨name, value⟩, stale, attributes⟩
    exact ⟨name, value, fun av listed => (extension av).mpr (stale av listed), attributes⟩

theorem foldl_pieces (fresh : begins header.pair = true)
    (stale : ∀ av ∈ header.attributes, begins av = false) (parsed : List Cookie) :
    header.pieces.foldl (parseToken originAuthority originSchema) parsed =
      readAll (header.bare originAuthority originSchema) header.attributes :: parsed := by
  obtain ⟨value, valued, -, added⟩ := parseToken_of_begins originAuthority originSchema fresh parsed
  obtain ⟨named, given⟩ := avName_append header.name header.value header.eq_not_mem_name
  have same : value = header.value := Option.some.inj (valued.symm.trans given)
  have named' : avName header.pair = header.name := named
  rw [pieces, List.foldl_cons, added, foldl_parseToken_of_not_begins originAuthority originSchema stale,
    same, named']
  rfl

end SetCookie

/-! ## A response -/

section Response

variable (originAuthority originSchema : Text)

theorem foldl_headers {headers : List SetCookie} (fresh : ∀ header ∈ headers, begins header.pair = true)
    (stale : ∀ header ∈ headers, ∀ av ∈ header.attributes, begins av = false) (parsed : List Cookie) :
    (headers.flatMap SetCookie.pieces).foldl (parseToken originAuthority originSchema) parsed =
      (headers.map fun header =>
        readAll (header.bare originAuthority originSchema) header.attributes).reverse ++ parsed := by
  induction headers generalizing parsed with
  | nil => rfl
  | cons header headers ih =>
    rw [List.flatMap_cons, List.foldl_append,
      header.foldl_pieces originAuthority originSchema (fresh header (by simp)) (stale header (by simp)),
      ih (fun other listed => fresh other (List.mem_cons_of_mem _ listed))
        fun other listed => stale other (List.mem_cons_of_mem _ listed)]
    simp

/-- Every cookie that is read has its name and its value from a token that begins one. -/
theorem exists_token_of_mem {tokens : List Text} {cookie : Cookie}
    (read : cookie ∈ tokens.foldl (parseToken originAuthority originSchema) []) :
    ∃ token ∈ tokens, begins token = true ∧ avName token = cookie.cookieKey ∧
      avValue token = some cookie.cookieValue := by
  induction tokens using List.reverseRecOn generalizing cookie with
  | nil => cases read
  | append_singleton tokens token ih =>
    rw [List.foldl_append, List.foldl_cons, List.foldl_nil] at read
    have earlier : ∀ {other : Cookie}, other ∈ tokens.foldl (parseToken originAuthority originSchema) [] →
        ∃ token' ∈ tokens ++ [token], begins token' = true ∧ avName token' = other.cookieKey ∧
          avValue token' = some other.cookieValue := by
      intro other parsed
      obtain ⟨token', listed, found⟩ := ih parsed
      exact ⟨token', List.mem_append_left _ listed, found⟩
    generalize tokens.foldl (parseToken originAuthority originSchema) [] = parsed at read earlier
    cases fresh : begins token with
    | true =>
      obtain ⟨value, valued, -, added⟩ :=
        parseToken_of_begins originAuthority originSchema fresh parsed
      rw [added] at read
      rcases List.mem_cons.mp read with rfl | before
      · exact ⟨token, by simp, fresh, rfl, valued⟩
      · exact earlier before
    | false =>
      rw [parseToken_of_not_begins originAuthority originSchema fresh] at read
      cases parsed with
      | nil => cases read
      | cons latest before =>
        rcases List.mem_cons.mp read with rfl | old
        · rw [((attributeOf token).read_pair latest).1, ((attributeOf token).read_pair latest).2]
          exact earlier List.mem_cons_self
        · exact earlier (List.mem_cons_of_mem _ old)

theorem length_le_countP {headers : List SetCookie} (fresh : ∀ header ∈ headers, begins header.pair = true) :
    headers.length ≤ (headers.flatMap SetCookie.pieces).countP begins := by
  induction headers with
  | nil => simp
  | cons header headers ih =>
    have later := ih fun other listed => fresh other (List.mem_cons_of_mem _ listed)
    rw [List.flatMap_cons, List.countP_append, SetCookie.pieces,
      List.countP_cons_of_pos (fresh header (by simp)), List.length_cons]
    omega

theorem stale_of_countP {headers : List SetCookie} (fresh : ∀ header ∈ headers, begins header.pair = true)
    (one : (headers.flatMap SetCookie.pieces).countP begins = headers.length) :
    ∀ header ∈ headers, ∀ av ∈ header.attributes, begins av = false := by
  induction headers with
  | nil => nofun
  | cons header headers ih =>
    have fresh' := fun other listed => fresh other (List.mem_cons_of_mem header listed)
    have later := length_le_countP fresh'
    rw [List.flatMap_cons, List.countP_append, SetCookie.pieces,
      List.countP_cons_of_pos (fresh header (by simp)), List.length_cons] at one
    have none : header.attributes.countP begins = 0 := by omega
    intro other listed
    rcases List.mem_cons.mp listed with rfl | rest
    · intro av attached
      simpa using List.countP_eq_zero.mp none av attached
    · exact ih fresh' (by omega) other rest

end Response

/-- **The headers of a response set the cookies that are read exactly if they are plain.** -/
theorem parsed_iff_plain (headers : List SetCookie) (originAuthority originSchema : Text) :
    parsedCookies (received headers) originAuthority originSchema =
        headers.map (fun header => header.cookie originAuthority originSchema) ↔
      ∀ header ∈ headers, header.Plain := by
  rw [parsedCookies_received]
  have reading : (∀ header ∈ headers, begins header.pair = true) →
      (∀ header ∈ headers, ∀ av ∈ header.attributes, begins av = false) →
      ((headers.flatMap SetCookie.pieces).foldl (parseToken originAuthority originSchema) []).reverse =
        headers.map fun header =>
          readAll (header.bare originAuthority originSchema) header.attributes := by
    intro fresh stale
    rw [foldl_headers originAuthority originSchema fresh stale, List.append_nil, List.reverse_reverse]
  constructor
  · intro same
    have fresh : ∀ header ∈ headers, begins header.pair = true := by
      intro header listed
      have parsed := List.mem_map_of_mem (f := fun header => SetCookie.cookie header originAuthority originSchema) listed
      rw [← same, List.mem_reverse] at parsed
      obtain ⟨token, -, begun, named, valued⟩ := exists_token_of_mem originAuthority originSchema parsed
      rw [SetCookie.cookie, (attachAll_pair ..).1] at named
      rw [SetCookie.cookie, (attachAll_pair ..).2] at valued
      rw [begins, Bool.and_eq_true, Bool.not_eq_true', beq_iff_eq, count_eq_one_iff, named, valued] at begun
      obtain ⟨unknown, value, same, absent⟩ := begun
      cases same
      exact header.begins_pair_iff.mpr ⟨unknown, absent⟩
    have stale : ∀ header ∈ headers, ∀ av ∈ header.attributes, begins av = false := by
      refine stale_of_countP fresh ?_
      have lengths := congrArg List.length same
      rwa [List.length_reverse, length_foldl_parseToken, List.length_map, List.length_nil,
        Nat.zero_add] at lengths
    rw [reading fresh stale, List.map_inj_left] at same
    intro header listed
    exact header.plain_iff.mpr ⟨fresh header listed, stale header listed,
      (header.readAll_eq_cookie_iff originAuthority originSchema).mp (same header listed)⟩
  · intro plain
    have parts := fun header listed => (SetCookie.plain_iff header).mp (plain header listed)
    rw [reading (fun header listed => (parts header listed).1) fun header listed =>
      (parts header listed).2.1, List.map_inj_left]
    intro header listed
    exact (header.readAll_eq_cookie_iff originAuthority originSchema).mpr (parts header listed).2.2

/-! ## Poles -/

def signedValue : SetCookie where
  name := "session".toList
  value := "dGVzdA==".toList
  attributes := ["Path=/".toList]
  token := by decide
  octets := .inl (by decide)
  avs := by decide

/-- **Refuting pole:** a value in base 64 is lost, and with it the cookie. -/
theorem signedValue_lost : parsedCookies (received [signedValue]) "example.com".toList "https".toList = [] ∧
      [signedValue].map (fun header => header.cookie "example.com".toList "https".toList) ≠ [] :=
  ⟨by decide +kernel, List.cons_ne_nil _ _⟩

def plainHeader : SetCookie where
  name := "lang".toList
  value := "en".toList
  attributes := ["domain=Example.com".toList, "Secure".toList]
  token := by decide
  octets := .inl (by decide)
  avs := by decide

/-- **Satisfiable pole:** a header is read twice over, with its domain and its flag. -/
theorem plainHeader_parsed :
    parsedCookies (received [plainHeader, plainHeader]) "example.com".toList "https".toList =
      [plainHeader, plainHeader].map fun header =>
        header.cookie "example.com".toList "https".toList := by
  have unsigned : ∀ field, ∀ value ∈ valuesOf field plainHeader.attributes, '=' ∉ value := by
    intro field
    cases field <;> decide
  have plain : plainHeader.Plain :=
    ⟨by decide, by decide, by decide, fun field value last =>
      unsigned field value (List.mem_of_getLast? last)⟩
  refine (parsed_iff_plain _ _ _).mpr ?_
  intro header listed
  have same : header = plainHeader := by simpa using listed
  rw [same]
  exact plain

end H2LoadRunner.Load.Cookies
