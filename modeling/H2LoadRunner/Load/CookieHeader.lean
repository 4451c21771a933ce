/-
# Load.CookieHeader -- the configured cookies of a request and the saved ones

A `Cookie` header that is configured is kept in one of two maps: as it stands in
`req_headers_from_config`, or, if it contains variables, assembled in `req_headers_of_individual`, whose
entries take the place of the others when the request is sent.  `produce_request_cookie_header` looks
for it in the first map only and writes what it makes to the second.

* `complete_iff`: with every jar the header is the configured string and each sendable cookie that is
  not in it, exactly if the configured string is the one in the first map and the names in it are read;
  with a jar of which nothing may be sent it is in any case.
-/
import H2LoadRunner.Load.HeaderMap
import H2LoadRunner.Load.SetCookie

namespace H2LoadRunner.Load.Cookies

open Library

set_option autoImplicit false

/-! ## What is stated -/

/-- The `Cookie` header that is sent: an entry of the second map takes the place of the first's. -/
def Request.effectiveCookie (req : Request) : Option Text :=
  match req.cookieOfIndividual with
  | some text => some text
  | none => req.cookieFromConfig

def pairNames (text : Text) : List Text :=
  (Strings.tokenize "; ".toList text).filterMap fun token =>
    if '=' ∈ token then some (avName token) else none

/-- The saved cookies that belong in the header: those that may be sent and are not configured. -/
def Request.due (req : Request) (jar : Jar) : List (Text × Cookie) :=
  jar.filter fun entry => !(pairNames (req.effectiveCookie.getD [])).contains entry.1 &&
    entry.2.isAllowedToBeSent req.schema req.authority req.path

def cookieHeader (configured : Option Text) (sent : List (Text × Cookie)) : Option Text :=
  if sent = [] then configured
  else
    some (List.intercalate cookieDelimeter
      ((if configured.getD [] = [] then [] else [configured.getD []]) ++ sent.map render))

/-- The header consists of the configured string, followed by each cookie that belongs there, once. -/
def Complete (jar : Jar) (req : Request) : Prop :=
  ∃ sent, sent.Perm (req.due jar) ∧
    (produceRequestCookieHeader jar req).effectiveCookie = cookieHeader req.effectiveCookie sent

/-- The configured string is in the first map, and each of its names is read. -/
structure Request.Settled (req : Request) : Prop where
  configured : req.effectiveCookie.getD [] = req.cookieFromConfig.getD []
  read : ∀ name ∈ pairNames (req.cookieFromConfig.getD []), name ∈ req.cookiesFromConfig

instance (req : Request) : Decidable req.Settled :=
  decidable_of_iff
    (req.effectiveCookie.getD [] = req.cookieFromConfig.getD [] ∧
      (pairNames (req.cookieFromConfig.getD [])).all req.cookiesFromConfig.contains = true)
    ⟨fun both => ⟨both.1, by simpa using both.2⟩, fun settled => ⟨settled.configured, by simpa using settled.read⟩⟩

/-! ## The header that is produced -/

theorem effectiveCookie_produce (jar : Jar) (req : Request) :
    (produceRequestCookieHeader jar req).effectiveCookie = if jar.filter req.takes = [] then req.effectiveCookie
      else cookieHeader req.cookieFromConfig (jar.filter req.takes) := by
  split
  · rename_i none
    rw [produceRequestCookieHeader]
    exact congrArg Request.effectiveCookie (if_pos (.inr ((appendCookies_eq_nil req jar).mpr none)))
  · rename_i some
    have added : ¬ (jar = [] ∨ req.appendCookies [] jar = []) := by
      rintro (rfl | empty)
      · exact some rfl
      · exact some ((appendCookies_eq_nil req jar).mp empty)
    rw [produceRequestCookieHeader, if_neg added, appendCookies_eq, if_pos rfl, List.nil_append,
      cookieHeader, if_neg some, Request.effectiveCookie]
    cases req.cookieFromConfig with
    | none => rfl
    | some text =>
      by_cases empty : text = []
      · simp [empty]
      · obtain ⟨entry, rest, listed⟩ := List.exists_cons_of_ne_nil some
        simp [empty, listed, List.intercalate_cons_cons]

theorem cookiesFromConfig_subset (req : Request) {name : Text} (read : name ∈ req.cookiesFromConfig) :
    name ∈ pairNames (req.cookieFromConfig.getD []) := by
  rw [Request.cookiesFromConfig] at read
  cases configured : req.cookieFromConfig with
  | none =>
    rw [configured] at read
    cases read
  | some text =>
    rw [configured] at read
    obtain ⟨cookie, parsed, rfl⟩ := List.mem_map.mp read
    obtain ⟨token, listed, -, named, valued⟩ := exists_token_of_mem _ _ (List.mem_reverse.mp parsed)
    refine List.mem_filterMap.mpr ⟨token, listed, ?_⟩
    have signed : '=' ∈ token := by
      rw [eq_of_avValue token, valued]
      simp
    rw [if_pos signed, named]

theorem takes_of_settled {req : Request} (settled : req.Settled) (jar : Jar) :
    jar.filter req.takes = req.due jar := by
  refine List.filter_congr fun entry _ => ?_
  have same : req.cookiesFromConfig.contains entry.1 =
      (pairNames (req.effectiveCookie.getD [])).contains entry.1 := by
    rw [settled.configured, Bool.eq_iff_iff, List.contains_iff_mem, List.contains_iff_mem]
    exact ⟨cookiesFromConfig_subset req, settled.read entry.1⟩
  rw [Request.takes, same]

theorem cookieHeader_congr {first second : Option Text} (same : first.getD [] = second.getD [])
    {sent : List (Text × Cookie)} (some : sent ≠ []) : cookieHeader first sent = cookieHeader second sent := by
  rw [cookieHeader, cookieHeader, if_neg some, if_neg some, same]

theorem complete_of_settled {req : Request} (settled : req.Settled) (jar : Jar) : Complete jar req := by
  refine ⟨req.due jar, List.Perm.refl _, ?_⟩
  rw [effectiveCookie_produce, takes_of_settled settled]
  split
  · rename_i none
    rw [cookieHeader, if_pos none]
  · rename_i some
    exact cookieHeader_congr settled.configured.symm some

/-! ## A jar that shows what is missing -/

def hostCookie (req : Request) (name : Text) : Text × Cookie :=
  (name, { origin := lower req.authority, cookieKey := name })

theorem isAllowedToBeSent_hostCookie (req : Request) (name : Text) :
    (hostCookie req name).2.isAllowedToBeSent req.schema req.authority req.path = true := by
  simp [hostCookie, Cookie.isAllowedToBeSent]

theorem length_avName_le (token : Text) : (avName token).length ≤ token.length :=
  (List.takeWhile_sublist _).length_le

theorem length_le_of_mem_pairNames {name text : Text} (listed : name ∈ pairNames text) :
    name.length ≤ text.length := by
  obtain ⟨token, cut, named⟩ := List.mem_filterMap.mp listed
  split at named
  · cases named
    exact (length_avName_le token).trans (Strings.length_le_of_mem_tokenize cut)
  · cases named

def freshName (first second : Text) : Text := List.replicate (first.length + second.length + 1) 'x'

theorem freshName_not_mem (first second : Text) :
    freshName first second ∉ pairNames first ∧ freshName first second ∉ pairNames second := by
  constructor
  · intro listed
    have short := length_le_of_mem_pairNames listed
    simp only [freshName, List.length_replicate] at short
    omega
  · intro listed
    have short := length_le_of_mem_pairNames listed
    simp only [freshName, List.length_replicate] at short
    omega

theorem cookieHeader_singleton (configured : Option Text) (entry : Text × Cookie) :
    cookieHeader configured [entry] =
      some ((if configured.getD [] = [] then [] else configured.getD [] ++ cookieDelimeter) ++
        render entry) := by
  rw [cookieHeader, if_neg (List.cons_ne_nil _ _)]
  by_cases empty : configured.getD [] = []
  · simp [empty]
  · simp [empty, List.intercalate_cons_cons]

theorem configured_of_cookieHeader {first second : Option Text} {entry : Text × Cookie}
    (same : cookieHeader first [entry] = cookieHeader second [entry]) : first.getD [] = second.getD [] := by
  rw [cookieHeader_singleton, cookieHeader_singleton] at same
  have fronts := List.append_cancel_right (Option.some.inj same)
  split_ifs at fronts with empty other other
  · rw [empty, other]
  · exact absurd (List.append_eq_nil_iff.mp fronts.symm).1 other
  · exact absurd (List.append_eq_nil_iff.mp fronts).1 empty
  · exact List.append_cancel_right fronts

theorem cookieHeader_ne_configured (configured : Option Text) (entry : Text × Cookie) :
    (cookieHeader configured [entry]).getD [] ≠ configured.getD [] := by
  intro same
  have rendered := List.length_pos_iff.mpr (render_ne_nil entry)
  rw [cookieHeader_singleton, Option.getD_some] at same
  have lengths := congrArg List.length same
  rw [List.length_append] at lengths
  split_ifs at lengths with empty
  · rw [empty] at lengths
    simp only [List.length_nil] at lengths
    omega
  · rw [List.length_append] at lengths
    omega

theorem effectiveCookie_hostCookie {req : Request} {name : Text} (unread : name ∉ req.cookiesFromConfig) :
    (produceRequestCookieHeader [hostCookie req name] req).effectiveCookie =
      cookieHeader req.cookieFromConfig [hostCookie req name] := by
  have taken : [hostCookie req name].filter req.takes = [hostCookie req name] := by
    refine List.filter_cons_of_pos ?_
    rw [Request.takes, isAllowedToBeSent_hostCookie]
    simpa [hostCookie] using unread
  rw [effectiveCookie_produce, taken, if_neg (List.cons_ne_nil _ _)]

theorem due_hostCookie (req : Request) (name : Text) :
    req.due [hostCookie req name] =
      if name ∈ pairNames (req.effectiveCookie.getD []) then [] else [hostCookie req name] := by
  rw [Request.due, List.filter_cons, isAllowedToBeSent_hostCookie]
  by_cases listed : name ∈ pairNames (req.effectiveCookie.getD []) <;> simp [hostCookie, listed]

theorem settled_of_complete {req : Request} (complete : ∀ jar, Complete jar req) : req.Settled := by
  have configured : req.effectiveCookie.getD [] = req.cookieFromConfig.getD [] := by
    -- a cookie whose name is in neither string
    obtain ⟨outside, unread⟩ :=
      freshName_not_mem (req.effectiveCookie.getD []) (req.cookieFromConfig.getD [])
    obtain ⟨sent, order, header⟩ := complete [hostCookie req (freshName _ _)]
    rw [due_hostCookie, if_neg outside] at order
    rw [effectiveCookie_hostCookie (fun read => unread (cookiesFromConfig_subset req read)),
      List.perm_singleton.mp order] at header
    exact (configured_of_cookieHeader header).symm
  refine ⟨configured, fun name listed => ?_⟩
  by_contra unread
  obtain ⟨sent, order, header⟩ := complete [hostCookie req name]
  rw [due_hostCookie, configured, if_pos listed] at order
  rw [effectiveCookie_hostCookie unread, List.perm_nil.mp order] at header
  have string : cookieHeader req.cookieFromConfig [hostCookie req name] = req.effectiveCookie := header
  exact cookieHeader_ne_configured _ _ ((congrArg (·.getD []) string).trans configured)

/-- Nothing that is saved may be sent to the destination; there may be nothing at all. -/
def Request.Unmet (req : Request) (jar : Jar) : Prop :=
  ∀ entry ∈ jar, entry.2.isAllowedToBeSent req.schema req.authority req.path = false

theorem complete_of_unmet {req : Request} {jar : Jar} (unmet : req.Unmet jar) : Complete jar req := by
  have none : jar.filter req.takes = [] := by
    refine List.filter_eq_nil_iff.mpr fun entry member => ?_
    rw [Request.takes, unmet entry member, Bool.and_false]
    nofun
  refine ⟨[], ?_, ?_⟩
  · refine List.Perm.of_eq (List.filter_eq_nil_iff.mpr fun entry member => ?_).symm
    rw [unmet entry member, Bool.and_false]
    nofun
  · rw [effectiveCookie_produce, if_pos none]
    rfl

def shopRequest : Request := ⟨"https".toList, "shop.example".toList, "/".toList, none, none, []⟩

def shopJar : Jar := parseAndSaveCookies shopRequest ["sid=1".toList] []

theorem not_complete {jar : Jar} {req : Request} {sent : List (Text × Cookie)} {header : Text}
    (due : req.due jar = sent) (few : sent.length ≤ 1)
    (produced : (produceRequestCookieHeader jar req).effectiveCookie = some header)
    (different : cookieHeader req.effectiveCookie sent ≠ some header) : ¬ Complete jar req := by
  rintro ⟨other, order, complete⟩
  have same : other = sent := by
    rw [due] at order
    match sent, few with
    | [], _ => exact List.perm_nil.mp order
    | [entry], _ => exact List.perm_singleton.mp order
  rw [same, produced] at complete
  exact different complete.symm

end H2LoadRunner.Load.Cookies
