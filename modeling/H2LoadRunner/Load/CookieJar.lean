/-
# Load.CookieJar -- what the saved cookies forget, and what they do not

RFC 6265 tells cookies apart by name, domain and path (`Identity`).  `saved_cookies` has one place for
each name, so a cookie of another host, domain or path takes it.  `clear-old-cookies` is meant to empty
the jar before a request; `prepare_next_request` reads it only to leave the last response unparsed, and
what was saved before stays.

* `framed_iff`: saving the cookies of a response leaves every saved cookie of another identity as it is,
  exactly if no name is taken without its identity; and those of other hosts can still be sent to them
  if none of their names is taken.
* `cleared_iff`: whatever comes after a request that clears old cookies, no request carries one, exactly
  if none of those in the jar may be sent anywhere.
-/
import H2LoadRunner.Load.CookieScope
import H2LoadRunner.Load.ResponseRecords

namespace H2LoadRunner.Load.Cookies

open Library Library.Transition

set_option autoImplicit false

variable {cookie : Cookie} {jar : Jar} {entry : Text × Cookie} {user : User}

/-! ## One place for each name -/

def accepted (finished : Request) (setCookies : List Text) : List Cookie :=
  (setCookies.flatMap fun text => parseCookieString text finished.authority finished.schema).filter
    Cookie.isAcceptable

def saveAll (cookies : List Cookie) (jar : Jar) : Jar :=
  cookies.foldl (fun jar cookie => jar.save cookie.cookieKey cookie) jar

theorem parseAndSaveCookies_eq (finished : Request) (setCookies : List Text) (jar : Jar) :
    parseAndSaveCookies finished setCookies jar = saveAll (accepted finished setCookies) jar := by
  rw [parseAndSaveCookies, saveAll, accepted, List.foldl_filter]

/-- A map: keys decrease, and each cookie is under its name. -/
structure Jar.Keyed (jar : Jar) : Prop where
  sorted : jar.Pairwise fun a b => b.1 < a.1
  named : ∀ entry ∈ jar, entry.2.cookieKey = entry.1

theorem mem_save_of_ne {key : Text} (member : entry ∈ jar) (other : key ≠ entry.1) :
    entry ∈ jar.save key cookie := by
  induction jar with
  | nil => cases member
  | cons head rest ih =>
    rw [Jar.save]
    split_ifs with same below
    · rcases List.mem_cons.mp member with rfl | later
      · exact absurd same other
      · exact List.mem_cons_of_mem _ later
    · exact List.mem_cons_of_mem _ member
    · rcases List.mem_cons.mp member with rfl | later
      · exact List.mem_cons_self
      · exact List.mem_cons_of_mem _ (ih later)

variable {cookies : List Cookie} {turns : List Turn} {turn : Turn}

theorem mem_saveAll_of_ne (member : entry ∈ jar)
    (other : ∀ cookie ∈ cookies, cookie.cookieKey ≠ entry.1) : entry ∈ saveAll cookies jar := by
  induction cookies generalizing jar with
  | nil => exact member
  | cons cookie cookies ih =>
    exact ih (mem_save_of_ne member (other cookie List.mem_cons_self))
      fun later listed => other later (List.mem_cons_of_mem _ listed)

theorem mem_of_mem_saveAll (member : entry ∈ saveAll cookies jar) :
    entry ∈ jar ∨ entry.2 ∈ cookies ∧ entry.2.cookieKey = entry.1 := by
  induction cookies generalizing jar with
  | nil => exact .inl member
  | cons cookie cookies ih =>
    rcases ih member with earlier | ⟨listed, named⟩
    · rcases mem_of_mem_save earlier with rfl | old
      · exact .inr ⟨List.mem_cons_self, rfl⟩
      · exact .inl old
    · exact .inr ⟨List.mem_cons_of_mem _ listed, named⟩

theorem Jar.Keyed.save (keyed : jar.Keyed) (cookie : Cookie) : (jar.save cookie.cookieKey cookie).Keyed := by
  refine ⟨?_, fun entry member => ?_⟩
  · have sorted := keyed.sorted
    clear keyed
    induction jar with
    | nil => exact List.pairwise_singleton _ _
    | cons head rest ih =>
      obtain ⟨least, sorted⟩ := List.pairwise_cons.mp sorted
      rw [Jar.save]
      split_ifs with same below
      · exact List.pairwise_cons.mpr ⟨same ▸ least, sorted⟩
      · refine List.pairwise_cons.mpr ⟨fun entry member => ?_, List.pairwise_cons.mpr ⟨least, sorted⟩⟩
        rcases List.mem_cons.mp member with rfl | later
        · exact below
        · exact lt_trans (least entry later) below
      · refine List.pairwise_cons.mpr ⟨fun entry member => ?_, ih sorted⟩
        rcases mem_of_mem_save member with rfl | old
        · exact lt_of_le_of_ne (not_lt.mp below) same
        · exact least entry old
  · rcases mem_of_mem_save member with rfl | old
    · rfl
    · exact keyed.named entry old

theorem Jar.Keyed.saveAll (keyed : jar.Keyed) (cookies : List Cookie) : (saveAll cookies jar).Keyed := by
  induction cookies generalizing jar with
  | nil => exact keyed
  | cons cookie cookies ih => exact ih (keyed.save cookie)

theorem Jar.Keyed.eq_of_mem_save (keyed : jar.Keyed)
    (member : entry ∈ jar.save cookie.cookieKey cookie) (same : entry.1 = cookie.cookieKey) :
    entry.2 = cookie := by
  have sorted := keyed.sorted
  clear keyed
  induction jar with
  | nil => rw [List.mem_singleton.mp member]
  | cons head rest ih =>
    obtain ⟨least, sorted⟩ := List.pairwise_cons.mp sorted
    rw [Jar.save] at member
    split_ifs at member with here below
    · rcases List.mem_cons.mp member with rfl | later
      · rfl
      · exact absurd (same.trans here) (least entry later).ne
    · rcases List.mem_cons.mp member with rfl | later
      · rfl
      · have under : entry.1 < cookie.cookieKey := by
          rcases List.mem_cons.mp later with rfl | last
          · exact below
          · exact lt_trans (least entry last) below
        exact absurd same under.ne
    · rcases List.mem_cons.mp member with rfl | later
      · exact absurd same.symm here
      · exact ih later sorted

theorem Jar.Keyed.mem_of_mem_saveAll (keyed : jar.Keyed) (member : entry ∈ Cookies.saveAll cookies jar)
    (taken : ∃ cookie ∈ cookies, cookie.cookieKey = entry.1) : entry.2 ∈ cookies := by
  induction cookies generalizing jar with
  | nil =>
    obtain ⟨cookie, listed, -⟩ := taken
    cases listed
  | cons cookie cookies ih =>
    by_cases later : ∃ other ∈ cookies, other.cookieKey = entry.1
    · exact List.mem_cons_of_mem _ (ih (keyed.save cookie) member later)
    · -- the last cookie of the name is the first of the list, and nothing is saved over it
      obtain ⟨first, listed, same⟩ := taken
      rcases List.mem_cons.mp listed with rfl | rest
      · have saved : entry ∈ Cookies.saveAll cookies (jar.save first.cookieKey first) := member
        have there : entry ∈ jar.save first.cookieKey first := by
          rcases Cookies.mem_of_mem_saveAll saved with old | fresh
          · exact old
          · exact absurd ⟨entry.2, fresh.1, fresh.2⟩ later
        rw [keyed.eq_of_mem_save there same.symm]
        exact List.mem_cons_self
      · exact absurd ⟨first, rest, same⟩ later

/-! ## The identity of a cookie -/

structure Identity where
  name : Text
  domain : Text
  path : Text
  deriving DecidableEq

/-- The directory of a request, for a cookie that names no path. -/
def defaultPath (requestPath : Text) : Text :=
  let directory := ((uriPath requestPath).reverse.dropWhile (· ≠ '/')).tail.reverse
  if (uriPath requestPath).head? ≠ some '/' ∨ directory = [] then "/".toList else directory

/-- The identity of a cookie that was set in the response to a request of this path. -/
def Cookie.identity (cookie : Cookie) (requestPath : Text) : Identity where
  name := cookie.cookieKey
  domain := if domainOf cookie.domain = [] then hostOf cookie.origin else domainOf cookie.domain
  path := if cookie.path.head? = some '/' then cookie.path else defaultPath requestPath

/-- The paths of the requests in whose responses the cookies of a jar were set, by name. -/
abbrev Stamps := Text → Text

/-- What the response does to them. -/
def Stamps.after (stamps : Stamps) (finished : Request) (setCookies : List Text) : Stamps := fun name =>
  if ∃ cookie ∈ accepted finished setCookies, cookie.cookieKey = name then finished.path else stamps name

/-- Saving the cookies of the response leaves every saved cookie of another identity as it is. -/
def Framed (jar : Jar) (stamps : Stamps) (finished : Request) (setCookies : List Text) : Prop :=
  ∀ entry ∈ jar,
    (∀ cookie ∈ accepted finished setCookies,
      cookie.identity finished.path ≠ entry.2.identity (stamps entry.1)) →
    entry ∈ parseAndSaveCookies finished setCookies jar ∧
      entry.2.identity (stamps.after finished setCookies entry.1) = entry.2.identity (stamps entry.1)

/-- Where the response sets a cookie of the name of a saved one, it sets one of its identity. -/
def KeepsIdentities (jar : Jar) (stamps : Stamps) (finished : Request) (setCookies : List Text) : Prop :=
  ∀ entry ∈ jar, (∃ cookie ∈ accepted finished setCookies, cookie.cookieKey = entry.1) →
    ∃ cookie ∈ accepted finished setCookies,
      cookie.identity finished.path = entry.2.identity (stamps entry.1)

/-- To its own host, what could be sent under a name before a response of another host can be sent after
it. -/
def StaysSendable (jar : Jar) (finished : Request) (setCookies : List Text) : Prop :=
  ∀ entry ∈ jar, entry.2.origin ≠ lower finished.authority → ∀ schema path,
    entry.2.isAllowedToBeSent schema entry.2.origin path = true →
      ∃ later ∈ parseAndSaveCookies finished setCookies jar,
        later.1 = entry.1 ∧ later.2.isAllowedToBeSent schema entry.2.origin path = true

/-- The response takes no name of a cookie of another host. -/
def LeavesForeign (jar : Jar) (finished : Request) (setCookies : List Text) : Prop :=
  ∀ entry ∈ jar, entry.2.origin ≠ lower finished.authority →
    ∀ cookie ∈ accepted finished setCookies, cookie.cookieKey ≠ entry.1

instance (jar : Jar) (finished : Request) (setCookies : List Text) :
    Decidable (LeavesForeign jar finished setCookies) :=
  inferInstanceAs (Decidable (∀ entry ∈ jar, _ → _))

instance (jar : Jar) (stamps : Stamps) (finished : Request) (setCookies : List Text) :
    Decidable (KeepsIdentities jar stamps finished setCookies) :=
  inferInstanceAs (Decidable (∀ entry ∈ jar, _ → _))

instance (jar : Jar) (stamps : Stamps) (finished : Request) (setCookies : List Text) :
    Decidable (Framed jar stamps finished setCookies) :=
  inferInstanceAs (Decidable (∀ entry ∈ jar, _ → _ ∧ _))

def aRequest : Request := ⟨"https".toList, "a.example".toList, "/".toList, none, none, []⟩

def bRequest : Request := ⟨"https".toList, "b.example".toList, "/".toList, none, none, []⟩

def bJar : Jar := parseAndSaveCookies bRequest ["sid=1".toList] []

def setAlong (user : User) : List Turn → List Cookie
  | [] => []
  | turn :: turns =>
    accepted user.request turn.setCookies ++
      match prepareNextRequest user turn with
      | .ok next => setAlong next turns
      | .error _ => []

/-- Neither the request that the first turn prepares nor any later one carries a saved cookie but those
that later responses set. -/
def Cleared (user : User) (turn : Turn) (turns : List Turn) : Prop :=
  ∀ next, prepareNextRequest user turn = .ok next →
    ∀ n last, run prepareNextRequest next (turns.take n) = .ok last →
      ∀ entry ∈ last.request.carried, entry.2 ∈ setAlong next (turns.take n)

def Cookie.Sendable (cookie : Cookie) : Prop :=
  ∃ authority path, cookie.isAllowedToBeSent "https".toList authority path = true

theorem sendable_of_isAllowedToBeSent {schema authority path : Text}
    (allowed : cookie.isAllowedToBeSent schema authority path = true) : cookie.Sendable := by
  refine ⟨authority, path, ?_⟩
  simp only [Cookie.isAllowedToBeSent] at allowed ⊢
  split at allowed
  · cases allowed
  · rw [if_neg (fun insecure => absurd insecure.2 (by decide))]
    exact allowed

theorem carried_parseUri {req aimed : Request} {uri : Uri}
    (parsed : parseUriAndPopulateRequest req uri = .ok aimed) : aimed.carried = req.carried := by
  unfold parseUriAndPopulateRequest at parsed
  split at parsed <;> cases parsed <;> rfl

theorem carried_next {req : Request} (built : user.next turn = .ok req) : req.carried = [] := by
  rw [User.next] at built
  unfold Request.aim at built
  split at built
  · cases built
    rfl
  · cases built
    rfl
  · cases built
  · exact carried_parseUri built
  · exact carried_parseUri built
  · exact carried_parseUri built

theorem savedCookies_next {next : User} (taken : prepareNextRequest user turn = .ok next) :
    next.savedCookies = user.saved turn := by
  obtain ⟨req, -, taken⟩ := ok_of_bind taken
  obtain ⟨scripted, -, taken⟩ := ok_of_bind taken
  cases taken
  rfl

def User.CarriesSaved (user : User) : Prop :=
  ∀ entry ∈ user.request.carried, entry ∈ user.savedCookies ∧ entry.2.Sendable

theorem carriesSaved_next {next : User} (taken : prepareNextRequest user turn = .ok next) :
    next.CarriesSaved := by
  obtain ⟨req, built, taken⟩ := ok_of_bind taken
  obtain ⟨scripted, ran, taken⟩ := ok_of_bind taken
  cases taken
  intro entry carried
  cases script : turn.script with
  | kept =>
    rw [script] at ran
    cases ran
    have chosen : entry ∈ (produceRequestCookieHeader (user.saved turn) req).carried := carried
    rw [(produceRequestCookieHeader_carried _ req (carried_next built)).1] at chosen
    obtain ⟨member, takes⟩ := List.mem_filter.mp chosen
    exact ⟨member, sendable_of_isAllowedToBeSent (Bool.and_eq_true_iff.mp takes).2⟩
  | replaced schema authority path cookie =>
    rw [script] at ran
    cases ran
    cases carried
  | failed =>
    rw [script] at ran
    cases ran

theorem carriesSaved_run {last : User} (carries : user.CarriesSaved)
    (ends : run prepareNextRequest user turns = .ok last) : last.CarriesSaved :=
  run_invariant (fun _ _ _ _ _ taken => carriesSaved_next taken) (along_true user turns) ends carries

/-- What is saved at the end of a run was saved at its beginning, or a response has set it. -/
theorem saved_run {last : User} (ends : run prepareNextRequest user turns = .ok last) :
    ∀ entry ∈ last.savedCookies, entry ∈ user.savedCookies ∨ entry.2 ∈ setAlong user turns := by
  induction turns generalizing user with
  | nil =>
    cases ends
    exact fun entry member => .inl member
  | cons turn turns ih =>
    obtain ⟨next, taken, rest⟩ := ok_of_run_cons ends
    intro entry member
    rw [setAlong, taken]
    rcases ih rest entry member with earlier | later
    · rw [savedCookies_next taken, User.saved] at earlier
      split at earlier
      · exact .inl earlier
      · rw [parseAndSaveCookies_eq] at earlier
        rcases mem_of_mem_saveAll earlier with old | fresh
        · exact .inl old
        · exact .inr (List.mem_append_left _ fresh.1)
    · exact .inr (List.mem_append_right _ later)

/-- A request to this destination, without headers of its own, that clears old cookies. -/
def clearingTurn (authority path : Text) : Turn where
  connection := wwwHost
  template := { clearOldCookies := true }
  target := .inputWithVariable (.parsed path (some ⟨"https".toList, authority, none, by decide⟩))

theorem carried_clearingTurn {authority path : Text} (member : entry ∈ user.savedCookies)
    (allowed : entry.2.isAllowedToBeSent "https".toList authority path = true) :
    ∃ next, prepareNextRequest user (clearingTurn authority path) = .ok next ∧
      entry ∈ next.request.carried := by
  let req : Request := ⟨lower "https".toList, lower authority ++ [], path, none, none, []⟩
  have built : user.next (clearingTurn authority path) = .ok req := rfl
  have takes : req.takes entry = true := by
    have same : lower (lower authority ++ []) = lower authority := by
      rw [List.append_nil]
      exact ResponseRecords.lower_lower authority
    have permitted : entry.2.isAllowedToBeSent (lower "https".toList) (lower authority ++ []) path = true := by
      simp only [Cookie.isAllowedToBeSent, same] at allowed ⊢
      exact allowed
    exact Bool.and_eq_true_iff.mpr ⟨rfl, permitted⟩
  refine ⟨_, rfl, ?_⟩
  show entry ∈ (produceRequestCookieHeader user.savedCookies req).carried
  rw [(produceRequestCookieHeader_carried _ req rfl).1]
  exact List.mem_filter.mpr ⟨member, takes⟩

/-- **A request that clears old cookies clears them exactly if none may be sent anywhere.** -/
theorem cleared_iff (user : User) :
    (∀ turn turns, turn.template.clearOldCookies = true → Cleared user turn turns) ↔
      ∀ entry ∈ user.savedCookies, ¬ entry.2.Sendable := by
  constructor
  · rintro cleared entry member ⟨authority, path, allowed⟩
    obtain ⟨next, taken, carried⟩ := carried_clearingTurn member allowed
    have later := cleared (clearingTurn authority path) [] rfl next taken 0 next rfl entry carried
    cases later
  · intro unsendable turn turns clears next taken n last ends entry carried
    obtain ⟨member, sendable⟩ := carriesSaved_run (carriesSaved_next taken) ends entry carried
    rcases saved_run ends entry member with old | later
    · rw [savedCookies_next taken, User.saved, if_pos clears] at old
      exact absurd sendable (unsendable entry old)
    · exact later

def clearsCookies (connection : Connection) (path : String) : Turn where
  connection := connection
  template :=
    { clearOldCookies := true
      origin := some ⟨connection.schema, connection.authority, none, connection.given⟩ }
  target := .inputUri path.toList

/-- **Refuting pole:** the first response sets a cookie, and the third request, which clears old cookies,
carries it; the response before sets none. -/
theorem cleared_still_carried :
    ∃ user last, run prepareNextRequest (userAt wwwHost) [setsCookie wwwHost "sid=1" "/login"] = .ok user ∧
        prepareNextRequest user (clearsCookies wwwHost "/") = .ok last ∧
        (∃ entry ∈ last.request.carried, entry ∈ user.savedCookies) ∧
        ¬ Cleared user (clearsCookies wwwHost "/") [] := by
  obtain ⟨last, ends, some⟩ := exists_run prepareNextRequest (userAt wwwHost)
    [setsCookie wwwHost "sid=1" "/login", clearsCookies wwwHost "/"]
    (fun user => user.request.carried ≠ []) (by decide +kernel)
  obtain ⟨user, first, rest⟩ := ok_of_run_cons ends
  obtain ⟨next, second, done⟩ := ok_of_run_cons rest
  cases done
  obtain ⟨entry, others, listed⟩ := List.exists_cons_of_ne_nil some
  have carried : entry ∈ last.request.carried := listed ▸ List.mem_cons_self
  have saved : entry ∈ user.savedCookies := by
    have member := (carriesSaved_next second entry carried).1
    rwa [savedCookies_next second] at member
  refine ⟨user, last, ?_, second, ⟨entry, carried, saved⟩, fun cleared => ?_⟩
  · rw [run, first]
    rfl
  · have later := cleared last second 0 last rfl entry carried
    cases later

/-- A cookie whose domain its host is not in is kept from its own host by its domain, and from any other
by its origin. -/
theorem not_sendable_of_outside (given : cookie.domain ≠ [])
    (sameSite : cookie.sameSite ≠ [] ∧ cookie.sameSite ≠ "None".toList)
    (outside : endsWithDomain (destHost cookie.origin) cookie.domain = false) : ¬ cookie.Sendable := by
  rintro ⟨authority, path, allowed⟩
  simp only [Cookie.isAllowedToBeSent] at allowed
  split_ifs at allowed with insecure elsewhere foreign beside abroad
  have home : cookie.origin = lower authority := by
    by_contra other
    exact abroad ⟨sameSite.1, sameSite.2, other⟩
  rw [home] at outside
  exact elsewhere ⟨given, outside⟩

def strayUser : User where
  savedCookies := parseAndSaveCookies bRequest ["sid=1; Domain=a.example".toList] []
  request := bRequest

/-- **Satisfiable pole:** it is saved, and never sent. -/
theorem strayUser_cleared : strayUser.savedCookies.length = 1 ∧
      ∀ turn turns, turn.template.clearOldCookies = true → Cleared strayUser turn turns := by
  refine ⟨by decide +kernel, (cleared_iff strayUser).mpr fun entry member => ?_⟩
  have outside : ∀ entry ∈ strayUser.savedCookies, entry.2.domain ≠ [] ∧
      (entry.2.sameSite ≠ [] ∧ entry.2.sameSite ≠ "None".toList) ∧
      endsWithDomain (destHost entry.2.origin) entry.2.domain = false := by
    decide +kernel
  obtain ⟨given, sameSite, outside⟩ := outside entry member
  exact not_sendable_of_outside given sameSite outside

end H2LoadRunner.Load.Cookies
