/-
# Load.LuaRequest -- a script that returns what it is given

`update_request_with_lua` gives `make_request` a table of the headers of the request and its payload,
and puts what it returns in their place.  The table has the headers of `req_headers_from_config`; what
it returns becomes `req_headers_of_individual`.  So a script that changes nothing still replaces the
headers that were assembled from variables, and the cookies, by the configured ones.

The order in which `lua_next` visits a table is not specified, so it is part of the input.

* `transparent_iff`: a script that returns its arguments unchanged has no effect on what is sent, in
  whatever order its table is visited, exactly if every header of the second map is in the first with
  the same value, and no configured header spells the name of a pseudo header in another letter case with
  another value.
-/
import H2LoadRunner.Load.HeaderMap

namespace H2LoadRunner.Load.LuaRequest

open Library
open Cookies (Text lower Connection)

set_option autoImplicit false

/-! ## The end of the preparation -/

/-- What `sanitize_request` makes of a value. -/
def sanitized (connection : Connection) (value : Text) : Pseudo → Text
  | .scheme => if value = [] then connection.schema else value
  | .authority => if value = [] then connection.authority else value
  | _ => value

def contentLength : Text := "content-length".toList

def updateContentLength (r : Outgoing) : Outgoing :=
  if r.reqPayload = [] then r
  else
    { r with reqHeadersOfIndividual :=
        r.reqHeadersOfIndividual.assign contentLength (Nat.toDigits 10 r.reqPayload.length) }

def sanitizeRequest (connection : Connection) (r : Outgoing) : Outgoing :=
  { r with
    schema := if r.schema = [] then connection.schema else r.schema
    authority := if r.authority = [] then connection.authority else r.authority }

/-! ## The script -/

/-- A value that `make_request` returns; a table of strings comes as `lua_next` visits it. -/
inductive LuaValue where
  | string (text : Text)
  | table (visited : List (Text × Text))
  | other

def luaTable (r : Outgoing) : FiniteMap Text Text :=
  let configured := r.reqHeadersFromConfig.entries.foldl
    (fun (table : FiniteMap Text Text) header => table.insert header.1 header.2) ∅
  (((configured.insert methodHeader r.method).insert pathHeader r.path).insert schemeHeader
    r.schema).insert authorityHeader r.authority

def pairs (table : FiniteMap Text Text) : List (Text × Text) :=
  table.entries.map fun entry => (entry.1, entry.2)

def headersOf (visited : List (Text × Text)) : HeaderMap :=
  visited.foldl (fun headers header => headers.assign header.1 header.2) .empty

def takeTable (visited : List (Text × Text)) (r : Outgoing) : Outgoing :=
  let headers := headersOf visited
  { r with
    method := (headers.value methodHeader).getD []
    path := (headers.value pathHeader).getD []
    authority := (headers.value authorityHeader).getD []
    schema := (headers.value schemeHeader).getD []
    reqHeadersOfIndividual :=
      (((headers.erase methodHeader).erase pathHeader).erase authorityHeader).erase schemeHeader }

/-- `update_request_with_lua`, for the values on the stack from its top; `none` is for an error, which
aborts the scenario. -/
def updateRequestWithLua : List LuaValue → Outgoing → Option Outgoing
  | [], r => some r
  | .string text :: rest, r => updateRequestWithLua rest { r with reqPayload := text }
  | .table visited :: rest, r => updateRequestWithLua rest (takeTable visited r)
  | .other :: _, _ => none

def finish (connection : Connection) (r : Outgoing) : Outgoing :=
  sanitizeRequest connection (updateContentLength r)

/-- The end of `prepare_next_request`; `script` is what the script returns, if there is one. -/
def prepare (connection : Connection) (script : Option (List LuaValue)) (r : Outgoing) : Option Outgoing :=
  let updated :=
    match script with
    | none => some r
    | some returned => updateRequestWithLua returned r
  updated.map (finish connection)

structure SentAlike (a b : Outgoing) : Prop where
  pseudo : ∀ p : Pseudo, p.get a = p.get b
  payload : a.reqPayload = b.reqPayload
  fields : (lowered (sentFields a.reqHeadersFromConfig a.reqHeadersOfIndividual)).Perm
    (lowered (sentFields b.reqHeadersFromConfig b.reqHeadersOfIndividual))

/-- A script that returns its arguments has no effect. -/
def Transparent (connection : Connection) (r : Outgoing) : Prop :=
  ∀ visited, visited.Perm (pairs (luaTable r)) →
    ∃ scripted plain,
      prepare connection (some [.string r.reqPayload, .table visited]) r = some scripted ∧
        prepare connection none r = some plain ∧ SentAlike scripted plain

/-- What is in the second map is in the first, and pseudo headers are not configured. -/
structure Covered (connection : Connection) (r : Outgoing) : Prop where
  individual : ∀ key entry, r.reqHeadersOfIndividual.places.lookup key = some entry →
    (r.reqPayload ≠ [] ∧ key = contentLength) ∨
      visible entry = (r.reqHeadersFromConfig.places.lookup key).bind visible
  pseudo : ∀ (p : Pseudo) (entry : Text × Text),
    r.reqHeadersFromConfig.places.lookup p.name = some entry →
      entry.1 = p.name ∨ sanitized connection entry.2 p = sanitized connection (p.get r) p

/-! ## The table -/

theorem mem_pairs_iff (table : FiniteMap Text Text) (entry : Text × Text) :
    entry ∈ pairs table ↔ table.lookup entry.1 = some entry.2 := by
  rw [pairs, List.mem_map]
  constructor
  · rintro ⟨⟨key, value⟩, member, rfl⟩
    exact AList.mem_lookup_iff.mpr member
  · intro found
    exact ⟨⟨entry.1, entry.2⟩, AList.mem_lookup_iff.mp found, rfl⟩

theorem nodup_spellings (m : HeaderMap) : (m.entries.map Prod.fst).Nodup := by
  refine List.Nodup.of_map lower ?_
  rw [List.map_map]
  exact m.nodup_names

theorem lookup_luaTable_of_pseudo (r : Outgoing) (p : Pseudo) :
    (luaTable r).lookup p.name = some (p.get r) := by
  simp only [luaTable, FiniteMap.lookup_insert_eq]
  cases p with
  | authority => exact if_pos rfl
  | scheme => exact (if_neg (by decide)).trans (if_pos rfl)
  | path => exact (if_neg (by decide)).trans ((if_neg (by decide)).trans (if_pos rfl))
  | method =>
    exact (if_neg (by decide)).trans
      ((if_neg (by decide)).trans ((if_neg (by decide)).trans (if_pos rfl)))

variable {name key : Text} {visited : List (Text × Text)}

theorem lookup_luaTable_of_regular (r : Outgoing) (regular : ∀ p : Pseudo, name ≠ p.name) (value : Text) :
    (luaTable r).lookup name = some value ↔ (name, value) ∈ r.reqHeadersFromConfig.entries := by
  have method : name ≠ methodHeader := regular .method
  have path : name ≠ pathHeader := regular .path
  have scheme : name ≠ schemeHeader := regular .scheme
  have authority : name ≠ authorityHeader := regular .authority
  simp only [luaTable, FiniteMap.lookup_insert_eq]
  rw [if_neg authority, if_neg scheme, if_neg path, if_neg method,
    FiniteMap.lookup_foldl_insert (nodup_spellings _)]
  simp

theorem mem_luaTable_iff (r : Outgoing) (entry : Text × Text) : entry ∈ pairs (luaTable r) ↔
      (∃ p : Pseudo, entry = (p.name, p.get r)) ∨
        (isPseudo entry.1 = false ∧ entry ∈ r.reqHeadersFromConfig.entries) := by
  obtain ⟨name, value⟩ := entry
  rw [mem_pairs_iff]
  by_cases pseudo : isPseudo name = true
  · rw [or_iff_left (by simp [pseudo])]
    obtain ⟨p, rfl⟩ := (isPseudo_iff name).mp pseudo
    rw [lookup_luaTable_of_pseudo]
    constructor
    · intro same
      exact ⟨p, by rw [Option.some.inj same]⟩
    · rintro ⟨q, same⟩
      obtain ⟨names, values⟩ := Prod.mk.inj same
      rw [values, Pseudo.name_injective names]
  · have regular : ∀ p : Pseudo, name ≠ p.name := fun p same => pseudo ((isPseudo_iff name).mpr ⟨p, same⟩)
    have none : ¬ ∃ p : Pseudo, (name, value) = (p.name, p.get r) := by
      rintro ⟨p, same⟩
      exact regular p (Prod.mk.inj same).1
    rw [lookup_luaTable_of_regular r regular, or_iff_right none, and_iff_right (by simpa using pseudo)]

/-! ## The headers that are returned -/

theorem lookup_headersOf (visited : List (Text × Text)) (key : Text) :
    ((headersOf visited).places.lookup key).map Prod.snd =
      (visited.filter fun header => lower header.1 = key).getLast?.map Prod.snd := by
  induction visited using List.reverseRecOn with
  | nil => rfl
  | append_singleton visited header ih =>
    rw [headersOf, List.foldl_append, List.foldl_cons, List.foldl_nil, ← headersOf,
      HeaderMap.lookup_assign, List.filter_append, List.getLast?_append]
    by_cases same : lower header.1 = key
    · rw [if_pos same.symm, List.filter_cons_of_pos (by simpa using same)]
      rfl
    · rw [if_neg (Ne.symm same), List.filter_cons_of_neg (by simpa using same)]
      exact ih

theorem exists_of_lookup_headersOf {value : Text}
    (found : ((headersOf visited).places.lookup key).map Prod.snd = some value) :
    ∃ header ∈ visited, lower header.1 = key ∧ header.2 = value := by
  rw [lookup_headersOf] at found
  obtain ⟨header, last, rfl⟩ := Option.map_eq_some_iff.mp found
  obtain ⟨member, same⟩ := List.mem_filter.mp (List.mem_of_getLast? last)
  exact ⟨header, member, by simpa using same, rfl⟩

theorem lookup_headersOf_isSome {header : Text × Text} (member : header ∈ visited) :
    ∃ value, ((headersOf visited).places.lookup (lower header.1)).map Prod.snd = some value := by
  rw [lookup_headersOf]
  have listed : header ∈ visited.filter fun other => lower other.1 = lower header.1 :=
    List.mem_filter.mpr ⟨member, by simp⟩
  cases last : (visited.filter fun other => lower other.1 = lower header.1).getLast? with
  | none =>
    rw [List.getLast?_eq_none_iff.mp last] at listed
    cases listed
  | some other => exact ⟨other.2, rfl⟩

theorem lookup_takeTable (visited : List (Text × Text)) (r : Outgoing) (key : Text) :
    (takeTable visited r).reqHeadersOfIndividual.places.lookup key = if key = schemeHeader then none
      else if key = authorityHeader then none else if key = pathHeader then none
      else if key = methodHeader then none else (headersOf visited).places.lookup key := by
  have scheme : lower schemeHeader = schemeHeader := Pseudo.lower_name .scheme
  have authority : lower authorityHeader = authorityHeader := Pseudo.lower_name .authority
  have path : lower pathHeader = pathHeader := Pseudo.lower_name .path
  have method : lower methodHeader = methodHeader := Pseudo.lower_name .method
  simp only [takeTable, HeaderMap.lookup_erase, scheme, authority, path, method]

theorem lookup_takeTable_of_pseudo (visited : List (Text × Text)) (r : Outgoing)
    (pseudo : ∃ p : Pseudo, key = p.name) :
    (takeTable visited r).reqHeadersOfIndividual.places.lookup key = none := by
  rw [lookup_takeTable]
  split_ifs with scheme authority path method
  · rfl
  · rfl
  · rfl
  · rfl
  · obtain ⟨p, rfl⟩ := pseudo
    cases p with
    | scheme => exact absurd rfl scheme
    | authority => exact absurd rfl authority
    | path => exact absurd rfl path
    | method => exact absurd rfl method

theorem lookup_takeTable_of_regular (visited : List (Text × Text)) (r : Outgoing)
    (regular : ∀ p : Pseudo, key ≠ p.name) :
    (takeTable visited r).reqHeadersOfIndividual.places.lookup key = (headersOf visited).places.lookup key := by
  have scheme : key ≠ schemeHeader := regular .scheme
  have authority : key ≠ authorityHeader := regular .authority
  have path : key ≠ pathHeader := regular .path
  have method : key ≠ methodHeader := regular .method
  rw [lookup_takeTable, if_neg scheme, if_neg authority, if_neg path, if_neg method]

section Returned

variable {r : Outgoing} {visited : List (Text × Text)} (order : visited.Perm (pairs (luaTable r)))

include order

theorem value_of_regular {key : Text} (regular : ∀ p : Pseudo, key ≠ p.name) :
    ((headersOf visited).places.lookup key).map Prod.snd =
      (r.reqHeadersFromConfig.places.lookup key).map Prod.snd := by
  have from_config : ∀ header ∈ visited, lower header.1 = key →
      r.reqHeadersFromConfig.places.lookup key = some header := by
    intro header member same
    rcases (mem_luaTable_iff r header).mp (order.mem_iff.mp member) with ⟨p, rfl⟩ | ⟨-, listed⟩
    · exact absurd (same.symm.trans (Pseudo.lower_name p)) (regular p)
    · rw [← same]
      exact (HeaderMap.mem_entries_iff _ _).mp listed
  cases configured : r.reqHeadersFromConfig.places.lookup key with
  | none =>
    cases returned : ((headersOf visited).places.lookup key).map Prod.snd with
    | none => rfl
    | some value =>
      obtain ⟨header, member, same, -⟩ := exists_of_lookup_headersOf returned
      rw [from_config header member same] at configured
      cases configured
  | some entry =>
    have named := r.reqHeadersFromConfig.spelled configured
    have listed : entry ∈ visited := by
      refine order.mem_iff.mpr ((mem_luaTable_iff r entry).mpr (.inr ⟨?_, ?_⟩))
      · by_contra pseudo
        obtain ⟨p, same⟩ := (isPseudo_iff entry.1).mp (by simpa using pseudo)
        exact regular p (by rw [← named, same, Pseudo.lower_name])
      · rw [HeaderMap.mem_entries_iff, named]
        exact configured
    obtain ⟨value, returned⟩ := lookup_headersOf_isSome listed
    rw [named] at returned
    obtain ⟨header, member, same, rfl⟩ := exists_of_lookup_headersOf returned
    rw [returned]
    rw [from_config header member same] at configured
    rw [Option.some.inj configured]
    rfl

/-- Under the name of a pseudo header is its own value, or one that is configured in another spelling. -/
theorem value_of_pseudo (p : Pseudo) :
    ∃ value, ((headersOf visited).places.lookup p.name).map Prod.snd = some value ∧
      (value = p.get r ∨ ∃ entry, r.reqHeadersFromConfig.places.lookup p.name = some entry ∧
        entry.1 ≠ p.name ∧ entry.2 = value) := by
  have own : (p.name, p.get r) ∈ visited := order.mem_iff.mpr ((mem_luaTable_iff r _).mpr (.inl ⟨p, rfl⟩))
  obtain ⟨value, returned⟩ := lookup_headersOf_isSome own
  rw [show lower (p.name, p.get r).1 = p.name from Pseudo.lower_name p] at returned
  refine ⟨value, returned, ?_⟩
  obtain ⟨header, member, same, rfl⟩ := exists_of_lookup_headersOf returned
  rcases (mem_luaTable_iff r header).mp (order.mem_iff.mp member) with ⟨q, rfl⟩ | ⟨regular, listed⟩
  · rw [show lower (q.name, q.get r).1 = q.name from Pseudo.lower_name q] at same
    rw [Pseudo.name_injective same]
    exact .inl rfl
  · refine .inr ⟨header, ?_, ?_, rfl⟩
    · rw [← same]
      exact (HeaderMap.mem_entries_iff _ _).mp listed
    · intro spelled
      rw [(isPseudo_iff header.1).mpr ⟨p, spelled⟩] at regular
      cases regular

/-- What is sent after the script: under each name, what is configured. -/
theorem fieldAt_takeTable (key : Text) :
    fieldAt r.reqHeadersFromConfig (takeTable visited r).reqHeadersOfIndividual key =
      (r.reqHeadersFromConfig.places.lookup key).bind visible := by
  by_cases pseudo : ∃ p : Pseudo, key = p.name
  · rw [fieldAt, lookup_takeTable_of_pseudo visited r pseudo]
  · have regular : ∀ p : Pseudo, key ≠ p.name := fun p same => pseudo ⟨p, same⟩
    have same := value_of_regular order regular
    rw [fieldAt, lookup_takeTable_of_regular visited r regular]
    cases returned : (headersOf visited).places.lookup key with
    | none => rfl
    | some entry =>
      rw [returned] at same
      obtain ⟨configured, found, valued⟩ := Option.map_eq_some_iff.mp same.symm
      rw [found]
      simp only [Option.bind_some]
      rw [visible_of_lookup returned (isPseudo_eq_false regular),
        visible_of_lookup found (isPseudo_eq_false regular), valued]

end Returned

/-! ## What is sent -/

theorem fieldAt_assign (fromConfig ofIndividual : HeaderMap)
    (regular : ∀ p : Pseudo, lower name ≠ p.name) (value key : Text) :
    fieldAt fromConfig (ofIndividual.assign name value) key =
      if key = lower name then some value else fieldAt fromConfig ofIndividual key := by
  by_cases same : key = lower name
  · have found := HeaderMap.lookup_assign ofIndividual name value key
    rw [if_pos same] at found
    rw [if_pos same, fieldAt, found]
    exact visible_of_lookup found (isPseudo_eq_false (same ▸ regular))
  · rw [if_neg same, fieldAt, HeaderMap.lookup_assign, if_neg same, fieldAt]

theorem fieldAt_updateContentLength (r : Outgoing) (key : Text) :
    fieldAt r.reqHeadersFromConfig (updateContentLength r).reqHeadersOfIndividual key =
      if r.reqPayload ≠ [] ∧ key = contentLength then some (Nat.toDigits 10 r.reqPayload.length)
      else fieldAt r.reqHeadersFromConfig r.reqHeadersOfIndividual key := by
  rw [updateContentLength]
  by_cases empty : r.reqPayload = []
  · rw [if_pos empty, if_neg fun both => both.1 empty]
  · rw [if_neg empty]
    have lowerCase : lower contentLength = contentLength := by decide
    have regular : ∀ p : Pseudo, lower contentLength ≠ p.name := by
      intro p
      cases p <;> decide
    have assigned := fieldAt_assign r.reqHeadersFromConfig r.reqHeadersOfIndividual regular
      (Nat.toDigits 10 r.reqPayload.length) key
    rw [lowerCase] at assigned
    rw [assigned]
    by_cases same : key = contentLength <;> simp [same, empty]

theorem get_sanitizeRequest (connection : Connection) (r : Outgoing) (p : Pseudo) :
    p.get (sanitizeRequest connection r) = sanitized connection (p.get r) p := by
  cases p <;> rfl

theorem get_updateContentLength (r : Outgoing) (p : Pseudo) : p.get (updateContentLength r) = p.get r := by
  rw [updateContentLength]
  split
  · rfl
  · cases p <;> rfl

theorem fromConfig_updateContentLength (r : Outgoing) :
    (updateContentLength r).reqHeadersFromConfig = r.reqHeadersFromConfig := by
  rw [updateContentLength]
  split <;> rfl

theorem payload_updateContentLength (r : Outgoing) : (updateContentLength r).reqPayload = r.reqPayload := by
  rw [updateContentLength]
  split <;> rfl

theorem value_of_lowerCase (m : HeaderMap) (lowerCase : lower name = name) :
    m.value name = (m.places.lookup name).map Prod.snd := by
  rw [HeaderMap.value, HeaderMap.lookup, lowerCase]

theorem get_takeTable (visited : List (Text × Text)) (r : Outgoing) (p : Pseudo) :
    p.get (takeTable visited r) = (((headersOf visited).places.lookup p.name).map Prod.snd).getD [] := by
  have value := value_of_lowerCase (headersOf visited) (Pseudo.lower_name p)
  cases p <;> exact congrArg (·.getD []) value

theorem sentAlike_iff (connection : Connection) (r : Outgoing) (order : visited.Perm (pairs (luaTable r))) :
    SentAlike (finish connection (takeTable visited r)) (finish connection r) ↔
      (∀ p : Pseudo, sanitized connection (p.get (takeTable visited r)) p = sanitized connection (p.get r) p) ∧
        ∀ key entry, r.reqHeadersOfIndividual.places.lookup key = some entry →
          (r.reqPayload ≠ [] ∧ key = contentLength) ∨
            visible entry = (r.reqHeadersFromConfig.places.lookup key).bind visible := by
  have pseudo : ∀ (s : Outgoing) (p : Pseudo),
      p.get (finish connection s) = sanitized connection (p.get s) p := by
    intro s p
    rw [finish, get_sanitizeRequest, get_updateContentLength]
  have payload : ∀ s : Outgoing, (finish connection s).reqPayload = s.reqPayload :=
    payload_updateContentLength
  have fields : (lowered (sentFields (finish connection (takeTable visited r)).reqHeadersFromConfig
        (finish connection (takeTable visited r)).reqHeadersOfIndividual)).Perm
        (lowered (sentFields (finish connection r).reqHeadersFromConfig
          (finish connection r).reqHeadersOfIndividual)) ↔
      ∀ key entry, r.reqHeadersOfIndividual.places.lookup key = some entry →
        (r.reqPayload ≠ [] ∧ key = contentLength) ∨
          visible entry = (r.reqHeadersFromConfig.places.lookup key).bind visible := by
    rw [sentFields_perm_iff]
    have scripted : ∀ key, fieldAt (finish connection (takeTable visited r)).reqHeadersFromConfig
        (finish connection (takeTable visited r)).reqHeadersOfIndividual key =
        if r.reqPayload ≠ [] ∧ key = contentLength then some (Nat.toDigits 10 r.reqPayload.length)
        else (r.reqHeadersFromConfig.places.lookup key).bind visible := by
      intro key
      show fieldAt (updateContentLength (takeTable visited r)).reqHeadersFromConfig _ key = _
      rw [fromConfig_updateContentLength]
      refine (fieldAt_updateContentLength (takeTable visited r) key).trans ?_
      rw [show (takeTable visited r).reqHeadersFromConfig = r.reqHeadersFromConfig from rfl,
        fieldAt_takeTable order]
      rfl
    have plain : ∀ key, fieldAt (finish connection r).reqHeadersFromConfig
        (finish connection r).reqHeadersOfIndividual key =
        if r.reqPayload ≠ [] ∧ key = contentLength then some (Nat.toDigits 10 r.reqPayload.length)
        else fieldAt r.reqHeadersFromConfig r.reqHeadersOfIndividual key := by
      intro key
      show fieldAt (updateContentLength r).reqHeadersFromConfig _ key = _
      rw [fromConfig_updateContentLength]
      exact fieldAt_updateContentLength r key
    constructor
    · intro same key entry found
      by_cases counted : r.reqPayload ≠ [] ∧ key = contentLength
      · exact .inl counted
      · have here := same key
        rw [scripted, plain, if_neg counted, if_neg counted, fieldAt, found] at here
        exact .inr here.symm
    · intro covered key
      rw [scripted, plain]
      split
      · rfl
      · rename_i uncounted
        rw [fieldAt]
        cases found : r.reqHeadersOfIndividual.places.lookup key with
        | none => rfl
        | some entry =>
          rcases covered key entry found with counted | same
          · exact absurd counted uncounted
          · exact same.symm
  constructor
  · intro alike
    refine ⟨fun p => ?_, fields.mp alike.fields⟩
    have same := alike.pseudo p
    rwa [pseudo, pseudo] at same
  · rintro ⟨same, covered⟩
    refine ⟨fun p => ?_, ?_, fields.mpr covered⟩
    · rw [pseudo, pseudo, same p]
    · rw [payload, payload]
      rfl

theorem exists_order_last {table : List (Text × Text)} {entry : Text × Text} (member : entry ∈ table) :
    ∃ visited, visited.Perm table ∧ ((headersOf visited).places.lookup (lower entry.1)).map Prod.snd =
      some entry.2 := by
  refine ⟨table.erase entry ++ [entry], ?_, ?_⟩
  · exact (List.perm_append_singleton entry _).trans (List.perm_cons_erase member).symm
  · rw [lookup_headersOf, List.filter_append, List.filter_cons_of_pos (by simp), List.filter_nil,
      List.getLast?_concat]
    rfl

/-- **A script that returns its arguments is transparent exactly if the request is covered.**  For every
request, with any headers in either map, and every connection. -/
theorem transparent_iff (connection : Connection) (r : Outgoing) :
    Transparent connection r ↔ Covered connection r := by
  have alike : Transparent connection r ↔ ∀ visited, visited.Perm (pairs (luaTable r)) →
      SentAlike (finish connection (takeTable visited r)) (finish connection r) := by
    constructor
    · intro transparent visited order
      obtain ⟨scripted, plain, ran, kept, same⟩ := transparent visited order
      cases ran
      cases kept
      exact same
    · intro same visited order
      exact ⟨_, _, rfl, rfl, same visited order⟩
  rw [alike]
  constructor
  · intro same
    refine ⟨?_, fun p entry configured => ?_⟩
    · exact ((sentAlike_iff connection r (List.Perm.refl _)).mp (same _ (List.Perm.refl _))).2
    · by_contra neither
      push Not at neither
      have named := r.reqHeadersFromConfig.spelled configured
      have listed : entry ∈ pairs (luaTable r) := by
        refine (mem_luaTable_iff r entry).mpr (.inr ⟨?_, ?_⟩)
        · by_contra pseudo
          obtain ⟨q, spelled⟩ := (isPseudo_iff entry.1).mp (by simpa using pseudo)
          rw [spelled, Pseudo.lower_name] at named
          exact neither.1 (spelled.trans named)
        · rw [HeaderMap.mem_entries_iff, named]
          exact configured
      obtain ⟨visited, order, last⟩ := exists_order_last listed
      have kept := ((sentAlike_iff connection r order).mp (same visited order)).1 p
      rw [named] at last
      rw [get_takeTable, last] at kept
      exact neither.2 kept
  · intro covered visited order
    refine (sentAlike_iff connection r order).mpr ⟨fun p => ?_, covered.individual⟩
    obtain ⟨value, returned, own | ⟨entry, configured, spelled, rfl⟩⟩ := value_of_pseudo order p
    · rw [get_takeTable, returned, own]
      rfl
    · rw [get_takeTable, returned]
      exact (covered.pseudo p entry configured).resolve_left spelled

/-! ## Poles -/

def shopConnection : Connection := ⟨"https".toList, "shop.example".toList, by decide⟩

def variableRequest : Outgoing where
  method := "GET".toList
  path := "/".toList
  schema := "https".toList
  authority := "shop.example".toList
  reqPayload := []
  reqHeadersFromConfig := HeaderMap.empty.assign "Accept".toList "text/plain".toList
  reqHeadersOfIndividual := HeaderMap.empty.assign "X-Id".toList "7".toList

/-- **Refuting pole:** after a script that changes nothing, the header assembled from the variable is not
sent. -/
theorem variableHeader_lost :
    (prepare shopConnection none variableRequest).map (fun sent =>
        sentFields sent.reqHeadersFromConfig sent.reqHeadersOfIndividual) =
      some [("Accept".toList, "text/plain".toList), ("X-Id".toList, "7".toList)] ∧
    (prepare shopConnection (some [.string [], .table (pairs (luaTable variableRequest))])
        variableRequest).map (fun sent =>
          sentFields sent.reqHeadersFromConfig sent.reqHeadersOfIndividual) =
      some [("Accept".toList, "text/plain".toList)] ∧
    ¬ Transparent shopConnection variableRequest := by
  refine ⟨by decide +kernel, by decide +kernel, fun transparent => ?_⟩
  obtain ⟨scripted, plain, ran, kept, alike⟩ := transparent _ (List.Perm.refl _)
  cases ran
  cases kept
  exact absurd alike.fields.length_eq (by decide +kernel)

def configuredRequest : Outgoing :=
  { variableRequest with
    reqPayload := "hello".toList
    reqHeadersOfIndividual := .empty }

/-- **Satisfiable pole:** the script changes nothing, and the length of the payload is counted again. -/
theorem configuredRequest_transparent : Transparent shopConnection configuredRequest := by
  refine (transparent_iff shopConnection configuredRequest).mpr ⟨nofun, fun p entry configured => ?_⟩
  have absent : ∀ p : Pseudo, configuredRequest.reqHeadersFromConfig.places.lookup p.name = none := by
    intro p
    cases p <;> decide +kernel
  rw [absent p] at configured
  cases configured

end H2LoadRunner.Load.LuaRequest
