/-
# Load.HeaderMap -- the header maps of a request, and what is sent of them

`std::map<std::string, std::string, ci_less>`: names that differ in letter case only share a place,
and the place keeps the spelling it was made with.  A request has two such maps, and both sessions send
them in the same two loops (`sentFields`): the entries of the first whose name the second has not, then
those of the second, but none that is spelled like a pseudo header.

* `mem_sentFields_iff`: which field is sent under a name.
-/
import H2LoadRunner.Library.FiniteMap
import H2LoadRunner.Load.Cookies

namespace H2LoadRunner.Load

open Library
open Cookies (Text lower)

set_option autoImplicit false

/-! ## The map -/

/-- A header map; the place of a name is the name in lower case. -/
structure HeaderMap where
  places : FiniteMap Text (Text × Text)
  spelled : ∀ {key : Text} {entry : Text × Text}, places.lookup key = some entry → lower entry.1 = key

namespace HeaderMap

def empty : HeaderMap := ⟨∅, nofun⟩

def lookup (m : HeaderMap) (name : Text) : Option (Text × Text) := m.places.lookup (lower name)

def value (m : HeaderMap) (name : Text) : Option Text := (m.lookup name).map Prod.snd

/-- `map[name] = value`: an entry that is there keeps its spelling. -/
def assign (name value : Text) (m : HeaderMap) : HeaderMap where
  places := m.places.insert (lower name) (((m.lookup name).map Prod.fst).getD name, value)
  spelled {key entry} found := by
    rw [FiniteMap.lookup_insert_eq] at found
    split at found
    · rename_i same
      cases found
      rw [same, lookup]
      cases there : m.places.lookup (lower name) with
      | none => rfl
      | some old =>
        have kept : lower old.1 = lower name := m.spelled there
        exact kept
    · exact m.spelled found

def emplace (name value : Text) (m : HeaderMap) : HeaderMap :=
  match m.lookup name with
  | some _ => m
  | none => m.assign name value

def erase (name : Text) (m : HeaderMap) : HeaderMap where
  places := m.places.erase (lower name)
  spelled {key entry} found := by
    rw [FiniteMap.lookup_erase_eq] at found
    split at found
    · cases found
    · exact m.spelled found

def entries (m : HeaderMap) : List (Text × Text) := m.places.entries.map fun place => place.2

theorem mem_entries_iff (m : HeaderMap) (entry : Text × Text) :
    entry ∈ m.entries ↔ m.places.lookup (lower entry.1) = some entry := by
  constructor
  · intro listed
    obtain ⟨⟨key, held⟩, member, rfl⟩ := List.mem_map.mp listed
    have found : m.places.lookup key = some held := AList.mem_lookup_iff.mpr member
    rw [m.spelled found]
    exact found
  · intro found
    exact List.mem_map.mpr ⟨⟨lower entry.1, entry⟩, AList.mem_lookup_iff.mp found, rfl⟩

theorem nodup_names (m : HeaderMap) : (m.entries.map fun entry => lower entry.1).Nodup := by
  have keys : (m.entries.map fun entry => lower entry.1) = m.places.entries.keys := by
    rw [entries, List.map_map, List.keys]
    refine List.map_congr_left fun place member => ?_
    exact m.spelled (AList.mem_lookup_iff.mpr member)
  rw [keys]
  exact m.places.nodupKeys

theorem lookup_assign (m : HeaderMap) (name value : Text) (key : Text) :
    (m.assign name value).places.lookup key =
      if key = lower name then some (((m.lookup name).map Prod.fst).getD name, value)
      else m.places.lookup key :=
  FiniteMap.lookup_insert_eq ..

theorem lookup_erase (m : HeaderMap) (name key : Text) :
    (m.erase name).places.lookup key = if key = lower name then none else m.places.lookup key :=
  FiniteMap.lookup_erase_eq ..

end HeaderMap

/-! ## What is sent -/

def pathHeader : Text := ":path".toList
def schemeHeader : Text := ":scheme".toList
def authorityHeader : Text := ":authority".toList
def methodHeader : Text := ":method".toList

def isPseudo (name : Text) : Bool :=
  name == pathHeader || name == schemeHeader || name == authorityHeader || name == methodHeader

/-- The two loops of `_submit_request` over the headers of a request, in either session. -/
def sentFields (fromConfig ofIndividual : HeaderMap) : List (Text × Text) :=
  (fromConfig.entries.filter fun header => (ofIndividual.lookup header.1).isNone && !isPseudo header.1) ++
    ofIndividual.entries.filter fun header => !isPseudo header.1

/-- Names of header fields do not depend on letter case. -/
def lowered (fields : List (Text × Text)) : List (Text × Text) :=
  fields.map fun field => (lower field.1, field.2)

def visible (entry : Text × Text) : Option Text := if isPseudo entry.1 then none else some entry.2

theorem lower_of_isPseudo {name : Text} (pseudo : isPseudo name = true) : lower name = name := by
  simp only [isPseudo, Bool.or_eq_true, beq_iff_eq] at pseudo
  rcases pseudo with ((rfl | rfl) | rfl) | rfl <;> decide

theorem visible_of_lookup {m : HeaderMap} {key : Text} {entry : Text × Text}
    (found : m.places.lookup key = some entry) (regular : isPseudo key = false) :
    visible entry = some entry.2 := by
  refine if_neg fun pseudo => ?_
  have same : key = entry.1 := (m.spelled found).symm.trans (lower_of_isPseudo pseudo)
  rw [same, pseudo] at regular
  cases regular

/-- What is sent under a name in lower case. -/
def fieldAt (fromConfig ofIndividual : HeaderMap) (key : Text) : Option Text :=
  match ofIndividual.places.lookup key with
  | some entry => visible entry
  | none => (fromConfig.places.lookup key).bind visible

section Sent

variable (fromConfig ofIndividual : HeaderMap)

theorem mem_lowered_entries_iff (m : HeaderMap) (p : Text × Text → Bool) (key value : Text) :
    (key, value) ∈ lowered (m.entries.filter p) ↔
      ∃ entry, m.places.lookup key = some entry ∧ p entry = true ∧ entry.2 = value := by
  constructor
  · intro listed
    obtain ⟨entry, member, same⟩ := List.mem_map.mp listed
    obtain ⟨member, passes⟩ := List.mem_filter.mp member
    have found := (m.mem_entries_iff entry).mp member
    obtain ⟨named, valued⟩ := Prod.mk.inj same
    exact ⟨entry, named ▸ found, passes, valued⟩
  · rintro ⟨entry, found, passes, rfl⟩
    have named := m.spelled found
    refine List.mem_map.mpr ⟨entry, List.mem_filter.mpr ⟨?_, passes⟩, by rw [named]⟩
    rw [m.mem_entries_iff, named]
    exact found

theorem mem_sentFields_iff (key value : Text) : (key, value) ∈ lowered (sentFields fromConfig ofIndividual) ↔
      fieldAt fromConfig ofIndividual key = some value := by
  rw [sentFields, lowered, List.map_append, List.mem_append, ← lowered, ← lowered,
    mem_lowered_entries_iff, mem_lowered_entries_iff, fieldAt]
  constructor
  · rintro (⟨entry, found, passes, rfl⟩ | ⟨entry, found, passes, rfl⟩)
    · have named := fromConfig.spelled found
      simp only [HeaderMap.lookup, Bool.and_eq_true, Option.isNone_iff_eq_none,
        Bool.not_eq_true'] at passes
      rw [named] at passes
      rw [passes.1, found]
      simp [visible, passes.2]
    · rw [found]
      simp only [Bool.not_eq_true'] at passes
      simp [visible, passes]
  · intro sent
    split at sent
    · rename_i entry found
      rw [visible] at sent
      split at sent
      · cases sent
      · rename_i plain
        exact .inr ⟨entry, found, by simpa using plain, Option.some.inj sent⟩
    · rename_i missing
      obtain ⟨entry, found, sent⟩ := Option.bind_eq_some_iff.mp sent
      rw [visible] at sent
      split at sent
      · cases sent
      · rename_i plain
        refine .inl ⟨entry, found, ?_, Option.some.inj sent⟩
        rw [HeaderMap.lookup, fromConfig.spelled found, missing]
        simp [plain]

theorem nodup_sentNames : ((lowered (sentFields fromConfig ofIndividual)).map Prod.fst).Nodup := by
  simp only [lowered, sentFields, List.map_append, List.map_map, List.nodup_append']
  refine ⟨?_, ?_, ?_⟩
  · exact fromConfig.nodup_names.sublist (List.filter_sublist.map _)
  · exact ofIndividual.nodup_names.sublist (List.filter_sublist.map _)
  · intro key first second
    obtain ⟨header, listed, rfl⟩ := List.mem_map.mp first
    obtain ⟨other, listed', same⟩ := List.mem_map.mp second
    have absent := (List.mem_filter.mp listed).2
    have present := (ofIndividual.mem_entries_iff other).mp (List.mem_filter.mp listed').1
    simp only [HeaderMap.lookup, Bool.and_eq_true, Option.isNone_iff_eq_none] at absent
    change lower other.1 = lower header.1 at same
    rw [same, absent.1] at present
    cases present

end Sent

/-- **Two requests send the same fields exactly if they send the same under each name.** -/
theorem sentFields_perm_iff (fromConfig ofIndividual fromConfig' ofIndividual' : HeaderMap) :
    (lowered (sentFields fromConfig ofIndividual)).Perm (lowered (sentFields fromConfig' ofIndividual')) ↔
      ∀ key, fieldAt fromConfig ofIndividual key = fieldAt fromConfig' ofIndividual' key := by
  rw [List.perm_ext_iff_of_nodup (nodup_sentNames ..).of_map (nodup_sentNames ..).of_map]
  constructor
  · intro same key
    refine Option.ext fun value => ?_
    rw [← mem_sentFields_iff, ← mem_sentFields_iff]
    exact same (key, value)
  · rintro same ⟨key, value⟩
    rw [mem_sentFields_iff, mem_sentFields_iff, same key]

/-! ## A request -/

/-- What a request is sent from. -/
structure Outgoing where
  method : Text
  path : Text
  schema : Text
  authority : Text
  reqPayload : Text
  reqHeadersFromConfig : HeaderMap
  reqHeadersOfIndividual : HeaderMap

inductive Pseudo where
  | method | path | scheme | authority
  deriving DecidableEq

namespace Pseudo

def name : Pseudo → Text
  | method => methodHeader
  | path => pathHeader
  | scheme => schemeHeader
  | authority => authorityHeader

def get (r : Outgoing) : Pseudo → Text
  | method => r.method
  | path => r.path
  | scheme => r.schema
  | authority => r.authority

end Pseudo

theorem Pseudo.lower_name (p : Pseudo) : lower p.name = p.name := by
  cases p <;> decide

theorem isPseudo_iff (name : Text) : isPseudo name = true ↔ ∃ p : Pseudo, name = p.name := by
  constructor
  · intro pseudo
    simp only [isPseudo, Bool.or_eq_true, beq_iff_eq] at pseudo
    rcases pseudo with ((path | scheme) | authority) | method
    · exact ⟨.path, path⟩
    · exact ⟨.scheme, scheme⟩
    · exact ⟨.authority, authority⟩
    · exact ⟨.method, method⟩
  · rintro ⟨p, rfl⟩
    cases p <;> decide

theorem isPseudo_eq_false {name : Text} (regular : ∀ p : Pseudo, name ≠ p.name) : isPseudo name = false := by
  by_contra pseudo
  obtain ⟨p, same⟩ := (isPseudo_iff name).mp (by simpa using pseudo)
  exact regular p same

theorem Pseudo.name_injective {p q : Pseudo} (same : p.name = q.name) : p = q := by
  cases p <;> cases q <;> first | rfl | exact absurd same (by decide)

end H2LoadRunner.Load
