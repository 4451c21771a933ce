/-
# Load.EmittedHeaders -- the header fields of a request over HTTP/1 and HTTP/2

`Http1Session::_submit_request` writes a `Host` line of its own and then the fields of the two header
maps, `Http2Session::_submit_request` four pseudo headers and then the same fields; nghttp2 sends names
in lower case.

`emitsAlike_iff`: both send the same fields, each name once, exactly when none of them is named like
the `Host` line or, in another letter case, like a pseudo header.
-/
import H2LoadRunner.Load.HeaderMap

namespace H2LoadRunner.Load

open Library
open Cookies (Text lower)

set_option autoImplicit false

def hostHeader : Text := "Host".toList

namespace Outgoing

def fields (r : Outgoing) : List (Text × Text) := sentFields r.reqHeadersFromConfig r.reqHeadersOfIndividual

def http1Fields (r : Outgoing) : List (Text × Text) := (hostHeader, r.authority) :: r.fields

def http2Fields (r : Outgoing) : List (Text × Text) :=
  ([.path, .scheme, .authority, .method].map fun p : Pseudo => (p.name, p.get r)) ++ r.fields

/-- What both sessions promise, with names in lower case. -/
structure EmitsAlike (r : Outgoing) : Prop where
  same : ∀ key value, key ≠ lower hostHeader →
    ((key, value) ∈ lowered r.http1Fields ↔ (key, value) ∈ lowered r.http2Fields ∧ isPseudo key = false)
  overrides : ∀ key entry, r.reqHeadersOfIndividual.places.lookup key = some entry → isPseudo key = false →
    ∀ value, (key, value) ∈ lowered r.http2Fields ↔ value = entry.2
  once : ((lowered r.http1Fields).map Prod.fst).Nodup ∧ ((lowered r.http2Fields).map Prod.fst).Nodup
  host : (lowered r.http1Fields).filter (·.1 = lower hostHeader) = [(lower hostHeader, r.authority)]

def sentAt (r : Outgoing) (key : Text) : Option Text :=
  fieldAt r.reqHeadersFromConfig r.reqHeadersOfIndividual key

variable {r : Outgoing}

theorem mem_fields_iff (key value : Text) : (key, value) ∈ lowered r.fields ↔ r.sentAt key = some value :=
  mem_sentFields_iff ..

theorem mem_names_iff (key : Text) : key ∈ (lowered r.fields).map Prod.fst ↔ r.sentAt key ≠ none := by
  simp only [List.mem_map, Prod.exists, mem_fields_iff, exists_and_right, exists_eq_right,
    Option.ne_none_iff_exists']

theorem mem_http2Fields_iff (key value : Text) : (key, value) ∈ lowered r.http2Fields ↔
      (∃ p : Pseudo, p.name = key ∧ p.get r = value) ∨ r.sentAt key = some value := by
  rw [http2Fields, lowered, List.map_append, List.mem_append, ← lowered, ← lowered, mem_fields_iff]
  refine or_congr_left ⟨fun listed => ?_, ?_⟩
  · simp only [lowered, List.map_map, List.mem_map, Function.comp, Pseudo.lower_name, Prod.mk.injEq] at listed
    obtain ⟨p, -, sent⟩ := listed
    exact ⟨p, sent⟩
  · rintro ⟨p, rfl, rfl⟩
    simp only [lowered, List.map_map, List.mem_map, Function.comp, Pseudo.lower_name]
    exact ⟨p, by cases p <;> simp, rfl⟩

theorem nodup_http1Fields_iff :
    ((lowered r.http1Fields).map Prod.fst).Nodup ↔ r.sentAt (lower hostHeader) = none := by
  have names := nodup_sentNames r.reqHeadersFromConfig r.reqHeadersOfIndividual
  rw [http1Fields, lowered, List.map_cons, List.map_cons, List.nodup_cons, ← lowered, mem_names_iff, not_not]
  exact and_iff_left names

theorem nodup_http2Fields_iff :
    ((lowered r.http2Fields).map Prod.fst).Nodup ↔ ∀ p : Pseudo, r.sentAt p.name = none := by
  have names := nodup_sentNames r.reqHeadersFromConfig r.reqHeadersOfIndividual
  have pseudo : (lowered ([.path, .scheme, .authority, .method].map fun p : Pseudo => (p.name, p.get r))).map Prod.fst =
      [Pseudo.path, .scheme, .authority, .method].map Pseudo.name := by
    simp [lowered, Pseudo.lower_name]
  rw [http2Fields, lowered, List.map_append, List.map_append, ← lowered, ← lowered, pseudo, List.nodup_append']
  constructor
  · rintro ⟨-, -, apart⟩ p
    by_contra sent
    exact apart (List.mem_map.mpr ⟨p, by cases p <;> simp, rfl⟩) ((mem_names_iff _).mpr sent)
  · intro unsent
    refine ⟨by decide, names, fun key first second => ?_⟩
    obtain ⟨p, -, rfl⟩ := List.mem_map.mp first
    exact (mem_names_iff _).mp second (unsent p)

/-- **Both sessions send the same fields**, each once and with one `Host` line, exactly when nothing of
the two maps is sent under `host` or under the name of a pseudo header. -/
theorem emitsAlike_iff (r : Outgoing) :
    r.EmitsAlike ↔ r.sentAt (lower hostHeader) = none ∧ ∀ p : Pseudo, r.sentAt p.name = none := by
  constructor
  · intro alike
    exact ⟨nodup_http1Fields_iff.mp alike.once.1, nodup_http2Fields_iff.mp alike.once.2⟩
  · rintro ⟨host, pseudo⟩
    have regular {key value : Text} (sent : r.sentAt key = some value) (p : Pseudo) : p.name ≠ key := by
      rintro rfl
      rw [pseudo p] at sent
      cases sent
    refine ⟨fun key value other => ?_, fun key entry found plain value => ?_,
      ⟨nodup_http1Fields_iff.mpr host, nodup_http2Fields_iff.mpr pseudo⟩, ?_⟩
    · rw [mem_http2Fields_iff, http1Fields, lowered, List.map_cons, List.mem_cons, ← lowered, mem_fields_iff]
      constructor
      · rintro (same | sent)
        · exact absurd (Prod.mk.inj same).1 other
        · exact ⟨.inr sent, isPseudo_eq_false fun p same => regular sent p same.symm⟩
      · rintro ⟨⟨p, rfl, -⟩ | sent, plain⟩
        · rw [(isPseudo_iff _).mpr ⟨p, rfl⟩] at plain
          cases plain
        · exact .inr sent
    · have sent : r.sentAt key = some entry.2 := by
        rw [sentAt, fieldAt, found]
        exact visible_of_lookup found plain
      rw [mem_http2Fields_iff, sent]
      constructor
      · rintro (⟨p, same, -⟩ | same)
        · exact absurd same (regular sent p)
        · exact (Option.some.inj same).symm
      · rintro rfl
        exact .inr rfl
    · have none : (lowered r.fields).filter (·.1 = lower hostHeader) = [] := by
        refine List.filter_eq_nil_iff.mpr fun field member named => ?_
        exact (mem_names_iff _).mp (List.mem_map_of_mem member) (by rw [of_decide_eq_true named, host])
      rw [http1Fields, lowered, List.map_cons, List.filter_cons_of_pos (by simp), ← lowered, none]

def configuredHost : Outgoing :=
  ⟨"GET".toList, "/".toList, "http".toList, "a.example".toList, [],
    HeaderMap.empty.assign "host".toList "b.example".toList, .empty⟩

/-- **Refuting pole:** a configured `host` is sent as a second `Host` line. -/
theorem configuredHost_not_emitsAlike : ¬ configuredHost.EmitsAlike := by
  intro alike
  have once := alike.once.1
  revert once
  decide

end Outgoing

end H2LoadRunner.Load
