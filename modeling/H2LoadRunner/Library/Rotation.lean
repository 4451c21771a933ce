/-
# Library.Rotation -- failing over between hosts

A client that prefers one host and knows others is at one of them at a time.  The others wait
as candidates, or as used ones to be tried again.  `Step` lists the moves: away from the
preferred host to the next candidate, back to the preferred host with the current one kept for
later, and, when every candidate was used, from the preferred host to a used one once the
waiting time is over.
-/
import Mathlib

namespace H2LoadRunner.Library

set_option autoImplicit false

universe u

structure Rotation (α : Type u) where
  preferred : α
  current : α
  candidates : List α
  used : List α
  /-- A used host will be tried after a waiting time. -/
  retrying : Bool
  /-- The current host will be tried once more. -/
  again : Bool := false

namespace Rotation

variable {α : Type u} [DecidableEq α]

def members (r : Rotation α) : Finset α :=
  insert r.preferred (insert r.current (r.candidates.toFinset ∪ r.used.toFinset))

/-- The hosts other than the preferred one, each at its place. -/
def parked (r : Rotation α) : List α :=
  r.candidates ++ r.used ++ if r.current = r.preferred then [] else [r.current]

/-- A client at its preferred host, with the other hosts of the list as candidates in some
order. -/
def fresh (preferred : α) (candidates : List α) : Rotation α where
  preferred := preferred
  current := preferred
  candidates := candidates
  used := []
  retrying := false

/-- A move that ends in an attempt to connect to the host that is current then. -/
inductive Attempt (r : Rotation α) : Rotation α → Prop
  /-- Back to the preferred host; the current one counts as used. -/
  | fallBack (away : r.current ≠ r.preferred) :
      Attempt r { r with current := r.preferred, used := r.used ++ [r.current] }
  | advance {next : α} {rest : List α} (home : r.current = r.preferred) (calm : r.retrying = false)
      (front : r.candidates = next :: rest) : Attempt r { r with current := next, candidates := rest }
  | retry {next : α} {rest : List α} (home : r.current = r.preferred) (empty : r.candidates = [])
      (front : r.used = next :: rest) :
      Attempt r { r with current := next, used := rest, retrying := false }
  | stay (home : r.current = r.preferred) (empty : r.candidates = []) (none : r.used = []) :
      Attempt r { r with retrying := false }

inductive Step (r : Rotation α) : Rotation α → Prop
  | attempt {s : Rotation α} (move : Attempt r s) : Step r s
  | wait (home : r.current = r.preferred) (empty : r.candidates = []) : Step r { r with retrying := true }
  /-- Back to the preferred host; the current one can be tried again. -/
  | switchBack (away : r.current ≠ r.preferred) :
      Step r { r with current := r.preferred, candidates := r.candidates ++ [r.current] }
  | calm : Step r { r with retrying := false }
  | ask (again : Bool) : Step r { r with again := again }

/-- The client knows exactly the hosts, each in one place if they are distinct, and tries a
used one only from the preferred one, when no candidate is left. -/
structure Covers (hosts : List α) (r : Rotation α) : Prop where
  members : r.members = hosts.toFinset
  parked : hosts.Nodup → (r.preferred :: r.parked).Perm hosts
  retrying : r.retrying = true → r.current = r.preferred ∧ r.candidates = []

theorem mem_members {r : Rotation α} {host : α} :
    host ∈ r.members ↔ host = r.preferred ∨ host = r.current ∨ host ∈ r.candidates ∨ host ∈ r.used := by
  simp [members]

theorem Covers.nodup_cons {hosts : List α} {r : Rotation α} (covers : Covers hosts r)
    (distinct : hosts.Nodup) : (r.preferred :: r.parked).Nodup :=
  (covers.parked distinct).nodup_iff.mpr distinct

theorem Covers.ne_preferred {hosts : List α} {r : Rotation α} (covers : Covers hosts r)
    (distinct : hosts.Nodup) {host : α} (waits : host ∈ r.parked) : host ≠ r.preferred := by
  rintro rfl
  exact (List.nodup_cons.mp (covers.nodup_cons distinct)).1 waits

theorem covers_fresh {hosts candidates : List α} {preferred : α}
    (all : (preferred :: candidates).Perm hosts) : Covers hosts (fresh preferred candidates) where
  members := by
    rw [← List.toFinset_eq_of_perm _ _ all]
    ext host
    simp [mem_members, fresh]
  parked _ := by simpa [Rotation.parked, fresh] using all
  retrying := nofun

/-- What to show of a move: it keeps the hosts as a set and, where they are distinct, as a list
up to order. -/
theorem Covers.moved {hosts : List α} {r s : Rotation α} (covers : Covers hosts r)
    (same : s.preferred = r.preferred) (members : ∀ host, host ∈ s.members ↔ host ∈ r.members)
    (parked : hosts.Nodup → s.parked.Perm r.parked)
    (retrying : s.retrying = true → s.current = s.preferred ∧ s.candidates = []) : Covers hosts s where
  members := (Finset.ext members).trans covers.members
  parked distinct := by
    rw [same]
    exact ((parked distinct).cons _).trans (covers.parked distinct)
  retrying := retrying

theorem Attempt.covers {hosts : List α} {r s : Rotation α} (move : Attempt r s) (covers : Covers hosts r) :
    Covers hosts s := by
  cases move with
  | fallBack away =>
    refine covers.moved rfl (fun host => ?_) (fun _ => ?_) fun due => absurd (covers.retrying due).1 away
    · simp only [mem_members, List.mem_append, List.mem_singleton]
      tauto
    · simp [Rotation.parked, away]
  | @advance next rest home calm front =>
    refine covers.moved rfl (fun host => ?_) (fun distinct => ?_) fun due => absurd due (by simp [calm])
    · simp only [mem_members, home, front, List.mem_cons]
      tauto
    · have other : next ≠ r.preferred :=
        covers.ne_preferred distinct (by simp [Rotation.parked, front])
      simp only [Rotation.parked, home, front, if_neg other, if_true, List.append_nil,
        List.cons_append]
      exact List.perm_append_singleton next _
  | @retry next rest home empty front =>
    refine covers.moved rfl (fun host => ?_) (fun distinct => ?_) nofun
    · simp only [mem_members, home, front, List.mem_cons]
      tauto
    · have other : next ≠ r.preferred :=
        covers.ne_preferred distinct (by simp [Rotation.parked, front])
      simp only [Rotation.parked, home, front, if_neg other, if_true, List.append_nil,
        List.append_assoc]
      exact (List.perm_append_singleton next rest).append_left _
  | stay => exact covers.moved rfl (fun _ => .rfl) (fun _ => .refl _) nofun

/-- **No move loses or duplicates a host.** -/
theorem Step.covers {hosts : List α} {r s : Rotation α} (step : Step r s) (covers : Covers hosts r) :
    Covers hosts s := by
  cases step with
  | attempt move => exact move.covers covers
  | wait home empty => exact covers.moved rfl (fun _ => .rfl) (fun _ => .refl _) fun _ => ⟨home, empty⟩
  | switchBack away =>
    refine covers.moved rfl (fun host => ?_) (fun _ => ?_) fun due => absurd (covers.retrying due).1 away
    · simp only [mem_members, List.mem_append, List.mem_singleton]
      tauto
    · simp only [Rotation.parked, if_neg away, if_true, List.append_nil, List.append_assoc]
      exact List.perm_append_comm.append_left _
  | calm => exact covers.moved rfl (fun _ => .rfl) (fun _ => .refl _) nofun
  | ask => exact covers.moved rfl (fun _ => .rfl) (fun _ => .refl _) covers.retrying

end Rotation

end H2LoadRunner.Library
