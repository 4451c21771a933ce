/-
# Library.Custody -- what is taken on is done exactly once

Obligations are issued, wait in one place or another, and are done.  `Custody` says that
nothing got lost or copied on the way: as often as an obligation was issued it is held
somewhere or has been done.  Issued obligations are distinct, so one that is held nowhere
has been done exactly once (`Custody.done_once`).

An obligation let go without being done breaks custody (`Custody.not_of_lost`).
-/
import Mathlib

namespace H2LoadRunner.Library

set_option autoImplicit false

universe u

variable {T : Type u} [DecidableEq T]

theorem count_erase_add {t : T} {list : List T} (member : t ∈ list) (other : T) :
    (list.erase t).count other + [t].count other = list.count other := by
  have split := (List.perm_cons_erase member).count_eq other
  rw [List.count_cons] at split
  rw [List.count_singleton]
  exact split.symm

structure Custody (issued : List T) (held : T → Nat) (done : List T) : Prop where
  distinct : issued.Nodup
  balanced : ∀ t, held t + done.count t = issued.count t

namespace Custody

variable {issued done : List T} {held later : T → Nat} {t : T} {ts : List T}

theorem none : Custody ([] : List T) (fun _ => 0) [] := ⟨List.nodup_nil, fun _ => rfl⟩

/-! ## The rules -/

theorem issue (custody : Custody issued held done) (fresh : t ∉ issued)
    (taken : ∀ u, later u = held u + [t].count u) : Custody (issued ++ [t]) later done where
  distinct := List.nodup_append.mpr ⟨custody.distinct, List.nodup_singleton t, by
    intro a before b now same
    rw [List.mem_singleton] at now
    exact fresh (now ▸ same ▸ before)⟩
  balanced := by
    intro u
    have before := custody.balanced u
    rw [taken, List.count_append]
    omega

theorem move (custody : Custody issued held done) (same : ∀ u, later u = held u) :
    Custody issued later done where
  distinct := custody.distinct
  balanced := fun u => by rw [same, custody.balanced u]

theorem discharge (custody : Custody issued held done)
    (released : ∀ u, later u + ts.count u = held u) : Custody issued later (done ++ ts) where
  distinct := custody.distinct
  balanced := by
    intro u
    have before := custody.balanced u
    have now := released u
    rw [List.count_append]
    omega

/-! ## What they give -/

theorem held_or_done (custody : Custody issued held done) (taken : t ∈ issued) : held t + done.count t = 1 := by
  rw [custody.balanced t]
  exact List.count_eq_one_of_mem custody.distinct taken

theorem done_once (custody : Custody issued held done) (taken : t ∈ issued)
    (released : held t = 0) : done.count t = 1 := by
  have once := custody.held_or_done taken
  omega

theorem not_of_lost (custody : Custody issued held done) (lost : later t < held t)
    {more : List T} (fresh : t ∉ more) : ¬Custody (issued ++ more) later done := by
  intro still
  have before := custody.balanced t
  have after := still.balanced t
  rw [List.count_append, List.count_eq_zero_of_not_mem fresh] at after
  omega

theorem mem_issued_of_held (custody : Custody issued held done) (waits : 0 < held t) : t ∈ issued := by
  have balanced := custody.balanced t
  exact List.count_pos_iff.mp (by omega)

end Custody

end H2LoadRunner.Library
