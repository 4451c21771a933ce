/-
# Library.Contract -- what programs guarantee for what they rely on

A `Contract` has an invariant of the world, what a program may rely on for each effect it
performs, and what it guarantees for each; effects that meet the guarantee keep the invariant.

* `Honours` is the property of a log: from a world with the invariant, if every effect is as
  relied on, every effect is as guaranteed.  It is `Composable`.
* `Leads p w Q` adds what holds of the value and of the world that `p` ends in, for programs
  whose later steps rest on what earlier ones left; `Leads.bind`, `Leads.perform` and the other
  rules take a program apart.
-/
import H2LoadRunner.Library.EffectLog

namespace H2LoadRunner.Library.EffectLog

set_option autoImplicit false

universe u

variable {W E F α β : Type u} [Machine W E] {p : Program W E F α} {w : W} {Q : α → W → Prop}

structure Contract (W : Type u) {E : Type u} [Machine W E] where
  invariant : W → Prop
  rely : W → E → Prop
  guarantee : W → E → Prop
  stable : ∀ w e, guarantee w e → invariant w → invariant (Machine.apply e w)

namespace Contract

variable (k : Contract W (E := E))

/-- From a world with the invariant, effects that are as relied on are as guaranteed. -/
def Honours (w : W) (es : List E) : Prop :=
  k.invariant w → Along k.rely w es → Along k.guarantee w es

theorem composable_honours : Composable k.Honours where
  nil _ _ _ := trivial
  append w es fs early late holds along := by
    obtain ⟨first, second⟩ := (along_append k.rely w es fs).mp along
    have now := early holds first
    exact (along_append k.guarantee w es fs).mpr
      ⟨now, late (replay_invariant k.stable now holds) second⟩

/-- `p` honours the contract from `w` and ends in a value and a world satisfying `Q`. -/
def Leads (p : Program W E F α) (w : W) (Q : α → W → Prop) : Prop :=
  Emits p w fun a es => k.invariant w → Along k.rely w es →
    Along k.guarantee w es ∧ Q a (replay w es)

variable {k}

theorem Leads.honours (leads : k.Leads p w Q) : Emits p w fun _ es => k.Honours w es :=
  Emits.mono leads fun _ _ ends holds along => (ends holds along).1

theorem leads_of_honours (honours : Emits p w fun _ es => k.Honours w es) :
    k.Leads p w fun _ _ => True :=
  Emits.mono honours fun _ _ ends holds along => ⟨ends holds along, trivial⟩

theorem Leads.mono {R : α → W → Prop} (leads : k.Leads p w Q)
    (implies : ∀ a v, k.invariant v → Q a v → R a v) : k.Leads p w R :=
  Emits.mono leads fun a es ends holds along => by
    obtain ⟨now, later⟩ := ends holds along
    exact ⟨now, implies a _ (replay_invariant k.stable now holds) later⟩

theorem Leads.assume (leads : k.invariant w → k.Leads p w Q) : k.Leads p w Q :=
  fun a es ends holds along => leads holds a es ends holds along

theorem Leads.bind {f : α → Program W E F β} {Q : β → W → Prop}
    (first : k.Leads p w fun a v => k.Leads (f a) v Q) : k.Leads (p >>= f) w Q := by
  unfold Leads
  rw [emits_bind]
  intro a es ends b fs continues holds along
  obtain ⟨early, late⟩ := (along_append k.rely w es fs).mp along
  obtain ⟨now, leads⟩ := first a es ends holds early
  obtain ⟨later, done⟩ := leads b fs continues (replay_invariant k.stable now holds) late
  rw [along_append, replay_append]
  exact ⟨⟨now, later⟩, done⟩

theorem Leads.pure {a : α} (holds : Q a w) : k.Leads (Pure.pure a : Program W E F α) w Q := by
  unfold Leads
  rw [emits_pure]
  exact fun _ _ => ⟨trivial, holds⟩

theorem Leads.world {Q : W → W → Prop} (holds : Q w w) : k.Leads (Program.world : Program W E F W) w Q := by
  unfold Leads
  rw [emits_world]
  exact fun _ _ => ⟨trivial, holds⟩

theorem Leads.perform {e : E} {Q : PUnit → W → Prop}
    (holds : k.invariant w → k.rely w e → k.guarantee w e ∧ Q ⟨⟩ (Machine.apply e w)) :
    k.Leads (Program.perform e : Program W E F PUnit) w Q := by
  unfold Leads
  rw [emits_perform]
  intro invariant along
  obtain ⟨now, done⟩ := holds invariant along.1
  exact ⟨⟨now, trivial⟩, done⟩

theorem Leads.fault (f : F) : k.Leads (Program.fault f : Program W E F α) w Q :=
  emits_fault f w _

theorem Leads.ite {c : Prop} [Decidable c] {q : Program W E F α} (yes : c → k.Leads p w Q)
    (no : ¬ c → k.Leads q w Q) : k.Leads (if c then p else q) w Q := by
  by_cases holds : c
  · rw [if_pos holds]
    exact yes holds
  · rw [if_neg holds]
    exact no holds

theorem Leads.unless {c : Prop} [Decidable c] {a : α} (no : ¬ c → k.Leads p w fun _ _ => True) :
    k.Leads (if c then Pure.pure a else p) w fun _ _ => True :=
  .ite (fun _ => .pure trivial) no

theorem Leads.when {c : Prop} [Decidable c] {a : α} (yes : c → k.Leads p w fun _ _ => True) :
    k.Leads (if c then p else Pure.pure a) w fun _ _ => True :=
  .ite yes fun _ => .pure trivial

theorem Leads.before {b : β} (leads : k.Leads p w Q) :
    k.Leads (p >>= fun _ => Pure.pure b) w fun _ _ => True :=
  .bind (leads.mono fun _ _ _ _ => .pure trivial)

end Contract

end H2LoadRunner.Library.EffectLog
