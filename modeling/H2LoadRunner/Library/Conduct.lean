/-
# Library.Conduct -- what programs do and how they may fault

A `Conduct` has an invariant of the world, a property of logs that sequencing keeps and that
keeps the invariant, and the faults it allows.

* `Meets p w Q` says that `p` started in `w` has such a log, or an allowed fault, and what holds of the
  value and of the world it ends in; `Meets.bind`, `Meets.perform` and the other rules take a program apart;
  `Keeps p w` says no more than the log.
* `Follows es p w Q` is the same for a program whose effects are logged together with `es`.
* `Allows k l` compares two of them: what meets the first meets the second.
* `meets_runAll` is the rule for runs of events.
* `keeping I` is the conduct that has no other demand than that `I` is kept, `logging` the one of a
  `Composable` property of logs.
-/
import H2LoadRunner.Library.EffectLog

namespace H2LoadRunner.Library.EffectLog

set_option autoImplicit false

universe u

variable {W E F α β : Type u} [Machine W E] {p : Program W E F α} {w : W} {Q : α → W → Prop}

structure Conduct (W : Type u) {E : Type u} (F : Type u) [Machine W E] where
  invariant : W → Prop
  log : W → List E → Prop
  allows : F → Prop
  nil : ∀ w, log w []
  append : ∀ w es fs, log w es → log (replay w es) fs → log w (es ++ fs)
  stable : ∀ w es, log w es → invariant w → invariant (replay w es)

namespace Conduct

variable (k : Conduct W (E := E) F)

/-- Every effect meets `G`, which keeps `I`. -/
def along (I : W → Prop) (G : W → E → Prop) (allows : F → Prop)
    (keeps : ∀ w e, G w e → I w → I (Machine.apply e w)) : Conduct W (E := E) F where
  invariant := I
  log := Along G
  allows := allows
  nil _ := trivial
  append w es fs early late := (along_append G w es fs).mpr ⟨early, late⟩
  stable _ _ log holds := replay_invariant keeps log holds

/-- The invariant is kept, and any fault allowed. -/
def keeping (I : W → Prop) : Conduct W (E := E) F where
  invariant := I
  log w es := I w → I (replay w es)
  allows _ := True
  nil _ holds := holds
  append w es fs early late holds := by
    rw [replay_append]
    exact late (early holds)
  stable _ _ log holds := log holds

/-- The logs that a composable property has. -/
def logging {B : W → List E → Prop} (composable : Composable B) : Conduct W (E := E) F where
  invariant _ := True
  log := B
  allows _ := True
  nil := composable.nil
  append := composable.append
  stable _ _ _ _ := trivial

/-- The world `v` comes after `w` by a log of this conduct. -/
def Reached (w v : W) : Prop := ∃ es, k.log w es ∧ replay w es = v

/-- From a world with the invariant, `p` ends in a value and a world satisfying `Q`, or in an
allowed fault. -/
def Meets (p : Program W E F α) (w : W) (Q : α → W → Prop) : Prop :=
  k.invariant w → match p w with
    | .error f => k.allows f
    | .ok (a, es) => k.log w es ∧ Q a (replay w es)

/-- The same with nothing to say of the end. -/
abbrev Keeps (p : Program W E F α) (w : W) : Prop := k.Meets p w fun _ _ => True

variable {k}

theorem Reached.holds {I : W → Prop} {G : W → E → Prop} {allows : F → Prop}
    {keeps : ∀ w e, G w e → I w → I (Machine.apply e w)} {v : W} {P : W → Prop}
    (reached : (along I G allows keeps).Reached w v)
    (step : ∀ w e, G w e → P w → P (Machine.apply e w)) (initial : P w) : P v := by
  obtain ⟨es, log, rfl⟩ := reached
  exact replay_invariant step log initial

theorem Meets.log (meets : k.Meets p w Q) (holds : k.invariant w) {a : α} {es : List E}
    (ends : p w = .ok (a, es)) : k.log w es ∧ Q a (replay w es) := by
  have outcome := meets holds
  rw [ends] at outcome
  exact outcome

theorem Meets.allows (meets : k.Meets p w Q) (holds : k.invariant w) {f : F}
    (ends : p w = .error f) : k.allows f := by
  have outcome := meets holds
  rw [ends] at outcome
  exact outcome

theorem meets_logging {B : W → List E → Prop} {composable : Composable B} :
    (logging composable).Keeps p w ↔ Emits p w fun _ es => B w es := by
  refine ⟨fun meets a es ends => (meets.log trivial ends).1, fun emits _ => ?_⟩
  split
  · trivial
  · rename_i a es ends
    exact ⟨emits a es ends, trivial⟩

theorem meets_of_outcomes (logs : k.invariant w → Emits p w fun a es => k.log w es ∧ Q a (replay w es))
    (faults : k.invariant w → ∀ f, p w = .error f → k.allows f) : k.Meets p w Q := by
  intro holds
  split
  · rename_i f ends
    exact faults holds f ends
  · rename_i a es ends
    exact logs holds a es ends

theorem Meets.mono {R : α → W → Prop} (meets : k.Meets p w Q)
    (implies : ∀ a v, k.Reached w v → Q a v → R a v) : k.Meets p w R :=
  meets_of_outcomes
    (fun holds a es ends => by
      obtain ⟨log, later⟩ := meets.log holds ends
      exact ⟨log, implies a _ ⟨es, log, rfl⟩ later⟩)
    fun holds _ ends => meets.allows holds ends

theorem Meets.any (meets : k.Meets p w Q) : k.Keeps p w :=
  meets.mono fun _ _ _ _ => trivial

theorem Meets.assume (meets : k.invariant w → k.Meets p w Q) : k.Meets p w Q :=
  fun holds => meets holds holds

theorem Meets.bind {f : α → Program W E F β} {R : β → W → Prop} (first : k.Meets p w Q)
    (rest : ∀ a v, k.Reached w v → Q a v → k.Meets (f a) v R) : k.Meets (p >>= f) w R := by
  intro holds
  rw [bind_apply]
  cases ends : p w with
  | error g => exact first.allows holds ends
  | ok outcome =>
    obtain ⟨a, es⟩ := outcome
    obtain ⟨log, later⟩ := first.log holds ends
    have next := rest a _ ⟨es, log, rfl⟩ later
    have after := k.stable w es log holds
    dsimp only
    cases continues : f a (replay w es) with
    | error g => exact next.allows after continues
    | ok outcome =>
      obtain ⟨b, fs⟩ := outcome
      obtain ⟨more, done⟩ := next.log after continues
      refine ⟨k.append w es fs log more, ?_⟩
      rw [replay_append]
      exact done

theorem Meets.pure {a : α} (holds : Q a w) : k.Meets (Pure.pure a : Program W E F α) w Q :=
  fun _ => ⟨k.nil w, holds⟩

theorem Meets.fault {f : F} (allowed : k.invariant w → k.allows f) :
    k.Meets (Program.fault f : Program W E F α) w Q :=
  allowed

theorem Meets.fault_bind {f : F} {g : α → Program W E F β} {Q : β → W → Prop}
    (allowed : k.invariant w → k.allows f) :
    k.Meets ((Program.fault f : Program W E F α) >>= g) w Q :=
  allowed

theorem Meets.perform {e : E} {Q : PUnit → W → Prop} (log : k.invariant w → k.log w [e])
    (holds : k.Reached w (Machine.apply e w) → Q ⟨⟩ (Machine.apply e w)) :
    k.Meets (Program.perform e : Program W E F PUnit) w Q :=
  fun invariant => ⟨log invariant, holds ⟨[e], log invariant, rfl⟩⟩

theorem Meets.performs {e : E} {f : PUnit → Program W E F α} (log : k.invariant w → k.log w [e])
    (rest : k.Meets (f ⟨⟩) (Machine.apply e w) Q) : k.Meets (Program.perform e >>= f) w Q :=
  .bind (Q := fun _ v => v = Machine.apply e w) (.perform log fun _ => rfl) (by
    rintro _ _ _ rfl
    exact rest)

theorem Meets.world {Q : W → W → Prop} (holds : Q w w) :
    k.Meets (Program.world : Program W E F W) w Q :=
  fun _ => ⟨k.nil w, holds⟩

theorem Meets.reads {f : W → Program W E F β} {R : β → W → Prop} (rest : k.Meets (f w) w R) :
    k.Meets (Program.world >>= f) w R :=
  Meets.bind (Q := fun v u => v = w ∧ u = w) (.world ⟨rfl, rfl⟩) (by
    rintro _ _ _ ⟨rfl, rfl⟩
    exact rest)

theorem Meets.ite {c : Prop} [Decidable c] {q : Program W E F α} (yes : c → k.Meets p w Q)
    (no : ¬ c → k.Meets q w Q) : k.Meets (if c then p else q) w Q := by
  by_cases holds : c
  · rw [if_pos holds]
    exact yes holds
  · rw [if_neg holds]
    exact no holds

theorem Meets.unless {c : Prop} [Decidable c] {a : α} (no : ¬ c → k.Keeps p w) :
    k.Keeps (if c then Pure.pure a else p) w :=
  .ite (fun _ => .pure trivial) no

theorem Meets.when {c : Prop} [Decidable c] {a : α} (yes : c → k.Keeps p w) :
    k.Keeps (if c then p else Pure.pure a) w :=
  .ite yes fun _ => .pure trivial

theorem Meets.before {b : β} (meets : k.Meets p w Q) : k.Keeps (p >>= fun _ => Pure.pure b) w :=
  meets.bind fun _ _ _ _ => .pure trivial

/-! ## Effects in a group -/

/-- The same for a program that starts after the effects `es`, which are logged together with what
follows. -/
def Follows (k : Conduct W (E := E) F) (es : List E) (p : Program W E F α) (w : W)
    (Q : α → W → Prop) : Prop :=
  k.invariant w → match p (replay w es) with
    | .error f => k.allows f
    | .ok (a, fs) => k.log w (es ++ fs) ∧ Q a (replay w (es ++ fs))

namespace Follows

variable {es : List E}

theorem meets (follows : k.Follows [] p w Q) : k.Meets p w Q := follows

theorem bind {a : α} (fs : List E) {f : α → Program W E F β} {Q : β → W → Prop}
    (first : p (replay w es) = .ok (a, fs)) (rest : k.Follows (es ++ fs) (f a) w Q) :
    k.Follows es (p >>= f) w Q := by
  intro holds
  have outcome := rest holds
  rw [replay_append] at outcome
  simp only [bind_apply, first]
  cases continues : f a (replay (replay w es) fs) with
  | error g =>
    rw [continues] at outcome
    exact outcome
  | ok next =>
    rw [continues] at outcome
    simpa only [List.append_assoc] using outcome

theorem perform {e : E} {f : PUnit → Program W E F α} (rest : k.Follows (es ++ [e]) (f ⟨⟩) w Q) :
    k.Follows es (Program.perform e >>= f) w Q :=
  .bind [e] rfl rest

theorem ite {c : Prop} [Decidable c] {q : Program W E F α} (yes : c → k.Follows es p w Q)
    (no : ¬ c → k.Follows es q w Q) : k.Follows es (if c then p else q) w Q := by
  by_cases holds : c
  · rw [if_pos holds]
    exact yes holds
  · rw [if_neg holds]
    exact no holds

theorem complete (log : k.invariant w → k.log w es) (rest : k.Meets p (replay w es) Q) :
    k.Follows es p w Q := by
  intro holds
  have outcome := rest (k.stable w es (log holds) holds)
  split
  · rename_i f ends
    rw [ends] at outcome
    exact outcome
  · rename_i a fs ends
    rw [ends] at outcome
    rw [replay_append]
    exact ⟨k.append w es fs (log holds) outcome.1, outcome.2⟩

end Follows

/-! ## Comparing conducts -/

/-- What meets `k` meets `l`. -/
structure Allows (k l : Conduct W (E := E) F) : Prop where
  invariant : ∀ w, l.invariant w → k.invariant w
  log : ∀ w es, l.invariant w → k.log w es → l.log w es
  faults : ∀ f, k.allows f → l.allows f

theorem Allows.refl (k : Conduct W (E := E) F) : Allows k k :=
  ⟨fun _ holds => holds, fun _ _ _ log => log, fun _ allowed => allowed⟩

theorem Meets.weaken {l : Conduct W (E := E) F} (meets : k.Meets p w Q) (allows : Allows k l) :
    l.Meets p w Q :=
  meets_of_outcomes
    (fun holds _ _ ends => by
      obtain ⟨log, later⟩ := meets.log (allows.invariant w holds) ends
      exact ⟨allows.log w _ holds log, later⟩)
    fun holds f ends => allows.faults f (meets.allows (allows.invariant w holds) ends)

/-! ## Runs -/

theorem meets_runAll {Event : Type u} {D : W → Event → Prop} {handler : Event → Program W E F PUnit}
    (each : ∀ w event, D w event → k.Keeps (handler event) w) {events : List Event}
    (conditions : EventsAlong D handler w events) : k.Keeps (runAll handler events) w := by
  induction events generalizing w with
  | nil => exact .pure trivial
  | cons event events ih =>
    refine .assume fun holds => ?_
    have handled : k.Meets (handler event) w fun _ v => EventsAlong D handler v events := by
      refine meets_of_outcomes (fun holds a es ends => ?_)
        fun holds _ ends => (each w event conditions.1).allows holds ends
      exact ⟨((each w event conditions.1).log holds ends).1, conditions.2 a es ends⟩
    exact handled.bind fun _ v _ later => ih later

end Conduct

end H2LoadRunner.Library.EffectLog
