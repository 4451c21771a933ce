/-
# Library.EffectLog -- programs whose only way to change the world is to log an effect

A `Program` reads a world and answers with a value and the list of effects it
performed, or faults.  The world after a program is the world before it with the
effects replayed in order, by the definition of sequencing: no program can change
the world otherwise.  So what holds of every effect holds of every program, and an
invariant is proved once for each effect and never for each function.

* `Emits p w Q` is the outcome of `p` from `w`: whatever value and effects it ends with satisfy `Q`.
* `Along C w es` says each effect of a log meets a condition in the world it was
  performed in; `replay_invariant` is the invariant rule under such a condition, and
  `throughout_of_invariant` the same for all worlds on the way.
* `total weight w es` adds up a weight along a log.
* `Composable` properties of a world and a log are closed under sequencing.
* `runAll` runs a list of events through a handler; `EventsAlong` is a condition on
  the worlds the events find, `WorldsAlong` one on every world reached, and
  `worldsAlong_iff` compares the two step by step.
-/
import Mathlib

namespace H2LoadRunner.Library.EffectLog

set_option autoImplicit false

universe u

/-- Effects `E` acting on worlds `W`. -/
class Machine (W : Type u) (E : outParam (Type u)) where
  apply : E → W → W

section Replay

variable {W E : Type u} [Machine W E] {w : W} {es : List E} {C : W → E → Prop} {I : W → Prop}

def replay (w : W) (es : List E) : W := es.foldl (fun w e => Machine.apply e w) w

@[simp] theorem replay_nil (w : W) : replay w ([] : List E) = w := rfl

@[simp] theorem replay_cons (w : W) (e : E) (es : List E) :
    replay w (e :: es) = replay (Machine.apply e w) es := rfl

theorem replay_append (w : W) (es fs : List E) :
    replay w (es ++ fs) = replay (replay w es) fs :=
  List.foldl_append

/-- Every effect of the log meets `C` in the world it is performed in. -/
def Along (C : W → E → Prop) : W → List E → Prop
  | _, [] => True
  | w, e :: es => C w e ∧ Along C (Machine.apply e w) es

theorem along_append (C : W → E → Prop) (w : W) (es fs : List E) :
    Along C w (es ++ fs) ↔ Along C w es ∧ Along C (replay w es) fs := by
  induction es generalizing w with
  | nil => simp [Along]
  | cons e es ih => simp [Along, ih, and_assoc]

theorem Along.mono {D : W → E → Prop} (implies : ∀ w e, C w e → D w e) (along : Along C w es) :
    Along D w es := by
  induction es generalizing w with
  | nil => trivial
  | cons e es ih => exact ⟨implies w e along.1, ih along.2⟩

theorem Along.and {D : W → E → Prop} (first : Along C w es) (second : Along D w es) :
    Along (fun w e => C w e ∧ D w e) w es := by
  induction es generalizing w with
  | nil => trivial
  | cons e es ih => exact ⟨⟨first.1, second.1⟩, ih first.2 second.2⟩

theorem along_of_forall (always : ∀ e ∈ es, ∀ w, C w e) (w : W) : Along C w es := by
  induction es generalizing w with
  | nil => trivial
  | cons e es ih =>
    exact ⟨always e List.mem_cons_self w,
      ih (fun f member => always f (List.mem_cons_of_mem _ member)) _⟩

instance decidableAlong (C : W → E → Prop) [∀ w e, Decidable (C w e)] :
    (w : W) → (es : List E) → Decidable (Along C w es)
  | _, [] => isTrue trivial
  | w, e :: es =>
    have := decidableAlong C (Machine.apply e w) es
    inferInstanceAs (Decidable (C w e ∧ Along C (Machine.apply e w) es))

/-- An invariant of every effect that meets `C` is an invariant of every log
along `C`. -/
theorem replay_invariant (step : ∀ w e, C w e → I w → I (Machine.apply e w)) (along : Along C w es)
    (initial : I w) : I (replay w es) := by
  induction es generalizing w with
  | nil => exact initial
  | cons e es ih => exact ih along.2 (step w e along.1 initial)

theorem replay_preserves (step : ∀ w e, I w → I (Machine.apply e w)) (es : List E) (initial : I w) :
    I (replay w es) := by
  induction es generalizing w with
  | nil => exact initial
  | cons e es ih => exact ih (step w e initial)

theorem along_of_invariant {D : W → E → Prop} (step : ∀ w e, C w e → I w → I (Machine.apply e w))
    (gives : ∀ w e, C w e → I w → D w e) (along : Along C w es) (initial : I w) : Along D w es := by
  induction es generalizing w with
  | nil => trivial
  | cons e es ih =>
    exact ⟨gives w e along.1 initial, ih along.2 (step w e along.1 initial)⟩

/-- Every world on the way through the log satisfies `I`. -/
def Throughout (I : W → Prop) (w : W) (es : List E) : Prop := ∀ fs, fs <+: es → I (replay w fs)

theorem throughout_cons {e : E} (here : I w) (later : Throughout I (Machine.apply e w) es) :
    Throughout I w (e :: es) := by
  intro fs early
  rcases List.prefix_cons_iff.mp early with rfl | ⟨rest, rfl, shorter⟩
  · exact here
  · exact later rest shorter

theorem throughout_of_invariant (step : ∀ w e, C w e → I w → I (Machine.apply e w))
    (along : Along C w es) (initial : I w) : Throughout I w es := by
  rintro fs ⟨rest, rfl⟩
  exact replay_invariant step ((along_append C w fs rest).mp along).1 initial

theorem Throughout.last (throughout : Throughout I w es) :
    I (replay w es) := throughout es (List.prefix_refl es)

theorem Throughout.mono {J : W → Prop} (implies : ∀ w, I w → J w) (throughout : Throughout I w es) :
    Throughout J w es :=
  fun fs early => implies _ (throughout fs early)

def total (weight : W → E → Int) : W → List E → Int
  | _, [] => 0
  | w, e :: es => weight w e + total weight (Machine.apply e w) es

theorem total_append (weight : W → E → Int) (w : W) (es fs : List E) :
    total weight w (es ++ fs) = total weight w es + total weight (replay w es) fs := by
  induction es generalizing w with
  | nil => simp [total]
  | cons e es ih => simp [total, ih, add_assoc]

/-! ## Logs cut into groups -/

/-- A log cut into groups, each one of `G` in the world it finds. -/
inductive Grouped (G : W → List E → Prop) : W → List E → Prop
  | nil (w : W) : Grouped G w []
  | cons {w : W} {group es : List E} (first : G w group) (rest : Grouped G (replay w group) es) :
      Grouped G w (group ++ es)

theorem Grouped.of_group {G : W → List E → Prop} {group : List E} (only : G w group) : Grouped G w group := by
  simpa using Grouped.cons only (.nil _)

theorem Grouped.append {G : W → List E → Prop} {fs : List E} (early : Grouped G w es)
    (late : Grouped G (replay w es) fs) : Grouped G w (es ++ fs) := by
  induction early with
  | nil w => exact late
  | cons first rest ih =>
    rw [List.append_assoc]
    exact .cons first (ih (by rwa [replay_append] at late))

theorem Grouped.invariant {G : W → List E → Prop}
    (step : ∀ w group, G w group → Along C w group → I w → I (replay w group))
    (grouped : Grouped G w es) (along : Along C w es) (initial : I w) : I (replay w es) := by
  induction grouped with
  | nil w => exact initial
  | cons first rest ih =>
    obtain ⟨now, later⟩ := (along_append C _ _ _).mp along
    rw [replay_append]
    exact ih later (step _ _ first now initial)

end Replay

/-! ## Programs -/

/-- A program: from a world, a fault or a value with the effects performed. -/
def Program (W E F α : Type u) : Type u := W → Except F (α × List E)

namespace Program

variable {W E F α β : Type u} {w : W} {es : List E} {C : W → E → Prop} {I : W → Prop}

def perform (e : E) : Program W E F PUnit := fun _ => .ok (⟨⟩, [e])

def world : Program W E F W := fun w => .ok (w, [])

def fault (f : F) : Program W E F α := fun _ => .error f

instance [Machine W E] : Monad (Program W E F) where
  pure a := fun _ => .ok (a, [])
  bind p f := fun w =>
    match p w with
    | .error g => .error g
    | .ok (a, es) =>
      match f a (replay w es) with
      | .error g => .error g
      | .ok (b, fs) => .ok (b, es ++ fs)

end Program

open Program

variable {W E F α β : Type u} {w : W} {es : List E} {C : W → E → Prop} {I : W → Prop}

/-- Whatever `p` ends with from `w` satisfies `Q`. -/
def Emits (p : Program W E F α) (w : W) (Q : α → List E → Prop) : Prop :=
  ∀ a es, p w = .ok (a, es) → Q a es

theorem Emits.mono {p : Program W E F α} {Q R : α → List E → Prop} (emits : Emits p w Q)
    (implies : ∀ a es, Q a es → R a es) : Emits p w R :=
  fun a es ends => implies a es (emits a es ends)

@[simp] theorem emits_perform (e : E) (w : W) (Q : PUnit → List E → Prop) :
    Emits (perform e : Program W E F PUnit) w Q ↔ Q ⟨⟩ [e] := by
  constructor
  · intro emits
    exact emits _ _ rfl
  · rintro holds a es ends
    cases ends
    exact holds

@[simp] theorem emits_world (w : W) (Q : W → List E → Prop) : Emits (world : Program W E F W) w Q ↔ Q w [] := by
  constructor
  · intro emits
    exact emits _ _ rfl
  · rintro holds a es ends
    cases ends
    exact holds

@[simp] theorem emits_fault (f : F) (w : W) (Q : α → List E → Prop) :
    Emits (fault f : Program W E F α) w Q := by
  intro a es ends
  cases ends

section Sequencing

variable [Machine W E]

@[simp] theorem emits_pure (a : α) (w : W) (Q : α → List E → Prop) :
    Emits (pure a : Program W E F α) w Q ↔ Q a [] := by
  constructor
  · intro emits
    exact emits _ _ rfl
  · rintro holds b es ends
    cases ends
    exact holds

theorem bind_apply (p : Program W E F α) (f : α → Program W E F β) (w : W) :
    (p >>= f) w =
      match p w with
      | Except.error g => Except.error g
      | Except.ok (a, es) =>
        match f a (replay w es) with
        | Except.error g => Except.error g
        | Except.ok (b, fs) => Except.ok (b, es ++ fs) :=
  rfl

theorem Program.bind_assoc {γ : Type u} (p : Program W E F α) (f : α → Program W E F β)
    (g : β → Program W E F γ) : (p >>= f) >>= g = p >>= fun a => f a >>= g := by
  funext w
  simp only [bind_apply]
  cases p w with
  | error fault => rfl
  | ok first =>
    dsimp only
    cases f first.1 (replay w first.2) with
    | error fault => rfl
    | ok second =>
      dsimp only
      rw [replay_append]
      cases g second.1 (replay (replay w first.2) second.2) with
      | error fault => rfl
      | ok third =>
        dsimp only
        rw [List.append_assoc]

theorem emits_bind (p : Program W E F α) (f : α → Program W E F β) (w : W) (Q : β → List E → Prop) :
    Emits (p >>= f) w Q ↔ Emits p w fun a es => Emits (f a) (replay w es) fun b fs => Q b (es ++ fs) := by
  constructor
  · intro emits a es first b fs second
    refine emits b (es ++ fs) ?_
    simp only [bind_apply, first, second]
  · intro emits b all ends
    rw [bind_apply] at ends
    split at ends
    · cases ends
    · rename_i a es first
      split at ends
      · cases ends
      · rename_i c fs second
        cases ends
        exact emits a es first _ fs second

end Sequencing

theorem emits_ite (c : Prop) [Decidable c] (p q : Program W E F α) (w : W) (Q : α → List E → Prop) :
    Emits (if c then p else q) w Q ↔ (c → Emits p w Q) ∧ (¬ c → Emits q w Q) := by
  by_cases holds : c <;> simp [holds]

/-! ## Properties of logs that sequencing keeps -/

variable [Machine W E]

/-- A property of a world and a log from it that the empty log has and sequencing
keeps. -/
structure Composable (B : W → List E → Prop) : Prop where
  nil : ∀ w, B w []
  append : ∀ w es fs, B w es → B (replay w es) fs → B w (es ++ fs)

/-- A log from a world satisfying `R` whose effects meet `C` is cut into groups, and `R`
holds after it. -/
def GroupedFrom (G : W → List E → Prop) (R : W → Prop) (C : W → E → Prop) (w : W) (es : List E) :
    Prop :=
  R w → Along C w es → Grouped G w es ∧ R (replay w es)

theorem composable_groupedFrom (G : W → List E → Prop) (R : W → Prop) (C : W → E → Prop) :
    Composable (GroupedFrom G R C) where
  nil w holds _ := ⟨.nil w, holds⟩
  append w es fs early late holds along := by
    obtain ⟨first, second⟩ := (along_append C w es fs).mp along
    obtain ⟨groups, between⟩ := early holds first
    obtain ⟨further, after⟩ := late between second
    exact ⟨groups.append further, by rwa [replay_append]⟩

/-! ## Runs of events -/

variable {Event : Type u} {events : List Event} {D : W → Event → Prop}

def runAll (handler : Event → Program W E F PUnit) : List Event → Program W E F PUnit
  | [] => pure ⟨⟩
  | event :: events => do
    handler event
    runAll handler events

/-- Each event of a run meets `D` in the world it finds. -/
def EventsAlong (D : W → Event → Prop) (handler : Event → Program W E F PUnit) : W → List Event → Prop
  | _, [] => True
  | w, event :: events =>
    D w event ∧ Emits (handler event) w fun _ es => EventsAlong D handler (replay w es) events

theorem EventsAlong.mono {C : W → Event → Prop} {handler : Event → Program W E F PUnit}
    (implies : ∀ w event, C w event → D w event) (along : EventsAlong C handler w events) :
    EventsAlong D handler w events := by
  induction events generalizing w with
  | nil => trivial
  | cons event events ih =>
    exact ⟨implies w event along.1, along.2.mono fun _ _ later => ih later⟩

theorem eventsAlong_of_forall {handler : Event → Program W E F PUnit}
    (always : ∀ w event, D w event) : EventsAlong D handler w events := by
  induction events generalizing w with
  | nil => trivial
  | cons event events ih => exact ⟨always w event, fun _ _ _ => ih⟩

instance decidableEventsAlong (D : W → Event → Prop) [∀ w event, Decidable (D w event)]
    (handler : Event → Program W E F PUnit) :
    (w : W) → (events : List Event) → Decidable (EventsAlong D handler w events)
  | _, [] => isTrue trivial
  | w, event :: events =>
    have rest : Decidable (Emits (handler event) w fun _ es =>
        EventsAlong D handler (replay w es) events) :=
      match ends : handler event w with
      | .error _ => isTrue fun _ _ other => by rw [ends] at other; cases other
      | .ok (_, es) =>
        have := decidableEventsAlong D handler (replay w es) events
        decidable_of_iff (EventsAlong D handler (replay w es) events) ⟨
          fun holds _ _ other => by rw [ends] at other; cases other; exact holds,
          fun emits => emits _ _ ends⟩
    inferInstanceAs (Decidable (_ ∧ _))

instance decidableEqError {α : Type u} [DecidableEq F] (f : F) :
    (outcome : Except F α) → Decidable (outcome = .error f)
  | .error g => decidable_of_iff (g = f) (by simp)
  | .ok _ => isFalse nofun

theorem emits_runAll {B : W → List E → Prop} (composable : Composable B) {handler : Event → Program W E F PUnit}
    (each : ∀ w event, D w event → Emits (handler event) w fun _ es => B w es)
    (conditions : EventsAlong D handler w events) :
    Emits (runAll handler events) w fun _ es => B w es := by
  induction events generalizing w with
  | nil => simpa [runAll] using composable.nil w
  | cons event events ih =>
    rw [runAll, emits_bind]
    intro a es handled b fs continues
    exact composable.append w es fs (each w event conditions.1 a es handled)
      (ih (conditions.2 a es handled) b fs continues)

/-- Every world of a run has `P`, the last one too. -/
def WorldsAlong (P : W → Prop) (handler : Event → Program W E F PUnit) : W → List Event → Prop
  | w, [] => P w
  | w, event :: events =>
    P w ∧ Emits (handler event) w fun _ es => WorldsAlong P handler (replay w es) events

theorem WorldsAlong.here {P : W → Prop} {handler : Event → Program W E F PUnit}
    (along : WorldsAlong P handler w events) : P w := by
  cases events with
  | nil => exact along
  | cons event events => exact along.1

theorem WorldsAlong.eventsAlong {P : W → Prop} {A : W → Event → Prop} {handler : Event → Program W E F PUnit}
    (gives : ∀ w event, P w → A w event → D w event) (along : WorldsAlong P handler w events)
    (met : EventsAlong A handler w events) : EventsAlong D handler w events := by
  induction events generalizing w with
  | nil => trivial
  | cons event events ih =>
    exact ⟨gives w event along.1 met.1, fun a es ends => ih (along.2 a es ends) (met.2 a es ends)⟩

/-- Where `D` is what an event needs to keep `I`, which gives `P`, and an event without it ends
`P`, the worlds of a run all have `P` exactly when the events all meet `D`. -/
theorem worldsAlong_iff {P : W → Prop} {handler : Event → Program W E F PUnit} (gives : ∀ w, I w → P w)
    (keeps : ∀ w event, D w event → Emits (handler event) w fun _ es => I w → I (replay w es))
    (needs : ∀ w event, Emits (handler event) w fun _ es => P (replay w es) → D w event)
    {log : List E} (run : runAll handler events w = .ok (⟨⟩, log)) (initial : I w) :
    WorldsAlong P handler w events ↔ EventsAlong D handler w events := by
  induction events generalizing w log with
  | nil => exact ⟨fun _ => trivial, fun _ => gives w initial⟩
  | cons event events ih =>
    rw [runAll, bind_apply] at run
    cases ends : handler event w with
    | error f =>
      rw [ends] at run
      cases run
    | ok outcome =>
      obtain ⟨a, es⟩ := outcome
      rw [ends] at run
      dsimp only at run
      cases continues : runAll handler events (replay w es) with
      | error f =>
        rw [continues] at run
        cases run
      | ok outcome =>
        obtain ⟨b, fs⟩ := outcome
        have only {Q : List E → Prop} (emits : Emits (handler event) w fun _ es => Q es) : Q es :=
          emits a es ends
        have all {Q : List E → Prop} (holds : Q es) : Emits (handler event) w fun _ es => Q es := by
          intro c gs other
          cases ends.symm.trans other
          exact holds
        constructor
        · rintro ⟨-, later⟩
          have meets : D w event := only (needs w event) (only later).here
          have kept := only (keeps w event meets) initial
          exact ⟨meets, all ((ih continues kept).mp (only later))⟩
        · rintro ⟨meets, later⟩
          have kept := only (keeps w event meets) initial
          exact ⟨gives w initial, all ((ih continues kept).mpr (only later))⟩

end H2LoadRunner.Library.EffectLog
