/-
# Load.Lineage -- controllers of sub-clients

A sub-client is opened for a controller, never for another sub-client, and by a controller that
exists then (`Adopts`, `adopts_of_run`).  During a submission no client is freed or loses its
connection, so what is known of the controller at the start is known at the end: `submitting_adopting`
is the rule for any such knowledge `chief`.
-/
import H2LoadRunner.Load.Handling

namespace H2LoadRunner.Load

open Library Library.EffectLog

set_option autoImplicit false

variable {c p : ClientId} {w : World}

/-! ## Controllers -/

structure World.Heads (w : World) (p : ClientId) : Prop where
  known : p < w.clientCount
  alive : (w.clients p).freed = false
  root : (w.clients p).parentClient = none

/-- A client whose controller is one of `chief`. -/
def World.Under (chief : World → ClientId → Prop) (w : World) (c : ClientId) : Prop :=
  c < w.clientCount ∧ chief w (w.controllerOf c)

theorem World.controllerOf_root (root : (w.clients p).parentClient = none) : w.controllerOf p = p := by
  unfold World.controllerOf
  rw [root]
  rfl

theorem World.controllerOf_child (child : (w.clients c).parentClient = some p) : w.controllerOf c = p := by
  unfold World.controllerOf
  rw [child]
  rfl

def Adopts (w : World) (e : Effect) : Prop :=
  match e with
  | .createDestClient p _ _ => w.Heads p
  | _ => True

/-- Lists and controllers agree, and controllers have no controller. -/
structure World.Lineage (w : World) : Prop where
  listed : w.WellListed
  roots : ∀ d p, (w.clients d).parentClient = some p →
    p < w.clientCount ∧ (w.clients p).parentClient = none

theorem lineage_apply_of_root (w : World) (e : Effect)
    (adopts : ∀ p schema authority, e = .createDestClient p schema authority →
      p < w.clientCount ∧ (w.clients p).parentClient = none) (lineage : w.Lineage) :
    (Machine.apply e w).Lineage where
  listed := wellListed_apply w e lineage.listed
  roots d p parent := by
    rw [clientCount_apply, clientCount_act]
    rw [clients_apply, parentClient_act] at parent ⊢
    cases e with
    | createClient =>
      dsimp only at parent ⊢
      split at parent
      · cases parent
      · obtain ⟨known, root⟩ := lineage.roots d p parent
        rw [if_neg (Nat.ne_of_lt known)]
        exact ⟨Nat.lt_succ_of_lt known, root⟩
    | createDestClient q =>
      dsimp only at parent ⊢
      have older : p < w.clientCount ∧ (w.clients p).parentClient = none := by
        split at parent
        · cases parent
          exact adopts p _ _ rfl
        · exact lineage.roots d p parent
      rw [if_neg (Nat.ne_of_lt older.1)]
      exact ⟨Nat.lt_succ_of_lt older.1, older.2⟩
    | _ => exact lineage.roots d p parent

theorem lineage_apply (w : World) (e : Effect) (adopts : Adopts w e) (lineage : w.Lineage) :
    (Machine.apply e w).Lineage := by
  refine lineage_apply_of_root w e ?_ lineage
  rintro p schema authority rfl
  exact ⟨adopts.known, adopts.root⟩

theorem lineage_initial (cfg : Config) (reqTodo nclients : Nat) :
    (World.initial cfg reqTodo nclients).Lineage :=
  ⟨wellListed_initial cfg reqTodo nclients, nofun⟩

/-! ## What stays during a submission -/

/-- Effects that take a client's connection or object away. -/
def Effect.releases : Effect → Bool
  | .freeClient _ | .disconnect _ | .timeout _ => true
  | _ => false

/-- An object keeps its controller. -/
theorem parentClient_apply (e : Effect) (known : c < w.clientCount) :
    ((Machine.apply e w).clients c).parentClient = (w.clients c).parentClient := by
  rw [clients_apply, parentClient_act]
  split
  · exact if_neg (Nat.ne_of_lt known)
  · exact if_neg (Nat.ne_of_lt known)
  · rfl

theorem parentClient_replay (es : List Effect) (known : c < w.clientCount) :
    ((replay w es).clients c).parentClient = (w.clients c).parentClient := by
  induction es generalizing w with
  | nil => rfl
  | cons e es ih =>
    exact (ih (known.trans_le (clientCount_le_apply w e))).trans (parentClient_apply e known)

theorem heads_apply {e : Effect} (stays : e.releases = false) (heads : w.Heads p) :
    (Machine.apply e w).Heads p where
  known := heads.known.trans_le (clientCount_le_apply w e)
  alive := by
    rw [clients_apply, freed_act]
    split
    · rw [if_neg (Nat.ne_of_lt heads.known), heads.alive]
    · rw [if_neg (Nat.ne_of_lt heads.known), heads.alive]
    · cases stays
    · exact heads.alive
  root := (parentClient_apply e heads.known).trans heads.root

theorem hasSession_apply {e : Effect} (stays : e.releases = false) (known : p < w.clientCount)
    (session : (w.clients p).session.isSome = true) :
    ((Machine.apply e w).clients p).session.isSome = true := by
  refine (congrArg Standing.hasSession (standing_act w e p)).trans ?_
  have older := Nat.ne_of_lt known
  cases e with
  | disconnect | timeout | freeClient => cases stays
  | createClient | createDestClient =>
    exact (congrArg Standing.hasSession (if_neg older)).trans session
  | setLink c | connecting c | allocateSession c =>
    simp only [Effect.restands]
    split
    · rename_i here
      first | exact here ▸ session | rfl
    · exact session
  | _ => exact session

theorem under_apply {chief : World → ClientId → Prop} {e : Effect}
    (stays : ∀ p, chief w p → chief (Machine.apply e w) p) (under : w.Under chief c) :
    (Machine.apply e w).Under chief c := by
  obtain ⟨known, heads⟩ := under
  refine ⟨known.trans_le (clientCount_le_apply w e), ?_⟩
  have same : (Machine.apply e w).controllerOf c = w.controllerOf c := by
    unfold World.controllerOf
    rw [parentClient_apply e known]
  rw [same]
  exact stays _ heads

/-! ## Submissions and events -/

section Conducts

variable (allows : Fault → Prop)

/-- During a submission clients keep their connections and objects. -/
def adopting : LoadConduct :=
  .along World.Lineage (fun w e => Adopts w e ∧ e.releases = false) allows
    fun w e fits lineage => lineage_apply w e fits.1 lineage

def lineal : LoadConduct :=
  .along World.Lineage Adopts allows lineage_apply

variable {allows} {chief : World → ClientId → Prop}

theorem World.Lineage.under_listed (lineage : w.Lineage) {d : ClientId} {key : String}
    (known : p < w.clientCount) (root : (w.clients p).parentClient = none) (is : chief w p)
    (found : (w.clients p).destClients.lookup key = some d) : w.Under chief d := by
  rcases lineage.listed.family p d (FiniteMap.mem_values.mpr ⟨key, found⟩) with rfl | child
  · exact ⟨known, (World.controllerOf_root root).symm ▸ is⟩
  · refine ⟨?_, (World.controllerOf_child child).symm ▸ is⟩
    by_contra beyond
    exact nomatch child.symm.trans (lineage.listed.unborn d (Nat.le_of_not_lt beyond))

/-- Submissions on clients whose controllers are `chief`, which no effect of a submission ends. -/
theorem submitting_adopting (heads : ∀ {w p}, chief w p → w.Heads p)
    (stays : ∀ {w e p}, e.releases = false → chief w p → chief (Machine.apply e w) p)
    (session : ∀ {w p}, chief w p → (w.clients p).session = none → allows .nullControllerSession)
    (faults : ∀ f, f ≠ .nullControllerSession → allows f) :
    Submitting (adopting allows) (World.Under chief) chief where
  controller _ under := under.2
  own _ is := ⟨(heads is).known, (World.controllerOf_root (heads is).root).symm ▸ is⟩
  listed lineage is found := World.Lineage.under_listed lineage (heads is).known (heads is).root is found
  kept {w v c} reached under := by
    refine reached.holds (P := (World.Under chief · c)) (fun _ _ fits under => ?_) under
    exact under_apply (fun _ is => stays fits.2 is) under
  heads {w v p} reached is :=
    reached.holds (P := (chief · p)) (fun _ _ fits is => stays fits.2 is) is
  tested {w e} _ tested := by
    refine ⟨?_, trivial⟩
    cases e with
    | createDestClient => exact ⟨heads tested, rfl⟩
    | freeClient | disconnect | timeout => exact tested.elim
    | _ => exact ⟨trivial, rfl⟩
  session _ is none := session is none
  faults := faults

theorem handling_lineal (env : Env) (submits : Submitting (adopting allows) (World.Under chief) chief) :
    Handling env (adopting allows) (lineal allows) (World.Under chief) chief where
  submits := submits
  allows :=
    { invariant := fun _ lineage => lineage
      log := fun _ _ _ along => along.mono fun _ _ fits => fits.1
      faults := fun _ allowed => allowed }
  lapses {w e} _ lapses := by
    refine ⟨?_, trivial⟩
    cases e with
    | createDestClient => exact lapses.elim
    | _ => trivial

theorem turns_lineal {env : Env} (handles : Handling env (adopting allows) (lineal allows) (World.Under chief) chief)
    (event : Event) : Turns env (lineal allows) w event :=
  (handles.relinking (fun _ _ _ => ⟨trivial, trivial⟩) fun _ _ _ => ⟨trivial, trivial⟩).turns
    (fun _ _ => trivial) fun _ _ => trivial

end Conducts

theorem World.Lineage.under_of_live (lineage : w.Lineage) (live : w.live c = true) : w.Under World.Heads c := by
  simp only [World.live, Bool.and_eq_true, decide_eq_true_eq, Bool.not_eq_true'] at live
  obtain ⟨⟨known, -⟩, alive⟩ := live
  refine ⟨known, ?_⟩
  cases parent : (w.clients c).parentClient with
  | none =>
    rw [World.controllerOf_root parent] at alive ⊢
    exact ⟨known, alive, parent⟩
  | some p =>
    rw [World.controllerOf_child parent] at alive ⊢
    obtain ⟨older, root⟩ := lineage.roots c p parent
    exact ⟨older, alive, root⟩

theorem meets_lineal (env : Env) (event : Event) (w : World) :
    (lineal fun _ => True).Keeps (handle env event) w := by
  have submits : Submitting (adopting fun _ => True) (World.Under World.Heads) World.Heads :=
    submitting_adopting (fun heads => heads) (fun stays heads => heads_apply stays heads)
      (fun _ _ => trivial) fun _ _ => trivial
  refine .assume fun lineage => (handling_lineal env submits).handle
    (turns_lineal (handling_lineal env submits) event)
    (fun enabled c submitter _ => ?_) fun enabled c negotiated link up => ?_
  · exact lineage.under_of_live (live_of_submitter enabled submitter)
  · subst up
    have still (e : Effect) (stays : e.releases = false) (v : World) (under : v.Under World.Heads c) :=
      under_apply (e := e) (fun _ heads => heads_apply stays heads) under
    exact still _ rfl _ (still _ rfl _ (lineage.under_of_live enabled))

theorem adopts_of_run {env : Env} {cfg : Config} {reqTodo nclients : Nat} {events : List Event}
    {log : List Effect} (run : Run env (World.initial cfg reqTodo nclients) events log) :
    Along Adopts (World.initial cfg reqTodo nclients) log :=
  ((Conduct.meets_runAll (fun w event (_ : True) => meets_lineal env event w)
    (eventsAlong_of_forall fun _ _ => trivial)).log (lineage_initial cfg reqTodo nclients) run).1

theorem lineage_of_run {env : Env} {cfg : Config} {reqTodo nclients : Nat} {events : List Event}
    {log : List Effect} (run : Run env (World.initial cfg reqTodo nclients) events log) :
    (replay (World.initial cfg reqTodo nclients) log).Lineage :=
  replay_invariant lineage_apply (adopts_of_run run) (lineage_initial cfg reqTodo nclients)

end H2LoadRunner.Load
