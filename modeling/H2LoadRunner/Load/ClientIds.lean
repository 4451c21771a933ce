/-
# Load.ClientIds -- identities of clients and the variable values they get

Every client object draws a number from one counter of the process, `Unique_Id`, and
`slice_var_ids` takes the number of a controller for its position among the `nclients` controllers:
of a sliced variable it gets the part of the range at that position.  Sub-clients draw numbers too,
and may do so before all controllers exist: in rate mode, or in another thread.

* `sliced_iff`: the controllers have distinct numbers below `nclients`, and the parts of every range
  lie in it and do not meet, exactly when each controller is created before `nclients` clients of
  both kinds have been.
-/
import H2LoadRunner.Library.Dealing
import H2LoadRunner.Load.PendingStreams

namespace H2LoadRunner.Load.ClientIds

open Library Library.EffectLog

set_option autoImplicit false

/-! ## `slice_var_ids` -/

/-- What the slicing reads of a `Generic_Variable`; the ends are of type `uint64_t`, and the
constructor ends the program unless they are in order or the second is 0. -/
structure GenericVariable where
  name : String
  rangeStart : Nat
  rangeEnd : Nat
  sized : rangeStart < sizeMax ∧ rangeEnd < sizeMax
  ordered : rangeEnd = 0 ∨ rangeStart < rangeEnd

/-- What it reads of a scenario. -/
structure Variables where
  genericVariables : List GenericVariable
  numberFromValuePickers : Nat
  variableRangeSlicing : Bool

/-- One entry of `req_variable_values_start`, `..._end` and of the current values. -/
structure Slice where
  start : Nat
  stop : Nat
  current : Nat

/-- The part of the range for the controller with this number; `none` where there are fewer values
than clients. -/
def sliceOf (nclients myId : Nat) (var : GenericVariable) : Option Slice :=
  let span := (var.rangeEnd + sizeMax - var.rangeStart) % sizeMax
  let tokensPerClient := span / nclients
  if tokensPerClient = 0 then none
  else
    let tokensLeft := span % nclients
    let start := (var.rangeStart + myId * tokensPerClient + min myId tokensLeft) % sizeMax
    let stop := (start + tokensPerClient + if tokensLeft ≤ myId then 0 else 1) % sizeMax
    some ⟨start, stop, start⟩

section Client

variable (nclients myId : Nat) (isController : Bool) (draw : GenericVariable → Nat)

/-- The entry of the variable at a position; `draw` is what a random generator gives. -/
def sliceVariable (scenario : Variables) (varId : Nat) (var : GenericVariable) : Except GenericVariable Slice :=
  if 1 < nclients ∧ isController then
    if varId < scenario.numberFromValuePickers then .ok ⟨0, 0, 0⟩
    else if !scenario.variableRangeSlicing then
      .ok ⟨var.rangeStart, var.rangeEnd, draw var⟩
    else match sliceOf nclients myId var with
      | none => .error var
      | some slice => .ok slice
  else .ok ⟨var.rangeStart, var.rangeEnd, var.rangeStart⟩

def sliceVariables (scenario : Variables) : Nat → List GenericVariable → Except GenericVariable (List Slice)
  | _, [] => return []
  | varId, var :: rest => do
    let slice ← sliceVariable nclients myId isController draw scenario varId var
    let slices ← sliceVariables scenario (varId + 1) rest
    return slice :: slices

/-- What becomes of the client: its entries for each scenario, or the end of the program. -/
inductive Outcome where
  | sliced (scenarios : List (List Slice))
  | exit (message : String)

def tooFewValues (var : GenericVariable) : String :=
  "Error: number of variable values is smaller than number of clients, cannot continue; " ++
    "Please correct this variable definition: \n" ++ var.name ++
    ", range start:" ++ toString var.rangeStart ++ ", range end:" ++ toString var.rangeEnd

/-- `slice_var_ids`.  Threads other than the first return and wait for it to end the program. -/
def sliceVarIds (workerId : Nat) (done : List (List Slice)) : List Variables → Outcome
  | [] => .sliced done
  | scenario :: rest =>
    match sliceVariables nclients myId isController draw scenario 0 scenario.genericVariables with
    | .ok slices => sliceVarIds workerId (done ++ [slices]) rest
    | .error var => if workerId = 0 then .exit (tooFewValues var) else .sliced done

end Client

/-! ## The order of creation -/

inductive Kind where
  | controller
  | subClient
  deriving DecidableEq

/-- A client object comes into being, in a worker thread. -/
structure Creation where
  worker : Nat
  kind : Kind
  deriving DecidableEq

def created (worker : Nat) (log : List Effect) : List Creation :=
  log.filterMap fun e => match e with
    | .createClient _ => some ⟨worker, .controller⟩
    | .createDestClient _ _ _ => some ⟨worker, .subClient⟩
    | _ => none

structure WorkerRun (cfg : Config) where
  env : Env
  reqTodo : Nat
  nclients : Nat
  events : List Event
  log : List Effect
  run : Run env (World.initial cfg reqTodo nclients) events log

def OrderOf {cfg : Config} (workers : List (WorkerRun cfg)) (order : List Creation) : Prop :=
  ∀ id, order.filter (·.worker = id) = match workers[id]? with
    | some worker => created id worker.log
    | none => []

/-- `my_id` of the controllers: each object takes the counter and increments it. -/
def controllerIdsFrom : Nat → List Creation → List Nat
  | _, [] => []
  | counter, creation :: rest =>
    match creation.kind with
    | .controller => counter :: controllerIdsFrom (counter + 1) rest
    | .subClient => controllerIdsFrom (counter + 1) rest

def controllerIds (order : List Creation) : List Nat := controllerIdsFrom 0 order

def Slice.Apart (a b : Slice) : Prop := a.stop ≤ b.start ∨ b.stop ≤ a.start

/-- Controllers have distinct positions, and every sliced range is divided among them. -/
structure Sliced (nclients : Nat) (order : List Creation) : Prop where
  distinct : (controllerIds order).Nodup
  below : ∀ id ∈ controllerIds order, id < nclients
  inside : ∀ var : GenericVariable, var.rangeEnd ≠ 0 → ∀ id ∈ controllerIds order, ∀ slice,
    sliceOf nclients id var = some slice →
      var.rangeStart ≤ slice.start ∧ slice.start < slice.stop ∧ slice.stop ≤ var.rangeEnd
  apart : ∀ var : GenericVariable, var.rangeEnd ≠ 0 →
    (controllerIds order).Pairwise fun id other => ∀ slice rest,
      sliceOf nclients id var = some slice → sliceOf nclients other var = some rest →
        slice.Apart rest

def controllers (order : List Creation) : Nat := order.countP (·.kind = .controller)

def subClients (order : List Creation) : Nat := order.countP (·.kind = .subClient)

/-- Every controller is created while fewer than `nclients` clients of both kinds have been. -/
def Timely (nclients : Nat) (order : List Creation) : Prop :=
  ∀ early worker late, order = early ++ ⟨worker, .controller⟩ :: late →
    controllers early + subClients early < nclients

/-! ## Numbers -/

theorem controllers_add_subClients (order : List Creation) :
    controllers order + subClients order = order.length := by
  induction order with
  | nil => rfl
  | cons creation rest ih =>
    unfold controllers subClients at ih ⊢
    rcases creation with ⟨worker, kind⟩
    cases kind <;> simp <;> omega

theorem mem_controllerIdsFrom {counter id : Nat} {order : List Creation} :
    id ∈ controllerIdsFrom counter order ↔
      ∃ early worker late, order = early ++ ⟨worker, .controller⟩ :: late ∧ id = counter + early.length := by
  induction order generalizing counter with
  | nil => simp [controllerIdsFrom]
  | cons creation rest ih =>
    have later : id ∈ controllerIdsFrom (counter + 1) rest ↔ ∃ early worker late,
        creation :: rest = creation :: early ++ ⟨worker, .controller⟩ :: late ∧
          id = counter + (creation :: early).length := by
      rw [ih]
      simp only [List.cons_append, List.cons.injEq, true_and, List.length_cons]
      simp only [Nat.add_assoc, Nat.add_comm 1]
    rcases creation with ⟨worker, kind⟩
    cases kind with
    | controller =>
      simp only [controllerIdsFrom, List.mem_cons, later]
      constructor
      · rintro (rfl | ⟨early, other, late, split, position⟩)
        · exact ⟨[], worker, rest, rfl, rfl⟩
        · exact ⟨_, other, late, split, position⟩
      · rintro ⟨early, other, late, split, position⟩
        cases early with
        | nil => exact .inl position
        | cons first early =>
          obtain ⟨rfl, -⟩ := List.cons.inj split
          exact .inr ⟨early, other, late, split, position⟩
    | subClient =>
      simp only [controllerIdsFrom, later]
      constructor
      · rintro ⟨early, other, late, split, position⟩
        exact ⟨_, other, late, split, position⟩
      · rintro ⟨early, other, late, split, position⟩
        cases early with
        | nil => cases split
        | cons first early =>
          obtain ⟨rfl, -⟩ := List.cons.inj split
          exact ⟨early, other, late, split, position⟩

theorem pairwise_controllerIdsFrom (counter : Nat) (order : List Creation) :
    (controllerIdsFrom counter order).Pairwise (· < ·) := by
  induction order generalizing counter with
  | nil => exact .nil
  | cons creation rest ih =>
    rcases creation with ⟨worker, kind⟩
    cases kind with
    | controller =>
      refine List.pairwise_cons.mpr ⟨fun id later => ?_, ih _⟩
      obtain ⟨early, -, -, -, rfl⟩ := mem_controllerIdsFrom.mp later
      omega
    | subClient => exact ih _

theorem below_iff_timely (nclients : Nat) (order : List Creation) :
    (∀ id ∈ controllerIds order, id < nclients) ↔ Timely nclients order := by
  constructor
  · intro below early worker late split
    have id := below _ (mem_controllerIdsFrom.mpr ⟨early, worker, late, split, rfl⟩)
    rw [controllers_add_subClients]
    omega
  · intro timely id member
    obtain ⟨early, worker, late, split, rfl⟩ := mem_controllerIdsFrom.mp member
    have before := timely early worker late split
    rw [controllers_add_subClients] at before
    omega

/-! ## Parts of a range -/

variable {nclients myId : Nat} {var : GenericVariable} {isController : Bool}
  {draw : GenericVariable → Nat}

theorem sliceOf_eq (ranged : var.rangeEnd ≠ 0) (position : myId < nclients) {slice : Slice}
    (sliced : sliceOf nclients myId var = some slice) :
    let deal := Deal.of (var.rangeEnd - var.rangeStart) nclients
    0 < deal.each ∧ slice.start = var.rangeStart + (deal.hands myId).sum ∧
      slice.stop = var.rangeStart + (deal.hands (myId + 1)).sum ∧ slice.stop ≤ var.rangeEnd := by
  intro deal
  have ordered := var.ordered.resolve_left ranged
  have span : (var.rangeEnd + sizeMax - var.rangeStart) % sizeMax = var.rangeEnd - var.rangeStart := by
    rw [Nat.sub_add_comm (Nat.le_of_lt ordered), Nat.add_mod_right,
      Nat.mod_eq_of_lt ((Nat.sub_le _ _).trans_lt var.sized.2)]
  have whole : (deal.hands nclients).sum = var.rangeEnd - var.rangeStart :=
    Deal.sum_hands_of _ (Nat.zero_lt_of_lt position)
  have first := deal.sum_hands_le_sum_hands (Nat.le_of_lt position)
  have last : (deal.hands (myId + 1)).sum ≤ (deal.hands nclients).sum :=
    deal.sum_hands_le_sum_hands position
  have sized := var.sized.2
  unfold sliceOf at sliced
  simp only [span] at sliced
  split at sliced
  · cases sliced
  · rename_i each
    cases sliced
    have start : (var.rangeStart + myId * deal.each + min myId deal.extra) % sizeMax =
        var.rangeStart + (deal.hands myId).sum := by
      rw [Nat.add_assoc, ← Deal.sum_hands, Nat.mod_eq_of_lt]
      omega
    have stop : (var.rangeStart + (deal.hands myId).sum + deal.each +
        if deal.extra ≤ myId then 0 else 1) % sizeMax = var.rangeStart + (deal.hands (myId + 1)).sum := by
      have sum : (deal.hands (myId + 1)).sum =
          (deal.hands myId).sum + deal.each + if deal.extra ≤ myId then 0 else 1 := by
        simp only [Deal.sum_hands, Nat.succ_mul]
        split <;> omega
      rw [Nat.add_assoc, Nat.add_assoc, ← Nat.add_assoc _ deal.each, ← sum, Nat.mod_eq_of_lt]
      omega
    have behind := (congrArg (fun start =>
      (start + deal.each + if deal.extra ≤ myId then 0 else 1) % sizeMax) start).trans stop
    refine ⟨Nat.pos_of_ne_zero each, start, behind, behind.le.trans ?_⟩
    omega

/-- **Numbers are positions, and ranges are divided, exactly when controllers come in time.** -/
theorem sliced_iff (nclients : Nat) (order : List Creation) :
    Sliced nclients order ↔ Timely nclients order := by
  rw [← below_iff_timely]
  constructor
  · exact Sliced.below
  · intro below
    have increasing : (controllerIds order).Pairwise (· < ·) := pairwise_controllerIdsFrom 0 order
    refine ⟨increasing.imp Nat.ne_of_lt, below, ?_, ?_⟩
    · intro var ranged id member slice sliced
      obtain ⟨each, start, stop, within⟩ := sliceOf_eq ranged (below id member) sliced
      rw [Deal.sum_hands_succ] at stop
      have share := (Deal.of (var.rangeEnd - var.rangeStart) nclients).each_le_shareAt id
      omega
    · intro var ranged
      refine increasing.imp_of_mem fun {id other} first second less slice rest sliced others => ?_
      obtain ⟨-, -, stop, -⟩ := sliceOf_eq ranged (below id first) sliced
      obtain ⟨-, start, -, -⟩ := sliceOf_eq ranged (below other second) others
      have sums := (Deal.of (var.rangeEnd - var.rangeStart) nclients).sum_hands_le_sum_hands
        (Nat.succ_le_of_lt less)
      left
      rw [stop, start]
      exact Nat.add_le_add_left sums _

/-! ## Entries of a client -/

theorem sliceVariables_entry {scenario : Variables} {vars : List GenericVariable} {first : Nat}
    {slices : List Slice}
    (made : sliceVariables nclients myId isController draw scenario first vars = .ok slices)
    {x : Nat} (known : vars[x]? = some var) : ∃ slice, slices[x]? = some slice ∧
      sliceVariable nclients myId isController draw scenario (first + x) var = .ok slice := by
  induction vars generalizing first slices x with
  | nil => simp at known
  | cons head rest ih =>
    simp only [sliceVariables, bind, Except.bind] at made
    split at made
    · cases made
    · rename_i slice here
      split at made
      · cases made
      · rename_i others later
        cases made
        cases x with
        | zero =>
          cases known
          exact ⟨slice, rfl, here⟩
        | succ x =>
          obtain ⟨other, found, entry⟩ := ih later known
          exact ⟨other, found, by rw [← entry, Nat.add_right_comm, Nat.add_assoc]⟩

theorem sliceVarIds_extends {workerId : Nat} {scenarios : List Variables} {done data : List (List Slice)}
    (made : sliceVarIds nclients myId isController draw workerId done scenarios = .sliced data) :
    done <+: data := by
  induction scenarios generalizing done with
  | nil =>
    cases made
    exact List.prefix_refl _
  | cons first rest ih =>
    unfold sliceVarIds at made
    split at made
    · exact (List.prefix_append _ _).trans (ih made)
    · split at made
      · cases made
      · cases made
        exact List.prefix_refl _

theorem sliceVarIds_entry {workerId : Nat} {scenarios : List Variables} {done data : List (List Slice)}
    (made : sliceVarIds nclients myId isController draw workerId done scenarios = .sliced data)
    {k x : Nat} {scenario : Variables} {slices : List Slice}
    (known : scenarios[k]? = some scenario) (reached : data[done.length + k]? = some slices)
    (present : scenario.genericVariables[x]? = some var) : ∃ slice, slices[x]? = some slice ∧
      sliceVariable nclients myId isController draw scenario x var = .ok slice := by
  induction scenarios generalizing done k with
  | nil => simp at known
  | cons first rest ih =>
    unfold sliceVarIds at made
    split at made
    · rename_i entries here
      cases k with
      | zero =>
        cases known
        have entered : data[done.length]? = some entries := by
          obtain ⟨more, rfl⟩ := sliceVarIds_extends made
          simp
        cases entered.symm.trans reached
        obtain ⟨slice, found, entry⟩ := sliceVariables_entry here present
        exact ⟨slice, found, by rw [← entry, Nat.zero_add]⟩
      | succ k =>
        refine ih made known ?_
        rw [List.length_append, List.length_singleton, Nat.add_assoc, Nat.add_comm 1]
        exact reached
    · split at made
      · cases made
      · cases made
        simp at reached

/-! ## Poles -/

/-- Two clients, one in each rate period, that open further connections. -/
def ratedConfig : Config := { fanOutConfig with nclients := 2, rateMode := true }

theorem orderOf_single {cfg : Config} (worker : WorkerRun cfg) : OrderOf [worker] (created 0 worker.log) := by
  have zero : ∀ creation ∈ created 0 worker.log, creation.worker = 0 := by
    intro creation member
    obtain ⟨e, -, made⟩ := List.mem_filterMap.mp member
    cases e with
    | createClient | createDestClient =>
      cases made
      rfl
    | _ => cases made
  intro id
  cases id with
  | zero => exact List.filter_eq_self.mpr fun creation member => by simpa using zero creation member
  | succ id =>
    refine List.filter_eq_nil_iff.mpr fun creation member => ?_
    simp [zero creation member]

/-- **Refuting pole:** the first controller opens a sub-client before the second rate period; the
second controller has the number 2, and its part of a range of four values lies behind the range. -/
theorem ratePeriods_not_sliced : ¬ ∀ (cfg : Config) (workers : List (WorkerRun cfg)) (order : List Creation),
      (workers.map WorkerRun.nclients).sum = cfg.nclients → OrderOf workers order →
        Sliced cfg.nclients order := by
  intro always
  obtain ⟨log, run, order⟩ :
      ∃ log, Run fanOutEnv (World.initial ratedConfig 4 2)
          [.createClient, .connected 0 (some .http2), .createClient] log ∧
        created 0 log = [⟨0, .controller⟩, ⟨0, .subClient⟩, ⟨0, .controller⟩] :=
    exists_run_of_runLog (by decide +kernel)
  have sliced := always ratedConfig [⟨fanOutEnv, 4, 2, _, log, run⟩] _ rfl (orderOf_single _)
  have below := sliced.below 2 (by rw [order]; decide)
  exact Nat.lt_irrefl 2 below

end H2LoadRunner.Load.ClientIds
