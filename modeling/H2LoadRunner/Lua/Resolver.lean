/-
# Lua.Resolver -- `resolve_hostname`, and who is told what

Every coroutine of a worker may call `resolve_hostname`.  A call that finds an unexpired
result returns at once; any other call posts a task to the worker and suspends.  The task
finds a cached result, joins the coroutines waiting for a resolution under way, or starts
one; the first waiter's callback stores the result and resumes them all.

What is kept is that a resolution is under way exactly while somebody waits, and that the first
waiter is the one who started it (`Consistent.shared`); so one resolution per host is outstanding at a
time, and every call is answered exactly once, with a result of its own host.  A posted task does
not know a cached failure: with an empty unexpired result it starts a new resolution
(`failure_resolved_again`).  `resolution_shared` says all of this.
-/
import H2LoadRunner.Library.Custody
import H2LoadRunner.Library.Transition

namespace H2LoadRunner.Lua.Resolver

open Library
open Library.Transition (run run_invariant run_append_of_ok ok_of_run_cons along_true
  exists_run)

set_option autoImplicit false

/-! ## The worker -/

/-- One call of `resolve_hostname`.  The source keeps the `lua_State` alone; the number
tells the calls of one coroutine apart. -/
structure Call (H L : Type) where
  id : Nat
  coroutine : L
  host : H
  ttl : Nat
deriving DecidableEq

/-- `Host_Resolution_Data`; a host that has none reads as this default, whose expiry lies
before every clock reading. -/
structure HostResolutionData (H L A : Type) where
  luaStatesAwaitResult : List (Call H L) := []
  ipAddresses : List A := []
  expireTimePoint : Nat := 0

structure Worker (H L A : Type) where
  now : Nat
  hostResolutionData : H → HostResolutionData H L A
  /-- Tasks posted to the io context that have not run. -/
  tasks : List (Call H L)
  /-- Resolutions whose handler has not run, by the call that started them. -/
  resolving : List (Call H L)
  /-- `lua_states_to_resume`: the rest of the callback's loop. -/
  resuming : List (Call H L)
  /-- Every call made, every answer given, and every result of a resolution. -/
  calls : List (Call H L)
  answers : List (Call H L × List A)
  results : List (H × List A)

inductive Fault
  /-- The event cannot happen in this state. -/
  | disabled

section

variable {H L A : Type} [DecidableEq H] [DecidableEq L]

namespace Worker

def initial : Worker H L A where
  now := 0
  hostResolutionData := fun _ => {}
  tasks := []
  resolving := []
  resuming := []
  calls := []
  answers := []
  results := []

def waiting (s : Worker H L A) (host : H) : List (Call H L) :=
  (s.hostResolutionData host).luaStatesAwaitResult

def addresses (s : Worker H L A) (host : H) : List A := (s.hostResolutionData host).ipAddresses

def Unexpired (s : Worker H L A) (host : H) : Prop :=
  s.now < (s.hostResolutionData host).expireTimePoint

instance (s : Worker H L A) (host : H) : Decidable (s.Unexpired host) :=
  inferInstanceAs (Decidable (_ < _))

def outstanding (s : Worker H L A) (host : H) : List (Call H L) :=
  s.resolving.filter (·.host = host)

/-- `return_addresses`: the coroutine goes on, or the call returns. -/
def returnAddresses (s : Worker H L A) (call : Call H L) (list : List A) : Worker H L A :=
  { s with answers := s.answers ++ [(call, list)] }

def setData (s : Worker H L A) (host : H) (data : HostResolutionData H L A) : Worker H L A :=
  { s with hostResolutionData := Function.update s.hostResolutionData host data }

/-- The callback of a call.  Resuming the waiters is left to `resume` events: a resumed
coroutine may call again before the next one is resumed. -/
def resolveCallback (s : Worker H L A) (call : Call H L) (resolved : List A) : Worker H L A :=
  match s.waiting call.host with
  | [] => s.returnAddresses call resolved
  | first :: rest =>
    if first.coroutine = call.coroutine then
      { s.setData call.host ⟨[], resolved, s.now + call.ttl⟩ with resuming := first :: rest }
    else s.returnAddresses call resolved

def clearExpired (s : Worker H L A) (host : H) : Worker H L A :=
  if s.addresses host ≠ [] ∧ (s.hostResolutionData host).expireTimePoint ≤ s.now then
    s.setData host { s.hostResolutionData host with ipAddresses := [] }
  else s

def awaitResult (s : Worker H L A) (call : Call H L) : Worker H L A :=
  s.setData call.host
    { s.hostResolutionData call.host with
      luaStatesAwaitResult := s.waiting call.host ++ [call] }

def resolveInWorker (s : Worker H L A) (call : Call H L) : Worker H L A :=
  let s := s.clearExpired call.host
  if s.addresses call.host ≠ [] then s.resolveCallback call (s.addresses call.host)
  else if s.waiting call.host ≠ [] then s.awaitResult call
  else { s.awaitResult call with resolving := s.resolving ++ [call] }

def received (s : Worker H L A) (call : Call H L) (list : List A) : Worker H L A :=
  { s with
    resolving := s.resolving.erase call
    results := s.results ++ [(call.host, list)] }

def resolveHostname (s : Worker H L A) (coroutine : L) (host : H) (ttl : Nat) : Worker H L A :=
  let call : Call H L := ⟨s.calls.length, coroutine, host, ttl⟩
  let s := { s with calls := s.calls ++ [call] }
  if s.Unexpired host then s.returnAddresses call (s.addresses host)
  else { s with tasks := s.tasks ++ [call] }

end Worker

/-! ## Events -/

inductive Event (H L A : Type)
  /-- The clock moves on. -/
  | advance (milliseconds : Nat)
  | resolveHostname (coroutine : L) (host : H) (ttl : Nat)
  /-- A posted task runs. -/
  | task (call : Call H L)
  /-- The resolver invokes the handler of the call's resolution; a failed resolution
  gives no address. -/
  | resolved (call : Call H L) (list : List A)
  /-- The callback's loop resumes the next waiter. -/
  | resume

/-- A worker is one thread: nothing is run from the io context while a callback's loop is
still resuming, but a coroutine it resumed may call. -/
def step (s : Worker H L A) : Event H L A → Except Fault (Worker H L A)
  | .advance milliseconds => .ok { s with now := s.now + milliseconds }
  | .resolveHostname coroutine host ttl => .ok (s.resolveHostname coroutine host ttl)
  | .task call =>
    if call ∈ s.tasks ∧ s.resuming = [] then
      .ok ({ s with tasks := s.tasks.erase call }.resolveInWorker call)
    else .error .disabled
  | .resolved call list =>
    if call ∈ s.resolving ∧ s.resuming = [] then
      .ok ((s.received call list).resolveCallback call list)
    else .error .disabled
  | .resume =>
    match s.resuming with
    | [] => .error .disabled
    | call :: rest =>
      .ok ({ s with resuming := rest }.returnAddresses call (s.addresses call.host))

/-! ## What every run keeps -/

namespace Worker

/-- In how many places the call waits to be answered. -/
def held (s : Worker H L A) (call : Call H L) : Nat :=
  s.tasks.count call + (s.waiting call.host).count call + s.resuming.count call

omit [DecidableEq L] in
theorem waiting_setData (s : Worker H L A) (host other : H) (data : HostResolutionData H L A) :
    (s.setData host data).waiting other =
      if other = host then data.luaStatesAwaitResult else s.waiting other := by
  simp only [waiting, setData, Function.update_apply]
  split <;> rfl

omit [DecidableEq L] in
theorem addresses_setData (s : Worker H L A) (host other : H) (data : HostResolutionData H L A) :
    (s.setData host data).addresses other = if other = host then data.ipAddresses else s.addresses other := by
  simp only [addresses, setData, Function.update_apply]
  split <;> rfl

theorem resolveCallback_first (s : Worker H L A) {call : Call H L} {rest : List (Call H L)}
    (resolved : List A) (waits : s.waiting call.host = call :: rest) :
    s.resolveCallback call resolved =
      { s.setData call.host ⟨[], resolved, s.now + call.ttl⟩ with resuming := call :: rest } := by
  rw [resolveCallback, waits]
  exact if_pos rfl

omit [DecidableEq L] in
theorem waiting_awaitResult (s : Worker H L A) (call : Call H L) (host : H) :
    (s.awaitResult call).waiting host =
      if host = call.host then s.waiting host ++ [call] else s.waiting host := by
  rw [awaitResult, waiting_setData]
  split
  · rename_i same
    rw [same]
  · rfl

omit [DecidableEq L] in
theorem addresses_awaitResult (s : Worker H L A) (call : Call H L) (host : H) :
    (s.awaitResult call).addresses host = s.addresses host := by
  rw [awaitResult, addresses_setData]
  split
  · rename_i same
    rw [same]
    rfl
  · rfl

end Worker

/-- The data of the hosts, the resolutions under way and the answers fit together. -/
structure Consistent (s : Worker H L A) : Prop where
  own : ∀ host, ∀ call ∈ s.waiting host, call.host = host
  /-- A resolution is under way exactly while somebody waits, and the first waiter is the
  one who started it. -/
  shared : ∀ host, s.outstanding host = (s.waiting host).head?.toList
  unresolved : ∀ host, s.waiting host ≠ [] → s.addresses host = []
  cached : ∀ host, s.Unexpired host ∨ s.addresses host ≠ [] →
    (host, s.addresses host) ∈ s.results
  resumed : ∀ call ∈ s.resuming, (call.host, s.addresses call.host) ∈ s.results
  answered : ∀ answer ∈ s.answers, (answer.1.host, answer.2) ∈ s.results

structure Sound (s : Worker H L A) : Prop where
  consistent : Consistent s
  custody : Custody s.calls s.held (s.answers.map Prod.fst)
  numbered : ∀ call ∈ s.calls, call.id < s.calls.length

theorem sound_initial : Sound (Worker.initial : Worker H L A) where
  consistent :=
    { own := fun _ => nofun
      shared := fun _ => rfl
      unresolved := fun _ waits => absurd rfl waits
      cached := fun _ found => found.elim (fun early => absurd early (Nat.not_lt_zero _))
        (fun some => absurd rfl some)
      resumed := nofun
      answered := nofun }
  custody := Custody.none
  numbered := nofun

namespace Consistent

variable {s : Worker H L A} {call : Call H L}

omit [DecidableEq L] in
theorem withCalls (consistent : Consistent s) (calls tasks : List (Call H L)) :
    Consistent { s with calls := calls, tasks := tasks } :=
  { consistent with }

omit [DecidableEq L] in
theorem returnAddresses (consistent : Consistent s) {list : List A}
    (produced : (call.host, list) ∈ s.results) : Consistent (s.returnAddresses call list) where
  __ := consistent
  answered := by
    intro answer given
    rcases List.mem_append.mp given with before | now
    · exact consistent.answered answer before
    · rw [List.mem_singleton.mp now]
      exact produced

omit [DecidableEq L] in
theorem setData {t : Worker H L A} {host : H} {data : HostResolutionData H L A} (consistent : Consistent s)
    (changed : t.hostResolutionData = Function.update s.hostResolutionData host data) (now : t.now = s.now)
    (results : s.results ⊆ t.results) (elsewhere : ∀ other ≠ host, t.outstanding other = s.outstanding other)
    (own : ∀ call ∈ data.luaStatesAwaitResult, call.host = host)
    (shared : t.outstanding host = data.luaStatesAwaitResult.head?.toList)
    (unresolved : data.luaStatesAwaitResult ≠ [] → data.ipAddresses = [])
    (cached : s.now < data.expireTimePoint ∨ data.ipAddresses ≠ [] → (host, data.ipAddresses) ∈ t.results)
    (resumed : ∀ call ∈ t.resuming, (call.host, t.addresses call.host) ∈ t.results)
    (answered : t.answers = s.answers) : Consistent t := by
  refine ⟨fun other => ?_, fun other => ?_, fun other => ?_, fun other => ?_, resumed,
    fun answer given => results (consistent.answered answer (answered ▸ given))⟩
  all_goals
    rcases eq_or_ne other host with rfl | different
    · simpa only [Worker.waiting, Worker.addresses, Worker.Unexpired, changed, now, Function.update_self]
    simp only [Worker.waiting, Worker.addresses, Worker.Unexpired, changed, now, Function.update_of_ne different]
  · exact consistent.own other
  · exact (elsewhere other different).trans (consistent.shared other)
  · exact consistent.unresolved other
  · exact fun found => results (consistent.cached other found)

omit [DecidableEq L] in
theorem clearExpired (consistent : Consistent s) (idle : s.resuming = []) (host : H) :
    Consistent (s.clearExpired host) := by
  unfold Worker.clearExpired
  split
  swap
  · exact consistent
  rename_i expired
  refine consistent.setData rfl rfl (fun _ => id) (fun _ _ => rfl) (consistent.own host)
    (consistent.shared host) (fun _ => rfl) ?_ (fun call member => ?_) rfl
  · rintro (early | some)
    · exact absurd early (Nat.not_lt.mpr expired.2)
    · exact absurd rfl some
  · have member : call ∈ s.resuming := member
    simp [idle] at member

omit [DecidableEq L] in
/-- A call joins the waiters of its host, which has no result, whichever resolutions are
then under way. -/
theorem awaitResult (consistent : Consistent s) (empty : s.addresses call.host = [])
    (resolving : List (Call H L))
    (elsewhere : ∀ other ≠ call.host, resolving.filter (·.host = other) = s.outstanding other)
    (shared : resolving.filter (·.host = call.host) = (s.waiting call.host ++ [call]).head?.toList) :
    Consistent { s.awaitResult call with resolving := resolving } := by
  refine consistent.setData rfl rfl (fun _ => id) elsewhere (fun waiter waits => ?_) shared (fun _ => empty)
    (consistent.cached call.host) (fun waiter resumes => ?_) rfl
  · rcases List.mem_append.mp waits with before | now
    · exact consistent.own call.host waiter before
    · rw [List.mem_singleton.mp now]
  · change (waiter.host, (s.awaitResult call).addresses waiter.host) ∈ s.results
    rw [Worker.addresses_awaitResult]
    exact consistent.resumed waiter resumes

theorem resolveInWorker (consistent : Consistent s) (idle : s.resuming = []) :
    Consistent (s.resolveInWorker call) := by
  have cleared := consistent.clearExpired idle call.host
  simp only [Worker.resolveInWorker]
  generalize s.clearExpired call.host = u at cleared
  split
  · rename_i found
    -- nobody waits for a host that has a result, so the callback answers its own call
    have nobody : u.waiting call.host = [] := by
      by_contra waits
      exact found (cleared.unresolved call.host waits)
    rw [Worker.resolveCallback, nobody]
    exact cleared.returnAddresses (cleared.cached call.host (.inr found))
  · rename_i empty
    rw [ne_eq, not_not] at empty
    split
    · rename_i waits
      refine cleared.awaitResult empty u.resolving (fun _ _ => rfl) ?_
      rw [List.head?_append_of_ne_nil _ waits]
      exact cleared.shared call.host
    · rename_i nobody
      rw [ne_eq, not_not] at nobody
      refine cleared.awaitResult empty (u.resolving ++ [call]) (fun host different => ?_) ?_
      · simp [Worker.outstanding, Ne.symm different]
      · have before : u.resolving.filter (·.host = call.host) = _ := cleared.shared call.host
        simp [before, nobody]

omit [DecidableEq L] in
theorem waiting_of_resolving (consistent : Consistent s) (under_way : call ∈ s.resolving) :
    ∃ rest, s.waiting call.host = call :: rest := by
  have outstanding : call ∈ s.outstanding call.host :=
    List.mem_filter.mpr ⟨under_way, decide_eq_true rfl⟩
  rw [consistent.shared] at outstanding
  cases waits : s.waiting call.host with
  | nil =>
    rw [waits] at outstanding
    cases outstanding
  | cons first rest =>
    rw [waits, List.head?_cons, Option.toList_some, List.mem_singleton] at outstanding
    exact ⟨rest, by rw [outstanding]⟩

/-- The handler of a resolution: its caller is the first waiter, so the result is stored
and everybody who waits is resumed. -/
theorem resolved (consistent : Consistent s) (under_way : call ∈ s.resolving) (list : List A) :
    Consistent ((s.received call list).resolveCallback call list) := by
  obtain ⟨rest, waits⟩ := consistent.waiting_of_resolving under_way
  have stored : (call.host, list) ∈ s.results ++ [(call.host, list)] :=
    List.mem_append_right _ (List.mem_singleton_self _)
  have outstanding (host : H) : (s.resolving.erase call).filter (·.host = host) = (s.outstanding host).erase call :=
    (List.erase_filter ..).symm
  rw [Worker.resolveCallback_first (s.received call list) list waits]
  refine @setData _ _ _ _ s _ call.host _ consistent rfl rfl (List.subset_append_left _ _) (fun host different => ?_)
    nofun ?_ (fun none => absurd rfl none) (fun _ => stored) (fun waiter member => ?_) rfl
  · refine (outstanding host).trans (List.erase_of_not_mem fun member => ?_)
    exact different (of_decide_eq_true (List.mem_filter.mp member).2).symm
  · refine (outstanding call.host).trans ?_
    rw [consistent.shared, waits]
    simp
  · have own : waiter.host = call.host := consistent.own call.host waiter (waits ▸ member)
    change (_, ((s.received call list).setData call.host _).addresses waiter.host) ∈ _
    rw [Worker.addresses_setData, if_pos own, own]
    exact stored

end Consistent

/-! ## Every call is answered once -/

section

variable {s : Worker H L A} {call : Call H L}

omit [DecidableEq L] in
theorem calls_clearExpired (s : Worker H L A) (host : H) : (s.clearExpired host).calls = s.calls := by
  unfold Worker.clearExpired
  split <;> rfl

theorem calls_resolveInWorker (s : Worker H L A) (call : Call H L) :
    (s.resolveInWorker call).calls = s.calls := by
  rw [← calls_clearExpired s call.host]
  simp only [Worker.resolveInWorker]
  split
  · unfold Worker.resolveCallback
    split
    · rfl
    · split <;> rfl
  · split <;> rfl

theorem held_clearExpired (s : Worker H L A) (host : H) (other : Call H L) :
    (s.clearExpired host).held other = s.held other := by
  unfold Worker.clearExpired
  split
  · simp only [Worker.held, Worker.waiting_setData]
    split
    · rename_i same
      rw [same]
      rfl
    · rfl
  · rfl

theorem held_awaitResult (s : Worker H L A) (call other : Call H L) :
    (s.awaitResult call).held other = s.held other + [call].count other := by
  simp only [Worker.held, Worker.waiting_awaitResult]
  have elsewhere : (s.awaitResult call).tasks = s.tasks ∧
      (s.awaitResult call).resuming = s.resuming := ⟨rfl, rfl⟩
  rw [elsewhere.1, elsewhere.2]
  split
  · rw [List.count_append]
    omega
  · rename_i different
    have absent : [call].count other = 0 := by
      refine List.count_eq_zero_of_not_mem fun member => different ?_
      rw [List.mem_singleton.mp member]
    omega

theorem custody_resolveInWorker (consistent : Consistent s) (idle : s.resuming = [])
    (custody : Custody s.calls (fun other => s.held other + [call].count other)
      (s.answers.map Prod.fst)) :
    Custody (s.resolveInWorker call).calls (s.resolveInWorker call).held
      ((s.resolveInWorker call).answers.map Prod.fst) := by
  have cleared := consistent.clearExpired idle call.host
  have same : ∀ other, (s.clearExpired call.host).held other = s.held other :=
    held_clearExpired s call.host
  have calls := calls_clearExpired s call.host
  have answers : (s.clearExpired call.host).answers = s.answers := by
    unfold Worker.clearExpired
    split <;> rfl
  simp only [Worker.resolveInWorker]
  generalize s.clearExpired call.host = u at cleared same calls answers
  rw [← calls, ← answers] at custody
  split
  · rename_i found
    have nobody : u.waiting call.host = [] := by
      by_contra waits
      exact found (cleared.unresolved call.host waits)
    rw [Worker.resolveCallback, nobody]
    simp only [Worker.returnAddresses, List.map_append, List.map_singleton]
    exact custody.discharge fun other => by
      rw [← same]
      rfl
  · have joined : ∀ other, (u.awaitResult call).held other =
        s.held other + [call].count other := by
      intro other
      rw [held_awaitResult, same]
    split
    · exact custody.move joined
    · exact custody.move joined

theorem custody_resolved (consistent : Consistent s) (under_way : call ∈ s.resolving)
    (idle : s.resuming = []) (list : List A) (custody : Custody s.calls s.held (s.answers.map Prod.fst)) :
    Custody ((s.received call list).resolveCallback call list).calls
      ((s.received call list).resolveCallback call list).held
      (((s.received call list).resolveCallback call list).answers.map Prod.fst) := by
  obtain ⟨rest, waits⟩ := consistent.waiting_of_resolving under_way
  rw [Worker.resolveCallback_first (s.received call list) list waits]
  refine custody.move fun other => ?_
  set t := (s.received call list).setData call.host ⟨[], list, s.now + call.ttl⟩
  change s.tasks.count other + (t.waiting other.host).count other +
    (call :: rest).count other = _
  rw [Worker.waiting_setData, Worker.held, idle]
  split
  · rename_i same
    rw [same, waits, List.count_nil]
    omega
  · rename_i different
    have absent : (call :: rest).count other = 0 := by
      refine List.count_eq_zero_of_not_mem fun member => different ?_
      exact consistent.own call.host other (waits ▸ member)
    rw [absent, List.count_nil]
    rfl

end

theorem sound_step (s : Worker H L A) (e : Event H L A) (t : Worker H L A) (sound : Sound s)
    (taken : step s e = .ok t) : Sound t := by
  obtain ⟨consistent, custody, numbered⟩ := sound
  cases e with
  | advance milliseconds =>
    cases taken
    refine ⟨{ consistent with cached := fun host found => ?_ }, custody, numbered⟩
    refine consistent.cached host (found.imp_left fun early => ?_)
    exact Nat.lt_of_le_of_lt (Nat.le_add_right ..) early
  | resolveHostname coroutine host ttl =>
    cases taken
    simp only [Worker.resolveHostname]
    set call : Call H L := ⟨s.calls.length, coroutine, host, ttl⟩
    have fresh : call ∉ s.calls := fun made => Nat.lt_irrefl _ (numbered call made)
    have issued := custody.issue fresh fun _ => rfl
    have numbered' : ∀ made ∈ s.calls ++ [call], made.id < (s.calls ++ [call]).length := by
      intro made member
      rw [List.length_append, List.length_singleton]
      rcases List.mem_append.mp member with before | now
      · exact Nat.lt_succ_of_lt (numbered made before)
      · rw [List.mem_singleton.mp now]
        exact Nat.lt_succ_self _
    split
    · rename_i unexpired
      refine ⟨(consistent.withCalls _ _).returnAddresses
        (consistent.cached host (.inl unexpired)), ?_, numbered'⟩
      simp only [Worker.returnAddresses, List.map_append, List.map_singleton]
      exact issued.discharge fun _ => rfl
    · refine ⟨consistent.withCalls _ _, issued.move fun other => ?_, numbered'⟩
      simp only [Worker.held, Worker.waiting, List.count_append]
      omega
  | task call =>
    simp only [step] at taken
    split at taken <;> cases taken
    rename_i enabled
    have consistent' := consistent.withCalls s.calls (s.tasks.erase call)
    refine ⟨consistent'.resolveInWorker enabled.2,
      custody_resolveInWorker consistent' enabled.2 (custody.move fun other => ?_), ?_⟩
    · have posted := count_erase_add enabled.1 other
      simp only [Worker.held, Worker.waiting]
      omega
    · rw [calls_resolveInWorker]
      exact numbered
  | resolved call list =>
    simp only [step] at taken
    split at taken <;> cases taken
    rename_i enabled
    refine ⟨consistent.resolved enabled.1 list,
      custody_resolved consistent enabled.1 enabled.2 list custody, ?_⟩
    obtain ⟨rest, waits⟩ := consistent.waiting_of_resolving enabled.1
    rw [Worker.resolveCallback_first (s.received call list) list waits]
    exact numbered
  | resume =>
    simp only [step] at taken
    split at taken <;> cases taken
    rename_i call rest resuming
    have consistent' : Consistent { s with resuming := rest } :=
      { consistent with
        resumed := fun waiter later => consistent.resumed waiter (resuming ▸ List.mem_cons_of_mem call later) }
    refine ⟨consistent'.returnAddresses
      (consistent.resumed call (resuming ▸ List.mem_cons_self)), ?_, numbered⟩
    simp only [Worker.returnAddresses, List.map_append, List.map_singleton]
    refine custody.discharge fun other => ?_
    simp only [Worker.held, Worker.waiting, resuming, List.count_cons, List.count_nil]
    omega

theorem sound_of_run {events : List (Event H L A)} {s : Worker H L A}
    (ran : run step .initial events = .ok s) : Sound s :=
  run_invariant (fun s e t _ sound taken => sound_step s e t sound taken) (along_true _ _) ran
    sound_initial

/-! ## When a resolution is started -/

theorem resolving_resolveCallback (s : Worker H L A) (call : Call H L) (list : List A) :
    (s.resolveCallback call list).resolving = s.resolving := by
  unfold Worker.resolveCallback
  split
  · rfl
  · split <;> rfl

omit [DecidableEq L] in
theorem clearExpired_of_unexpired {s : Worker H L A} {host : H} (unexpired : s.Unexpired host) :
    s.clearExpired host = s :=
  if_neg fun expired => Nat.not_lt.mpr expired.2 unexpired

omit [DecidableEq L] in
theorem resolving_clearExpired (s : Worker H L A) (host : H) :
    (s.clearExpired host).resolving = s.resolving := by
  unfold Worker.clearExpired
  split <;> rfl

theorem resolving_resolveInWorker (s : Worker H L A) (call : Call H L) :
    (s.resolveInWorker call).resolving = if (s.clearExpired call.host).addresses call.host = [] ∧
        (s.clearExpired call.host).waiting call.host = [] then s.resolving ++ [call] else s.resolving := by
  rw [← resolving_clearExpired s call.host]
  simp only [Worker.resolveInWorker]
  generalize s.clearExpired call.host = u
  by_cases found : u.addresses call.host = []
  · by_cases nobody : u.waiting call.host = []
    · rw [if_neg (not_not.mpr found), if_neg (not_not.mpr nobody), if_pos ⟨found, nobody⟩]
    · rw [if_neg (not_not.mpr found), if_pos nobody, if_neg fun both => nobody both.2]
      rfl
  · rw [if_pos found, if_neg fun both => found both.1]
    exact resolving_resolveCallback ..

/-- The event starts no resolution for a host that has an unexpired result. -/
def NoneStarted (s t : Worker H L A) : Prop :=
  ∀ host, s.Unexpired host → (t.outstanding host).length ≤ (s.outstanding host).length

/-- No task runs for a host whose unexpired result is a failure and which nobody waits for. -/
def NoFailureCached (s : Worker H L A) : Event H L A → Prop
  | .task call =>
    ¬(s.Unexpired call.host ∧ s.addresses call.host = [] ∧ s.waiting call.host = [])
  | _ => True

theorem noneStarted_task_iff (s : Worker H L A) (call : Call H L) :
    NoneStarted s ({ s with tasks := s.tasks.erase call }.resolveInWorker call) ↔
      NoFailureCached s (.task call) := by
  set u := { s with tasks := s.tasks.erase call }
  constructor
  · rintro none_started ⟨unexpired, empty, nobody⟩
    have grown := none_started call.host unexpired
    have same : u.clearExpired call.host = u := clearExpired_of_unexpired unexpired
    simp only [Worker.outstanding, resolving_resolveInWorker] at grown
    rw [same, if_pos ⟨empty, nobody⟩, List.filter_append, List.length_append] at grown
    have added : ([call].filter (·.host = call.host)).length = 1 := by simp
    have kept : u.resolving = s.resolving := rfl
    rw [added, kept] at grown
    omega
  · intro known host unexpired
    simp only [Worker.outstanding, resolving_resolveInWorker]
    split
    · rename_i starts
      have different : call.host ≠ host := by
        intro same
        subst same
        have unchanged : u.clearExpired call.host = u := clearExpired_of_unexpired unexpired
        rw [unchanged] at starts
        exact known ⟨unexpired, starts⟩
      have none_added : [call].filter (·.host = host) = [] := by simp [different]
      have kept : (s.resolving ++ [call]).filter (·.host = host) = s.resolving.filter (·.host = host) := by
        rw [List.filter_append, none_added, List.append_nil]
      exact Nat.le_of_eq (congrArg List.length kept)
    · exact Nat.le_refl _

theorem noneStarted_iff {s t : Worker H L A} {e : Event H L A} (taken : step s e = .ok t) :
    NoneStarted s t ↔ NoFailureCached s e := by
  cases e with
  | advance milliseconds =>
    cases taken
    exact iff_of_true (fun _ _ => Nat.le_refl _) trivial
  | resolveHostname coroutine host ttl =>
    cases taken
    refine iff_of_true (fun other _ => ?_) trivial
    simp only [Worker.resolveHostname]
    split <;> exact Nat.le_refl _
  | task call =>
    simp only [step] at taken
    split at taken <;> cases taken
    exact noneStarted_task_iff s call
  | resolved call list =>
    simp only [step] at taken
    split at taken <;> cases taken
    refine iff_of_true (fun host _ => ?_) trivial
    simp only [Worker.outstanding, resolving_resolveCallback]
    exact ((List.erase_sublist).filter _).length_le
  | resume =>
    simp only [step] at taken
    split at taken <;> cases taken
    exact iff_of_true (fun _ _ => Nat.le_refl _) trivial

/-- **One resolution for everybody who waits**, in every state a worker reaches: at most one per host is
outstanding, every call is in one place or was answered once, with a result of its own host, and only a task
that finds a failure starts a resolution for a host with an unexpired result. -/
theorem resolution_shared (events : List (Event H L A)) (s : Worker H L A)
    (ran : run step .initial events = .ok s) : (∀ host, (s.outstanding host).length ≤ 1) ∧
    (∀ call ∈ s.calls, s.held call + (s.answers.map Prod.fst).count call = 1) ∧
    (s.tasks = [] → s.resolving = [] → s.resuming = [] →
      ∀ call ∈ s.calls, (s.answers.map Prod.fst).count call = 1) ∧
    (∀ answer ∈ s.answers, (answer.1.host, answer.2) ∈ s.results) ∧
    ∀ e t, step s e = .ok t → (NoneStarted s t ↔ NoFailureCached s e) := by
  obtain ⟨consistent, custody, _⟩ := sound_of_run ran
  refine ⟨fun host => ?_, fun call made => custody.held_or_done made, ?_, consistent.answered,
    fun e t taken => noneStarted_iff taken⟩
  · rw [consistent.shared]
    cases (s.waiting host).head? with
    | none => exact Nat.zero_le _
    | some first => exact Nat.le_refl _
  · intro tasks resolving resuming call made
    have nobody : s.waiting call.host = [] := by
      have shared := consistent.shared call.host
      rw [Worker.outstanding, resolving, List.filter_nil] at shared
      cases waits : s.waiting call.host with
      | nil => rfl
      | cons first rest =>
        rw [waits] at shared
        cases shared
    refine custody.done_once made ?_
    rw [Worker.held, tasks, nobody, resuming]
    rfl

end

/-- Two coroutines share a resolution; while they are being resumed a third call returns the
cached result. -/
def sharedResolution : List (Event Nat Nat Nat) :=
  [.resolveHostname 0 80 5000, .resolveHostname 1 80 5000, .task ⟨0, 0, 80, 5000⟩,
    .task ⟨1, 1, 80, 5000⟩, .resolved ⟨0, 0, 80, 5000⟩ [7, 8], .resume,
    .resolveHostname 0 80 5000, .resume]

/-- **Satisfiable pole:** all three calls have been answered, once each. -/
theorem sharedResolution_answered : ∃ s, run step .initial sharedResolution = .ok s ∧ s.calls.length = 3 ∧
      ∀ call ∈ s.calls, (s.answers.map Prod.fst).count call = 1 := by
  obtain ⟨s, ran, three, tasks, resolving, resuming⟩ := exists_run step .initial sharedResolution
    (fun s => s.calls.length = 3 ∧ s.tasks = [] ∧ s.resolving = [] ∧ s.resuming = [])
    (by decide +kernel)
  exact ⟨s, ran, three, (resolution_shared sharedResolution s ran).2.2.1 tasks resolving resuming⟩

/-- A second call is posted while the resolution for the first is under way; that resolution
fails, which is remembered for five seconds. -/
def failureCached : List (Event Nat Nat Nat) :=
  [.resolveHostname 0 80 5000, .task ⟨0, 0, 80, 5000⟩, .resolveHostname 1 80 5000,
    .resolved ⟨0, 0, 80, 5000⟩ [], .resume]

/-- **Refuting pole:** the posted task starts a resolution although an unexpired result is
cached. -/
theorem failure_resolved_again : ∃ s t : Worker Nat Nat Nat, run step .initial failureCached = .ok s ∧
      step s (.task ⟨1, 1, 80, 5000⟩) = .ok t ∧ s.Unexpired 80 ∧ s.outstanding 80 = [] ∧
      t.outstanding 80 = [⟨1, 1, 80, 5000⟩] := by
  obtain ⟨s, ran, unexpired, none_yet⟩ := exists_run step .initial failureCached
    (fun s => s.Unexpired 80 ∧ s.outstanding 80 = []) (by decide +kernel)
  obtain ⟨t, ends, started⟩ := exists_run step .initial
    (failureCached ++ [.task ⟨1, 1, 80, 5000⟩])
    (fun t => t.outstanding 80 = [⟨1, 1, 80, 5000⟩]) (by decide +kernel)
  rw [run_append_of_ok ran] at ends
  obtain ⟨u, taken, last⟩ := ok_of_run_cons ends
  cases last
  exact ⟨s, t, ran, taken, unexpired, none_yet, started⟩

end H2LoadRunner.Lua.Resolver
