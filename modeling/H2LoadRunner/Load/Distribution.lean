/-
# Load.Distribution -- requests and clients over threads, clients and rate periods

`main` checks the options, divides requests, clients and rate by the number of threads and makes
one worker of each share; a worker divides its requests by its clients and creates the clients in
one loop or, in rate mode, some with every rate period.  Whoever divides hands out the remainder
one by one.

* `distribution_exact`: for every option set that is accepted in request-count mode without a
  timing script no divisor is zero, every worker has a client, every client has a request, and
  nothing is lost or added: the clients are `nclients` and their requests `nreqs`.
-/
import H2LoadRunner.Library.Dealing
import H2LoadRunner.Load.Effects

namespace H2LoadRunner.Load.Distribution

open Library

set_option autoImplicit false

/-! ## Options -/

/-- What the distribution reads of `Config`; the first four are of type `size_t`. -/
structure Options where
  nreqs : Nat
  nclients : Nat
  nthreads : Nat
  rate : Nat
  maxConcurrentStreams : Int
  timingScript : Bool
  rpsEnabled : Bool
  timingBasedMode : Bool
  sized : nreqs < sizeMax ∧ nclients < sizeMax ∧ nthreads < sizeMax ∧ rate < sizeMax

def Options.settled (o : Options) : Options :=
  if o.timingBasedMode then { o with nreqs := 0, sized := ⟨by decide, o.sized.2⟩ } else o

def Options.isRateMode (o : Options) : Bool := o.rate != 0

def checkOptions (o : Options) : Except String Options :=
  if o.timingScript ∧ o.rpsEnabled then
    .error "--timing-script-file, --rps: they are mutually exclusive."
  else if o.nreqs = 0 ∧ !o.timingBasedMode then
    .error ("-n: the number of requests must be strictly greater than 0 " ++
      "if timing-based test is not being run.")
  else if o.maxConcurrentStreams = 0 then
    .error "-m: the max concurrent streams must be strictly greater than 0."
  else if o.nthreads = 0 then
    .error "-t: the number of threads must be strictly greater than 0."
  else if !o.timingScript ∧ o.nreqs < o.nclients ∧ !o.timingBasedMode then
    .error "-n, -c: the number of requests must be greater than or equal to the clients."
  else if o.nclients < o.nthreads then
    .error "-c, -t: the number of clients must be greater than or equal to the number of threads."
  else if o.isRateMode ∧ o.rate < o.nthreads then
    .error "-r, -t: the connection rate must be greater than or equal to the number of threads."
  else if o.isRateMode ∧ o.nclients < o.rate then
    .error "-r, -c: the connection rate must be smaller than or equal to the number of clients."
  else .ok o.settled

/-! ## Workers -/

inductive Fault where
  | divisionByZero

def divMod (a b : Nat) : Except Fault (Nat × Nat) :=
  if b = 0 then .error .divisionByZero else .ok (a / b, a % b)

/-- `base_worker`, as far as it distributes. -/
structure Worker where
  id : Nat
  reqTodo : Nat
  nclients : Nat
  nreqsPerClient : Nat
  nreqsRem : Nat
  rate : Nat
  maxSamples : Nat
  nconnsMade : Nat := 0

def createWorker (id reqTodo nclients rate maxSamples : Nat) : Except Fault Worker := do
  let (nreqsPerClient, nreqsRem) ← divMod reqTodo nclients
  return {
    id := id
    reqTodo := reqTodo
    nclients := nclients
    nreqsPerClient := nreqsPerClient
    nreqsRem := nreqsRem
    rate := rate
    maxSamples := maxSamples }

/-- A `size_t` stored in an `ssize_t`. -/
def toSigned (a : Nat) : Int := if a < 2 ^ 63 then a else a - 2 ^ 64

def oneMore (share : Nat) (rem : Int) : Nat × Int :=
  if 0 < rem then (share + 1, rem - 1) else (share, rem)

/-- What `main` has computed before its loop over the threads. -/
structure PerThread where
  nreqs : Nat
  nclients : Nat
  rate : Nat
  maxSamples : Nat

def createWorkersFrom (o : Options) (each : PerThread) :
    Nat → Nat → Int → Int → Int → Except Fault (List Worker)
  | 0, _, _, _, _ => return []
  | n + 1, id, nreqsRem, nclientsRem, rateRem => do
    let (rate, rateRem) := oneMore each.rate rateRem
    let (nclients, nclientsRem) := oneMore each.nclients nclientsRem
    let (nreqs, nreqsRem) := if o.timingScript then (o.nreqs * nclients % sizeMax, nreqsRem)
      else oneMore each.nreqs nreqsRem
    let worker ← createWorker id nreqs nclients rate each.maxSamples
    let rest ← createWorkersFrom o each n (id + 1) nreqsRem nclientsRem rateRem
    return worker :: rest

def createWorkers (o : Options) : Except Fault (List Worker) := do
  let (nreqsPerThread, nreqsRem) ← if o.timingScript then pure (0, 0) else divMod o.nreqs o.nthreads
  let (nclientsPerThread, nclientsRem) ← divMod o.nclients o.nthreads
  let (ratePerThread, rateRem) ← divMod o.rate o.nthreads
  let (samples, _) ← divMod 100000 o.nthreads
  createWorkersFrom o ⟨nreqsPerThread, nclientsPerThread, ratePerThread, max 10000 samples⟩ o.nthreads 0
    (toSigned nreqsRem) (toSigned nclientsRem) (toSigned rateRem)

/-! ## Clients -/

namespace Worker

/-- `req_todo` of the next client, in either loop. -/
def nextBudget (worker : Worker) : Nat × Worker :=
  if 0 < worker.nreqsRem then
    (worker.nreqsPerClient + 1, { worker with nreqsRem := worker.nreqsRem - 1 })
  else (worker.nreqsPerClient, worker)

/-- That many turns of the loop that creates clients, with the requests each is to make. -/
def createClients : Nat → Worker → List Nat × Worker
  | 0, worker => ([], worker)
  | n + 1, worker =>
    let (reqTodo, worker) := worker.nextBudget
    let (rest, worker) := createClients n worker
    (reqTodo :: rest, worker)

def ratePeriodTimeoutHandler (worker : Worker) : List Nat × Worker :=
  let connsRemaining := (worker.nclients + sizeMax - worker.nconnsMade) % sizeMax
  let nclientsToCreate := min worker.rate connsRemaining
  let (made, worker) := worker.createClients nclientsToCreate
  (made, { worker with nconnsMade := worker.nconnsMade + nclientsToCreate })

def ratePeriods : Nat → Worker → List Nat × Worker
  | 0, worker => ([], worker)
  | n + 1, worker =>
    let (made, worker) := worker.ratePeriodTimeoutHandler
    let (rest, worker) := ratePeriods n worker
    (made ++ rest, worker)

/-- The requests of the clients a worker has created, in rate mode after that many periods. -/
def budgets (worker : Worker) (o : Options) (periods : Nat) : List Nat :=
  if o.isRateMode then (worker.ratePeriods periods).1 else (worker.createClients worker.nclients).1

end Worker

/-! ## What is accepted -/

/-- Accepted options of a test by the number of requests, without a timing script. -/
structure Options.Counted (o : Options) : Prop where
  untimed : o.timingScript = false
  threads : 0 < o.nthreads
  clients : o.nthreads ≤ o.nclients
  requests : o.nclients ≤ o.nreqs
  rated : o.isRateMode = true → o.nthreads ≤ o.rate ∧ o.rate ≤ o.nclients

theorem counted_of_checkOptions {o accepted : Options} (ok : checkOptions o = .ok accepted)
    (untimed : o.timingScript = false) (byCount : o.timingBasedMode = false) : accepted = o ∧ o.Counted := by
  unfold checkOptions at ok
  split at ok
  · cases ok
  split at ok
  · cases ok
  split at ok
  · cases ok
  split at ok
  · cases ok
  split at ok
  · cases ok
  split at ok
  · cases ok
  split at ok
  · cases ok
  split at ok
  · cases ok
  rename_i noThreads fewRequests fewClients slow fast
  cases ok
  refine ⟨by simp [Options.settled, byCount], untimed, Nat.pos_of_ne_zero noThreads,
    Nat.le_of_not_lt fewClients, ?_, fun rated => ?_⟩
  · by_contra few
    exact fewRequests ⟨by simp [untimed], Nat.lt_of_not_le few, by simp [byCount]⟩
  · exact ⟨Nat.le_of_not_lt fun less => slow ⟨rated, less⟩, Nat.le_of_not_lt fun more => fast ⟨rated, more⟩⟩

/-! ## The shares of the threads -/

theorem toSigned_mod {total takers : Nat} (some : 0 < takers) (enough : total = 0 ∨ takers ≤ total)
    (sized : total < sizeMax) : toSigned (total % takers) = ((total % takers : Nat) : Int) := by
  have small : total % takers < 2 ^ 63 := by
    unfold sizeMax at sized
    rcases enough with rfl | enough
    · simp
    · have less := Nat.mod_lt total some
      have more : takers + total % takers ≤ total := by
        have split := Nat.div_add_mod total takers
        have quotient := Nat.mul_le_mul_left takers (Nat.div_pos enough some)
        omega
      omega
  unfold toSigned
  rw [if_pos small]

theorem oneMore_shareAt (deal : Deal) (i : Nat) :
    oneMore deal.each (deal.after i).extra = (deal.shareAt i, ((deal.after (i + 1)).extra : Int)) := by
  rw [Deal.after_succ]
  unfold oneMore Deal.shareAt Deal.share Deal.next
  by_cases more : 0 < (deal.after i).extra
  · have fewer : (((deal.after i).extra - 1 : Nat) : Int) = (deal.after i).extra - 1 := by omega
    rw [if_pos (by exact_mod_cast more), if_pos more, fewer]
    rfl
  · have none : (deal.after i).extra = 0 := by omega
    rw [if_neg (by exact_mod_cast more), if_neg more, none]
    rfl

def Options.workerAt (o : Options) (id : Nat) : Worker where
  id := id
  reqTodo := (Deal.of o.nreqs o.nthreads).shareAt id
  nclients := (Deal.of o.nclients o.nthreads).shareAt id
  nreqsPerClient := (Deal.of o.nreqs o.nthreads).shareAt id / (Deal.of o.nclients o.nthreads).shareAt id
  nreqsRem := (Deal.of o.nreqs o.nthreads).shareAt id % (Deal.of o.nclients o.nthreads).shareAt id
  rate := (Deal.of o.rate o.nthreads).shareAt id
  maxSamples := max 10000 (100000 / o.nthreads)

namespace Options.Counted

variable {o : Options} (counted : o.Counted)

include counted

theorem one_le_nclients (id : Nat) : 1 ≤ (o.workerAt id).nclients :=
  (Deal.one_le_each counted.threads counted.clients).trans (Deal.each_le_shareAt _ id)

theorem nclients_le_reqTodo (id : Nat) : (o.workerAt id).nclients ≤ (o.workerAt id).reqTodo :=
  Deal.share_mono o.nthreads counted.requests id

theorem one_le_rate (rated : o.isRateMode = true) (id : Nat) : 1 ≤ (o.workerAt id).rate :=
  (Deal.one_le_each counted.threads (counted.rated rated).1).trans (Deal.each_le_shareAt _ id)

theorem createWorkersFrom_eq (n id : Nat) :
    createWorkersFrom o ⟨o.nreqs / o.nthreads, o.nclients / o.nthreads, o.rate / o.nthreads,
        max 10000 (100000 / o.nthreads)⟩ n id (((Deal.of o.nreqs o.nthreads).after id).extra : Int)
      (((Deal.of o.nclients o.nthreads).after id).extra : Int)
      (((Deal.of o.rate o.nthreads).after id).extra : Int) = .ok ((List.range' id n).map o.workerAt) := by
  induction n generalizing id with
  | zero => rfl
  | succ n ih =>
    have nreqs := oneMore_shareAt (Deal.of o.nreqs o.nthreads) id
    have nclients := oneMore_shareAt (Deal.of o.nclients o.nthreads) id
    have rate := oneMore_shareAt (Deal.of o.rate o.nthreads) id
    have some : (Deal.of o.nclients o.nthreads).shareAt id ≠ 0 :=
      Nat.ne_of_gt (counted.one_le_nclients id)
    have made : createWorker id ((Deal.of o.nreqs o.nthreads).shareAt id)
        ((Deal.of o.nclients o.nthreads).shareAt id) ((Deal.of o.rate o.nthreads).shareAt id)
        (max 10000 (100000 / o.nthreads)) = .ok (o.workerAt id) := by
      unfold createWorker divMod
      rw [if_neg some]
      rfl
    rw [createWorkersFrom]
    simp only [Deal.of] at nreqs nclients rate made
    simp only [Deal.of, nreqs, nclients, rate, counted.untimed, Bool.false_eq_true, if_false, made]
    have rest := ih (id + 1)
    simp only [Deal.of] at rest
    simp only [bind, Except.bind, rest]
    rfl

theorem createWorkers_eq : createWorkers o = .ok ((List.range o.nthreads).map o.workerAt) := by
  have some : o.nthreads ≠ 0 := Nat.ne_of_gt counted.threads
  have divides (a : Nat) : divMod a o.nthreads = .ok (a / o.nthreads, a % o.nthreads) := if_neg some
  have loop := counted.createWorkersFrom_eq o.nthreads 0
  have clients : o.nclients = 0 ∨ o.nthreads ≤ o.nclients := .inr counted.clients
  have requests : o.nreqs = 0 ∨ o.nthreads ≤ o.nreqs := .inr (counted.clients.trans counted.requests)
  have rate : o.rate = 0 ∨ o.nthreads ≤ o.rate := by
    by_cases rated : o.isRateMode = true
    · exact .inr (counted.rated rated).1
    · exact .inl (by simpa [Options.isRateMode] using rated)
  unfold createWorkers
  simp only [counted.untimed, Bool.false_eq_true, if_false, divides, bind, Except.bind,
    toSigned_mod counted.threads requests o.sized.1, toSigned_mod counted.threads clients o.sized.2.1,
    toSigned_mod counted.threads rate o.sized.2.2.2]
  rw [List.range_eq_range']
  exact loop

end Options.Counted

/-! ## The clients of a worker -/

namespace Worker

def deal (worker : Worker) : Deal := ⟨worker.nreqsPerClient, worker.nreqsRem⟩

theorem nextBudget_eq (worker : Worker) :
    worker.nextBudget = (worker.deal.share, { worker with nreqsRem := worker.nreqsRem - 1 }) := by
  unfold nextBudget Deal.share deal
  by_cases more : 0 < worker.nreqsRem
  · rw [if_pos more, if_pos more]
  · have none : worker.nreqsRem - 1 = worker.nreqsRem := by omega
    rw [if_neg more, if_neg more, none]

theorem createClients_eq (n : Nat) (worker : Worker) :
    worker.createClients n = (worker.deal.hands n, { worker with nreqsRem := worker.nreqsRem - n }) := by
  induction n generalizing worker with
  | zero => rfl
  | succ n ih =>
    simp only [createClients, nextBudget_eq, ih, Nat.sub_sub, Nat.add_comm 1 n]
    rfl

theorem ratePeriodTimeoutHandler_eq {worker : Worker} (sized : worker.nclients < sizeMax)
    (made : worker.nconnsMade ≤ worker.nclients) :
    worker.ratePeriodTimeoutHandler =
      let count := min worker.rate (worker.nclients - worker.nconnsMade)
      (worker.deal.hands count, { worker with
        nreqsRem := worker.nreqsRem - count, nconnsMade := worker.nconnsMade + count }) := by
  have remaining : (worker.nclients + sizeMax - worker.nconnsMade) % sizeMax =
      worker.nclients - worker.nconnsMade := by
    rw [Nat.sub_add_comm made, Nat.add_mod_right, Nat.mod_eq_of_lt (by omega)]
  simp only [ratePeriodTimeoutHandler, remaining, createClients_eq]

theorem ratePeriods_eq (periods : Nat) {worker : Worker} (sized : worker.nclients < sizeMax)
    (made : worker.nconnsMade ≤ worker.nclients) :
    (worker.ratePeriods periods).1 =
      worker.deal.hands (min (periods * worker.rate) (worker.nclients - worker.nconnsMade)) := by
  induction periods generalizing worker with
  | zero => simp [ratePeriods, Deal.hands]
  | succ periods ih =>
    simp only [ratePeriods, ratePeriodTimeoutHandler_eq sized made]
    generalize counted : min worker.rate (worker.nclients - worker.nconnsMade) = count
    have within : worker.nconnsMade + count ≤ worker.nclients := by omega
    have rest : (ratePeriods periods { worker with
        nreqsRem := worker.nreqsRem - count
        nconnsMade := worker.nconnsMade + count }).1 = _ := ih sized within
    have total : min ((periods + 1) * worker.rate) (worker.nclients - worker.nconnsMade) =
        count + min (periods * worker.rate) (worker.nclients - (worker.nconnsMade + count)) := by
      rw [Nat.succ_mul]
      omega
    rw [rest, total, Deal.hands_add]
    rfl

end Worker

/-! ## Everything is handed out -/

theorem sum_shares (total : Nat) {takers : Nat} (some : 0 < takers) :
    ((List.range takers).map (Deal.of total takers).shareAt).sum = total := by
  rw [← Deal.hands_eq_map]
  exact Deal.sum_hands_of total some

namespace Options.Counted

variable {o : Options} (counted : o.Counted)

include counted

theorem nclients_lt (id : Nat) : (o.workerAt id).nclients < sizeMax :=
  (Deal.shareAt_le o.nclients counted.threads id).trans_lt o.sized.2.1

theorem budgets_eq (id periods : Nat) : ∃ count ≤ (o.workerAt id).nclients,
    (o.workerAt id).budgets o periods = (o.workerAt id).deal.hands count ∧
      ((o.workerAt id).nclients ≤ periods → count = (o.workerAt id).nclients) := by
  unfold Worker.budgets
  by_cases rated : o.isRateMode = true
  · rw [if_pos rated, Worker.ratePeriods_eq periods (counted.nclients_lt id) (Nat.zero_le _)]
    refine ⟨_, Nat.min_le_right _ _, rfl, fun enough => Nat.min_eq_right ?_⟩
    exact enough.trans (Nat.le_mul_of_pos_right periods (counted.one_le_rate rated id))
  · rw [if_neg rated, Worker.createClients_eq]
    exact ⟨_, Nat.le_refl _, rfl, fun _ => rfl⟩

end Options.Counted

/-- **Requests and clients are distributed exactly.**  In rate mode a worker has created all its
clients at the latest after as many periods as it has clients. -/
theorem distribution_exact (o accepted : Options) (ok : checkOptions o = .ok accepted)
    (untimed : o.timingScript = false) (byCount : o.timingBasedMode = false) :
    ∃ workers, createWorkers accepted = .ok workers ∧ workers.length = o.nthreads ∧
      (∀ worker ∈ workers, 1 ≤ worker.nclients) ∧ (workers.map Worker.nclients).sum = o.nclients ∧
      (∀ worker ∈ workers, ∀ periods, ∀ reqTodo ∈ worker.budgets accepted periods, 1 ≤ reqTodo) ∧
      ∀ periods : Nat → Nat, (∀ worker ∈ workers, worker.nclients ≤ periods worker.id) →
        let budgets := workers.flatMap fun worker => worker.budgets accepted (periods worker.id)
        budgets.length = o.nclients ∧ budgets.sum = o.nreqs := by
  obtain ⟨rfl, counted⟩ := counted_of_checkOptions ok untimed byCount
  have inside {P : Worker → Prop} (each : ∀ id, P (accepted.workerAt id)) :
      ∀ worker ∈ (List.range accepted.nthreads).map accepted.workerAt, P worker := by
    intro worker member
    obtain ⟨id, -, rfl⟩ := List.mem_map.mp member
    exact each id
  refine ⟨_, counted.createWorkers_eq, by simp, inside counted.one_le_nclients, ?_, inside ?_, ?_⟩
  · rw [List.map_map]
    exact sum_shares _ counted.threads
  · intro id periods reqTodo member
    obtain ⟨count, -, shares, -⟩ := counted.budgets_eq id periods
    rw [shares] at member
    have share := Deal.one_le_each (counted.one_le_nclients id) (counted.nclients_le_reqTodo id)
    exact share.trans (Deal.each_le_of_mem_hands member)
  · intro periods enough
    have dealt (id : Nat) (known : id ∈ List.range accepted.nthreads) :
        (accepted.workerAt id).budgets accepted (periods id) =
          (accepted.workerAt id).deal.hands (accepted.workerAt id).nclients := by
      obtain ⟨count, -, shares, all⟩ := counted.budgets_eq id (periods id)
      rw [shares, all (enough _ (List.mem_map_of_mem known))]
    have lists : (((List.range accepted.nthreads).map accepted.workerAt).flatMap fun worker =>
          worker.budgets accepted (periods worker.id)) =
        ((List.range accepted.nthreads).map fun id =>
          (accepted.workerAt id).deal.hands (accepted.workerAt id).nclients).flatten := by
      rw [List.flatMap_def, List.map_map]
      exact congrArg List.flatten (List.map_congr_left dealt)
    dsimp only
    rw [lists, List.length_flatten, List.sum_flatten, List.map_map, List.map_map]
    constructor
    · rw [← sum_shares accepted.nclients counted.threads]
      congr 1
      exact List.map_congr_left fun id _ => Deal.length_hands _ _
    · rw [← sum_shares accepted.nreqs counted.threads]
      congr 1
      exact List.map_congr_left fun id _ => Deal.sum_hands_of _ (counted.one_le_nclients id)

def unevenOptions : Options where
  nreqs := 12
  nclients := 5
  nthreads := 3
  rate := 4
  maxConcurrentStreams := 1
  timingScript := false
  rpsEnabled := false
  timingBasedMode := false
  sized := by decide

/-- **Satisfiable pole:** three threads, five clients, twelve requests, four connections in a
period. -/
theorem uneven_distribution_exact : ∃ workers, createWorkers unevenOptions = .ok workers ∧
      workers.map (fun worker => worker.budgets unevenOptions 2) = [[2, 2], [2, 2], [4]] ∧
      (workers.map Worker.nclients).sum = 5 := by
  have ok : checkOptions unevenOptions = .ok unevenOptions := rfl
  obtain ⟨workers, made, -, -, clients, -, -⟩ := distribution_exact unevenOptions unevenOptions ok rfl rfl
  refine ⟨workers, made, ?_, clients⟩
  have these : workers = _ := (Except.ok.inj made).symm
  rw [these]
  decide

end H2LoadRunner.Load.Distribution
