/-
# Load.TimeStatistics -- the spread of the times of all workers

At the end `process_time_stats` gathers the times the workers have sampled and `compute_time_stat`
reports their minimum, maximum, mean and standard deviation, in one pass over the samples.  Whether
the variance is that of a sample is decided in a loop over the workers, each of which overwrites the
decision of the one before; and a worker has counted each sample twice (`Load.Sampling`), so that its
count is above that of the samples it has stored as soon as there is one.

In exact arithmetic the pass computes mean and variance (`pass_moments`), and does not depend on the order
of the samples (`computeTimeStat_perm`).
So `orderFree_iff`: the report does not depend on the order of the workers, with the variance of a
sample exactly if one of them has discarded samples, exactly when all of them have seen some and one has
discarded some, or none has seen any.
-/
import H2LoadRunner.Load.Sampling

namespace H2LoadRunner.Load.TimeStatistics

set_option autoImplicit false

/-! ## One kind of samples -/

structure SDStat (K : Type) where
  min : K
  max : K
  mean : K
  sd : K
  withinSd : K

/-- The arithmetic of the report, with the two limits its minimum and maximum begin with. -/
structure Arithmetic (K : Type) where
  sqrt : K → K
  limitsMax : K
  limitsMin : K

structure Pass (K : Type) where
  n : Nat
  min : K
  max : K
  sum : K
  a : K
  q : K

variable {K : Type} [Field K] [LinearOrder K] (arith : Arithmetic K)

def Pass.add (pass : Pass K) (t : K) : Pass K :=
  let n := pass.n + 1
  let na := pass.a + (t - pass.a) / n
  { n := n
    min := Min.min pass.min t
    max := Max.max pass.max t
    sum := pass.sum + t
    a := na
    q := pass.q + (t - pass.a) * (t - na) }

def withinSd (samples : List K) (mean sd : K) : K :=
  if samples.length = 0 then 0
  else samples.countP (fun t => mean - sd ≤ t ∧ t ≤ mean + sd) / (samples.length : K) * 100

def computeTimeStat (samples : List K) (sampling : Bool) : SDStat K :=
  if samples = [] then ⟨0, 0, 0, 0, 0⟩
  else
    let pass := samples.foldl Pass.add ⟨0, arith.limitsMax, arith.limitsMin, 0, 0, 0⟩
    let mean := pass.sum / pass.n
    let sd := arith.sqrt (pass.q / (if sampling ∧ pass.n > 1 then pass.n - 1 else pass.n : Nat))
    ⟨pass.min, pass.max, mean, sd, withinSd samples mean sd⟩

/-! ## All workers -/

/-- A time point in nanoseconds; `recorded` where it is not the epoch of the clock. -/
abbrev Time := Int

structure RequestStat where
  requestTime : Time
  streamCloseTime : Time
  completed : Bool

structure ClientStat where
  clientStartTime : Time
  clientEndTime : Time
  connectStartTime : Time
  connectTime : Time
  ttfb : Time
  reqSuccess : Nat

/-- A worker with what it has stored of the requests and of the clients it has seen. -/
structure Worker where
  maxSamples : Nat
  requests : Nat
  reqStats : List RequestStat
  clients : Nat
  clientStats : List ClientStat
  requestsStored : reqStats.length = min requests maxSamples
  clientsStored : clientStats.length = min clients maxSamples

def seconds (K : Type) [Field K] (t : Time) : K := t / 10 ^ 9

def RequestStat.times (stat : RequestStat) : List K :=
  if stat.completed then [seconds K (stat.streamCloseTime - stat.requestTime)] else []

def ClientStat.rps (stat : ClientStat) : List K :=
  let t := seconds K (stat.clientEndTime - stat.clientStartTime)
  if stat.clientStartTime ≠ 0 ∧ stat.clientEndTime ≠ 0 ∧ t > 1 / 10 ^ 9 then [stat.reqSuccess / t] else []

def ClientStat.connect (stat : ClientStat) : List K :=
  if stat.connectStartTime = 0 ∨ stat.connectTime = 0 then []
  else [seconds K (stat.connectTime - stat.connectStartTime)]

def ClientStat.firstByte (stat : ClientStat) : List K :=
  if stat.connectStartTime = 0 ∨ stat.connectTime = 0 ∨ stat.ttfb = 0 then []
  else [seconds K (stat.ttfb - stat.connectStartTime)]

namespace Worker

/-- `request_times_smp.n` and `client_smp.n`. -/
def requestTimesN (w : Worker) : Nat := 2 * w.requests

def clientN (w : Worker) : Nat := 2 * w.clients

def samplesRequests (w : Worker) : Bool := w.requestTimesN > w.reqStats.length

def samplesClients (w : Worker) : Bool := w.clientN > w.clientStats.length

/-- The counts are those of the two samplers, whatever was drawn. -/
theorem counted (w : Worker) :
    (∀ smp ∈ Sampling.outcomes Sampling.onStreamClose w.maxSamples w.requests,
      smp.n = w.requestTimesN ∧ smp.stats.length = w.reqStats.length) ∧
    ∀ smp ∈ Sampling.outcomes Sampling.finalCleanup w.maxSamples w.clients,
      smp.n = w.clientN ∧ smp.stats.length = w.clientStats.length := by
  refine ⟨fun smp member => ?_, fun smp member => ?_⟩
  · have stores := Sampling.stores_outcomes smp member
    exact ⟨stores.counted, stores.stored.trans w.requestsStored.symm⟩
  · have stores := Sampling.stores_outcomes smp member
    exact ⟨stores.counted, stores.stored.trans w.clientsStored.symm⟩

/-- Whether it has discarded samples. -/
def discards (seen : Worker → Nat) (w : Worker) : Bool := w.maxSamples < seen w

end Worker

def samplingFlag (samples : Worker → Bool) (workers : List Worker) : Bool :=
  workers.foldl (fun _ w => samples w) false

structure SDStats (K : Type) where
  request : SDStat K
  connect : SDStat K
  ttfb : SDStat K
  rps : SDStat K

def processTimeStats (workers : List Worker) : SDStats K :=
  let clients := samplingFlag Worker.samplesClients workers
  let perClient (times : ClientStat → List K) :=
    computeTimeStat arith (workers.flatMap fun w => w.clientStats.flatMap times) clients
  { request := computeTimeStat arith (workers.flatMap fun w => w.reqStats.flatMap RequestStat.times)
      (samplingFlag Worker.samplesRequests workers)
    connect := perClient ClientStat.connect
    ttfb := perClient ClientStat.firstByte
    rps := perClient ClientStat.rps }

/-- In whatever order the workers stand, the variance is that of a sample exactly if one of them has
discarded samples, and the report is the same. -/
structure OrderFree (workers : List Worker) : Prop where
  requests : ∀ order, order.Perm workers →
    samplingFlag Worker.samplesRequests order = workers.any (Worker.discards Worker.requests)
  clients : ∀ order, order.Perm workers →
    samplingFlag Worker.samplesClients order = workers.any (Worker.discards Worker.clients)
  report : ∀ order, order.Perm workers → processTimeStats arith order = processTimeStats arith workers

/-- Every worker has seen some if one has discarded some, and none otherwise. -/
def Agree (seen : Worker → Nat) (workers : List Worker) : Prop :=
  ∀ w ∈ workers, (0 < seen w ↔ ∃ v ∈ workers, v.maxSamples < seen v)

instance (seen : Worker → Nat) (workers : List Worker) : Decidable (Agree seen workers) :=
  inferInstanceAs (Decidable (∀ w ∈ workers, _))

/-! ## The order of the samples -/

variable [IsStrictOrderedRing K]

/-- What the pass has computed is said without its order. -/
theorem foldl_add (samples : List K) :
    samples.foldl Pass.add ⟨0, arith.limitsMax, arith.limitsMin, 0, 0, 0⟩ =
      ⟨samples.length, samples.foldl Min.min arith.limitsMax, samples.foldl Max.max arith.limitsMin,
        samples.sum, samples.sum / samples.length,
        (samples.map (· ^ 2)).sum - samples.sum ^ 2 / samples.length⟩ := by
  induction samples using List.reverseRecOn with
  | nil => simp
  | append_singleton samples t ih =>
    rw [List.foldl_concat, ih]
    rcases eq_or_ne samples [] with rfl | some
    · simp [Pass.add]
    · have count : (samples.length : K) ≠ 0 := by simpa using some
      have more : (samples.length : K) + 1 ≠ 0 := Nat.cast_add_one_ne_zero _
      simp only [Pass.add, List.foldl_append, List.foldl_cons, List.foldl_nil, List.length_append,
        List.length_singleton, List.sum_append, List.sum_singleton, List.map_append, List.map_singleton,
        Nat.cast_add, Nat.cast_one, Pass.mk.injEq, true_and]
      constructor
      · field_simp
        ring
      · field_simp
        ring

def mean (samples : List K) : K := samples.sum / samples.length

def deviation (samples : List K) : K := (samples.map fun t => (t - mean samples) ^ 2).sum

theorem sum_sq_sub (samples : List K) (m : K) :
    (samples.map fun t => (t - m) ^ 2).sum =
      (samples.map (· ^ 2)).sum - 2 * m * samples.sum + samples.length * m ^ 2 := by
  induction samples with
  | nil => simp
  | cons t samples ih =>
    simp only [List.map_cons, List.sum_cons, List.length_cons, Nat.cast_add, Nat.cast_one, ih]
    ring

/-- **After each prefix of the loop `a` is its mean and `q` the sum of its squared deviations**, so the
root is taken of the variance of the population, or of the sample. -/
theorem pass_moments (arith : Arithmetic ℚ) (samples : List ℚ) (some : samples ≠ []) (sampling : Bool) :
    (∀ first, first <+: samples → first ≠ [] →
      let pass := first.foldl Pass.add ⟨0, arith.limitsMax, arith.limitsMin, 0, 0, 0⟩
      pass.a = mean first ∧ pass.q = deviation first) ∧
    (computeTimeStat arith samples sampling).sd = arith.sqrt (deviation samples /
      if sampling ∧ samples.length > 1 then (samples.length - 1 : ℚ) else samples.length) := by
  have moments (first : List ℚ) (some : first ≠ []) :
      (first.map (· ^ 2)).sum - first.sum ^ 2 / first.length = deviation first := by
    have count : (first.length : ℚ) ≠ 0 := by simpa using some
    rw [deviation, sum_sq_sub, mean]
    field_simp
    ring
  refine ⟨fun first _ some => ?_, ?_⟩
  · simp only [foldl_add, moments first some, mean, and_self]
  · simp only [computeTimeStat, if_neg some, foldl_add, moments samples some]
    congr 2
    split_ifs with sampled
    · rw [Nat.cast_sub sampled.2.le, Nat.cast_one]
    · rfl

/-- **Satisfiable pole:** of three times. -/
theorem threeTimes_moments : (computeTimeStat ⟨id, 100, 0⟩ [1, 2, 6] true).sd = (7 : ℚ) :=
  (pass_moments ⟨id, 100, 0⟩ [1, 2, 6] (by decide) true).2.trans (by norm_num [deviation, mean])

theorem computeTimeStat_perm {samples order : List K} (perm : order.Perm samples) (sampling : Bool) :
    computeTimeStat arith order sampling = computeTimeStat arith samples sampling := by
  have pass : order.foldl Pass.add ⟨0, arith.limitsMax, arith.limitsMin, 0, 0, 0⟩ =
      samples.foldl Pass.add ⟨0, arith.limitsMax, arith.limitsMin, 0, 0, 0⟩ := by
    rw [foldl_add, foldl_add, perm.length_eq, perm.sum_eq, (perm.map _).sum_eq, perm.foldl_eq, perm.foldl_eq]
  have within (mean sd : K) : withinSd order mean sd = withinSd samples mean sd := by
    simp only [withinSd, perm.length_eq, perm.countP_eq]
  have empty : order = [] ↔ samples = [] := ⟨fun e => (e ▸ perm).nil_eq.symm, fun e => (e ▸ perm).eq_nil⟩
  simp only [computeTimeStat, pass, within, empty]

/-! ## The order of the workers -/

theorem samplingFlag_append (samples : Worker → Bool) (before : List Worker) (w : Worker) :
    samplingFlag samples (before ++ [w]) = samples w := by
  simp [samplingFlag]

theorem samplingFlag_iff (samples discards : Worker → Bool) (workers : List Worker) :
    (∀ order, order.Perm workers → samplingFlag samples order = workers.any discards) ↔
      ∀ w ∈ workers, samples w = workers.any discards := by
  constructor
  · intro decided w member
    obtain ⟨before, after, rfl⟩ := List.append_of_mem member
    have last := decided _ ((List.perm_append_singleton w (before ++ after)).trans List.perm_middle.symm)
    rwa [samplingFlag_append] at last
  · intro each order perm
    rcases List.eq_nil_or_concat' order with rfl | ⟨before, w, rfl⟩
    · obtain rfl := perm.nil_eq
      rfl
    · rw [samplingFlag_append]
      exact each w (perm.mem_iff.mp (by simp))

theorem agree_iff {samples : Worker → Bool} {seen : Worker → Nat}
    (counts : ∀ w, samples w = true ↔ 0 < seen w) (workers : List Worker) :
    (∀ order, order.Perm workers → samplingFlag samples order = workers.any (Worker.discards seen)) ↔
      Agree seen workers := by
  rw [samplingFlag_iff]
  refine forall₂_congr fun w _ => ?_
  rw [Bool.eq_iff_iff, counts, List.any_eq_true]
  simp [Worker.discards]

theorem samplesRequests_iff (w : Worker) : w.samplesRequests = true ↔ 0 < w.requests := by
  have stored := w.requestsStored
  rw [Worker.samplesRequests, Worker.requestTimesN, decide_eq_true_iff]
  omega

theorem samplesClients_iff (w : Worker) : w.samplesClients = true ↔ 0 < w.clients := by
  have stored := w.clientsStored
  rw [Worker.samplesClients, Worker.clientN, decide_eq_true_iff]
  omega

/-- **The report does not depend on the order of the workers**, with the variance of a sample exactly if
one of them has discarded samples, exactly when each has seen some then, and none otherwise, of both kinds. -/
theorem orderFree_iff (workers : List Worker) : OrderFree arith workers ↔
      Agree Worker.requests workers ∧ Agree Worker.clients workers := by
  constructor
  · intro free
    exact ⟨(agree_iff samplesRequests_iff workers).mp free.requests,
      (agree_iff samplesClients_iff workers).mp free.clients⟩
  · rintro ⟨requests, clients⟩
    have requests := (agree_iff samplesRequests_iff workers).mpr requests
    have clients := (agree_iff samplesClients_iff workers).mpr clients
    refine ⟨requests, clients, fun order perm => ?_⟩
    have times (f : Worker → List K) := computeTimeStat_perm arith (perm.flatMap_right f)
    simp only [processTimeStats, requests order perm, clients order perm, requests workers (.refl _),
      clients workers (.refl _), times]

/-- A worker with room for one sample that has seen so many requests, of a second each. -/
def oneStored (more : Nat) : Worker where
  maxSamples := 1
  requests := more + 1
  reqStats := [⟨0, 10 ^ 9, true⟩]
  clients := 0
  clientStats := []
  requestsStored := by simp
  clientsStored := rfl

/-- **Satisfiable pole:** of two workers that have seen requests one has discarded some. -/
theorem oneDiscards_orderFree : OrderFree (K := ℚ) ⟨id, 0, 0⟩ [oneStored 1, oneStored 0] :=
  (orderFree_iff _ _).mpr ⟨by decide, by decide⟩

/-- A worker with room for a million samples. -/
def tenRequests : Worker where
  maxSamples := 1000000
  requests := 10
  reqStats := List.replicate 10 ⟨0, 10 ^ 9, true⟩
  clients := 0
  clientStats := []
  requestsStored := by decide
  clientsStored := by decide

def idle : Worker := ⟨1000000, 0, [], 0, [], by decide, by decide⟩

/-- **Refuting pole:** ten requests, none discarded, and the variance is that of a sample; next to a worker
without requests it depends on the order. -/
theorem noneDiscarded_sampled :
    samplingFlag Worker.samplesRequests [tenRequests] = true ∧
    [tenRequests].any (Worker.discards Worker.requests) = false ∧
    samplingFlag Worker.samplesRequests [tenRequests, idle] ≠
      samplingFlag Worker.samplesRequests [idle, tenRequests] := by
  decide

end H2LoadRunner.Load.TimeStatistics
