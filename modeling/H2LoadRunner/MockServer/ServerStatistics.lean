/-
# MockServer.ServerStatistics -- the totals of the statistics thread

Once a second `start_statistic_thread` adds up the counters of the server's threads and prints the
totals with what they grew by.  `std::accumulate` is given the literal `0` and so adds in an `int`,
also where its lambda takes and returns `uint64_t`.

A sum that fits in 64 bits survives the `int` exactly when it is below `2 ^ 31` or, with its sign
extended again, among the last `2 ^ 31` values (`toNat_accumulate_eq_iff`).  So what the thread
reports is the report in natural numbers exactly when every reading stays in that range
(`report_exact_iff`); `2 ^ 31` requests are enough to leave it (`manyRequests_not_exact`).
-/
import Mathlib

namespace H2LoadRunner.MockServer.ServerStatistics

set_option autoImplicit false

/-! ## Adding up -/

/-- `std::accumulate(values.begin(), values.end(), 0)`: an `int` widened to `uint64_t` for each
addition, narrowed again, and widened for the result. -/
def accumulate (values : List (BitVec 64)) : BitVec 64 :=
  (values.foldl (fun sum value => (sum.signExtend 64 + value).setWidth 32) 0#32).signExtend 64

def exactSum (values : List (BitVec 64)) : Nat := (values.map BitVec.toNat).sum

theorem setWidth_signExtend_add (sum : BitVec 32) (value : BitVec 64) :
    (sum.signExtend 64 + value).setWidth 32 = sum + value.setWidth 32 := by
  have same : (sum.signExtend 64).setWidth 32 = sum := by
    ext i inside
    simp [BitVec.getElem_signExtend, inside, show i < 64 by omega]
  rw [BitVec.setWidth_add _ _ (by decide), same]

theorem foldl_narrow (values : List (BitVec 64)) (sum : BitVec 32) :
    (values.foldl (fun sum value => (sum.signExtend 64 + value).setWidth 32) sum).toNat =
      (sum.toNat + exactSum values) % 2 ^ 32 := by
  induction values generalizing sum with
  | nil => simp [exactSum, Nat.mod_eq_of_lt sum.isLt]
  | cons value rest ih =>
    rw [List.foldl_cons, ih, setWidth_signExtend_add]
    simp [exactSum, BitVec.toNat_add, Nat.add_assoc]

/-- A sum that an `int` can hold, also as the bits of a negative one. -/
def InInt (sum : Nat) : Prop := sum < 2 ^ 31 ∨ 2 ^ 64 - 2 ^ 31 ≤ sum

theorem toNat_accumulate_eq_iff {values : List (BitVec 64)} (fits : exactSum values < 2 ^ 64) :
    (accumulate values).toNat = exactSum values ↔ InInt (exactSum values) := by
  have narrow := foldl_narrow values 0#32
  rw [accumulate, BitVec.toNat_signExtend, BitVec.msb_eq_decide, InInt]
  simp only [BitVec.toNat_setWidth, narrow]
  simp only [BitVec.toNat_ofNat]
  split_ifs with negative <;> simp at negative <;> omega

theorem exactSum_le {a b : List (BitVec 64)} (grow : List.Forall₂ (· ≤ ·) a b) : exactSum a ≤ exactSum b := by
  induction grow with
  | nil => rfl
  | cons le _ ih =>
    simp only [exactSum, List.map_cons, List.sum_cons] at ih ⊢
    have := BitVec.le_def.mp le
    omega

/-! ## The thread -/

structure ResponseStatistics where
  responseSent : BitVec 64
  responseThrottled : BitVec 64

variable {services : Nat} (responses : Fin services → Nat)

/-- What the threads have counted: a counter for each thread, and two for each thread and response of
each service. -/
structure Counters where
  totalReqsReceived : List (BitVec 64)
  totalUnMatchedResponses : List (BitVec 64)
  respStats : (service : Fin services) → Fin (responses service) → List ResponseStatistics

/-- The `till_now` variables with a call of `std::accumulate`. -/
inductive Accumulated where
  | reqReceived
  | unmatchedResponses
  | respSent (service : Fin services) (response : Fin (responses service))
  | respThrottled (service : Fin services) (response : Fin (responses service))

inductive Total where
  | accumulated (which : Accumulated responses)
  | respSent
  | respThrottled

/-- One round of the loop: the totals before and after, their differences, and `delta_Resp`. -/
structure Interval (α : Type) where
  tillLast : Total responses → α
  tillNow : Total responses → α
  difference : Total responses → α
  deltaResp : α

variable {responses} {α : Type}

def Counters.vector (c : Counters responses) : Accumulated responses → List (BitVec 64)
  | .reqReceived => c.totalReqsReceived
  | .unmatchedResponses => c.totalUnMatchedResponses
  | .respSent i j => (c.respStats i j).map (·.responseSent)
  | .respThrottled i j => (c.respStats i j).map (·.responseThrottled)

/-- The totals of one reading, `total` for the calls of `std::accumulate`. -/
def Counters.totals [AddCommMonoid α] (total : List (BitVec 64) → α) (c : Counters responses) :
    Total responses → α
  | .accumulated which => total (c.vector which)
  | .respSent => ∑ i, ∑ j, total (c.vector (.respSent i j))
  | .respThrottled => ∑ i, ∑ j, total (c.vector (.respThrottled i j))

def statsFunc [AddCommMonoid α] [Sub α] (total : List (BitVec 64) → α) :
    (Total responses → α) → List (Counters responses) → List (Interval responses α)
  | _, [] => []
  | tillLast, c :: rest =>
    let tillNow := c.totals total
    { tillLast := tillLast
      tillNow := tillNow
      difference := fun t => tillNow t - tillLast t
      deltaResp := tillNow .respSent + tillNow .respThrottled - tillLast .respSent -
        tillLast .respThrottled } :: statsFunc total tillNow rest

def report (readings : List (Counters responses)) : List (Interval responses (BitVec 64)) :=
  statsFunc accumulate (fun _ => 0) readings

/-- The same with sums and differences of natural numbers. -/
def exactReport (readings : List (Counters responses)) : List (Interval responses Nat) :=
  statsFunc exactSum (fun _ => 0) readings

/-! ## The exact report -/

/-- The totals are the exact ones, they do not fall, and no difference wraps. -/
structure Interval.Exact (a : Interval responses (BitVec 64)) (b : Interval responses Nat) : Prop where
  tillNow : ∀ t, (a.tillNow t).toNat = b.tillNow t
  monotone : ∀ t, a.tillLast t ≤ a.tillNow t
  difference : ∀ t, (a.difference t).toNat = b.difference t
  deltaResp : a.deltaResp.toNat = b.deltaResp

/-- The counters of the later reading are at least those of the earlier one. -/
def Counters.Le (a b : Counters responses) : Prop :=
  ∀ which, List.Forall₂ (· ≤ ·) (a.vector which) (b.vector which)

structure Counters.Fits (c : Counters responses) : Prop where
  accumulated : ∀ which, exactSum (c.vector which) < 2 ^ 64
  responses : c.totals exactSum .respSent + c.totals exactSum .respThrottled < 2 ^ 64

theorem Counters.Le.totals {a b : Counters responses} (le : a.Le b) (t : Total responses) :
    a.totals exactSum t ≤ b.totals exactSum t := by
  cases t with
  | accumulated which => exact exactSum_le (le which)
  | respSent => exact Finset.sum_le_sum fun i _ => Finset.sum_le_sum fun j _ => exactSum_le (le _)
  | respThrottled => exact Finset.sum_le_sum fun i _ => Finset.sum_le_sum fun j _ => exactSum_le (le _)

theorem toNat_sum {ι : Type} (s : Finset ι) (f : ι → BitVec 64) :
    (∑ i ∈ s, f i).toNat = (∑ i ∈ s, (f i).toNat) % 2 ^ 64 := by
  classical
  induction s using Finset.induction_on with
  | empty => simp
  | insert i s new ih => simp [Finset.sum_insert new, BitVec.toNat_add, ih]

/-- One reading: the totals are exact exactly when the sums pass through the `int`. -/
theorem Counters.Fits.totals_iff {c : Counters responses} (fits : c.Fits) :
    (∀ t, (c.totals accumulate t).toNat = c.totals exactSum t) ↔
      ∀ which, InInt (exactSum (c.vector which)) := by
  constructor
  · intro exact which
    exact (toNat_accumulate_eq_iff (fits.accumulated which)).mp (exact (.accumulated which))
  · intro inInt
    have each which := (toNat_accumulate_eq_iff (fits.accumulated which)).mpr (inInt which)
    have sums := fits.responses
    simp only [Counters.totals] at sums
    rintro (which | _ | _)
    · exact each which
    all_goals
      simp only [Counters.totals, toNat_sum, each, ← Finset.sum_nat_mod]
      omega

theorem exact_round {last now : Total responses → BitVec 64} {lastSums nowSums : Total responses → Nat}
    (before : ∀ t, (last t).toNat = lastSums t) (after : ∀ t, (now t).toNat = nowSums t)
    (le : ∀ t, lastSums t ≤ nowSums t) (fits : nowSums .respSent + nowSums .respThrottled < 2 ^ 64) :
    Interval.Exact ⟨last, now, fun t => now t - last t,
        now .respSent + now .respThrottled - last .respSent - last .respThrottled⟩
      ⟨lastSums, nowSums, fun t => nowSums t - lastSums t,
        nowSums .respSent + nowSums .respThrottled - lastSums .respSent - lastSums .respThrottled⟩ := by
  have monotone t : last t ≤ now t := by
    rw [BitVec.le_def, before, after]
    exact le t
  refine ⟨after, monotone, fun t => ?_, ?_⟩
  · simp [BitVec.toNat_sub_of_le (monotone t), before, after]
  · have sent := le .respSent
    have throttled := le .respThrottled
    simp only [BitVec.toNat_sub, BitVec.toNat_add, before, after]
    omega

theorem statsFunc_exact {readings : List (Counters responses)} {last : Total responses → BitVec 64}
    {lastSums : Total responses → Nat} (grow : readings.IsChain Counters.Le)
    (fits : ∀ c ∈ readings, c.Fits) (inInt : ∀ c ∈ readings, ∀ which, InInt (exactSum (c.vector which)))
    (before : ∀ t, (last t).toNat = lastSums t)
    (le : ∀ c ∈ readings.head?, ∀ t, lastSums t ≤ c.totals exactSum t) :
    List.Forall₂ Interval.Exact (statsFunc accumulate last readings)
      (statsFunc exactSum lastSums readings) := by
  induction readings generalizing last lastSums with
  | nil => exact .nil
  | cons c rest ih =>
    have here := List.mem_cons_self (a := c) (l := rest)
    have after := (fits c here).totals_iff.mpr (inInt c here)
    refine .cons (exact_round before after (le c rfl) (fits c here).responses) ?_
    refine ih grow.tail (fun d member => fits d (List.mem_cons_of_mem c member))
      (fun d member => inInt d (List.mem_cons_of_mem c member)) after fun d head => ?_
    cases rest with
    | nil => cases head
    | cons next rest =>
      cases head
      exact (List.isChain_cons_cons.mp grow).1.totals

theorem totals_exact_of_report {readings : List (Counters responses)}
    {last : Total responses → BitVec 64} {lastSums : Total responses → Nat}
    (exact : List.Forall₂ Interval.Exact (statsFunc accumulate last readings)
      (statsFunc exactSum lastSums readings)) (c : Counters responses) (member : c ∈ readings)
    (t : Total responses) : (c.totals accumulate t).toNat = c.totals exactSum t := by
  induction readings generalizing last lastSums with
  | nil => cases member
  | cons d rest ih =>
    obtain ⟨first, others⟩ := List.forall₂_cons.mp exact
    rcases List.mem_cons.mp member with rfl | later
    · exact first.tillNow t
    · exact ih others later

/-- **The report is exact exactly in range**: for counters that only grow and whose sums fit in 64 bits,
exactly when every sum taken with `std::accumulate` passes through the `int`. -/
theorem report_exact_iff (readings : List (Counters responses)) (grow : readings.IsChain Counters.Le)
    (fits : ∀ c ∈ readings, c.Fits) : List.Forall₂ Interval.Exact (report readings) (exactReport readings) ↔
      ∀ c ∈ readings, ∀ which, InInt (exactSum (c.vector which)) := by
  constructor
  · intro exact c member
    exact (fits c member).totals_iff.mp (totals_exact_of_report exact c member)
  · intro inInt
    exact statsFunc_exact grow fits inInt (fun _ => rfl) fun _ _ _ => Nat.zero_le _

/-- Two threads of a server with two services, one with one response and one with two. -/
def twoThreads (received : BitVec 64) : Counters fun service : Fin 2 => service.val + 1 :=
  ⟨[received, 1], [0, 1], fun _ _ => [⟨2, 0⟩, ⟨3, 1⟩]⟩

theorem vector_twoThreads (received : BitVec 64) (which : Accumulated fun service : Fin 2 => service.val + 1) :
    (twoThreads received).vector which = [received, 1] ∨ (twoThreads received).vector which = [0, 1] ∨
      (twoThreads received).vector which = [2, 3] := by
  cases which with
  | reqReceived => exact .inl rfl
  | unmatchedResponses => exact .inr (.inl rfl)
  | respSent => exact .inr (.inr rfl)
  | respThrottled => exact .inr (.inl rfl)

theorem fits_twoThreads {received : BitVec 64} (below : received.toNat < 2 ^ 32) : (twoThreads received).Fits := by
  refine ⟨fun which => ?_, ?_⟩
  · rcases vector_twoThreads received which with same | same | same <;>
      simp [same, exactSum]
    omega
  · simp only [Counters.totals, Counters.vector, twoThreads]
    decide

/-- **Satisfiable pole:** up to the last sum an `int` can hold. -/
theorem fewRequests_exact : List.Forall₂ Interval.Exact (report [twoThreads 5, twoThreads (2 ^ 31 - 2)])
      (exactReport [twoThreads 5, twoThreads (2 ^ 31 - 2)]) := by
  refine (report_exact_iff _ (.cons_cons ?_ (.singleton _)) ?_).mpr ?_
  · intro which
    cases which <;> exact .cons (by decide) (.cons (by decide) .nil)
  · simp [fits_twoThreads]
  · simp only [List.forall_mem_cons, List.not_mem_nil, false_imp_iff, implies_true, and_true]
    constructor <;> intro which <;> left <;>
      rcases vector_twoThreads _ which with same | same | same <;> rw [same] <;> decide

/-- **Refuting pole:** one request more. -/
theorem manyRequests_not_exact :
    ¬ ∀ readings : List (Counters fun service : Fin 2 => service.val + 1), readings.IsChain Counters.Le →
      (∀ c ∈ readings, c.Fits) → List.Forall₂ Interval.Exact (report readings) (exactReport readings) := by
  intro always
  have exact := always [twoThreads (2 ^ 31 - 1)] (.singleton _) (by simp [fits_twoThreads])
  have received := (List.forall₂_cons.mp exact).1.tillNow (.accumulated .reqReceived)
  exact absurd received (by decide)

end H2LoadRunner.MockServer.ServerStatistics
