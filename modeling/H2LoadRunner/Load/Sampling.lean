/-
# Load.Sampling -- the reservoir of a worker's statistics

`sample` of `base_worker.cc` keeps at most `max_samples` of the samples it is offered: while there
is room it appends, and then it draws a number below `n`, the count of samples seen, and overwrites
the sample at that place if there is one.  `on_stream_close` and `final_cleanup`, the callers, count
the sample once more.

Counted once, every sample offered is kept in the same share of the outcomes, and only then
(`fair_iff`); the callers' second count is seen after the first request
(`oneRequest_not_fair`).
-/
import Mathlib

namespace H2LoadRunner.Load.Sampling

set_option autoImplicit false

/-! ## The sampler -/

/-- `Sampling` with the samples that are stored, each named by the number of samples before it. -/
structure Sampler where
  maxSamples : Nat
  n : Nat := 0
  stats : List Nat := []

/-- `sample`, for a draw of `uniform_int_distribution(0, n - 1)`. -/
def sample (draw : Nat) (smp : Sampler) (s : Nat) : Sampler :=
  let smp := { smp with n := smp.n + 1 }
  if smp.stats.length < smp.maxSamples then { smp with stats := smp.stats ++ [s] }
  else if draw < smp.maxSamples then { smp with stats := smp.stats.set draw s }
  else smp

/-- A caller that counts the sample so many times more. -/
def offer (again draw : Nat) (smp : Sampler) (s : Nat) : Sampler :=
  let smp := sample draw smp s
  { smp with n := smp.n + again }

def onStreamClose : Nat → Sampler → Nat → Sampler := offer 1

def finalCleanup : Nat → Sampler → Nat → Sampler := offer 1

/-- The outcomes of offering so many samples, one for each sequence of draws.  Where nothing is drawn
all draws have the same outcome. -/
def outcomes (offer : Nat → Sampler → Nat → Sampler) (maxSamples : Nat) : Nat → List Sampler
  | 0 => [⟨maxSamples, 0, []⟩]
  | k + 1 => (outcomes offer maxSamples k).flatMap fun smp =>
      (List.range (smp.n + 1)).map fun draw => offer draw smp k

/-- What a reservoir promises of `k` samples. -/
structure Fair (offer : Nat → Sampler → Nat → Sampler) (maxSamples k : Nat) : Prop where
  counted : ∀ smp ∈ outcomes offer maxSamples k, smp.n = k
  stored : ∀ smp ∈ outcomes offer maxSamples k, smp.stats.length = min k maxSamples
  evenly : ∀ s < k, ((outcomes offer maxSamples k).countP (s ∈ ·.stats) : ℚ) / (outcomes offer maxSamples k).length =
    (min k maxSamples : Nat) / k

/-! ## One offer -/

/-- What is true in every outcome of `k` offers. -/
structure Stores (again maxSamples k : Nat) (smp : Sampler) : Prop where
  limit : smp.maxSamples = maxSamples
  counted : smp.n = (again + 1) * k
  stored : smp.stats.length = min k maxSamples
  offered : ∀ s ∈ smp.stats, s < k
  nodup : smp.stats.Nodup

variable {again maxSamples k : Nat} {smp : Sampler}

theorem Stores.offer (stores : Stores again maxSamples k smp) (draw : Nat) :
    Stores again maxSamples (k + 1) (offer again draw smp k) := by
  obtain ⟨rfl, counted, stored, offered, nodup⟩ := stores
  have fresh : k ∉ smp.stats := fun member => Nat.lt_irrefl k (offered k member)
  have older s (member : s ∈ smp.stats) : s < k + 1 := Nat.lt_succ_of_lt (offered s member)
  have count : smp.n + 1 + again = (again + 1) * (k + 1) := by rw [counted]; ring
  simp only [Sampling.offer, sample]
  split_ifs with room
  · refine ⟨rfl, count, by simp; omega, ?_, ?_⟩
    · simpa [or_imp, forall_and] using older
    · simpa [List.nodup_append] using ⟨nodup, fun s member same => fresh (same ▸ member)⟩
  · refine ⟨rfl, count, by simp; omega, fun s member => ?_, nodup.set fresh⟩
    rcases List.mem_or_eq_of_mem_set member with kept | rfl
    · exact older s kept
    · exact Nat.lt_succ_self _
  · exact ⟨rfl, count, by simp; omega, older, nodup⟩

theorem stores_outcomes : ∀ smp ∈ outcomes (offer again) maxSamples k, Stores again maxSamples k smp := by
  induction k with
  | zero => simpa [outcomes] using ⟨rfl, by simp, by simp, by simp, by simp⟩
  | succ k ih =>
    intro smp member
    simp only [outcomes, List.mem_flatMap, List.mem_map] at member
    obtain ⟨before, held, draw, -, rfl⟩ := member
    exact (ih before held).offer draw

/-- The draws, of `n + 1`, after which a sample is stored. -/
def kept (again s : Nat) (smp : Sampler) (k : Nat) : Nat :=
  Nat.count (fun draw => s ∈ (offer again draw smp k).stats) (smp.n + 1)

theorem kept_of_room (stores : Stores again maxSamples k smp) (room : k < maxSamples) (s : Nat) :
    kept again s smp k = if s ∈ smp.stats ∨ s = k then smp.n + 1 else 0 := by
  have short : smp.stats.length < smp.maxSamples := by rw [stores.stored, stores.limit]; omega
  simp only [kept, offer, sample, if_pos short, List.mem_append, List.mem_singleton]
  split_ifs with held
  · exact Nat.count_of_forall fun _ _ => held
  · exact Nat.count_of_forall_not fun _ _ => held

section Full

variable (stores : Stores again maxSamples k smp) (full : maxSamples ≤ k)

include stores full

theorem stats_of_full (draw : Nat) :
    (offer again draw smp k).stats = if draw < maxSamples then smp.stats.set draw k else smp.stats := by
  have length : smp.stats.length = maxSamples := by rw [stores.stored, min_eq_right full]
  simp only [offer, sample, length, stores.limit, lt_irrefl, if_false]
  split <;> rfl

theorem kept_new : kept again k smp k = maxSamples := by
  have fresh : k ∉ smp.stats := fun member => Nat.lt_irrefl k (stores.offered k member)
  have length : smp.stats.length = maxSamples := by rw [stores.stored, min_eq_right full]
  obtain ⟨rest, draws⟩ : ∃ rest, smp.n + 1 = maxSamples + rest := by
    refine Nat.exists_eq_add_of_le (Nat.le_succ_of_le (full.trans ?_))
    rw [stores.counted]
    exact Nat.le_mul_of_pos_left k (Nat.succ_pos again)
  simp only [kept, stats_of_full stores full, draws, Nat.count_add]
  rw [Nat.count_of_forall, Nat.count_of_forall_not, Nat.add_zero]
  · intro draw _
    rwa [if_neg (by omega)]
  · intro draw inside
    rw [if_pos inside]
    exact List.mem_set (by omega) k

theorem kept_old {s : Nat} (older : s < k) : kept again s smp k = if s ∈ smp.stats then smp.n else 0 := by
  have length : smp.stats.length = maxSamples := by rw [stores.stored, min_eq_right full]
  simp only [kept, stats_of_full stores full]
  split_ifs with held
  · obtain ⟨i, inside, rfl⟩ := List.getElem_of_mem held
    have survives (draw : Nat) :
        smp.stats[i] ∈ (if draw < maxSamples then smp.stats.set draw k else smp.stats) ↔ draw ≠ i := by
      split_ifs with drawn
      · simp only [List.mem_iff_getElem, List.length_set, List.getElem_set]
        refine ⟨?_, fun apart => ⟨i, inside, if_neg apart⟩⟩
        rintro ⟨j, bound, same⟩ rfl
        split_ifs at same with here
        · exact Nat.lt_irrefl _ (same ▸ older)
        · exact here (stores.nodup.getElem_inj_iff.mp same).symm
      · exact ⟨fun _ here => drawn (by omega), fun _ => held⟩
    obtain ⟨rest, draws⟩ : ∃ rest, smp.n = i + rest := by
      refine Nat.exists_eq_add_of_le (inside.le.trans ?_)
      rw [length, stores.counted]
      exact full.trans (Nat.le_mul_of_pos_left k (Nat.succ_pos again))
    simp only [survives, draws, Nat.add_assoc, Nat.count_add, Nat.add_comm rest 1]
    rw [Nat.count_of_forall fun _ => Nat.ne_of_lt, Nat.count_of_forall (n := rest) fun _ _ => by omega]
    simp [Nat.count_succ]
  · refine Nat.count_of_forall_not fun draw _ => ?_
    split
    · intro member
      rcases List.mem_or_eq_of_mem_set member with old | rfl
      · exact held old
      · exact Nat.lt_irrefl _ older
    · exact held

end Full

/-! ## All outcomes -/

theorem sum_map_eq_countP {l : List Sampler} {f : Sampler → Nat} {p : Sampler → Bool} {c : Nat}
    (each : ∀ smp ∈ l, f smp = if p smp then c else 0) : (l.map f).sum = l.countP p * c := by
  induction l with
  | nil => simp
  | cons smp rest ih =>
    obtain ⟨here, later⟩ := List.forall_mem_cons.mp each
    rw [List.map_cons, List.sum_cons, here, ih later, List.countP_cons]
    split_ifs <;> ring

theorem countP_outcomes_succ (s : Nat) :
    (outcomes (offer again) maxSamples (k + 1)).countP (s ∈ ·.stats) =
      ((outcomes (offer again) maxSamples k).map fun smp => kept again s smp k).sum := by
  rw [outcomes, List.countP_flatMap]
  refine congrArg List.sum (List.map_congr_left fun smp _ => ?_)
  simp only [Function.comp, List.countP_map]
  rfl

theorem length_outcomes_succ :
    (outcomes (offer again) maxSamples (k + 1)).length =
      (outcomes (offer again) maxSamples k).length * ((again + 1) * k + 1) := by
  rw [outcomes, List.length_flatMap, ← List.countP_true]
  refine sum_map_eq_countP fun smp member => ?_
  simp [(stores_outcomes smp member).counted]

/-- Counted once, each sample is stored in the same share of the outcomes. -/
theorem evenly_outcomes {s : Nat} (offered : s < k) :
    (outcomes (offer 0) maxSamples k).countP (s ∈ ·.stats) * k =
      (outcomes (offer 0) maxSamples k).length * min k maxSamples := by
  induction k with
  | zero => omega
  | succ k ih =>
    have draws {smp} (member : smp ∈ outcomes (offer 0) maxSamples k) : smp.n = k := by
      rw [(stores_outcomes smp member).counted]; ring
    rw [countP_outcomes_succ, length_outcomes_succ]
    by_cases full : maxSamples ≤ k
    · by_cases new : s = k
      · subst new
        rw [sum_map_eq_countP (p := fun _ => true) (c := maxSamples) fun smp member => ?_]
        · rw [List.countP_true, min_eq_right (by omega)]
          ring
        · simp [kept_new (stores_outcomes smp member) full]
      · have older : s < k := by omega
        have before := ih older
        rw [sum_map_eq_countP (p := (s ∈ ·.stats)) (c := k) fun smp member => ?_]
        · rw [min_eq_right full] at before
          rw [min_eq_right (by omega), before]
          ring
        · simp [kept_old (stores_outcomes smp member) full older, draws member]
    · have all : ∀ smp ∈ outcomes (offer 0) maxSamples k, s ∈ smp.stats ∨ s = k := by
        by_cases new : s = k
        · exact fun _ _ => .inr new
        · have before := ih (by omega)
          rw [min_eq_left (by omega)] at before
          have every := List.countP_eq_length.mp (Nat.eq_of_mul_eq_mul_right (by omega) before)
          exact fun smp member => .inl (by simpa using every smp member)
      rw [sum_map_eq_countP (p := fun _ => true) (c := k + 1) fun smp member => ?_]
      · rw [List.countP_true, min_eq_left (by omega)]
        ring
      · simp [kept_of_room (stores_outcomes smp member) (by omega), draws member, all smp member]

theorem outcomes_ne_nil (again maxSamples k : Nat) : outcomes (offer again) maxSamples k ≠ [] := by
  induction k with
  | zero => simp [outcomes]
  | succ k ih =>
    rw [← List.length_pos_iff] at ih ⊢
    rw [length_outcomes_succ]
    exact Nat.mul_pos ih (Nat.succ_pos _)

/-- **The reservoir is fair** to every sequence of samples exactly when its caller does not count them
again, or nothing is offered. -/
theorem fair_iff (again maxSamples k : Nat) : Fair (offer again) maxSamples k ↔ again = 0 ∨ k = 0 := by
  constructor
  · intro fair
    obtain ⟨smp, member⟩ := List.exists_mem_of_ne_nil _ (outcomes_ne_nil again maxSamples k)
    have once := (stores_outcomes smp member).counted.symm.trans (fair.counted smp member)
    rw [Nat.succ_mul] at once
    exact Nat.mul_eq_zero.mp (by omega)
  · intro once
    refine ⟨fun smp member => ?_, fun smp member => (stores_outcomes smp member).stored, fun s offered => ?_⟩
    · rw [(stores_outcomes smp member).counted]
      rcases once with rfl | rfl <;> ring
    · obtain rfl : again = 0 := once.resolve_right (by omega)
      have filled : ((outcomes (offer 0) maxSamples k).length : ℚ) ≠ 0 := by simpa using outcomes_ne_nil 0 maxSamples k
      have some : (k : ℚ) ≠ 0 := Nat.cast_ne_zero.mpr (by omega)
      rw [div_eq_div_iff filled some, mul_comm (Nat.cast (min k maxSamples))]
      exact_mod_cast evenly_outcomes offered

/-- **Refuting pole:** after one request `n` is two. -/
theorem oneRequest_not_fair : ¬ ∀ maxSamples k, Fair onStreamClose maxSamples k := by
  intro always
  have counted := (always 1 1).counted
  revert counted
  decide

end H2LoadRunner.Load.Sampling
