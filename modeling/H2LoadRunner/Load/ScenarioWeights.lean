/-
# Load.ScenarioWeights -- how often a scenario is chosen

`get_index_of_next_scenario_to_run` gives scenario `i` the share `weight_i * M / requests_i` of the
numbers it draws from, where `M` is a common multiple of the request counts, so that the requests of
the scenarios are in proportion to their weights.

* `draws_proportional`: as long as the arithmetic stays in its types, the numbers that choose a
  scenario are as many as its share, and the share times its requests is its weight times `M`.
* `inRange_iff_fits`: whether the arithmetic stays in its types, for every list of scenarios that the
  schema admits.
-/
import H2LoadRunner.Load.DelayedScenarios

namespace H2LoadRunner.Load.DelayedScenarios

open Library Library.Transition
open Library.Lots (Ends ends_nil upperBound)

set_option autoImplicit false

variable {map : List (Nat × Nat)} {input : List Nat}

def counts (scenarios : List Scenario) : List Nat := scenarios.map Scenario.requests

def scale (scenarios : List Scenario) : Nat := Lots.multiple (counts scenarios).toFinset

/-- The share of a scenario, where `multiple` is the common multiple. -/
def share (multiple : Nat) (scenario : Scenario) : Nat :=
  scenario.weight * multiple / scenario.requests

def shares (scenarios : List Scenario) : List Nat := scenarios.map (share (scale scenarios))

/-- The products and the total are within their types. -/
structure Fits (scenarios : List Scenario) : Prop where
  products : ∀ scenario ∈ scenarios, scenario.weight * scale scenarios < sizeMax
  total : (shares scenarios).sum ≤ 2 ^ 31

/-! ## The common multiple -/

def descending (input : List Nat) : List Nat := input.dedup.insertionSort (· ≥ ·)

theorem addMaximal_covers {seen kept : List Nat} {val : Nat} (covers : Lots.Covers seen kept)
    (positive : 0 < val) (less : ∀ n ∈ seen, val < n) :
    ∃ after, addMaximal kept val = .ok after ∧ Lots.Covers (seen ++ [val]) after := by
  have divides : (kept.any fun inSet => decide (1 ≤ inSet / val) && inSet % val == 0) = true ↔
      ∃ m ∈ kept, val ∣ m := by
    simp only [List.any_eq_true, Bool.and_eq_true, decide_eq_true_eq, beq_iff_eq]
    refine exists_congr fun m => and_congr_right fun member => ?_
    constructor
    · exact fun both => Nat.dvd_of_mod_eq_zero both.2
    · intro dvd
      refine ⟨?_, Nat.mod_eq_zero_of_dvd dvd⟩
      exact (Nat.one_le_div_iff positive).mpr (less m (covers.mem_seen m member)).le
  unfold addMaximal
  by_cases empty : kept = []
  · rw [if_pos empty]
    subst empty
    exact ⟨[val], rfl, covers.keep positive less (by simp)⟩
  · rw [if_neg empty, if_neg positive.ne']
    by_cases found : ∃ m ∈ kept, val ∣ m
    · rw [if_pos (divides.mpr found)]
      exact ⟨kept, rfl, covers.skip positive less found⟩
    · rw [if_neg (mt divides.mp found)]
      exact ⟨val :: kept, rfl, covers.keep positive less found⟩

theorem foldlM_addMaximal {rest seen kept : List Nat} (covers : Lots.Covers seen kept)
    (positive : ∀ val ∈ rest, 0 < val) (sorted : (seen ++ rest).Pairwise (· > ·)) :
    ∃ final, rest.foldlM addMaximal kept = .ok final ∧ Lots.Covers (seen ++ rest) final := by
  induction rest generalizing seen kept with
  | nil => exact ⟨kept, rfl, by rwa [List.append_nil]⟩
  | cons val rest ih =>
    have less : ∀ n ∈ seen, val < n := fun n member =>
      (List.pairwise_append.mp sorted).2.2 n member val List.mem_cons_self
    obtain ⟨after, added, covers⟩ := addMaximal_covers covers (positive val List.mem_cons_self) less
    have split : seen ++ val :: rest = (seen ++ [val]) ++ rest := by simp
    rw [split] at sorted ⊢
    obtain ⟨final, folded, covers⟩ :=
      ih covers (fun n member => positive n (List.mem_cons_of_mem _ member)) sorted
    refine ⟨final, ?_, covers⟩
    rw [List.foldlM_cons, added]
    exact folded

theorem pairwise_descending (input : List Nat) : (descending input).Pairwise (· > ·) := by
  have sorted : (descending input).Pairwise (· ≥ ·) := List.pairwise_insertionSort _ _
  have nodup : (descending input).Pairwise (· ≠ ·) :=
    (List.perm_insertionSort (· ≥ ·) input.dedup).nodup_iff.mpr input.nodup_dedup
  exact (sorted.and nodup).imp fun both => lt_of_le_of_ne both.1 both.2.symm

theorem mem_descending {val : Nat} : val ∈ descending input ↔ val ∈ input := by
  rw [descending, (List.perm_insertionSort (· ≥ ·) input.dedup).mem_iff, List.mem_dedup]

theorem exists_final (positive : ∀ val ∈ input, 0 < val) :
    ∃ final, (descending input).foldlM addMaximal [] = .ok final ∧ Lots.Covers (descending input) final := by
  obtain ⟨final, folded, covers⟩ := foldlM_addMaximal Lots.Covers.nil
    (fun val member => positive val (mem_descending.mp member)) (pairwise_descending input)
  exact ⟨final, folded, covers⟩

theorem prod_final {final : List Nat} (covers : Lots.Covers (descending input) final) :
    final.prod = Lots.multiple input.toFinset := by
  rw [covers.prod_eq]
  congr 1
  ext val
  rw [List.mem_toFinset, List.mem_toFinset, mem_descending]

theorem foldl_mul_mod (final : List Nat) (product : Nat) :
    final.foldl (fun product val => product * val % sizeMax) (product % sizeMax) =
      product * final.prod % sizeMax := by
  induction final generalizing product with
  | nil => rw [List.foldl_nil, List.prod_nil, Nat.mul_one]
  | cons val final ih =>
    have step : product % sizeMax * val % sizeMax = product * val % sizeMax := Nat.mod_mul_mod _ _ _
    rw [List.foldl_cons, step, ih, List.prod_cons, Nat.mul_assoc]

theorem findCommonMultiple_eq (positive : ∀ val ∈ input, 0 < val) :
    findCommonMultiple input = .ok (Lots.multiple input.toFinset % sizeMax) := by
  obtain ⟨final, folded, covers⟩ := exists_final positive
  have product := foldl_mul_mod final 1
  rw [Nat.one_mul, prod_final covers] at product
  unfold findCommonMultiple
  rw [show (input.dedup.insertionSort (· ≥ ·)).foldlM addMaximal [] = .ok final from folded]
  exact congrArg Except.ok product

/-- **`find_common_multiple` gives a positive multiple of every element**, the same for every list with
these elements, where the product of what its loop keeps is within 64 bits. -/
theorem findCommonMultiple_correct (positive : ∀ val ∈ input, 0 < val)
    (fits : ∀ final, (descending input).foldlM addMaximal [] = .ok final → final.prod < sizeMax) :
    ∃ multiple, findCommonMultiple input = .ok multiple ∧ 0 < multiple ∧ (∀ val ∈ input, val ∣ multiple) ∧
      ∀ other : List Nat, (∀ val, val ∈ other ↔ val ∈ input) → findCommonMultiple other = .ok multiple := by
  obtain ⟨final, folded, covers⟩ := exists_final positive
  have small := fits final folded
  rw [prod_final covers] at small
  have found := findCommonMultiple_eq positive
  rw [Nat.mod_eq_of_lt small] at found
  refine ⟨_, found, Lots.multiple_pos (by simpa using positive), fun val member => ?_, fun other same => ?_⟩
  · rw [← prod_final covers]
    exact covers.dvd_prod (mem_descending.mpr member)
  · have elements : other.toFinset = input.toFinset := by
      ext val
      simpa using same val
    have again := findCommonMultiple_eq fun val member => positive val ((same val).mp member)
    rwa [elements, Nat.mod_eq_of_lt small] at again

/-- **Satisfiable pole:** sizes of which one divides another. -/
theorem fourSixTwelve_common : ∃ multiple, findCommonMultiple [4, 6, 12, 6] = .ok multiple ∧ 0 < multiple ∧
      (∀ val ∈ [4, 6, 12, 6], val ∣ multiple) ∧ ∀ other : List Nat, (∀ val, val ∈ other ↔ val ∈ [4, 6, 12, 6]) →
        findCommonMultiple other = .ok multiple :=
  findCommonMultiple_correct (by decide) fun final kept => by
    rw [show (descending [4, 6, 12, 6]).foldlM addMaximal [] = .ok [12] by decide] at kept
    cases kept
    decide

/-! ## The schedule -/

section Building

variable {scenarios : List Scenario}

theorem positive_counts (requests : ∀ scenario ∈ scenarios, 0 < scenario.requests) :
    ∀ val ∈ counts scenarios, 0 < val := by
  intro val member
  obtain ⟨scenario, listed, rfl⟩ := List.mem_map.mp member
  exact requests scenario listed

theorem dvd_scale (requests : ∀ scenario ∈ scenarios, 0 < scenario.requests) {scenario : Scenario}
    (listed : scenario ∈ scenarios) : scenario.requests ∣ scale scenarios := by
  obtain ⟨final, -, covers⟩ := exists_final (positive_counts requests)
  rw [scale, ← prod_final covers]
  exact covers.dvd_prod (mem_descending.mpr (List.mem_map_of_mem listed))

theorem scale_pos (requests : ∀ scenario ∈ scenarios, 0 < scenario.requests) : 0 < scale scenarios :=
  Lots.multiple_pos fun val member => positive_counts requests val (List.mem_toFinset.mp member)

theorem share_mul_requests (requests : ∀ scenario ∈ scenarios, 0 < scenario.requests)
    {scenario : Scenario} (listed : scenario ∈ scenarios) :
    share (scale scenarios) scenario * scenario.requests = scenario.weight * scale scenarios :=
  Nat.div_mul_cancel ((dvd_scale requests listed).mul_left _)

theorem share_pos (requests : ∀ scenario ∈ scenarios, 0 < scenario.requests) {scenario : Scenario}
    (listed : scenario ∈ scenarios) (weighs : 0 < scenario.weight) : 0 < share (scale scenarios) scenario := by
  have product := Nat.mul_pos weighs (scale_pos requests)
  rw [← share_mul_requests requests listed] at product
  exact Nat.pos_of_mul_pos_right product

/-- Within its types the loop of `init_schedule_map` lists the ends of the shares. -/
theorem initScheduleMap_ends {all rest : List Scenario} (multiple index : Nat)
    (shared : ∀ scenario ∈ all, 0 < scenario.weight →
      0 < scenario.requests ∧ 0 < share multiple scenario ∧ scenario.weight * multiple < sizeMax)
    (total : (all.map (share multiple)).sum < sizeMax)
    (weighted : 0 < (all.map (share multiple)).sum) (behind : all.drop index = rest)
    (inside : index ≤ all.length) (ends : Ends (all.map (share multiple)) index map) :
    ∃ result, initScheduleMap multiple index (Lots.start (all.map (share multiple)) index) map rest =
        .ok result ∧ Ends (all.map (share multiple)) all.length result := by
  induction rest generalizing index map with
  | nil =>
    have all' : index = all.length := Nat.le_antisymm inside (List.drop_eq_nil_iff.mp behind)
    subst all'
    have sum : Lots.start (all.map (share multiple)) all.length = (all.map (share multiple)).sum := by
      rw [← Lots.start_length, List.length_map]
    obtain ⟨i, member⟩ := ends.last (by rwa [sum])
    refine ⟨map, ?_, ends⟩
    rw [initScheduleMap, if_neg (List.ne_nil_of_mem member)]
  | cons scenario rest ih =>
    have found : all[index]? = some scenario := by
      rw [← List.head?_drop, behind]
      rfl
    have listed := List.mem_of_getElem? found
    have further : all.drop (index + 1) = rest := by
      rw [← List.tail_drop, behind]
      rfl
    have inside' : index + 1 ≤ all.length := (List.getElem?_eq_some_iff.mp found).1
    have shareAt : (all.map (share multiple))[index]? = some (share multiple scenario) := by
      rw [List.getElem?_map, found]
      rfl
    rw [initScheduleMap]
    by_cases weighs : 0 < scenario.weight
    · obtain ⟨requests, positive, product⟩ := shared scenario listed weighs
      have next : (Lots.start (all.map (share multiple)) index +
          scenario.weight * multiple % sizeMax / scenario.requests) % sizeMax =
            Lots.start (all.map (share multiple)) (index + 1) := by
        rw [Nat.mod_eq_of_lt product, Lots.start_succ shareAt]
        refine Nat.mod_eq_of_lt ?_
        rw [← share, ← Lots.start_succ shareAt]
        exact (Lots.start_le_sum _ _).trans_lt total
      rw [if_pos weighs, if_neg requests.ne']
      dsimp only
      rw [next]
      exact ih (index + 1) further inside' (ends.assign shareAt positive)
    · have empty : share multiple scenario = 0 := by
        rw [share, Nat.eq_zero_of_not_pos weighs, Nat.zero_mul, Nat.zero_div]
      rw [if_neg weighs]
      rw [empty] at shareAt
      have same : Lots.start (all.map (share multiple)) (index + 1) =
        Lots.start (all.map (share multiple)) index := Lots.start_succ shareAt
      rw [← same]
      exact ih (index + 1) further inside' (ends.skip shareAt)

theorem sum_shares_pos (requests : ∀ scenario ∈ scenarios, 0 < scenario.requests)
    (weighted : ∃ scenario ∈ scenarios, 0 < scenario.weight) : 0 < (shares scenarios).sum := by
  obtain ⟨scenario, listed, weighs⟩ := weighted
  exact (share_pos requests listed weighs).trans_le
    (List.single_le_sum (by simp) _ (List.mem_map_of_mem listed))

theorem scale_lt (weighted : ∃ scenario ∈ scenarios, 0 < scenario.weight)
    (products : ∀ scenario ∈ scenarios, scenario.weight * scale scenarios < sizeMax) :
    scale scenarios < sizeMax := by
  obtain ⟨scenario, listed, weighs⟩ := weighted
  exact (Nat.le_mul_of_pos_left _ weighs).trans_lt (products scenario listed)

theorem findCommonMultiple_scale (requests : ∀ scenario ∈ scenarios, 0 < scenario.requests)
    (small : scale scenarios < sizeMax) :
    findCommonMultiple (scenarios.map Scenario.requests) = .ok (scale scenarios) := by
  have found := findCommonMultiple_eq (positive_counts requests)
  rwa [← scale, Nat.mod_eq_of_lt small] at found

theorem buildSchedule_ends (sequence : Nat) (requests : ∀ scenario ∈ scenarios, 0 < scenario.requests)
    (weighted : ∃ scenario ∈ scenarios, 0 < scenario.weight)
    (products : ∀ scenario ∈ scenarios, scenario.weight * scale scenarios < sizeMax)
    (total : (shares scenarios).sum < sizeMax) : ∃ map, buildSchedule scenarios sequence = .ok ⟨sequence, map⟩ ∧
      Ends (shares scenarios) (shares scenarios).length map := by
  obtain ⟨map, built, ends⟩ := initScheduleMap_ends (scale scenarios) 0
    (fun scenario listed weighs => ⟨requests scenario listed, share_pos requests listed weighs,
      products scenario listed⟩) total (sum_shares_pos requests weighted) rfl (Nat.zero_le _)
    (ends_nil _)
  rw [Lots.start_zero, List.drop_zero] at built
  refine ⟨map, ?_, by rwa [shares, List.length_map]⟩
  rw [buildSchedule, findCommonMultiple_scale requests (scale_lt weighted products)]
  show (initScheduleMap (scale scenarios) 0 0 [] scenarios >>= _) = _
  rw [built]
  rfl

theorem ok_bind {α β : Type} (a : α) (f : α → Except Fault β) : (Except.ok a >>= f) = f a := rfl

theorem draws_eq {schedule : Schedule} (number : Nat) (positive : 0 < schedule.totalWeight)
    (small : schedule.totalWeight ≤ 2 ^ 31) : schedule.draws number = decide (number < schedule.totalWeight) := by
  have low : schedule.bound = schedule.totalWeight - 1 := by
    unfold Schedule.bound sizeMax
    omega
  have less : schedule.bound < 2 ^ 31 := by omega
  rw [Schedule.draws, Schedule.ordered, decide_eq_true less, if_pos rfl, low]
  exact decide_eq_decide.mpr (by omega)

theorem getIndexOfNextScenarioToRun_eq {sequence : Nat} (number : Nat) {schedule : Schedule}
    {own : Option Schedule} (several : 1 < scenarios.length)
    (built : buildSchedule scenarios sequence = .ok schedule) (dated : schedule.seqNo = sequence)
    (first : own = none ∨ own = some schedule) (positive : 0 < schedule.totalWeight)
    (small : schedule.totalWeight ≤ 2 ^ 31) :
    getIndexOfNextScenarioToRun scenarios sequence own number =
      if number < schedule.totalWeight then
        .ok ((upperBound schedule.scheduleMap number).getD 0, some schedule) else .error .disabled := by
  have used : currentSchedule scenarios sequence own = .ok schedule := by
    rcases first with rfl | rfl
    · exact built
    · rw [currentSchedule, if_pos dated]
  unfold getIndexOfNextScenarioToRun
  rw [if_neg (Nat.not_le.mpr several), used, ok_bind, draws_eq number positive small]
  simp only [decide_eq_true_iff]
  rfl

end Building

/-! ## In proportion -/

/-- How many of the numbers below the total weight choose the scenario. -/
def draws (scenarios : List Scenario) (sequence : Nat) (own : Option Schedule) (schedule : Schedule)
    (index : Nat) : Nat :=
  ((Finset.range schedule.totalWeight).filter fun number =>
    getIndexOfNextScenarioToRun scenarios sequence own number = .ok (index, some schedule)).card

/-- **The requests of the scenarios are in proportion to their weights.** -/
theorem draws_proportional (scenarios : List Scenario) (sequence : Nat) (several : 1 < scenarios.length)
    (requests : ∀ scenario ∈ scenarios, 0 < scenario.requests)
    (weighted : ∃ scenario ∈ scenarios, 0 < scenario.weight) (fits : Fits scenarios) :
    ∃ schedule multiple, buildSchedule scenarios sequence = .ok schedule ∧
      findCommonMultiple (scenarios.map Scenario.requests) = .ok multiple ∧ 0 < multiple ∧
      (∀ scenario ∈ scenarios, scenario.requests ∣ multiple) ∧ ∀ own, own = none ∨ own = some schedule →
        (∀ number, number < schedule.totalWeight ↔
          ∃ index, getIndexOfNextScenarioToRun scenarios sequence own number = .ok (index, some schedule)) ∧
        ∀ index scenario, scenarios[index]? = some scenario →
          draws scenarios sequence own schedule index = scenario.weight * multiple / scenario.requests ∧
          (scenario.weight = 0 → ∀ number, getIndexOfNextScenarioToRun scenarios sequence own number ≠
            .ok (index, some schedule)) ∧
          draws scenarios sequence own schedule index * scenario.requests = scenario.weight * multiple := by
  have positive := sum_shares_pos requests weighted
  have total : (shares scenarios).sum < sizeMax := fits.total.trans_lt (by unfold sizeMax; omega)
  obtain ⟨map, built, ends⟩ := buildSchedule_ends sequence requests weighted fits.products total
  have weight : (Schedule.mk sequence map).totalWeight = (shares scenarios).sum := ends.foldl_max_eq positive
  refine ⟨⟨sequence, map⟩, scale scenarios, built,
    findCommonMultiple_scale requests (scale_lt weighted fits.products), scale_pos requests,
    fun scenario listed => dvd_scale requests listed, fun own first => ?_⟩
  have chooses (number : Nat) := getIndexOfNextScenarioToRun_eq number several built rfl first
    (weight ▸ positive) (weight ▸ fits.total)
  have chosen (number index : Nat) :
      getIndexOfNextScenarioToRun scenarios sequence own number = .ok (index, some ⟨sequence, map⟩) ↔
        number < (shares scenarios).sum ∧ Lots.Draws (shares scenarios) number index := by
    rw [chooses, weight]
    by_cases below : number < (shares scenarios).sum
    · rw [if_pos below, and_iff_right below]
      obtain ⟨i, -, falls⟩ := Lots.exists_draws (below.trans_eq (Lots.start_length _).symm)
      rw [ends.upperBound_eq falls]
      constructor
      · intro same
        cases same
        exact falls
      · intro other
        rw [falls.unique other]
        rfl
    · rw [if_neg below]
      exact iff_of_false nofun fun both => below both.1
  refine ⟨fun number => ?_, fun index scenario found => ?_⟩
  · rw [weight]
    constructor
    · intro below
      obtain ⟨i, -, falls⟩ := Lots.exists_draws (below.trans_eq (Lots.start_length _).symm)
      exact ⟨i, (chosen number i).mpr ⟨below, falls⟩⟩
    · rintro ⟨index, same⟩
      exact ((chosen number index).mp same).1
  · have listed := List.mem_of_getElem? found
    have shareAt : (shares scenarios)[index]? = some (share (scale scenarios) scenario) := by
      rw [shares, List.getElem?_map, found]
      rfl
    have count : draws scenarios sequence own ⟨sequence, map⟩ index = share (scale scenarios) scenario := by
      rw [← Lots.card_draws shareAt, draws, weight]
      refine congrArg Finset.card (Finset.filter_congr fun number member => ?_)
      rw [chosen, and_iff_right (Finset.mem_range.mp member)]
    refine ⟨count, fun none number same => ?_, ?_⟩
    · obtain ⟨other, at', large⟩ := ((chosen number index).mp same).2.share_pos
      cases shareAt.symm.trans at'
      rw [share, none, Nat.zero_mul, Nat.zero_div] at large
      exact absurd large (Nat.lt_irrefl 0)
    · rw [count]
      exact share_mul_requests requests listed

def mixedScenarios : List Scenario := [⟨400, 0, 4⟩, ⟨0, 0, 3⟩, ⟨100, 0, 8⟩]

/-- **Satisfiable pole:** four fifths of the requests are those of the first scenario, one fifth those
of the last. -/
theorem mixedScenarios_proportional : ∃ schedule multiple, buildSchedule mixedScenarios 0 = .ok schedule ∧
      draws mixedScenarios 0 none schedule 0 * 4 = 400 * multiple ∧
      draws mixedScenarios 0 none schedule 2 * 8 = 100 * multiple ∧ 0 < multiple := by
  obtain ⟨schedule, multiple, built, -, positive, -, chosen⟩ := draws_proportional mixedScenarios 0
    (by decide) (by decide) (by decide) ⟨by decide +kernel, by decide +kernel⟩
  obtain ⟨-, each⟩ := chosen none (.inl rfl)
  exact ⟨schedule, multiple, built, (each 0 _ rfl).2.2, (each 2 _ rfl).2.2, positive⟩

/-! ## Within the types -/

structure Admitted (scenarios : List Scenario) : Prop where
  requests : ∀ scenario ∈ scenarios, 1 ≤ scenario.requests
  weights : ∀ scenario ∈ scenarios, scenario.weight ≤ 65535
  weighted : ∃ scenario ∈ scenarios, 0 < scenario.weight

/-- The products are exact and the distribution has a valid range; `final` is what
`find_common_multiple` keeps of the counts. -/
structure InRange (scenarios : List Scenario) (final : List Nat) (schedule : Schedule) : Prop where
  kept : (descending (counts scenarios)).foldlM addMaximal [] = .ok final
  multiple : ∀ n, (final.take n).prod < sizeMax
  products : ∀ scenario ∈ scenarios, scenario.weight * final.prod < sizeMax
  built : buildSchedule scenarios 0 = .ok schedule
  least : 1 ≤ schedule.totalWeight
  most : schedule.totalWeight ≤ 2 ^ 31

def Totals (scenarios : List Scenario) (final : List Nat) : Prop :=
  ∀ n, ((scenarios.take n).map (share final.prod)).sum < sizeMax

/-- **The schedule is within its types exactly when the shares of the scenarios are.** -/
theorem inRange_iff_fits (scenarios : List Scenario) (admitted : Admitted scenarios) :
    (∃ final schedule, InRange scenarios final schedule ∧ Totals scenarios final) ↔ Fits scenarios := by
  obtain ⟨final, folded, covers⟩ := exists_final (positive_counts admitted.requests)
  have product : final.prod = scale scenarios := prod_final covers
  have positive := sum_shares_pos admitted.requests admitted.weighted
  constructor
  · rintro ⟨other, schedule, inRange, totals⟩
    cases folded.symm.trans inRange.kept
    have products : ∀ scenario ∈ scenarios, scenario.weight * scale scenarios < sizeMax :=
      product ▸ inRange.products
    have total : (shares scenarios).sum < sizeMax := by
      have all := totals scenarios.length
      rwa [List.take_length, product] at all
    obtain ⟨map, built, ends⟩ := buildSchedule_ends 0 admitted.requests admitted.weighted products total
    cases built.symm.trans inRange.built
    exact ⟨products, (ends.foldl_max_eq positive).symm.trans_le inRange.most⟩
  · intro fits
    have total : (shares scenarios).sum < sizeMax := fits.total.trans_lt (by unfold sizeMax; omega)
    obtain ⟨map, built, ends⟩ := buildSchedule_ends 0 admitted.requests admitted.weighted fits.products
      total
    have weight : (Schedule.mk 0 map).totalWeight = (shares scenarios).sum := ends.foldl_max_eq positive
    have small := scale_lt admitted.weighted fits.products
    refine ⟨final, ⟨0, map⟩, ⟨folded, fun n => ?_, ?_, built, ?_, ?_⟩, fun n => ?_⟩
    · have whole := List.prod_take_mul_prod_drop final n
      rw [product] at whole
      exact (Nat.le_of_dvd (scale_pos admitted.requests) ⟨_, whole.symm⟩).trans_lt small
    · rw [product]
      exact fits.products
    · rw [weight]
      exact positive
    · rw [weight]
      exact fits.total
    · rw [product, List.map_take]
      exact (Lots.start_le_sum (shares scenarios) n).trans_lt total

/-- **Satisfiable pole.** -/
theorem mixedScenarios_inRange :
    ∃ final schedule, InRange mixedScenarios final schedule ∧ Totals mixedScenarios final :=
  (inRange_iff_fits mixedScenarios ⟨by decide, by decide, by decide⟩).mpr
    ⟨by decide +kernel, by decide +kernel⟩

def sixScenarios : List Scenario :=
  [2, 3, 5, 7, 11, 13].map fun requests => ⟨65535, 0, requests⟩

/-- **Refuting pole:** the total weight of six such scenarios is above the range of an `int`, and
the bounds of the distribution are not in order. -/
theorem sixScenarios_not_inRange :
    Admitted sixScenarios ∧ (∀ final schedule, ¬ InRange sixScenarios final schedule) ∧
      ∃ schedule, buildSchedule sixScenarios 0 = .ok schedule ∧ schedule.ordered = false := by
  have admitted : Admitted sixScenarios := ⟨by decide, by decide, by decide⟩
  have built : buildSchedule sixScenarios 0 = .ok ⟨0, [(2645058135, 5), (2493672285, 4),
      (2314761735, 3), (2033616585, 2), (1640013375, 1), (984008025, 0)]⟩ := by decide +kernel
  refine ⟨admitted, fun final other inRange => ?_, _, built, by decide +kernel⟩
  cases built.symm.trans inRange.built
  exact absurd inRange.most (by decide +kernel)

end H2LoadRunner.Load.DelayedScenarios
