/-
# Load.VariableRanges -- the values a client takes from the range of a variable

A client keeps, for each variable of each scenario, a range and the value for the next instance of
the scenario.  `slice_var_ids` sets them up: with several clients a sliced variable is divided among
the controllers by their numbers, another one starts at a random value.  Each instance takes the
current values, and `inc_var` moves every counter on.

* `slices_partition`: the parts for the numbers below `nclients` divide the range, and nothing wraps
  on the way.
* `cycles_iff`: the instances of a client go through its range, value by value, exactly when the part
  for its number lies in the range of the variable, or, for a variable that is not sliced, when the
  first value was not drawn as the end of the range.  The distribution it is drawn from includes the
  end, which the range does not.
-/
import H2LoadRunner.Library.Cycles
import H2LoadRunner.Load.ClientIds

namespace H2LoadRunner.Load.VariableRanges

open Library
open ClientIds

set_option autoImplicit false

variable {myId varId : Nat} {slice : Slice}

/-! ## A range divided -/

/-- The expressions of type `uint64_t` that are evaluated for a sliced variable, as integers. -/
def intermediates (nclients myId : Nat) (var : GenericVariable) : List Int :=
  let span : Int := var.rangeEnd - var.rangeStart
  let tokensPerClient := span / nclients
  let tokensLeft := span % nclients
  let start := var.rangeStart + myId * tokensPerClient + min (myId : Int) tokensLeft
  [span, tokensPerClient, tokensLeft, myId * tokensPerClient, var.rangeStart + myId * tokensPerClient,
    min (myId : Int) tokensLeft, start, start + tokensPerClient,
    start + tokensPerClient + if tokensLeft ≤ myId then 0 else 1]

def Has (slice : Slice) (value : Nat) : Prop := slice.start ≤ value ∧ value < slice.stop

/-- The parts for the numbers below `nclients` divide the range. -/
structure Divided (nclients : Nat) (var : GenericVariable) (slices : Nat → Slice) : Prop where
  nonempty : ∀ id < nclients, (slices id).start < (slices id).stop
  disjoint : ∀ id < nclients, ∀ other < nclients, id ≠ other →
    ∀ value, ¬ (Has (slices id) value ∧ Has (slices other) value)
  consecutive : ∀ id, id + 1 < nclients → (slices (id + 1)).start = (slices id).stop
  balanced : ∀ id < nclients, ∀ other < nclients,
    (slices id).stop - (slices id).start ≤ (slices other).stop - (slices other).start + 1
  union : ∀ value, (var.rangeStart ≤ value ∧ value < var.rangeEnd) ↔
    ∃ id < nclients, Has (slices id) value
  /-- No expression wraps. -/
  exact : ∀ id < nclients, ∀ value ∈ intermediates nclients id var, 0 ≤ value ∧ value < sizeMax

section Parts

variable (nclients : Nat) (var : GenericVariable)

def deal : Deal := Deal.of (var.rangeEnd - var.rangeStart) nclients

def part (id : Nat) : Slice where
  start := var.rangeStart + ((deal nclients var).hands id).sum
  stop := var.rangeStart + ((deal nclients var).hands (id + 1)).sum
  current := var.rangeStart + ((deal nclients var).hands id).sum

variable {nclients var}

theorem current_eq_start (sliced : sliceOf nclients myId var = some slice) : slice.current = slice.start := by
  unfold sliceOf at sliced
  simp only at sliced
  split at sliced
  · cases sliced
  · rw [← Option.some.inj sliced]

theorem span_eq (ordered : var.rangeStart ≤ var.rangeEnd) :
    (var.rangeEnd + sizeMax - var.rangeStart) % sizeMax = var.rangeEnd - var.rangeStart := by
  rw [Nat.sub_add_comm ordered, Nat.add_mod_right,
    Nat.mod_eq_of_lt ((Nat.sub_le _ _).trans_lt var.sized.2)]

theorem sliceOf_isSome (myId : Nat) (some : 0 < nclients)
    (enough : nclients + var.rangeStart ≤ var.rangeEnd) : (sliceOf nclients myId var).isSome := by
  have each : (var.rangeEnd - var.rangeStart) / nclients ≠ 0 :=
    Nat.ne_of_gt (Deal.one_le_each some (by omega))
  unfold sliceOf
  have ordered : var.rangeStart ≤ var.rangeEnd := by omega
  simp only [span_eq ordered, if_neg each, Option.isSome_some]

theorem sliceOf_eq_part {id : Nat} (position : id < nclients)
    (enough : nclients + var.rangeStart ≤ var.rangeEnd) :
    sliceOf nclients id var = some (part nclients var id) := by
  obtain ⟨slice, sliced⟩ := Option.isSome_iff_exists.mp (sliceOf_isSome id (Nat.zero_lt_of_lt position) enough)
  obtain ⟨-, start, stop, -⟩ := sliceOf_eq (by omega) position sliced
  have current := current_eq_start sliced
  rw [sliced]
  rw [start] at current
  rcases slice with ⟨first, last, value⟩
  obtain rfl : first = _ := start
  obtain rfl : last = _ := stop
  obtain rfl : value = _ := current
  rfl

theorem intermediates_sized {id : Nat} (position : id < nclients)
    (enough : nclients + var.rangeStart ≤ var.rangeEnd) :
    ∀ value ∈ intermediates nclients id var, 0 ≤ value ∧ value < sizeMax := by
  have span : (var.rangeEnd : Int) - var.rangeStart = ((var.rangeEnd - var.rangeStart : Nat) : Int) := by omega
  have total : ((deal nclients var).hands (id + 1)).sum ≤ var.rangeEnd - var.rangeStart := by
    rw [← Deal.sum_hands_of (var.rangeEnd - var.rangeStart) (Nat.zero_lt_of_lt position)]
    exact Deal.sum_hands_le_sum_hands _ position
  have sum : ((deal nclients var).hands (id + 1)).sum =
      id * (deal nclients var).each + (deal nclients var).each + min (id + 1) (deal nclients var).extra := by
    rw [Deal.sum_hands, Nat.succ_mul]
  have fewer : (deal nclients var).extra < nclients := Nat.mod_lt _ (Nat.zero_lt_of_lt position)
  have sized := var.sized
  have quotient : (((var.rangeEnd - var.rangeStart : Nat) : Int)) / (nclients : Int) = (deal nclients var).each :=
    (Int.natCast_ediv _ _).symm
  have remainder : (((var.rangeEnd - var.rangeStart : Nat) : Int)) % (nclients : Int) = (deal nclients var).extra :=
    (Int.natCast_emod _ _).symm
  intro value member
  simp only [intermediates, span, quotient, remainder, List.mem_cons, List.not_mem_nil, or_false] at member
  generalize (deal nclients var).each = each at *
  generalize (deal nclients var).extra = extra at *
  have product : (id : Int) * each = ((id * each : Nat) : Int) := (Int.natCast_mul _ _).symm
  rw [product] at member
  generalize id * each = before at *
  rcases member with rfl | rfl | rfl | rfl | rfl | rfl | rfl | rfl | rfl <;> omega

theorem divided_part (enough : nclients + var.rangeStart ≤ var.rangeEnd) (some : 0 < nclients) :
    Divided nclients var (part nclients var) := by
  have share : ∀ id, (part nclients var id).stop =
      (part nclients var id).start + (deal nclients var).shareAt id := by
    intro id
    show var.rangeStart + _ = var.rangeStart + _ + _
    rw [Deal.sum_hands_succ, Nat.add_assoc]
  have each : 1 ≤ (deal nclients var).each := Deal.one_le_each some (by omega)
  have whole : ((deal nclients var).hands nclients).sum = var.rangeEnd - var.rangeStart :=
    Deal.sum_hands_of _ some
  have behind : ∀ {id other}, id < other → (part nclients var id).stop ≤ (part nclients var other).start :=
    fun less => Nat.add_le_add_left (Deal.sum_hands_le_sum_hands _ (Nat.succ_le_of_lt less)) _
  refine ⟨?_, ?_, ?_, ?_, ?_, ?_⟩
  · intro id _
    have least := (deal nclients var).each_le_shareAt id
    have stop := share id
    omega
  · rintro id - other - different value ⟨⟨first, last⟩, ⟨otherFirst, otherLast⟩⟩
    rcases Nat.lt_or_gt_of_ne different with less | less
    · have apart := behind less
      omega
    · have apart := behind less
      omega
  · intro id _
    rfl
  · intro id _ other _
    have least := (deal nclients var).each_le_shareAt other
    have most := (deal nclients var).shareAt_le_each_succ id
    have stop := share id
    have otherStop := share other
    omega
  · intro value
    constructor
    · rintro ⟨above, below⟩
      obtain ⟨id, position, first, last⟩ := (deal nclients var).exists_hand
        (show value - var.rangeStart < ((deal nclients var).hands nclients).sum by omega)
      exact ⟨id, position, by show var.rangeStart + _ ≤ value; omega,
        by show value < var.rangeStart + _; omega⟩
    · rintro ⟨id, position, first, last⟩
      have within := (deal nclients var).sum_hands_le_sum_hands (Nat.succ_le_of_lt position)
      have above : var.rangeStart + _ ≤ value := first
      have below : value < var.rangeStart + _ := last
      rw [Nat.succ_eq_add_one] at within
      omega
  · intro id position
    exact intermediates_sized position enough

end Parts

variable {nclients : Nat} {var : GenericVariable}

theorem sliceVariable_sliced_iff {draw : GenericVariable → Nat} {scenario : Variables}
    (several : 1 < nclients) (own : scenario.numberFromValuePickers ≤ varId)
    (slicing : scenario.variableRangeSlicing = true) :
    sliceVariable nclients myId true draw scenario varId var = .ok slice ↔
      sliceOf nclients myId var = some slice := by
  unfold sliceVariable
  rw [if_pos ⟨several, rfl⟩, if_neg (Nat.not_lt.mpr own), slicing, if_neg (by decide)]
  cases sliceOf nclients myId var <;> simp

/-- **The controllers with the numbers below `nclients` divide the range of a sliced variable.** -/
theorem slices_partition {nclients varId : Nat} {scenario : Variables} {var : GenericVariable}
    (several : 1 < nclients) (own : scenario.numberFromValuePickers ≤ varId)
    (slicing : scenario.variableRangeSlicing = true) (enough : nclients + var.rangeStart ≤ var.rangeEnd) :
    ∃ slices : Nat → Slice, Divided nclients var slices ∧
      ∀ id < nclients, ∀ draw, sliceVariable nclients id true draw scenario varId var = .ok (slices id) ∧
        ∀ workerId scenarios data (index : Nat) (entries : List Slice),
          sliceVarIds nclients id true draw workerId [] scenarios = .sliced data →
          scenarios[index]? = some scenario → scenario.genericVariables[varId]? = some var →
          data[index]? = some entries → entries[varId]? = some (slices id) := by
  refine ⟨part nclients var, divided_part enough (Nat.zero_lt_of_lt several), fun id position draw => ?_⟩
  have made : sliceVariable nclients id true draw scenario varId var = .ok (part nclients var id) :=
    (sliceVariable_sliced_iff several own slicing).mpr (sliceOf_eq_part position enough)
  refine ⟨made, fun workerId scenarios data index entries ran known present reached => ?_⟩
  rw [← Nat.zero_add index] at reached
  obtain ⟨slice, found, entry⟩ := sliceVarIds_entry ran known reached present
  rw [found, Except.ok.inj (entry.symm.trans made)]

def tenValues : GenericVariable := ⟨"id", 0, 10, by decide, by decide⟩

def tenValuesScenario (slicing : Bool) : Variables := ⟨[tenValues], 0, slicing⟩

/-- **Satisfiable pole:** ten values for three clients. -/
theorem tenValues_partition : ∃ slices : Nat → Slice, Divided 3 tenValues slices ∧
      sliceVariable 3 1 true (fun _ => 0) (tenValuesScenario true) 0 tenValues = .ok (slices 1) := by
  have own : (tenValuesScenario true).numberFromValuePickers ≤ 0 := Nat.le_refl 0
  obtain ⟨slices, divided, made⟩ := slices_partition (show 1 < 3 by decide) own rfl
    (show 3 + tenValues.rangeStart ≤ tenValues.rangeEnd by decide)
  exact ⟨slices, divided, (made 1 (by decide) fun _ => 0).1⟩

/-! ## Instances -/

def incVar (slice : Slice) : Slice :=
  if slice.stop ≤ slice.start then slice
  else
    let value := (slice.current + 1) % sizeMax
    { slice with current := if slice.stop ≤ value then slice.start else value }

/-- `scenario_data_per_connection` of a controller. -/
abbrev ClientData := List (List Slice)

/-- `prepare_first_request`, as far as it deals with the variables: the new instance of the scenario
gets the current values of the controller, which moves on. -/
def prepareFirstRequest (data : ClientData) (index : Nat) : List Nat × ClientData :=
  ((data[index]?.getD []).map Slice.current, data.modify index (List.map incVar))

/-- The instances that the controller and its sub-clients start, for the scenarios in this order. -/
def instances : ClientData → List Nat → List (Nat × List Nat)
  | _, [] => []
  | data, index :: picks =>
    (index, (prepareFirstRequest data index).1) :: instances (prepareFirstRequest data index).2 picks

def valuesOf (index varId : Nat) (started : List (Nat × List Nat)) : List Nat :=
  started.filterMap fun entry => if entry.1 = index then entry.2[varId]? else none

/-- The values are of the range of the variable and of the part of the client, and go round in that
part. -/
structure GoesRound (var : GenericVariable) (slice : Slice) (values : List Nat) : Prop where
  inside : ∀ value ∈ values, var.rangeStart ≤ value ∧ value < var.rangeEnd
  own : ∀ value ∈ values, Has slice value
  round : ∀ early window late, values = early ++ window ++ late →
    window.length = slice.stop - slice.start →
      window.Perm (List.range' slice.start (slice.stop - slice.start))

/-- The part at the place of the number `myId` is in the range. -/
def Placed (nclients myId : Nat) (var : GenericVariable) : Prop :=
  let span := var.rangeEnd - var.rangeStart
  let first := (var.rangeStart + myId * (span / nclients) + min myId (span % nclients)) % sizeMax
  var.rangeStart ≤ first ∧
    first + span / nclients + (if span % nclients ≤ myId then 0 else 1) ≤ var.rangeEnd

/-- With several clients, the number of the controller is that of a part of a sliced range, and the
first value of another range is not its end. -/
def Regular (nclients myId : Nat) (scenario : Variables) (draw : GenericVariable → Nat)
    (var : GenericVariable) : Prop :=
  1 < nclients →
    if scenario.variableRangeSlicing then Placed nclients myId var else draw var ≠ var.rangeEnd

/-- The entry of a variable with which a client goes round. -/
structure Proper (var : GenericVariable) (slice : Slice) : Prop where
  first : var.rangeStart ≤ slice.start
  last : slice.stop ≤ var.rangeEnd
  current : Has slice slice.current

theorem incVar_eq (inside : Has slice slice.current) (sized : slice.stop < sizeMax) :
    incVar slice = { slice with current := Cycles.next slice.start slice.stop slice.current } := by
  obtain ⟨first, last⟩ := inside
  unfold incVar Cycles.next
  rw [if_neg (by omega)]
  simp only [Nat.mod_eq_of_lt (show slice.current + 1 < sizeMax by omega)]

theorem iterate_incVar (inside : Has slice slice.current) (sized : slice.stop < sizeMax) (k : Nat) :
    incVar^[k] slice = { slice with current := (Cycles.next slice.start slice.stop)^[k] slice.current } := by
  induction k with
  | zero => rfl
  | succ k ih =>
    let before : Slice := { slice with current := (Cycles.next slice.start slice.stop)^[k] slice.current }
    have still : Has before before.current := Cycles.iterate_next_inside inside.1 inside.2 k
    rw [Function.iterate_succ_apply', ih, Function.iterate_succ_apply']
    exact incVar_eq still sized

/-- The values of a variable are those of its counter, whatever else the controller starts. -/
theorem valuesOf_instances {data : ClientData} {index : Nat} {entries : List Slice}
    (reached : data[index]? = some entries) (found : entries[varId]? = some slice) (picks : List Nat) :
    valuesOf index varId (instances data picks) =
      (List.iterate incVar slice (picks.count index)).map Slice.current := by
  induction picks generalizing data entries slice with
  | nil => rfl
  | cons pick picks ih =>
    by_cases same : pick = index
    · subst same
      have next : (prepareFirstRequest data pick).2[pick]? = some (entries.map incVar) := by
        simp [prepareFirstRequest, reached]
      have moved : (entries.map incVar)[varId]? = some (incVar slice) := by simp [found]
      have value : (prepareFirstRequest data pick).1[varId]? = some slice.current := by
        simp [prepareFirstRequest, reached, found]
      rw [List.count_cons_self, List.iterate, List.map_cons, ← ih next moved]
      simp [instances, valuesOf, value]
    · have next : (prepareFirstRequest data pick).2[index]? = some entries := by
        simp [prepareFirstRequest, reached, same]
      rw [List.count_cons_of_ne same, ← ih next found]
      simp [instances, valuesOf, same]

theorem goesRound_iff_proper {data : ClientData} {index : Nat} {entries : List Slice}
    (reached : data[index]? = some entries) (found : entries[varId]? = some slice) :
    (∀ picks, GoesRound var slice (valuesOf index varId (instances data picks))) ↔ Proper var slice := by
  constructor
  · intro always
    have one := always [index]
    rw [valuesOf_instances reached found, List.count_singleton_self] at one
    have own := one.own slice.current (by simp)
    -- a whole round shows the first and the last value of the part
    have round := always (List.replicate (slice.stop - slice.start) index)
    rw [valuesOf_instances reached found, List.count_replicate_self] at round
    have perm := round.round [] _ [] (by simp; rfl) (by simp)
    have shown : ∀ value, Has slice value → var.rangeStart ≤ value ∧ value < var.rangeEnd := by
      intro value ⟨above, below⟩
      refine round.inside value (perm.mem_iff.mpr ?_)
      rw [List.mem_range'_1]
      omega
    have first := shown slice.start ⟨Nat.le_refl _, own.1.trans_lt own.2⟩
    have last := shown (slice.stop - 1) ⟨Nat.le_sub_one_of_lt (own.1.trans_lt own.2), by
      have some := own.2
      omega⟩
    exact ⟨first.1, by omega, own⟩
  · intro proper picks
    have sized : slice.stop < sizeMax := proper.last.trans_lt var.sized.2
    have values : (List.iterate incVar slice (picks.count index)).map Slice.current =
        List.iterate (Cycles.next slice.start slice.stop) slice.current (picks.count index) := by
      rw [← List.range_map_iterate, ← List.range_map_iterate, List.map_map]
      refine List.map_congr_left fun k _ => ?_
      rw [Function.comp_apply, iterate_incVar proper.current sized]
    rw [valuesOf_instances reached found, values]
    have own : ∀ value ∈ List.iterate (Cycles.next slice.start slice.stop) slice.current
        (picks.count index), Has slice value := by
      intro value member
      obtain ⟨k, -, rfl⟩ := List.mem_iterate.mp member
      exact Cycles.iterate_next_inside proper.current.1 proper.current.2 k
    refine ⟨fun value member => ?_, own, fun early window late split whole => ?_⟩
    · obtain ⟨above, below⟩ := own value member
      exact ⟨proper.first.trans above, below.trans_le proper.last⟩
    · have start := Cycles.iterate_next_inside proper.current.1 proper.current.2 early.length
      rw [Cycles.eq_iterate_of_split split, whole]
      exact Cycles.iterate_perm start.1 start.2

/-- A sum of two numbers below the modulus that stays above the first after wrapping has not wrapped. -/
theorem lt_add_mod_iff {m a b : Nat} (first : a < m) (second : b < m) (some : 0 < b) {bound : Nat}
    (small : bound < m) : (a < (a + b) % m ∧ (a + b) % m ≤ bound) ↔ a + b ≤ bound := by
  by_cases wraps : a + b < m
  · rw [Nat.mod_eq_of_lt wraps]
    omega
  · rw [Nat.mod_eq_sub_mod (Nat.le_of_not_lt wraps), Nat.mod_eq_of_lt (by omega)]
    omega

theorem proper_iff_placed (several : 1 < nclients) (ordered : var.rangeStart < var.rangeEnd)
    (sliced : sliceOf nclients myId var = some slice) : Proper var slice ↔ Placed nclients myId var := by
  have current := current_eq_start sliced
  have share := Deal.shareAt_le (var.rangeEnd - var.rangeStart) (Nat.zero_lt_of_lt several) myId
  have sized := var.sized
  unfold sliceOf at sliced
  simp only [span_eq (Nat.le_of_lt ordered)] at sliced
  split at sliced
  · cases sliced
  · rename_i each
    obtain rfl := Option.some.inj sliced
    have start := Nat.mod_lt (var.rangeStart + myId * (deal nclients var).each +
      min myId (deal nclients var).extra) (Nat.zero_lt_of_lt sized.1)
    have bounded := lt_add_mod_iff start (show (deal nclients var).shareAt myId < sizeMax by
      exact share.trans_lt ((Nat.sub_le _ _).trans_lt sized.2)) (by
        have least := (deal nclients var).each_le_shareAt myId
        exact (Nat.pos_of_ne_zero each).trans_le least) sized.2
    rw [Deal.shareAt_eq, ← Nat.add_assoc] at bounded
    constructor
    · rintro ⟨first, last, -, inside⟩
      exact ⟨first, bounded.mp ⟨inside, last⟩⟩
    · rintro ⟨first, last⟩
      obtain ⟨inside, within⟩ := bounded.mpr last
      exact ⟨first, within, Nat.le_refl _, inside⟩

theorem proper_iff_regular {draw : GenericVariable → Nat} {scenario : Variables}
    (own : scenario.numberFromValuePickers ≤ varId) (ordered : var.rangeStart < var.rangeEnd)
    (drawn : var.rangeStart ≤ draw var ∧ draw var ≤ var.rangeEnd)
    (entry : sliceVariable nclients myId true draw scenario varId var = .ok slice) :
    Proper var slice ↔ Regular nclients myId scenario draw var := by
  unfold Regular
  by_cases several : 1 < nclients
  · by_cases slicing : scenario.variableRangeSlicing = true
    · rw [if_pos slicing, proper_iff_placed several ordered
        ((sliceVariable_sliced_iff several own slicing).mp entry)]
      exact ⟨fun placed _ => placed, fun placed => placed several⟩
    · unfold sliceVariable at entry
      rw [if_pos ⟨several, rfl⟩, if_neg (Nat.not_lt.mpr own), if_pos (by simpa using slicing)] at entry
      obtain rfl := Except.ok.inj entry
      rw [if_neg slicing]
      constructor
      · rintro ⟨-, -, -, below⟩ _
        exact Nat.ne_of_lt below
      · intro elsewhere
        exact ⟨Nat.le_refl _, Nat.le_refl _, drawn.1, Nat.lt_of_le_of_ne drawn.2 (elsewhere several)⟩
  · unfold sliceVariable at entry
    rw [if_neg (fun both => several both.1)] at entry
    obtain rfl := Except.ok.inj entry
    exact iff_of_true ⟨Nat.le_refl _, Nat.le_refl _, Nat.le_refl _, ordered⟩
      fun more => absurd more several

/-- **The instances of a client go round in its range exactly when it started at one of its values.** -/
theorem cycles_iff {nclients myId workerId index varId : Nat} {draw : GenericVariable → Nat}
    {scenarios : List Variables} {scenario : Variables} {var : GenericVariable} {data : ClientData}
    {entries : List Slice} (made : sliceVarIds nclients myId true draw workerId [] scenarios = .sliced data)
    (known : scenarios[index]? = some scenario) (reached : data[index]? = some entries)
    (present : scenario.genericVariables[varId]? = some var)
    (own : scenario.numberFromValuePickers ≤ varId) (ordered : var.rangeStart < var.rangeEnd)
    (drawn : var.rangeStart ≤ draw var ∧ draw var ≤ var.rangeEnd) : ∃ slice, entries[varId]? = some slice ∧
      ((∀ picks, GoesRound var slice (valuesOf index varId (instances data picks))) ↔
        Regular nclients myId scenario draw var) := by
  obtain ⟨slice, found, entry⟩ := sliceVarIds_entry made known (by simpa using reached) present
  exact ⟨slice, found, (goesRound_iff_proper reached found).trans
    (proper_iff_regular own ordered drawn entry)⟩

/-- **Satisfiable pole:** three clients, one of which draws the last value of the range. -/
theorem lastValue_goesRound :
    ∃ data, sliceVarIds 3 0 true (fun _ => 9) 0 [] [tenValuesScenario false] = .sliced data ∧
      ∃ slice, ∀ picks, GoesRound tenValues slice (valuesOf 0 0 (instances data picks)) := by
  have made : sliceVarIds 3 0 true (fun _ => 9) 0 [] [tenValuesScenario false] =
      .sliced [[⟨0, 10, 9⟩]] := rfl
  have known : [tenValuesScenario false][0]? = some (tenValuesScenario false) := rfl
  have reached : [[(⟨0, 10, 9⟩ : Slice)]][0]? = some [⟨0, 10, 9⟩] := rfl
  have present : (tenValuesScenario false).genericVariables[0]? = some tenValues := rfl
  obtain ⟨slice, -, iff⟩ := cycles_iff made known reached present (Nat.le_refl 0) (by decide) (by decide)
  exact ⟨_, made, slice, iff.mpr fun _ => show (9 : Nat) ≠ 10 by decide⟩

/-- **Refuting pole:** the same client draws the end of the range, which its first instance gets. -/
theorem rangeEnd_not_goesRound :
    ∃ data, sliceVarIds 3 0 true (fun _ => 10) 0 [] [tenValuesScenario false] = .sliced data ∧
      data = [[⟨0, 10, 10⟩]] ∧ valuesOf 0 0 (instances data [0, 0]) = [10, 0] ∧
      ¬ ∀ picks, GoesRound tenValues ⟨0, 10, 10⟩ (valuesOf 0 0 (instances data picks)) := by
  refine ⟨_, rfl, rfl, by decide, fun always => ?_⟩
  have inside := (always [0]).inside 10 (by decide)
  exact absurd inside (by decide)

end H2LoadRunner.Load.VariableRanges
