/-
# Load.RpsTimer -- the rate that is divided by while it is being changed

`config.rps` is set at the start, from `--rps` or from the JSON configuration, and again while the
timers run, from the first line of the rps file and from `/config?rps=`.  Three of the four check the
number in the same words: it is refused where `1. / v < 1e-6`.  Zero passes, since its reciprocal is
infinite, and so does every fraction; the JSON value is not checked at all.  The timers divide by it:
`restart_rps_timer` by `(int)config->rps`, and `on_rps_timer` by `config->rps`.

A step here is one read of the rate.

* `defined_iff_steady`: whatever the order of reads and changes, no division is undefined, exactly if
  from the first positive rate on every rate is at least one and below `2 ^ 31`.
-/
import H2LoadRunner.Library.Strings
import H2LoadRunner.Library.Transition

namespace H2LoadRunner.Load.RpsTimer

open Library Library.Transition

set_option autoImplicit false

abbrev Text := List Char

/-! ## Numbers -/

inductive Double where
  | nan
  | infinite (negative : Bool)
  | negativeZero
  | finite (value : Rat)
  deriving DecidableEq

namespace Double

def positive : Double → Bool
  | nan => false
  | infinite negative => !negative
  | negativeZero => false
  | finite value => decide (0 < value)

def isFinite : Double → Bool
  | nan => false
  | infinite _ => false
  | negativeZero => true
  | finite _ => true

/-- `v == w`: the two zeros are equal, and what is not a number equals nothing. -/
def equal : Double → Double → Bool
  | nan, _ => false
  | _, nan => false
  | negativeZero, finite value => decide (value = 0)
  | finite value, negativeZero => decide (value = 0)
  | v, w => decide (v = w)

/-- At least one, and of a size that fits in an `int`. -/
def Usable : Double → Prop
  | finite value => 1 ≤ value ∧ value < 2 ^ 31
  | _ => False

end Double

/-- What the library supplies. -/
structure Libc where
  /-- `strtod`: the number, and how many characters were read. -/
  strtod : Text → Double × Nat
  /-- `1. / v < 1e-6` of a finite `v` other than zero, as the division rounds. -/
  reciprocalTiny : Rat → Bool
  tiny_of_neg : ∀ value, value < 0 → reciprocalTiny value = true

namespace Libc

variable (libc : Libc)

def tiny : Double → Bool
  | .nan => false
  | .infinite _ => true
  | .negativeZero => true
  | .finite value => if value = 0 then false else libc.reciprocalTiny value

/-- `end == s || *end != '\0' || !std::isfinite(v) || 1. / v < 1e-6`. -/
def invalid (text : Text) : Bool :=
  (libc.strtod text).2 == 0 ||
    (text.getD (libc.strtod text).2 '\x00' != '\x00' ||
      (!(libc.strtod text).1.isFinite || libc.tiny (libc.strtod text).1))

theorem nonneg_of_valid {text : Text} (valid : libc.invalid text = false) :
    ∃ value, (libc.strtod text).1 = .finite value ∧ 0 ≤ value := by
  simp only [invalid, Bool.or_eq_false_iff, Bool.not_eq_false'] at valid
  obtain ⟨-, -, finite, large⟩ := valid
  cases number : (libc.strtod text).1 with
  | nan =>
    rw [number] at finite
    cases finite
  | infinite negative =>
    rw [number] at finite
    cases finite
  | negativeZero =>
    rw [number] at large
    cases large
  | finite value =>
    refine ⟨value, rfl, ?_⟩
    by_contra negative
    have below : value < 0 := not_le.mp negative
    rw [number, tiny, if_neg below.ne, libc.tiny_of_neg value below] at large
    cases large

end Libc

/-! ## Where the rate comes from -/

/-- How the rate is given at the start. -/
inductive Start where
  /-- Neither option is given. -/
  | absent
  /-- `--rps`. -/
  | commandLine (optarg : Text)
  /-- `request-per-second`. -/
  | json (requestPerSecond : Double)

/-- The rate the load starts with; the program ends on an argument it refuses. -/
def Start.rps (libc : Libc) : Start → Option Double
  | .absent => some (.finite 0)
  | .commandLine optarg => if libc.invalid optarg then none else some (libc.strtod optarg).1
  | .json requestPerSecond => some requestPerSecond

/-- What may change the rate while the load runs. -/
inductive Change where
  /-- A turn of `rpsUpdateFunc`, with the first line of the file if it can be opened. -/
  | file (line : Option Text)
  /-- A request to `/config`; over HTTP/1 the query is not taken from the path. -/
  | service (rawQuery : Text)

/-- The rate after `text` has been read: a valid one takes its place if it differs. -/
def assign (libc : Libc) (rps : Double) (text : Text) : Double :=
  if libc.invalid text then rps
  else if (libc.strtod text).1.equal rps then rps
  else (libc.strtod text).1

/-- The value the query has for the rate: that of the first piece with `rps` in it. -/
def rpsOfQuery (rawQuery : Text) : Option Text :=
  match (Strings.tokenize ['&'] rawQuery).find? fun token =>
      (Strings.find ['r', 'p', 's'] token).isSome with
  | none => none
  | some token =>
    match Strings.tokenize ['='] token with
    | [_, value] => some value
    | _ => none

def Change.text : Change → Option Text
  | .file line => line
  | .service rawQuery => rpsOfQuery rawQuery

/-- `rpsUpdateFunc` and the handler of `/config`. -/
def Change.rps (libc : Libc) (rps : Double) (change : Change) : Double :=
  match change.text with
  | none => rps
  | some text => assign libc rps text

/-- A change leaves the rate, or makes it one that is not negative. -/
theorem Change.rps_cases (libc : Libc) (rps : Double) (change : Change) :
    change.rps libc rps = rps ∨ ∃ value, change.rps libc rps = .finite value ∧ 0 ≤ value := by
  rw [Change.rps]
  cases change.text with
  | none => exact .inl rfl
  | some text =>
    simp only [assign]
    split
    · exact .inl rfl
    · rename_i valid
      split
      · exact .inl rfl
      · exact .inr (libc.nonneg_of_valid (Bool.not_eq_true _ ▸ valid))

def rates (libc : Libc) (rps : Double) : List Change → List Double
  | [] => [rps]
  | change :: changes => rps :: rates libc (change.rps libc rps) changes

theorem mem_rates (libc : Libc) (rps : Double) (changes : List Change) : rps ∈ rates libc rps changes := by
  cases changes <;> simp [rates]

/-! ## The timers -/

inductive Fault where
  /-- No client is where the step takes place. -/
  | disabled
  /-- The divisor is zero. -/
  | dividesByZero
  /-- The number has no value of the type it is converted to. -/
  | outOfRange
  deriving DecidableEq

def toInt : Double → Except Fault Int
  | .finite value =>
    if -2 ^ 31 ≤ Int.tdiv value.num value.den ∧ Int.tdiv value.num value.den < 2 ^ 31 then
      .ok (Int.tdiv value.num value.den)
    else .error .outOfRange
  | .negativeZero => .ok 0
  | _ => .error .outOfRange

/-- `restart_rps_timer`: the milliseconds until the timer expires. -/
def restartRpsTimer (rps : Double) : Except Fault Int :=
  match toInt rps with
  | .error fault => .error fault
  | .ok divisor =>
    if divisor = 0 then .error .dividesByZero else .ok (max 10 (Int.tdiv 1000 divisor))

/-- `n / config->rps` in `on_rps_timer`: whether there is a quotient. -/
def onRpsTimer (rps : Double) : Except Fault Unit :=
  if rps.equal (.finite 0) then .error .dividesByZero else .ok ()

/-- Where the thread of a client is. -/
inductive Timer where
  | stopped
  /-- `rps_mode()` was true, and `start_rps_timer` is called next. -/
  | starting
  | armed
  /-- The timer has expired and was restarted; `on_rps_timer` is called next. -/
  | expired
  deriving DecidableEq

structure State where
  rps : Double
  timers : Nat → Timer

def State.initial (rps : Double) : State := { rps, timers := fun _ => .stopped }

def State.moved (s : State) (client : Nat) (timer : Timer) : State :=
  { s with timers := Function.update s.timers client timer }

inductive Step where
  | change (change : Change)
  /-- `connection_made` asks for `rps_mode()`. -/
  | connect (client : Nat)
  /-- `start_rps_timer`. -/
  | start (client : Nat)
  /-- `handle_rps_timer_timeout` restarts the timer. -/
  | expire (client : Nat)
  /-- `on_rps_timer` reaches the division. -/
  | divide (client : Nat)
  /-- `on_rps_timer` returns before it. -/
  | skip (client : Nat)
  /-- `stop_rps_timer`, or an expiry after the client has stopped. -/
  | stop (client : Nat)

def step (libc : Libc) (s : State) : Step → Except Fault State
  | .change change => .ok { s with rps := change.rps libc s.rps }
  | .connect client =>
    if s.timers client = .stopped ∨ s.timers client = .armed then
      .ok (if s.rps.positive then s.moved client .starting else s)
    else .error .disabled
  | .start client =>
    if s.timers client = .starting then
      match restartRpsTimer s.rps with
      | .ok _ => .ok (s.moved client .armed)
      | .error fault => .error fault
    else .error .disabled
  | .expire client =>
    if s.timers client = .armed then
      match restartRpsTimer s.rps with
      | .ok _ => .ok (s.moved client .expired)
      | .error fault => .error fault
    else .error .disabled
  | .divide client =>
    if s.timers client = .expired then
      match onRpsTimer s.rps with
      | .ok _ => .ok (s.moved client .armed)
      | .error fault => .error fault
    else .error .disabled
  | .skip client =>
    if s.timers client = .expired then .ok (s.moved client .armed) else .error .disabled
  | .stop client =>
    if s.timers client = .armed ∨ s.timers client = .expired then .ok (s.moved client .stopped)
    else .error .disabled

def changesOf (steps : List Step) : List Change :=
  steps.filterMap fun
    | .change change => some change
    | _ => none

/-- From the first positive rate on, every rate is usable. -/
def Steady : List Double → Prop
  | [] => True
  | rps :: later =>
    if rps.positive then ∀ rate ∈ rps :: later, rate.Usable else Steady later

/-! ## A usable rate is divided by -/

theorem truncate_eq_floor {value : Rat} (nonneg : 0 ≤ value) : Int.tdiv value.num value.den = ⌊value⌋ := by
  rw [Int.tdiv_eq_ediv_of_nonneg (Rat.num_nonneg.mpr nonneg)]
  exact (Rat.floor_def value).symm

theorem restart_of_usable {rps : Double} (usable : rps.Usable) :
    ∃ period, restartRpsTimer rps = .ok period := by
  cases rps with
  | nan => exact usable.elim
  | infinite negative => exact usable.elim
  | negativeZero => exact usable.elim
  | finite value =>
    obtain ⟨large, small⟩ := usable
    have whole := truncate_eq_floor (le_trans zero_le_one large)
    have low : 1 ≤ ⌊value⌋ := Int.le_floor.mpr (by exact_mod_cast large)
    have high : ⌊value⌋ < 2 ^ 31 := Int.floor_lt.mpr (by exact_mod_cast small)
    rw [restartRpsTimer, toInt, whole, if_pos ⟨by omega, high⟩]
    simp only
    rw [if_neg (by omega)]
    exact ⟨_, rfl⟩

theorem toInt_ne_disabled (v : Double) : toInt v ≠ .error .disabled := by
  cases v with
  | nan => nofun
  | infinite negative => nofun
  | negativeZero => nofun
  | finite value =>
    rw [toInt]
    split <;> simp

theorem restart_ne_disabled (rps : Double) : restartRpsTimer rps ≠ .error .disabled := by
  rw [restartRpsTimer]
  cases converted : toInt rps with
  | error fault =>
    intro same
    exact toInt_ne_disabled rps (converted.trans same)
  | ok divisor =>
    simp only
    split <;> simp

theorem usable_of_restart {value : Rat} {period : Int} (nonneg : 0 ≤ value)
    (restarts : restartRpsTimer (.finite value) = .ok period) : (Double.finite value).Usable := by
  rw [restartRpsTimer, toInt, truncate_eq_floor nonneg] at restarts
  split at restarts
  · cases restarts
  · rename_i divisor converted
    split at converted
    · rename_i fits
      cases converted
      split at restarts
      · cases restarts
      · rename_i nonzero
        have low : 1 ≤ ⌊value⌋ := by
          have := Int.floor_nonneg.mpr nonneg
          omega
        exact ⟨by exact_mod_cast Int.le_floor.mp low, by exact_mod_cast Int.floor_lt.mp fits.2⟩
    · cases converted

theorem onRpsTimer_of_usable {rps : Double} (usable : rps.Usable) : onRpsTimer rps = .ok () := by
  cases rps with
  | nan => exact usable.elim
  | infinite negative => exact usable.elim
  | negativeZero => exact usable.elim
  | finite value =>
    have nonzero : value ≠ 0 := by
      have := usable.1
      linarith
    rw [onRpsTimer, if_neg]
    simp [Double.equal, nonzero]

/-! ## Interleavings -/

/-- No interleaving of the timers with these changes, or with the first of them, divides by zero or
converts a number that does not fit. -/
def Defined (libc : Libc) (rps : Double) (changes : List Change) : Prop :=
  ∀ steps, changesOf steps <+: changes → ∀ fault,
    run (step libc) (.initial rps) steps = .error fault → fault = .disabled

/-- With the changes that are still to come, the rates are steady, and usable where a timer runs. -/
structure Sound (libc : Libc) (changes : List Change) (s : State) : Prop where
  steady : Steady (rates libc s.rps changes)
  running : ∀ client, s.timers client ≠ .stopped → ∀ rate ∈ rates libc s.rps changes, rate.Usable

section Runs

variable {libc : Libc}

theorem steady_tail {rps : Double} {later : List Double} (steady : Steady (rps :: later)) : Steady later := by
  rw [Steady] at steady
  split at steady
  · cases later with
    | nil => trivial
    | cons next later =>
      rw [Steady]
      split
      · exact fun rate listed => steady rate (List.mem_cons_of_mem _ listed)
      · -- every later rate is usable, so this one is positive
        rename_i notPositive
        have usable := steady next (by simp)
        cases next with
        | finite value => simp [Double.positive, lt_of_lt_of_le zero_lt_one usable.1] at notPositive
        | nan => exact usable.elim
        | infinite negative => exact usable.elim
        | negativeZero => exact usable.elim
  · exact steady

theorem usable_of_steady {rps : Double} {changes : List Change} (steady : Steady (rates libc rps changes))
    (positive : rps.positive = true) : ∀ rate ∈ rates libc rps changes, rate.Usable := by
  cases changes with
  | nil =>
    rw [rates, Steady, if_pos positive] at steady
    exact steady
  | cons change changes =>
    rw [rates, Steady, if_pos positive] at steady
    exact steady

namespace Sound

variable {changes : List Change} {s : State}

theorem initial {rps : Double} (steady : Steady (rates libc rps changes)) :
    Sound libc changes (.initial rps) where
  steady := steady
  running _ runs := absurd rfl runs

theorem change {change : Change} (sound : Sound libc (change :: changes) s) :
    Sound libc changes { s with rps := change.rps libc s.rps } where
  steady := steady_tail sound.steady
  running client runs rate listed := sound.running client runs rate (List.mem_cons_of_mem _ listed)

theorem moved (sound : Sound libc changes s)
    (usable : ∀ rate ∈ rates libc s.rps changes, rate.Usable) (client : Nat) (timer : Timer) :
    Sound libc changes (s.moved client timer) where
  steady := sound.steady
  running _ _ := usable

theorem stop (sound : Sound libc changes s) (client : Nat) : Sound libc changes (s.moved client .stopped) where
  steady := sound.steady
  running other runs := by
    by_cases same : other = client
    · subst same
      exact absurd (Function.update_self ..) runs
    · refine sound.running other ?_
      intro stopped
      exact runs ((Function.update_of_ne same _ _).trans stopped)

theorem usable (sound : Sound libc changes s) {client : Nat} {timer : Timer} (found : s.timers client = timer)
    (runs : timer ≠ .stopped) : ∀ rate ∈ rates libc s.rps changes, rate.Usable :=
  sound.running client (found ▸ runs)

theorem restart (sound : Sound libc changes s) {client : Nat} {timer : Timer} (found : s.timers client = timer)
    (runs : timer ≠ .stopped) : ∃ period, restartRpsTimer s.rps = .ok period :=
  restart_of_usable (sound.usable found runs s.rps (mem_rates libc s.rps changes))

theorem step_cases {later : List Change} {e : Step} (sound : Sound libc (changesOf [e] ++ later) s) :
    step libc s e = .error .disabled ∨ ∃ t, step libc s e = .ok t ∧ Sound libc later t := by
  cases e with
  | change change => exact .inr ⟨_, rfl, sound.change⟩
  | connect client =>
    rw [step]
    split
    · refine .inr ⟨_, rfl, ?_⟩
      split
      · rename_i positive
        exact sound.moved (usable_of_steady sound.steady positive) client .starting
      · exact sound
    · exact .inl rfl
  | start client =>
    rw [step]
    split
    · rename_i found
      obtain ⟨period, restarted⟩ := sound.restart found nofun
      rw [restarted]
      exact .inr ⟨_, rfl, sound.moved (sound.usable found nofun) client .armed⟩
    · exact .inl rfl
  | expire client =>
    rw [step]
    split
    · rename_i found
      obtain ⟨period, restarted⟩ := sound.restart found nofun
      rw [restarted]
      exact .inr ⟨_, rfl, sound.moved (sound.usable found nofun) client .expired⟩
    · exact .inl rfl
  | divide client =>
    rw [step]
    split
    · rename_i found
      have usable := sound.usable found nofun
      rw [onRpsTimer_of_usable (usable s.rps (mem_rates libc s.rps _))]
      exact .inr ⟨_, rfl, sound.moved usable client .armed⟩
    · exact .inl rfl
  | skip client =>
    rw [step]
    split
    · rename_i found
      exact .inr ⟨_, rfl, sound.moved (sound.usable found nofun) client .armed⟩
    · exact .inl rfl
  | stop client =>
    rw [step]
    split
    · exact .inr ⟨_, rfl, sound.stop client⟩
    · exact .inl rfl

theorem run_defined (sound : Sound libc changes s) {steps : List Step}
    (within : changesOf steps <+: changes) {fault : Fault}
    (ends : run (step libc) s steps = .error fault) : fault = .disabled := by
  induction steps generalizing s changes with
  | nil => cases ends
  | cons e steps ih =>
    obtain ⟨later, rfl⟩ := within
    have split : changesOf (e :: steps) ++ later = changesOf [e] ++ (changesOf steps ++ later) := by
      simp only [changesOf, ← List.append_assoc, ← List.filterMap_append, List.singleton_append]
    rw [split] at sound
    rw [run_cons] at ends
    rcases sound.step_cases with stuck | ⟨t, taken, kept⟩
    · rw [stuck] at ends
      cases ends
      rfl
    · rw [taken] at ends
      exact ih kept (List.prefix_append _ _) ends

end Sound

/-! ## An interleaving that finds an unusable rate -/

theorem run_changes (s : State) (changes : List Change) :
    run (step libc) s (changes.map .change) = .ok { s with rps := changes.foldl (Change.rps libc) s.rps } := by
  induction changes generalizing s with
  | nil => rfl
  | cons change changes ih =>
    rw [List.map_cons, run_cons]
    exact ih _

theorem changesOf_map (changes : List Change) : changesOf (changes.map .change) = changes := by
  induction changes with
  | nil => rfl
  | cons change changes ih => exact congrArg (change :: ·) ih

theorem exists_of_mem_rates {rps rate : Double} {changes : List Change}
    (listed : rate ∈ rates libc rps changes) :
    ∃ before, before <+: changes ∧ rate = before.foldl (Change.rps libc) rps := by
  induction changes generalizing rps with
  | nil => exact ⟨[], List.nil_prefix, List.mem_singleton.mp listed⟩
  | cons change changes ih =>
    rcases List.mem_cons.mp listed with same | later
    · exact ⟨[], List.nil_prefix, same⟩
    · obtain ⟨before, within, reached⟩ := ih later
      exact ⟨change :: before, List.cons_prefix_cons.mpr ⟨rfl, within⟩, reached⟩

/-- A positive rate stays a number that is not negative, unless it is infinite from the start. -/
theorem usable_of_foldl {rps : Double} {period : Int} (positive : rps.positive = true) (changes : List Change)
    (restarts : restartRpsTimer (changes.foldl (Change.rps libc) rps) = .ok period) :
    (changes.foldl (Change.rps libc) rps).Usable := by
  have kept : changes.foldl (Change.rps libc) rps = rps ∨
      ∃ value, changes.foldl (Change.rps libc) rps = .finite value ∧ 0 ≤ value := by
    clear restarts
    induction changes using List.reverseRecOn with
    | nil => exact .inl rfl
    | append_singleton changes change ih =>
      rw [List.foldl_append, List.foldl_cons, List.foldl_nil]
      rcases change.rps_cases libc (changes.foldl (Change.rps libc) rps) with same | fresh
      · rwa [same]
      · exact .inr fresh
  rcases kept with same | ⟨value, reached, nonneg⟩
  · rw [same] at restarts ⊢
    cases rps with
    | nan => cases positive
    | infinite negative => cases restarts
    | negativeZero => cases positive
    | finite value => exact usable_of_restart (of_decide_eq_true positive).le restarts
  · rw [reached] at restarts ⊢
    exact usable_of_restart nonneg restarts

/-- A client that connects at a positive rate starts its timer at any later one. -/
theorem usable_of_defined {rps : Double} {changes : List Change} (defined : Defined libc rps changes)
    (positive : rps.positive = true) : ∀ rate ∈ rates libc rps changes, rate.Usable := by
  intro rate listed
  obtain ⟨before, within, rfl⟩ := exists_of_mem_rates listed
  have reaches : run (step libc) (.initial rps) ([.connect 0] ++ before.map .change ++ [.start 0]) =
      (step libc { (State.initial rps).moved 0 .starting with
        rps := before.foldl (Change.rps libc) rps } (.start 0)).bind .ok := by
    have connected : run (step libc) (.initial rps) [.connect 0] =
        .ok ((State.initial rps).moved 0 .starting) := by
      simp [run, step, State.initial, positive]
    rw [run_append, run_append, connected]
    simp only [Except.bind]
    rw [run_changes]
    simp only
    rw [run_cons]
    rfl
  have only : changesOf ([.connect 0] ++ before.map .change ++ [.start 0]) <+: changes := by
    have : changesOf ([.connect 0] ++ before.map .change ++ [.start 0]) =
        changesOf (before.map .change) := by
      simp [changesOf, List.filterMap_append]
    rw [this, changesOf_map]
    exact within
  cases restarts : restartRpsTimer (before.foldl (Change.rps libc) rps) with
  | ok period => exact usable_of_foldl positive before restarts
  | error fault =>
    have failed : run (step libc) (.initial rps) ([.connect 0] ++ before.map .change ++ [.start 0]) =
        .error fault := by
      rw [reaches]
      simp [step, State.moved, restarts, Except.bind]
    have := defined _ only fault failed
    subst this
    exact absurd restarts (restart_ne_disabled _)

theorem steady_of_defined {rps : Double} {changes : List Change} (defined : Defined libc rps changes) :
    Steady (rates libc rps changes) := by
  induction changes generalizing rps with
  | nil =>
    rw [rates, Steady]
    split
    · rename_i positive
      exact usable_of_defined defined positive
    · trivial
  | cons change changes ih =>
    rw [rates, Steady]
    split
    · rename_i positive
      exact usable_of_defined defined positive
    · refine ih fun steps within fault ends => ?_
      refine defined (.change change :: steps) ?_ fault ?_
      · exact List.cons_prefix_cons.mpr ⟨rfl, within⟩
      · rw [run_cons]
        exact ends

end Runs

def Start.rates (libc : Libc) (start : Start) (changes : List Change) : List Double :=
  match start.rps libc with
  | none => []
  | some rps => RpsTimer.rates libc rps changes

/-- **The arithmetic of the rps timers is defined exactly at steady rates.** -/
theorem defined_iff_steady (libc : Libc) (start : Start) (changes : List Change) :
    (∀ rps, start.rps libc = some rps → Defined libc rps changes) ↔ Steady (start.rates libc changes) := by
  rw [Start.rates]
  cases begun : start.rps libc with
  | none => exact iff_of_true nofun trivial
  | some rps =>
    constructor
    · intro defined
      exact steady_of_defined (defined rps rfl)
    · intro steady other same steps within fault ends
      cases same
      exact (Sound.initial steady).run_defined within ends

/-! ## Poles -/

/-- A library that reads four numbers, and divides exactly. -/
def shortLibc : Libc where
  strtod text :=
    if text = "0.5".toList then (.finite (1 / 2), 3)
    else if text = "0".toList then (.finite 0, 1)
    else if text = "-5".toList then (.finite (-5), 2)
    else if text = "100".toList then (.finite 100, 3)
    else (.finite 0, 0)
  reciprocalTiny value := decide (1 / value < 1 / 1000000)
  tiny_of_neg value negative := by
    have : 1 / value < 0 := one_div_neg.mpr negative
    exact decide_eq_true (by linarith)

/-- **Refuting pole:** `--rps 0.5` is accepted, and the first connection divides a thousand by zero; a
timer that runs at a hundred requests in a second does so once the rps file has a zero. -/
theorem fraction_divides_by_zero : (Start.commandLine "0.5".toList).rps shortLibc = some (.finite (1 / 2)) ∧
    run (step shortLibc) (.initial (.finite (1 / 2))) [.connect 0, .start 0] = .error .dividesByZero ∧
    (Start.commandLine "100".toList).rps shortLibc = some (.finite 100) ∧
    run (step shortLibc) (.initial (.finite 100))
      [.connect 0, .start 0, .change (.file (some "0".toList)), .expire 0] = .error .dividesByZero :=
  ⟨by decide +kernel, run_faults _ _ _ _ (by decide +kernel), by decide +kernel,
    run_faults _ _ _ _ (by decide +kernel)⟩

/-- **Satisfiable pole:** a rate that is refused leaves the one in force, and every interleaving is
defined. -/
theorem hundred_defined : ∀ rps, (Start.commandLine "100".toList).rps shortLibc = some rps →
      Defined shortLibc rps [.file (some "-5".toList), .file (some "100".toList)] := by
  have listed : (Start.commandLine "100".toList).rates shortLibc
      [.file (some "-5".toList), .file (some "100".toList)] =
        [.finite 100, .finite 100, .finite 100] := by
    decide +kernel
  refine (defined_iff_steady shortLibc _ _).mpr ?_
  rw [listed, Steady, if_pos (by decide +kernel)]
  intro rate among
  have same : rate = .finite 100 := by simpa using among
  subst same
  exact ⟨by norm_num, by norm_num⟩

end H2LoadRunner.Load.RpsTimer
