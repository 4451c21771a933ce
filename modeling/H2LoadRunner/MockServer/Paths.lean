/-
# MockServer.Paths -- joining, encoding and decoding paths

`path_join` takes `.` and `..` out of a path and slashes that follow each other, but it does not skip
the slashes behind `./` and `../`: `/.//a` becomes `//a`, and only that becomes `/a`.  What it writes is
a list of directories and a file without dot segments (`exists_pathJoin`); of such a path it drops the
empty directories (`pathJoin_render`), so the paths that it leaves alone are those without
(`pathJoin_eq_self_iff`).
-/
import Mathlib

namespace H2LoadRunner.MockServer.Paths

set_option autoImplicit false

abbrev Bytes := List UInt8

def slash : UInt8 := '/'.toUInt8
def dot : UInt8 := '.'.toUInt8
def percent : UInt8 := '%'.toUInt8
def question : UInt8 := '?'.toUInt8

/-! ## Joining paths -/

def eatFile (out : Bytes) : Bytes :=
  let kept := (out.reverse.dropWhile (· ≠ slash)).reverse
  if kept = [] then [slash] else kept

def eatDir (out : Bytes) : Bytes := eatFile (eatFile out).dropLast

/-- The loop of `path_join`, with what is written and what is left from the beginning of a segment.  What
the source asks of the bytes behind `first` is whether the segment is `.` or `..`. -/
def joinLoop : Nat → Bytes → Bytes → Bytes
  | 0, out, _ => out
  | turns + 1, out, rest =>
    let segment := rest.takeWhile (· ≠ slash)
    let file := if out.getLast? = some slash then out else eatFile out
    if rest = [] then out
    else
      match rest.dropWhile (· ≠ slash) with
      | [] =>
        if segment = [dot] then out
        else if segment = [dot, dot] then eatDir out
        else file ++ segment
      | _ :: more =>
        if segment = [dot] then joinLoop turns out more
        else if segment = [dot, dot] then joinLoop turns (eatDir out) more
        else joinLoop turns (file ++ segment ++ [slash]) (more.dropWhile (· = slash))

def withQuery (path query : Bytes) : Bytes := path ++ if query = [] then [] else question :: query

/-- What is written before the loop, and what is left to read. -/
def joinStart (basePath relPath : Bytes) : Bytes × Bytes :=
  if relPath.head? = some slash then ([slash], relPath.dropWhile (· = slash))
  else if basePath = [] then ([slash], relPath)
  else (basePath, relPath)

def pathJoin (basePath baseQuery relPath relQuery : Bytes) : Bytes :=
  if relPath = [] then
    withQuery (if basePath = [] then [slash] else basePath) (if relQuery = [] then baseQuery else relQuery)
  else
    let (out, first) := joinStart basePath relPath
    withQuery (joinLoop relPath.length out first) relQuery

/-! ## Percent encoding -/

def isAlpha (c : UInt8) : Bool :=
  ('A'.toUInt8 ≤ c && c ≤ 'Z'.toUInt8) || ('a'.toUInt8 ≤ c && c ≤ 'z'.toUInt8)

def isDigit (c : UInt8) : Bool := '0'.toUInt8 ≤ c && c ≤ '9'.toUInt8

def isHexDigit (c : UInt8) : Bool :=
  isDigit c || ('A'.toUInt8 ≤ c && c ≤ 'F'.toUInt8) || ('a'.toUInt8 ≤ c && c ≤ 'f'.toUInt8)

def hexToUint (c : UInt8) : UInt32 :=
  if c ≤ '9'.toUInt8 then c.toUInt32 - '0'.val
  else if c ≤ 'Z'.toUInt8 then c.toUInt32 - 'A'.val + 10
  else if c ≤ 'z'.toUInt8 then c.toUInt32 - 'a'.val + 10
  else 256

def inRfc3986UnreservedChars (c : UInt8) : Bool :=
  isAlpha c || isDigit c || "-._~".toList.any (·.toUInt8 == c)

def inRfc3986SubDelims (c : UInt8) : Bool := "!$&'()*+,;=".toList.any (·.toUInt8 == c)

def upperXdigit (n : UInt8) : UInt8 := if n < 10 then n + '0'.toUInt8 else n - 10 + 'A'.toUInt8

def percentEncodeByte (c : UInt8) : Bytes :=
  if inRfc3986UnreservedChars c || inRfc3986SubDelims c || c == slash then [c]
  else [percent, upperXdigit (c >>> 4), upperXdigit (c &&& 15)]

def percentEncodePath (path : Bytes) : Bytes := path.flatMap percentEncodeByte

def percentDecode : Bytes → Bytes
  | c :: a :: b :: rest =>
    if c = percent ∧ isHexDigit a ∧ isHexDigit b then
      ((hexToUint a <<< 4) + hexToUint b).toUInt8 :: percentDecode rest
    else c :: percentDecode (a :: b :: rest)
  | c :: rest => c :: percentDecode rest
  | [] => []

/-! ## Directories and a file -/

/-- A segment that is neither `.` nor `..`; it may be empty. -/
structure Plain (segment : Bytes) : Prop where
  one : slash ∉ segment
  here : segment ≠ [dot]
  above : segment ≠ [dot, dot]

theorem Plain.nil : Plain [] := ⟨by simp, by simp, by simp⟩

/-- The path of a file in a directory. -/
def render (dirs : List Bytes) (file : Bytes) : Bytes := slash :: dirs.flatMap (· ++ [slash]) ++ file

variable {dirs : List Bytes} {file : Bytes}

theorem render_concat (dirs : List Bytes) (segment file : Bytes) :
    render (dirs ++ [segment]) file = render dirs [] ++ segment ++ [slash] ++ file := by
  simp [render]

theorem exists_render (dirs : List Bytes) : ∃ front, render dirs [] = front ++ [slash] := by
  induction dirs using List.reverseRecOn with
  | nil => exact ⟨[], rfl⟩
  | append_singleton dirs segment => exact ⟨render dirs [] ++ segment, by simp [render]⟩

theorem getLast_render (dirs : List Bytes) : (render dirs []).getLast? = some slash := by
  obtain ⟨front, written⟩ := exists_render dirs
  rw [written, List.getLast?_concat]

theorem eatFile_render (one : slash ∉ file) : eatFile (render dirs file) = render dirs [] := by
  obtain ⟨front, written⟩ := exists_render dirs
  have split : render dirs file = front ++ [slash] ++ file := by simp [← written, render]
  have kept : ((render dirs file).reverse.dropWhile (· ≠ slash)).reverse = render dirs [] := by
    rw [split, written, List.reverse_append, List.dropWhile_append_of_pos]
    · simp
    · intro c member
      simpa using ne_of_mem_of_not_mem (List.mem_reverse.mp member) one
  unfold eatFile
  rw [kept, if_neg (by simp [render])]

theorem eatDir_render (plain : ∀ segment ∈ dirs, Plain segment) :
    eatDir (render dirs []) = render dirs.dropLast [] := by
  unfold eatDir
  rw [eatFile_render List.not_mem_nil]
  induction dirs using List.reverseRecOn with
  | nil => rfl
  | append_singleton dirs segment =>
    rw [render_concat, List.append_nil, List.dropLast_concat, List.dropLast_concat]
    have whole : render dirs [] ++ segment = render dirs segment := by simp [render]
    rw [whole, eatFile_render (plain segment (by simp)).one]

/-- **What the loop writes is a directory and a file, without `.` and `..`.** -/
theorem exists_joinLoop (turns : Nat) (dirs : List Bytes) (plain : ∀ segment ∈ dirs, Plain segment)
    (rest : Bytes) :
    ∃ dirs' file, (∀ segment ∈ file :: dirs', Plain segment) ∧
      joinLoop turns (render dirs []) rest = render dirs' file := by
  have done (dirs : List Bytes) (plain : ∀ segment ∈ dirs, Plain segment) :
      ∃ dirs' file, (∀ segment ∈ file :: dirs', Plain segment) ∧ render dirs [] = render dirs' file :=
    ⟨dirs, [], List.forall_mem_cons.mpr ⟨Plain.nil, plain⟩, rfl⟩
  induction turns generalizing dirs rest with
  | zero => exact done dirs plain
  | succ turns ih =>
    have dropped : ∀ segment ∈ dirs.dropLast, Plain segment :=
      fun segment member => plain segment (List.mem_of_mem_dropLast member)
    have one : slash ∉ rest.takeWhile (· ≠ slash) := fun member => by
      simpa using List.mem_takeWhile_imp member
    simp only [joinLoop, getLast_render, eatDir_render plain]
    by_cases stop : rest = []
    · rw [if_pos stop]
      exact done dirs plain
    rw [if_neg stop]
    rcases rest.dropWhile (· ≠ slash) with _ | ⟨-, more⟩ <;> dsimp only <;> split_ifs with here above
    · exact done dirs plain
    · exact done _ dropped
    · exact ⟨dirs, _, List.forall_mem_cons.mpr ⟨⟨one, here, above⟩, plain⟩, by simp [render]⟩
    · exact ih _ plain _
    · exact ih _ dropped _
    · rw [← List.append_nil (_ ++ [slash]), ← render_concat]
      refine ih _ (fun segment member => ?_) _
      rcases List.mem_append.mp member with old | new
      · exact plain segment old
      · exact List.mem_singleton.mp new ▸ ⟨one, here, above⟩

section Segment

variable {segment : Bytes} (one : slash ∉ segment) (some : segment ≠ [])

include one in
theorem differs : ∀ c ∈ segment, decide (c ≠ slash) = true :=
  fun c member => by simpa using ne_of_mem_of_not_mem member one

include one some in
theorem dropWhile_slash (more : Bytes) : (segment ++ more).dropWhile (· = slash) = segment ++ more := by
  obtain ⟨c, rest, rfl⟩ := List.exists_cons_of_ne_nil some
  exact List.dropWhile_cons_of_neg (by simpa using differs one c List.mem_cons_self)

end Segment

/-- **A path without `.` and `..` loses its empty directories.** -/
theorem joinLoop_render (dirs d : List Bytes) (plain : ∀ segment ∈ file :: d, Plain segment)
    (turns : Nat) (enough : (d.flatMap (· ++ [slash]) ++ file).length ≤ turns) :
    joinLoop turns (render dirs []) ((d.flatMap (· ++ [slash]) ++ file).dropWhile (· = slash)) =
      render (dirs ++ d.filter (· ≠ [])) file := by
  induction d generalizing dirs turns with
  | nil =>
    obtain ⟨one, here, above⟩ := plain file List.mem_cons_self
    rw [List.flatMap_nil, List.nil_append, List.filter_nil, List.append_nil] at *
    rcases eq_or_ne file [] with rfl | some
    · cases turns <;> simp [joinLoop]
    · obtain ⟨turns, rfl⟩ := Nat.exists_eq_succ_of_ne_zero
        ((List.length_pos_of_ne_nil some).trans_le enough).ne'
      rw [← List.append_nil file, dropWhile_slash one some, List.append_nil]
      simp only [joinLoop, getLast_render, if_neg some, List.takeWhile_eq_self_iff.mpr (differs one),
        List.dropWhile_eq_nil_iff.mpr (differs one), if_neg here, if_neg above]
      simp [render]
  | cons segment d ih =>
    have rest : ∀ segment ∈ file :: d, Plain segment := fun segment member =>
      plain segment ((List.mem_cons.mp member).elim (· ▸ by simp) (by simp +contextual))
    obtain ⟨one, here, above⟩ := plain segment (by simp)
    rw [List.flatMap_cons, List.append_assoc, List.append_assoc, List.singleton_append] at *
    rcases eq_or_ne segment [] with rfl | some
    · simpa using ih dirs rest turns (by simp at enough ⊢; omega)
    · rw [List.length_append, List.length_cons] at enough
      obtain ⟨turns, rfl⟩ := Nat.exists_eq_succ_of_ne_zero (show turns ≠ 0 by omega)
      have turn := ih (dirs ++ [segment]) rest turns (by omega)
      rw [render_concat, List.append_nil] at turn
      rw [dropWhile_slash one some]
      simp only [joinLoop, getLast_render, List.takeWhile_append_of_pos (differs one),
        List.dropWhile_append_of_pos (differs one)]
      simpa [some, here, above] using turn

theorem pathJoin_render {d : List Bytes} (plain : ∀ segment ∈ file :: d, Plain segment) :
    pathJoin [] [] (render d file) [] = render (d.filter (· ≠ [])) file := by
  have joined := joinLoop_render [] d plain (render d file).length (by simp [render])
  simpa [pathJoin, joinStart, withQuery, render] using joined

theorem exists_pathJoin (path : Bytes) :
    ∃ dirs file, (∀ segment ∈ file :: dirs, Plain segment) ∧ pathJoin [] [] path [] = render dirs file := by
  simp only [pathJoin, joinStart, withQuery, if_true, List.append_nil]
  split_ifs
  · exact ⟨[], [], by simp [Plain.nil], rfl⟩
  all_goals exact exists_joinLoop _ [] (by simp) _

/-- The paths that `path_join` leaves alone. -/
def Normal (path : Bytes) : Prop :=
  ∃ dirs file, (∀ segment ∈ file :: dirs, Plain segment) ∧ [] ∉ dirs ∧ path = render dirs file

theorem pathJoin_eq_self_iff (path : Bytes) : pathJoin [] [] path [] = path ↔ Normal path := by
  constructor
  · intro same
    obtain ⟨dirs, file, plain, joined⟩ := exists_pathJoin path
    rw [same] at joined
    subst joined
    refine ⟨dirs.filter (· ≠ []), file, fun segment member => ?_, by simp, ?_⟩
    · exact plain segment (List.cons_subset_cons file (List.filter_subset_self _) member)
    · exact same.symm.trans (pathJoin_render plain)
  · rintro ⟨dirs, file, plain, full, rfl⟩
    rw [pathJoin_render plain, List.filter_eq_self.mpr]
    exact fun segment member => by simpa using ne_of_mem_of_not_mem member full

/-! ## Room for the result -/

theorem length_eatFile_le (out : Bytes) : (eatFile out).length ≤ max 1 out.length := by
  have kept := (List.dropWhile_sublist (l := out.reverse) (· ≠ slash)).length_le
  rw [List.length_reverse] at kept
  dsimp only [eatFile]
  split_ifs
  · simp
  · rw [List.length_reverse]
    omega

theorem length_eatDir_le (out : Bytes) : (eatDir out).length ≤ max 1 out.length := by
  have file := length_eatFile_le out
  have dir := length_eatFile_le (eatFile out).dropLast
  rw [List.length_dropLast] at dir
  unfold eatDir
  omega

/-- After any number of turns, what is written is no longer than what was there and what was read. -/
theorem length_joinLoop_le (turns : Nat) (out rest : Bytes) :
    (joinLoop turns out rest).length ≤ max 1 out.length + rest.length := by
  induction turns generalizing out rest with
  | zero => exact (le_max_right 1 out.length).trans (Nat.le_add_right _ _)
  | succ turns ih =>
    have cut : (rest.takeWhile (· ≠ slash)).length + (rest.dropWhile (· ≠ slash)).length = rest.length := by
      rw [← List.length_append, List.takeWhile_append_dropWhile]
    have file := length_eatFile_le out
    have dir := length_eatDir_le out
    dsimp only [joinLoop]
    cases behind : rest.dropWhile (· ≠ slash) with
    | nil =>
      rw [behind] at cut
      split_ifs <;> simp only [List.length_append, List.length_nil] at * <;> omega
    | cons _ more =>
      rw [behind] at cut
      have fewer := (List.dropWhile_sublist (l := more) (· = slash)).length_le
      have skipped := ih out more
      have above := ih (eatDir out) more
      have written (out : Bytes) :=
        ih (out ++ rest.takeWhile (· ≠ slash) ++ [slash]) (more.dropWhile (· = slash))
      have kept := written out
      have cutFile := written (eatFile out)
      simp only [List.length_append, List.length_cons, List.length_nil] at cut kept cutFile
      dsimp only
      split_ifs <;> omega

/-- **What is written fits**, the terminating zero included: the block that `path_join` allocates is long
enough after any number of turns. -/
theorem pathJoin_fits (basePath baseQuery relPath relQuery : Bytes) :
    let block := max 1 basePath.length + relPath.length + 1 + max baseQuery.length relQuery.length + 1
    (∀ turns, (joinLoop turns (joinStart basePath relPath).1 (joinStart basePath relPath).2).length < block) ∧
      (pathJoin basePath baseQuery relPath relQuery).length < block := by
  have start : max 1 (joinStart basePath relPath).1.length + (joinStart basePath relPath).2.length ≤
      max 1 basePath.length + relPath.length := by
    have skipped := (List.dropWhile_sublist (l := relPath) (· = slash)).length_le
    unfold joinStart
    split_ifs <;> simp only [List.length_cons, List.length_nil] at * <;> omega
  have loop (turns : Nat) :=
    (length_joinLoop_le turns (joinStart basePath relPath).1 (joinStart basePath relPath).2).trans start
  refine ⟨fun turns => by have := loop turns; omega, ?_⟩
  have last := loop relPath.length
  dsimp only [pathJoin, withQuery]
  split_ifs <;> simp <;> omega

/-! ## What is encoded is decoded -/

theorem percentDecode_cons {c : UInt8} (other : c ≠ percent) (rest : Bytes) :
    percentDecode (c :: rest) = c :: percentDecode rest := by
  rcases rest with _ | ⟨a, _ | ⟨b, rest⟩⟩ <;> simp [percentDecode, other]

theorem upperXdigit_hex : ∀ c : UInt8,
    isHexDigit (upperXdigit (c >>> 4)) ∧ isHexDigit (upperXdigit (c &&& 15)) ∧
    ((hexToUint (upperXdigit (c >>> 4)) <<< 4) + hexToUint (upperXdigit (c &&& 15))).toUInt8 = c := by
  decide +kernel

theorem percentEncodeByte_mem : ∀ c : UInt8,
    question ∉ percentEncodeByte c ∧ (slash ∈ percentEncodeByte c → slash = c) := by
  decide +kernel

theorem percentDecode_encode (path : Bytes) : percentDecode (percentEncodePath path) = path := by
  induction path with
  | nil => rfl
  | cons c path ih =>
    rw [percentEncodePath, List.flatMap_cons, ← percentEncodePath]
    by_cases kept : inRfc3986UnreservedChars c || inRfc3986SubDelims c || c == slash
    · have other : c ≠ percent := by
        rintro rfl
        exact absurd kept (by decide)
      rw [percentEncodeByte, if_pos kept, List.singleton_append, percentDecode_cons other, ih]
    · obtain ⟨high, low, value⟩ := upperXdigit_hex c
      rw [percentEncodeByte, if_neg kept]
      simp [percentDecode, high, low, value, ih]

theorem question_notMem_encode (path : Bytes) : question ∉ percentEncodePath path := by
  simp [percentEncodePath, (percentEncodeByte_mem _).1]

theorem Plain.encode {segment : Bytes} (plain : Plain segment) : Plain (percentEncodePath segment) where
  one member := by
    obtain ⟨c, inside, written⟩ := List.mem_flatMap.mp member
    exact plain.one ((percentEncodeByte_mem c).2 written ▸ inside)
  -- a dot is decoded as it is
  here same := plain.here (by rw [← percentDecode_encode segment, same]; rfl)
  above same := plain.above (by rw [← percentDecode_encode segment, same]; rfl)

theorem encode_render (dirs : List Bytes) (file : Bytes) :
    percentEncodePath (render dirs file) =
      render (dirs.map percentEncodePath) (percentEncodePath file) := by
  have kept : percentEncodeByte slash = [slash] := by decide
  simp [render, percentEncodePath, kept, List.flatMap_assoc, List.flatMap_map]

end H2LoadRunner.MockServer.Paths
