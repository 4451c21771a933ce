/-
# Load.RequestPayload -- the body of a request, read by nghttp2 piece by piece

`_submit_request` hands a request to nghttp2 and keeps it in the request map of the session.  When
there is room for data on a stream, nghttp2 calls `buffer_read_callback` with a buffer; the callback
copies what fits, moves `req_payload_cursor`, and sets the EOF flag when nothing is left.  Where the
rest does not fit, it copies from the beginning of the payload and not from the cursor.
-/
import H2LoadRunner.Load.Http1Response
import H2LoadRunner.Load.Http1Upload
import H2LoadRunner.Load.ValuePickers

namespace H2LoadRunner.Load.RequestPayload

open Library
open Library.Transition (run ok_of_run_cons)
open Http1Response (Text HeaderFrame)
open MockServer.JsonPointers (steps splitComplexJsonPointer)
open ValuePickers (Engines Finished RegexPicker locate answer Answered locate_locates
  sound_initial)

set_option autoImplicit false

abbrev Bytes := List UInt8

/-! ## The session -/

/-- `Request_Data`, as far as sending reads it.  A text is `none` while it points to the shared empty
string. -/
structure RequestData where
  schema : Option Text := none
  authority : Option Text := none
  path : Option Text := none
  method : Option Text := none
  reqPayload : Bytes := []
  reqPayloadCursor : Nat := 0
  reqHeadersFromConfig : HeaderFrame := []
  reqHeadersOfIndividual : HeaderFrame := []

def RequestData.isEmpty (data : RequestData) : Bool :=
  data.schema.isNone && data.authority.isNone && data.method.isNone

structure Config where
  nclients : Nat
  rps : Rat

/-- What one call of the callback leaves: the bytes placed in the buffer, whose number it returns,
and the EOF flag. -/
structure Chunk where
  bytes : Bytes
  eof : Bool

structure Session where
  requestMap : FiniteMap Int RequestData := ∅
  currStreamId : Int := 0
  /-- The calls of the callback so far. -/
  reads : List (Int × Chunk) := []

/-- The answers of nghttp2 and of `rand` to one `_submit_request`. -/
structure Answers where
  requestAllowed : Bool
  rand : Nat
  streamId : Int

def int32Max : Int := 2147483647

def Session.exhausting (cfg : Config) (answers : Answers) (s : Session) : Bool :=
  decide ((1 < cfg.nclients ∧ 0 < cfg.rps ∧
      ((int32Max - s.currStreamId : Int) : Rat) < 64 * (cfg.nclients : Rat) * cfg.rps ∧
      answers.rand % cfg.nclients = 0) ∨
    int32Max - 1 ≤ s.currStreamId)

def pseudoHeaders : List Text :=
  [":path".toList, ":scheme".toList, ":authority".toList, ":method".toList]

/-- `http2_nvs`: the pseudo headers, the headers of the configuration that the request does not
replace, and the headers of the request. -/
def RequestData.http2Nvs (data : RequestData) : List (Text × Text) :=
  pseudoHeaders.zip [data.path.getD [], data.schema.getD [], data.authority.getD [], data.method.getD []] ++
    (data.reqHeadersFromConfig.filter fun header =>
      (data.reqHeadersOfIndividual.find header.1).isNone && header.1 ∉ pseudoHeaders) ++
    data.reqHeadersOfIndividual.filter fun header => header.1 ∉ pseudoHeaders

/-- What `nghttp2_submit_request` is called with. -/
structure Submission where
  nvs : List (Text × Text)
  /-- Whether the callback is given as the source of a body. -/
  provider : Bool

inductive SubmitResult where
  /-- -1, before the library is called or because it refuses. -/
  | failed
  | maxStreamToBeExhausted
  | submitted (request : Submission)

/-- `_submit_request`, with the request that `get_request_to_submit` gives. -/
def Session.submitRequest (cfg : Config) (s : Session) (answers : Answers) (data : RequestData) :
    SubmitResult × Session :=
  if !answers.requestAllowed then (.failed, s)
  else if s.exhausting cfg answers then (.maxStreamToBeExhausted, s)
  else if data.isEmpty then (.failed, s)
  else if answers.streamId < 0 then (.failed, s)
  else
    (.submitted ⟨data.http2Nvs, !data.reqPayload.isEmpty⟩,
      { s with
        currStreamId := answers.streamId
        requestMap := s.requestMap.emplace answers.streamId data })

/-- The bytes a `memcpy` of `count` bytes takes from the payload. -/
def copy (payload : Bytes) (offset count : Nat) : Bytes := (payload.drop offset).take count

def RequestData.read (data : RequestData) (length : Nat) : Chunk × RequestData :=
  if data.reqPayloadCursor < data.reqPayload.length then
    let rest := data.reqPayload.length - data.reqPayloadCursor
    if rest ≤ length then
      (⟨copy data.reqPayload data.reqPayloadCursor rest, true⟩,
        { data with reqPayloadCursor := data.reqPayload.length })
    else
      -- the source address is `stream_buffer.c_str()`, without the cursor
      (⟨copy data.reqPayload 0 length, false⟩,
        { data with reqPayloadCursor := data.reqPayloadCursor + length })
  else (⟨[], true⟩, data)

inductive Fault where
  /-- `assert(request != request_map.end())` -/
  | noRequest

def Session.bufferReadCallback (s : Session) (streamId : Int) (length : Nat) : Except Fault Session :=
  match s.requestMap.lookup streamId with
  | none => .error .noRequest
  | some data =>
    let (chunk, after) := data.read length
    .ok { s with
      requestMap := s.requestMap.insert streamId after
      reads := s.reads ++ [(streamId, chunk)] }

inductive Event where
  | submit (answers : Answers) (data : RequestData)
  | read (streamId : Int) (length : Nat)
  /-- The stream is closed and its request leaves the map. -/
  | close (streamId : Int)

def step (cfg : Config) (s : Session) : Event → Except Fault Session
  | .submit answers data => .ok (s.submitRequest cfg answers data).2
  | .read streamId length => s.bufferReadCallback streamId length
  | .close streamId => .ok { s with requestMap := s.requestMap.erase streamId }

/-! ## One stream -/

/-- The chunks of successive calls with these buffer lengths. -/
def RequestData.upload (data : RequestData) : List Nat → List Chunk
  | [] => []
  | length :: rest => (data.read length).1 :: (data.read length).2.upload rest

def lengthsOf (streamId : Int) (events : List Event) : List Nat :=
  events.filterMap fun event => match event with
    | .read id length => if id = streamId then some length else none
    | _ => none

def chunksOf (streamId : Int) (reads : List (Int × Chunk)) : List Chunk :=
  reads.filterMap fun entry => if entry.1 = streamId then some entry.2 else none

def placed (chunks : List Chunk) : Bytes := chunks.flatMap Chunk.bytes

structure Faithful (payload : Bytes) (lengths : List Nat) (chunks : List Chunk) : Prop where
  /-- No call writes more than the buffer holds. -/
  bounded : List.Forall₂ (fun chunk length => chunk.bytes.length ≤ length) chunks lengths
  /-- Up to and including a call that sets the flag, the payload has been placed. -/
  whole : ∀ before chunk after, chunks = before ++ chunk :: after → chunk.eof = true →
    placed (before ++ [chunk]) = payload
  /-- The flag is set by the call with which all bytes have been placed. -/
  atLastByte : ∀ before chunk after, chunks = before ++ chunk :: after →
    (chunk.eof = true ↔ (placed (before ++ [chunk])).length = payload.length)
  /-- Buffers that hold the payload together reach its end. -/
  reached : lengths ≠ [] → payload.length ≤ lengths.sum → ∃ chunk ∈ chunks, chunk.eof = true

/-- Every buffer but those that take the rest is to get bytes with which the payload also begins, if
the buffers reach the end of the payload at all. -/
def Repeats (payload : Bytes) (lengths : List Nat) : Prop :=
  payload.length ≤ lengths.sum →
    ∀ before length after, lengths = before ++ length :: after →
      before.sum + length < payload.length →
        copy payload before.sum length = copy payload 0 length

/-- The chunk of a call behind `sum` bytes of earlier buffers. -/
def chunkAt (payload : Bytes) (sum length : Nat) : Chunk :=
  if sum + length < payload.length then ⟨copy payload 0 length, false⟩ else ⟨payload.drop sum, true⟩

def chunksFrom (payload : Bytes) : Nat → List Nat → List Chunk
  | _, [] => []
  | sum, length :: rest => chunkAt payload sum length :: chunksFrom payload (sum + length) rest

variable {data : RequestData} {sum : Nat} {payload : Bytes} {s t : Session} {streamId : Int}

theorem read_eq (cursor : data.reqPayloadCursor = min sum data.reqPayload.length) (length : Nat) :
    data.read length = (chunkAt data.reqPayload sum length,
        { data with reqPayloadCursor := min (sum + length) data.reqPayload.length }) := by
  obtain ⟨schema, authority, path, method, payload, reached, config, individual⟩ := data
  obtain rfl : reached = min sum payload.length := cursor
  unfold RequestData.read chunkAt
  by_cases inside : sum < payload.length
  · have here : min sum payload.length = sum := Nat.min_eq_left (Nat.le_of_lt inside)
    simp only [here, inside, ↓reduceIte]
    by_cases fits : payload.length - sum ≤ length
    · have last : ¬ sum + length < payload.length := by omega
      have full : min (sum + length) payload.length = payload.length := by omega
      have rest : copy payload sum (payload.length - sum) = payload.drop sum := by
        rw [copy, ← List.length_drop, List.take_length]
      simp only [fits, last, full, rest, ↓reduceIte]
    · have more : sum + length < payload.length := by omega
      have partly : min (sum + length) payload.length = sum + length := by omega
      simp only [fits, more, partly, ↓reduceIte]
  · have here : min sum payload.length = payload.length := by omega
    have last : ¬ sum + length < payload.length := by omega
    have full : min (sum + length) payload.length = payload.length := by omega
    have nothing : payload.drop sum = [] := List.drop_eq_nil_of_le (Nat.le_of_not_lt inside)
    simp only [here, Nat.lt_irrefl, last, full, nothing, ↓reduceIte]

theorem upload_eq (cursor : data.reqPayloadCursor = min sum data.reqPayload.length)
    (lengths : List Nat) : data.upload lengths = chunksFrom data.reqPayload sum lengths := by
  induction lengths generalizing data sum with
  | nil => rfl
  | cons length rest ih =>
    rw [RequestData.upload, read_eq cursor, chunksFrom]
    exact congrArg _ (ih rfl)

theorem chunksFrom_append (payload : Bytes) (sum : Nat) (first rest : List Nat) :
    chunksFrom payload sum (first ++ rest) =
      chunksFrom payload sum first ++ chunksFrom payload (sum + first.sum) rest := by
  induction first generalizing sum with
  | nil => rfl
  | cons length first ih =>
    rw [List.cons_append, chunksFrom, chunksFrom, ih, List.sum_cons, Nat.add_assoc, List.cons_append]

theorem exists_split_of_chunksFrom {lengths : List Nat} {before after : List Chunk} {chunk : Chunk}
    (split : chunksFrom payload sum lengths = before ++ chunk :: after) :
    ∃ early length late, lengths = early ++ length :: late ∧ before = chunksFrom payload sum early ∧
      chunk = chunkAt payload (sum + early.sum) length ∧
      after = chunksFrom payload (sum + early.sum + length) late := by
  induction before generalizing sum lengths with
  | nil =>
    cases lengths with
    | nil => cases split
    | cons length rest =>
      obtain ⟨rfl, rfl⟩ := List.cons.inj split
      exact ⟨[], length, rest, rfl, rfl, rfl, rfl⟩
  | cons first before ih =>
    cases lengths with
    | nil => cases split
    | cons length rest =>
      obtain ⟨rfl, later⟩ := List.cons.inj split
      obtain ⟨early, other, late, rfl, rfl, rfl, rfl⟩ := ih later
      refine ⟨length :: early, other, late, rfl, rfl, ?_, ?_⟩ <;>
        rw [List.sum_cons, Nat.add_assoc sum]

/-! ## What is placed -/

theorem length_copy_of_le {offset count : Nat} (inside : offset + count ≤ payload.length) :
    (copy payload offset count).length = count := by
  rw [copy, List.length_take, List.length_drop]
  omega

theorem chunkAt_eof_iff (payload : Bytes) (sum length : Nat) :
    (chunkAt payload sum length).eof = true ↔ payload.length ≤ sum + length := by
  unfold chunkAt
  split <;> simp <;> omega

theorem chunkAt_bounded (payload : Bytes) (sum length : Nat) :
    (chunkAt payload sum length).bytes.length ≤ length := by
  unfold chunkAt
  split
  · exact List.length_take_le _ _
  · rw [List.length_drop]
    omega

theorem forall₂_chunksFrom (payload : Bytes) (sum : Nat) (lengths : List Nat) :
    List.Forall₂ (fun chunk length => chunk.bytes.length ≤ length) (chunksFrom payload sum lengths)
      lengths := by
  induction lengths generalizing sum with
  | nil => exact .nil
  | cons length rest ih => exact .cons (chunkAt_bounded payload sum length) (ih _)

theorem placed_cons (chunk : Chunk) (rest : List Chunk) : placed (chunk :: rest) = chunk.bytes ++ placed rest := rfl

theorem placed_append (first rest : List Chunk) : placed (first ++ rest) = placed first ++ placed rest :=
  List.flatMap_append

theorem placed_chunksFrom_of_le (past : payload.length ≤ sum) (lengths : List Nat) :
    placed (chunksFrom payload sum lengths) = [] := by
  induction lengths generalizing sum with
  | nil => rfl
  | cons length rest ih =>
    have last : ¬ sum + length < payload.length := by omega
    rw [chunksFrom, placed_cons, ih (by omega), chunkAt, if_neg last, List.append_nil]
    exact List.drop_eq_nil_of_le past

theorem length_placed (payload : Bytes) (inside : sum ≤ payload.length) (lengths : List Nat) :
    sum + (placed (chunksFrom payload sum lengths)).length = min (sum + lengths.sum) payload.length := by
  induction lengths generalizing sum with
  | nil => exact (Nat.min_eq_left inside).symm
  | cons length rest ih =>
    rw [chunksFrom, placed_cons, List.length_append, List.sum_cons]
    by_cases more : sum + length < payload.length
    · have later := ih (Nat.le_of_lt more)
      rw [chunkAt, if_pos more, length_copy_of_le (by omega)]
      omega
    · rw [chunkAt, if_neg more, placed_chunksFrom_of_le (by omega), List.length_drop, List.length_nil]
      omega

/-- What is placed from a position on is the rest of the payload exactly when every buffer in front of
the end gets the bytes at its position. -/
theorem placed_eq_drop_iff (payload : Bytes) {lengths : List Nat} (inside : sum ≤ payload.length)
    (enough : payload.length ≤ sum + lengths.sum) : placed (chunksFrom payload sum lengths) = payload.drop sum ↔
      ∀ before length after, lengths = before ++ length :: after → sum + before.sum + length < payload.length →
          copy payload (sum + before.sum) length = copy payload 0 length := by
  induction lengths generalizing sum with
  | nil =>
    have whole : payload.length ≤ sum := enough
    rw [List.drop_eq_nil_of_le whole]
    refine iff_of_true rfl fun before length after split => ?_
    cases before <;> cases split
  | cons length rest ih =>
    rw [List.sum_cons] at enough
    rw [chunksFrom, placed_cons]
    by_cases more : sum + length < payload.length
    · have rested : payload.drop sum = copy payload sum length ++ payload.drop (sum + length) := by
        rw [copy, ← List.drop_drop, List.take_append_drop]
      have lengths : (copy payload 0 length).length = (copy payload sum length).length := by
        rw [length_copy_of_le (by omega), length_copy_of_le (by omega)]
      rw [chunkAt, if_pos more, rested]
      have later := ih (Nat.le_of_lt more) (by omega)
      constructor
      · intro same before other after split short
        obtain ⟨here, rest⟩ := List.append_inj same lengths
        cases before with
        | nil =>
          obtain ⟨rfl, rfl⟩ := List.cons.inj split
          exact here.symm
        | cons first before =>
          obtain ⟨rfl, rfl⟩ := List.cons.inj split
          rw [List.sum_cons, ← Nat.add_assoc] at short ⊢
          exact later.mp rest before other after rfl short
      · intro each
        refine congrArg₂ _ (each [] length rest rfl more).symm
          (later.mpr fun before other after split short => ?_)
        have position : sum + (length :: before).sum = sum + length + before.sum := by
          rw [List.sum_cons, Nat.add_assoc]
        rw [← position] at short ⊢
        exact each (length :: before) other after (by rw [split]; rfl) short
    · have past : payload.length ≤ sum + length := Nat.le_of_not_lt more
      rw [chunkAt, if_neg more, placed_chunksFrom_of_le past, List.append_nil]
      refine iff_of_true rfl fun before other after split short => ?_
      cases before with
      | nil =>
        obtain ⟨rfl, rfl⟩ := List.cons.inj split
        exact absurd short more
      | cons first before =>
        obtain ⟨rfl, rfl⟩ := List.cons.inj split
        rw [List.sum_cons] at short
        omega

/-! ## Runs of the session -/

theorem bufferReadCallback_ok {length : Nat} (called : s.bufferReadCallback streamId length = .ok t) :
    ∃ data, s.requestMap.lookup streamId = some data ∧
      t = { s with
        requestMap := s.requestMap.insert streamId (data.read length).2
        reads := s.reads ++ [(streamId, (data.read length).1)] } := by
  unfold Session.bufferReadCallback at called
  cases found : s.requestMap.lookup streamId with
  | none =>
    rw [found] at called
    cases called
  | some data =>
    rw [found] at called
    exact ⟨data, rfl, (Except.ok.inj called).symm⟩

theorem step_stream {cfg : Config} {event : Event} (taken : step cfg s event = .ok t)
    (remains : event ≠ .close streamId) (here : s.requestMap.lookup streamId = some data) :
    ∃ next, t.requestMap.lookup streamId = some next ∧
      ∀ lengths, chunksOf streamId s.reads ++ data.upload (lengthsOf streamId [event] ++ lengths) =
        chunksOf streamId t.reads ++ next.upload lengths := by
  cases event with
  | submit answers other =>
    cases taken
    refine ⟨data, ?_, ?_⟩
    · unfold Session.submitRequest
      split_ifs <;> try exact here
      rw [FiniteMap.lookup_emplace]
      split
      · rename_i same
        rw [← same, here]
        rfl
      · exact here
    · intro lengths
      unfold Session.submitRequest
      split_ifs <;> rfl
  | read id length =>
    obtain ⟨found, present, rfl⟩ := bufferReadCallback_ok taken
    by_cases same : id = streamId
    · subst same
      obtain rfl : found = data := Option.some.inj (present.symm.trans here)
      refine ⟨(found.read length).2, by rw [FiniteMap.lookup_insert_eq, if_pos rfl], ?_⟩
      intro lengths
      simp [lengthsOf, chunksOf, RequestData.upload]
    · refine ⟨data, by rw [FiniteMap.lookup_insert_eq, if_neg (Ne.symm same), here], ?_⟩
      intro lengths
      simp [lengthsOf, chunksOf, same]
  | close id =>
    cases taken
    have other : streamId ≠ id := fun same => remains (by rw [same])
    refine ⟨data, ?_, fun lengths => rfl⟩
    rw [FiniteMap.lookup_erase_eq, if_neg other, here]

/-- A stream that stays open is read as if it were alone. -/
theorem reads_eq_upload {cfg : Config} {events : List Event}
    (ends : run (step cfg) s events = .ok t) (remains : .close streamId ∉ events)
    (here : s.requestMap.lookup streamId = some data) :
    chunksOf streamId t.reads = chunksOf streamId s.reads ++ data.upload (lengthsOf streamId events) := by
  induction events generalizing s data with
  | nil =>
    cases ends
    exact (List.append_nil _).symm
  | cons event rest ih =>
    obtain ⟨next, taken, later⟩ := ok_of_run_cons ends
    rw [List.mem_cons, not_or] at remains
    obtain ⟨after, present, reads⟩ := step_stream taken (Ne.symm remains.1) here
    have lengths : lengthsOf streamId (event :: rest) =
        lengthsOf streamId [event] ++ lengthsOf streamId rest := by
      rw [← List.singleton_append]
      exact List.filterMap_append
    rw [ih later remains.2 present, lengths, reads]

theorem faithful_iff_repeats (payload : Bytes) (lengths : List Nat) :
    Faithful payload lengths (chunksFrom payload 0 lengths) ↔ Repeats payload lengths := by
  have every : payload.length ≤ lengths.sum →
      (placed (chunksFrom payload 0 lengths) = payload ↔
        ∀ before length after, lengths = before ++ length :: after →
          before.sum + length < payload.length →
            copy payload before.sum length = copy payload 0 length) := by
    intro enough
    have all := placed_eq_drop_iff payload (Nat.zero_le _) (enough.trans_eq (Nat.zero_add _).symm)
    simpa only [List.drop_zero, Nat.zero_add] using all
  -- a call sets the flag when the buffers so far reach the end, and nothing is placed behind it
  have flagged : ∀ before chunk after, chunksFrom payload 0 lengths = before ++ chunk :: after →
      (chunk.eof = true ↔ (placed (before ++ [chunk])).length = payload.length) ∧
      (chunk.eof = true → payload.length ≤ lengths.sum ∧
        placed (before ++ [chunk]) = placed (chunksFrom payload 0 lengths)) := by
    intro before chunk after split
    obtain ⟨early, length, late, rfl, rfl, rfl, rfl⟩ := exists_split_of_chunksFrom split
    rw [Nat.zero_add] at split ⊢
    have upTo : chunksFrom payload 0 early ++ [chunkAt payload early.sum length] =
        chunksFrom payload 0 (early ++ [length]) := by
      rw [chunksFrom_append, Nat.zero_add]
      rfl
    have counted := length_placed payload (Nat.zero_le _) (early ++ [length])
    rw [List.sum_append, List.sum_singleton] at counted
    rw [chunkAt_eof_iff, upTo]
    refine ⟨by omega, fun reached => ⟨?_, ?_⟩⟩
    · rw [List.sum_append, List.sum_cons]
      omega
    · rw [split, ← upTo, placed_append, placed_append, placed_cons, placed_cons,
        placed_chunksFrom_of_le reached]
      rfl
  constructor
  · intro faithful enough
    refine (every enough).mp ?_
    cases lengths with
    | nil =>
      have empty : payload = [] := List.eq_nil_of_length_eq_zero (Nat.le_zero.mp enough)
      rw [empty]
      rfl
    | cons length rest =>
      obtain ⟨chunk, member, eof⟩ := faithful.reached (List.cons_ne_nil _ _) enough
      obtain ⟨before, after, split⟩ := List.append_of_mem member
      rw [← ((flagged before chunk after split).2 eof).2]
      exact faithful.whole before chunk after split eof
  · intro repeats
    refine ⟨forall₂_chunksFrom payload 0 lengths, ?_, fun before chunk after split =>
      (flagged before chunk after split).1, ?_⟩
    · intro before chunk after split eof
      obtain ⟨enough, same⟩ := (flagged before chunk after split).2 eof
      rw [same]
      exact (every enough).mpr (repeats enough)
    · intro some enough
      obtain ⟨early, length, rfl⟩ := List.eq_nil_or_concat lengths |>.resolve_left some
      refine ⟨chunkAt payload early.sum length, ?_, ?_⟩
      · rw [List.concat_eq_append, chunksFrom_append, Nat.zero_add]
        exact List.mem_append_right _ (List.mem_singleton_self _)
      · rw [chunkAt_eof_iff]
        simpa using enough

/-- **The payload of a request is read as it is, exactly when the buffers in front of the last are
to get bytes with which it begins.** -/
theorem upload_faithful_iff {cfg : Config} {s t : Session} {events : List Event} {streamId : Int}
    {data : RequestData} (ends : run (step cfg) s events = .ok t)
    (remains : .close streamId ∉ events) (here : s.requestMap.lookup streamId = some data)
    (start : data.reqPayloadCursor = 0) (unread : chunksOf streamId s.reads = []) :
    Faithful data.reqPayload (lengthsOf streamId events) (chunksOf streamId t.reads) ↔
      Repeats data.reqPayload (lengthsOf streamId events) := by
  rw [reads_eq_upload ends remains here, unread, List.nil_append,
    upload_eq (start.trans (Nat.zero_min _).symm)]
  exact faithful_iff_repeats _ _

/-- A payload that fits into two buffers is read as it is: the first starts at the beginning. -/
theorem repeats_of_two {first second : Nat} (fits : payload.length ≤ first + second)
    (later : List Nat) : Repeats payload (first :: second :: later) := by
  intro _ before length after split short
  rcases before with _ | ⟨one, _ | ⟨two, before⟩⟩
  · rfl
  · simp only [List.cons_append, List.nil_append, List.cons.injEq] at split
    rw [List.sum_singleton] at short
    omega
  · simp only [List.cons_append, List.cons.injEq] at split
    rw [List.sum_cons, List.sum_cons] at short
    omega

def threeBytes : RequestData :=
  { schema := some "http".toList, authority := some "a".toList, path := some "/".toList
    method := some "POST".toList, reqPayload := [97, 98, 99] }

def submitThreeBytes : Event := .submit ⟨true, 0, 1⟩ threeBytes

def submitted : Session := { requestMap := AList.singleton 1 threeBytes, currStreamId := 1 }

/-- **Satisfiable pole:** two buffers, of two bytes and of sixteen. -/
theorem twoBuffers_faithful : run (step ⟨1, 0⟩) {} [submitThreeBytes] = .ok submitted ∧
      ∃ t, run (step ⟨1, 0⟩) submitted [.read 1 2, .read 1 16] = .ok t ∧
        Faithful threeBytes.reqPayload (lengthsOf 1 [.read 1 2, .read 1 16]) (chunksOf 1 t.reads) := by
  refine ⟨rfl, _, rfl, ?_⟩
  have here : submitted.requestMap.lookup 1 = some threeBytes := rfl
  have ends : run (step ⟨1, 0⟩) submitted [.read 1 2, .read 1 16] = .ok _ := rfl
  exact (upload_faithful_iff ends (by simp) here rfl rfl).mpr (repeats_of_two (by decide) [])

/-- **Refuting pole:** buffers of one byte each; the second gets the first byte again. -/
theorem threeBuffers_not_faithful :
    ∃ t, run (step ⟨1, 0⟩) {} [submitThreeBytes, .read 1 1, .read 1 1, .read 1 1] = .ok t ∧
      placed (chunksOf 1 t.reads) = [97, 97, 99] ∧ ¬ Faithful [97, 98, 99] [1, 1, 1] (chunksOf 1 t.reads) := by
  refine ⟨_, rfl, rfl, fun faithful => ?_⟩
  have whole := faithful.whole [⟨[97], false⟩, ⟨[97], false⟩] ⟨[99], true⟩ [] rfl rfl
  exact absurd whole (by decide)

/-! ## The stored request -/

inductive Protocol where
  | http1
  | http2
  deriving DecidableEq

/-- `Http1Session::_on_write`, on the request of `stream_req_counter_`: the bytes are pushed, and what
is left is stored as the payload.  The flag is set when the counter goes on to the next request. -/
def RequestData.write (data : RequestData) : Chunk × RequestData :=
  if Http1Upload.chunk < data.reqPayload.length then
    (⟨data.reqPayload.take Http1Upload.chunk, false⟩,
      { data with reqPayload := data.reqPayload.drop Http1Upload.chunk })
  else (⟨data.reqPayload, true⟩, data)

/-- `Http1Upload.Session.onWrite` makes this call on the payload that is stored. -/
theorem onWrite_eq_write {cfg : Http1Upload.Config} {session : Http1Upload.Session} {offset : Int}
    {data : RequestData} (scenarios : cfg.scenarios = true) (going : session.complete = false)
    (opened : session.streams.lookup session.streamReqCounter = some offset)
    (here : session.requestMap.lookup session.streamReqCounter = some data.reqPayload)
    (left : data.reqPayload ≠ []) :
    session.onWrite cfg = .ok (if data.write.1.eof then (session.push data.write.1.bytes).bodySent
      else
        { session.push data.write.1.bytes with
          requestMap := session.requestMap.insert session.streamReqCounter data.write.2.reqPayload }) := by
  simp only [Http1Upload.Session.onWrite, RequestData.write, going, opened, scenarios, here, left,
    Bool.false_eq_true, if_true, if_false]
  by_cases more : Http1Upload.chunk < data.reqPayload.length
  · simp only [if_pos more, Bool.false_eq_true, if_false]
  · simp only [if_neg more, if_true]

/-- What is stored and what has been sent after the call that reaches the end.  Only nghttp2 gives its
calls a length, and without a payload no call is needed. -/
def RequestData.send (protocol : Protocol) (data : RequestData) : List Nat → Option (RequestData × Bytes)
  | [] => if data.reqPayload = [] then some (data, []) else none
  | length :: rest =>
    let (chunk, after) := match protocol with
      | .http1 => data.write
      | .http2 => data.read length
    if chunk.eof then some (after, chunk.bytes)
    else (after.send protocol rest).map fun (stored, sent) => (stored, chunk.bytes ++ sent)

/-- One call is enough for HTTP/1; nghttp2's buffers get the bytes at their positions. -/
def KeptWhole (payload : Bytes) (calls : List Nat) : Protocol → Prop
  | .http1 => payload.length ≤ Http1Upload.chunk
  | .http2 => Repeats payload calls

variable {stored : RequestData} {sent : Bytes} {calls : List Nat}

theorem send_http1 (ends : data.send .http1 calls = some (stored, sent)) :
    sent = data.reqPayload ∧ stored.reqPayload.length ≤ Http1Upload.chunk ∧
      (data.reqPayload.length ≤ Http1Upload.chunk → stored = data) := by
  induction calls generalizing data sent with
  | nil =>
    obtain ⟨empty, same⟩ := Option.ite_none_right_eq_some.mp ends
    cases same
    exact ⟨empty.symm, by simp [empty], fun _ => rfl⟩
  | cons length rest ih =>
    simp only [RequestData.send, RequestData.write] at ends
    split at ends
    · rename_i more
      obtain ⟨⟨_, later⟩, ended, same⟩ := Option.map_eq_some_iff.mp ends
      obtain ⟨rfl, rfl⟩ := Prod.mk.inj same
      obtain ⟨rfl, short, _⟩ := ih ended
      exact ⟨List.take_append_drop _ _, short, fun fits => absurd more (Nat.not_lt.mpr fits)⟩
    · rename_i fits
      obtain ⟨rfl, rfl⟩ := Prod.mk.inj (Option.some.inj ends)
      exact ⟨rfl, Nat.not_lt.mp fits, fun _ => rfl⟩

theorem send_http2 (cursor : data.reqPayloadCursor = min sum data.reqPayload.length)
    (ends : data.send .http2 calls = some (stored, sent)) :
    stored = { data with reqPayloadCursor := stored.reqPayloadCursor } ∧
      data.reqPayload.length ≤ sum + calls.sum ∧ sent = placed (chunksFrom data.reqPayload sum calls) := by
  induction calls generalizing data sum sent with
  | nil =>
    obtain ⟨empty, same⟩ := Option.ite_none_right_eq_some.mp ends
    cases same
    exact ⟨rfl, by simp [empty], rfl⟩
  | cons length rest ih =>
    simp only [RequestData.send, read_eq cursor] at ends
    rw [List.sum_cons, chunksFrom, placed_cons]
    split at ends
    · rename_i last
      rw [chunkAt_eof_iff] at last
      obtain ⟨rfl, rfl⟩ := Prod.mk.inj (Option.some.inj ends)
      rw [placed_chunksFrom_of_le last, List.append_nil]
      exact ⟨rfl, by omega, rfl⟩
    · obtain ⟨⟨_, later⟩, ended, same⟩ := Option.map_eq_some_iff.mp ends
      obtain ⟨rfl, rfl⟩ := Prod.mk.inj same
      obtain ⟨kept, enough, rfl⟩ := ih rfl ended
      exact ⟨kept, by rw [← Nat.add_assoc]; exact enough, rfl⟩

theorem intact_iff {protocol : Protocol} (start : data.reqPayloadCursor = 0)
    (ends : data.send protocol calls = some (stored, sent)) :
    (stored = { data with reqPayloadCursor := stored.reqPayloadCursor } ∧ stored.reqPayload = sent) ↔
      KeptWhole data.reqPayload calls protocol := by
  cases protocol with
  | http1 =>
    obtain ⟨rfl, short, whole⟩ := send_http1 ends
    refine ⟨fun intact => (congrArg List.length intact.2).symm.trans_le short, fun fits => ?_⟩
    rw [whole fits]
    exact ⟨rfl, rfl⟩
  | http2 =>
    obtain ⟨kept, enough, rfl⟩ := send_http2 (start.trans (Nat.zero_min _).symm) ends
    have payload : stored.reqPayload = data.reqPayload := by rw [kept]
    have each := placed_eq_drop_iff data.reqPayload (Nat.zero_le _) enough
    simp only [List.drop_zero, Nat.zero_add] at each enough
    rw [and_iff_right kept, payload, eq_comm, each]
    exact ⟨fun repeats _ => repeats, fun repeats => repeats enough⟩

/-- The bytes as the value pickers see them. -/
def text (bytes : Bytes) : Text := bytes.map fun byte => Char.ofNat byte.toNat

/-- The picker finds what its pointer is to find in the payload that was sent. -/
def Sees {Regex : Type} {n : Nat} (engines : Engines Regex) (finished : Finished) (picker : RegexPicker Regex n)
    (sent : Bytes) : Prop :=
  ∃ decoded, locate engines finished {} picker = .ok (answer engines (text sent) picker.source, decoded)

/-- What a picker of the request's payload finds is at its pointer in the payload of the response. -/
theorem sees_iff {Regex : Type} {n : Nat} {engines : Engines Regex} {finished : Finished}
    {picker : RegexPicker Regex n} (kind : picker.whereToPickUpFrom = .reqPointer) (sent : Bytes) :
    Sees engines finished picker sent ↔ Answered engines finished picker ∧
      answer engines finished.respPayload picker.source = answer engines (text sent) picker.source := by
  have here := locate_locates (sound_initial engines finished) picker
  rw [Sees]
  by_cases answered : Answered engines finished picker
  · obtain ⟨after, located, -⟩ := here.found answered
    rw [located]
    simp [answered, ValuePickers.readText, kind]
  · obtain ⟨fault, failed⟩ := here.fault answered
    rw [failed]
    simp [answered]

/-- **Sending leaves the stored request as it was, with the payload that was sent, exactly when one call
of an HTTP/1 session sends it, or the buffers of nghttp2 get the bytes at their positions; and a picker of
the request's payload sees what was sent exactly when the response has the same at its pointer.** -/
theorem send_intact_iff {protocol : Protocol} (start : data.reqPayloadCursor = 0)
    (ends : data.send protocol calls = some (stored, sent)) :
    ((stored = { data with reqPayloadCursor := stored.reqPayloadCursor } ∧ stored.reqPayload = sent) ↔
        KeptWhole data.reqPayload calls protocol) ∧
      ∀ {Regex : Type} {n : Nat} (engines : Engines Regex) (finished : Finished) (picker : RegexPicker Regex n),
        finished.request.reqPayload = text stored.reqPayload → picker.whereToPickUpFrom = .reqPointer →
          (Sees engines finished picker sent ↔ Answered engines finished picker ∧
            answer engines finished.respPayload picker.source = answer engines (text sent) picker.source) :=
  ⟨intact_iff start ends, fun _ _ _ _ kind => sees_iff kind sent⟩

/-- The request and its response, as the pickers get them. -/
def RequestData.answered (data : RequestData) (respPayload : Text) : Finished where
  request :=
    { method := data.method.getD [], path := data.path.getD [], schema := data.schema.getD []
      authority := data.authority.getD [], reqPayload := text data.reqPayload
      reqHeadersFromConfig := .empty, reqHeadersOfIndividual := .empty }
  respHeaders := []
  respPayload := respPayload

def atId : RegexPicker Nat 1 := ⟨.reqPointer, "/id".toList, 9, ⟨0, Nat.one_pos⟩⟩

theorem atId_steps : steps atId.source = [.pointer "/id".toList] := by
  simp only [atId, steps]
  rw [splitComplexJsonPointer]
  decide

theorem atId_answered (finished : Finished) : Answered ValuePickers.firstCharacters finished atId := by
  constructor <;>
  · intro _
    rw [atId_steps]
    exact fun _ _ => trivial

/-- **Satisfiable pole:** three bytes over HTTP/1, which the server sends back. -/
theorem threeBytes_intact :
    ∃ stored sent, threeBytes.send .http1 [0] = some (stored, sent) ∧ stored.reqPayload = sent ∧
      Sees ValuePickers.firstCharacters (stored.answered (text [97, 98, 99])) atId sent :=
  have ends : threeBytes.send .http1 [0] = some (threeBytes, [97, 98, 99]) := rfl
  ⟨_, _, ends, ((send_intact_iff rfl ends).1.mpr (by decide : 3 ≤ Http1Upload.chunk)).2,
    ((send_intact_iff rfl ends).2 _ _ atId rfl rfl).mpr ⟨atId_answered _, rfl⟩⟩

/-- **Refuting pole:** one byte more than an HTTP/1 session sends at once, and only that byte is left;
besides, a picker of the request's payload finds what is in that of the response. -/
theorem secondCall_not_intact :
    let payload := List.replicate (Http1Upload.chunk + 1) 97
    (∃ stored, { threeBytes with reqPayload := payload }.send .http1 [0, 0] = some (stored, payload) ∧
      stored.reqPayload = [97]) ∧
    ¬ Sees ValuePickers.firstCharacters (threeBytes.answered "4".toList) atId [97, 98, 99] := by
  refine ⟨⟨{ threeBytes with reqPayload := [97] }, ?_, rfl⟩, fun sees => ?_⟩
  · have last : ¬ Http1Upload.chunk < 1 := by decide
    simp [RequestData.send, RequestData.write, last, List.replicate_succ']
  · have same := ((sees_iff rfl _).mp sees).2
    revert same
    rw [answer, answer, atId_steps]
    decide

end H2LoadRunner.Load.RequestPayload
