/-
# Load.ResponseRecords -- one response, recorded over HTTP/1 and over HTTP/2

Both sessions record a response through the same functions of the client: `on_header_frame_begin`
begins a map, `on_header` enters a field into the map begun last, and `on_data_chunk` extends the
body.  nghttp2 reports the beginning of each block of headers, which the HTTP/2 session passes on.
llhttp does not, and the HTTP/1 session begins a map with every value that is reported.

* `recordsAlike_iff`: a response leaves the same over both exactly when it has one header field whose
  value is reported at once over HTTP/1.
-/
import H2LoadRunner.Load.Http1Response

namespace H2LoadRunner.Load.ResponseRecords

open Library
open Http1Response

set_option autoImplicit false

/-! ## The client -/

structure Client where
  recorder : Recorder
  respTrailerPresent : Bool := false

def Client.awaiting : Client where
  recorder := { request := some {}, stream := some {} }

namespace Client

def onHeaderFrameBegin (c : Client) (endStream : Bool) : Client :=
  let begun := c.recorder.onHeaderFrameBegin
  { recorder := begun
    respTrailerPresent := c.respTrailerPresent ||
      ((begun.request.map fun request => decide (1 < request.respHeaders.length)).getD false && endStream) }

def onDataChunk (c : Client) (chunk : Text) : Client :=
  { c with recorder :=
      { c.recorder.modifyRequest fun request =>
          { request with respPayload := request.respPayload ++ chunk } with
        bytesBody := c.recorder.bytesBody + chunk.length } }

/-- A callback of llhttp.  With the value of a header, `on_header_frame_begin` is given the flags 0. -/
def http1Callback (c : Client) (callback : Callback) : Client where
  recorder := c.recorder.callback callback
  respTrailerPresent :=
    match callback with
    | .headerValue _ => if c.recorder.onHeaderFrameCallbackCalled then c.respTrailerPresent
        else (c.onHeaderFrameBegin false).respTrailerPresent
    | _ => c.respTrailerPresent

def http1Reads (c : Client) (buffers : List (List Callback)) : Client :=
  buffers.foldl (fun c callbacks => callbacks.foldl http1Callback c) c

end Client

inductive Http2Callback where
  | beginHeaders (endStream : Bool)
  | header (name value : Text)
  | data (chunk : Text)

namespace Client

def http2Callback (c : Client) : Http2Callback → Client
  | .beginHeaders endStream => c.onHeaderFrameBegin endStream
  | .header name value =>
    let entered := c.recorder.onHeader name value
    { c with recorder :=
        { entered with bytesHeadDecomp := entered.bytesHeadDecomp + name.length + value.length } }
  | .data chunk => c.onDataChunk chunk

def http2Calls (c : Client) (callbacks : List Http2Callback) : Client := callbacks.foldl http2Callback c

def respHeaders (c : Client) : List HeaderFrame := (c.recorder.request.map RequestRecord.respHeaders).getD []

def respPayload (c : Client) : Text := (c.recorder.request.map RequestRecord.respPayload).getD []

end Client

/-! ## A response on both protocols -/

def lower (text : Text) : Text := text.map Char.toLower

/-- `header_value.erase(0, header_value.find_first_not_of(' '))` -/
def trim (value : Text) : Text := value.dropWhile (· == ' ')

/-- A response; names of header fields contain no colon. -/
structure Response where
  status : Nat
  fields : List (Text × Text)
  body : Text
  tokens : ∀ field ∈ fields, ':' ∉ field.1

/-- A delivery by llhttp is one of the response: names of header fields come at once. -/
structure Response.DeliveredAs (response : Response) (d : Delivery) : Prop where
  code : d.code = response.status
  fields : d.headers.map (fun field => (field.name.whole, field.value.whole)) = response.fields
  names : ∀ field ∈ d.headers, field.name.Unbroken
  body : (d.body.map Pieces.whole).flatten = response.body
  trailers : d.trailers = []

/-- The callbacks of nghttp2 for the response: on HTTP/2 the status is a header and names are in lower
case; the body comes in chunks. -/
def Response.http2 (response : Response) (endStream : Bool) (chunks : List Text) : List Http2Callback :=
  .beginHeaders endStream :: .header ":status".toList (Nat.toDigits 10 response.status) ::
    response.fields.map (fun field => .header (lower field.1) field.2) ++ chunks.map .data

def join (held : Option Text) (value : Text) : Option Text :=
  some (match held with
    | none => value
    | some before => before ++ "; ".toList ++ value)

def joined (fields : List (Text × Text)) (name : Text) : Option Text :=
  ((fields.filter fun field => lower field.1 = lower name).map fun field => trim field.2).foldl join none

def value (frame : HeaderFrame) (name : Text) : Option Text := (frame.find name).map Prod.snd

def Holds (fields : List (Text × Text)) (frame : HeaderFrame) : Prop :=
  ∀ name, ':' ∉ name → value frame name = joined fields name

/-- Both clients have recorded the same: one map, which holds the fields, the body, and whether there
were trailers. -/
structure RecordsAlike (response : Response) (a b : Client) : Prop where
  headers : ∃ first second, a.respHeaders = [first] ∧ b.respHeaders = [second] ∧
    Holds response.fields first ∧ Holds response.fields second
  body : a.respPayload = response.body ∧ b.respPayload = response.body
  trailers : a.respTrailerPresent = b.respTrailerPresent

/-! ## Letter case -/

theorem lower_lower (text : Text) : lower (lower text) = lower text := by
  have once : ∀ c : Char, c.toLower.toLower = c.toLower := by
    intro c
    unfold Char.toLower
    grind
  simp [lower, Function.comp_def, once]

theorem eq_colon_of_toLower {c : Char} (colon : c.toLower = ':') : c = ':' := by
  unfold Char.toLower at colon
  split at colon
  · rename_i upper
    have moved : c.val + 32 = 58 := congrArg Char.val colon
    grind
  · exact colon

/-- The name of a header field is not that of the pseudo header, in any letter case. -/
theorem lower_status_ne {name : Text} (token : ':' ∉ name) : lower ":status".toList ≠ lower name := by
  intro same
  have member : ':' ∈ lower name := by
    rw [← same]
    decide
  obtain ⟨c, inside, colon⟩ := List.mem_map.mp member
  exact token (eq_colon_of_toLower colon ▸ inside)

/-! ## Entering fields into a map -/

theorem lower_lt_or_lt {a b : Text} (different : lower a ≠ lower b) (v w : Text) :
    nameBelow (a, v) (b, w) = true ∨ nameBelow (b, w) (a, v) = true := by
  rcases lt_or_gt_of_ne different with below | below
  · exact .inl (decide_eq_true below)
  · exact .inr (decide_eq_true below)

theorem find_none_iff {frame : HeaderFrame} {name : Text} :
    frame.find name = none ↔ ∀ entry ∈ frame, lower entry.1 ≠ lower name := by
  simp [HeaderFrame.find, lower]

theorem value_add (frame : HeaderFrame) (name text other : Text) :
    value (frame.add name text) other =
      if lower name = lower other then join (value frame other) text else value frame other := by
  have found_name : ∀ {entry : Text × Text}, frame.find name = some entry → lower entry.1 = lower name := by
    intro entry found
    have matching := List.find?_some found
    simpa [lower] using matching
  unfold HeaderFrame.add
  cases found : frame.find name with
  | none =>
    have absent := find_none_iff.mp found
    by_cases same : lower name = lower other
    · have missing : frame.find other = none :=
        find_none_iff.mpr fun entry member => same ▸ absent entry member
      rw [if_pos same]
      unfold value
      rw [missing]
      have entered : HeaderFrame.find (OrderedSet.insert nameBelow (name, text) frame) other =
          some (name, text) := by
        refine OrderedSet.find?_insert ?_ (fun entry member => ?_) fun entry member =>
          lower_lt_or_lt (Ne.symm (absent entry member)) _ _
        · simpa [lower] using same
        · simpa [lower] using find_none_iff.mp missing entry member
      dsimp only
      rw [entered]
      rfl
    · rw [if_neg same]
      unfold value HeaderFrame.find
      dsimp only
      rw [OrderedSet.find?_insert_of_not]
      simpa [lower] using same
  | some entry =>
    have changed : HeaderFrame.find (frame.map fun held =>
          if held.1 = entry.1 then (held.1, held.2 ++ "; ".toList ++ text) else held) other =
        (frame.find other).map fun held =>
          if held.1 = entry.1 then (held.1, held.2 ++ "; ".toList ++ text) else held := by
      unfold HeaderFrame.find
      rw [List.find?_map]
      congr 2
      funext held
      simp only [Function.comp_apply]
      split <;> rfl
    dsimp only
    unfold value
    rw [changed]
    by_cases same : lower name = lower other
    · have here : frame.find other = some entry := by
        rw [← found]
        unfold HeaderFrame.find
        simp only [lower] at same
        rw [same]
      rw [if_pos same, here]
      simp [join]
    · rw [if_neg same]
      cases there : frame.find other with
      | none => rfl
      | some held =>
        have different : held.1 ≠ entry.1 := by
          intro equal
          have matching := List.find?_some there
          refine same ?_
          rw [← found_name found, ← equal]
          simpa [lower] using matching
        simp [different]

/-- The map after the fields have been entered, each under a spelling of its name. -/
def enter (spell : Text → Text) (frame : HeaderFrame) (fields : List (Text × Text)) : HeaderFrame :=
  fields.foldl (fun frame field => frame.add (spell field.1) (trim field.2)) frame

theorem value_enter {spell : Text → Text} (keeps : ∀ name, lower (spell name) = lower name)
    (frame : HeaderFrame) (fields : List (Text × Text)) (name : Text) :
    value (enter spell frame fields) name =
      ((fields.filter fun field => lower field.1 = lower name).map fun field => trim field.2).foldl join
        (value frame name) := by
  induction fields generalizing frame with
  | nil => rfl
  | cons field rest ih =>
    rw [enter, List.foldl_cons, ← enter, ih, value_add, keeps]
    by_cases same : lower field.1 = lower name
    · rw [if_pos same, List.filter_cons_of_pos (by simpa using same), List.map_cons, List.foldl_cons]
    · rw [if_neg same, List.filter_cons_of_neg (by simpa using same)]

/-! ## Over HTTP/2 -/

structure Client.Recorded (c : Client) (frame : HeaderFrame) (payload : Text) : Prop where
  headers : ∃ status, c.recorder.request = some ⟨status, [frame], payload⟩
  isOpen : c.recorder.stream.isSome = true
  noTrailers : c.respTrailerPresent = false

namespace Client.Recorded

variable {c : Client} {frame : HeaderFrame} {payload : Text}

theorem respHeaders (recorded : c.Recorded frame payload) : c.respHeaders = [frame] := by
  obtain ⟨status, request⟩ := recorded.headers
  rw [Client.respHeaders, request]
  rfl

theorem respPayload (recorded : c.Recorded frame payload) : c.respPayload = payload := by
  obtain ⟨status, request⟩ := recorded.headers
  rw [Client.respPayload, request]
  rfl

theorem beginHeaders (endStream : Bool) :
    (Client.awaiting.http2Callback (.beginHeaders endStream)).Recorded [] [] :=
  ⟨⟨0, rfl⟩, rfl, rfl⟩

theorem header (recorded : c.Recorded frame payload) (name value : Text) :
    (c.http2Callback (.header name value)).Recorded (frame.add name (trim value)) payload := by
  obtain ⟨⟨status, request⟩, isOpen, noTrailers⟩ := recorded
  obtain ⟨stream, present⟩ := Option.isSome_iff_exists.mp isOpen
  have entered : c.recorder.request.map (fun request => request.addHeader name (trim value)) =
      some ⟨status, [frame.add name (trim value)], payload⟩ := by
    rw [request]
    rfl
  unfold Client.http2Callback Recorder.onHeader
  simp only [present, Option.isNone_some, Bool.false_eq_true, if_false]
  unfold Recorder.onStatusHeader
  simp only [Recorder.modifyRequest, present]
  split
  · split
    · exact ⟨⟨status, entered⟩, rfl, noTrailers⟩
    · rename_i code read
      refine ⟨⟨code, ?_⟩, rfl, noTrailers⟩
      show (c.recorder.request.map fun request => request.addHeader name (trim value)).map _ = _
      rw [entered]
      rfl
  · exact ⟨⟨status, entered⟩, rfl, noTrailers⟩

theorem fields (recorded : c.Recorded frame payload) (spell : Text → Text) (fields : List (Text × Text)) :
    (c.http2Calls (fields.map fun field => .header (spell field.1) field.2)).Recorded
      (enter spell frame fields) payload := by
  induction fields generalizing c frame with
  | nil => exact recorded
  | cons field rest ih => exact ih (recorded.header (spell field.1) field.2)

theorem data (recorded : c.Recorded frame payload) (chunks : List Text) :
    (c.http2Calls (chunks.map .data)).Recorded frame (payload ++ chunks.flatten) := by
  induction chunks generalizing c payload with
  | nil =>
    rw [List.flatten_nil, List.append_nil]
    exact recorded
  | cons chunk rest ih =>
    obtain ⟨⟨status, request⟩, isOpen, noTrailers⟩ := recorded
    have here : (c.onDataChunk chunk).Recorded frame (payload ++ chunk) := by
      refine ⟨⟨status, ?_⟩, isOpen, noTrailers⟩
      show c.recorder.request.map _ = _
      rw [request]
      rfl
    rw [List.flatten_cons, ← List.append_assoc]
    exact ih here

end Client.Recorded

theorem http2_records (response : Response) (endStream : Bool) (chunks : List Text) :
    ∃ frame, (Client.awaiting.http2Calls (response.http2 endStream chunks)).Recorded frame chunks.flatten ∧
      Holds response.fields frame := by
  have recorded := ((((Client.Recorded.beginHeaders endStream).header ":status".toList
    (Nat.toDigits 10 response.status)).fields lower response.fields).data chunks)
  rw [List.nil_append, Client.http2Calls, Client.http2Calls, ← List.foldl_append] at recorded
  refine ⟨_, recorded, fun name token => ?_⟩
  have status := value_add [] ":status".toList (trim (Nat.toDigits 10 response.status)) name
  rw [if_neg (lower_status_ne token)] at status
  rw [value_enter lower_lower, status]
  rfl

/-! ## Over HTTP/1 -/

theorem http1Callback_eq (c : Client) (callback : Callback) :
    c.http1Callback callback = { c with recorder := c.recorder.callback callback } := by
  unfold Client.http1Callback
  cases callback with
  | headerValue fragment =>
    simp only [Client.onHeaderFrameBegin, Bool.and_false, Bool.or_false, ite_self]
  | _ => rfl

theorem http1Reads_eq (c : Client) (buffers : List (List Callback)) :
    c.http1Reads buffers = { c with recorder := c.recorder.onReads buffers } := by
  have each : ∀ (callbacks : List Callback) (c : Client),
      callbacks.foldl Client.http1Callback c = { c with recorder := c.recorder.onRead callbacks } := by
    intro callbacks
    induction callbacks with
    | nil => intro c; rfl
    | cons callback rest ih =>
      intro c
      rw [List.foldl_cons, ih, http1Callback_eq]
      rfl
  unfold Client.http1Reads
  induction buffers generalizing c with
  | nil => rfl
  | cons callbacks rest ih =>
    rw [List.foldl_cons, each, ih]
    rfl

/-- Over HTTP/1 a response leaves a map for every report of a value, and its body. -/
theorem http1_records {response : Response} {d : Delivery} (delivered : response.DeliveredAs d)
    {buffers : List (List Callback)} (split : buffers.flatten = d.callbacks) :
    (Client.awaiting.http1Reads buffers).respHeaders = d.headers.flatMap (FieldPieces.frames true) ∧
      (Client.awaiting.http1Reads buffers).respPayload = response.body ∧
      (Client.awaiting.http1Reads buffers).respTrailerPresent = false := by
  have holds := onRead_holds (r := Client.awaiting.recorder) ⟨rfl, rfl⟩ d
  rw [http1Reads_eq, onReads_flatten, split]
  refine ⟨?_, ?_, rfl⟩
  · rw [Client.respHeaders, holds.request]
    show [] ++ d.frames true = _
    rw [List.nil_append, Delivery.frames, Delivery.fields, delivered.trailers, List.append_nil]
  · rw [Client.respPayload, holds.request]
    exact (List.nil_append _).trans delivered.body

theorem length_flatMap_frames (fields : List FieldPieces) :
    (fields.flatMap (FieldPieces.frames true)).length =
      (fields.map fun field => field.value.parts.length).sum := by
  rw [List.length_flatMap]
  refine congrArg List.sum (List.map_congr_left fun field _ => ?_)
  exact length_frames true _ _

/-- **A response is recorded alike over both protocols exactly when it has one header field and its
value is reported at once over HTTP/1.** -/
theorem recordsAlike_iff {response : Response} {d : Delivery} (delivered : response.DeliveredAs d)
    {buffers : List (List Callback)} (split : buffers.flatten = d.callbacks) {chunks : List Text}
    (body : chunks.flatten = response.body) (endStream : Bool) :
    RecordsAlike response (Client.awaiting.http1Reads buffers)
        (Client.awaiting.http2Calls (response.http2 endStream chunks)) ↔
      ∃ field, d.headers = [field] ∧ field.value.parts.length = 1 := by
  obtain ⟨headers, payload, trailers⟩ := http1_records delivered split
  obtain ⟨second, recorded, holds⟩ := http2_records response endStream chunks
  constructor
  · rintro ⟨⟨first, -, one, -⟩, -, -⟩
    rw [headers] at one
    have single := length_flatMap_frames d.headers
    rw [one, List.length_singleton] at single
    cases fields : d.headers with
    | nil =>
      rw [fields] at single
      cases single
    | cons field rest =>
      rw [fields, List.map_cons, List.sum_cons] at single
      have here := field.value.length_parts_pos
      cases rest with
      | nil => exact ⟨field, rfl, by simpa using single.symm⟩
      | cons next rest =>
        have there := next.value.length_parts_pos
        rw [List.map_cons, List.sum_cons] at single
        omega
  · rintro ⟨field, only, once⟩
    have name := delivered.names field (by rw [only]; exact List.mem_singleton_self _)
    have fields : response.fields = [(field.name.whole, field.value.whole)] := by
      rw [← delivered.fields, only]
      rfl
    have frames : d.headers.flatMap (FieldPieces.frames true) =
        [[(field.name.whole, trim field.value.whole)]] := by
      rw [only, List.flatMap_singleton, FieldPieces.frames, Pieces.parts_of_length_one once,
        name.last_eq]
      simp [Http1Response.frames, frame, trim]
    refine ⟨⟨_, second, headers.trans frames, recorded.respHeaders, fun name _ => ?_, holds⟩,
      ⟨payload, recorded.respPayload.trans body⟩, trailers.trans recorded.noTrailers.symm⟩
    rw [fields]
    have single : [(field.name.whole, trim field.value.whole)] =
        enter id [] [(field.name.whole, field.value.whole)] := rfl
    rw [single]
    exact value_enter (fun _ => rfl) [] _ name

/-! ## Poles -/

def Response.plain (fields : List (Text × Text)) (tokens : ∀ field ∈ fields, ':' ∉ field.1) : Response :=
  ⟨200, fields, "ok".toList, tokens⟩

def etag : FieldPieces := ⟨.atOnce "Etag".toList, .atOnce "abc".toList, by decide⟩

def server : FieldPieces := ⟨.atOnce "Server".toList, .atOnce "mock".toList, by decide⟩

/-- The response as llhttp reports it. -/
def plainDelivery (fields : List FieldPieces) : Delivery :=
  ⟨200, some (.atOnce "OK".toList), fields, [.atOnce "ok".toList], []⟩

/-- **Satisfiable pole:** one header field. -/
theorem oneField_alike : RecordsAlike (.plain [("Etag".toList, "abc".toList)] (by decide))
      (Client.awaiting.http1Reads [(plainDelivery [etag]).callbacks]) (Client.awaiting.http2Calls
        (Response.http2 (.plain [("Etag".toList, "abc".toList)] (by decide)) false ["ok".toList])) := by
  have delivered : Response.DeliveredAs (.plain [("Etag".toList, "abc".toList)] (by decide))
      (plainDelivery [etag]) := ⟨rfl, rfl, by decide, rfl, rfl⟩
  exact (recordsAlike_iff delivered List.flatten_singleton rfl false).mpr ⟨etag, rfl, rfl⟩

/-- **Refuting pole:** two header fields, in one buffer; HTTP/1 leaves two maps. -/
theorem twoFields_not_alike :
    (Client.awaiting.http1Reads [(plainDelivery [etag, server]).callbacks]).respHeaders =
        [[("Etag".toList, "abc".toList)], [("Server".toList, "mock".toList)]] ∧ ¬ RecordsAlike
        (.plain [("Etag".toList, "abc".toList), ("Server".toList, "mock".toList)] (by decide))
        (Client.awaiting.http1Reads [(plainDelivery [etag, server]).callbacks])
        (Client.awaiting.http2Calls (Response.http2
          (.plain [("Etag".toList, "abc".toList), ("Server".toList, "mock".toList)] (by decide)) false
          ["ok".toList])) := by
  have maps : (Client.awaiting.http1Reads [(plainDelivery [etag, server]).callbacks]).respHeaders =
      [[("Etag".toList, "abc".toList)], [("Server".toList, "mock".toList)]] := by decide
  refine ⟨maps, fun alike => ?_⟩
  obtain ⟨first, second, one, -⟩ := alike.headers
  rw [maps] at one
  cases one

end H2LoadRunner.Load.ResponseRecords
