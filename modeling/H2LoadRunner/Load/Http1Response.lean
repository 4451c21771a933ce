/-
# Load.Http1Response -- the response that is recorded from the pieces llhttp reports

The callbacks of `Http1Session` that record a response, with what they reach of the client: the
request that awaits the response and the stream it was sent on, either of which may be missing.  The
session hands a header over with every piece of its value and forgets the name with it, so the
recorded response has a closed form (`record_eq`): a field is recorded under the last piece of its
name with the first piece of its value, and every further piece of the value under the empty name.

`record_joined_iff` says exactly when the pieces make no difference.  The body may come in
any pieces; where a request and its stream are there, every header name and value has to
come at once.

`on_header_frame_callback_called` is compared where it should be assigned, so it stays
false and every header gets a map of its own.
-/
import H2LoadRunner.Library.OrderedSet
import H2LoadRunner.Library.Pieces

namespace H2LoadRunner.Load.Http1Response

open Library

set_option autoImplicit false

/-- A character stands for a byte. -/
abbrev Text := List Char

/-! ## What is recorded -/

/-- `std::map<std::string, std::string, ci_less>`, in the order of its keys. -/
abbrev HeaderFrame := List (Text × Text)

/-- `Request_Data`, as far as a response is recorded in it. -/
structure RequestRecord where
  statusCode : Nat := 0
  respHeaders : List HeaderFrame := []
  respPayload : Text := []
  deriving DecidableEq

/-- `Stream`, as far as a response is recorded in it. -/
structure StreamRecord where
  status : Nat := 0x1FFF
  statusSuccess : Int := -1

/-- The session, the byte counters, and what the client holds for the next response. -/
structure Recorder where
  hdrName : Text := []
  hdrVal : Text := []
  onHeaderFrameCallbackCalled : Bool := false
  bytesHead : Nat := 0
  bytesHeadDecomp : Nat := 0
  bytesBody : Nat := 0
  /-- The entry of `requests_awaiting_response`. -/
  request : Option RequestRecord
  /-- The entry of `streams`. -/
  stream : Option StreamRecord

inductive Callback where
  | status (code : Nat) (fragment : Text)
  | headerField (fragment : Text)
  | headerValue (fragment : Text)
  | headersComplete
  | body (fragment : Text)

/-! ## The client -/

def nameBelow (a b : Text × Text) : Bool :=
  decide (a.1.map Char.toLower < b.1.map Char.toLower)

def HeaderFrame.find (frame : HeaderFrame) (name : Text) : Option (Text × Text) :=
  frame.find? fun entry => entry.1.map Char.toLower == name.map Char.toLower

def HeaderFrame.add (frame : HeaderFrame) (name value : Text) : HeaderFrame :=
  match frame.find name with
  | some entry =>
    frame.map fun other =>
      if other.1 = entry.1 then (other.1, other.2 ++ "; ".toList ++ value) else other
  | none => OrderedSet.insert nameBelow (name, value) frame

/-- The digits at the beginning of a status, read as `on_header` reads them; `none` once
they pass 999. -/
def readStatus : Nat → Text → Option Nat
  | status, [] => some status
  | status, c :: rest =>
    if c.isDigit then
      let next := status * 10 + (c.toNat - '0'.toNat)
      if 999 < next then none else readStatus next rest
    else some status

namespace Recorder

def modifyRequest (r : Recorder) (change : RequestRecord → RequestRecord) : Recorder :=
  { r with request := r.request.map change }

def onStatusCode (r : Recorder) (status : Nat) : Recorder :=
  { r with
    request := r.request.map fun request => { request with statusCode := status }
    stream := r.stream.map fun stream => { stream with status := status } }

def onHeaderFrameBegin (r : Recorder) : Recorder :=
  r.modifyRequest fun request => { request with respHeaders := request.respHeaders ++ [[]] }

end Recorder

def RequestRecord.addHeader (request : RequestRecord) (name value : Text) : RequestRecord :=
  { request with
    respHeaders :=
      request.respHeaders.dropLast ++ [HeaderFrame.add (request.respHeaders.getLastD []) name value] }

namespace Recorder

/-- The part of `on_header` that reads a status, which only HTTP/2 sends as a header. -/
def onStatusHeader (r : Recorder) (name value : Text) : Recorder :=
  match r.stream with
  | none => r
  | some stream =>
    if stream.statusSuccess = -1 ∧ name = ":status".toList then
      match readStatus 0 value with
      | none => { r with stream := some { stream with statusSuccess := 0 } }
      | some status => r.onStatusCode status
    else r

def onHeader (r : Recorder) (name value : Text) : Recorder :=
  if r.stream.isNone then r
  else
    (r.modifyRequest fun request =>
      request.addHeader name (value.dropWhile (· == ' '))).onStatusHeader name value

def htpStatuscb (r : Recorder) (code : Nat) : Recorder :=
  if code / 100 = 1 then r else r.onStatusCode code

def htpHdrKeycb (r : Recorder) (fragment : Text) : Recorder :=
  { r with
    hdrName := fragment
    bytesHead := r.bytesHead + fragment.length
    bytesHeadDecomp := r.bytesHeadDecomp + fragment.length }

def htpHdrValcb (r : Recorder) (fragment : Text) : Recorder :=
  let hdrVal := if r.hdrVal ≠ [] then r.hdrVal ++ "; ".toList ++ fragment else fragment
  let counted :=
    { r with
      bytesHead := r.bytesHead + fragment.length
      bytesHeadDecomp := r.bytesHeadDecomp + fragment.length }
  let begun := if r.onHeaderFrameCallbackCalled then counted else counted.onHeaderFrameBegin
  { begun.onHeader r.hdrName hdrVal with hdrName := [], hdrVal := [] }

def htpBodyCb (r : Recorder) (fragment : Text) : Recorder :=
  { r.modifyRequest fun request =>
      { request with respPayload := request.respPayload ++ fragment } with
    bytesBody := r.bytesBody + fragment.length }

def callback (r : Recorder) : Callback → Recorder
  | .status code _ => r.htpStatuscb code
  | .headerField fragment => r.htpHdrKeycb fragment
  | .headerValue fragment => r.htpHdrValcb fragment
  | .headersComplete => r
  | .body fragment => r.htpBodyCb fragment

/-- `on_read`: the callbacks llhttp makes for one buffer. -/
def onRead (r : Recorder) (callbacks : List Callback) : Recorder := callbacks.foldl callback r

def onReads (r : Recorder) (buffers : List (List Callback)) : Recorder := buffers.foldl onRead r

def recorded (r : Recorder) : Option RequestRecord × Option Nat :=
  (r.request, r.stream.map StreamRecord.status)

end Recorder

/-! ## Deliveries -/

/-- A header field as it arrives.  Its name ends where its colon is. -/
structure FieldPieces where
  name : Pieces Char
  value : Pieces Char
  token : ':' ∉ name.whole

/-- A response as it arrives.  llhttp may not report an empty reason phrase; the body is a
list of spans and trailers may follow it. -/
structure Delivery where
  code : Nat
  reason : Option (Pieces Char)
  headers : List FieldPieces
  body : List (Pieces Char)
  trailers : List FieldPieces

def FieldPieces.joined (field : FieldPieces) : FieldPieces where
  name := field.name.joined
  value := field.value.joined
  token := by simpa [Pieces.joined] using field.token

def FieldPieces.callbacks (field : FieldPieces) : List Callback :=
  field.name.parts.map .headerField ++ field.value.parts.map .headerValue

namespace Delivery

def joined (d : Delivery) : Delivery :=
  { d with
    reason := d.reason.map Pieces.joined
    headers := d.headers.map FieldPieces.joined
    body := d.body.map Pieces.joined
    trailers := d.trailers.map FieldPieces.joined }

def reasonParts (d : Delivery) : List Text := (d.reason.map Pieces.parts).getD []

def callbacks (d : Delivery) : List Callback :=
  d.reasonParts.map (.status d.code) ++ d.headers.flatMap FieldPieces.callbacks ++
    [.headersComplete] ++ d.body.flatMap (fun span => span.parts.map .body) ++
    d.trailers.flatMap FieldPieces.callbacks

def fields (d : Delivery) : List FieldPieces := d.headers ++ d.trailers

end Delivery

/-! ## The closed form -/

/-- The map a piece of a value is recorded in: empty where the stream is gone. -/
def frame (isOpen : Bool) (name value : Text) : HeaderFrame :=
  if isOpen then [(name, value.dropWhile (· == ' '))] else []

/-- The maps the pieces of a value are recorded in: the name goes with the first. -/
def frames (isOpen : Bool) (name : Text) : List Text → List HeaderFrame
  | [] => []
  | part :: rest => frame isOpen name part :: frames isOpen [] rest

def FieldPieces.frames (isOpen : Bool) (field : FieldPieces) : List HeaderFrame :=
  Http1Response.frames isOpen field.name.last field.value.parts

def RequestRecord.addFrames (added : List HeaderFrame) (request : RequestRecord) : RequestRecord :=
  { request with respHeaders := request.respHeaders ++ added }

theorem RequestRecord.addFrames_nil : addFrames [] = id := by
  funext request
  simp [addFrames]

theorem RequestRecord.addFrames_comp (first second : List HeaderFrame) :
    addFrames second ∘ addFrames first = addFrames (first ++ second) := by
  funext request
  simp [addFrames]

def RequestRecord.addBody (added : Text) (request : RequestRecord) : RequestRecord :=
  { request with respPayload := request.respPayload ++ added }

theorem RequestRecord.addBody_nil : addBody [] = id := by
  funext request
  simp [addBody]

theorem RequestRecord.addBody_comp (first second : Text) :
    addBody second ∘ addBody first = addBody (first ++ second) := by
  funext request
  simp [addBody]

def RequestRecord.setStatus (code : Nat) (request : RequestRecord) : RequestRecord :=
  { request with statusCode := if code / 100 = 1 then request.statusCode else code }

def StreamRecord.setStatus (code : Nat) (stream : StreamRecord) : StreamRecord :=
  { stream with status := if code / 100 = 1 then stream.status else code }

theorem RequestRecord.setStatus_comp (code : Nat) : setStatus code ∘ setStatus code = setStatus code := by
  funext request
  simp only [setStatus, Function.comp_apply]
  split <;> rfl

theorem StreamRecord.setStatus_comp (code : Nat) : setStatus code ∘ setStatus code = setStatus code := by
  funext stream
  simp only [setStatus, Function.comp_apply]
  split <;> rfl

/-- Between callbacks no value is held back and no map is marked as begun. -/
structure Recorder.Clear (r : Recorder) : Prop where
  noValue : r.hdrVal = []
  uncalled : r.onHeaderFrameCallbackCalled = false

/-- The recorder has recorded `request` and `stream` and is between callbacks. -/
structure Recorder.Holds (r : Recorder) (request : Option RequestRecord)
    (stream : Option StreamRecord) : Prop extends r.Clear where
  request : r.request = request
  stream : r.stream = stream

namespace Recorder

theorem addHeader_frame (request : RequestRecord) (name value : Text) :
    RequestRecord.addHeader { request with respHeaders := request.respHeaders ++ [[]] } name value =
      request.addFrames [[(name, value)]] := by
  simp [RequestRecord.addHeader, RequestRecord.addFrames, HeaderFrame.add, HeaderFrame.find,
    OrderedSet.insert]

variable {r : Recorder} {request : Option RequestRecord} {stream : Option StreamRecord}

theorem onStatusHeader_of_token {name : Text} (token : ':' ∉ name) (value : Text) :
    r.onStatusHeader name value = r := by
  have other : name ≠ ":status".toList := by
    rintro rfl
    exact token (by decide)
  unfold onStatusHeader
  split
  · rfl
  · rw [if_neg fun both => other both.2]

theorem Holds.value (holds : r.Holds request stream) (token : ':' ∉ r.hdrName) (fragment : Text) :
    (r.htpHdrValcb fragment).Holds
      (request.map (RequestRecord.addFrames [frame stream.isSome r.hdrName fragment])) stream := by
  have value : (if r.hdrVal ≠ [] then r.hdrVal ++ "; ".toList ++ fragment else fragment) = fragment :=
    if_neg (not_not_intro holds.noValue)
  cases stream with
  | none =>
    simp only [htpHdrValcb, holds.uncalled, Bool.false_eq_true, if_false, onHeader,
      onHeaderFrameBegin, modifyRequest, holds.stream, Option.isNone_none, if_true, holds.request]
    exact ⟨⟨rfl, rfl⟩, rfl, rfl⟩
  | some open_ =>
    simp only [htpHdrValcb, holds.uncalled, Bool.false_eq_true, if_false, onHeader,
      onHeaderFrameBegin, modifyRequest, holds.stream, Option.isNone_some, value,
      onStatusHeader_of_token token]
    refine ⟨⟨rfl, rfl⟩, ?_, rfl⟩
    simp only [Option.map_map, holds.request]
    congr 1
    funext request
    exact addHeader_frame request r.hdrName _

theorem hdrName_htpHdrValcb (r : Recorder) (fragment : Text) : (r.htpHdrValcb fragment).hdrName = [] := rfl

theorem Holds.values (parts : List Text) (holds : r.Holds request stream) (token : ':' ∉ r.hdrName) :
    ((parts.map .headerValue).foldl callback r).Holds
      (request.map (RequestRecord.addFrames (frames stream.isSome r.hdrName parts))) stream := by
  induction parts generalizing r request with
  | nil =>
    rw [frames, RequestRecord.addFrames_nil, Option.map_id]
    exact holds
  | cons part rest ih =>
    have later := ih (holds.value token part) (by simp [hdrName_htpHdrValcb])
    rw [Option.map_map, RequestRecord.addFrames_comp] at later
    exact later

theorem Holds.names (parts : List Text) (holds : r.Holds request stream) :
    ((parts.map .headerField).foldl callback r).Holds request stream ∧
      ((parts.map .headerField).foldl callback r).hdrName = parts.getLast?.getD r.hdrName := by
  induction parts generalizing r with
  | nil => exact ⟨holds, rfl⟩
  | cons part rest ih =>
    have named : (r.htpHdrKeycb part).Holds request stream :=
      ⟨⟨holds.noValue, holds.uncalled⟩, holds.request, holds.stream⟩
    obtain ⟨later, name⟩ := ih named
    refine ⟨later, name.trans ?_⟩
    cases rest with
    | nil => rfl
    | cons next later => simp [List.getLast?_cons]

theorem Holds.field (holds : r.Holds request stream) (field : FieldPieces) :
    (field.callbacks.foldl callback r).Holds
      (request.map (RequestRecord.addFrames (field.frames stream.isSome))) stream := by
  have last : field.name.parts.getLast? = some field.name.last :=
    List.getLast?_eq_some_getLast field.name.nonempty
  obtain ⟨named, name⟩ := holds.names field.name.parts
  rw [last, Option.getD_some] at name
  have token : ':' ∉ field.name.last := fun member => field.token (by
    rw [Pieces.whole_eq]
    exact List.mem_append_right _ member)
  have values := named.values field.value.parts (name ▸ token)
  rw [name] at values
  rw [FieldPieces.callbacks, List.foldl_append]
  exact values

theorem Holds.fold {α β : Type} {add : List β → RequestRecord → RequestRecord} {callbacks : α → List Callback}
    {part : α → List β} (nil : add [] = id) (comp : ∀ first second, add second ∘ add first = add (first ++ second))
    (adds : ∀ {r request}, r.Holds request stream → ∀ item,
      ((callbacks item).foldl callback r).Holds (request.map (add (part item))) stream)
    (items : List α) (holds : r.Holds request stream) :
    ((items.flatMap callbacks).foldl callback r).Holds (request.map (add (items.flatMap part))) stream := by
  induction items generalizing r request with
  | nil =>
    rw [List.flatMap_nil, List.flatMap_nil, nil, Option.map_id]
    exact holds
  | cons item rest ih =>
    have later := ih (adds holds item)
    rw [Option.map_map, comp] at later
    rw [List.flatMap_cons, List.foldl_append, List.flatMap_cons]
    exact later

theorem Holds.fields (fields : List FieldPieces) (holds : r.Holds request stream) :
    ((fields.flatMap FieldPieces.callbacks).foldl callback r).Holds
      (request.map (RequestRecord.addFrames (fields.flatMap (FieldPieces.frames stream.isSome)))) stream :=
  holds.fold RequestRecord.addFrames_nil RequestRecord.addFrames_comp Holds.field fields

theorem Holds.body (parts : List Text) (holds : r.Holds request stream) :
    ((parts.map .body).foldl callback r).Holds (request.map (RequestRecord.addBody parts.flatten)) stream := by
  rw [List.map_eq_flatMap, ← List.flatMap_id]
  have adds {r : Recorder} {request : Option RequestRecord} (holds : r.Holds request stream) (part : Text) :
      (r.htpBodyCb part).Holds (request.map (RequestRecord.addBody part)) stream :=
    ⟨⟨holds.noValue, holds.uncalled⟩, holds.request ▸ rfl, holds.stream⟩
  exact holds.fold RequestRecord.addBody_nil RequestRecord.addBody_comp adds parts

theorem Holds.spans (spans : List (Pieces Char)) (holds : r.Holds request stream) :
    ((spans.flatMap fun span => span.parts.map .body).foldl callback r).Holds
      (request.map (RequestRecord.addBody (spans.flatMap Pieces.whole))) stream :=
  holds.fold RequestRecord.addBody_nil RequestRecord.addBody_comp (fun holds span => holds.body span.parts) spans

/-- A status is recorded by the first report of the reason phrase and again by every
further one. -/
theorem Holds.status (code : Nat) (parts : List Text) (holds : r.Holds request stream) :
    ((parts.map (.status code)).foldl callback r).Holds
      (if parts = [] then request else request.map (RequestRecord.setStatus code))
      (if parts = [] then stream else stream.map (StreamRecord.setStatus code)) := by
  induction parts generalizing r request stream with
  | nil => exact holds
  | cons part rest ih =>
    have here : (r.htpStatuscb code).Holds (request.map (RequestRecord.setStatus code))
        (stream.map (StreamRecord.setStatus code)) := by
      obtain ⟨⟨noValue, uncalled⟩, rfl, rfl⟩ := holds
      unfold htpStatuscb onStatusCode
      split <;> refine ⟨⟨noValue, uncalled⟩, ?_, ?_⟩
      all_goals cases r.request <;> cases r.stream <;> simp_all [RequestRecord.setStatus, StreamRecord.setStatus]
    have later := ih here
    simp only [Option.map_map, RequestRecord.setStatus_comp, StreamRecord.setStatus_comp,
      ite_self] at later
    exact later

end Recorder

def Delivery.frames (isOpen : Bool) (d : Delivery) : List HeaderFrame :=
  d.fields.flatMap (FieldPieces.frames isOpen)

/-- What a delivery makes of a request: the status if a reason was reported, the maps of
its fields, and its body. -/
def Delivery.recordIn (isOpen : Bool) (d : Delivery) (request : RequestRecord) : RequestRecord where
  statusCode := if d.reason.isNone ∨ d.code / 100 = 1 then request.statusCode else d.code
  respHeaders := request.respHeaders ++ d.frames isOpen
  respPayload := request.respPayload ++ (d.body.map Pieces.whole).flatten

def Delivery.statusIn (d : Delivery) (stream : StreamRecord) : StreamRecord :=
  { stream with status := if d.reason.isNone ∨ d.code / 100 = 1 then stream.status else d.code }

theorem reasonParts_eq_nil_iff (d : Delivery) : d.reasonParts = [] ↔ d.reason.isNone = true := by
  unfold Delivery.reasonParts
  cases d.reason with
  | none => simp
  | some reason => simpa using reason.nonempty

theorem map_reported {α : Type} (d : Delivery) (change : α → α) (record : Option α) :
    (if d.reasonParts = [] then record else record.map change) =
      record.map fun record => if d.reason.isNone then record else change record := by
  simp only [reasonParts_eq_nil_iff]
  split <;> simp

theorem onRead_holds {r : Recorder} (clear : r.Clear) (d : Delivery) :
    (r.onRead d.callbacks).Holds (r.request.map (d.recordIn r.stream.isSome)) (r.stream.map d.statusIn) := by
  have start : r.Holds r.request r.stream := ⟨clear, rfl, rfl⟩
  have recorded := (((start.status d.code d.reasonParts).fields d.headers).spans d.body).fields
    d.trailers
  simp only [map_reported, Option.isSome_map, Option.map_map] at recorded
  rw [Recorder.onRead, Delivery.callbacks]
  simp only [List.foldl_append]
  convert recorded using 2
  · rfl
  · funext request
    by_cases silent : d.reason.isNone <;> simp [silent, RequestRecord.addFrames, RequestRecord.addBody,
      RequestRecord.setStatus, Delivery.recordIn, Delivery.frames, Delivery.fields, List.flatMap_def]
  · funext stream
    by_cases silent : d.reason.isNone <;> simp [silent, StreamRecord.setStatus, Delivery.statusIn]

/-! ## When the pieces make no difference -/

/-- What has to come unbroken for the pieces to make no difference.  Without the request
nothing of a header is recorded, and without the stream only how many values came. -/
def Delivery.Unaffected (r : Recorder) (d : Delivery) : Prop :=
  r.request.isSome = true → ∀ field ∈ d.fields, field.value.parts.length = 1 ∧
    (r.stream.isSome = true → field.name.Unbroken)

instance (r : Recorder) (d : Delivery) : Decidable (d.Unaffected r) :=
  inferInstanceAs (Decidable (_ → ∀ field ∈ d.fields, _))

theorem length_frames (isOpen : Bool) (name : Text) (parts : List Text) :
    (frames isOpen name parts).length = parts.length := by
  induction parts generalizing name with
  | nil => rfl
  | cons part rest ih => simp [frames, ih]

theorem Delivery.fields_joined (d : Delivery) : d.joined.fields = d.fields.map FieldPieces.joined := by
  rw [fields, fields, List.map_append]
  rfl

theorem frames_joined (isOpen : Bool) (d : Delivery) :
    d.joined.frames isOpen = d.fields.map fun field => frame isOpen field.name.whole field.value.whole := by
  rw [Delivery.frames, Delivery.fields_joined, List.flatMap_map]
  exact List.flatMap_pure_eq_map _ _

theorem frames_of_values {isOpen : Bool} {d : Delivery}
    (values : ∀ field ∈ d.fields, field.value.parts.length = 1) :
    d.frames isOpen = d.fields.map fun field => frame isOpen field.name.last field.value.whole := by
  rw [Delivery.frames, ← List.flatMap_pure_eq_map]
  refine List.flatMap_congr fun field member => ?_
  rw [FieldPieces.frames, Pieces.parts_of_length_one (values field member)]
  rfl

/-- The maps are those of the response exactly when the values came at once and, where
the stream is open, the names. -/
theorem frames_joined_iff (isOpen : Bool) (d : Delivery) : d.frames isOpen = d.joined.frames isOpen ↔
      ∀ field ∈ d.fields, field.value.parts.length = 1 ∧ (isOpen = true → field.name.Unbroken) := by
  rw [frames_joined]
  constructor
  · intro same
    have lengths := congrArg List.length same
    rw [Delivery.frames, List.length_flatMap, List.length_map] at lengths
    have values : ∀ field ∈ d.fields, field.value.parts.length = 1 := by
      have counted : (d.fields.map fun _ => 1).sum =
          (d.fields.map fun field => field.value.parts.length).sum := by
        simpa [FieldPieces.frames, length_frames] using lengths.symm
      intro field member
      exact (eq_of_sum_eq (fun field _ => field.value.length_parts_pos) counted field member).symm
    rw [frames_of_values values] at same
    intro field member
    refine ⟨values field member, fun isOpen => ?_⟩
    have here := List.map_inj_left.mp same field member
    simp only [frame, isOpen, if_true, List.cons.injEq, Prod.mk.injEq, and_true] at here
    exact field.name.length_last_eq_iff.mp (congrArg List.length here)
  · intro atOnce
    rw [frames_of_values fun field member => (atOnce field member).1]
    refine List.map_congr_left fun field member => ?_
    cases isOpen with
    | false => rfl
    | true => rw [((atOnce field member).2 rfl).last_eq]

theorem recordIn_joined_iff (isOpen : Bool) (d : Delivery) (request : RequestRecord) :
    d.recordIn isOpen request = d.joined.recordIn isOpen request ↔
      d.frames isOpen = d.joined.frames isOpen := by
  have reason : d.joined.reason.isNone = d.reason.isNone := Option.isNone_map
  have payload : (d.joined.body.map Pieces.whole).flatten = (d.body.map Pieces.whole).flatten := by
    simp [Delivery.joined, Pieces.joined, Function.comp_def]
  rw [Delivery.recordIn, Delivery.recordIn, RequestRecord.mk.injEq, reason, payload]
  exact ⟨fun ⟨_, headers, _⟩ => List.append_cancel_left headers,
    fun same => ⟨rfl, congrArg _ same, rfl⟩⟩

theorem statusIn_joined (d : Delivery) : d.joined.statusIn = d.statusIn := by
  funext stream
  have reason : d.joined.reason.isNone = d.reason.isNone := Option.isNone_map
  rw [Delivery.statusIn, Delivery.statusIn, reason]
  rfl

theorem onReads_flatten (r : Recorder) (buffers : List (List Callback)) :
    r.onReads buffers = r.onRead buffers.flatten := by
  induction buffers generalizing r with
  | nil => rfl
  | cons buffer rest ih =>
    rw [List.flatten_cons, Recorder.onRead, List.foldl_append]
    exact ih _

/-- **When the buffers make no difference.**  A response read in any number of buffers is
recorded as the response read from one exactly when every header value and, where its
stream is open, every header name came at once (or no request awaits the response). -/
theorem record_joined_iff (r : Recorder) (clear : r.Clear) (d : Delivery)
    (buffers : List (List Callback)) (split : buffers.flatten = d.callbacks) :
    (r.onReads buffers).recorded = (r.onReads [d.joined.callbacks]).recorded ↔ d.Unaffected r := by
  have pieces := onRead_holds clear d
  have whole := onRead_holds clear d.joined
  rw [onReads_flatten, onReads_flatten, split, List.flatten_singleton, Recorder.recorded,
    Recorder.recorded, pieces.request, pieces.stream, whole.request, whole.stream,
    statusIn_joined, Prod.mk.injEq, and_iff_left rfl, Delivery.Unaffected]
  cases r.request with
  | none => simp
  | some request =>
    rw [Option.map_some, Option.map_some, Option.some.injEq, recordIn_joined_iff,
      frames_joined_iff]
    simp

/-! ### Poles -/

/-- `200 OK` with one field and a body in the given pieces. -/
def sample (value body : Pieces Char) : Delivery where
  code := 200
  reason := some (.atOnce "OK".toList)
  headers := [⟨.atOnce "etag".toList, value, by decide⟩]
  body := [body]
  trailers := []

def awaiting : Recorder where
  request := some {}
  stream := some {}

/-- **Satisfiable pole.**  A body in two pieces. -/
theorem response_body_in_pieces : (awaiting.onReads [(sample (.atOnce "abcd".toList)
        ⟨["x".toList, "y".toList], by decide⟩).callbacks]).recorded =
      (awaiting.onReads [(sample (.atOnce "abcd".toList)
        ⟨["x".toList, "y".toList], by decide⟩).joined.callbacks]).recorded :=
  (record_joined_iff awaiting ⟨rfl, rfl⟩ _ _ List.flatten_singleton).mpr (by decide)

/-- **Refuting pole.**  A buffer ends inside the value of `etag`: the value is cut off and
its end recorded under the empty name. -/
theorem value_in_pieces_differs : ¬ ∀ (r : Recorder) (d : Delivery) (buffers : List (List Callback)), r.Clear →
      buffers.flatten = d.callbacks →
        (r.onReads buffers).recorded = (r.onReads [d.joined.callbacks]).recorded := by
  intro always
  have same := always awaiting (sample ⟨["ab".toList, "cd".toList], by decide⟩ (.atOnce []))
    _ ⟨rfl, rfl⟩ List.flatten_singleton
  revert same
  decide

end H2LoadRunner.Load.Http1Response
