/-
# MockServer.Http1Request -- the request that is built from the pieces llhttp reports

llhttp reports the target, each header name, each header value and the body in the pieces
in which they lie in the buffers read from the socket.  A `Delivery` is one request with
the pieces of its fields; `joined` is the same request read from one buffer.  The
callbacks keep little between calls, so the request they build has a closed form
(`build_eq`): the body is the concatenation of its pieces, but a header name is its last
piece, every piece of a value is an entry of its own, and the path is read from the last
piece of the target.

`build_joined_iff` says of a target that came at once, whatever the parser makes of it, when
the pieces of the rest make no difference: every header value came at once, and nothing of a
header name before its last piece.
-/
import H2LoadRunner.Library.Pieces
import H2LoadRunner.MockServer.Http1Handler

namespace H2LoadRunner.MockServer.Http1

open Library

set_option autoImplicit false

/-! ## Deliveries -/

structure HeaderPieces where
  name : Pieces Char
  value : Pieces Char

/-- A request as it arrives.  The body is a list of spans, one for each chunk of a chunked
encoding, and trailers may follow it. -/
structure Delivery where
  method : Text
  url : Pieces Char
  headers : List HeaderPieces
  body : List (Pieces Char)
  trailers : List HeaderPieces
  keepAlive : Bool

def HeaderPieces.joined (header : HeaderPieces) : HeaderPieces where
  name := header.name.joined
  value := header.value.joined

def HeaderPieces.callbacks (header : HeaderPieces) : List Callback :=
  header.name.parts.map .headerField ++ header.value.parts.map .headerValue

namespace Delivery

def joined (d : Delivery) : Delivery :=
  { d with
    url := d.url.joined
    headers := d.headers.map HeaderPieces.joined
    body := d.body.map Pieces.joined
    trailers := d.trailers.map HeaderPieces.joined }

def rest (d : Delivery) : List Callback :=
  d.url.parts.map (.url d.method) ++ d.headers.flatMap HeaderPieces.callbacks ++
    [.headersComplete] ++ d.body.flatMap (fun span => span.parts.map .body) ++
    d.trailers.flatMap HeaderPieces.callbacks ++ [.messageComplete d.keepAlive]

def callbacks (d : Delivery) : List Callback := .messageBegin :: d.rest

def fields (d : Delivery) : List HeaderPieces := d.headers ++ d.trailers

end Delivery

def Handler.onReads (cfg : Config) (h : Handler) (buffers : List (List Callback)) :
    Except Fault Handler :=
  Transition.run (Handler.onRead cfg) h buffers

def Handler.build (cfg : Config) (h : Handler) (buffers : List (List Callback)) :
    Except Fault (Option Request) :=
  (h.onReads cfg buffers).map fun later => (later.findStream later.current).map Stream.request

/-! ## The closed form -/

/-- What a callback does to the name being read and the request. -/
def absorb (cfg : Config) (held : Text × Request) : Callback → Text × Request
  | .url method fragment =>
    (held.1, { held.2 with method := method, uri := held.2.uri.read (cfg.parseUrl fragment) })
  | .headerField fragment => (fragment.map Char.toLower, held.2)
  | .headerValue fragment =>
    (held.1, { held.2 with header := held.2.header.emplace held.1 ⟨fragment, true⟩ })
  | .body fragment => (held.1, { held.2 with payload := held.2.payload ++ fragment })
  | .messageComplete _ =>
    (held.1, { held.2 with uri := held.2.uri.complete cfg.https held.2.header })
  | _ => held

def HeaderPieces.enter (map : HeaderMap) (header : HeaderPieces) : HeaderMap :=
  header.value.parts.foldl
    (fun map part => map.emplace (header.name.last.map Char.toLower) ⟨part, true⟩) map

def Delivery.headerMap (d : Delivery) : HeaderMap := d.fields.foldl HeaderPieces.enter []

/-- What the pieces of the target leave. -/
def readUrl (cfg : Config) (parts : List Text) : Uri :=
  parts.foldl (fun uri part => uri.read (cfg.parseUrl part)) {}

def Delivery.request (cfg : Config) (d : Delivery) : Request where
  method := d.method
  uri := (readUrl cfg d.url.parts).complete cfg.https d.headerMap
  header := d.headerMap
  payload := (d.body.map Pieces.whole).flatten

/-- The stream the parser is at, with the name being read. -/
structure Handler.Parsing (h : Handler) (held : Text × Request) : Prop where
  name : h.currHeaderName = held.1
  request : (h.findStream h.current).map Stream.request = some held.2

namespace Handler

theorem findStream_modifyStream (h : Handler) (streamId : Int) (change : Stream → Stream)
    (kept : ∀ strm, (change strm).streamId = strm.streamId) :
    (h.modifyStream streamId change).findStream streamId = (h.findStream streamId).map change := by
  have same : ((fun strm : Stream => strm.streamId == streamId) ∘ fun strm : Stream =>
      if strm.streamId = streamId then change strm else strm) =
      fun strm => strm.streamId == streamId := by
    funext strm
    simp only [Function.comp_apply]
    split
    · rw [kept]
    · rfl
  rw [findStream, modifyStream, List.find?_map, same]
  cases found : h.findStream streamId with
  | none =>
    rw [findStream] at found
    rw [found]
    rfl
  | some strm =>
    have name : strm.streamId = streamId := by simpa using List.find?_some found
    rw [findStream] at found
    rw [found]
    simp [name]

variable {h : Handler} {held : Text × Request}

theorem Parsing.modifyRequest (parsing : h.Parsing held) (change : Request → Request) :
    (h.modifyRequest h.current change).Parsing (held.1, change held.2) where
  name := parsing.name
  request := by
    have found := h.findStream_modifyStream h.current
      (fun strm => { strm with request := change strm.request }) fun _ => rfl
    have current : (h.modifyRequest h.current change).current = h.current := rfl
    rw [current, Handler.modifyRequest, found, Option.map_map]
    have request := congrArg (Option.map change) parsing.request
    rwa [Option.map_map] at request

theorem callback_parsing (cfg : Config) (parsing : h.Parsing held) {cb : Callback}
    (inside : cb ≠ .messageBegin) :
    ∃ later, h.callback cfg cb = .ok later ∧ later.Parsing (absorb cfg held cb) := by
  cases cb with
  | messageBegin => exact absurd rfl inside
  | url method fragment =>
    obtain ⟨strm, found, -⟩ := Option.map_eq_some_iff.mp parsing.request
    refine ⟨_, rfl, ?_⟩
    simp only [http1OnUrlCb, found]
    have read := parsing.modifyRequest fun request =>
      { request with method := method, uri := request.uri.read (cfg.parseUrl fragment) }
    exact ⟨read.name, read.request⟩
  | headerField fragment => exact ⟨_, rfl, rfl, parsing.request⟩
  | headerValue fragment =>
    refine ⟨_, rfl, ?_⟩
    have entered := parsing.modifyRequest fun request =>
      { request with header := request.header.emplace h.currHeaderName ⟨fragment, true⟩ }
    rw [parsing.name] at entered
    rw [http1HdrValcb, parsing.name]
    exact entered
  | headersComplete => exact ⟨h, rfl, parsing⟩
  | body fragment => exact ⟨_, rfl, parsing.modifyRequest _⟩
  | messageComplete keepAlive =>
    have unchanged : Parsing { h with shouldKeepAlive := keepAlive } held :=
      ⟨parsing.name, parsing.request⟩
    exact ⟨_, rfl, unchanged.modifyRequest _⟩

theorem onRead_parsing (cfg : Config) {callbacks : List Callback}
    (inside : .messageBegin ∉ callbacks) (parsing : h.Parsing held) :
    ∃ later, h.onRead cfg callbacks = .ok later ∧ later.Parsing (callbacks.foldl (absorb cfg) held) := by
  induction callbacks generalizing h held with
  | nil => exact ⟨h, rfl, parsing⟩
  | cons cb rest ih =>
    have here : cb ≠ .messageBegin := (List.ne_of_not_mem_cons inside).symm
    obtain ⟨next, taken, moved⟩ := callback_parsing cfg parsing here
    obtain ⟨final, ends, parsed⟩ := ih (List.not_mem_of_not_mem_cons inside) moved
    refine ⟨final, ?_, parsed⟩
    rw [onRead, Transition.run_cons, taken]
    exact ends

theorem onReads_flatten (cfg : Config) (h : Handler) (buffers : List (List Callback)) :
    h.onReads cfg buffers = h.onRead cfg buffers.flatten := by
  induction buffers generalizing h with
  | nil => rfl
  | cons buffer rest ih =>
    have whole : h.onRead cfg (buffer ++ rest.flatten) =
        (h.onRead cfg buffer).bind fun later => later.onRead cfg rest.flatten :=
      Transition.run_append h buffer rest.flatten
    rw [onReads, Transition.run_cons, List.flatten_cons, whole]
    congr 1
    funext later
    exact ih later

def NextFree (h : Handler) : Prop := h.findStream (int32 (incUInt32 h.requestCount)) = none

theorem messageBegin_parsing (cfg : Config) (free : h.NextFree) :
    ∃ later, h.callback cfg .messageBegin = .ok later ∧ later.Parsing (h.currHeaderName, {}) := by
  have missing : ∀ strm ∈ h.streams, strm.streamId ≠ int32 (incUInt32 h.requestCount) := by
    intro strm member same
    have refused := List.find?_eq_none.mp free strm member
    simp [same] at refused
  have unused : (Handler.findStream { h with requestCount := incUInt32 h.requestCount }
      (int32 (incUInt32 h.requestCount))).isSome = false := by
    rw [Option.isSome_eq_false_iff]
    exact Option.isNone_iff_eq_none.mpr free
  refine ⟨_, if_neg (by simp [unused]), rfl, ?_⟩
  refine Option.map_eq_some_iff.mpr ⟨_, OrderedSet.find?_insert ?_ ?_ ?_, rfl⟩
  · simp [current]
  · intro strm member
    simpa [current] using missing strm member
  · intro strm member
    have apart := missing strm member
    simp only [streamBelow, decide_eq_true_eq]
    omega

end Handler

namespace Delivery

/-! ### The fold of a delivery -/

variable (cfg : Config)

theorem foldl_url (method : Text) (parts : List Text) (held : Text × Request) :
    (parts.map (.url method)).foldl (absorb cfg) held =
      (held.1, { held.2 with
        method := if parts = [] then held.2.method else method
        uri := parts.foldl (fun uri part => uri.read (cfg.parseUrl part)) held.2.uri }) := by
  induction parts generalizing held with
  | nil => rfl
  | cons part rest ih =>
    rw [List.map_cons, List.foldl_cons, ih]
    simp only [absorb, List.foldl_cons, reduceCtorEq, if_false, ite_self]

theorem foldl_body (parts : List Text) (held : Text × Request) :
    (parts.map .body).foldl (absorb cfg) held =
      (held.1, { held.2 with payload := held.2.payload ++ parts.flatten }) := by
  induction parts generalizing held with
  | nil => simp
  | cons part rest ih =>
    rw [List.map_cons, List.foldl_cons, ih]
    simp [absorb]

theorem foldl_name (parts : List Text) (held : Text × Request) :
    (parts.map .headerField).foldl (absorb cfg) held =
      ((parts.getLast?.map (List.map Char.toLower)).getD held.1, held.2) := by
  induction parts generalizing held with
  | nil => rfl
  | cons part rest ih =>
    rw [List.map_cons, List.foldl_cons, ih]
    cases rest with
    | nil => rfl
    | cons next later => simp [List.getLast?_cons, absorb]

theorem foldl_value (parts : List Text) (held : Text × Request) :
    (parts.map .headerValue).foldl (absorb cfg) held =
      (held.1, { held.2 with
        header := parts.foldl (fun map part => map.emplace held.1 ⟨part, true⟩) held.2.header }) := by
  induction parts generalizing held with
  | nil => rfl
  | cons part rest ih =>
    rw [List.map_cons, List.foldl_cons, ih]
    rfl

theorem foldl_field (field : HeaderPieces) (held : Text × Request) :
    field.callbacks.foldl (absorb cfg) held =
      (field.name.last.map Char.toLower, { held.2 with header := field.enter held.2.header }) := by
  have last : field.name.parts.getLast? = some field.name.last :=
    List.getLast?_eq_some_getLast field.name.nonempty
  rw [HeaderPieces.callbacks, List.foldl_append, foldl_name, foldl_value, last]
  rfl

def nameAfter (fields : List HeaderPieces) (name : Text) : Text :=
  fields.foldl (fun _ field => field.name.last.map Char.toLower) name

theorem foldl_fields (fields : List HeaderPieces) (held : Text × Request) :
    (fields.flatMap HeaderPieces.callbacks).foldl (absorb cfg) held = (nameAfter fields held.1,
        { held.2 with header := fields.foldl HeaderPieces.enter held.2.header }) := by
  induction fields generalizing held with
  | nil => rfl
  | cons field rest ih =>
    rw [List.flatMap_cons, List.foldl_append, foldl_field, ih]
    rfl

theorem foldl_spans (spans : List (Pieces Char)) (held : Text × Request) :
    (spans.flatMap fun span => span.parts.map .body).foldl (absorb cfg) held =
      (held.1, { held.2 with
        payload := held.2.payload ++ (spans.map Pieces.whole).flatten }) := by
  induction spans generalizing held with
  | nil => simp
  | cons span rest ih =>
    rw [List.flatMap_cons, List.foldl_append, foldl_body, ih]
    simp [Pieces.whole]

theorem foldl_rest (d : Delivery) (name : Text) : (d.rest.foldl (absorb cfg) (name, {})).2 = d.request cfg := by
  simp only [rest, List.foldl_append, foldl_url, foldl_fields, foldl_spans, List.foldl_cons,
    List.foldl_nil, absorb, if_neg d.url.nonempty, request, headerMap, fields, readUrl,
    List.nil_append]

theorem messageBegin_notMem_rest (d : Delivery) : .messageBegin ∉ d.rest := by
  simp [rest, HeaderPieces.callbacks]

end Delivery

theorem build_eq (cfg : Config) {h : Handler} (free : h.NextFree) (d : Delivery)
    {buffers : List (List Callback)} (split : buffers.flatten = d.callbacks) :
    h.build cfg buffers = .ok (some (d.request cfg)) := by
  obtain ⟨begun, taken, parsing⟩ := Handler.messageBegin_parsing cfg free
  obtain ⟨later, ends, parsed⟩ := Handler.onRead_parsing cfg d.messageBegin_notMem_rest parsing
  have whole : h.onReads cfg buffers = .ok later := by
    rw [Handler.onReads_flatten, split, Delivery.callbacks, Handler.onRead, Transition.run_cons, taken]
    exact ends
  rw [Handler.build, whole, ← d.foldl_rest cfg h.currHeaderName, ← parsed.request]
  rfl

/-! ## When the pieces make no difference -/

def Delivery.HeadersAtOnce (d : Delivery) : Prop :=
  ∀ field ∈ d.fields, field.name.Unbroken ∧ field.value.parts.length = 1

instance (d : Delivery) : Decidable d.HeadersAtOnce :=
  inferInstanceAs (Decidable (∀ field ∈ d.fields, _))

/-! ### The header map -/

/-- A number for each name in a map, added up. -/
def HeaderMap.weight (f : Text → Nat) (map : HeaderMap) : Nat := (map.map fun entry => f entry.1).sum

theorem HeaderMap.emplace_perm (header : HeaderMap) (name : Text) (value : HeaderValue) :
    (header.emplace name value).Perm ((name, value) :: header) := by
  induction header with
  | nil => exact List.Perm.refl _
  | cons entry rest ih =>
    rw [HeaderMap.emplace]
    split
    · exact List.Perm.refl _
    · exact (ih.cons entry).trans (List.Perm.swap _ _ _)

theorem HeaderPieces.weight_enter (f : Text → Nat) (field : HeaderPieces) (map : HeaderMap) :
    (field.enter map).weight f =
      map.weight f + field.value.parts.length * f (field.name.last.map Char.toLower) := by
  unfold HeaderPieces.enter
  induction field.value.parts generalizing map with
  | nil => simp
  | cons part rest ih =>
    rw [List.foldl_cons, ih, HeaderMap.weight, ((map.emplace_perm _ _).map _).sum_eq, List.map_cons,
      List.sum_cons, List.length_cons, Nat.add_mul, HeaderMap.weight]
    dsimp only
    omega

theorem weight_foldl_enter (f : Text → Nat) (fields : List HeaderPieces) (map : HeaderMap) :
    (fields.foldl HeaderPieces.enter map).weight f = map.weight f +
      (fields.map fun field => field.value.parts.length * f (field.name.last.map Char.toLower)).sum := by
  induction fields generalizing map with
  | nil => rfl
  | cons field rest ih =>
    rw [List.foldl_cons, ih, HeaderPieces.weight_enter, List.map_cons, List.sum_cons]
    omega

theorem Delivery.fields_joined (d : Delivery) : d.joined.fields = d.fields.map HeaderPieces.joined := by
  rw [fields, fields, List.map_append]
  rfl

/-- The header map is that of the request exactly when every name and value came at
once: a value in pieces adds entries, a name in pieces gets shorter. -/
theorem headerMap_joined_iff (d : Delivery) : d.headerMap = d.joined.headerMap ↔ d.HeadersAtOnce := by
  constructor
  · intro same
    have entries := congrArg (HeaderMap.weight fun _ => 1) same
    have names := congrArg (HeaderMap.weight List.length) same
    simp only [Delivery.headerMap, weight_foldl_enter, Delivery.fields_joined, List.map_map, Nat.mul_one,
      List.length_map] at entries names
    have values : ∀ field ∈ d.fields, 1 = field.value.parts.length :=
      eq_of_sum_eq (fun field _ => field.value.length_parts_pos) (Nat.add_left_cancel entries).symm
    have lengths : ∀ field ∈ d.fields, field.value.parts.length * field.name.last.length =
        1 * field.name.whole.length := by
      refine eq_of_sum_eq (fun field member => ?_) (Nat.add_left_cancel names)
      rw [← values field member]
      exact Nat.mul_le_mul_left 1 field.name.length_last_le
    intro field member
    have length := lengths field member
    rw [← values field member, Nat.one_mul, Nat.one_mul] at length
    exact ⟨field.name.length_last_eq_iff.mp length, (values field member).symm⟩
  · intro atOnce
    rw [Delivery.headerMap, Delivery.headerMap, Delivery.fields_joined, List.foldl_map]
    refine List.foldl_ext _ _ _ fun map field member => ?_
    obtain ⟨name, value⟩ := atOnce field member
    rw [HeaderPieces.enter, HeaderPieces.enter, name.last_eq, Pieces.parts_of_length_one value]
    rfl

/-- `GET /a` with one field, its name, value and body in the given pieces. -/
def sample (name value body : Pieces Char) : Delivery where
  method := "GET".toList
  url := .atOnce "/a".toList
  headers := [⟨name, value⟩]
  body := [body]
  trailers := []
  keepAlive := true

def pathOnly : Config where
  parseUrl := fun target => { path := some target }

end H2LoadRunner.MockServer.Http1
