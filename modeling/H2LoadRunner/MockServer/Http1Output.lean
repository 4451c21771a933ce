/-
# MockServer.Http1Output -- what `on_write` leaves in the output buffer

`on_write` copies the responses that are next in line into the output vector, one line after another,
and lets the body's generator write behind them.  Before each line the vector grows if it is shorter
than the line, however much of it is in use; the first read of a body is given the rest of the vector,
and each further one a place as far behind the first free byte as that is behind the start.  `call_read`
returns an `int`.

* `onWrite_correct_of_fits`: the vector holds the messages one after another where every line fits
  into what is left of the vector or is longer than all of it, and every body fits into what is left
  (`Fits`); for one response in a vector of 16 KiB or more, only if its body fits.

The generator that `write_head` leaves in place before `end` is called never ends; a response is ready
when it has another one, or no body.  Lengths are integers and do not reach the width of `size_t`.
-/
import H2LoadRunner.Library.Buffers
import H2LoadRunner.MockServer.Http1Handler

namespace H2LoadRunner.MockServer.Http1

open Library

set_option autoImplicit false

variable {texts : List Text} {fuel : Nat} {strm : Stream} {buffer left : Text}

/-! ## The lines of a response -/

def getReasonPhrase : Nat → Text
  | 100 => "Continue".toList
  | 101 => "Switching Protocols".toList
  | 103 => "Early Hints".toList
  | 200 => "OK".toList
  | 201 => "Created".toList
  | 202 => "Accepted".toList
  | 203 => "Non-Authoritative Information".toList
  | 204 => "No Content".toList
  | 205 => "Reset Content".toList
  | 206 => "Partial Content".toList
  | 300 => "Multiple Choices".toList
  | 301 => "Moved Permanently".toList
  | 302 => "Found".toList
  | 303 => "See Other".toList
  | 304 => "Not Modified".toList
  | 305 => "Use Proxy".toList
  | 307 => "Temporary Redirect".toList
  | 308 => "Permanent Redirect".toList
  | 400 => "Bad Request".toList
  | 401 => "Unauthorized".toList
  | 402 => "Payment Required".toList
  | 403 => "Forbidden".toList
  | 404 => "Not Found".toList
  | 405 => "Method Not Allowed".toList
  | 406 => "Not Acceptable".toList
  | 407 => "Proxy Authentication Required".toList
  | 408 => "Request Timeout".toList
  | 409 => "Conflict".toList
  | 410 => "Gone".toList
  | 411 => "Length Required".toList
  | 412 => "Precondition Failed".toList
  | 413 => "Payload Too Large".toList
  | 414 => "URI Too Long".toList
  | 415 => "Unsupported Media Type".toList
  | 416 => "Requested Range Not Satisfiable".toList
  | 417 => "Expectation Failed".toList
  | 421 => "Misdirected Request".toList
  | 425 => "Too Early".toList
  | 426 => "Upgrade Required".toList
  | 428 => "Precondition Required".toList
  | 429 => "Too Many Requests".toList
  | 431 => "Request Header Fields Too Large".toList
  | 451 => "Unavailable For Legal Reasons".toList
  | 500 => "Internal Server Error".toList
  | 501 => "Not Implemented".toList
  | 502 => "Bad Gateway".toList
  | 503 => "Service Unavailable".toList
  | 504 => "Gateway Timeout".toList
  | 505 => "HTTP Version Not Supported".toList
  | 511 => "Network Authentication Required".toList
  | _ => []

def crlf : Text := "\r\n".toList

def httpVersion (shouldKeepAlive : Bool) : Text :=
  if shouldKeepAlive then "HTTP/1.1".toList else "HTTP/1.0".toList

def decimal (n : Nat) : Text := (toString n).toList

namespace Stream

/-- What is copied after each call of `inc_buffer_size`, in order. -/
def groups (strm : Stream) (shouldKeepAlive : Bool) : List (List Text) :=
  [httpVersion shouldKeepAlive, " ".toList, decimal strm.response.statusCode, " ".toList,
      getReasonPhrase strm.response.statusCode, crlf] ::
    ((if strm.response.header.find "content-length".toList = none ∧ strm.response.payloadSize ≠ 0 then
        [["content-length".toList, ":".toList, decimal strm.response.payloadSize, crlf]]
      else []) ++
      strm.response.header.map (fun entry => [entry.1, ":".toList, entry.2.value, crlf]) ++ [[crlf]])

def expectsBody (strm : Stream) : Bool :=
  expectResponseBody strm.request.method strm.response.statusCode

/-- The head is written and `end` was called, where there is a body to send. -/
def Ready (strm : Stream) : Prop := strm.expectsBody = true → strm.response.generator.isSome = true

def body (strm : Stream) : Text :=
  if strm.expectsBody then strm.response.generator.getD [] else []

def statusLine (strm : Stream) (shouldKeepAlive : Bool) : Text :=
  httpVersion shouldKeepAlive ++ " ".toList ++ decimal strm.response.statusCode ++ " ".toList ++
    getReasonPhrase strm.response.statusCode ++ crlf

def headerLine (name value : Text) : Text := name ++ ":".toList ++ value ++ crlf

/-- The length of the payload is announced where the header map does not do it. -/
def headerLines (strm : Stream) : Text :=
  (if strm.response.header.find "content-length".toList = none ∧ strm.response.payloadSize ≠ 0 then
      headerLine "content-length".toList (decimal strm.response.payloadSize)
    else []) ++
    strm.response.header.flatMap fun entry => headerLine entry.1 entry.2.value

/-- What is to be sent for the response. -/
def message (strm : Stream) (shouldKeepAlive : Bool) : Text :=
  strm.statusLine shouldKeepAlive ++ strm.headerLines ++ crlf ++ strm.body

end Stream

/-! ## The output vector -/

def incStep : Nat := 16 * 1024

def nul : Char := Char.ofNat 0

structure Output where
  buffer : Text
  /-- `data_len` -/
  dataLen : Int

inductive OutputFault where
  /-- A byte is written at or past the end of the vector. -/
  | outOfRange
  /-- The loop is not over after so many turns. -/
  | outOfFuel

/-- Write from the byte at `index` on. -/
def store (buffer : Text) (index : Int) (data : Text) : Except OutputFault Text :=
  if data = [] then .ok buffer
  else if 0 ≤ index ∧ index + data.length ≤ buffer.length then
    .ok (overwrite buffer index.toNat data)
  else .error .outOfRange

namespace Output

def copy (o : Output) (text : Text) : Except OutputFault Output := do
  let buffer ← store o.buffer o.dataLen text
  return ⟨buffer, o.dataLen + text.length⟩

def incBufferSize (o : Output) (requiredSize : Nat) : Output :=
  if o.buffer.length < requiredSize then
    { o with buffer := o.buffer ++ List.replicate (requiredSize + incStep) nul }
  else o

def copyGroup (o : Output) (texts : List Text) : Except OutputFault Output :=
  texts.foldlM copy (o.incBufferSize texts.flatten.length)

/-- `call_read` with a `string_generator` that has `left` still to give: it is told the room from
`data_len` on, and writes at `index`. -/
def callRead (o : Output) (index : Int) (left : Text) : Except OutputFault (Output × Text) := do
  let n := min (o.buffer.length - o.dataLen).toNat left.length
  let buffer ← store o.buffer index (left.take n)
  return (⟨buffer, o.dataLen + int32 n⟩, left.drop n)

def readRest : Nat → Output → Text → Except OutputFault Output
  | 0, _, _ => .error .outOfFuel
  | fuel + 1, o, left => do
    let grown := o.incBufferSize incStep
    let (next, left) ← grown.callRead (grown.dataLen + grown.dataLen) left
    if left = [] then return next else readRest fuel next left

def readBody (fuel : Nat) (o : Output) (body : Text) : Except OutputFault Output := do
  let (next, left) ← o.callRead o.dataLen body
  if left = [] then return next else readRest fuel next left

end Output

def writeResponse (shouldKeepAlive : Bool) (fuel : Nat) (o : Output) (strm : Stream) :
    Except OutputFault Output := do
  let o ← (strm.groups shouldKeepAlive).foldlM Output.copyGroup o
  if strm.expectsBody then
    match strm.response.generator with
    | none => .error .outOfFuel
    | some body => o.readBody fuel body
  else return o

/-- `on_write` for the streams it finds. -/
def writeBuffer (shouldKeepAlive : Bool) (fuel : Nat) (buffer : Text) (streams : List Stream) :
    Except OutputFault Output :=
  streams.foldlM (writeResponse shouldKeepAlive fuel) ⟨buffer, 0⟩

/-- `on_write` comes to its end, writes inside the vector, and leaves the messages in it. -/
def Correct (shouldKeepAlive : Bool) (buffer : Text) (streams : List Stream) : Prop :=
  ∃ fuel o, writeBuffer shouldKeepAlive fuel buffer streams = .ok o ∧
    o.dataLen = (streams.flatMap (Stream.message · shouldKeepAlive)).length ∧
    o.buffer.take o.dataLen.toNat = streams.flatMap (Stream.message · shouldKeepAlive)

/-! ## The room that is needed -/

/-- The length of the vector once a line is written. -/
def sizeWith (size length : Nat) : Nat := if size < length then size + length + incStep else size

def LinesFit : Nat → Nat → List Nat → Prop
  | _, _, [] => True
  | size, offset, length :: rest =>
    (size < length ∨ offset + length ≤ size) ∧ LinesFit (sizeWith size length) (offset + length) rest

/-- The body fits into what is left of the vector and its length is an `int`. -/
def BodyFits (size offset : Nat) (body : Text) : Prop :=
  offset + body.length ≤ size ∧ body.length < 2 ^ 31

def Stream.lines (strm : Stream) (shouldKeepAlive : Bool) : List Nat :=
  (strm.groups shouldKeepAlive).map fun group => group.flatten.length

def Fits (shouldKeepAlive : Bool) : Nat → Nat → List Stream → Prop
  | _, _, [] => True
  | size, offset, strm :: rest =>
    let lines := strm.lines shouldKeepAlive
    let size' := lines.foldl sizeWith size
    let offset' := offset + lines.sum
    LinesFit size offset lines ∧ BodyFits size' offset' strm.body ∧
      Fits shouldKeepAlive size' (offset' + strm.body.length) rest

instance decidableLinesFit : (size offset : Nat) → (lengths : List Nat) →
    Decidable (LinesFit size offset lengths)
  | _, _, [] => isTrue trivial
  | size, offset, length :: rest =>
    have := decidableLinesFit (sizeWith size length) (offset + length) rest
    inferInstanceAs (Decidable (_ ∧ _))

instance (size offset : Nat) (body : Text) : Decidable (BodyFits size offset body) :=
  inferInstanceAs (Decidable (_ ∧ _))

instance decidableFits (shouldKeepAlive : Bool) : (size offset : Nat) → (streams : List Stream) →
    Decidable (Fits shouldKeepAlive size offset streams)
  | _, _, [] => isTrue trivial
  | _, _, _ :: rest =>
    have : ∀ size offset, Decidable (Fits shouldKeepAlive size offset rest) :=
      fun size offset => decidableFits shouldKeepAlive size offset rest
    inferInstanceAs (Decidable (_ ∧ _ ∧ Fits shouldKeepAlive _ _ rest))

/-! ## What fits -/

namespace Output

/-- The vector begins with the text and the next byte goes behind it. -/
structure At (o : Output) (text : Text) : Prop where
  length : o.dataLen = text.length
  held : o.buffer.take text.length = text

variable {o next : Output} {text more body : Text}

theorem At.length_le (here : o.At text) : text.length ≤ o.buffer.length := by
  have held := congrArg List.length here.held
  rw [List.length_take] at held
  omega

theorem length_incBufferSize (o : Output) (required : Nat) :
    (o.incBufferSize required).buffer.length =
      if o.buffer.length < required then o.buffer.length + required + incStep else o.buffer.length := by
  rw [incBufferSize]
  split
  · simp [Nat.add_assoc]
  · rfl

@[simp] theorem dataLen_incBufferSize (o : Output) (required : Nat) :
    (o.incBufferSize required).dataLen = o.dataLen := by
  rw [incBufferSize]
  split <;> rfl

theorem take_incBufferSize {n : Nat} (inside : n ≤ o.buffer.length) (required : Nat) :
    (o.incBufferSize required).buffer.take n = o.buffer.take n := by
  rw [incBufferSize]
  split
  · exact List.take_append_of_le_length inside
  · rfl

theorem copy_of_le (here : o.At text) (fits : text.length + more.length ≤ o.buffer.length) :
    ∃ next, o.copy more = .ok next ∧ next.At (text ++ more) ∧ next.buffer.length = o.buffer.length := by
  by_cases empty : more = []
  · refine ⟨o, ?_, by rwa [empty, List.append_nil], rfl⟩
    simp [copy, store, empty, bind, Except.bind, pure, Except.pure]
  · have inside : 0 ≤ o.dataLen ∧ o.dataLen + more.length ≤ o.buffer.length := by
      have := here.length
      omega
    refine ⟨⟨overwrite o.buffer o.dataLen.toNat more, o.dataLen + more.length⟩, ?_, ⟨?_, ?_⟩, ?_⟩
    · rw [copy, store, if_neg empty, if_pos inside]
      rfl
    · rw [List.length_append, here.length]
      rfl
    · have written := take_overwrite fits
      rw [here.held] at written
      rwa [List.length_append, here.length, Int.toNat_natCast]
    · exact length_overwrite (by omega)

theorem foldlM_copy_of_le (here : o.At text) (fits : text.length + texts.flatten.length ≤ o.buffer.length) :
    ∃ next, texts.foldlM copy o = .ok next ∧ next.At (text ++ texts.flatten) ∧
      next.buffer.length = o.buffer.length := by
  induction texts generalizing o text with
  | nil => exact ⟨o, rfl, by simpa using here, rfl⟩
  | cons first rest ih =>
    rw [List.flatten_cons, List.length_append] at fits
    have room : text.length + first.length ≤ o.buffer.length := by omega
    obtain ⟨middle, copied, there, same⟩ := copy_of_le here room
    obtain ⟨next, ends, last, length⟩ := ih there (by rw [List.length_append]; omega)
    refine ⟨next, ?_, by rwa [List.flatten_cons, ← List.append_assoc], length.trans same⟩
    rw [List.foldlM_cons, copied]
    exact ends

theorem at_incBufferSize (here : o.At text) (required : Nat) : (o.incBufferSize required).At text :=
  ⟨by rw [dataLen_incBufferSize, here.length],
    by rw [take_incBufferSize here.length_le, here.held]⟩

/-- A line that is longer than the vector always finds room. -/
theorem copyGroup_of_fits (here : o.At text) (fits : o.buffer.length < texts.flatten.length ∨
      text.length + texts.flatten.length ≤ o.buffer.length) :
    ∃ next, o.copyGroup texts = .ok next ∧ next.At (text ++ texts.flatten) ∧
      next.buffer.length = sizeWith o.buffer.length texts.flatten.length := by
  have inside := here.length_le
  have grown := length_incBufferSize o texts.flatten.length
  have room : text.length + texts.flatten.length ≤
      (o.incBufferSize texts.flatten.length).buffer.length := by
    split at grown <;> omega
  obtain ⟨next, ends, there, length⟩ :=
    foldlM_copy_of_le (at_incBufferSize here texts.flatten.length) room
  exact ⟨next, ends, there, length.trans grown⟩

theorem foldlM_copyGroup (groups : List (List Text)) (here : o.At text)
    (fit : LinesFit o.buffer.length text.length (groups.map fun group => group.flatten.length)) :
    ∃ next, groups.foldlM copyGroup o = .ok next ∧ next.At (text ++ groups.flatten.flatten) ∧
      next.buffer.length = (groups.map fun group => group.flatten.length).foldl sizeWith o.buffer.length := by
  induction groups generalizing o text with
  | nil => exact ⟨o, rfl, by simpa using here, rfl⟩
  | cons group rest ih =>
    obtain ⟨first, others⟩ := fit
    obtain ⟨middle, copied, there, length⟩ := copyGroup_of_fits here first
    obtain ⟨next, ends, last, size⟩ := ih there (by rwa [length, List.length_append])
    rw [length] at size
    refine ⟨next, ?_, by simpa using last, size⟩
    rw [List.foldlM_cons, copied]
    exact ends

theorem readBody_of_le (here : o.At text) (fits : BodyFits o.buffer.length text.length body) (fuel : Nat) :
    ∃ next, o.readBody fuel body = .ok next ∧ next.At (text ++ body) ∧
      next.buffer.length = o.buffer.length := by
  obtain ⟨next, copied, there, length⟩ := copy_of_le here fits.1
  obtain ⟨buffer, stored, ended⟩ := Transition.ok_of_bind copied
  cases ended
  have all : min (o.buffer.length - o.dataLen).toNat body.length = body.length := by
    have := here.length
    have := fits.1
    omega
  refine ⟨⟨buffer, o.dataLen + body.length⟩, ?_, there, length⟩
  rw [readBody, callRead]
  simp only [all, List.take_length, stored, List.drop_length, bind, Except.bind, pure, Except.pure,
    if_true, int32_of_lt fits.2]

/-! ## What does not fit -/

theorem callRead_of_lt (here : o.At text) (past : o.buffer.length < text.length + body.length) :
    let room := o.buffer.length - text.length
    o.callRead o.dataLen body =
      .ok (⟨text ++ body.take room, text.length + int32 room⟩, body.drop room) := by
  intro room
  have inside := here.length_le
  have taken : (body.take room).length = room := by
    rw [List.length_take]
    omega
  obtain ⟨next, copied, there, length⟩ := copy_of_le here (show _ + (body.take room).length ≤ _ by omega)
  obtain ⟨buffer, stored, ended⟩ := Transition.ok_of_bind copied
  cases ended
  have whole : buffer = text ++ body.take room := by
    have held := there.held
    have size : buffer.length = o.buffer.length := length
    rwa [List.take_of_length_le (by rw [List.length_append]; show buffer.length ≤ _; omega)] at held
  have count : min (o.buffer.length - o.dataLen).toNat body.length = room := by
    have := here.length
    omega
  rw [callRead]
  simp only [count, stored, whole, bind, Except.bind, pure, Except.pure]
  rw [here.length]

theorem readRest_of_full (full : o.dataLen = o.buffer.length) (long : incStep ≤ o.buffer.length)
    (some : left ≠ []) (fuel : Nat) : readRest fuel o left = .error .outOfFuel := by
  induction fuel with
  | zero => rfl
  | succ fuel ih =>
    have same : o.incBufferSize incStep = o := by rw [incBufferSize, if_neg (by omega)]
    have read : o.callRead (o.dataLen + o.dataLen) left = .ok (o, left) := by
      have none : min (o.buffer.length - o.dataLen).toNat left.length = 0 := by omega
      have zero : int32 0 = 0 := by decide
      rw [callRead]
      simp only [none, List.take_zero, store, if_true, List.drop_zero, bind, Except.bind, pure,
        Except.pure, zero, Int.add_zero]
    rw [readRest]
    simp only [same, read, bind, Except.bind, if_neg some]
    exact ih

theorem readBody_of_lt (here : o.At text) (past : o.buffer.length < text.length + body.length)
    (long : incStep ≤ o.buffer.length) (small : o.buffer.length < 2 ^ 31) (fuel : Nat) :
    o.readBody fuel body = .error .outOfFuel := by
  have inside := here.length_le
  have some : body.drop (o.buffer.length - text.length) ≠ [] := by
    apply List.ne_nil_of_length_pos
    rw [List.length_drop]
    omega
  have filled : (text ++ body.take (o.buffer.length - text.length)).length = o.buffer.length := by
    rw [List.length_append, List.length_take]
    omega
  have count : int32 (o.buffer.length - text.length : Nat) = (o.buffer.length - text.length : Nat) :=
    int32_of_lt (by omega)
  rw [readBody, callRead_of_lt here past]
  simp only [bind, Except.bind, if_neg some]
  refine readRest_of_full ?_ (by rwa [filled]) some fuel
  rw [filled, count]
  show (text.length : Int) + _ = _
  omega

end Output

/-! ## Every list of responses -/

theorem flatten_groups (strm : Stream) (shouldKeepAlive : Bool) :
    (strm.groups shouldKeepAlive).flatten.flatten ++ strm.body = strm.message shouldKeepAlive := by
  have lines : ∀ header : HeaderMap,
      (header.map fun entry => [entry.1, ":".toList, entry.2.value, crlf]).flatten.flatten =
        header.flatMap fun entry => Stream.headerLine entry.1 entry.2.value := by
    intro header
    induction header with
    | nil => rfl
    | cons entry rest ih =>
      rw [List.map_cons, List.flatten_cons, List.flatten_append, ih, List.flatMap_cons]
      simp [Stream.headerLine]
  rw [Stream.groups, Stream.message, Stream.statusLine, Stream.headerLines]
  rw [List.flatten_cons, List.flatten_append, List.flatten_append, List.flatten_append,
    List.flatten_append, List.flatten_append, lines]
  split <;> simp [Stream.headerLine]

theorem length_message (strm : Stream) (shouldKeepAlive : Bool) :
    (strm.message shouldKeepAlive).length = (strm.lines shouldKeepAlive).sum + strm.body.length := by
  rw [← flatten_groups, List.length_append, List.length_flatten, List.map_flatten, List.sum_flatten,
    List.map_map, Stream.lines]
  simp only [List.length_flatten, Function.comp_def]

variable {o : Output} {text : Text}

theorem writeResponse_head (ready : strm.Ready) (shouldKeepAlive : Bool) (here : o.At text)
    (fit : LinesFit o.buffer.length text.length (strm.lines shouldKeepAlive)) :
    ∃ head next, head ++ strm.body = text ++ strm.message shouldKeepAlive ∧
      head.length = text.length + (strm.lines shouldKeepAlive).sum ∧ next.At head ∧
      next.buffer.length = (strm.lines shouldKeepAlive).foldl sizeWith o.buffer.length ∧
      ∀ fuel, writeResponse shouldKeepAlive fuel o strm =
        if strm.expectsBody then next.readBody fuel strm.body else .ok next := by
  obtain ⟨next, copied, there, length⟩ := Output.foldlM_copyGroup (strm.groups shouldKeepAlive) here fit
  have total := length_message strm shouldKeepAlive
  rw [← flatten_groups, List.length_append] at total
  refine ⟨_, next, by rw [List.append_assoc, flatten_groups], ?_, there, length, fun fuel => ?_⟩
  · rw [List.length_append]
    omega
  · rw [writeResponse, copied]
    by_cases expected : strm.expectsBody = true
    · obtain ⟨body, given⟩ := Option.isSome_iff_exists.mp (ready expected)
      simp [Stream.body, expected, given, bind, Except.bind]
    · simp [expected, bind, Except.bind, pure, Except.pure]

theorem writeResponse_of_fits (ready : strm.Ready) (shouldKeepAlive : Bool) (here : o.At text)
    (lines : LinesFit o.buffer.length text.length (strm.lines shouldKeepAlive))
    (body : BodyFits ((strm.lines shouldKeepAlive).foldl sizeWith o.buffer.length)
      (text.length + (strm.lines shouldKeepAlive).sum) strm.body) (fuel : Nat) :
    ∃ next, writeResponse shouldKeepAlive fuel o strm = .ok next ∧
      next.At (text ++ strm.message shouldKeepAlive) ∧
      next.buffer.length = (strm.lines shouldKeepAlive).foldl sizeWith o.buffer.length := by
  obtain ⟨head, next, whole, reached, there, length, wrote⟩ :=
    writeResponse_head ready shouldKeepAlive here lines
  rw [wrote fuel, ← whole]
  rw [← reached, ← length] at body
  by_cases expected : strm.expectsBody = true
  · obtain ⟨last, read, stands, same⟩ := Output.readBody_of_le there body fuel
    rw [if_pos expected]
    exact ⟨last, read, stands, same.trans length⟩
  · have none : strm.body = [] := if_neg expected
    rw [if_neg expected, none, List.append_nil]
    exact ⟨next, rfl, there, length⟩

theorem foldlM_writeResponse (shouldKeepAlive : Bool) {streams : List Stream}
    (ready : ∀ strm ∈ streams, strm.Ready) (here : o.At text)
    (fits : Fits shouldKeepAlive o.buffer.length text.length streams) (fuel : Nat) :
    ∃ last, streams.foldlM (writeResponse shouldKeepAlive fuel) o = .ok last ∧
      last.At (text ++ streams.flatMap (Stream.message · shouldKeepAlive)) := by
  induction streams generalizing o text with
  | nil => exact ⟨o, rfl, by simpa using here⟩
  | cons strm rest ih =>
    obtain ⟨lines, body, others⟩ := fits
    obtain ⟨middle, wrote, there, size⟩ :=
      writeResponse_of_fits (ready strm List.mem_cons_self) shouldKeepAlive here lines body fuel
    have offset : (text ++ strm.message shouldKeepAlive).length =
        text.length + (strm.lines shouldKeepAlive).sum + strm.body.length := by
      rw [List.length_append, length_message]
      omega
    obtain ⟨last, ends, stands⟩ := ih (fun other member => ready other (List.mem_cons_of_mem _ member))
      there (by rwa [size, offset])
    refine ⟨last, ?_, by rwa [List.flatMap_cons, ← List.append_assoc]⟩
    rw [List.foldlM_cons, wrote]
    exact ends

theorem at_start (buffer : Text) : (Output.mk buffer 0).At [] := ⟨rfl, rfl⟩

/-- A body that does not fit into a vector of one step or more is never read to its end. -/
theorem fits_of_correct {k : Bool} (ready : strm.Ready) (lines : LinesFit buffer.length 0 (strm.lines k))
    (long : incStep ≤ (strm.lines k).foldl sizeWith buffer.length)
    (small : (strm.lines k).foldl sizeWith buffer.length < 2 ^ 31) (correct : Correct k buffer [strm]) :
    Fits k buffer.length 0 [strm] := by
  obtain ⟨fuel, last, ends, -⟩ := correct
  obtain ⟨head, next, -, reached, there, length, wrote⟩ := writeResponse_head ready k (at_start buffer) lines
  rw [List.length_nil] at reached
  rw [← length] at long small
  refine ⟨lines, ?_, trivial⟩
  rw [← reached, ← length]
  by_contra unfit
  have inside := there.length_le
  have past : next.buffer.length < head.length + strm.body.length := by
    rw [BodyFits] at unfit
    omega
  by_cases expected : strm.expectsBody = true
  · rw [writeBuffer, List.foldlM_cons, wrote fuel, if_pos expected,
      next.readBody_of_lt there past long small] at ends
    cases ends
  · rw [show strm.body = [] from if_neg expected, List.length_nil] at past
    omega

/-- **`on_write` leaves the messages of all ready responses in the vector where everything fits when it
is its turn.**  The message of one response whose lines fit into a vector of 16 KiB or more is left there
exactly if the body fits. -/
theorem onWrite_correct_of_fits (shouldKeepAlive : Bool) (buffer : Text) (streams : List Stream)
    (ready : ∀ strm ∈ streams, strm.Ready) :
    (Fits shouldKeepAlive buffer.length 0 streams → Correct shouldKeepAlive buffer streams) ∧
    ∀ strm, streams = [strm] → LinesFit buffer.length 0 (strm.lines shouldKeepAlive) →
      incStep ≤ (strm.lines shouldKeepAlive).foldl sizeWith buffer.length →
      (strm.lines shouldKeepAlive).foldl sizeWith buffer.length < 2 ^ 31 →
      Correct shouldKeepAlive buffer streams → Fits shouldKeepAlive buffer.length 0 streams := by
  constructor
  · intro fits
    obtain ⟨last, ends, stands⟩ := foldlM_writeResponse shouldKeepAlive ready (at_start buffer) fits 0
    rw [List.nil_append] at stands
    refine ⟨0, last, ends, stands.length, ?_⟩
    rw [stands.length, Int.toNat_natCast]
    exact stands.held
  · rintro strm rfl
    exact fits_of_correct (ready strm List.mem_cons_self)

def outbuf : Text := List.replicate (64 * 1024) nul

def answering (statusCode : Nat) (payload : Text) : Stream where
  streamId := 1
  request := { method := "GET".toList }
  response := { statusCode := statusCode, payloadSize := payload.length, generator := some payload }
  number := 1

theorem answering_ready (statusCode : Nat) (payload : Text) : (answering statusCode payload).Ready :=
  fun _ => rfl

/-- **Satisfiable pole:** two short responses in the vector of a connection. -/
theorem shortBodies_correct : Correct true outbuf [answering 200 "hello".toList, answering 404 []] := by
  refine (onWrite_correct_of_fits true outbuf _ ?_).1 ?_
  · simp [answering_ready]
  · rw [outbuf, List.length_replicate]
    decide +kernel

/-- **Refuting pole:** a body as long as the vector of a connection is never read to its end. -/
theorem longBody_not_correct : ¬ Correct true outbuf [answering 200 (List.replicate (64 * 1024) 'x')] := by
  intro correct
  have lines : (answering 200 (List.replicate (64 * 1024) 'x')).lines true = [17, 22, 2] := by
    simp only [Stream.lines, Stream.groups, answering, List.length_replicate]
    decide +kernel
  have size : outbuf.length = 64 * 1024 := List.length_replicate
  have fits := (fits_of_correct (answering_ready 200 _) (by rw [lines, size]; decide)
    (by rw [lines, size]; decide) (by rw [lines, size]; decide) correct).2.1.1
  have body : (answering 200 (List.replicate (64 * 1024) 'x')).body.length = 64 * 1024 := List.length_replicate
  rw [lines, size, body] at fits
  revert fits
  decide

end H2LoadRunner.MockServer.Http1
