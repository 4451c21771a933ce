/-
# Load.Http1Upload -- the bytes an HTTP/1 session pushes to the output buffer

`submit_request` pushes the header block of a request and the first 16 KiB of its body, `on_write` the
next 16 KiB, of the stream that `stream_req_counter_` names.  With scenarios the body is taken off the
stored request, otherwise `data_offset` says how much of the file has been sent, a member that no
constructor sets.

`output_inOrder`: what is pushed are whole requests in the order they were submitted, as long as each is
submitted behind a complete one, under an identifier without a stored request and with an offset of
zero, and no response closes the stream of a body that is still being sent.
-/
import H2LoadRunner.Library.FiniteMap
import H2LoadRunner.Library.Transition

namespace H2LoadRunner.Load.Http1Upload

open Library
open Library.Transition (run Along exists_run run_invariant)

set_option autoImplicit false

abbrev Bytes := List UInt8

/-! ## The session -/

structure Config where
  /-- `json_config_schema.scenarios.size()` is not 0. -/
  scenarios : Bool
  /-- `payload_data`; its size is `data_length`. -/
  payloadData : Bytes

structure Session where
  streamReqCounter : Nat := 1
  streamRespCounter : Nat := 1
  complete : Bool := false
  /-- The connection goes down. -/
  stopped : Bool := false
  /-- The open streams with their `data_offset`. -/
  streams : FiniteMap Nat Int := ∅
  /-- The payloads not yet sent; there may be some of an earlier connection. -/
  requestMap : FiniteMap Nat Bytes
  output : Bytes := []
  /-- The header blocks and the bodies of the requests that were submitted. -/
  submitted : List (Bytes × Bytes) := []

inductive Fault where
  | assertion
  /-- The file is read before its beginning. -/
  | outOfBounds
  /-- The event cannot happen in this state. -/
  | disabled

def chunk : Nat := 16 * 1024

namespace Session

def push (s : Session) (bytes : Bytes) : Session := { s with output := s.output ++ bytes }

def onStreamClose (s : Session) (id : Nat) : Session :=
  { s with streams := s.streams.erase id, requestMap := s.requestMap.erase id }

/-- The end of a body: a response that has already been received closes the stream now. -/
def bodySent (s : Session) : Session :=
  let next := { s with streamReqCounter := s.streamReqCounter + 2 }
  if next.streamRespCounter = next.streamReqCounter then next.onStreamClose (next.streamRespCounter - 2)
  else next

def onWrite (cfg : Config) (s : Session) : Except Fault Session :=
  if s.complete then .ok s
  else
    match s.streams.lookup s.streamReqCounter with
    | none => .ok s
    | some offset =>
      if cfg.scenarios then
        match s.requestMap.lookup s.streamReqCounter with
        | none => .error .assertion
        | some buffer =>
          if buffer = [] then .ok s
          else if chunk < buffer.length then
            .ok { s.push (buffer.take chunk) with
              requestMap := s.requestMap.insert s.streamReqCounter (buffer.drop chunk) }
          else .ok (s.push buffer).bodySent
      else if offset < cfg.payloadData.length then
        if offset < 0 then .error .outOfBounds
        else
          let sent := (cfg.payloadData.drop offset.toNat).take chunk
          let written := { s.push sent with
            streams := s.streams.insert s.streamReqCounter (offset + sent.length) }
          if offset + sent.length = cfg.payloadData.length then .ok written.bodySent else .ok written
      else .ok s

def body (cfg : Config) (payload : Bytes) : Bytes := if cfg.scenarios then payload else cfg.payloadData

/-- `submit_request` up to the header block; `offset` is what the memory of the new stream holds. -/
def opened (cfg : Config) (s : Session) (head payload : Bytes) (offset : Int) : Session :=
  { s.push head with
    requestMap := if cfg.scenarios then s.requestMap.emplace s.streamReqCounter payload else s.requestMap
    streams := s.streams.insert s.streamReqCounter offset
    submitted := s.submitted ++ [(head, body cfg payload)] }

def submitRequest (cfg : Config) (s : Session) (head payload : Bytes) (offset : Int) : Except Fault Session :=
  let opened := s.opened cfg head payload offset
  if body cfg payload = [] then .ok { opened with streamReqCounter := opened.streamReqCounter + 2 }
  else opened.onWrite cfg

def msgComplete (cfg : Config) (s : Session) : Except Fault Session :=
  match s.streams.lookup s.streamRespCounter with
  | none => .error .assertion
  | some offset => if offset ≥ cfg.payloadData.length then .ok (s.onStreamClose s.streamRespCounter) else .ok s

def msgCompleted (s : Session) (keepAlive : Bool) : Session :=
  let next := { s with streamRespCounter := s.streamRespCounter + 2 }
  if keepAlive then next else { next with streamReqCounter := next.streamRespCounter, stopped := true }

end Session

/-- What the client and the parser do with the session.  `on_stream_close` may submit a request before
`htp_msg_completecb` goes on, so its end is an event of its own. -/
inductive Event where
  | submitRequest (head payload : Bytes) (offset : Int)
  | onWrite
  | messageComplete
  | messageCompleted (keepAlive : Bool)
  | terminate

def step (cfg : Config) (s : Session) (event : Event) : Except Fault Session :=
  if s.stopped then .error .disabled
  else
    match event with
    | .submitRequest head payload offset => s.submitRequest cfg head payload offset
    | .onWrite => s.onWrite cfg
    | .messageComplete => s.msgComplete cfg
    | .messageCompleted keepAlive => .ok (s.msgCompleted keepAlive)
    | .terminate => .ok { s with complete := true }

/-- Whole requests, in order: `left` is missing at the end of the last body. -/
def Session.InOrder (s : Session) (left : Bytes) : Prop :=
  s.output ++ left = s.submitted.flatMap (fun request => request.1 ++ request.2) ∧
    ∀ last ∈ s.submitted.getLast?, left <:+ last.2

/-- The body before has been sent, its identifier is vacant, and the memory of the stream is zero; a
response to a body that is still being sent does not close its stream. -/
def Undisturbed (cfg : Config) (s : Session) : Event → Prop
  | .submitRequest _ _ offset => s.streamReqCounter ∉ s.streams ∧
      if cfg.scenarios then s.streamReqCounter ∉ s.requestMap else offset = 0
  | .messageComplete => s.streamRespCounter = s.streamReqCounter →
      ∀ offset ∈ s.streams.lookup s.streamRespCounter, offset < cfg.payloadData.length
  | _ => True

/-! ## What is left to send -/

/-- The part of the current body that has not been pushed. -/
def Session.rest (cfg : Config) (s : Session) : Bytes :=
  match s.streams.lookup s.streamReqCounter with
  | none => []
  | some offset =>
    if cfg.scenarios then (s.requestMap.lookup s.streamReqCounter).getD []
    else cfg.payloadData.drop offset.toNat

structure Sound (cfg : Config) (s : Session) : Prop where
  inOrder : s.InOrder (s.rest cfg)
  bound : ∀ id ∈ s.streams, id ≤ s.streamReqCounter

variable {cfg : Config} {s t : Session}

theorem Session.InOrder.push {sent left : Bytes} (inOrder : s.InOrder (sent ++ left)) : (s.push sent).InOrder left := by
  obtain ⟨whole, suffix⟩ := inOrder
  exact ⟨(List.append_assoc ..).trans whole,
    fun last member => (List.suffix_append sent left).trans (suffix last member)⟩

theorem rest_of_notMem (unopened : s.streamReqCounter ∉ s.streams) : s.rest cfg = [] := by
  rw [Session.rest, AList.lookup_eq_none.mpr unopened]

theorem bound_insert (bound : ∀ id ∈ s.streams, id ≤ s.streamReqCounter) (offset : Int) :
    ∀ id ∈ s.streams.insert s.streamReqCounter offset, id ≤ s.streamReqCounter := by
  intro id member
  rcases (AList.mem_insert _).mp member with rfl | old
  · exact le_rfl
  · exact bound id old

theorem sound_next (inOrder : s.InOrder []) (bound : ∀ id ∈ s.streams, id ≤ s.streamReqCounter) :
    Sound cfg { s with streamReqCounter := s.streamReqCounter + 2 } := by
  refine ⟨?_, fun id member => (bound id member).trans (Nat.le_add_right ..)⟩
  have unopened : s.streamReqCounter + 2 ∉ s.streams := fun member => absurd (bound _ member) (by omega)
  have none : Session.rest cfg { s with streamReqCounter := s.streamReqCounter + 2 } = [] := rest_of_notMem unopened
  rw [none]
  exact inOrder

theorem sound_onStreamClose {id : Nat} (sound : Sound cfg s) (other : id ≠ s.streamReqCounter) :
    Sound cfg (s.onStreamClose id) := by
  refine ⟨?_, fun id member => sound.bound id (AList.mem_erase.mp member).2⟩
  have same : (s.onStreamClose id).rest cfg = s.rest cfg := by
    simp [Session.rest, Session.onStreamClose, other.symm]
  rw [same]
  exact sound.inOrder

theorem sound_bodySent (inOrder : s.InOrder []) (bound : ∀ id ∈ s.streams, id ≤ s.streamReqCounter) :
    Sound cfg s.bodySent := by
  have next : Sound cfg { s with streamReqCounter := s.streamReqCounter + 2 } := sound_next inOrder bound
  simp only [Session.bodySent]
  split
  · rename_i received
    exact sound_onStreamClose next (by simp [received])
  · exact next

theorem sound_onWrite (sound : Sound cfg s) (taken : s.onWrite cfg = .ok t) : Sound cfg t := by
  obtain ⟨inOrder, bound⟩ := sound
  unfold Session.onWrite at taken
  split at taken
  · cases taken
    exact ⟨inOrder, bound⟩
  · split at taken
    · cases taken
      exact ⟨inOrder, bound⟩
    · rename_i offset open_
      split at taken
      · rename_i scenarios
        split at taken
        · cases taken
        · rename_i buffer stored
          have left : s.rest cfg = buffer := by simp [Session.rest, open_, scenarios, stored]
          rw [left] at inOrder
          split_ifs at taken <;> cases taken
          · exact ⟨left.symm ▸ inOrder, bound⟩
          · refine ⟨?_, bound⟩
            have later : Session.rest cfg { s.push (buffer.take chunk) with
                requestMap := s.requestMap.insert s.streamReqCounter (buffer.drop chunk) } = buffer.drop chunk := by
              simp [Session.rest, Session.push, open_, scenarios]
            rw [later]
            exact Session.InOrder.push (s := s) (by rwa [List.take_append_drop])
          · exact sound_bodySent (Session.InOrder.push (by simpa using inOrder)) bound
      · rename_i plain
        have left : s.rest cfg = cfg.payloadData.drop offset.toNat := by simp [Session.rest, open_, plain]
        rw [left] at inOrder
        split_ifs at taken with inside negative
        · -- The rest of the file is what is sent now and what is behind it.
          generalize shape : (cfg.payloadData.drop offset.toNat).take chunk = sent at taken
          have behind : (offset + sent.length).toNat = offset.toNat + sent.length := by omega
          have split : sent ++ cfg.payloadData.drop (offset.toNat + sent.length) = cfg.payloadData.drop offset.toNat := by
            rw [← List.drop_drop]
            exact List.prefix_iff_eq_append.mp (shape ▸ List.take_prefix ..)
          rw [← split] at inOrder
          dsimp only at taken
          split at taken
          · rename_i all
            cases taken
            rw [List.drop_of_length_le (by omega)] at inOrder
            exact sound_bodySent inOrder.push (bound_insert bound _)
          · cases taken
            refine ⟨?_, bound_insert bound _⟩
            have later : Session.rest cfg { s.push sent with
                streams := s.streams.insert s.streamReqCounter (offset + sent.length) } =
                cfg.payloadData.drop (offset.toNat + sent.length) := by
              simp [Session.rest, Session.push, plain, behind]
            rw [later]
            exact inOrder.push
        · cases taken
          exact ⟨left.symm ▸ inOrder, bound⟩

theorem sound_submitRequest {head payload : Bytes} {offset : Int} (sound : Sound cfg s)
    (calm : Undisturbed cfg s (.submitRequest head payload offset))
    (taken : s.submitRequest cfg head payload offset = .ok t) : Sound cfg t := by
  obtain ⟨unopened, vacant⟩ := calm
  obtain ⟨⟨whole, -⟩, bound⟩ := sound
  rw [rest_of_notMem unopened, List.append_nil] at whole
  have left : (s.opened cfg head payload offset).rest cfg = Session.body cfg payload := by
    split_ifs at vacant with scenarios
    · simp [Session.rest, Session.opened, Session.push, Session.body, scenarios, FiniteMap.lookup_emplace,
        AList.lookup_eq_none.mpr vacant]
    · simp [Session.rest, Session.opened, Session.push, Session.body, scenarios, vacant]
  have inOrder : (s.opened cfg head payload offset).InOrder (Session.body cfg payload) := by
    refine ⟨?_, ?_⟩
    · simp [Session.opened, Session.push, whole]
    · simp [Session.opened, Session.push]
  have opened : Sound cfg (s.opened cfg head payload offset) := ⟨left.symm ▸ inOrder, bound_insert bound _⟩
  unfold Session.submitRequest at taken
  dsimp only at taken
  split at taken
  · rename_i none
    cases taken
    exact sound_next (none ▸ inOrder) (bound_insert bound _)
  · exact sound_onWrite opened taken

/-! ## Runs -/

/-- In order, and while the connection lasts with the rest of the current body known. -/
def Kept (cfg : Config) (s : Session) : Prop := (∃ left, s.InOrder left) ∧ (s.stopped = false → Sound cfg s)

theorem kept_step (s : Session) (event : Event) (t : Session) (calm : Undisturbed cfg s event) (kept : Kept cfg s)
    (taken : step cfg s event = .ok t) : Kept cfg t := by
  unfold step at taken
  split at taken
  · cases taken
  · rename_i alive
    have sound := kept.2 (by simpa using alive)
    suffices Sound cfg t ∨ (∃ left, t.InOrder left) ∧ t.stopped = true by
      rcases this with sound | ⟨inOrder, stopped⟩
      · exact ⟨⟨_, sound.inOrder⟩, fun _ => sound⟩
      · exact ⟨inOrder, fun alive => absurd stopped (by simp [alive])⟩
    cases event with
    | submitRequest => exact .inl (sound_submitRequest sound calm taken)
    | onWrite => exact .inl (sound_onWrite sound taken)
    | messageComplete =>
      left
      simp only [Session.msgComplete] at taken
      split at taken
      · cases taken
      · rename_i offset answered
        split_ifs at taken with closes <;> cases taken
        · refine sound_onStreamClose sound fun early => ?_
          exact absurd (calm early offset answered) (not_lt.mpr closes)
        · exact sound
    | messageCompleted keepAlive =>
      cases taken
      cases keepAlive with
      | true => exact .inl ⟨sound.inOrder, sound.bound⟩
      | false => exact .inr ⟨⟨_, sound.inOrder⟩, rfl⟩
    | terminate =>
      cases taken
      exact .inl ⟨sound.inOrder, sound.bound⟩

/-- **Whole requests in the order they were submitted** are in the output buffer after every run that is not
disturbed, in both modes: each header block is followed by its own body. -/
theorem output_inOrder (cfg : Config) (requestMap : FiniteMap Nat Bytes) (events : List Event) (s : Session)
    (ran : run (step cfg) { requestMap } events = .ok s)
    (undisturbed : Along (step cfg) (Undisturbed cfg) { requestMap } events) : ∃ left, s.InOrder left := by
  have initial : Kept cfg { requestMap } := by
    have sound : Sound cfg { requestMap } := ⟨⟨rfl, nofun⟩, fun id member => absurd member (AList.notMem_empty id)⟩
    exact ⟨⟨_, sound.inOrder⟩, fun _ => sound⟩
  exact (run_invariant kept_step undisturbed ran initial).1

instance (cfg : Config) (s : Session) (event : Event) : Decidable (Undisturbed cfg s event) := by
  unfold Undisturbed
  cases event <;> infer_instance

/-- Two requests with the file as their body, the second after the response to the first. -/
def twoUploads : List Event :=
  [.submitRequest [1] [] 0, .messageComplete, .messageCompleted true, .submitRequest [2] [] 0]

/-- **Satisfiable pole:** each has its body. -/
theorem twoUploads_inOrder :
    ∃ s, run (step ⟨false, [7, 8]⟩) { requestMap := ∅ } twoUploads = .ok s ∧ s.output = [1, 7, 8, 2, 7, 8] ∧
      ∃ left, s.InOrder left := by
  obtain ⟨s, ran, output⟩ := exists_run (step ⟨false, [7, 8]⟩) { requestMap := ∅ } twoUploads
    (fun s => s.output = [1, 7, 8, 2, 7, 8]) (by decide +kernel)
  exact ⟨s, ran, output, output_inOrder ⟨false, [7, 8]⟩ ∅ twoUploads s ran (by decide +kernel)⟩

/-- **Refuting pole:** the offset of a new stream is not set; where it happens to be one, the first byte
of the file is not sent. -/
theorem strayOffset_not_inOrder :
    ¬ ∀ (cfg : Config) (requestMap : FiniteMap Nat Bytes) (events : List Event) (s : Session),
      run (step cfg) { requestMap } events = .ok s → ∃ left, s.InOrder left := by
  intro always
  obtain ⟨s, ran, output, submitted⟩ := exists_run (step ⟨false, [7, 8]⟩) { requestMap := ∅ }
    [.submitRequest [1] [] 1] (fun s => s.output = [1, 8] ∧ s.submitted = [([1], [7, 8])]) (by decide +kernel)
  obtain ⟨left, whole, -⟩ := always _ _ _ s ran
  simp [output, submitted] at whole

end H2LoadRunner.Load.Http1Upload
