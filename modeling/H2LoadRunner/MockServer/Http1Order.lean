/-
# MockServer.Http1Order -- pipelined requests are answered in the order they came

Responses may be started in any order; `on_write` holds one back until it is the turn of its
request.

An `Outline` is what of a handler decides the order: `step_moves` says once what an event
can do to it.  From that:

* `written_in_order`: on a connection that stays below `2 ^ 31` requests responses are
  written in strictly increasing order of their requests, each after every earlier
  request was answered or closed.  At `2 ^ 31` the identifiers turn negative in the map
  of streams only, and a later request overtakes an earlier one (`later_overtakes`).
* `ready_are_open`: while no stream is closed after its response was started, every
  identifier to respond to names an open stream and `on_write` finds each stream it looks
  up.  Closing such a stream leaves its identifier behind (`closed_after_start`).
-/
import H2LoadRunner.MockServer.Http1Handler

namespace H2LoadRunner.MockServer.Http1

open Library

set_option autoImplicit false

variable {e : Event} {h later : Handler} {streamId : Int} {ids : List Nat} {n number : Nat}

/-! ## What the history has to satisfy -/

def Settled (history : List Happening) (number : Nat) : Prop :=
  (∃ response, .written number response ∈ history) ∨ .closed number ∈ history

/-- Responses come in strictly increasing order of their requests, each after every
earlier request was answered or closed. -/
def InOrder (history : List Happening) : Prop :=
  ∀ before number response after, history = before ++ .written number response :: after →
    (∀ other answer, .written other answer ∈ before → other < number) ∧
      ∀ other, 0 < other → other < number → Settled before other

variable {history : List Happening}

theorem Settled.append (settled : Settled history number) (later : List Happening) :
    Settled (history ++ later) number := by
  rcases settled with ⟨response, written⟩ | closed
  · exact .inl ⟨response, List.mem_append_left _ written⟩
  · exact .inr (List.mem_append_left _ closed)

theorem eq_append_singleton {α : Type} {history before after : List α} {x y : α}
    (split : history ++ [x] = before ++ y :: after) : (after = [] ∧ history = before ∧ x = y) ∨
      ∃ rest, after = rest ++ [x] ∧ history = before ++ y :: rest := by
  rcases List.eq_nil_or_concat after with rfl | ⟨rest, last, rfl⟩
  · obtain ⟨same, last⟩ := List.append_inj' split rfl
    exact .inl ⟨rfl, same, List.singleton_inj.mp last⟩
  · have regroup : history ++ [x] = (before ++ y :: rest) ++ [last] := by simpa using split
    obtain ⟨same, final⟩ := List.append_inj' regroup rfl
    cases List.singleton_inj.mp final
    exact .inr ⟨rest, by simp, same⟩

theorem inOrder_closed (inOrder : InOrder history) (number : Nat) : InOrder (history ++ [.closed number]) := by
  intro before other response after split
  rcases eq_append_singleton split with ⟨-, -, same⟩ | ⟨rest, -, earlier⟩
  · cases same
  · exact inOrder before other response rest earlier

theorem inOrder_written (inOrder : InOrder history) {response : Response}
    (greatest : ∀ other answer, .written other answer ∈ history → other < number)
    (settled : ∀ other, 0 < other → other < number → Settled history other) :
    InOrder (history ++ [.written number response]) := by
  intro before other answer after split
  rcases eq_append_singleton split with ⟨-, rfl, same⟩ | ⟨rest, -, earlier⟩
  · cases same
    exact ⟨greatest, settled⟩
  · exact inOrder before other answer rest earlier

/-! ## Outlines -/

/-- What of a handler decides the order: open streams as identifiers with the numbers of
their requests. -/
structure Outline where
  requestCount : Nat
  opened : List (Int × Nat)
  ready : List Nat
  begun : Nat
  history : List Happening

def Stream.entry (strm : Stream) : Int × Nat := (strm.streamId, strm.number)

def entryBelow (a b : Int × Nat) : Bool := decide (a.1 < b.1)

def Handler.outline (h : Handler) : Outline where
  requestCount := h.requestCount
  opened := h.streams.map Stream.entry
  ready := h.streamIdsToRespond
  begun := h.begun
  history := h.history

namespace Outline

def begins (o : Outline) : Outline :=
  let count := incUInt32 o.requestCount
  { o with
    requestCount := count
    opened := OrderedSet.insert entryBelow (int32 count, o.begun + 1) o.opened
    begun := o.begun + 1 }

def starts (o : Outline) (streamId : Int) : Outline :=
  { o with ready := OrderedSet.insert Handler.idBelow (uint32 streamId) o.ready }

def ends (o : Outline) (streamId : Int) (happening : Happening) : Outline :=
  { o with
    opened := o.opened.filter fun entry => entry.1 != streamId
    history := o.history ++ [happening] }

/-- The streams of the identifiers are found and answered one after another. -/
inductive Writes : Outline → List Nat → Outline → Prop
  | nil (o : Outline) : Writes o [] o
  | cons {o later : Outline} {id number : Nat} {rest : List Nat} (response : Response)
      (found : (int32 id, number) ∈ o.opened)
      (others : Writes (o.ends (int32 id) (.written number response)) rest later) :
      Writes o (id :: rest) later

end Outline

def Event.closes : Event → Option Int
  | .closeStream streamId => some streamId
  | .sendResponse streamId 0 _ _ _ => some streamId
  | _ => none

inductive Moves (o : Outline) : Event → Outline → Prop
  | same (e : Event) : Moves o e o
  | begins : Moves o (.callback .messageBegin) o.begins
  | starts {e : Event} {streamId : Int} {number : Nat} (isOpen : (streamId, number) ∈ o.opened) :
      Moves o e (o.starts streamId)
  | closes {e : Event} {streamId : Int} {number : Nat} (closing : e.closes = some streamId)
      (isOpen : (streamId, number) ∈ o.opened) : Moves o e (o.ends streamId (.closed number))
  | writes {id : Nat} {rest : List Nat} {first : Int × Nat} {others : List (Int × Nat)}
      {later : Outline} (ready : o.ready = id :: rest) (opened : o.opened = first :: others)
      (next : id = uint32 first.1)
      (written : Outline.Writes { o with ready := (Handler.takeConsecutive id rest).2 }
        (id :: (Handler.takeConsecutive id rest).1) later) :
      Moves o .onWrite later

/-! ## The handler moves its outline -/

namespace Handler

theorem find_mem {strm : Stream} (found : h.findStream streamId = some strm) :
    strm.streamId = streamId ∧ strm.entry ∈ h.outline.opened := by
  have same : strm.streamId = streamId := by simpa using List.find?_some found
  exact ⟨same, List.mem_map_of_mem (List.mem_of_find?_eq_some found)⟩

theorem outline_modifyStream (h : Handler) (streamId : Int) {change : Stream → Stream}
    (kept : ∀ strm, (change strm).entry = strm.entry) :
    (h.modifyStream streamId change).outline = h.outline := by
  have entries : (h.modifyStream streamId change).streams.map Stream.entry =
      h.streams.map Stream.entry := by
    rw [modifyStream, List.map_map]
    refine List.map_congr_left fun strm _ => ?_
    simp only [Function.comp_apply]
    split
    · exact kept strm
    · rfl
  unfold outline
  rw [entries]
  rfl

theorem outline_modifyRequest (h : Handler) (streamId : Int) (change : Request → Request) :
    (h.modifyRequest streamId change).outline = h.outline :=
  h.outline_modifyStream streamId fun _ => rfl

theorem outline_modifyResponse (h : Handler) (streamId : Int) (change : Response → Response) :
    (h.modifyResponse streamId change).outline = h.outline :=
  h.outline_modifyStream streamId fun _ => rfl

theorem outline_begins (taken : h.http1MsgBegincb = .ok later) : later.outline = h.outline.begins := by
  simp only [http1MsgBegincb, createStream] at taken
  split at taken
  · cases taken
  · cases taken
    simp only [outline, Outline.begins, OrderedSet.map_insert streamBelow entryBelow Stream.entry
      (fun _ _ => rfl), Stream.entry]

theorem outline_callback {cfg : Config} {cb : Callback} (taken : h.callback cfg cb = .ok later) :
    Moves h.outline (.callback cb) later.outline := by
  cases cb with
  | messageBegin => exact outline_begins taken ▸ .begins
  | url method fragment =>
    cases taken
    unfold http1OnUrlCb
    split
    · exact .same _
    · have unmoved := h.outline_modifyRequest h.current fun request =>
        { request with method := method, uri := request.uri.read (cfg.parseUrl fragment) }
      exact unmoved ▸ .same _
  | headerField fragment =>
    cases taken
    exact .same _
  | headerValue fragment =>
    cases taken
    exact (h.outline_modifyRequest h.current _) ▸ .same _
  | headersComplete =>
    cases taken
    exact .same _
  | body fragment =>
    cases taken
    exact (h.outline_modifyRequest h.current _) ▸ .same _
  | messageComplete keepAlive =>
    cases taken
    exact ({ h with shouldKeepAlive := keepAlive }.outline_modifyRequest h.current _) ▸ .same _

theorem outline_writeHead (h : Handler) {strm : Stream} (statusCode : Nat) (header : HeaderMap) :
    (h.writeHead strm statusCode header).outline = h.outline ∨
      (h.writeHead strm statusCode header).outline = h.outline.starts strm.streamId := by
  unfold writeHead
  split
  · exact .inl rfl
  · have unmoved := h.outline_modifyResponse strm.streamId
      (Response.head strm.request.method statusCode header)
    refine .inr ?_
    rw [← unmoved]
    rfl

theorem outline_respond (h : Handler) (e : Event) (streamId : Int) (statusCode : Nat)
    (header : HeaderMap) (payload : Text) :
    Moves h.outline e (h.respond streamId statusCode header payload).outline := by
  unfold respond
  split
  · exact .same _
  · rename_i strm found
    obtain ⟨same, isOpen⟩ := find_mem found
    rw [outline_modifyResponse]
    rcases h.outline_writeHead statusCode header with unmoved | started
    · exact unmoved ▸ .same _
    · exact started ▸ .starts isOpen

theorem outline_eraseStream (h : Handler) (streamId : Int) (happening : Happening) :
    Handler.outline { h.eraseStream streamId with history := h.history ++ [happening] } =
      h.outline.ends streamId happening := by
  unfold outline Outline.ends eraseStream
  rw [List.filter_map]
  rfl

theorem outline_closeStream (h : Handler) (closing : e.closes = some streamId) :
    Moves h.outline e (h.closeStream streamId).outline := by
  unfold closeStream
  split
  · exact .same _
  · rename_i strm found
    obtain ⟨same, isOpen⟩ := find_mem found
    rw [outline_eraseStream, ← same]
    exact .closes (same ▸ closing) isOpen

theorem outline_sendResponse (h : Handler) (streamId : Int) (statusCode : Nat)
    (headers : List (Text × Text)) (payload : Text) (trailers : List (Text × Text)) :
    Moves h.outline (.sendResponse streamId statusCode headers payload trailers)
      (h.sendResponse streamId statusCode headers payload trailers).outline := by
  unfold sendResponse
  split
  · rename_i none
    exact h.outline_closeStream (by simp [none, Event.closes])
  · rw [outline_modifyResponse]
    exact h.outline_respond _ streamId statusCode _ payload

theorem writes_of_writeResponses (taken : h.writeResponses ids = .ok later) :
    Outline.Writes h.outline ids later.outline := by
  induction ids generalizing h with
  | nil =>
    cases taken
    exact .nil _
  | cons id rest ih =>
    simp only [writeResponses] at taken
    split at taken
    · cases taken
    · rename_i strm found
      obtain ⟨same, isOpen⟩ := find_mem found
      rw [Stream.entry, same] at isOpen
      refine .cons strm.response isOpen ?_
      rw [← outline_eraseStream]
      exact ih taken

theorem getConsecutive_cases (h : Handler) : h.getConsecutiveStreamIdsToRespond = ([], h) ∨
      ∃ id rest first others, h.streamIdsToRespond = id :: rest ∧ h.streams = first :: others ∧
        id = uint32 first.streamId ∧ h.getConsecutiveStreamIdsToRespond = (id :: (takeConsecutive id rest).1,
              { h with streamIdsToRespond := (takeConsecutive id rest).2 }) := by
  unfold getConsecutiveStreamIdsToRespond
  split
  · rename_i id rest first others ready opened
    split
    · rename_i next
      exact .inr ⟨id, rest, first, others, ready, opened, next, rfl⟩
    · exact .inl rfl
  · exact .inl rfl

theorem outline_onWrite (taken : h.onWrite = .ok later) : Moves h.outline .onWrite later.outline := by
  unfold onWrite at taken
  rcases h.getConsecutive_cases with same | ⟨id, rest, first, others, ready, opened, next, same⟩
  · rw [same] at taken
    cases taken
    exact .same _
  · rw [same] at taken
    have entries : h.outline.opened = first.entry :: others.map Stream.entry := by
      rw [outline, opened]
      rfl
    exact .writes ready entries next (writes_of_writeResponses taken)

theorem step_moves {cfg : Config} (taken : h.step cfg e = .ok later) : Moves h.outline e later.outline := by
  cases e with
  | callback cb => exact outline_callback taken
  | respond streamId statusCode header payload =>
    cases taken
    exact h.outline_respond _ streamId statusCode header payload
  | sendResponse streamId statusCode headers payload trailers =>
    cases taken
    exact h.outline_sendResponse streamId statusCode headers payload trailers
  | closeStream streamId =>
    cases taken
    exact h.outline_closeStream rfl
  | onWrite => exact outline_onWrite taken

end Handler

theorem takeConsecutive_append (last : Nat) (ids : List Nat) :
    (Handler.takeConsecutive last ids).1 ++ (Handler.takeConsecutive last ids).2 = ids := by
  induction ids generalizing last with
  | nil => rfl
  | cons id rest ih =>
    simp only [Handler.takeConsecutive]
    split
    · simpa using ih id
    · rfl

theorem takeConsecutive_chain {last : Nat} (first : last < 2 ^ 31) (small : ∀ id ∈ ids, id < 2 ^ 31) :
    (last :: (Handler.takeConsecutive last ids).1).IsChain (fun a b => b = a + 1) := by
  induction ids generalizing last with
  | nil => simp [Handler.takeConsecutive]
  | cons id rest ih =>
    have here : id < 2 ^ 31 := small id (by simp)
    simp only [Handler.takeConsecutive]
    split
    · rename_i successor
      rw [subUInt32_eq_one (by omega) first] at successor
      refine List.isChain_cons_cons.mpr ⟨successor, ?_⟩
      exact ih here fun other member => small other (by simp [member])
    · simp

/-! ## Answering in turn -/

/-- Below `2 ^ 31` requests an identifier is the number of its request in both
containers, and the open requests are those after the last answer that were not closed. -/
structure Outline.InTurn (o : Outline) : Prop where
  counted : o.requestCount = o.begun
  few : o.begun < 2 ^ 31
  increasing : o.opened.Pairwise fun a b => a.2 < b.2
  named : ∀ entry ∈ o.opened, entry.1 = entry.2 ∧ 0 < entry.2 ∧ entry.2 ≤ o.begun
  ready : ∀ id ∈ o.ready, id < 2 ^ 31
  accounted : ∀ number, 0 < number → number ≤ o.begun →
    (∃ entry ∈ o.opened, entry.2 = number) ∨ Settled o.history number
  earlier : ∀ number response, .written number response ∈ o.history →
    number ≤ o.begun ∧ ∀ entry ∈ o.opened, number < entry.2
  inOrder : InOrder o.history

namespace Outline.InTurn

variable {o : Outline}

theorem begins (inTurn : o.InTurn) (few : o.requestCount < 2 ^ 31 - 1) : o.begins.InTurn := by
  have count : incUInt32 o.requestCount = o.begun + 1 := by
    have counted := inTurn.counted
    unfold incUInt32
    omega
  have small : o.begun + 1 < 2 ^ 31 := by
    have counted := inTurn.counted
    omega
  have byKey : OrderedSet.ByKey entryBelow (Prod.fst : Int × Nat → Int) := fun _ _ => by
    simp [entryBelow]
  have greatest : ∀ entry ∈ o.opened, entry.1 < ((o.begun + 1 : Nat) : Int) := by
    intro entry member
    have named := inTurn.named entry member
    omega
  have last : o.begins.opened = o.opened ++ [(((o.begun + 1 : Nat) : Int), o.begun + 1)] := by
    simp only [Outline.begins, count, int32_of_lt small]
    exact OrderedSet.insert_greatest byKey _ greatest
  refine { inTurn with counted := count, few := small, increasing := ?_, named := ?_, accounted := ?_, earlier := ?_ }
  · rw [last, List.pairwise_append]
    refine ⟨inTurn.increasing, by simp, fun entry member other same => ?_⟩
    have named := inTurn.named entry member
    rw [List.mem_singleton] at same
    rw [same]
    exact Nat.lt_succ_of_le named.2.2
  · intro entry member
    rw [last, List.mem_append, List.mem_singleton] at member
    rcases member with old | rfl
    · obtain ⟨same, positive, bounded⟩ := inTurn.named entry old
      exact ⟨same, positive, Nat.le_succ_of_le bounded⟩
    · exact ⟨rfl, Nat.succ_pos _, Nat.le_refl _⟩
  · intro number positive bounded
    rw [last]
    by_cases new : number = o.begun + 1
    · exact .inl ⟨_, List.mem_append_right _ (List.mem_singleton.mpr rfl), new.symm⟩
    · have old : number ≤ o.begun := Nat.le_of_lt_succ (Nat.lt_of_le_of_ne bounded new)
      rcases inTurn.accounted number positive old with ⟨entry, member, same⟩ | settled
      · exact .inl ⟨entry, List.mem_append_left _ member, same⟩
      · exact .inr settled
  · intro number response written
    obtain ⟨bounded, before⟩ := inTurn.earlier number response written
    refine ⟨Nat.le_succ_of_le bounded, fun entry member => ?_⟩
    rw [last, List.mem_append, List.mem_singleton] at member
    rcases member with old | rfl
    · exact before entry old
    · exact Nat.lt_succ_of_le bounded

theorem starts (inTurn : o.InTurn) (isOpen : (streamId, number) ∈ o.opened) :
    (o.starts streamId).InTurn :=
  { inTurn with
    ready := by
      intro id member
      rcases OrderedSet.mem_insert member with rfl | old
      · obtain ⟨same, -, bounded⟩ := inTurn.named _ isOpen
        have few := inTurn.few
        simp only at same bounded
        rw [same, uint32_natCast (by omega)]
        omega
      · exact inTurn.ready id old }

/-- A request that leaves the open streams is accounted for by what happened to it. -/
theorem ends (inTurn : o.InTurn) (isOpen : (streamId, number) ∈ o.opened) {happening : Happening}
    (settled : Settled [happening] number) (earlier : ∀ response, happening = .written number response →
      ∀ entry ∈ o.opened, number ≤ entry.2)
    (only : ∀ other response, happening = .written other response → other = number)
    (inOrder : InOrder (o.history ++ [happening])) : (o.ends streamId happening).InTurn := by
  obtain ⟨same, positive, bounded⟩ := inTurn.named _ isOpen
  have remains : ∀ entry ∈ (o.ends streamId happening).opened,
      entry ∈ o.opened ∧ entry.2 ≠ number := by
    intro entry member
    obtain ⟨old, kept⟩ := List.mem_filter.mp member
    obtain ⟨name, -, -⟩ := inTurn.named entry old
    refine ⟨old, fun equal => ?_⟩
    have other : entry.1 ≠ streamId := by simpa using kept
    exact other (by rw [name, equal, ← same])
  refine
    { inTurn with
      increasing := inTurn.increasing.filter _
      named := fun entry member => inTurn.named entry (remains entry member).1
      accounted := ?_
      earlier := ?_
      inOrder := inOrder }
  · intro other above below
    rcases inTurn.accounted other above below with ⟨entry, member, equal⟩ | before
    · by_cases closing : entry.1 = streamId
      · have named := (inTurn.named entry member).1
        have this : other = number := by
          simp only at same
          omega
        rcases settled with ⟨response, written⟩ | closed
        · exact .inr (.inl ⟨response, List.mem_append_right _ (this ▸ written)⟩)
        · exact .inr (.inr (List.mem_append_right _ (this ▸ closed)))
      · exact .inl ⟨entry, List.mem_filter.mpr ⟨member, by simpa using closing⟩, equal⟩
    · exact .inr (before.append _)
  · intro other response written
    rcases List.mem_append.mp written with old | new
    · obtain ⟨below, before⟩ := inTurn.earlier other response old
      exact ⟨below, fun entry member => before entry (remains entry member).1⟩
    · have this := List.mem_singleton.mp new
      obtain rfl := only other response this.symm
      refine ⟨bounded, fun entry member => ?_⟩
      have least := earlier response this.symm entry (remains entry member).1
      have distinct := (remains entry member).2
      omega

theorem closes (inTurn : o.InTurn) (isOpen : (streamId, number) ∈ o.opened) :
    (o.ends streamId (.closed number)).InTurn :=
  inTurn.ends isOpen (.inr (by simp)) nofun nofun (inOrder_closed inTurn.inOrder number)

theorem write (inTurn : o.InTurn) {id : Nat} (small : id < 2 ^ 31)
    (least : ∀ entry ∈ o.opened, id ≤ entry.2) (found : (int32 id, number) ∈ o.opened)
    (response : Response) : (o.ends (int32 id) (.written number response)).InTurn ∧
      ∀ entry ∈ (o.ends (int32 id) (.written number response)).opened, id + 1 ≤ entry.2 := by
  obtain ⟨same, positive, bounded⟩ := inTurn.named _ found
  rw [int32_of_lt small] at same
  have this : number = id := by
    simp only at same
    omega
  subst this
  have settled : ∀ other, 0 < other → other < number → Settled o.history other := by
    intro other above below
    rcases inTurn.accounted other above (by omega) with ⟨entry, member, equal⟩ | settled
    · have := least entry member
      omega
    · exact settled
  have after : (o.ends (int32 number) (.written number response)).InTurn := by
    refine inTurn.ends found (.inl ⟨response, by simp⟩) (fun _ _ => least) ?_
      (inOrder_written inTurn.inOrder ?_ settled)
    · intro other answer equal
      cases equal
      rfl
    · intro other answer written
      exact (inTurn.earlier other answer written).2 _ found
  refine ⟨after, fun entry member => ?_⟩
  exact (after.earlier number response (List.mem_append_right _ (by simp))).2 entry member

theorem writes {later : Outline} (written : Outline.Writes o ids later) (inTurn : o.InTurn)
    (chain : ids.IsChain fun a b => b = a + 1) (small : ∀ id ∈ ids, id < 2 ^ 31)
    (least : ∀ id, ids.head? = some id → ∀ entry ∈ o.opened, id ≤ entry.2) : later.InTurn := by
  induction written with
  | nil o => exact inTurn
  | @cons o later id number rest response found others ih =>
    obtain ⟨next, above⟩ := inTurn.write (small id (by simp)) (least id rfl) found response
    refine ih next chain.tail (fun other member => small other (by simp [member])) ?_
    intro other first entry member
    obtain ⟨tail, rfl⟩ := List.head?_eq_some_iff.mp first
    have successor := (List.isChain_cons_cons.mp chain).1
    exact successor ▸ above entry member

theorem moves {later : Outline} (moved : Moves o e later) (inTurn : o.InTurn)
    (few : e = .callback .messageBegin → o.requestCount < 2 ^ 31 - 1) : later.InTurn := by
  cases moved with
  | same => exact inTurn
  | begins => exact inTurn.begins (few rfl)
  | starts isOpen => exact inTurn.starts isOpen
  | closes closing isOpen => exact inTurn.closes isOpen
  | @writes id rest first others _ ready opened next written =>
    have small : ∀ other ∈ id :: rest, other < 2 ^ 31 := fun other member =>
      inTurn.ready other (ready ▸ member)
    have parts := takeConsecutive_append id rest
    have front : ∀ other ∈ (Handler.takeConsecutive id rest).1, other < 2 ^ 31 := fun other member =>
      small other (List.mem_cons_of_mem _ (parts ▸ List.mem_append_left _ member))
    have back : ∀ other ∈ (Handler.takeConsecutive id rest).2, other < 2 ^ 31 := fun other member =>
      small other (List.mem_cons_of_mem _ (parts ▸ List.mem_append_right _ member))
    have taken : Outline.InTurn { o with ready := (Handler.takeConsecutive id rest).2 } :=
      { inTurn with ready := back }
    refine taken.writes written (takeConsecutive_chain (small id (by simp)) fun other member =>
      small other (List.mem_cons_of_mem _ member)) ?_ ?_
    · intro other member
      rcases List.mem_cons.mp member with rfl | following
      · exact small other (by simp)
      · exact front other following
    · intro other head entry member
      cases head
      -- The first open stream has the least number, and its identifier is the one taken.
      have member : entry ∈ first :: others := opened ▸ member
      obtain ⟨named, -, bounded⟩ := inTurn.named first (by rw [opened]; simp)
      have few := inTurn.few
      have equal : id = first.2 := by rw [next, named, uint32_natCast (by omega)]
      have increasing := opened ▸ inTurn.increasing
      rcases List.mem_cons.mp member with rfl | later
      · omega
      · have := (List.pairwise_cons.mp increasing).1 entry later
        omega

end Outline.InTurn

/-- The next request still has a positive identifier. -/
def FewRequests (h : Handler) (e : Event) : Prop :=
  e = .callback .messageBegin → h.requestCount < 2 ^ 31 - 1

instance (h : Handler) (e : Event) : Decidable (FewRequests h e) :=
  inferInstanceAs (Decidable (_ → _))

theorem inTurn_initial : Outline.InTurn (Handler.outline {}) where
  counted := rfl
  few := by decide
  increasing := List.Pairwise.nil
  named := nofun
  ready := nofun
  accounted := fun number positive bounded => by
    have none : number ≤ 0 := bounded
    omega
  earlier := nofun
  inOrder := fun before number response after split => by
    have none : [] = before ++ Happening.written number response :: after := split
    simp at none

/-- **Pipelined requests are answered in order.** -/
theorem written_in_order (cfg : Config) (events : List Event) (h : Handler)
    (ends : Handler.run cfg {} events = .ok h)
    (few : Transition.Along (Handler.step cfg) FewRequests {} events) : InOrder h.history := by
  have inTurn : h.outline.InTurn :=
    Transition.run_invariant (I := fun h => h.outline.InTurn)
      (fun h e later few inTurn taken => inTurn.moves (Handler.step_moves taken) few) few ends
      inTurn_initial
  exact inTurn.inOrder

def answeredInReverse : List Event :=
  [.callback .messageBegin, .callback .messageBegin, .respond 2 200 [] [], .onWrite,
    .respond 1 200 [] [], .onWrite]

/-- **Satisfiable pole.**  The second answer waits for the first. -/
theorem answeredInReverse_in_order :
    ∃ h, Handler.run ⟨fun _ => {}, false⟩ {} answeredInReverse = .ok h ∧ h.history.length = 2 ∧
      InOrder h.history := by
  obtain ⟨h, ends, both⟩ := Transition.exists_run (Handler.step ⟨fun _ => {}, false⟩) {}
    answeredInReverse (fun h => h.history.length = 2) (by decide +kernel)
  exact ⟨h, ends, both, written_in_order _ _ h ends (by decide +kernel)⟩

/-! ### Where the identifiers turn negative -/

def closedRequests (n : Nat) : List Event :=
  (List.range n).flatMap fun i => [.callback .messageBegin, .closeStream (i + 1 : Nat)]

def closedHandler (n : Nat) : Handler where
  requestCount := n
  begun := n
  history := (List.range n).map fun i => .closed (i + 1)

theorem incUInt32_of_lt (small : n + 1 < 2 ^ 32) : incUInt32 n = n + 1 :=
  Nat.mod_eq_of_lt small

theorem closedHandler_begin (cfg : Config) (small : n + 1 < 2 ^ 31) :
    Handler.step cfg (closedHandler n) (.callback .messageBegin) =
      .ok { closedHandler n with
        requestCount := n + 1
        begun := n + 1
        streams := [{ streamId := (n + 1 : Nat), number := n + 1 }] } := by
  have count : incUInt32 n = n + 1 := incUInt32_of_lt (by omega)
  simp only [Handler.step, Handler.callback, Handler.http1MsgBegincb, Handler.createStream,
    Handler.findStream, closedHandler, count, int32_of_lt small, List.find?_nil,
    Option.isSome_none, Bool.false_eq_true, if_false, OrderedSet.insert]

theorem closedRequests_succ (n : Nat) :
    closedRequests (n + 1) = closedRequests n ++ [.callback .messageBegin, .closeStream (n + 1 : Nat)] := by
  simp [closedRequests, List.range_succ]

theorem run_closedRequests (cfg : Config) (small : n < 2 ^ 31) :
    Handler.run cfg {} (closedRequests n) = .ok (closedHandler n) := by
  induction n with
  | zero => rfl
  | succ n ih =>
    have earlier := ih (Nat.lt_of_succ_lt small)
    rw [closedRequests_succ, Handler.run, Transition.run_append_of_ok earlier,
      Transition.run_cons, closedHandler_begin cfg small]
    simp [Except.bind, Transition.run, Handler.step, Handler.closeStream, Handler.findStream,
      Handler.eraseStream, closedHandler, List.range_succ]

/-- The handler with two more requests, whose second identifier is negative. -/
def pipelinedHandler (n : Nat) (response : Response) : Handler :=
  { closedHandler n with
    requestCount := n + 2
    begun := n + 2
    streams :=
      [{ streamId := -(n + 2 : Nat), number := n + 2, response := response },
        { streamId := (n + 1 : Nat), number := n + 1 }] }

theorem int32_negative (last : n + 2 = 2 ^ 31) : int32 (n + 2) = -(n + 2 : Nat) := by
  unfold int32
  rw [Int.bmod_def]
  omega

theorem uint32_negative (last : n + 2 = 2 ^ 31) : uint32 (-(n + 2 : Nat)) = n + 2 := by
  unfold uint32
  omega

theorem pipelined_begin (cfg : Config) (last : n + 2 = 2 ^ 31) : Handler.step cfg
        { closedHandler n with
          requestCount := n + 1
          begun := n + 1
          streams := [{ streamId := (n + 1 : Nat), number := n + 1 }] }
        (.callback .messageBegin) = .ok (pipelinedHandler n {}) := by
  have count : incUInt32 (n + 1) = n + 2 := incUInt32_of_lt (by omega)
  have below : -((n + 2 : Nat) : Int) < (n + 1 : Nat) := by omega
  simp only [Handler.step, Handler.callback, Handler.http1MsgBegincb, Handler.createStream,
    Handler.findStream, count, int32_negative last, List.find?_cons, List.find?_nil,
    OrderedSet.insert, Handler.streamBelow, below, decide_true]
  rfl

def overtakingAnswer : Response where
  generator := some []
  state := .bodyStarted

theorem pipelined_respond (cfg : Config) (last : n + 2 = 2 ^ 31) :
    Handler.step cfg (pipelinedHandler n {}) (.respond (-(n + 2 : Nat)) 200 [] []) =
      .ok { pipelinedHandler n overtakingAnswer with streamIdsToRespond := [n + 2] } := by
  have other : ¬ ((n + 1 : Nat) : Int) = -(n + 2 : Nat) := by omega
  simp only [Handler.step, Handler.respond, Handler.findStream, pipelinedHandler, List.find?_cons,
    BEq.rfl, Handler.writeHead, ne_eq, not_true_eq_false, Handler.startResponse,
    Handler.modifyResponse, Handler.modifyStream, uint32_negative last, List.map_cons, List.map_nil,
    other, if_true, if_false]
  rfl

theorem onWrite_first {first other : Stream} {id : Nat} (opened : h.streams = [first, other])
    (ready : h.streamIdsToRespond = [id]) (name : uint32 first.streamId = id)
    (back : int32 id = first.streamId) : ∃ later, h.onWrite = .ok later ∧
      later.history = h.history ++ [.written first.number first.response] := by
  refine ⟨{ h with
    streams := [first, other].filter fun strm => strm.streamId != first.streamId
    streamIdsToRespond := []
    history := h.history ++ [.written first.number first.response] }, ?_, rfl⟩
  simp only [Handler.onWrite, Handler.getConsecutiveStreamIdsToRespond, ready, opened, name, if_true,
    Handler.takeConsecutive, Handler.writeResponses, Handler.findStream, back, List.find?_cons,
    BEq.rfl, Handler.eraseStream]

def overtaking (n : Nat) : List Event :=
  closedRequests n ++
    [.callback .messageBegin, .callback .messageBegin, .respond (-(n + 2 : Nat)) 200 [] [], .onWrite]

theorem run_overtaking (cfg : Config) (last : n + 2 = 2 ^ 31) : ∃ h, Handler.run cfg {} (overtaking n) = .ok h ∧
      h.history = (closedHandler n).history ++ [.written (n + 2) overtakingAnswer] := by
  have responded := pipelined_respond cfg last
  obtain ⟨later, written, history⟩ := onWrite_first
    (h := { pipelinedHandler n overtakingAnswer with streamIdsToRespond := [n + 2] }) rfl rfl
    (uint32_negative last) (int32_negative last)
  refine ⟨later, ?_, history⟩
  rw [overtaking, Handler.run, Transition.run_append_of_ok (run_closedRequests cfg (by omega)),
    Transition.run_cons, closedHandler_begin cfg (by omega), Except.bind,
    Transition.run_cons, pipelined_begin cfg last, Except.bind,
    Transition.run_cons, responded, Except.bind,
    Transition.run_cons, Handler.step, written, Except.bind, Transition.run_nil]

theorem overtaking_not_inOrder (n : Nat) :
    ¬ InOrder ((closedHandler n).history ++ [.written (n + 2) overtakingAnswer]) := by
  intro inOrder
  have settled := (inOrder _ _ _ [] rfl).2 (n + 1) (by omega) (by omega)
  rcases settled with ⟨response, written⟩ | closed
  · simp [closedHandler] at written
  · simp [closedHandler] at closed

/-- **Refuting pole.**  After `2 ^ 31` requests a later response is written first. -/
theorem later_overtakes : ¬ ∀ (cfg : Config) (events : List Event) (h : Handler),
      Handler.run cfg {} events = .ok h → InOrder h.history := by
  intro always
  obtain ⟨h, ends, history⟩ := run_overtaking ⟨fun _ => {}, false⟩
    (n := 2 ^ 31 - 2) (by omega)
  exact overtaking_not_inOrder _ (history ▸ always _ _ h ends)

/-! ## Identifiers to respond to name open streams -/

def NotStarted (h : Handler) (e : Event) : Prop :=
  ∀ streamId, e.closes = some streamId → uint32 streamId ∉ h.streamIdsToRespond

instance (h : Handler) (e : Event) : Decidable (NotStarted h e) :=
  match closing : e.closes with
  | none => isTrue fun _ same => by simp [closing] at same
  | some streamId =>
    decidable_of_iff (uint32 streamId ∉ h.streamIdsToRespond)
      ⟨fun free other same => by cases closing.symm.trans same; exact free,
        fun free => free streamId closing⟩

/-- Every identifier to respond to names an open stream. -/
structure Outline.Answerable (o : Outline) : Prop where
  increasing : o.ready.Pairwise (· < ·)
  small : ∀ id ∈ o.ready, id < 2 ^ 32
  named : ∀ entry ∈ o.opened, int32 (uint32 entry.1) = entry.1
  isOpen : ∀ id ∈ o.ready, ∃ number, (int32 id, number) ∈ o.opened

theorem int32_injective {a b : Nat} (left : a < 2 ^ 32) (right : b < 2 ^ 32)
    (same : int32 a = int32 b) : a = b := by
  rw [← uint32_int32 left, same, uint32_int32 right]

namespace Outline

theorem Writes.frame {o later : Outline} (written : Writes o ids later) :
    later.ready = o.ready ∧ (∀ entry ∈ later.opened, entry ∈ o.opened) ∧
      ∀ entry ∈ o.opened, (∀ id ∈ ids, entry.1 ≠ int32 id) → entry ∈ later.opened := by
  induction written with
  | nil o => exact ⟨rfl, fun _ member => member, fun _ member _ => member⟩
  | @cons o later id number rest response found others ih =>
    obtain ⟨ready, old, kept⟩ := ih
    refine ⟨ready, fun entry member => (List.mem_filter.mp (old entry member)).1, ?_⟩
    intro entry member distinct
    refine kept entry (List.mem_filter.mpr ⟨member, ?_⟩) fun other later =>
      distinct other (by simp [later])
    simpa using distinct id (by simp)

namespace Answerable

variable {o : Outline}

theorem begins (answerable : o.Answerable) : o.begins.Answerable :=
  { answerable with
    named := by
      intro entry member
      rcases OrderedSet.mem_insert member with rfl | old
      · have small : incUInt32 o.requestCount < 2 ^ 32 := Nat.mod_lt _ (by decide)
        simp only
        rw [uint32_int32 small]
      · exact answerable.named entry old
    isOpen := by
      intro id member
      obtain ⟨number, old⟩ := answerable.isOpen id member
      exact ⟨number, OrderedSet.mem_insert_of_mem old⟩ }

theorem starts (answerable : o.Answerable) (isOpen : (streamId, number) ∈ o.opened) :
    (o.starts streamId).Answerable := by
  have byKey : OrderedSet.ByKey Handler.idBelow (id : Nat → Nat) := fun _ _ => by
    simp [Handler.idBelow]
  refine { answerable with
    increasing := OrderedSet.sorted_insert byKey _ answerable.increasing
    small := fun id member => ?_
    isOpen := fun id member => ?_ }
  · rcases OrderedSet.mem_insert member with rfl | old
    · exact uint32_lt streamId
    · exact answerable.small id old
  · rcases OrderedSet.mem_insert member with rfl | old
    · exact ⟨number, (answerable.named _ isOpen) ▸ isOpen⟩
    · exact answerable.isOpen id old

theorem closes (answerable : o.Answerable) (isOpen : (streamId, number) ∈ o.opened)
    (free : uint32 streamId ∉ o.ready) : (o.ends streamId (.closed number)).Answerable := by
  refine { answerable with
    named := fun entry member => answerable.named entry (List.mem_filter.mp member).1
    isOpen := fun id member => ?_ }
  obtain ⟨other, old⟩ := answerable.isOpen id member
  refine ⟨other, List.mem_filter.mpr ⟨old, ?_⟩⟩
  have distinct : int32 id ≠ streamId := by
    rintro rfl
    rw [uint32_int32 (answerable.small id member)] at free
    exact free member
  simpa using distinct

theorem writes {later : Outline} (answerable : o.Answerable) {id : Nat} {rest : List Nat}
    (ready : o.ready = id :: rest) (written : Writes { o with ready := (Handler.takeConsecutive id rest).2 }
      (id :: (Handler.takeConsecutive id rest).1) later) : later.Answerable := by
  obtain ⟨unread, old, kept⟩ := written.frame
  have left : later.ready = (Handler.takeConsecutive id rest).2 := unread
  have parts := takeConsecutive_append id rest
  have whole : o.ready =
      (id :: (Handler.takeConsecutive id rest).1) ++ (Handler.takeConsecutive id rest).2 := by
    rw [ready, List.cons_append, parts]
  have increasing := whole ▸ answerable.increasing
  obtain ⟨-, back, apart⟩ := List.pairwise_append.mp increasing
  have inBack : ∀ other ∈ later.ready, other ∈ o.ready := fun other member => by
    rw [whole]
    exact List.mem_append_right _ (left ▸ member)
  refine
    { increasing := left ▸ back
      small := fun other member => answerable.small other (inBack other member)
      named := fun entry member => answerable.named entry (old entry member)
      isOpen := fun other member => ?_ }
  obtain ⟨number, isOpen⟩ := answerable.isOpen other (inBack other member)
  refine ⟨number, kept _ isOpen fun taken front same => ?_⟩
  have before : taken < other := apart taken front other (left ▸ member)
  have inFront : taken ∈ o.ready := by
    rw [whole]
    exact List.mem_append_left _ front
  simp only at same
  exact before.ne' (int32_injective (answerable.small other (inBack other member))
    (answerable.small taken inFront) same)

theorem moves {later : Outline} (moved : Moves o e later) (answerable : o.Answerable)
    (free : ∀ streamId, e.closes = some streamId → uint32 streamId ∉ o.ready) : later.Answerable := by
  cases moved with
  | same => exact answerable
  | begins => exact answerable.begins
  | starts isOpen => exact answerable.starts isOpen
  | closes closing isOpen => exact answerable.closes isOpen (free _ closing)
  | writes ready opened next written => exact answerable.writes ready written

end Answerable

end Outline

namespace Handler

theorem find_of_mem (isOpen : (streamId, number) ∈ h.outline.opened) : (h.findStream streamId).isSome := by
  obtain ⟨strm, member, entry⟩ := List.mem_map.mp isOpen
  have same : strm.streamId = streamId := congrArg Prod.fst entry
  exact List.find?_isSome.mpr ⟨strm, member, by simpa using same⟩

theorem writeResponses_ok (nodup : ids.Nodup) (small : ∀ id ∈ ids, id < 2 ^ 32)
    (isOpen : ∀ id ∈ ids, ∃ number, (int32 id, number) ∈ h.outline.opened) :
    ∃ later, h.writeResponses ids = .ok later := by
  induction ids generalizing h with
  | nil => exact ⟨h, rfl⟩
  | cons id rest ih =>
    obtain ⟨distinct, tail⟩ := List.nodup_cons.mp nodup
    obtain ⟨number, here⟩ := isOpen id (by simp)
    obtain ⟨strm, found⟩ := Option.isSome_iff_exists.mp (find_of_mem here)
    simp only [writeResponses, found]
    refine ih tail (fun other member => small other (by simp [member])) fun other member => ?_
    obtain ⟨name, old⟩ := isOpen other (by simp [member])
    refine ⟨name, ?_⟩
    rw [outline_eraseStream]
    refine List.mem_filter.mpr ⟨old, ?_⟩
    have apart : int32 other ≠ int32 id := by
      intro same
      have equal := int32_injective (small other (by simp [member])) (small id (by simp)) same
      exact distinct (equal ▸ member)
    simpa using apart

theorem onWrite_ok (answerable : h.outline.Answerable) : ∃ later, h.onWrite = .ok later := by
  unfold onWrite
  rcases h.getConsecutive_cases with same | ⟨id, rest, first, others, ready, opened, next, same⟩
  · rw [same]
    exact ⟨h, rfl⟩
  · rw [same]
    have front : (id :: (takeConsecutive id rest).1).Sublist h.outline.ready := by
      have whole : h.outline.ready =
          (id :: (takeConsecutive id rest).1) ++ (takeConsecutive id rest).2 := by
        rw [List.cons_append, takeConsecutive_append]
        exact ready
      rw [whole]
      exact List.sublist_append_left _ _
    have nodup : h.outline.ready.Nodup := answerable.increasing.imp fun below => below.ne
    exact writeResponses_ok (nodup.sublist front)
      (fun other member => answerable.small other (front.subset member))
      fun other member => answerable.isOpen other (front.subset member)

end Handler

theorem answerable_initial : Outline.Answerable (Handler.outline {}) where
  increasing := List.Pairwise.nil
  small := nofun
  named := nofun
  isOpen := nofun

theorem step_ne_nullDereference {cfg : Config} (answerable : h.outline.Answerable) (e : Event) :
    h.step cfg e ≠ .error .nullDereference := by
  cases e with
  | callback cb =>
    cases cb with
    | messageBegin =>
      simp only [Handler.step, Handler.callback, Handler.http1MsgBegincb, Handler.createStream]
      split <;> simp
    | _ => simp [Handler.step, Handler.callback]
  | onWrite =>
    obtain ⟨later, taken⟩ := Handler.onWrite_ok answerable
    simp [Handler.step, taken]
  | _ => simp [Handler.step]

/-- **Identifiers to respond to name open streams.** -/
theorem ready_are_open (cfg : Config) (events : List Event)
    (free : Transition.Along (Handler.step cfg) NotStarted {} events) :
    Handler.run cfg {} events ≠ .error .nullDereference ∧ ∀ h, Handler.run cfg {} events = .ok h →
        ∀ id ∈ h.streamIdsToRespond, (h.findStream (int32 id)).isSome := by
  have kept : ∀ (h : Handler) (e : Event) (later : Handler), NotStarted h e →
      h.outline.Answerable → h.step cfg e = .ok later → later.outline.Answerable :=
    fun h e later free answerable taken => answerable.moves (Handler.step_moves taken) free
  refine ⟨Transition.run_ne_fault kept (fun h e _ answerable => step_ne_nullDereference answerable e)
    free answerable_initial, fun h ends id member => ?_⟩
  have answerable := Transition.run_invariant kept free ends answerable_initial
  obtain ⟨number, isOpen⟩ := answerable.isOpen id member
  exact Handler.find_of_mem isOpen

/-- **Satisfiable pole.**  A stream is closed without a response and another answered. -/
theorem answeredInReverse_ready_are_open :
    Handler.run ⟨fun _ => {}, false⟩ {} (.callback .messageBegin :: .closeStream 1 ::
        answeredInReverse) ≠ .error .nullDereference ∧
      ∀ h, Handler.run ⟨fun _ => {}, false⟩ {} (.callback .messageBegin :: .closeStream 1 ::
          answeredInReverse) = .ok h →
        ∀ id ∈ h.streamIdsToRespond, (h.findStream (int32 id)).isSome :=
  ready_are_open _ _ (by decide +kernel)

/-- **Refuting pole.**  A response with status 0 closes a stream whose response was
started: its identifier stays behind, and where it follows one that is written `on_write`
dereferences the stream it does not find. -/
theorem closed_after_start : (∃ h, Handler.run ⟨fun _ => {}, false⟩ {}
        [.callback .messageBegin, .respond 1 200 [] [], .sendResponse 1 0 [] [] []] = .ok h ∧
      ∃ id ∈ h.streamIdsToRespond, h.findStream (int32 id) = none) ∧
      Handler.run ⟨fun _ => {}, false⟩ {}
        [.callback .messageBegin, .callback .messageBegin, .respond 1 200 [] [],
          .respond 2 200 [] [], .sendResponse 2 0 [] [] [], .onWrite] = .error .nullDereference := by
  refine ⟨Transition.exists_run _ _ _ _ (by decide +kernel), by rfl⟩

end H2LoadRunner.MockServer.Http1
