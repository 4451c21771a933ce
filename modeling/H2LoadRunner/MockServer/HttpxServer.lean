/-
# MockServer.HttpxServer -- which handler a request gets, and which thread a connection

`serve_mux` keeps the handlers of a server by their patterns.  A pattern that ends in a slash also puts a
redirect under the pattern without it.

* `first_entry_stays`: what is once under a pattern stays there, so a handler that comes after such a
  redirect is accepted and never called.
* `matchPath_eq_some_iff`: a path gets the handler of the longest pattern that fits.
* `served_after_two_redirects`: with the one handler of the mock server, redirects to the normal form of
  a path come to an end.
* `drawn_perm`: the threads that the accepts are started for go round.
-/
import H2LoadRunner.Library.Cycles
import H2LoadRunner.Library.FiniteMap
import H2LoadRunner.MockServer.Paths

namespace H2LoadRunner.MockServer.HttpxServer

open H2LoadRunner.Library
open H2LoadRunner.MockServer.Paths

set_option autoImplicit false

variable {α : Type}

/-- A `request_cb`: one of the server's own, or what `redirect_handler` or `status_handler` make. -/
inductive RequestCb (α : Type) where
  | callback (cb : α)
  | redirect (statusCode : Nat) (uri : Bytes)
  | status (statusCode : Nat)
deriving DecidableEq

structure HandlerEntry (α : Type) where
  userDefined : Bool
  cb : RequestCb α
  pattern : Bytes
deriving DecidableEq

abbrev Mux (α : Type) := FiniteMap Bytes (HandlerEntry α)

/-! ## Registering handlers -/

def Mux.userDefined (mux : Mux α) (pattern : Bytes) : Bool := (mux.lookup pattern).any (·.userDefined)

/-- The implicit redirect of `/foo`, where the pattern is `/foo/`. -/
def Mux.addRedirect (mux : Mux α) (pattern : Bytes) : Mux α :=
  if 2 ≤ pattern.length ∧ pattern.getLast? = some slash ∧ mux.userDefined pattern.dropLast = false then
    mux.insert pattern.dropLast ⟨false, .redirect 301 (pattern.dropWhile (· ≠ slash)), pattern⟩
  else mux

def Mux.handle (mux : Mux α) (pattern : Bytes) : Option α → Bool × Mux α
  | none => (false, mux)
  | some cb =>
    if pattern = [] ∨ mux.userDefined pattern then (false, mux)
    else (true, (mux.addRedirect pattern).emplace pattern ⟨true, .callback cb, pattern⟩)

def Mux.register (mux : Mux α) (calls : List (Bytes × Option α)) : Mux α :=
  calls.foldl (fun mux call => (mux.handle call.1 call.2).2) mux

/-- What is under a pattern without having been registered. -/
def implicit (pattern : Bytes) : HandlerEntry α :=
  ⟨false, .redirect 301 ((pattern ++ [slash]).dropWhile (· ≠ slash)), pattern ++ [slash]⟩

def Mux.Sound (mux : Mux α) : Prop :=
  ∀ pattern entry, mux.lookup pattern = some entry → entry.userDefined = false → entry = implicit pattern

/-- What a change of the handlers leaves: what is there stays. -/
structure Mux.Extends (before after : Mux α) : Prop where
  sound : after.Sound
  stays : ∀ pattern entry, before.lookup pattern = some entry → after.lookup pattern = some entry

theorem extends_addRedirect {mux : Mux α} (sound : mux.Sound) (pattern : Bytes) :
    mux.Extends (mux.addRedirect pattern) := by
  unfold Mux.addRedirect
  split_ifs with slashed
  · obtain ⟨-, last, free⟩ := slashed
    have whole : pattern.dropLast ++ [slash] = pattern := List.dropLast_append_getLast? slash last
    have added : (⟨false, .redirect 301 (pattern.dropWhile (· ≠ slash)), pattern⟩ : HandlerEntry α) =
        implicit pattern.dropLast := by rw [implicit, whole]
    rw [added]
    constructor <;> intro other entry found <;> rw [FiniteMap.lookup_insert_eq] at *
    · split_ifs at found with same
      · exact fun _ => same ▸ (Option.some.inj found).symm
      · exact sound other entry found
    · split_ifs with same
      · subst same
        have redirect : entry.userDefined = false := by simpa [Mux.userDefined, found] using free
        rw [sound _ entry found redirect]
      · exact found
  · exact ⟨sound, fun _ _ found => found⟩

theorem extends_handle {mux : Mux α} (sound : mux.Sound) (pattern : Bytes) (cb : Option α) :
    mux.Extends (mux.handle pattern cb).2 := by
  have unchanged : mux.Extends mux := ⟨sound, fun _ _ found => found⟩
  cases cb with
  | none => exact unchanged
  | some cb =>
    unfold Mux.handle
    split_ifs
    · exact unchanged
    · have first := extends_addRedirect sound pattern
      constructor <;> intro other entry found <;> rw [FiniteMap.lookup_emplace] at *
      · split_ifs at found with same
        · subst same
          cases held : (mux.addRedirect other).lookup other with
          | none =>
            rw [held] at found
            exact fun undefined => by simp [← Option.some.inj found] at undefined
          | some old => exact first.sound other entry (by simpa [held] using found)
        · exact first.sound other entry found
      · have still := first.stays other entry found
        split_ifs with same
        · rw [← same] at still ⊢
          rw [still, Option.getD_some]
        · exact still

theorem extends_register {mux : Mux α} (sound : mux.Sound) (calls : List (Bytes × Option α)) :
    mux.Extends (mux.register calls) := by
  induction calls generalizing mux with
  | nil => exact ⟨sound, fun _ _ found => found⟩
  | cons call calls ih =>
    have one := extends_handle sound call.1 call.2
    have rest := ih one.sound
    exact ⟨rest.sound, fun pattern entry found => rest.stays pattern entry (one.stays pattern entry found)⟩

/-- **What is first under a pattern stays there**, whatever is registered later. -/
theorem first_entry_stays (early late : List (Bytes × Option α)) (pattern : Bytes) (entry : HandlerEntry α)
    (found : (Mux.register ∅ early).lookup pattern = some entry) :
    ((Mux.register ∅ early).register late).lookup pattern = some entry :=
  (extends_register (extends_register (fun _ _ found => by simp at found) early).sound late).stays
    pattern entry found

/-- **Satisfiable pole:** the redirect of `/a` stays where a handler for it is accepted later. -/
theorem first_entry_stays_redirect :
    ((Mux.register ∅ [([slash, 97, slash], some 1)]).handle [slash, 97] (some 2)).1 = true ∧
      ((Mux.register ∅ [([slash, 97, slash], some 1)]).register [([slash, 97], some 2)]).lookup [slash, 97] =
        some (implicit [slash, 97] : HandlerEntry Nat) :=
  ⟨by decide, first_entry_stays _ _ _ _ (by decide)⟩

/-! ## The longest pattern -/

def pathMatch (pattern path : Bytes) : Bool :=
  if pattern.getLast? = some slash then pattern.isPrefixOf path else pattern == path

/-- The loop of `serve_mux::match`, with the best entry up to now. -/
def best (path : Bytes) (entries : List (Sigma fun _ : Bytes => HandlerEntry α)) :
    Option (Sigma fun _ : Bytes => HandlerEntry α) :=
  entries.foldl (fun ent kv =>
    if pathMatch kv.1 path && ent.all (·.1.length < kv.1.length) then some kv else ent) none

def Mux.matchPath (mux : Mux α) (path : Bytes) : Option (RequestCb α) := (best path mux.entries).map (·.2.cb)

theorem best_spec (path : Bytes) (entries : List (Sigma fun _ : Bytes => HandlerEntry α)) :
    (∀ kv ∈ entries, pathMatch kv.1 path → ∃ found ∈ best path entries, kv.1.length ≤ found.1.length) ∧
      ∀ found ∈ best path entries, found ∈ entries ∧ pathMatch found.1 path := by
  induction entries using List.reverseRecOn with
  | nil => simp [best]
  | append_singleton entries kv ih =>
    obtain ⟨longest, fits⟩ := ih
    simp only [List.mem_append, List.mem_singleton]
    rw [best, List.foldl_append, ← best, List.foldl_cons, List.foldl_nil]
    split_ifs with better
    · obtain ⟨now, longer⟩ := Bool.and_eq_true_iff.mp better
      rw [Option.all_eq_true] at longer
      refine ⟨?_, by simp [now]⟩
      rintro other (member | rfl) fit
      · obtain ⟨found, held, short⟩ := longest other member fit
        have less := of_decide_eq_true (longer found held)
        exact ⟨kv, rfl, by omega⟩
      · exact ⟨other, rfl, le_rfl⟩
    · refine ⟨?_, fun found held => ⟨.inl (fits found held).1, (fits found held).2⟩⟩
      rintro other (member | rfl) fit
      · exact longest other member fit
      · simpa [fit, Option.all_eq_false] using better

theorem prefix_of_pathMatch {pattern path : Bytes} (fits : pathMatch pattern path) : pattern <+: path := by
  unfold pathMatch at fits
  split_ifs at fits
  · exact List.isPrefixOf_iff_prefix.mp fits
  · exact (beq_iff_eq.mp fits) ▸ List.prefix_rfl

/-- **A request gets the handler of the longest pattern that fits**, whatever the order of the patterns. -/
theorem matchPath_eq_some_iff (mux : Mux α) (path : Bytes) (cb : RequestCb α) :
    mux.matchPath path = some cb ↔ ∃ pattern entry, mux.lookup pattern = some entry ∧ entry.cb = cb ∧
      pathMatch pattern path ∧ ∀ other ∈ mux, pathMatch other path → other.length ≤ pattern.length := by
  obtain ⟨longest, fits⟩ := best_spec path mux.entries
  rw [Mux.matchPath, Option.map_eq_some_iff]
  constructor
  · rintro ⟨⟨pattern, entry⟩, isBest, rfl⟩
    obtain ⟨member, fit⟩ := fits _ isBest
    refine ⟨pattern, entry, AList.mem_lookup_iff.mpr member, rfl, fit, fun other listed fitting => ?_⟩
    obtain ⟨held, found⟩ := Option.isSome_iff_exists.mp (AList.lookup_isSome.mpr listed)
    obtain ⟨kv, same, short⟩ := longest _ (AList.mem_lookup_iff.mp found) fitting
    obtain rfl := Option.mem_unique same isBest
    exact short
  · rintro ⟨pattern, entry, found, rfl, fit, all⟩
    obtain ⟨⟨other, held⟩, isBest, short⟩ := longest _ (AList.mem_lookup_iff.mp found) fit
    obtain ⟨member, fitting⟩ := fits _ isBest
    have listed := AList.mem_lookup_iff.mpr member
    have long := all other (AList.lookup_isSome.mp (Option.isSome_of_mem listed)) fitting
    -- two prefixes of one path that are equally long
    obtain rfl : pattern = other := (List.prefix_of_prefix_length_le (prefix_of_pathMatch fit)
      (prefix_of_pathMatch fitting) short).eq_of_length (le_antisymm short long)
    exact ⟨_, isBest, congrArg HandlerEntry.cb (Option.mem_unique listed found)⟩

/-! ## Requests and redirects -/

structure UriRef where
  path : Bytes
  rawQuery : Bytes

def UriRef.cleanPath (uri : UriRef) : Bytes := pathJoin [] [] uri.path []

def UriRef.newUri (uri : UriRef) : Bytes := withQuery (percentEncodePath uri.cleanPath) uri.rawQuery

/-- `serve_mux::handler`, by the host and the URI of the request. -/
def Mux.handler (mux : Mux α) (connect : Bool) (host : Bytes) (uri : UriRef) : RequestCb α :=
  if connect = false ∧ uri.cleanPath ≠ uri.path then .redirect 301 uri.newUri
  else (mux.matchPath (host ++ uri.path) <|> mux.matchPath uri.path).getD (.status 404)

/-- The target of a request: over HTTP/1 the fields that the parser of URLs finds in it. -/
inductive Target where
  | http1 (path query : Option Bytes)
  | http2 (path : Bytes)

/-- `http1_on_url_cb`, which leaves the query with the path, and `split_path`. -/
def Target.uri : Target → UriRef
  | .http1 path query => ⟨path.getD [slash] ++ query.elim [] (question :: ·), []⟩
  | .http2 path => ⟨percentDecode (path.takeWhile (· ≠ question)), (path.dropWhile (· ≠ question)).tail⟩

/-- The next target of a client that asks for the location of a redirect.  Over HTTP/1 it has no query. -/
def Target.again (location : Bytes) : Target → Target
  | .http1 _ _ => .http1 (some location) none
  | .http2 _ => .http2 location

/-- What a client gets that follows so many redirects. -/
def Mux.visit (mux : Mux α) (host : Bytes) : Nat → Target → RequestCb α
  | 0, target => mux.handler false host target.uri
  | n + 1, target =>
    match mux.handler false host target.uri with
    | .redirect _ location => mux.visit host n (target.again location)
    | cb => cb

/-- The handlers of the mock server: one, for `/`. -/
def mockMux (cb : α) : Mux α := (Mux.handle ∅ [slash] (some cb)).2

theorem matchPath_mockMux (cb : α) (path : Bytes) :
    (mockMux cb).matchPath path = if path.head? = some slash then some (.callback cb) else none := by
  have fits : pathMatch [slash] path = decide (path.head? = some slash) := by
    cases path <;> simp [pathMatch, List.isPrefixOf, eq_comm, Bool.beq_eq_decide_eq]
  change ((best path [⟨[slash], true, .callback cb, [slash]⟩]).map (·.2.cb)) = _
  simp only [best, List.foldl_cons, List.foldl_nil, fits, Option.all_none, Bool.and_true, decide_eq_true_eq]
  split_ifs <;> rfl

theorem handler_mockMux (cb : α) (host : Bytes) (uri : UriRef) (normal : Normal uri.path) :
    (mockMux cb).handler false host uri = .callback cb := by
  obtain ⟨dirs, file, -, -, shape⟩ := id normal
  rw [Mux.handler, if_neg fun other => other.2 ((pathJoin_eq_self_iff _).mpr normal), matchPath_mockMux,
    matchPath_mockMux, if_pos (show uri.path.head? = some slash by rw [shape]; rfl)]
  split_ifs <;> rfl

/-- **The mock server's handler sees the normal paths, and no others.** -/
theorem callback_iff_normal (cb : α) (host : Bytes) (target : Target) :
    (mockMux cb).handler false host target.uri = .callback cb ↔ Normal target.uri.path := by
  refine ⟨fun called => ?_, handler_mockMux cb host target.uri⟩
  by_contra other
  rw [Mux.handler, if_pos ⟨rfl, mt (pathJoin_eq_self_iff _).mp other⟩] at called
  cases called

/-- The next request is for a path of the same shape: what a redirect encodes is decoded over HTTP/2, and
over HTTP/1 it is encoded segment by segment. -/
theorem again_render {target : Target} {dirs : List Bytes} {file : Bytes}
    (plain : ∀ segment ∈ file :: dirs, Plain segment) (clean : target.uri.cleanPath = render dirs file) :
    ∃ dirs' file', (∀ segment ∈ file' :: dirs', Plain segment) ∧ ([] ∉ dirs → [] ∉ dirs') ∧
      (target.again target.uri.newUri).uri.path = render dirs' file' := by
  unfold UriRef.newUri
  rw [clean]
  cases target with
  | http1 path query =>
    refine ⟨dirs.map percentEncodePath, percentEncodePath file, ?_, fun full member => ?_, ?_⟩
    · rw [← List.map_cons]
      exact List.forall_mem_map.mpr fun segment member => (plain segment member).encode
    · obtain ⟨segment, inside, none⟩ := List.mem_map.mp member
      rw [← percentDecode_encode segment, none] at inside
      exact full inside
    · simp [Target.again, Target.uri, withQuery, encode_render]
  | http2 path =>
    have before : ∀ c ∈ percentEncodePath (render dirs file), decide (c ≠ question) = true :=
      fun c member => by simpa using ne_of_mem_of_not_mem member (question_notMem_encode _)
    have cut (query : Bytes) : (withQuery (percentEncodePath (render dirs file)) query).takeWhile
        (· ≠ question) = percentEncodePath (render dirs file) := by
      rw [withQuery, List.takeWhile_append_of_pos before]
      split_ifs <;> simp
    exact ⟨dirs, file, plain, id, by simp only [Target.again, Target.uri, cut, percentDecode_encode]⟩

section Visit

variable (cb : α) (host : Bytes) (n : Nat) {target : Target}

theorem visit_normal (normal : Normal target.uri.path) :
    (mockMux cb).visit host n target = .callback cb := by
  cases n <;> simp only [Mux.visit, handler_mockMux cb host target.uri normal]

theorem visit_redirect (other : ¬ Normal target.uri.path) :
    (mockMux cb).visit host (n + 1) target =
      (mockMux cb).visit host n (target.again target.uri.newUri) := by
  rw [Mux.visit, Mux.handler, if_pos ⟨rfl, mt (pathJoin_eq_self_iff _).mp other⟩]

end Visit

theorem visit_two (cb : α) (host : Bytes) (target : Target) :
    (mockMux cb).visit host 2 target = .callback cb := by
  by_cases first : Normal target.uri.path
  · exact visit_normal cb host 2 first
  rw [visit_redirect cb host 1 first]
  obtain ⟨dirs, file, plain, joined⟩ := exists_pathJoin target.uri.path
  obtain ⟨dirs, file, plain, -, path⟩ := again_render plain joined
  generalize target.again _ = target at path ⊢
  by_cases second : Normal target.uri.path
  · exact visit_normal cb host 1 second
  rw [visit_redirect cb host 0 second]
  have fewer : ∀ segment ∈ file :: dirs.filter (· ≠ []), Plain segment :=
    fun segment member => plain segment (List.cons_subset_cons file (List.filter_subset_self _) member)
  have joined : target.uri.cleanPath = render (dirs.filter (· ≠ [])) file := by
    rw [UriRef.cleanPath, path, pathJoin_render plain]
  obtain ⟨dirs, file, plain, full, path⟩ := again_render fewer joined
  exact visit_normal cb host 0 ⟨dirs, file, plain, full (by simp), path⟩

/-- **Every request is served after at most two redirects.**  The first leaves a path without dot segments,
the second one without empty directories; one is too few for `/.//a`, whose first location is `//a`. -/
theorem served_after_two_redirects (cb : α) (host : Bytes) :
    (∀ target, (mockMux cb).visit host 2 target = .callback cb) ∧
    (mockMux cb).visit host 1 (.http2 [slash, dot, slash, slash, 97]) = .redirect 301 [slash, 97] := by
  refine ⟨visit_two cb host, ?_⟩
  have other : ¬ Normal (Target.http2 [slash, dot, slash, slash, 97]).uri.path := by
    rw [← pathJoin_eq_self_iff]
    decide
  rw [visit_redirect cb host 0 other]
  rfl

/-! ## The io services of the connections -/

/-- `io_service_pool`: how many io services there are, the listener's the first of them. -/
structure IoServicePool where
  ioServices : Nat
  nextIoService : Nat

/-- The constructor, which throws for an empty pool. -/
def IoServicePool.create (poolSize : Nat) : Option IoServicePool :=
  if poolSize = 0 then none else some ⟨poolSize + 1, 1⟩

def IoServicePool.getIoService (pool : IoServicePool) : Nat × IoServicePool :=
  (pool.nextIoService,
    { pool with
      nextIoService := if pool.nextIoService + 1 = pool.ioServices then 1 else pool.nextIoService + 1 })

/-- The io services that so many calls in a row give; `start_accept` makes one for each accept it starts,
of whatever endpoint. -/
def IoServicePool.drawn : Nat → IoServicePool → List Nat
  | 0, _ => []
  | n + 1, pool => pool.getIoService.1 :: drawn n pool.getIoService.2

theorem drawn_eq_iterate (n : Nat) {pool : IoServicePool} (above : 1 ≤ pool.nextIoService)
    (below : pool.nextIoService < pool.ioServices) :
    pool.drawn n = List.iterate (Cycles.next 1 pool.ioServices) pool.nextIoService n := by
  induction n generalizing pool with
  | zero => rfl
  | succ n ih =>
    have counted : pool.getIoService.2 =
        { pool with nextIoService := Cycles.next 1 pool.ioServices pool.nextIoService } := by
      simp only [IoServicePool.getIoService, Cycles.next, IoServicePool.mk.injEq, true_and]
      split_ifs <;> omega
    have inside := Cycles.iterate_next_inside above below 1
    rw [IoServicePool.drawn, List.iterate, counted, ih inside.1 inside.2]
    rfl

/-- **The threads go round**: of as many accepts started in a row as there are threads each thread gets one,
and the listener's thread gets none. -/
theorem drawn_perm {poolSize : Nat} {pool : IoServicePool}
    (created : IoServicePool.create poolSize = some pool) (n : Nat) (early window late : List Nat)
    (split : pool.drawn n = early ++ window ++ late) (whole : window.length = poolSize) :
    window.Perm (List.range' 1 poolSize) := by
  unfold IoServicePool.create at created
  split_ifs at created with none
  cases created
  have first : 1 < poolSize + 1 := by omega
  have start := Cycles.iterate_next_inside le_rfl first early.length
  rw [drawn_eq_iterate n le_rfl first] at split
  rw [Cycles.eq_iterate_of_split split, whole]
  exact Cycles.iterate_perm start.1 start.2

theorem drawn_perm_two : ([2, 1] : List Nat).Perm (List.range' 1 2) :=
  drawn_perm rfl 3 [1] [2, 1] [] rfl rfl

end H2LoadRunner.MockServer.HttpxServer
