import NeuStack.HttpServer
import NeuStack.LexicalPath

/-! # Static files

The paths that `dispatch` opens (`HttpServer.opens`) are the static directory with the rest
of the request path behind it, which has no two dots.  So they lead to the directory or under
it (`Confined`), also if the file stream reads the path only up to a zero byte.

Whatever comes in on a connection, the files elsewhere make no difference
(`HttpServer.static_confined`).
-/
namespace NeuStack
open LexicalPath

/-- The place that a path of bytes leads to. -/
abbrev placeOf (path : Bytes) : Place UInt8 := resolve 47 46 path

/-- A path leads to a directory or under it, and starts from the same place.  The empty path
names no directory, and what is behind it starts at the root. -/
structure Confined (dir path : Bytes) : Prop where
  under : Under (placeOf path) (placeOf dir)
  absolute : dir ≠ [] → (placeOf path).absolute = (placeOf dir).absolute

/-- What a file stream reads of a path. -/
def cString (path : Bytes) : Bytes := path.takeWhile (· ≠ 0)

namespace HttpServer

theorem contains_iff (pattern text : Bytes) : contains pattern text = true ↔ pattern <:+: text := by
  rw [contains, List.any_eq_true]
  constructor
  · rintro ⟨rest, hrest, hpattern⟩
    exact (List.isPrefixOf_iff_prefix.mp hpattern).isInfix.trans
      ((List.mem_tails ..).mp hrest).isInfix
  · rintro ⟨before, behind, rfl⟩
    refine ⟨pattern ++ behind, (List.mem_tails ..).mpr ⟨before, ?_⟩, ?_⟩
    · rw [List.append_assoc]
    · exact List.isPrefixOf_iff_prefix.mpr (List.prefix_append ..)

/-- The path that `dispatch` opens, if any. -/
def opens (s : HttpServer) (request : HttpRequest) : Option Bytes :=
  if (s.routes request.method request.path).isSome then none
  else if s.staticPrefix ≠ [] ∧ s.staticPrefix.isPrefixOf request.path ∧ request.method = .get then
    let relativePath := request.path.drop s.staticPrefix.length
    if contains (ascii "..") relativePath ∨ relativePath.head? = some 47 then none
    else some (s.staticDir ++ ascii "/" ++ relativePath)
  else none

variable {s : HttpServer} {request : HttpRequest} {path : Bytes}

/-- A file that is opened is what is served. -/
theorem dispatch_of_opens (h : s.opens request = some path) {file : Bytes → Option Bytes}
    {content : Bytes} (hfile : file path = some content) (n : Nat) :
    s.dispatch file n request =
      (({} : HttpResponse).setBody content).contentType (getMimeType path) := by
  rw [opens] at h
  split at h
  · cases h
  · rename_i hroute
    have hnone : s.routes request.method request.path = none :=
      Option.not_isSome_iff_eq_none.mp hroute
    split at h
    · rename_i hstatic
      dsimp only at h
      split at h
      · cases h
      · rename_i hsafe
        obtain rfl := Option.some.inj h
        rw [dispatch, hnone, dispatchStatic]
        dsimp only
        rw [if_pos hstatic, if_neg hsafe, hfile]
        rfl
    · cases h

/-- No other file matters. -/
theorem dispatch_congr {file file' : Bytes → Option Bytes}
    (h : ∀ path, s.opens request = some path → file' path = file path) (n : Nat) :
    s.dispatch file' n request = s.dispatch file n request := by
  rw [dispatch, dispatch]
  cases hroute : s.routes request.method request.path with
  | some handler => rfl
  | none =>
    have hstatic : s.dispatchStatic file' request = s.dispatchStatic file request := by
      rw [dispatchStatic, dispatchStatic]
      split
      · rename_i hstatic
        dsimp only
        split
        · rfl
        · rename_i hsafe
          rw [h]
          have hroutes : ¬ (s.routes request.method request.path).isSome = true := by
            rw [hroute]
            exact Bool.false_ne_true
          rw [opens, if_neg hroutes, if_pos hstatic]
          exact if_neg hsafe
      · rfl
    dsimp only
    rw [hstatic]

/-- What is opened is in the directory, with a path that has no two dots. -/
theorem opens_eq (h : s.opens request = some path) :
    ∃ rest, path = s.staticDir ++ 47 :: rest ∧ ¬ [46, 46] <:+: rest := by
  rw [opens] at h
  split at h
  · cases h
  · split at h
    · dsimp only at h
      split at h
      · cases h
      · rename_i hsafe
        refine ⟨_, (Option.some.inj h).symm.trans (List.append_assoc ..), fun hdots => ?_⟩
        exact hsafe (Or.inl ((contains_iff ..).mpr hdots))
    · cases h

end HttpServer

/-- **Behind a directory**, without two dots. -/
theorem confined_append (dir : Bytes) {rest : Bytes} (h : ¬ [46, 46] <:+: rest) :
    Confined dir (dir ++ 47 :: rest) :=
  ⟨under_resolve_append dir h, fun hdir => absolute_resolve_append hdir (47 :: rest)⟩

/-- Cut off at a zero byte, too. -/
theorem confined_cString (dir : Bytes) {rest : Bytes} (h : ¬ [46, 46] <:+: rest) :
    Confined (cString dir) (cString (dir ++ 47 :: rest)) := by
  rw [cString, cString, List.takeWhile_append]
  split
  · rename_i hlength
    rw [(List.takeWhile_prefix _).eq_of_length hlength, List.takeWhile_cons_of_pos rfl]
    exact confined_append dir fun hdots => h (hdots.trans (List.takeWhile_prefix _).isInfix)
  · exact ⟨Under.refl _, fun _ => rfl⟩

/-! ## Runs -/

namespace HttpServer
variable {s : HttpServer} {u u' : Surroundings}

theorem sendLoop_congr (haccept : u'.accept = u.accept) (data : Bytes) (fuel offset : Nat)
    (c : HttpConnection) : sendLoop u' data fuel offset c = sendLoop u data fuel offset c := by
  have hsend (data : Bytes) (c : HttpConnection) : c.send u' data = c.send u data := by
    rw [HttpConnection.send, HttpConnection.send, haccept]
  induction fuel generalizing offset c with
  | zero => rfl
  | succ fuel ih =>
    rw [sendLoop, sendLoop, hsend]
    simp only [ih]

theorem sendPending_congr (haccept : u'.accept = u.accept) (st : ConnectionState)
    (c : HttpConnection) : sendPending u' st c = sendPending u st c := by
  rw [sendPending, sendPending, sendLoop_congr haccept]

theorem flushPending_congr (haccept : u'.accept = u.accept) (st : ConnectionState)
    (c : HttpConnection) : flushPending u' st c = flushPending u st c := by
  rw [flushPending, flushPending, sendPending_congr haccept]

theorem sendResponse_congr (haccept : u'.accept = u.accept) (response : HttpResponse)
    (st : ConnectionState) (c : HttpConnection) :
    sendResponse u' response st c = sendResponse u response st c := by
  rw [sendResponse, sendResponse, flushPending_congr haccept]

theorem chunkLoop_congr (haccept : u'.accept = u.accept) (chunks : List Bytes)
    (c : HttpConnection) : chunkLoop u' chunks c = chunkLoop u chunks c := by
  induction chunks generalizing c with
  | nil => rfl
  | cons chunk chunks ih =>
    rw [chunkLoop, chunkLoop, sendLoop_congr haccept]
    simp only [ih]

theorem sendNextChunk_congr (haccept : u'.accept = u.accept) (st : ConnectionState)
    (c : HttpConnection) : sendNextChunk u' st c = sendNextChunk u st c := by
  rw [sendNextChunk, sendNextChunk]
  simp only [sendPending_congr haccept, chunkLoop_congr haccept]

theorem poll_congr (haccept : u'.accept = u.accept) (st : ConnectionState)
    (c : HttpConnection) : poll u' st c = poll u st c := by
  rw [poll, poll, sendNextChunk_congr haccept, flushPending_congr haccept]

/-- The files that are not opened make no difference to a request. -/
theorem serve_congr (haccept : u'.accept = u.accept)
    (hfile : ∀ n request path, s.opens request = some path → u'.file n path = u.file n path)
    (st : ConnectionState) (c : HttpConnection) : s.serve u' st c = s.serve u st c := by
  have hchunked (n : Nat) (request : HttpRequest) (st : ConnectionState) (c : HttpConnection) :
      s.dispatchChunked u' n request st c = s.dispatchChunked u n request st c := by
    rw [dispatchChunked, dispatchChunked]
    simp only [sendNextChunk_congr haccept]
  rw [serve, serve]
  simp only [hchunked, dispatch_congr (hfile _ _), sendResponse_congr haccept]

theorem onReceive_congr (haccept : u'.accept = u.accept)
    (hfile : ∀ n request path, s.opens request = some path → u'.file n path = u.file n path)
    (data : Bytes) (st : ConnectionState) (c : HttpConnection) :
    s.onReceive u' data st c = s.onReceive u data st c := by
  have hparse (st : ConnectionState) (c : HttpConnection) :
      s.parse u' data st c = s.parse u data st c := by
    rw [parse, parse]
    simp only [serve_congr haccept hfile, badRequest, sendResponse_congr haccept]
  rw [onReceive, onReceive, sendNextChunk_congr haccept, flushPending_congr haccept]
  simp only [hparse]

theorem step_congr (haccept : u'.accept = u.accept)
    (hfile : ∀ n request path, s.opens request = some path → u'.file n path = u.file n path)
    (c : HttpConnection) (x : Input) : s.step u' c x = s.step u c x := by
  cases x with
  | receive data =>
    rw [step, step]
    simp only [onReceive_congr haccept hfile]
  | poll =>
    rw [step, step]
    simp only [poll_congr haccept]
  | close => rfl

/-- **Static files are confined.**  What is opened for a request is in the directory, and a
connection is the same whatever the files elsewhere are. -/
theorem static_confined (s : HttpServer) :
    (∀ request path, s.opens request = some path →
      Confined s.staticDir path ∧ Confined (cString s.staticDir) (cString path)) ∧
    ∀ u u' : Surroundings, u'.accept = u.accept →
      (∀ n path, Confined s.staticDir path → u'.file n path = u.file n path) →
      ∀ (inputs : List Input) (c : HttpConnection),
        inputs.foldl (s.step u') c = inputs.foldl (s.step u) c := by
  have hconfined (request : HttpRequest) (path : Bytes) (h : s.opens request = some path) :
      Confined s.staticDir path ∧ Confined (cString s.staticDir) (cString path) := by
    obtain ⟨rest, rfl, hdots⟩ := opens_eq h
    exact ⟨confined_append _ hdots, confined_cString _ hdots⟩
  refine ⟨hconfined, fun u u' haccept hfile inputs c => ?_⟩
  have hopened (n : Nat) (request : HttpRequest) (path : Bytes)
      (h : s.opens request = some path) : u'.file n path = u.file n path :=
    hfile n path (hconfined request path h).1
  induction inputs generalizing c with
  | nil => rw [List.foldl_nil, List.foldl_nil]
  | cons x inputs ih =>
    have hstep := step_congr haccept hopened c x
    rw [List.foldl_cons, List.foldl_cons, hstep]
    exact ih (s.step u c x)

def www : HttpServer := serveStatic (ascii "/static/") (ascii "www") {}

/-- A file outside the directory, or no file. -/
def outside (content : Option Bytes) : Surroundings where
  file _ path := if path = ascii "/etc/passwd" then content else none
  accept _ := 100

/-- `"GET /static//etc/passwd"` -/
def climbing : List Input := [.receive (ascii "GET /static//etc/passwd HTTP/1.1\r\n\r\n")]

theorem static_confined_www :
    Confined (ascii "www") (ascii "www/.//a/./b") ∧
      climbing.foldl (www.step (outside none)) {} =
        climbing.foldl (www.step (outside (some (ascii "root")))) {} := by
  obtain ⟨hopened, hruns⟩ := static_confined www
  have hdir : www.staticDir = ascii "www" := by rw [www, serveStatic]
  rw [hdir] at hopened hruns
  have hpath : www.opens { method := .get, path := ascii "/static/.//a/./b" } =
      some (ascii "www/.//a/./b") := by decide +kernel
  have hfile (n : Nat) (path : Bytes) (h : Confined (ascii "www") path) :
      (outside none).file n path = (outside (some (ascii "root"))).file n path := by
    have hne : path ≠ ascii "/etc/passwd" := by
      rintro rfl
      exact absurd (h.absolute (by decide)) (by decide +kernel)
    exact (if_neg hne).trans (if_neg hne).symm
  have haccept : (outside none).accept = (outside (some (ascii "root"))).accept := rfl
  have hrun := hruns (outside (some (ascii "root"))) (outside none) haccept hfile climbing {}
  exact ⟨(hopened _ _ hpath).1, hrun⟩

end HttpServer
end NeuStack
