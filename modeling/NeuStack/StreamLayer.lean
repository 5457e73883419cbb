import NeuStack.ConnectionManager

/-! # The stream layer

`TCPLayer`: the wrappers and callbacks of the streams the application holds, kept
in two maps under the address of the TCB, over the manager's connections.

The layer reaches into the manager by the closures it registers.  A closure is a
number, which `hooks` resolves for those that `listen()` and `connect()` make; the
two that are set on an accepted TCB capture nothing but its address.  Whenever the
manager invokes one it logs an event, and the layer reacts to the event
(`LayerMaps.react`); so where the maps are in the middle of a step follows from
the events logged by then (`LayerMaps.after`), and the calls the manager sees are
those of the reaction (`context`).

Of the application nothing is assumed: what it does when it is called, it may
choose by everything it was called with before.  The port of an outgoing
connection is the one `connect()` names or `allocate_ephemeral_port` picks.
-/
namespace NeuStack

/-- `struct StreamCallbacks`. -/
structure StreamCallbacks where
  onReceive : Option Callback := none
  onClose : Option Callback := none
  deriving DecidableEq, Repr

/-- What the closures capture that are registered with the manager. -/
inductive Hook where
  /-- The one `listen(port, …)` makes. -/
  | accept (port : UInt16)
  /-- `wrapped_connect`. -/
  | connect (onConnect : Option Callback) (callbacks : StreamCallbacks)
  deriving DecidableEq, Repr

/-- What the layer does with the stream of a TCB. -/
inductive StreamEvent where
  /-- The accept callback is called with the wrapper. -/
  | accepting (cb : Callback) (p : Ptr)
  /-- `on_connect` is called, with the wrapper if there is one. -/
  | connected (cb : Callback) (p : Option Ptr) (error : Int)
  /-- `_callbacks[tcb]` is assigned to. -/
  | stored (p : Ptr) (callbacks : StreamCallbacks)
  | receiving (cb : Callback) (p : Ptr) (data : List UInt8)
  | closing (cb : Callback) (p : Ptr)
  deriving DecidableEq, Repr

/-- What the application can ask of the layer.  `send` and `close` are those of the
wrapper of the TCB at `p`. -/
inductive StreamCall where
  | listen (port : UInt16) (onAccept : Callback)
  | unlisten (port : UInt16)
  | connect (remoteIp : UInt32) (remotePort localPort : UInt16) (onConnect : Option Callback)
      (callbacks : StreamCallbacks)
  | send (p : Ptr) (data : List UInt8)
  | close (p : Ptr)
  | setDefaultOptions (opts : TCPOptions)

/-- What the application does when it is called; an accept callback also returns the
callbacks of the stream. -/
structure Answer where
  calls : List StreamCall := []
  callbacks : StreamCallbacks := {}

/-- An application, which knows what has happened so far. -/
abbrev Application := List StreamEvent → StreamEvent → Answer

/-- The layer's own members. -/
structure LayerMaps where
  acceptCallbacks : List (UInt16 × Callback) := []
  /-- The keys of `_connections`; a wrapper holds no more than its key. -/
  connections : List Ptr := []
  callbacks : List (Ptr × StreamCallbacks) := []
  hooks : List Hook := []
  /-- The ports the manager listens on, by which `listen()` fails. -/
  listening : List UInt16 := []
  log : List StreamEvent := []

namespace LayerMaps

/-! ## Calls -/

/-- `listen()`. -/
def listen (port : UInt16) (onAccept : Callback) (b : LayerMaps) : LayerMaps :=
  let accepts := b.acceptCallbacks.filter (·.1 ≠ port)
  let hooks := b.hooks ++ [.accept port]
  if port = 0 ∨ port ∈ b.listening then { b with acceptCallbacks := accepts, hooks }
  else
    { b with
      acceptCallbacks := (port, onAccept) :: accepts, hooks, listening := port :: b.listening }

/-- `unlisten()`. -/
def unlisten (port : UInt16) (b : LayerMaps) : LayerMaps :=
  { b with
    acceptCallbacks := b.acceptCallbacks.filter (·.1 ≠ port)
    listening := b.listening.filter (· ≠ port) }

/-- A call of the application, and the call it comes to. -/
def make (b : LayerMaps) : StreamCall → LayerMaps × Call
  | .listen port onAccept => (b.listen port onAccept, .listen port (some b.hooks.length))
  | .unlisten port => (b.unlisten port, .unlisten port)
  | .connect remoteIp remotePort localPort onConnect callbacks =>
    ({ b with hooks := b.hooks ++ [.connect onConnect callbacks] },
      .connect remoteIp remotePort localPort (some b.hooks.length))
  | .send p data => (b, .send p data)
  | .close p => (b, .close p)
  | .setDefaultOptions opts => (b, .setDefaultOptions opts)

def makeAll (b : LayerMaps) : List StreamCall → LayerMaps × List Call
  | [] => (b, [])
  | a :: as =>
    let (b, c) := b.make a
    let (b, cs) := b.makeAll as
    (b, c :: cs)

/-! ## Callbacks -/

/-- The application is called; what it does in return. -/
def invoke (app : Application) (ev : StreamEvent) (b : LayerMaps) : LayerMaps × List Call :=
  { b with log := b.log ++ [ev] }.makeAll (app b.log ev).calls

/-- `get_or_create_connection`. -/
def getOrCreateConnection (p : Ptr) (b : LayerMaps) : LayerMaps :=
  if p ∈ b.connections then b else { b with connections := p :: b.connections }

/-- `remove_connection`. -/
def removeConnection (p : Ptr) (b : LayerMaps) : LayerMaps :=
  { b with connections := b.connections.filter (· ≠ p) }

/-- `_callbacks[tcb] = callbacks`. -/
def storeCallbacks (p : Ptr) (callbacks : StreamCallbacks) (b : LayerMaps) : LayerMaps :=
  { b with
    callbacks := (p, callbacks) :: b.callbacks.filter (·.1 ≠ p)
    log := b.log ++ [.stored p callbacks] }

/-- The assignments to `tcb->on_receive` and `tcb->on_close`. -/
def setHooks (p : Ptr) : Call := .setCallbacks p (some p) (some p)

/-- The closure of `listen()`, for a connection that was established. -/
def accept (app : Application) (port : UInt16) (p : Ptr) (b : LayerMaps) : LayerMaps × List Call :=
  match b.acceptCallbacks.lookup port with
  | none => (b, [])
  | some cb =>
    let b := b.getOrCreateConnection p
    let callbacks := (app b.log (.accepting cb p)).callbacks
    let (b, cs) := b.invoke app (.accepting cb p)
    (b.storeCallbacks p callbacks, cs ++ [setHooks p])

/-- `wrapped_connect`, for a connection that was established. -/
def connected (app : Application) (onConnect : Option Callback) (callbacks : StreamCallbacks)
    (p : Ptr) (b : LayerMaps) : LayerMaps × List Call :=
  let b := (b.getOrCreateConnection p).storeCallbacks p callbacks
  match onConnect with
  | none => (b, [setHooks p])
  | some cb =>
    let (b, cs) := b.invoke app (.connected cb (some p) 0)
    (b, setHooks p :: cs)

/-- The closure set as `tcb->on_receive`. -/
def received (app : Application) (p : Ptr) (data : List UInt8) (b : LayerMaps) :
    LayerMaps × List Call :=
  match (b.callbacks.lookup p).bind (·.onReceive) with
  | none => (b, [])
  | some cb => (b.getOrCreateConnection p).invoke app (.receiving cb p data)

/-- The closure set as `tcb->on_close`. -/
def closed (app : Application) (p : Ptr) (b : LayerMaps) : LayerMaps × List Call :=
  let (b, cs) := match (b.callbacks.lookup p).bind (·.onClose) with
    | none => (b, [])
    | some cb => (b.getOrCreateConnection p).invoke app (.closing cb p)
  ({ b with callbacks := b.callbacks.filter (·.1 ≠ p) }.removeConnection p, cs)

/-- **How the layer reacts to an event of the manager**, and what the manager is asked in
return. -/
def react (app : Application) (ev : Event) (b : LayerMaps) : LayerMaps × List Call :=
  match ev with
  | .onConnect p (some cb) error =>
    match b.hooks[cb]? with
    | none => (b, [])
    | some (.accept port) => if error ≠ 0 then (b, []) else b.accept app port p
    | some (.connect onConnect callbacks) =>
      if error = 0 then b.connected app onConnect callbacks p
      else
        match onConnect with
        | none => (b, [])
        | some cb => b.invoke app (.connected cb none error)
  | .onReceive p (some _) data => b.received app p data
  | .onClose p (some _) => b.closed app p
  | _ => (b, [])

/-- The members after the events `evs`. -/
def after (app : Application) (b : LayerMaps) (evs : List Event) : LayerMaps :=
  evs.foldl (fun b ev => (b.react app ev).1) b

end LayerMaps

/-! ## The layer -/

structure TCPLayer (σ : Type) where
  mgr : TCPConnectionManager σ
  maps : LayerMaps := {}

/-- One entry into the layer from outside. -/
inductive StreamOp where
  | call (a : StreamCall)
  | segment (seg : TCPSegment)
  | timer (order : List TCPTuple)

/-- An entry together with its environment. -/
structure StreamInput where
  env : Env
  app : Application
  op : StreamOp

/-- One step of the layer from inside: the members at its start, and how long the trace
was then. -/
structure Session where
  app : Application
  maps : LayerMaps
  start : Nat

namespace Session
variable {σ : Type} (s : Session)

/-- The members when the trace is `tr`. -/
def mapsAt (tr : List Event) : LayerMaps := s.maps.after s.app (tr.drop s.start)

/-- The layer as the application of the manager. -/
def context (env : Env) : Context σ :=
  { env with app := fun m ev => ((s.mapsAt m.trace.dropLast).react s.app ev).2 }

end Session

namespace TCPLayer
variable {σ : Type}

/-- The step `x` starts, and what it asks of the manager. -/
def start (l : TCPLayer σ) (x : StreamInput) : Session × Op :=
  let maps := { l.maps with listening := l.mgr.listeners.map (·.1) }
  match x.op with
  | .call a => (⟨x.app, (maps.make a).1, l.mgr.trace.length⟩, .call (maps.make a).2)
  | .segment seg => (⟨x.app, maps, l.mgr.trace.length⟩, .segment seg)
  | .timer order => (⟨x.app, maps, l.mgr.trace.length⟩, .timer order)

/-- The entry as the manager sees it. -/
def input (l : TCPLayer σ) (x : StreamInput) : Input σ :=
  ⟨(l.start x).1.context x.env, (l.start x).2⟩

variable [ICongestionControl σ]

def step (l : TCPLayer σ) (x : StreamInput) : TCPLayer σ :=
  let mgr := l.mgr.step (l.input x)
  { mgr, maps := (l.start x).1.mapsAt mgr.trace }

omit [ICongestionControl σ] in
def init (localIp : UInt32) : TCPLayer σ where
  mgr := .init localIp

end TCPLayer

end NeuStack
