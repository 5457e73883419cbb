import NeuStack.DNSMessages
import NeuStack.GuardedRun
import NeuStack.Table

/-! # The DNS client

`resolve_async`, `on_receive` and `on_timer` of `dns_client.cpp`.  The pending queries
are in a map by their 16-bit ids, which are given out in turn.  A callback runs while
the client is in the middle of `on_receive` or `on_timer`, with an iterator into the
map, and may ask for more.

A callback is known by the number of its query, in the order of the calls of
`resolve_async`.  A datagram comes with the number of the query the server answers
with it, which the client does not see.
-/
namespace NeuStack

/-- The arguments of `resolve_async`, and the time it is called. -/
structure DNSCall where
  hostname : List UInt8
  type : UInt16 := DNSType.a
  now : Nat

inductive DNSEvent where
  /-- `sendto` of a query. -/
  | sent (query : Nat) (packet : List UInt8)
  /-- The callback of a query is invoked: with a response, which answers the query
  `origin`, or with `nullopt`. -/
  | answered (query : Nat) (response : Option DNSResponse) (origin : Option Nat)
  /-- `_pending[id] = …`, while an iterator into the map is in use. -/
  | touched
  deriving DecidableEq

/-- What a callback asks for, given what has happened before. -/
abbrev DNSApplication := List DNSEvent → Nat → Option DNSResponse → List DNSCall

structure PendingQuery where
  id : UInt16
  hostname : List UInt8
  type : UInt16
  /-- The number of its callback. -/
  callback : Nat
  /-- In nanoseconds. -/
  sendTime : Nat
  retries : Nat := 0

structure DNSClient where
  dnsServer : UInt32 := 0x08080808
  nextId : UInt16 := 1
  pending : List (UInt16 × PendingQuery) := []
  /-- How often `resolve_async` has been called. -/
  calls : Nat := 0
  log : List DNSEvent := []

namespace DNSClient

def emit (ev : DNSEvent) (c : DNSClient) : DNSClient := { c with log := c.log ++ [ev] }

def erase (id : UInt16) (c : DNSClient) : DNSClient :=
  { c with pending := c.pending.filter (·.1 ≠ id) }

/-- `_pending[id] = query` -/
def store (id : UInt16) (p : PendingQuery) (c : DNSClient) : DNSClient :=
  { c with pending := (id, p) :: c.pending.filter (·.1 ≠ id) }

/-- `resolve_async` -/
def resolveAsync (call : DNSCall) (c : DNSClient) : DNSClient :=
  let id := c.nextId
  let query : PendingQuery :=
    { id, hostname := call.hostname, type := call.type, callback := c.calls, sendTime := call.now }
  let c := { c with nextId := c.nextId + 1, calls := c.calls + 1 }
  let c := c.store id query
  c.emit (.sent query.callback (DNSMessages.buildQuery id call.hostname call.type))

/-- A callback is invoked, and asks for more. -/
def invoke (app : DNSApplication) (query : Nat) (response : Option DNSResponse)
    (origin : Option Nat) (c : DNSClient) : DNSClient :=
  let calls := app c.log query response
  let c := c.emit (.answered query response origin)
  calls.foldl (fun c call => (c.resolveAsync call).emit .touched) c

/-- `on_receive` -/
def onReceive (app : DNSApplication) (srcIp : UInt32) (srcPort : UInt16) (mem : Memory)
    (len : Nat) (origin : Nat) (c : DNSClient) : DNSClient :=
  if srcIp ≠ c.dnsServer ∨ srcPort ≠ 53 then c
  else
    match (DNSMessages.parseResponse mem len).value with
    | none => c
    | some response =>
      match c.pending.lookup response.id with
      | none => c
      | some p => (c.invoke app p.callback (some response) (some origin)).erase response.id

/-- More than two seconds have passed since the query was sent. -/
def Overdue (now : Nat) (p : PendingQuery) : Prop := 2000000000 < now - p.sendTime

instance (now : Nat) (p : PendingQuery) : Decidable (Overdue now p) := Nat.decLt ..

/-- What `on_timer` does with one query. -/
def visit (app : DNSApplication) (now : Nat) (c : DNSClient) (id : UInt16) : DNSClient :=
  match c.pending.lookup id with
  | none => c
  | some p =>
    if Overdue now p then
      if 3 ≤ p.retries then (c.invoke app p.callback none none).erase id
      else
        let p := { p with retries := p.retries + 1, sendTime := now }
        (c.store id p).emit (.sent p.callback (DNSMessages.buildQuery p.id p.hostname p.type))
    else c

/-- `on_timer`.  `order` is the order in which the map is walked. -/
def onTimer (app : DNSApplication) (now : Nat) (order : List UInt16) (c : DNSClient) : DNSClient :=
  let keys := c.pending.map (·.1)
  (if order.isPerm keys then order else keys).foldl (visit app now) c

inductive Input where
  | resolve (call : DNSCall)
  | receive (srcIp : UInt32) (srcPort : UInt16) (mem : Memory) (len : Nat) (origin : Nat)
  | timer (now : Nat) (order : List UInt16)

def step (app : DNSApplication) (c : DNSClient) : Input → DNSClient
  | .resolve call => c.resolveAsync call
  | .receive srcIp srcPort mem len origin => c.onReceive app srcIp srcPort mem len origin
  | .timer now order => c.onTimer app now order

def init (dnsServer : UInt32) : DNSClient where
  dnsServer := dnsServer

/-! ## What is asked -/

/-- How often the callback of a query has been invoked. -/
def answers (q : Nat) (c : DNSClient) : Nat :=
  c.log.countP fun
    | .answered q' _ _ => q' = q
    | _ => false

/-- How often a query has been sent. -/
def sends (q : Nat) (c : DNSClient) : Nat :=
  c.log.countP fun
    | .sent q' _ => q' = q
    | _ => false

/-- The query is in the map. -/
def Pending (q : Nat) (c : DNSClient) : Prop := ∃ id p, (id, p) ∈ c.pending ∧ p.callback = q

/-- **Every query is answered exactly once**, as far as the run has come. -/
structure AnsweredOnce (c : DNSClient) : Prop where
  /-- A query waits in the map, or its callback has been invoked, once. -/
  once : ∀ q < c.calls, c.Pending q ∧ c.answers q = 0 ∨ ¬ c.Pending q ∧ c.answers q = 1
  /-- No callback is invoked that was not passed. -/
  passed : ∀ q, c.calls ≤ q → c.answers q = 0
  /-- A response is one to this very query. -/
  genuine : ∀ q response origin, .answered q (some response) origin ∈ c.log → origin = some q
  /-- The query has been sent four times before it fails. -/
  exhausted : ∀ q origin, .answered q none origin ∈ c.log → c.sends q = 4
  untouched : .touched ∉ c.log

/-- Whether a tick finds the query overdue. -/
def FindsOverdue (q : Nat) (c : DNSClient) : Input → Prop
  | .timer now _ => ∃ id p, (id, p) ∈ c.pending ∧ p.callback = q ∧ Overdue now p
  | _ => False

instance (q : Nat) (c : DNSClient) (x : Input) : Decidable (c.FindsOverdue q x) :=
  match x with
  | .timer now _ =>
    decidable_of_iff (∃ e ∈ c.pending, e.2.callback = q ∧ Overdue now e.2)
      ⟨fun ⟨e, he, h⟩ => ⟨e.1, e.2, he, h⟩, fun ⟨id, p, he, h⟩ => ⟨(id, p), he, h⟩⟩
  | .resolve _ => .isFalse id
  | .receive .. => .isFalse id

/-- How many ticks of a run find the query overdue. -/
def overdueTicks (app : DNSApplication) (q : Nat) : DNSClient → List Input → Nat
  | _, [] => 0
  | c, x :: xs =>
    (if c.FindsOverdue q x then 1 else 0) + overdueTicks app q (c.step app x) xs

/-! ## When it is given -/

/-- No callback of the queries that fail in the rest of a sweep asks for more. -/
def SweepQuiet (app : DNSApplication) (now : Nat) : List UInt16 → DNSClient → Prop
  | [], _ => True
  | id :: ids, c =>
    (∀ p, c.pending.lookup id = some p → Overdue now p → 3 ≤ p.retries →
        app c.log p.callback none = []) ∧
      SweepQuiet app now ids (c.visit app now id)

/-- **The condition on a step.**  The next id is not that of a pending query; a datagram
answers the query that is pending under its id; and no callback that is invoked asks
for more. -/
def Orderly (app : DNSApplication) (c : DNSClient) : Input → Prop
  | .resolve _ => c.pending.lookup c.nextId = none
  | .receive srcIp srcPort mem len origin =>
    ∀ response p, srcIp = c.dnsServer → srcPort = 53 →
      (DNSMessages.parseResponse mem len).value = some response →
      c.pending.lookup response.id = some p →
      origin = p.callback ∧ app c.log p.callback (some response) = []
  | .timer now order =>
    SweepQuiet app now
      (if order.isPerm (c.pending.map (·.1)) then order else c.pending.map (·.1)) c

end DNSClient
end NeuStack
