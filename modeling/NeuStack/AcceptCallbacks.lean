import NeuStack.GuardedRun
import NeuStack.StreamLayer
import NeuStack.Table

/-! # A `listen()` that fails

`TCPLayer::listen` stores the callback before the manager decides, and takes the port out of
the map again when it refuses.  What was stored under the port is then gone: a second
`listen()` on a port leaves the listener there, but connections to it are not accepted any
more (`accept_lost`).  So a `listen()` that fails changes nothing exactly if there was
nothing to lose.
-/
namespace NeuStack

namespace LayerMaps

/-- The manager refuses. -/
def ListenFails (b : LayerMaps) (port : UInt16) : Prop := port = 0 ∨ port ∈ b.listening

/-- Equal, except that closures have been made which nothing refers to. -/
structure Unaffected (b b' : LayerMaps) : Prop where
  acceptCallbacks : b'.acceptCallbacks = b.acceptCallbacks
  connections : b'.connections = b.connections
  callbacks : b'.callbacks = b.callbacks
  log : b'.log = b.log
  hooks : b.hooks <+: b'.hooks

variable {b : LayerMaps} {port : UInt16}

theorem listen_failed (h : b.ListenFails port) (onAccept : Callback) :
    b.listen port onAccept = { b with
      acceptCallbacks := b.acceptCallbacks.filter (·.1 ≠ port)
      hooks := b.hooks ++ [.accept port] } :=
  if_pos h

/-- **A `listen()` that fails takes a stored callback away.** -/
theorem unaffected_listen_iff (h : b.ListenFails port) (onAccept : Callback) :
    b.Unaffected (b.listen port onAccept) ↔ b.acceptCallbacks.lookup port = none := by
  rw [listen_failed h]
  constructor
  · intro hsame
    rw [← hsame.acceptCallbacks, Table.lookup_erase]
    exact if_pos rfl
  · intro hnone
    refine ⟨?_, rfl, rfl, rfl, List.prefix_append ..⟩
    refine List.filter_eq_self.mpr fun e he => decide_eq_true fun heq => ?_
    exact Table.lookup_eq_none hnone (List.mem_map.mpr ⟨e, he, heq⟩)

/-- The connections that come in later are not accepted. -/
theorem accept_lost (h : b.ListenFails port) (onAccept : Callback) (app : Application) (p : Ptr) :
    (b.listen port onAccept).accept app port p = (b.listen port onAccept, []) := by
  have hnone : (b.listen port onAccept).acceptCallbacks.lookup port = none := by
    rw [listen_failed h, Table.lookup_erase]
    exact if_pos rfl
  rw [accept, hnone]

end LayerMaps

namespace TCPLayer
variable {σ : Type}

/-- `listen()` returns a negative value. -/
def ListenFails (l : TCPLayer σ) (port : UInt16) : Prop :=
  port = 0 ∨ (l.mgr.findListeningTcb port).isSome = true

/-- The manager is as before, and so are the members of the layer. -/
structure Unaffected (l l' : TCPLayer σ) : Prop where
  mgr : l'.mgr = l.mgr
  maps : l.maps.Unaffected l'.maps

variable [ICongestionControl σ] {l : TCPLayer σ} {port : UInt16}

omit [ICongestionControl σ] in
theorem ListenFails.maps (h : l.ListenFails port) :
    ({ l.maps with listening := l.mgr.listeners.map (·.1) } : LayerMaps).ListenFails port := by
  refine h.imp id fun hsome => ?_
  obtain ⟨p, hp⟩ := Option.isSome_iff_exists.mp hsome
  exact List.mem_map.mpr ⟨_, Table.mem_of_lookup hp, rfl⟩

omit [ICongestionControl σ] in
theorem listen_refused (h : l.ListenFails port) (onAccept : Option Callback) :
    l.mgr.listen port onAccept = l.mgr := by
  rw [TCPConnectionManager.listen]
  rcases h with hzero | hsome
  · exact if_pos hzero
  · rw [if_pos hsome, ite_self]

/-- The step that such a `listen()` is. -/
theorem step_listen (h : l.ListenFails port) (env : Env) (app : Application)
    (onAccept : Callback) : l.step ⟨env, app, .call (.listen port onAccept)⟩ =
      { mgr := l.mgr
        maps := ({ l.maps with listening := l.mgr.listeners.map (·.1) } : LayerMaps).listen port
          onAccept } := by
  have hmgr : l.mgr.step (l.input ⟨env, app, .call (.listen port onAccept)⟩) = l.mgr :=
    listen_refused h _
  rw [step, hmgr, Session.mapsAt]
  have hnone : l.mgr.trace.drop
      (l.start ⟨env, app, .call (.listen port onAccept)⟩).1.start = [] := List.drop_length
  rw [hnone]
  rfl

theorem unaffected_step_iff (h : l.ListenFails port) (env : Env) (app : Application)
    (onAccept : Callback) :
    l.Unaffected (l.step ⟨env, app, .call (.listen port onAccept)⟩) ↔
      l.maps.acceptCallbacks.lookup port = none := by
  rw [step_listen h]
  have hiff := LayerMaps.unaffected_listen_iff h.maps onAccept
  constructor
  · rintro ⟨-, haccept, hconnections, hcallbacks, hlog, hhooks⟩
    exact hiff.mp ⟨haccept, hconnections, hcallbacks, hlog, hhooks⟩
  · intro hnone
    obtain ⟨haccept, hconnections, hcallbacks, hlog, hhooks⟩ := hiff.mpr hnone
    exact ⟨rfl, haccept, hconnections, hcallbacks, hlog, hhooks⟩

/-- **A `listen()` that fails changes nothing exactly if no callback is stored for the
port**, in every run of the layer; and wherever the application makes it from a callback. -/
theorem listen_unaffected_iff (localIp : UInt32) (xs : List StreamInput) :
    (GuardedRun.Meets step (fun (l : TCPLayer σ) x => ∀ port onAccept,
        x.op = .call (.listen port onAccept) → l.ListenFails port → l.Unaffected (l.step x))
      (init localIp) xs ↔
    GuardedRun.Meets step (fun (l : TCPLayer σ) x => ∀ port onAccept,
        x.op = .call (.listen port onAccept) → l.ListenFails port →
          l.maps.acceptCallbacks.lookup port = none)
      (init localIp) xs) ∧
    ∀ (b : LayerMaps) (port : UInt16) (onAccept : Callback), b.ListenFails port →
      (b.Unaffected (b.make (.listen port onAccept)).1 ↔
        b.acceptCallbacks.lookup port = none) := by
  refine ⟨GuardedRun.meets_congr (Q := fun _ => True) (fun _ _ _ => trivial)
    (fun l x _ => ?_) trivial xs, fun b port onAccept h => LayerMaps.unaffected_listen_iff h _⟩
  obtain ⟨env, app, op⟩ := x
  refine forall_congr' fun port => forall_congr' fun onAccept => ⟨?_, ?_⟩
  · rintro hsame rfl hfails
    exact (unaffected_step_iff hfails env app onAccept).mp (hsame rfl hfails)
  · rintro hnone rfl hfails
    exact (unaffected_step_iff hfails env app onAccept).mpr (hnone rfl hfails)

/-! ## A second listener -/

/-- An application that does nothing, and is offered a port twice. -/
def listenTwice : List StreamInput :=
  [⟨(Context.silent 0 0 : Context (TCPCubic Unit)).toEnv, fun _ _ => {}, .call (.listen 80 1)⟩,
    ⟨(Context.silent 0 0 : Context (TCPCubic Unit)).toEnv, fun _ _ => {}, .call (.listen 80 2)⟩]

/-- **The second `listen()` deafens the first.** -/
theorem deafened :
    ¬ GuardedRun.Meets step (fun (l : TCPLayer (TCPCubic Unit)) x => ∀ port onAccept,
        x.op = .call (.listen port onAccept) → l.ListenFails port → l.Unaffected (l.step x))
      (init 0x0a000001) listenTwice := by
  rintro ⟨-, hsecond, -⟩
  have hsame := hsecond 80 2 rfl (Or.inr rfl)
  have hlost := congrArg (List.lookup 80) hsame.maps.acceptCallbacks
  exact absurd hlost (by decide)

end TCPLayer
end NeuStack
