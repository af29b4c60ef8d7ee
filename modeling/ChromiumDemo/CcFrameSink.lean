import ChromiumDemo.TransitionSystem

/-! `DemoLayerTreeFrameSink` of demo_cc_gui and `OffscreenLayerTreeFrameSink` of
demo_cc_offscreen. The two differ only in `OnBeginFrame`, where the first one also
tells the client which frames were presented. `support_` outlives the binding and
the posted acks hold a weak pointer to the sink itself, so viz callbacks and ack
tasks may come at any time. A null `client_` or `external_begin_frame_source_`
that is dereferenced ends the process and stays recorded in `fault`. -/

namespace ChromiumDemo.CcFrameSink
open TransitionSystem

variable {κ R A T : Type*}

inductive Pointer
  | client
  | externalBeginFrameSource
deriving DecidableEq

inductive Call (R A T : Type*)
  | setBeginFrameSource (set : Bool)
  | reclaimResources (resources : List R)
  | didReceiveCompositorFrameAck
  | didPresentCompositorFrame (token : Nat) (details : T)
  | setLocalSurfaceId
  | onBeginFrame (args : A)
deriving DecidableEq

/-- `tasks` are the posted calls of `DidReceiveCompositorFrameAckInternal`. -/
structure FrameSink (κ R A T : Type*) where
  client : Option κ := none
  externalBeginFrameSource : Bool := false
  tasks : List (List R) := []
  calls : List (Call R A T) := []

structure Version where
  presentsFrames : Bool

def demo : Version := ⟨true⟩

def offscreen : Version := ⟨false⟩

def callClient (call : Call R A T) (s : FrameSink κ R A T) :
    Except Pointer (FrameSink κ R A T) :=
  if s.client.isSome then .ok { s with calls := s.calls ++ [call] } else .error .client

def callExternalBeginFrameSource (args : A) (s : FrameSink κ R A T) :
    Except Pointer (FrameSink κ R A T) :=
  if s.externalBeginFrameSource then .ok { s with calls := s.calls ++ [.onBeginFrame args] }
  else .error .externalBeginFrameSource

/-- `base` is the answer of `cc::LayerTreeFrameSink::BindToClient`. -/
def bindToClient (base : Bool) (client : κ) (s : FrameSink κ R A T) :
    Except Pointer (FrameSink κ R A T × Bool) :=
  if !base then .ok (s, false)
  else do
    let s ← callClient (.setBeginFrameSource true)
      { s with client := some client, externalBeginFrameSource := true }
    .ok (s, true)

def detachFromClient (s : FrameSink κ R A T) : Except Pointer (FrameSink κ R A T) := do
  let s ← callClient (.setBeginFrameSource false) s
  .ok { s with externalBeginFrameSource := false, client := none }

def didReceiveCompositorFrameAck (resources : List R) (s : FrameSink κ R A T) :
    FrameSink κ R A T :=
  { s with tasks := s.tasks ++ [resources] }

def didReceiveCompositorFrameAckInternal (resources : List R) (s : FrameSink κ R A T) :
    Except Pointer (FrameSink κ R A T) := do
  let s ← callClient (.reclaimResources resources) s
  callClient .didReceiveCompositorFrameAck s

/-- `activated` says whether the surface that `support_` activated last is the
root surface. The resources are not used. -/
def onBeginFrame (v : Version) (args : A) (timingDetails : List (Nat × T)) (activated : Bool)
    (_resources : List R) (s : FrameSink κ R A T) : Except Pointer (FrameSink κ R A T) := do
  let s ← if v.presentsFrames then
      timingDetails.foldlM (fun s pair => callClient (.didPresentCompositorFrame pair.1 pair.2) s) s
    else .ok s
  let s := if activated then s else { s with calls := s.calls ++ [.setLocalSurfaceId] }
  callExternalBeginFrameSource args s

def reclaimResources (_resources : List R) (s : FrameSink κ R A T) : FrameSink κ R A T := s

inductive Callback (R A T : Type*)
  | didReceiveCompositorFrameAck (resources : List R)
  | onBeginFrame (args : A) (timingDetails : List (Nat × T)) (activated : Bool)
      (resources : List R)
  | reclaimResources (resources : List R)

def handle (v : Version) (s : FrameSink κ R A T) :
    Callback R A T → Except Pointer (FrameSink κ R A T)
  | .didReceiveCompositorFrameAck resources => .ok (didReceiveCompositorFrameAck resources s)
  | .onBeginFrame args timingDetails activated resources =>
    onBeginFrame v args timingDetails activated resources s
  | .reclaimResources resources => .ok (reclaimResources resources s)

inductive Input (R A T : Type*)
  | callback (m : Callback R A T)
  | runTask

inductive Action (κ R A T : Type*)
  | bindToClient (base : Bool) (client : κ)
  | detachFromClient
  | input (i : Input R A T)

structure Process (κ R A T : Type*) where
  sink : FrameSink κ R A T := {}
  fault : Option Pointer := none

def Process.settle (p : Process κ R A T) :
    Except Pointer (FrameSink κ R A T) → Process κ R A T
  | .ok s => { p with sink := s }
  | .error pointer => { p with fault := some pointer }

def stepInput (v : Version) (p : Process κ R A T) : Input R A T → Option (Process κ R A T)
  | .callback m => some (p.settle (handle v p.sink m))
  | .runTask => match p.sink.tasks with
    | [] => none
    | resources :: tasks =>
      some (p.settle
        (didReceiveCompositorFrameAckInternal resources { p.sink with tasks := tasks }))

def stepAlive (v : Version) (p : Process κ R A T) : Action κ R A T → Option (Process κ R A T)
  | .bindToClient base client => some (p.settle ((bindToClient base client p.sink).map Prod.fst))
  | .detachFromClient => some (p.settle (detachFromClient p.sink))
  | .input i => stepInput v p i

def machine (v : Version) : Machine (Process κ R A T) (Action κ R A T) :=
  .haltOn (fun p => p.fault.isSome) (stepAlive v)

structure Bound (s : FrameSink κ R A T) (bound : Bool) : Prop where
  client : s.client.isSome = bound
  externalBeginFrameSource : s.externalBeginFrameSource = bound

section Specs
variable {s : FrameSink κ R A T}

theorem callClient_of_bound (h : s.client.isSome = true) (call : Call R A T) :
    callClient call s = .ok { s with calls := s.calls ++ [call] } := by
  rw [callClient, if_pos h]

theorem callClient_of_unbound (h : s.client.isSome = false) (call : Call R A T) :
    callClient call s = .error .client := by
  rw [callClient, h]
  rfl

def beginFrameCalls (v : Version) (args : A) (timingDetails : List (Nat × T)) (activated : Bool) :
    List (Call R A T) :=
  (if v.presentsFrames then
    timingDetails.map fun pair => .didPresentCompositorFrame pair.1 pair.2 else []) ++
  (if activated then [] else [.setLocalSurfaceId]) ++ [.onBeginFrame args]

theorem presented_of_bound (h : s.client.isSome = true) (timingDetails : List (Nat × T)) :
    timingDetails.foldlM (fun s pair => callClient (.didPresentCompositorFrame pair.1 pair.2) s) s =
      .ok { s with calls := s.calls ++
        timingDetails.map fun pair => .didPresentCompositorFrame pair.1 pair.2 } := by
  induction timingDetails generalizing s with
  | nil => simp [pure, Except.pure]
  | cons pair timingDetails ih =>
    rw [List.foldlM_cons, callClient_of_bound h]
    have rest :=
      ih (s := { s with calls := s.calls ++ [.didPresentCompositorFrame pair.1 pair.2] }) h
    simpa [bind, Except.bind] using rest

theorem presented_of_unbound (h : s.client.isSome = false) (timingDetails : List (Nat × T)) :
    timingDetails.foldlM (fun s pair => callClient (.didPresentCompositorFrame pair.1 pair.2) s) s =
      if timingDetails.isEmpty then .ok s else .error .client := by
  cases timingDetails with
  | nil => rfl
  | cons pair timingDetails =>
    rw [List.foldlM_cons, callClient_of_unbound h]
    rfl

theorem onBeginFrame_of_bound (h : Bound s true) (v : Version) (args : A)
    (timingDetails : List (Nat × T)) (activated : Bool) (resources : List R) :
    onBeginFrame v args timingDetails activated resources s =
      .ok { s with calls := s.calls ++ beginFrameCalls v args timingDetails activated } := by
  have source := h.externalBeginFrameSource
  cases presents : v.presentsFrames <;> cases activated <;>
    simp [onBeginFrame, presents, presented_of_bound h.client, callExternalBeginFrameSource,
      beginFrameCalls, source, bind, Except.bind]

theorem onBeginFrame_of_unbound (h : Bound s false) (v : Version) (args : A)
    (timingDetails : List (Nat × T)) (activated : Bool) (resources : List R) :
    ∃ pointer, onBeginFrame v args timingDetails activated resources s = .error pointer := by
  have source := h.externalBeginFrameSource
  cases presents : v.presentsFrames <;> cases activated <;> cases empty : timingDetails.isEmpty <;>
    simp [onBeginFrame, presents, presented_of_unbound h.client, callExternalBeginFrameSource,
      source, empty, bind, Except.bind]

theorem ackInternal_of_bound (h : s.client.isSome = true) (resources : List R) :
    didReceiveCompositorFrameAckInternal resources s =
      .ok { s with
        calls := s.calls ++ [.reclaimResources resources, .didReceiveCompositorFrameAck] } := by
  simp [didReceiveCompositorFrameAckInternal, callClient, h, bind, Except.bind]

theorem ackInternal_of_unbound (h : s.client.isSome = false) (resources : List R) :
    didReceiveCompositorFrameAckInternal resources s = .error .client := by
  rw [didReceiveCompositorFrameAckInternal, callClient_of_unbound h]
  rfl

end Specs

/-- The life of a sink as the order of events alone tells it: whether a bind that
succeeded is in force, and how many acks are waiting for their task. -/
structure Session where
  bound : Bool := false
  posted : Nat := 0

def Session.next (u : Session) : Action κ R A T → Session
  | .bindToClient base _ => { u with bound := u.bound || base }
  | .detachFromClient => { u with bound := false }
  | .input (.callback (.didReceiveCompositorFrameAck _)) => { u with posted := u.posted + 1 }
  | .input .runTask => { u with posted := u.posted - 1 }
  | .input (.callback _) => u

def Session.allows (u : Session) : Action κ R A T → Prop
  | .detachFromClient => u.bound = true
  | .input (.callback (.onBeginFrame _ _ _ _)) => u.bound = true
  | .input .runTask => 0 < u.posted → u.bound = true
  | .input (.callback _) => True
  | .bindToClient _ _ => True

def session : Monitor Session (Action κ R A T) := ⟨Session.allows, Session.next⟩

theorem Session.allows_of_bound {u : Session} (bound : u.bound = true) (a : Action κ R A T) :
    u.allows a := by
  unfold Session.allows
  split <;> simp [bound]

structure Follows (p : Process κ R A T) (u : Session) : Prop where
  fault : p.fault = none
  bound : Bound p.sink u.bound
  posted : p.sink.tasks.length = u.posted

theorem next_of_alive {p : Process κ R A T} (alive : p.fault = none) (v : Version)
    (a : Action κ R A T) : (machine v).next p a = (stepAlive v p a).getD p := by
  apply Machine.haltOn_next
  rw [alive, Option.isSome_none]

theorem follows_bindToClient {p : Process κ R A T} {u : Session} (h : Follows p u) (v : Version)
    (base : Bool) (client : κ) :
    Follows ((machine v).next p (.bindToClient base client))
      (u.next (.bindToClient base client : Action κ R A T)) := by
  rw [next_of_alive h.fault]
  cases base with
  | false =>
    rw [Session.next, Bool.or_false]
    exact ⟨h.fault, h.bound, h.posted⟩
  | true =>
    rw [Session.next, Bool.or_true]
    exact ⟨h.fault, ⟨rfl, rfl⟩, h.posted⟩

theorem follows_detach {p : Process κ R A T} {u : Session} (h : Follows p u)
    (bound : u.bound = true) (v : Version) :
    Follows ((machine v).next p .detachFromClient)
      (u.next (.detachFromClient : Action κ R A T)) := by
  have client := h.bound.client.trans bound
  rw [next_of_alive h.fault, stepAlive, detachFromClient, callClient_of_bound client]
  exact ⟨h.fault, ⟨rfl, rfl⟩, h.posted⟩

theorem follows_callback {p : Process κ R A T} {u : Session} (h : Follows p u) (v : Version)
    (m : Callback R A T) (allowed : u.allows (.input (.callback m) : Action κ R A T)) :
    Follows ((machine v).next p (.input (.callback m)))
      (u.next (.input (.callback m) : Action κ R A T)) := by
  rw [next_of_alive h.fault]
  cases m with
  | didReceiveCompositorFrameAck resources =>
    refine ⟨h.fault, ⟨h.bound.client, h.bound.externalBeginFrameSource⟩, ?_⟩
    have posted := h.posted
    simp only [stepAlive, stepInput, handle, Process.settle, didReceiveCompositorFrameAck,
      Option.getD_some, List.length_append, List.length_singleton, Session.next]
    omega
  | onBeginFrame args timingDetails activated resources =>
    have bound : Bound p.sink true := by
      have := h.bound
      rwa [show u.bound = true from allowed] at this
    simp only [stepAlive, stepInput, handle, onBeginFrame_of_bound bound]
    exact ⟨h.fault, ⟨h.bound.client, h.bound.externalBeginFrameSource⟩, h.posted⟩
  | reclaimResources resources => exact ⟨h.fault, h.bound, h.posted⟩

theorem follows_runTask {p : Process κ R A T} {u : Session} (h : Follows p u) (v : Version)
    (allowed : 0 < u.posted → u.bound = true) :
    Follows ((machine v).next p (.input .runTask)) (u.next (.input .runTask : Action κ R A T)) := by
  rw [next_of_alive h.fault]
  have posted := h.posted
  cases tasks : p.sink.tasks with
  | nil =>
    rw [tasks, List.length_nil] at posted
    simp only [stepAlive, stepInput, tasks, Option.getD_none, Session.next]
    refine ⟨h.fault, h.bound, ?_⟩
    rw [tasks, List.length_nil]
    exact (Nat.sub_eq_zero_of_le (by omega)).symm
  | cons resources rest =>
    rw [tasks, List.length_cons] at posted
    have bound := h.bound.client.trans (allowed (by omega))
    simp only [stepAlive, stepInput, tasks]
    rw [ackInternal_of_bound (s := { p.sink with tasks := rest }) bound]
    refine ⟨h.fault, ⟨h.bound.client, h.bound.externalBeginFrameSource⟩, ?_⟩
    simp only [Process.settle, Option.getD_some, Session.next]
    omega

theorem follows_next (v : Version) (p : Process κ R A T) (u : Session) (a : Action κ R A T)
    (h : Follows p u) (allowed : session.allows u a) :
    Follows ((machine v).next p a) (session.next u a) := by
  cases a with
  | bindToClient base client => exact follows_bindToClient h v base client
  | detachFromClient => exact follows_detach h allowed v
  | input i =>
    cases i with
    | callback m => exact follows_callback h v m allowed
    | runTask => exact follows_runTask h v allowed

theorem fault_of_refused (v : Version) (p : Process κ R A T) (u : Session) (a : Action κ R A T)
    (h : Follows p u) (refused : ¬ session.allows u a) : ((machine v).next p a).fault ≠ none := by
  have unbound : u.bound = false := by
    cases bound : u.bound with
    | false => rfl
    | true => exact absurd (Session.allows_of_bound bound a) refused
  have both := h.bound
  rw [unbound] at both
  rw [next_of_alive h.fault]
  cases a with
  | bindToClient base client => exact absurd trivial refused
  | detachFromClient =>
    rw [stepAlive, detachFromClient, callClient_of_unbound both.client]
    exact Option.some_ne_none _
  | input i =>
    cases i with
    | callback m =>
      cases m with
      | didReceiveCompositorFrameAck resources => exact absurd trivial refused
      | reclaimResources resources => exact absurd trivial refused
      | onBeginFrame args timingDetails activated resources =>
        obtain ⟨pointer, fault⟩ :=
          onBeginFrame_of_unbound both v args timingDetails activated resources
        simp only [stepAlive, stepInput, handle, fault]
        exact Option.some_ne_none _
    | runTask =>
      cases tasks : p.sink.tasks with
      | nil =>
        refine absurd (fun positive => ?_) refused
        have posted := h.posted
        rw [tasks, List.length_nil] at posted
        omega
      | cons resources rest =>
        simp only [stepAlive, stepInput, tasks]
        rw [ackInternal_of_unbound (s := { p.sink with tasks := rest }) both.client]
        exact Option.some_ne_none _

/-- No order of events dereferences a null pointer exactly if each `BeginFrame`,
each ack task and each detach comes while the sink is bound. -/
theorem never_null_iff (v : Version) (as : List (Action κ R A T)) :
    (∀ p ∈ (machine v).visited {} as, p.fault = none) ↔ session.Accepts {} as :=
  Machine.visited_iff_accepts (fun _ _ h => h.fault) (follows_next v) (fault_of_refused v)
    ⟨rfl, ⟨rfl, rfl⟩, rfl⟩ as

theorem ack_after_detach :
    ¬ ∀ p ∈ (machine demo).visited ({} : Process Unit Nat Nat Nat)
        [.bindToClient true (), .input (.callback (.didReceiveCompositorFrameAck [])),
          .detachFromClient, .input .runTask], p.fault = none := by
  decide

end ChromiumDemo.CcFrameSink
