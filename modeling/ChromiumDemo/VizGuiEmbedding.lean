import ChromiumDemo.VizGuiStartup
import Mathlib.Data.List.Induction
import Mathlib.Tactic.IntervalCases

/-! `Compositor` of demo_viz_gui and its two clients. The compositor thread runs
`InitializeOnThread` and in it `EmbedChildClient`, while the root client may already
submit frames. They travel on the pipe of the frame sink manager, those of the child
on a pipe of its own. -/

namespace ChromiumDemo.VizGuiEmbedding
open TransitionSystem LeaseLedger ReleaseTable CompositorFrames VizGuiClient VizGuiStartup

variable {A F : Type*} {T : Implementation SharedImage}

/-- A message on the pipe of the frame sink manager, which `display_private_` and the
frame sink of the root client share. `F` is what is kept of a frame. -/
inductive Call (F : Type*)
  | registerFrameSinkId (frameSinkId : Nat)
  | createRootCompositorFrameSink (frameSinkId : Nat)
  | resize
  | setDisplayVisible (visible : Bool)
  | registerFrameSinkHierarchy (parent child : Nat)
  | createCompositorFrameSink (frameSinkId : Nat)
  | setNeedsBeginFrame (needs : Bool)
  | submitCompositorFrame (localSurfaceId : Nat) (frame : F)
deriving DecidableEq

abbrev Frame (A : Type*) := CompositorFrame A SharedImage

structure ClientSink (T : Implementation SharedImage) (A : Type*) where
  frameSinkId : Nat
  localSurfaceId : Nat
  host : Host T A := {}

inductive Statement
  | registerRoot
  | createRootCompositorFrameSink
  | resize
  | setDisplayVisible
  | bindRootClient
  | registerChild
  | registerFrameSinkHierarchy
  | createCompositorFrameSink
  | embedChild
  | bindChildClient
deriving DecidableEq

/-- `InitializeOnThread`, in the steps that other threads can tell apart. The last five
are those of `EmbedChildClient`. -/
def initializeOnThread : List Statement :=
  [.registerRoot, .createRootCompositorFrameSink, .resize, .setDisplayVisible, .bindRootClient,
    .registerChild, .registerFrameSinkHierarchy, .createCompositorFrameSink, .embedChild,
    .bindChildClient]

/-- `frameSinkId` and `childLocalSurfaceId` are the variables of `EmbedChildClient`. -/
structure Compositor (T : Implementation SharedImage) (A : Type*) where
  done : Nat := 0
  frameSinkIdAllocator : Nat := 0
  localSurfaceIdAllocator : Nat := 0
  rootFrameSinkId : Nat := 0
  frameSinkId : Nat := 0
  childLocalSurfaceId : Nat := 0
  rootClient : Option (ClientSink T A) := none
  childClient : Option (ClientSink T A) := none
  pipe : List (Call (Frame A)) := []

def Compositor.send (call : Call (Frame A)) (c : Compositor T A) : Compositor T A :=
  { c with pipe := c.pipe ++ [call] }

def bound (frameSinkId localSurfaceId : Nat) : Option (ClientSink T A) :=
  (VizGuiStartup.step {} .initializeOnThread).map fun host =>
    { frameSinkId, localSurfaceId, host }

def fresh : Host T A := { initialized := true, requests := 1, tasks := [.bindOnThread] }

def execute (c : Compositor T A) : Statement → Option (Compositor T A)
  | .registerRoot =>
    let next := c.frameSinkIdAllocator + 1
    some <| .send (.registerFrameSinkId next)
      { c with frameSinkIdAllocator := next, rootFrameSinkId := next }
  | .createRootCompositorFrameSink =>
    some <| c.send (.createRootCompositorFrameSink c.rootFrameSinkId)
  | .resize => some <| c.send .resize
  | .setDisplayVisible => some <| c.send (.setDisplayVisible true)
  | .bindRootClient =>
    let current := c.localSurfaceIdAllocator + 1
    some { c with
      localSurfaceIdAllocator := current
      rootClient := bound c.rootFrameSinkId current }
  | .registerChild =>
    let next := c.frameSinkIdAllocator + 1
    some <| .send (.registerFrameSinkId next)
      { c with frameSinkIdAllocator := next, frameSinkId := next }
  | .registerFrameSinkHierarchy =>
    some <| c.send (.registerFrameSinkHierarchy c.rootFrameSinkId c.frameSinkId)
  | .createCompositorFrameSink => some <| c.send (.createCompositorFrameSink c.frameSinkId)
  | .embedChild => c.rootClient.bind fun root =>
    (VizGuiStartup.step root.host (.embedChild c.frameSinkId)).map fun host =>
      { c with
        rootClient := some { root with host }
        childLocalSurfaceId := host.client.sink.localSurfaceId }
  | .bindChildClient => some { c with childClient := bound c.frameSinkId c.childLocalSurfaceId }

def sent (localSurfaceId : Nat) (h : Host T A) : VizGuiStartup.Action A → Host T A →
    List (Call (Frame A))
  | .runTask, _ =>
    if h.tasks.head? = some .bindOnThread then [.setNeedsBeginFrame true] else []
  | _, h' => (h'.client.sink.viz.frames.drop h.client.sink.viz.frames.length).map
      (.submitCompositorFrame localSurfaceId)

def OfClient : VizGuiStartup.Action A → Bool
  | .initializeOnThread => false
  | .embedChild _ => false
  | _ => true

def ClientSink.step (client : ClientSink T A) (a : VizGuiStartup.Action A) :
    Option (ClientSink T A) :=
  if OfClient a then
    ((VizGuiStartup.machine T).step client.host a).map fun host => { client with host }
  else none

inductive Action (A : Type*)
  | compositor
  | root (a : VizGuiStartup.Action A)
  | child (a : VizGuiStartup.Action A)

def step (c : Compositor T A) : Action A → Option (Compositor T A)
  | .compositor => initializeOnThread[c.done]?.bind fun statement =>
    (execute c statement).map fun d => { d with done := c.done + 1 }
  | .root a => c.rootClient.bind fun client => (client.step a).map fun client' =>
    { c with
      rootClient := some client'
      pipe := c.pipe ++ sent client.localSurfaceId client.host a client'.host }
  | .child a => c.childClient.bind fun client => (client.step a).map fun client' =>
    { c with childClient := some client' }

def ClientSink.crashed (client : ClientSink T A) : Bool := client.host.client.fault.isSome

/-- The clients are threads of one process. -/
def crashed (c : Compositor T A) : Bool :=
  c.rootClient.any ClientSink.crashed || c.childClient.any ClientSink.crashed

def machine (T : Implementation SharedImage) : Machine (Compositor T A) (Action A) :=
  .haltOn crashed step

def shown : DrawQuad → Option (Nat × Nat)
  | .surface frameSinkId localSurfaceId => some (frameSinkId, localSurfaceId)
  | _ => none

def surfaces (frame : Frame A) : List (Nat × Nat) := frame.quads.filterMap shown

def embedded (s : LayerTreeFrameSink T A) : List (Nat × Nat) :=
  (appendSurfaceDrawQuad s).filterMap shown

structure Keeps (s s' : LayerTreeFrameSink T A) : Prop where
  child : s'.childFrameSinkId = s.childFrameSinkId
  surface : s'.localSurfaceId = s.localSurfaceId
  provider : s'.sharedImageInterfaceProvider = s.sharedImageInterfaceProvider
  viz : s'.viz = s.viz

theorem Keeps.trans {s s' s'' : LayerTreeFrameSink T A} (h : Keeps s s') (h' : Keeps s' s'') :
    Keeps s s'' :=
  ⟨h'.child.trans h.child, h'.surface.trans h.surface, h'.provider.trans h.provider,
    h'.viz.trans h.viz⟩

theorem keeps_allocate {answer : Bool} {source : List Nat} {s s' : LayerTreeFrameSink T A}
    {id : Nat} (h : allocateAndFillSoftwareResource answer source s = .ok (id, s')) :
    Keeps s s' := by
  unfold allocateAndFillSoftwareResource at h
  split at h
  · cases h
    exact ⟨rfl, rfl, rfl, rfl⟩
  split at h
  · cases h
    exact ⟨rfl, rfl, rfl, rfl⟩
  split at h
  · cases h
  · cases h
    exact ⟨rfl, rfl, rfl, rfl⟩

theorem keeps_prepare {id : Nat} {frame frame' : Frame A} {s s' : LayerTreeFrameSink T A}
    (h : prepareSendToParent id frame s = .ok (frame', s')) :
    Keeps s s' ∧ frame'.quads = frame.quads := by
  unfold prepareSendToParent at h
  split at h
  · cases h
  split at h
  · cases h
  · cases h
    exact ⟨⟨rfl, rfl, rfl, rfl⟩, rfl⟩

theorem keeps_append {quad : Nat → DrawQuad} {circles : List Nat} {answer : Bool}
    {frame frame' : Frame A} {s s' : LayerTreeFrameSink T A}
    (h : appendResourceDrawQuad quad circles answer frame s = .ok (frame', s')) :
    Keeps s s' ∧ ∃ id, frame'.quads = frame.quads ++ [quad id] := by
  simp only [appendResourceDrawQuad, bind, Except.bind] at h
  split at h
  · cases h
  next allocation allocated =>
  obtain ⟨kept, quads⟩ := keeps_prepare h
  exact ⟨(keeps_allocate allocated).trans kept, allocation.1, quads⟩

theorem onBeginFrame_shows {args : A} {tile texture : Bool} {resources : List Returned}
    {s s' : LayerTreeFrameSink T A} (h : onBeginFrame args tile texture resources s = .ok s') :
    ∃ frame, surfaces frame = embedded s ∧ Keeps s { s' with viz := s.viz } ∧
      s'.viz = s.viz.submitCompositorFrame frame := by
  simp only [onBeginFrame, createFrame, appendTileDrawQuad, appendTextureDrawQuad, bind,
    Except.bind] at h
  split at h
  · cases h
  next created createdOk =>
  split at createdOk
  · cases createdOk
  next first firstOk =>
  split at createdOk
  · cases createdOk
  next second secondOk =>
  cases createdOk
  cases h
  obtain ⟨kept, i, tileQuads⟩ := keeps_append firstOk
  obtain ⟨kept', j, textureQuads⟩ := keeps_append secondOk
  have both := kept.trans kept'
  refine ⟨_, ?_, ⟨both.child, both.surface, both.provider, rfl⟩, by rw [both.viz]⟩
  simp only [surfaces, textureQuads, tileQuads, embedded]
  simp [List.filterMap_cons, shown]

def pending (h : Host T A) : Nat := h.tasks.count .bindOnThread

def asks (h : Host T A) : Bool := h.client.sink.viz.needsBeginFrame

def frames (h : Host T A) : List (Frame A) := h.client.sink.viz.frames

inductive Writes (localSurfaceId : Nat) (h h' : Host T A) : List (Call (Frame A)) → Prop
  | nothing : frames h' = frames h → asks h' = asks h → pending h' = pending h →
      Writes localSurfaceId h h' []
  | asking : frames h' = frames h → asks h' = true → pending h = pending h' + 1 →
      Writes localSurfaceId h h' [.setNeedsBeginFrame true]
  | frame (frame : Frame A) : surfaces frame = embedded h.client.sink →
      frames h' = frames h ++ [frame] → asks h = true → asks h' = true → pending h' = pending h →
      Writes localSurfaceId h h' [.submitCompositorFrame localSurfaceId frame]

structure ClientStep (localSurfaceId : Nat) (h : Host T A) (a : VizGuiStartup.Action A)
    (h' : Host T A) : Prop where
  child : h'.client.sink.childFrameSinkId = h.client.sink.childFrameSinkId
  surface : h'.client.sink.localSurfaceId = h.client.sink.localSurfaceId
  writes : Writes localSurfaceId h h' (sent localSurfaceId h a h')

theorem sent_frames (localSurfaceId : Nat) {h h' : Host T A} {a : VizGuiStartup.Action A}
    (other : a ≠ .runTask) {l : List (Frame A)} (same : frames h' = frames h ++ l) :
    sent localSurfaceId h a h' = l.map (.submitCompositorFrame localSurfaceId) := by
  have new : (frames h').drop (frames h).length = l := by
    rw [same, List.drop_left]
  rw [sent]
  · exact congrArg _ new
  · exact other

theorem clientStep_quiet (localSurfaceId : Nat) {h h' : Host T A} {a : VizGuiStartup.Action A}
    (other : a ≠ .runTask)
    (child : h'.client.sink.childFrameSinkId = h.client.sink.childFrameSinkId)
    (surface : h'.client.sink.localSurfaceId = h.client.sink.localSurfaceId)
    (same : frames h' = frames h) (still : asks h' = asks h) (posted : pending h' = pending h) :
    ClientStep localSurfaceId h a h' := by
  refine ⟨child, surface, ?_⟩
  rw [sent_frames localSurfaceId other (l := []) (by rw [same, List.append_nil])]
  exact .nothing same still posted

theorem clientStep_message (localSurfaceId : Nat) {h : Host T A} {m : Message A}
    {client : Client T A} (received : receive h.client m = some client) :
    ClientStep localSurfaceId h (.message m) { h with client := client } := by
  have other : VizGuiStartup.Action.message m ≠ .runTask := fun same => by cases same
  obtain ⟨-, needs, -, rfl⟩ := receive_cases received
  cases run : handle m (returned m.resources h.client.sink) with
  | error fault => exact clientStep_quiet localSurfaceId other rfl rfl rfl rfl rfl
  | ok s' =>
    cases m with
    | didReceiveCompositorFrameAck resources =>
      cases run
      exact clientStep_quiet localSurfaceId other rfl rfl rfl rfl rfl
    | reclaimResources resources =>
      simp only [handle, VizGuiClient.reclaimResources] at run
      split at run
      · cases run
      · cases run
        exact clientStep_quiet localSurfaceId other rfl rfl rfl rfl rfl
    | onBeginFrame args tile texture resources =>
      rw [handle] at run
      obtain ⟨frame, shows, kept, viz⟩ := onBeginFrame_shows run
      have added : frames { h with
          client := .settle (returned resources h.client.sink) (.ok s') } =
          frames h ++ [frame] := by
        rw [frames, Client.settle, viz]
        rfl
      have still : s'.viz.needsBeginFrame = true := by
        rw [viz]
        exact needs
      refine ⟨kept.child, kept.surface, ?_⟩
      rw [Message.resources, sent_frames localSurfaceId other added]
      exact .frame frame shows added needs still rfl

theorem clientStep (localSurfaceId : Nat) {h h' : Host T A} {a : VizGuiStartup.Action A}
    (own : OfClient a = true) (taken : (VizGuiStartup.machine T).step h a = some h') :
    ClientStep localSurfaceId h a h' := by
  have stepped := (Machine.step_of_haltOn taken).2
  cases a with
  | initializeOnThread => cases own
  | embedChild => cases own
  | serveRequest =>
    simp only [VizGuiStartup.step] at stepped
    split at stepped
    · cases stepped
    cases stepped
    have posted : (h.tasks ++ [ClientTask.bindSharedImageInterfaceProvider]).count
        ClientTask.bindOnThread = h.tasks.count ClientTask.bindOnThread := by
      simp [List.count_append]
    exact clientStep_quiet localSurfaceId (fun same => by cases same) rfl rfl rfl rfl posted
  | runTask =>
    simp only [VizGuiStartup.step] at stepped
    split at stepped
    · cases stepped
    next task tasks queue =>
    cases stepped
    cases task with
    | bindOnThread =>
      refine ⟨rfl, rfl, ?_⟩
      rw [sent, queue, List.head?_cons, if_pos rfl]
      refine .asking rfl rfl ?_
      rw [pending, queue, List.count_cons_self]
      rfl
    | bindSharedImageInterfaceProvider =>
      refine ⟨rfl, rfl, ?_⟩
      rw [sent, queue, List.head?_cons, if_neg (by simp)]
      refine .nothing rfl rfl ?_
      rw [pending, pending, queue, List.count_cons_of_ne (by simp)]
  | message m =>
    obtain ⟨client, received, rfl⟩ := Option.map_eq_some_iff.mp stepped
    exact clientStep_message localSurfaceId received

def Call.map {G : Type*} (f : F → G) : Call F → Call G
  | .registerFrameSinkId frameSinkId => .registerFrameSinkId frameSinkId
  | .createRootCompositorFrameSink frameSinkId => .createRootCompositorFrameSink frameSinkId
  | .resize => .resize
  | .setDisplayVisible visible => .setDisplayVisible visible
  | .registerFrameSinkHierarchy parent child => .registerFrameSinkHierarchy parent child
  | .createCompositorFrameSink frameSinkId => .createCompositorFrameSink frameSinkId
  | .setNeedsBeginFrame needs => .setNeedsBeginFrame needs
  | .submitCompositorFrame localSurfaceId frame => .submitCompositorFrame localSurfaceId (f frame)

def log (c : Compositor T A) : List (Call (List (Nat × Nat))) := c.pipe.map (Call.map surfaces)

def ownCalls : List (Call (List (Nat × Nat))) :=
  [.registerFrameSinkId 1, .createRootCompositorFrameSink 1, .resize, .setDisplayVisible true,
    .registerFrameSinkId 2, .registerFrameSinkHierarchy 1 2, .createCompositorFrameSink 2]

structure Seen where
  calls : Nat := 0
  asked : Bool := false
  showing : Bool := false

/-- The root client asks for frames once, behind the call that creates its frame sink
and those that follow at once, and submits frames behind that. They show no surface up
to some moment after all seven calls, and from then on the surface of the child. -/
def protocol : Monitor Seen (Call (List (Nat × Nat))) where
  allows u
    | .setNeedsBeginFrame needs => needs = true ∧ 4 ≤ u.calls ∧ u.asked = false
    | .submitCompositorFrame localSurfaceId shows => localSurfaceId = 1 ∧ u.asked = true ∧
        (shows = [] ∧ u.showing = false ∨ shows = [(2, 1)] ∧ u.calls = 7)
    | call => ownCalls[u.calls]? = some call
  next u
    | .setNeedsBeginFrame _ => { u with asked := true }
    | .submitCompositorFrame _ shows => { u with showing := !shows.isEmpty }
    | _ => { u with calls := u.calls + 1 }

def Own (call : Call (List (Nat × Nat))) : Prop := ∀ u,
  protocol.allows u call = (ownCalls[u.calls]? = some call) ∧
    protocol.next u call = { u with calls := u.calls + 1 }

def issued (n : Nat) : Nat := if n ≤ 4 then n else if n ≤ 8 then n - 1 else 7

def Compositor.locals (c : Compositor T A) : List Nat :=
  [c.frameSinkIdAllocator, c.rootFrameSinkId, c.frameSinkId, c.localSurfaceIdAllocator,
    c.childLocalSurfaceId]

def localsAt (n : Nat) : List Nat :=
  if n = 0 then [0, 0, 0, 0, 0]
  else if n ≤ 4 then [1, 1, 0, 0, 0]
  else if n = 5 then [1, 1, 0, 1, 0]
  else if n ≤ 8 then [2, 1, 2, 1, 0]
  else [2, 1, 2, 1, 1]

structure RootAt (n : Nat) (u : Seen) (h : Host T A) : Prop where
  asked : asks h = u.asked
  once : pending h + (if u.asked then 1 else 0) = 1
  child : h.client.sink.childFrameSinkId = if 9 ≤ n then some 2 else none
  surface : h.client.sink.localSurfaceId = if 9 ≤ n then 1 else 0
  displays : ∀ frame ∈ frames h, surfaces frame = [] ∨ surfaces frame = [(2, 1)]

structure ChildAt (h : Host T A) : Prop where
  leaf : h.client.sink.childFrameSinkId = none
  displays : ∀ frame ∈ frames h, surfaces frame = []

structure Follows (c : Compositor T A) (u : Seen) : Prop where
  stage : c.done ≤ 10
  calls : u.calls = issued c.done
  locals : c.locals = localsAt c.done
  showing : u.showing = true → 9 ≤ c.done
  early : c.done < 5 → c.rootClient = none ∧ u.asked = false
  root : 5 ≤ c.done → ∃ h, c.rootClient = some ⟨1, 1, h⟩ ∧ RootAt c.done u h
  childless : c.done < 10 → c.childClient = none
  child : c.done = 10 → ∃ h, c.childClient = some ⟨2, 1, h⟩ ∧ ChildAt h

theorem RootAt.embedded {n : Nat} {u : Seen} {h : Host T A} (root : RootAt n u h) :
    embedded h.client.sink = if 9 ≤ n then [(2, 1)] else [] := by
  rw [VizGuiEmbedding.embedded, appendSurfaceDrawQuad, root.child, root.surface]
  by_cases late : 9 ≤ n
  · rw [if_pos late, if_pos late, if_pos late]
    rfl
  · rw [if_neg late, if_neg late, if_neg late]
    rfl

theorem Follows.setRoot {c : Compositor T A} {u v : Seen} (follows : Follows c u)
    (late : 5 ≤ c.done) (calls : v.calls = u.calls) {h : Host T A} (root : RootAt c.done v h)
    (showing : v.showing = true → 9 ≤ c.done) (pipe : List (Call (Frame A))) :
    Follows { c with rootClient := some ⟨1, 1, h⟩, pipe := pipe } v where
  stage := follows.stage
  calls := calls.trans follows.calls
  locals := follows.locals
  showing := showing
  early := fun early => by
    change c.done < 5 at early
    omega
  root := fun _ => ⟨h, rfl, root⟩
  childless := follows.childless
  child := follows.child

def Logs (c : Compositor T A) (u : Seen) (d : Compositor T A) : Prop :=
  ∃ es, log d = log c ++ es ∧ protocol.Accepts u es ∧ Follows d (es.foldl protocol.next u)

theorem logs_root {c : Compositor T A} {u : Seen} (follows : Follows c u)
    {a : VizGuiStartup.Action A} {d : Compositor T A} (moved : step c (.root a) = some d) :
    Logs c u d := by
  obtain ⟨client, there, moved⟩ := Option.bind_eq_some_iff.mp moved
  obtain ⟨client', stepped, rfl⟩ := Option.map_eq_some_iff.mp moved
  obtain ⟨own, stepped⟩ := Option.ite_none_right_eq_some.mp stepped
  obtain ⟨h', taken, rfl⟩ := Option.map_eq_some_iff.mp stepped
  have late : 5 ≤ c.done := by
    by_contra early
    rw [(follows.early (by omega)).1] at there
    cases there
  obtain ⟨h, known, root⟩ := follows.root late
  obtain rfl := Option.some.inj (known.symm.trans there)
  obtain ⟨child, surface, writes⟩ := clientStep 1 own taken
  have once := root.once
  generalize written : sent 1 h a h' = calls at writes
  refine ⟨calls.map (Call.map surfaces), ?_, ?_⟩
  · rw [← written]
    exact List.map_append
  · have child' := child.trans root.child
    have surface' := surface.trans root.surface
    cases writes with
    | nothing same still posted =>
      refine ⟨trivial, follows.setRoot late rfl ⟨still.trans root.asked, ?_, child', surface', ?_⟩
        follows.showing _⟩
      · rw [posted]
        exact once
      · rw [same]
        exact root.displays
    | asking same asks' posted =>
      change pending h = pending h' + 1 at posted
      have unasked : u.asked = false := by
        cases asked : u.asked with
        | false => rfl
        | true =>
          rw [asked, if_pos rfl] at once
          omega
      have calls : 4 ≤ u.calls := by
        rw [follows.calls, issued]
        split <;> [omega; split] <;> omega
      refine ⟨⟨⟨rfl, calls, unasked⟩, trivial⟩, ?_⟩
      refine follows.setRoot (v := { u with asked := true }) late rfl
        ⟨asks', ?_, child', surface', ?_⟩ follows.showing _
      · rw [unasked, if_neg Bool.false_ne_true] at once
        rw [if_pos rfl]
        omega
      · rw [same]
        exact root.displays
    | frame frame shows same asks₀ asks' posted =>
      have asked : u.asked = true := root.asked.symm.trans asks₀
      rw [root.embedded] at shows
      have displays : ∀ f ∈ frames h', surfaces f = [] ∨ surfaces f = [(2, 1)] := by
        rw [same]
        intro f member
        rcases List.mem_append.mp member with old | new
        · exact root.displays f old
        · rw [List.mem_singleton.mp new, shows]
          split
          · exact .inr rfl
          · exact .inl rfl
      have allowed : surfaces frame = [] ∧ u.showing = false ∨
          surfaces frame = [(2, 1)] ∧ u.calls = 7 := by
        by_cases last : 9 ≤ c.done
        · rw [if_pos last] at shows
          refine .inr ⟨shows, ?_⟩
          rw [follows.calls, issued, if_neg (by omega), if_neg (by omega)]
        · rw [if_neg last] at shows
          exact .inl ⟨shows, Bool.eq_false_iff.mpr fun showing => last (follows.showing showing)⟩
      refine ⟨⟨⟨rfl, asked, allowed⟩, trivial⟩, ?_⟩
      refine follows.setRoot (v := { u with showing := !(surfaces frame).isEmpty }) late rfl
        ⟨asks'.trans asked.symm, ?_, child', surface', displays⟩ ?_ _
      · rw [posted]
        exact once
      · intro showing
        by_contra early
        rw [if_neg early] at shows
        simp [shows] at showing

theorem logs_child {c : Compositor T A} {u : Seen} (follows : Follows c u)
    {a : VizGuiStartup.Action A} {d : Compositor T A} (moved : step c (.child a) = some d) :
    Logs c u d := by
  obtain ⟨client, there, moved⟩ := Option.bind_eq_some_iff.mp moved
  obtain ⟨client', stepped, rfl⟩ := Option.map_eq_some_iff.mp moved
  obtain ⟨own, stepped⟩ := Option.ite_none_right_eq_some.mp stepped
  obtain ⟨h', taken, rfl⟩ := Option.map_eq_some_iff.mp stepped
  have last : c.done = 10 := by
    have stage := follows.stage
    by_contra early
    rw [follows.childless (by omega)] at there
    cases there
  obtain ⟨h, known, child⟩ := follows.child last
  obtain rfl := Option.some.inj (known.symm.trans there)
  obtain ⟨leaf, -, writes⟩ := clientStep 1 own taken
  have none_embedded : embedded h.client.sink = [] := by
    rw [embedded, appendSurfaceDrawQuad, child.leaf]
    rfl
  have displays : ∀ frame ∈ frames h', surfaces frame = [] := by
    generalize sent 1 _ a h' = calls at writes
    cases writes with
    | nothing same still posted =>
      rw [same]
      exact child.displays
    | asking same asks' posted =>
      rw [same]
      exact child.displays
    | frame frame shows same asks₀ asks' posted =>
      rw [same]
      intro f member
      rcases List.mem_append.mp member with old | new
      · exact child.displays f old
      · rw [List.mem_singleton.mp new, shows]
        exact none_embedded
  refine ⟨[], (List.append_nil _).symm, trivial, ?_⟩
  exact { follows with
    childless := fun early => by
      change c.done < 10 at early
      omega
    child := fun _ => ⟨h', rfl, leaf.trans child.leaf, displays⟩ }

theorem logs_call {c d : Compositor T A} {u : Seen} (follows : Follows c u)
    (other : c.done ≠ 4 ∧ c.done < 8) {call : Call (Frame A)}
    (next : ownCalls[issued c.done]? = some (call.map surfaces))
    (own : Own (call.map surfaces)) (done : d.done = c.done + 1) (pipe : d.pipe = c.pipe ++ [call])
    (locals : d.locals = localsAt (c.done + 1)) (root : d.rootClient = c.rootClient)
    (child : d.childClient = c.childClient) : Logs c u d := by
  obtain ⟨unbound, before⟩ := other
  have calls := follows.calls
  refine ⟨[call.map surfaces], ?_, ⟨?_, trivial⟩, ?_⟩
  · rw [log, pipe, List.map_append]
    rfl
  · rw [(own u).1, calls]
    exact next
  · rw [List.foldl_cons, (own u).2, List.foldl_nil]
    have count : u.calls + 1 = issued (c.done + 1) := by
      simp only [calls, issued]
      split_ifs <;> omega
    refine ⟨by omega, by rw [done]; exact count, by rw [locals, done], fun showing => ?_,
      fun early => ?_, fun late => ?_, fun _ => ?_, by omega⟩
    · have late := follows.showing showing
      omega
    · rw [root]
      exact follows.early (by omega)
    · obtain ⟨h, known, there⟩ := follows.root (by omega)
      refine ⟨h, root.trans known, there.asked, there.once, ?_, ?_, there.displays⟩
      · rw [there.child, done, if_neg (by omega), if_neg (by omega)]
      · rw [there.surface, done, if_neg (by omega), if_neg (by omega)]
    · rw [child]
      exact follows.childless (by omega)

theorem logs_silent {c d : Compositor T A} {u : Seen} (follows : Follows c u) {n : Nat}
    (done : d.done = n) (stage : 5 ≤ n ∧ n ≤ 10) (calls : issued c.done = issued n)
    (pipe : d.pipe = c.pipe) (locals : d.locals = localsAt n)
    (showing : u.showing = true → 9 ≤ n)
    (root : ∃ h, d.rootClient = some ⟨1, 1, h⟩ ∧ RootAt n u h)
    (childless : n < 10 → d.childClient = none)
    (child : n = 10 → ∃ h, d.childClient = some ⟨2, 1, h⟩ ∧ ChildAt h) : Logs c u d := by
  subst done
  refine ⟨[], ?_, trivial, stage.2, follows.calls.trans calls, locals, showing,
    fun early => by omega, fun _ => root, childless, child⟩
  rw [log, pipe, List.append_nil]
  rfl

def Statement.number : Statement → Nat
  | .registerRoot => 0
  | .createRootCompositorFrameSink => 1
  | .resize => 2
  | .setDisplayVisible => 3
  | .bindRootClient => 4
  | .registerChild => 5
  | .registerFrameSinkHierarchy => 6
  | .createCompositorFrameSink => 7
  | .embedChild => 8
  | .bindChildClient => 9

theorem number_of_statement {n : Nat} {statement : Statement}
    (here : initializeOnThread[n]? = some statement) : n = statement.number := by
  have lt : n < 10 := (List.getElem?_eq_some_iff.mp here).1
  interval_cases n <;> cases here <;> rfl

theorem logs_compositor {c : Compositor T A} {u : Seen} (follows : Follows c u)
    {d : Compositor T A} (moved : step c .compositor = some d) : Logs c u d := by
  obtain ⟨statement, here, moved⟩ := Option.bind_eq_some_iff.mp moved
  obtain ⟨d, executed, rfl⟩ := Option.map_eq_some_iff.mp moved
  have number := number_of_statement here
  have locals := follows.locals
  rw [number] at locals
  cases statement <;>
    simp only [Compositor.locals, localsAt, Statement.number, List.cons.injEq, and_true,
      reduceCtorEq, if_true, if_false, Nat.reduceLeDiff, Nat.reduceEqDiff] at number locals <;>
    obtain ⟨ids, rootId, childId, surface, childSurface⟩ := locals
  case registerRoot | createRootCompositorFrameSink | resize | setDisplayVisible | registerChild |
      registerFrameSinkHierarchy | createCompositorFrameSink =>
    cases executed
    refine logs_call follows (by omega) ?_ (fun _ => ⟨rfl, rfl⟩) rfl rfl ?_ rfl rfl
    · simp only [number, ids, rootId, childId]
      rfl
    · simp only [Compositor.locals, Compositor.send, number, ids, rootId, childId, surface,
        childSurface]
      rfl
  case bindRootClient =>
    cases executed
    have unasked : u.asked = false := (follows.early (by omega)).2
    have calls : issued c.done = issued 5 := by rw [number]; rfl
    refine logs_silent follows (n := 5) (by rw [number]) (by omega) calls rfl ?_
      (fun showing => ?_) ?_ (fun _ => follows.childless (by omega)) (fun last => by omega)
    · simp only [Compositor.locals, ids, rootId, childId, surface, childSurface]
      rfl
    · have late := follows.showing showing
      omega
    · refine ⟨fresh, ?_, unasked.symm, ?_, rfl, rfl, fun frame member => ?_⟩
      · rw [rootId, surface]
        rfl
      · rw [unasked]
        rfl
      · cases member
  case embedChild =>
    obtain ⟨h, known, root⟩ := follows.root (by omega)
    rw [execute, known] at executed
    cases executed
    have calls : issued c.done = issued 9 := by rw [number]; rfl
    have current : h.client.sink.localSurfaceId = 0 := by
      rw [root.surface, number]
      rfl
    refine logs_silent follows (n := 9) (by rw [number]) (by omega) calls rfl ?_
      (fun _ => Nat.le_refl 9) ?_ (fun _ => follows.childless (by omega)) (fun last => by omega)
    · simp only [Compositor.locals, ids, rootId, childId, surface, embedChild, current]
      rfl
    · refine ⟨_, rfl, root.asked, root.once, ?_, ?_, root.displays⟩
      · rw [childId]
        rfl
      · simp only [embedChild, current]
        rfl
  case bindChildClient =>
    cases executed
    have calls : issued c.done = issued 10 := by rw [number]; rfl
    refine logs_silent follows (n := 10) (by rw [number]) (by omega) calls rfl ?_
      (fun _ => by omega) ?_ (fun early => by omega) (fun _ => ⟨fresh, ?_, rfl, ?_⟩)
    · simp only [Compositor.locals, ids, rootId, childId, surface, childSurface]
      rfl
    · obtain ⟨h, known, root⟩ := follows.root (by omega)
      refine ⟨h, known, root.asked, root.once, ?_, ?_, root.displays⟩
      · rw [root.child, number]
        rfl
      · rw [root.surface, number]
        rfl
    · rw [childId, childSurface]
      rfl
    · exact fun frame member => absurd member List.not_mem_nil

theorem logs_step (c : Compositor T A) (u : Seen) (a : Action A) (d : Compositor T A)
    (follows : Follows c u) (taken : (machine T).step c a = some d) : Logs c u d := by
  have moved := (Machine.step_of_haltOn taken).2
  cases a with
  | compositor => exact logs_compositor follows moved
  | root a => exact logs_root follows moved
  | child a => exact logs_child follows moved

theorem start_follows : Follows ({} : Compositor T A) {} where
  stage := Nat.zero_le 10
  calls := rfl
  locals := rfl
  showing := fun showing => by cases showing
  early := fun _ => ⟨rfl, rfl⟩
  root := fun late => by cases late
  childless := fun _ => rfl
  child := fun last => by cases last

theorem follows_exec {c : Compositor T A} {u : Seen} (follows : Follows c u) {as : List (Action A)}
    {e : Call (List (Nat × Nat))} (written : log ((machine T).exec c as) = log c ++ [e]) :
    Follows ((machine T).exec c as) (protocol.next u e) := by
  obtain ⟨es, wrote, -, related⟩ := Machine.log_accepted logs_step follows as
  rw [wrote, List.append_cancel_left_eq] at written
  rwa [written] at related

structure Ready (c : Compositor T A) (u : Seen) : Prop where
  follows : Follows c u
  shows : u.showing = true → c.done = 9
  waits : u.showing = false → c.done ≤ 8
  unasked : u.asked = false → ∀ r, c.rootClient = some r → r.host = fresh
  asked : u.asked = true → ∀ r, c.rootClient = some r → VizGuiStartup.Inv r.host ∧
    r.host.client.sink.sharedImageInterfaceProvider = true

theorem compositor_calls {c : Compositor T A} (lt : c.done < 8) (other : c.done ≠ 4) :
    ∃ d call, step c .compositor = some d ∧ Own (call.map surfaces) ∧
      d.pipe = c.pipe ++ [call] ∧ d.rootClient = c.rootClient ∧ d.done = c.done + 1 := by
  have within : c.done < initializeOnThread.length := Nat.lt_trans lt (by decide)
  have here := List.getElem?_eq_getElem within
  generalize initializeOnThread[c.done] = statement at here
  have moved : step c .compositor =
      (execute c statement).map fun d => { d with done := c.done + 1 } := by
    rw [step, here]
    rfl
  have number := number_of_statement here
  cases statement with
  | bindRootClient => exact absurd number other
  | embedChild => exact absurd number (Nat.ne_of_lt lt)
  | bindChildClient => exact absurd number (Nat.ne_of_lt (Nat.lt_succ_of_lt lt))
  | _ => exact ⟨_, _, moved, fun _ => ⟨rfl, rfl⟩, rfl, rfl, rfl⟩

theorem Ready.before {c : Compositor T A} {u : Seen} (ready : Ready c u) : c.done < 10 := by
  cases showing : u.showing with
  | false => exact Nat.lt_of_le_of_lt (ready.waits showing) (by decide)
  | true => rw [ready.shows showing]; decide

theorem not_crashed {c : Compositor T A} (childless : c.childClient = none)
    (root : ∀ r, c.rootClient = some r → r.host.client.fault = none) : crashed c = false := by
  rw [crashed, childless]
  cases there : c.rootClient with
  | none => rfl
  | some r =>
    rw [Option.any_some, ClientSink.crashed, root r there]
    rfl

theorem Ready.alive {c : Compositor T A} {u : Seen} (ready : Ready c u) : crashed c = false := by
  refine not_crashed (ready.follows.childless ready.before) fun r there => ?_
  cases asked : u.asked with
  | false => rw [ready.unasked asked r there]; rfl
  | true => exact (ready.asked asked r there).1.fault

theorem step_alive {c : Compositor T A} (alive : crashed c = false) (a : Action A) :
    (machine T).step c a = step c a :=
  Machine.haltOn_step alive step a

theorem ready_call {c : Compositor T A} {u : Seen} (ready : Ready c u) (lt : c.done < 8)
    (other : c.done ≠ 4) {e : Call (List (Nat × Nat))} (next : ownCalls[u.calls]? = some e) :
    ∃ d, (machine T).step c .compositor = some d ∧ log d = log c ++ [e] ∧
      Ready d (protocol.next u e) := by
  obtain ⟨d, call, moved, own, pipe, root, done⟩ := compositor_calls lt other
  have written : log d = log c ++ [call.map surfaces] := by
    rw [log, pipe, List.map_append]
    rfl
  obtain ⟨es, wrote, accepted, follows⟩ := logs_compositor ready.follows moved
  rw [written, List.append_cancel_left_eq] at wrote
  subst wrote
  have allowed := accepted.1
  rw [(own u).1, next, Option.some.injEq] at allowed
  subst allowed
  rw [List.foldl_cons, List.foldl_nil] at follows
  refine ⟨d, (step_alive ready.alive _).trans moved, written, ?_⟩
  rw [(own u).2] at follows ⊢
  refine ⟨follows, fun showing => ?_, fun _ => by omega, ?_, ?_⟩
  · have late := ready.shows showing
    omega
  · rw [root]
    exact ready.unasked
  · rw [root]
    exact ready.asked

theorem ready_late {c : Compositor T A} {u : Seen} (ready : Ready c u) (late : 4 ≤ c.done) :
    ∃ as, log ((machine T).exec c as) = log c ∧ Ready ((machine T).exec c as) u ∧
      5 ≤ ((machine T).exec c as).done := by
  by_cases more : 5 ≤ c.done
  · exact ⟨[], rfl, ready, more⟩
  have at_bind : c.done = 4 := by omega
  have here : initializeOnThread[c.done]? = some .bindRootClient := by rw [at_bind]; rfl
  have moved : step c .compositor =
      (execute c .bindRootClient).map fun d => { d with done := c.done + 1 } := by
    rw [step, here]
    rfl
  refine ⟨[.compositor], ?_⟩
  have taken := (step_alive ready.alive .compositor).trans moved
  rw [Machine.exec_cons, Machine.exec_nil, Machine.next_of_some taken]
  obtain ⟨es, wrote, -, follows⟩ := logs_compositor ready.follows moved
  have none_new : es = [] := List.append_right_eq_self.mp wrote.symm
  rw [none_new, List.foldl_nil] at follows
  have unasked := (ready.follows.early (by omega)).2
  refine ⟨rfl, ⟨follows, fun showing => ?_, fun _ => ?_, fun _ r there => ?_, fun asked => ?_⟩, ?_⟩
  · have late := ready.shows showing
    omega
  · change c.done + 1 ≤ 8
    omega
  · cases there
    rfl
  · rw [unasked] at asked
    cases asked
  · change 5 ≤ c.done + 1
    omega

theorem exec_root {c : Compositor T A} (childless : c.childClient = none) {h k : Host T A}
    (there : c.rootClient = some ⟨1, 1, h⟩) {a : VizGuiStartup.Action A} (own : OfClient a = true)
    (moved : (VizGuiStartup.machine T).step h a = some k) (as : List (Action A)) :
    (machine T).exec c (.root a :: as) = (machine T).exec { c with
      rootClient := some ⟨1, 1, k⟩
      pipe := c.pipe ++ sent 1 h a k } as := by
  have alive : crashed c = false := by
    refine not_crashed childless fun r same => ?_
    obtain rfl := Option.some.inj (there.symm.trans same)
    exact Option.not_isSome_iff_eq_none.mp
      (Bool.eq_false_iff.mp (Machine.step_of_haltOn moved).1)
  have taken : (machine T).step c (.root a) = some { c with
      rootClient := some ⟨1, 1, k⟩
      pipe := c.pipe ++ sent 1 h a k } := by
    rw [step_alive alive, step, there, Option.bind_some, ClientSink.step, if_pos own, moved]
    rfl
  rw [Machine.exec_cons, Machine.next_of_some taken]

theorem inv_own {h h' : Host T A} {a : VizGuiStartup.Action A} (inv : VizGuiStartup.Inv h)
    (quiet : ∀ m, a ≠ .message m) (moved : (VizGuiStartup.machine T).step h a = some h') :
    VizGuiStartup.Inv h' :=
  VizGuiStartup.inv_step h a h' inv (fun _ _ _ _ same => absurd same (quiet _)) moved

def supplied : Host T A :=
  (VizGuiStartup.machine T).exec fresh [.runTask, .serveRequest, .runTask]

theorem supplied_inv : VizGuiStartup.Inv (supplied : Host T A) := by
  have begun : VizGuiStartup.Inv (fresh : Host T A) :=
    inv_own (a := .initializeOnThread) VizGuiStartup.start_inv (fun m same => by cases same) rfl
  have ran := inv_own (a := .runTask) begun (fun m same => by cases same) rfl
  have served := inv_own (a := .serveRequest) ran (fun m same => by cases same) rfl
  exact inv_own (a := .runTask) served (fun m same => by cases same) rfl

theorem ready_asks {c : Compositor T A} {u : Seen} (ready : Ready c u) (unasked : u.asked = false)
    (late : 5 ≤ c.done) :
    ∃ as, log ((machine T).exec c as) = log c ++ [.setNeedsBeginFrame true] ∧
      Ready ((machine T).exec c as) (protocol.next u (.setNeedsBeginFrame true)) := by
  obtain ⟨h, there, root⟩ := ready.follows.root late
  obtain rfl := ready.unasked unasked _ there
  have childless := ready.follows.childless ready.before
  have reached : (machine T).exec c [.root .runTask, .root .serveRequest, .root .runTask] =
      { c with
        rootClient := some ⟨1, 1, supplied⟩
        pipe := c.pipe ++ [.setNeedsBeginFrame true] } := by
    let h₁ : Host T A := (VizGuiStartup.machine T).next fresh .runTask
    let h₂ : Host T A := (VizGuiStartup.machine T).next h₁ .serveRequest
    rw [exec_root childless there (k := h₁) rfl rfl]
    refine (exec_root (c := { c with rootClient := some ⟨1, 1, h₁⟩, pipe := _ }) childless rfl
      (k := h₂) (a := .serveRequest) rfl rfl _).trans ?_
    refine (exec_root (c := { c with rootClient := some ⟨1, 1, h₂⟩, pipe := _ }) childless rfl
      (k := supplied) (a := .runTask) rfl rfl _).trans ?_
    rw [Machine.exec_nil]
    have asks : sent 1 (fresh : Host T A) .runTask h₁ = [.setNeedsBeginFrame true] := rfl
    have served : sent 1 h₁ .serveRequest h₂ = [] := rfl
    have given : sent 1 h₂ .runTask (supplied : Host T A) = [] := rfl
    simp only [asks, served, given, List.append_nil]
  have written : log ((machine T).exec c [.root .runTask, .root .serveRequest, .root .runTask]) =
      log c ++ [.setNeedsBeginFrame true] := by
    rw [reached]
    exact List.map_append
  have follows := follows_exec ready.follows written
  refine ⟨_, written, ?_⟩
  rw [reached] at follows ⊢
  refine ⟨follows, ready.shows, ready.waits, fun never => (by cases never),
    fun _ r same => ?_⟩
  obtain rfl := Option.some.inj same
  exact ⟨supplied_inv, rfl⟩

theorem frame_step {h : Host T A} (inv : VizGuiStartup.Inv h) (asked : asks h = true)
    (provider : h.client.sink.sharedImageInterfaceProvider = true) (args : A) :
    ∃ h' frame, (VizGuiStartup.machine T).step h (.message (.onBeginFrame args true true [])) =
        some h' ∧
      sent 1 h (.message (.onBeginFrame args true true [])) h' =
        [.submitCompositorFrame 1 frame] ∧
      surfaces frame = embedded h.client.sink ∧ VizGuiStartup.Inv h' ∧
      h'.client.sink.sharedImageInterfaceProvider = true := by
  obtain ⟨t, l, table, lent, -, -⟩ := inv.covers asked
  obtain ⟨s', frame, i, j, x, y, run, submits⟩ :=
    onBeginFrame_ok (s := returned [] h.client.sink) table lent provider args []
  obtain ⟨frame', shows, kept, viz⟩ := onBeginFrame_shows run
  have takes : Takes h.client.sink.viz.ledger [] :=
    ⟨List.nodup_nil, fun _ member => absurd member List.not_mem_nil,
      fun _ member => absurd member List.not_mem_nil⟩
  have received : receive h.client (.onBeginFrame args true true []) = some { sink := s' } := by
    rw [receive, if_pos ⟨inv.fault, asked, takes⟩]
    exact congrArg (fun made => some (Client.settle (returned [] h.client.sink) made)) run
  have moved : (VizGuiStartup.machine T).step h (.message (.onBeginFrame args true true [])) =
      some { h with client := { sink := s' } } := by
    have stepped : VizGuiStartup.step h (.message (.onBeginFrame args true true [])) =
        some { h with client := { sink := s' } } := by
      rw [VizGuiStartup.step, received]
      rfl
    simp [VizGuiStartup.machine, Machine.haltOn, inv.fault, stepped]
  have images : VizGuiStartup.HasImages h (.message (.onBeginFrame args true true [])) := by
    intro args' tile texture resources same
    cases same
    exact ⟨provider, rfl, rfl⟩
  refine ⟨_, frame', moved, ?_, shows, VizGuiStartup.inv_message inv images received, ?_⟩
  · refine sent_frames 1 (a := .message _) (fun same => by cases same) (l := [frame']) ?_
    change s'.viz.frames = _
    rw [viz]
    rfl
  · exact submits.provider.trans provider

theorem frame_shown {c : Compositor T A} {u : Seen} (follows : Follows c u)
    (before : c.done < 10) {h : Host T A} (there : c.rootClient = some ⟨1, 1, h⟩)
    (inv : VizGuiStartup.Inv h) (asked : asks h = true)
    (provider : h.client.sink.sharedImageInterfaceProvider = true) (args : A) :
    ∃ as, log ((machine T).exec c as) =
        log c ++ [.submitCompositorFrame 1 (embedded h.client.sink)] ∧
      ((machine T).exec c as).done = c.done ∧
      ∀ r, ((machine T).exec c as).rootClient = some r → VizGuiStartup.Inv r.host ∧
        r.host.client.sink.sharedImageInterfaceProvider = true := by
  obtain ⟨h', frame, moved, submits, shows, inv', provider'⟩ := frame_step inv asked provider args
  have reached := exec_root (follows.childless before) there rfl moved []
  refine ⟨_, ?_, by rw [reached]; rfl, fun r same => ?_⟩
  · rw [reached, Machine.exec_nil, log, submits, List.map_append, ← shows]
    rfl
  · rw [reached] at same
    obtain rfl := Option.some.inj same
    exact ⟨inv', provider'⟩

theorem embed_late {c : Compositor T A} {u : Seen} (ready : Ready c u) (asked : u.asked = true)
    (calls : u.calls = 7) :
    ∃ as, log ((machine T).exec c as) = log c ∧ Follows ((machine T).exec c as) u ∧
      ((machine T).exec c as).done = 9 ∧
      ∀ r, ((machine T).exec c as).rootClient = some r → VizGuiStartup.Inv r.host ∧
        r.host.client.sink.sharedImageInterfaceProvider = true := by
  have before := ready.before
  rw [ready.follows.calls, issued] at calls
  by_cases last : c.done = 9
  · exact ⟨[], rfl, ready.follows, last, ready.asked asked⟩
  have at_embed : c.done = 8 := by split_ifs at calls <;> omega
  obtain ⟨h, there, root⟩ := ready.follows.root (by omega)
  obtain ⟨inv, provider⟩ : VizGuiStartup.Inv h ∧
      h.client.sink.sharedImageInterfaceProvider = true := ready.asked asked _ there
  have here : initializeOnThread[c.done]? = some .embedChild := by rw [at_embed]; rfl
  have moved : step c .compositor =
      (execute c .embedChild).map fun d => { d with done := c.done + 1 } := by
    rw [step, here]
    rfl
  rw [execute, there] at moved
  obtain ⟨es, wrote, -, follows⟩ := logs_compositor ready.follows moved
  have none_new : es = [] := List.append_right_eq_self.mp wrote.symm
  rw [none_new, List.foldl_nil] at follows
  have taken := (step_alive ready.alive .compositor).trans moved
  have embeds : (VizGuiStartup.machine T).step h (.embedChild c.frameSinkId) =
      VizGuiStartup.step h (.embedChild c.frameSinkId) := by
    simp [VizGuiStartup.machine, Machine.haltOn, inv.fault]
  refine ⟨[.compositor], ?_⟩
  rw [Machine.exec_cons, Machine.exec_nil, Machine.next_of_some taken]
  refine ⟨rfl, follows, ?_, fun r same => ?_⟩
  · change c.done + 1 = 9
    omega
  · obtain rfl := Option.some.inj same
    exact ⟨inv_own inv (fun m same => by cases same) embeds, provider⟩

theorem ready_frame {c : Compositor T A} {u : Seen} (ready : Ready c u) (asked : u.asked = true)
    (args : A) {shows : List (Nat × Nat)}
    (allowed : shows = [] ∧ u.showing = false ∨ shows = [(2, 1)] ∧ u.calls = 7) :
    ∃ as, log ((machine T).exec c as) = log c ++ [.submitCompositorFrame 1 shows] ∧
      Ready ((machine T).exec c as) (protocol.next u (.submitCompositorFrame 1 shows)) := by
  have late : 5 ≤ c.done := by
    by_contra early
    rw [(ready.follows.early (by omega)).2] at asked
    cases asked
  rcases allowed with ⟨rfl, waiting⟩ | ⟨rfl, calls⟩
  · obtain ⟨h, there, root⟩ := ready.follows.root late
    obtain ⟨inv, provider⟩ := ready.asked asked _ there
    have early := ready.waits waiting
    have nothing := root.embedded
    rw [if_neg (by omega)] at nothing
    obtain ⟨as, written, done, kept⟩ := frame_shown ready.follows ready.before there inv
      (root.asked.trans asked) provider args
    rw [nothing] at written
    refine ⟨as, written, follows_exec ready.follows written, fun showing => (by cases showing),
      fun _ => done.le.trans early, fun unasked => ?_, fun _ => kept⟩
    exact absurd (asked.symm.trans unasked) Bool.false_ne_true.symm
  · obtain ⟨first, silent, follows, done, kept⟩ := embed_late ready asked calls
    obtain ⟨h, there, root⟩ := follows.root (by omega)
    obtain ⟨inv, provider⟩ := kept _ there
    have child := root.embedded
    rw [if_pos (by omega)] at child
    obtain ⟨as, written, done', kept'⟩ := frame_shown follows (by omega) there inv
      (root.asked.trans asked) provider args
    rw [child, silent] at written
    rw [← Machine.exec_append] at written done' kept'
    refine ⟨first ++ as, written, follows_exec ready.follows written, fun _ => done'.trans done,
      fun waiting => (by cases waiting), fun unasked => ?_, fun _ => kept'⟩
    exact absurd (asked.symm.trans unasked) Bool.false_ne_true.symm

theorem ready_own {c : Compositor T A} {u : Seen} (ready : Ready c u)
    {e : Call (List (Nat × Nat))} (next : ownCalls[u.calls]? = some e) :
    ∃ as, log ((machine T).exec c as) = log c ++ [e] ∧
      Ready ((machine T).exec c as) (protocol.next u e) := by
  have small : u.calls < 7 := (List.getElem?_eq_some_iff.mp next).1
  have goes_on : ∀ d : Compositor T A, Ready d u → d.done ≠ 4 →
      ∃ as, log ((machine T).exec d as) = log d ++ [e] ∧
        Ready ((machine T).exec d as) (protocol.next u e) := by
    intro d ready other
    have lt : d.done < 8 := by
      rw [ready.follows.calls, issued] at small
      split_ifs at small <;> omega
    obtain ⟨f, moved, written, ready'⟩ := ready_call ready lt other next
    refine ⟨[.compositor], ?_⟩
    rw [Machine.exec_cons, Machine.exec_nil, Machine.next_of_some moved]
    exact ⟨written, ready'⟩
  by_cases at_bind : c.done = 4
  · obtain ⟨first, silent, ready₁, late⟩ := ready_late ready at_bind.ge
    obtain ⟨as, written, ready₂⟩ := goes_on _ ready₁ (by omega)
    refine ⟨first ++ as, ?_⟩
    rw [Machine.exec_append, ← silent]
    exact ⟨written, ready₂⟩
  · exact goes_on c ready at_bind

theorem ready_run (args : A) {c : Compositor T A} {u : Seen} {e : Call (List (Nat × Nat))}
    (ready : Ready c u) (allowed : protocol.allows u e) :
    ∃ as, log ((machine T).exec c as) = log c ++ [e] ∧
      Ready ((machine T).exec c as) (protocol.next u e) := by
  cases e with
  | setNeedsBeginFrame needs =>
    obtain ⟨rfl, calls, unasked⟩ := allowed
    have late : 4 ≤ c.done := by
      rw [ready.follows.calls, issued] at calls
      split_ifs at calls <;> omega
    obtain ⟨first, silent, ready₁, bound⟩ := ready_late ready late
    obtain ⟨as, written, ready₂⟩ := ready_asks ready₁ unasked bound
    refine ⟨first ++ as, ?_⟩
    rw [Machine.exec_append, ← silent]
    exact ⟨written, ready₂⟩
  | submitCompositorFrame localSurfaceId shows =>
    obtain ⟨rfl, asked, allowed⟩ := allowed
    exact ready_frame ready asked args allowed
  | _ => exact ready_own ready allowed

theorem start_ready : Ready ({} : Compositor T A) {} where
  follows := start_follows
  shows := fun showing => by cases showing
  waits := fun _ => Nat.zero_le 8
  unasked := fun _ r there => by cases there
  asked := fun asked => by cases asked

theorem protocol_iff (args : A) (calls : List (Call (List (Nat × Nat)))) :
    (∃ as, log ((machine T).exec ({} : Compositor T A) as) = calls) ↔
      protocol.Accepts {} calls := by
  constructor
  · rintro ⟨as, rfl⟩
    obtain ⟨es, written, accepted, -⟩ := Machine.log_accepted logs_step start_follows as
    rw [written]
    exact accepted
  · intro accepted
    exact Machine.log_reached (fun _ _ _ => ready_run args) start_ready accepted

/-- A surface is shown once its frame sink is registered below that of the root and made. -/
def Placed (before : List (Call (List (Nat × Nat)))) : Call (List (Nat × Nat)) → Prop
  | .submitCompositorFrame _ shows => ∀ surface ∈ shows, ∃ root, List.Sublist
      [.registerFrameSinkId root, .createRootCompositorFrameSink root,
        .registerFrameSinkId surface.1, .registerFrameSinkHierarchy root surface.1,
        .createCompositorFrameSink surface.1] before
  | _ => True

structure Consistent (c : Compositor T A) : Prop where
  agree : ∀ root child, c.rootClient = some root → c.childClient = some child →
    ∀ frame ∈ frames root.host, ∀ surface ∈ surfaces frame,
      surface = (child.frameSinkId, child.localSurfaceId)
  leaf : ∀ child, c.childClient = some child → ∀ frame ∈ frames child.host, surfaces frame = []
  placed : History Placed (log c)

theorem placed_of_accepts (calls : List (Call (List (Nat × Nat))))
    (accepted : protocol.Accepts {} calls) :
    (ownCalls.take (calls.foldl protocol.next {}).calls).Sublist calls ∧
      History Placed calls := by
  induction calls using List.reverseRecOn with
  | nil => exact ⟨List.Sublist.refl _, history_nil _⟩
  | append_singleton calls call ih =>
    obtain ⟨before, allowed, -⟩ := (Monitor.accepts_append _).mp accepted
    obtain ⟨issued, placed⟩ := ih before
    rw [List.foldl_append, List.foldl_cons, List.foldl_nil, history_concat]
    have stays := issued.trans (List.sublist_append_left calls [call])
    cases call with
    | setNeedsBeginFrame needs => exact ⟨stays, placed, trivial⟩
    | submitCompositorFrame localSurfaceId shows =>
      refine ⟨stays, placed, fun surface member => ⟨1, ?_⟩⟩
      obtain ⟨-, -, ⟨rfl, -⟩ | ⟨rfl, all⟩⟩ := allowed
      · cases member
      · obtain rfl := List.mem_singleton.mp member
        rw [all] at issued
        refine List.Sublist.trans ?_ issued
        decide
    | _ =>
      refine ⟨?_, placed, trivial⟩
      have here : ownCalls[(calls.foldl protocol.next {}).calls]? = some _ := allowed
      change (ownCalls.take ((calls.foldl protocol.next {}).calls + 1)).Sublist _
      rw [List.take_add_one, here]
      exact issued.append (List.Sublist.refl _)

/-- In every run the surface shown is that of the child, behind the calls that place it. -/
theorem embedding_consistent (as : List (Action A)) :
    Consistent ((machine T).exec ({} : Compositor T A) as) := by
  obtain ⟨es, written, accepted, follows⟩ := Machine.log_accepted logs_step start_follows as
  rw [show log ({} : Compositor T A) = [] from rfl, List.nil_append] at written
  have known : ∀ child, ((machine T).exec ({} : Compositor T A) as).childClient = some child →
      5 ≤ ((machine T).exec ({} : Compositor T A) as).done ∧
        ∃ h, child = ⟨2, 1, h⟩ ∧ ChildAt h := by
    intro child made
    have last : ((machine T).exec ({} : Compositor T A) as).done = 10 := by
      have stage := follows.stage
      by_contra early
      rw [follows.childless (by omega)] at made
      cases made
    obtain ⟨h, there, leaf⟩ := follows.child last
    exact ⟨by omega, h, Option.some.inj (made.symm.trans there), leaf⟩
  refine ⟨fun root child there made frame member surface shown => ?_, fun child made => ?_, ?_⟩
  · obtain ⟨late, k, rfl, -⟩ := known child made
    obtain ⟨h, same, embeds⟩ := follows.root late
    obtain rfl := Option.some.inj (there.symm.trans same)
    rcases embeds.displays frame member with nothing | one
    · rw [nothing] at shown
      cases shown
    · rw [one] at shown
      exact List.mem_singleton.mp shown
  · obtain ⟨-, h, rfl, leaf⟩ := known child made
    exact leaf.displays
  · rw [written]
    exact (placed_of_accepts es accepted).2

end ChromiumDemo.VizGuiEmbedding
