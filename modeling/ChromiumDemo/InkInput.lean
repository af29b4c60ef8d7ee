import ChromiumDemo.GpuFallback

/-! Input and frames of the clients of demo_viz_layer. The UI thread binds a client,
hands it context providers and, for an `InkClient`, posts a `Draw` for each pointer
move; the client's thread runs these tasks in order and answers viz once it is bound.
The log says what was posted, what ran, and how each begin frame was answered. -/

namespace ChromiumDemo.InkInput
open TransitionSystem LeaseLedger ReleaseTable CompositorFrames VizLayerClient

variable {A : Type*} {T : Implementation Backing}

inductive EventType
  | mouseMoved
  | touchMoved
  | other
deriving DecidableEq

def EventType.isLocated : EventType → Bool
  | .mouseMoved | .touchMoved => true
  | .other => false

inductive Task
  | bind
  | draw (location : Int × Int)
  | setContextProvider (contextProvider : Nat)
deriving DecidableEq

def Task.location : Task → Option (Int × Int)
  | .draw location => some location
  | _ => none

/-- `bindCalled` is set with the event observer, before the bind task is posted, and
`isBound` when that task has run; `nullCanvas` is a `Draw` without `canvas_`. -/
structure World (T : Implementation Backing) (A : Type*) where
  client : Client T A := {}
  bindCalled : Bool := false
  tasks : List Task := []
  isBound : Bool := false
  nullCanvas : Bool := false
  dcheckFailed : Bool := false

/-- Tasks of the UI thread, the next task of the client's thread, and messages of viz.
`binds` is what `BindToCurrentThread` answers. -/
inductive Action (A : Type*)
  | bind
  | didProcessEvent (type : EventType) (location : Int × Int)
  | setContextProvider (contextProvider : Nat)
  | embedChild (childFrameSinkId : Nat)
  | runTask (binds : Bool)
  | message (m : Message A)

def isInk : Kind → Bool
  | .inkClient _ => true
  | _ => false

def post (task : Task) (w : World T A) : World T A := { w with tasks := w.tasks ++ [task] }

def didProcessEvent (type : EventType) (location : Int × Int) (w : World T A) : World T A :=
  if type.isLocated then post (.draw location) w else w

def bindOn : Kind → Sink T A → Sink T A
  | .inkClient _ => inkBind
  | _ => bindOnThread

def runTask (dchecks : Bool) (kind : Kind) (binds : Bool) (w : World T A) : Task → World T A
  | .bind => { w with client.sink := bindOn kind w.client.sink, isBound := true }
  | .draw location =>
    if w.isBound then { w with client.sink := draw location w.client.sink }
    else { w with nullCanvas := true }
  | .setContextProvider provider =>
    { w with
      client.sink :=
        VizLayerClient.setContextProvider ⟨provider, dchecks && binds⟩ w.client.sink
      dcheckFailed := dchecks && !binds }

/-- An `InkClient` alone observes events. Messages of viz come through the receiver,
which the bind task binds. -/
def step (dchecks : Bool) (kind : Kind) (w : World T A) : Action A → Option (World T A)
  | .bind => if w.bindCalled then none else some (post .bind { w with bindCalled := true })
  | .didProcessEvent type location =>
    if w.bindCalled && isInk kind then some (didProcessEvent type location w) else none
  | .setContextProvider provider => some (post (.setContextProvider provider) w)
  | .embedChild childFrameSinkId =>
    some { w with client.sink := embedChild childFrameSinkId w.client.sink }
  | .runTask binds => match w.tasks with
    | [] => none
    | task :: tasks => some (runTask dchecks kind binds { w with tasks := tasks } task)
  | .message m =>
    if w.isBound then (VizLayerClient.step kind w.client (.message m)).map fun c =>
      { w with client := c }
    else none

def World.halted (w : World T A) : Bool :=
  w.nullCanvas || w.dcheckFailed || w.client.fault.isSome

def machine (dchecks : Bool) (kind : Kind) : Machine (World T A) (Action A) :=
  .haltOn World.halted (step dchecks kind)

inductive Answer (A : Type*)
  | submitCompositorFrame (ack : A) (shown : List (Option Bitmap))
  | didNotProduceFrame (ack : A)

def Answer.ack : Answer A → A
  | .submitCompositorFrame ack _ => ack
  | .didNotProduceFrame ack => ack

def Answer.isFrame : Answer A → Bool
  | .submitCompositorFrame _ _ => true
  | .didNotProduceFrame _ => false

inductive Event (A : Type*)
  | posted (location : Int × Int)
  | bind
  | draw (location : Int × Int)
  | onBeginFrame (args : A) (answers : List (Answer A))

def shown (service : Service) (b : Backing) : Option Bitmap := service.registered.lookup b

def answer (service : Service) : Produced A → Answer A
  | .submitted frame =>
    .submitCompositorFrame frame.beginFrameAck (frame.resourceList.map fun r => shown service r.2)
  | .didNotProduceFrame args => .didNotProduceFrame args

def answers (s t : World T A) : List (Answer A) :=
  (t.client.sink.viz.produced.drop s.client.sink.viz.produced.length).map
    (answer t.client.sink.service)

def note (s : World T A) (a : Action A) (t : World T A) : List (Event A) :=
  match a with
  | .didProcessEvent type location => if type.isLocated then [.posted location] else []
  | .runTask _ => match s.tasks with
    | .bind :: _ => [.bind]
    | .draw location :: _ => [.draw location]
    | _ => []
  | .message (.onBeginFrame args) => [.onBeginFrame args (answers s t)]
  | .message (.didReceiveCompositorFrameAck _) | .message (.reclaimResources _) => []
  | .bind | .setContextProvider _ | .embedChild _ => []

def recorded (dchecks : Bool) (kind : Kind) : Machine (World T A × List (Event A)) (Action A) :=
  (machine dchecks kind).recording note

def Event.posted? : Event A → Option (Int × Int)
  | .posted location => some location
  | _ => none

def Event.draw? : Event A → Option (Int × Int)
  | .draw location => some location
  | _ => none

def posted (log : List (Event A)) : List (Int × Int) := log.filterMap Event.posted?

def queued (tasks : List Task) : List (Int × Int) := tasks.filterMap Task.location

def drawn (log : List (Event A)) : List (Int × Int) := log.filterMap Event.draw?

def dirty (log : List (Event A)) : Bool :=
  log.foldl (fun dirty event => match event with
    | .posted _ => dirty
    | .bind | .draw _ => true
    | .onBeginFrame _ answers => dirty && !answers.any Answer.isFrame) false

/-- Nothing is stroked before the first draw; then the path goes from the origin
through all locations. -/
def picture : List (Int × Int) → Bitmap
  | [] => .path []
  | locations => .path ((0, 0) :: locations)

structure Answers (kind : Kind) (log : List (Event A)) (args : A) (answers : List (Answer A)) :
    Prop where
  once : ∃ answer, answers = [answer] ∧ answer.ack = args
  frame : isInk kind = true → answers.any Answer.isFrame = dirty log
  shown : isInk kind = true → ∀ ack pictures,
    .submitCompositorFrame ack pictures ∈ answers → pictures = [some (picture (drawn log))]

def Lawful (kind : Kind) (log : List (Event A)) : Event A → Prop
  | .draw _ => .bind ∈ log
  | .onBeginFrame args answers => Answers kind log args answers
  | _ => True

/-- No stroke is lost or drawn twice, and each begin frame has its answer. -/
structure Faithful (kind : Kind) (w : World T A × List (Event A)) : Prop where
  history : History (Lawful kind) w.2
  order : posted w.2 = drawn w.2 ++ queued w.1.tasks
  canvas : w.1.nullCanvas = false

/-- The step is no begin frame whose resources would be made on a context provider
that is not bound. -/
def Provided (kind : Kind) (w : World T A × List (Event A)) : Action A → Prop
  | .message (.onBeginFrame _) => ¬ Unbound (framePath kind w.1.client.sink)
  | _ => True

section Logs
variable {log : List (Event A)} {event : Event A}

theorem drawn_draw (location : Int × Int) :
    drawn (log ++ [.draw location]) = drawn log ++ [location] := by
  rw [drawn, List.filterMap_append]
  rfl

theorem drawn_other (other : event.draw? = none) : drawn (log ++ [event]) = drawn log := by
  rw [drawn, List.filterMap_append, List.filterMap_cons_none other]
  exact List.append_nil _

theorem posted_posted (location : Int × Int) :
    posted (log ++ [.posted location]) = posted log ++ [location] := by
  rw [posted, List.filterMap_append]
  rfl

theorem posted_other (other : event.posted? = none) : posted (log ++ [event]) = posted log := by
  rw [posted, List.filterMap_append, List.filterMap_cons_none other]
  exact List.append_nil _

theorem queued_draw (tasks : List Task) (location : Int × Int) :
    queued (tasks ++ [.draw location]) = queued tasks ++ [location] := by
  rw [queued, List.filterMap_append]
  rfl

theorem queued_other (tasks : List Task) {task : Task} (other : task.location = none) :
    queued (tasks ++ [task]) = queued tasks := by
  rw [queued, List.filterMap_append, List.filterMap_cons_none other]
  exact List.append_nil _

theorem dirty_concat : dirty (log ++ [event]) = match event with
    | .posted _ => dirty log
    | .bind | .draw _ => true
    | .onBeginFrame _ answers => dirty log && !answers.any Answer.isFrame := by
  rw [dirty, List.foldl_append]
  rfl

theorem picture_concat (locations : List (Int × Int)) (location : Int × Int) :
    picture (locations ++ [location]) = .path ((0, 0) :: (locations ++ [location])) := by
  cases locations <;> rfl

end Logs

section Frames
variable {s s' : Sink T A}

structure Records (source : Bitmap) (frame : CompositorFrame A Backing) (s : Sink T A)
    (frame' : CompositorFrame A Backing) (s' : Sink T A) : Prop where
  ack : frame'.beginFrameAck = frame.beginFrameAck
  path : s'.path = s.path
  bitmap : s'.bitmap = s.bitmap
  registered : ∃ b, s'.service.registered = s.service.registered ++ [(b, source)]

theorem importResource_ok {backing : Backing} {source : Bitmap} {resource : Nat}
    (run : importResource backing source s = .ok (resource, s')) :
    s'.path = s.path ∧ s'.bitmap = s.bitmap ∧
      s'.service.registered = s.service.registered ++ [(backing, source)] := by
  rw [importResource] at run
  split at run
  · cases run
  · obtain rfl := (Prod.mk.inj (Except.ok.inj run)).2
    exact ⟨rfl, rfl, rfl⟩

theorem prepareSendToParent_ok {resource : Nat} {frame frame' : CompositorFrame A Backing}
    (run : prepareSendToParent resource frame s = .ok (frame', s')) :
    frame'.beginFrameAck = frame.beginFrameAck ∧ s'.path = s.path ∧ s'.bitmap = s.bitmap ∧
      s'.service = s.service := by
  rw [prepareSendToParent] at run
  split at run
  · cases run
  · split at run
    · cases run
    · obtain ⟨rfl, rfl⟩ := Prod.mk.inj (Except.ok.inj run)
      exact ⟨rfl, rfl, rfl, rfl⟩

theorem appendResourceDrawQuad_ok {useGpu : Bool} {quad : Nat → DrawQuad} {source : Bitmap}
    {frame frame' : CompositorFrame A Backing}
    (run : appendResourceDrawQuad useGpu quad source frame s = .ok (frame', s')) :
    Records source frame s frame' s' := by
  rw [appendResourceDrawQuad] at run
  obtain ⟨-, error⟩ | ⟨b, created, -, -⟩ := createResource_cases useGpu source s
  · rw [error] at run
    cases run
  · rw [created] at run
    cases imported : importResource b source s with
    | error fault =>
      rw [imported] at run
      cases run
    | ok made =>
      obtain ⟨resource, s₁⟩ := made
      rw [imported] at run
      obtain ⟨path, bitmap, registered⟩ := importResource_ok imported
      obtain ⟨ack, path', bitmap', service⟩ := prepareSendToParent_ok run
      refine ⟨ack, path'.trans path, bitmap'.trans bitmap, b, ?_⟩
      rw [service, registered]

theorem createLayerFrame_ack {useGpu copyOutput : Bool} {args : A}
    {frame : CompositorFrame A Backing}
    (run : createLayerFrame useGpu copyOutput args s = .ok (frame, s')) :
    frame.beginFrameAck = args := by
  cases provider : s.contextProvider.isSome with
  | false =>
    simp only [createLayerFrame, provider] at run
    obtain ⟨rfl, -⟩ := Prod.mk.inj (Except.ok.inj run)
    rfl
  | true =>
    simp only [createLayerFrame, provider, if_true, appendTileDrawQuad,
      appendTextureDrawQuad] at run
    cases tile : appendResourceDrawQuad useGpu .tile (circles [1, 2, 3] s)
        { beginFrameAck := args
          frameToken := s.frameTokenGenerator
          quads := .debugBorder :: appendSurfaceDrawQuad s
          copyRequests := if copyOutput then 1 else 0 } s with
    | error fault =>
      rw [tile] at run
      cases run
    | ok made =>
      obtain ⟨frame₁, s₁⟩ := made
      rw [tile] at run
      cases texture : appendResourceDrawQuad useGpu .texture (circles [2, 3, 1] s₁) frame₁ s₁ with
      | error fault =>
        simp only [Bind.bind, Except.bind, texture] at run
        cases run
      | ok made =>
        obtain ⟨frame₂, s₂⟩ := made
        simp only [Bind.bind, Except.bind, texture] at run
        obtain ⟨rfl, -⟩ := Prod.mk.inj (Except.ok.inj run)
        exact (appendResourceDrawQuad_ok texture).ack.trans (appendResourceDrawQuad_ok tile).ack

structure Inked (s s' : Sink T A) (answer : Answer A) : Prop where
  isFrame : answer.isFrame = s.needRedraw
  shown : ∀ ack pictures, answer = .submitCompositorFrame ack pictures → pictures = [some s.bitmap]
  needRedraw : s'.needRedraw = false
  path : s'.path = s.path
  bitmap : s'.bitmap = s.bitmap

structure Answered (kind : Kind) (args : A) (s s' : Sink T A) (product : Produced A) : Prop where
  produced : s'.viz.produced = s.viz.produced ++ [product]
  ack : (answer s'.service product).ack = args
  ink : isInk kind = true → Inked s s' (answer s'.service product)

theorem shown_new {service : Service} {registered : List (Backing × Bitmap)} {b : Backing}
    {source : Bitmap} (new : service.registered = registered ++ [(b, source)])
    (distinct : (service.registered.map Prod.fst).Nodup) : shown service b = some source := by
  rw [new, List.map_append] at distinct
  have fresh := (List.nodup_append.mp distinct).2.2
  have absent : registered.lookup b = none := by
    rw [List.lookup_eq_none_iff]
    intro p member
    have differ := fresh p.1 (List.mem_map_of_mem member) b (List.mem_singleton_self b)
    simpa using Ne.symm differ
  rw [shown, new, List.lookup_append, absent, Option.none_or, List.lookup_cons_self]

theorem submit_produced {viz : Viz A} (frame : CompositorFrame A Backing) (same : s'.viz = viz) :
    (submit (frame, s')).viz.produced = viz.produced ++ [.submitted frame] := by
  rw [submit, same]
  rfl

theorem inkFrame_answered (h : Sound s s.viz.ledger) (useGpu : Bool) (args : A)
    (redraw : s.needRedraw = true) :
    (Unbound (gpuPath useGpu s) ∧
      onBeginFrame (.inkClient useGpu) args s = .error .nullSharedImageInterface) ∨
    ∃ s' produced, onBeginFrame (.inkClient useGpu) args s = .ok s' ∧
      Answered (.inkClient useGpu) args s s' produced := by
  let s₀ : Sink T A := { s with frameTokenGenerator := nextFrameToken s.frameTokenGenerator }
  have h₀ : Sound s₀ s.viz.ledger := h.frame rfl rfl rfl rfl
  obtain ⟨unbound, error⟩ | ⟨frame, s₁, id, b, run, appends⟩ :=
    appendResourceDrawQuad_sound h₀ useGpu .texture s₀.bitmap
      { beginFrameAck := args, frameToken := s₀.frameTokenGenerator }
  · refine .inl ⟨unbound, ?_⟩
    simp only [onBeginFrame]
    rw [if_pos redraw]
    simp only [createInkFrame]
    rw [error]
    rfl
  · have records := appendResourceDrawQuad_ok run
    obtain ⟨c, registered⟩ := records.registered
    have same : c = b := by
      have known := appends.known
      rw [Sink.known, registered, List.map_append] at known
      exact (List.cons.inj (List.append_cancel_left known)).1
    subst same
    have picture := shown_new registered appends.sound.distinct
    let built : CompositorFrame A Backing := { frame with
      quads := frame.quads ++ [.solidColor ((s₁.frameTokenGenerator / 60 + 1) % colors)] }
    refine .inr ⟨{ submit (built, s₁) with needRedraw := false }, .submitted built, ?_,
      submit_produced built appends.viz, records.ack,
      fun _ => ⟨redraw.symm, ?_, rfl, records.path, records.bitmap⟩⟩
    · simp only [onBeginFrame]
      rw [if_pos redraw]
      simp only [createInkFrame]
      rw [run]
      rfl
    · intro ack pictures submitted
      obtain ⟨-, rfl⟩ := Answer.submitCompositorFrame.inj submitted
      rw [appends.resourceList]
      exact congrArg (fun p => [p]) picture

theorem onBeginFrame_answered (h : Sound s s.viz.ledger) (kind : Kind) (args : A) :
    (Unbound (framePath kind s) ∧ onBeginFrame kind args s = .error .nullSharedImageInterface) ∨
    ∃ s' produced, onBeginFrame kind args s = .ok s' ∧ Answered kind args s s' produced := by
  let s₀ : Sink T A := { s with frameTokenGenerator := nextFrameToken s.frameTokenGenerator }
  have h₀ : Sound s₀ s₀.viz.ledger := h.frame rfl rfl rfl rfl
  cases kind with
  | inkClient useGpu =>
    cases redraw : s.needRedraw with
    | true =>
      have path : framePath (.inkClient useGpu) s = gpuPath useGpu s := if_pos redraw
      rw [path]
      exact inkFrame_answered h useGpu args redraw
    | false =>
      refine .inr ⟨{ s with viz := s.viz.didNotProduceFrame args, needRedraw := false }, _, ?_,
        rfl, rfl, fun _ =>
          ⟨redraw.symm, fun _ _ absurd => (by cases absurd), rfl, rfl, rfl⟩⟩
      simp [onBeginFrame, redraw]
  | layerTreeFrameSink useGpu =>
    simp only [onBeginFrame]
    split
    case isTrue turn =>
      have path : framePath (.layerTreeFrameSink useGpu) s = gpuPath useGpu s := if_pos turn
      rw [path]
      obtain ⟨unbound, error⟩ | ⟨frame, s', made, run, builds, -⟩ :=
        createLayerFrame_sound h₀ useGpu useGpu args
      · exact .inl ⟨unbound, by rw [error]; rfl⟩
      · exact .inr ⟨submit (frame, s'), .submitted frame, by rw [run]; rfl,
          submit_produced frame builds.viz, createLayerFrame_ack run, fun ink => by cases ink⟩
    case isFalse =>
      exact .inr ⟨_, .didNotProduceFrame args, rfl, rfl, rfl, fun ink => by cases ink⟩
  | guiGpuLayerTreeFrameSink =>
    simp only [onBeginFrame]
    obtain ⟨unbound, error⟩ | ⟨frame, s', made, run, builds, -⟩ :=
      createLayerFrame_sound h₀ true false args
    · exact .inl ⟨unbound, by rw [error]; rfl⟩
    · exact .inr ⟨submit (frame, s'), .submitted frame, by rw [run]; rfl,
        submit_produced frame builds.viz, createLayerFrame_ack run, fun ink => by cases ink⟩

theorem onBeginFrame_unbound (h : Sound s s.viz.ledger) {kind : Kind} (args : A)
    (unbound : Unbound (framePath kind s)) :
    onBeginFrame kind args s = .error .nullSharedImageInterface := by
  obtain ⟨-, error⟩ | ⟨s', made, -, begins⟩ := onBeginFrame_sound h kind args
  · exact error
  · obtain ⟨p, path, missing⟩ := unbound
    obtain ⟨b, member, shared⟩ := begins.some_made (by rw [path]; rfl)
    have on := begins.madeOn b member
    cases b with
    | sharedBitmap id => cases shared
    | sharedImage q mailbox =>
      obtain ⟨same, interface⟩ := on
      obtain rfl := Option.some.inj (path.symm.trans same)
      rw [missing] at interface
      cases interface

theorem receiveAndRemove_ink {resources : List Returned}
    (run : receiveAndRemove resources s = .ok s') :
    s'.path = s.path ∧ s'.bitmap = s.bitmap ∧ s'.needRedraw = s.needRedraw := by
  rw [receiveAndRemove] at run
  split at run
  · cases run
  · obtain rfl := Except.ok.inj run
    rw [runReleaseCallbacks]
    exact ⟨rfl, rfl, rfl⟩

end Frames

def Task.IsProvider (task : Task) : Prop := ∃ provider, task = .setContextProvider provider

structure Waiting (w : World T A) (log : List (Event A)) : Prop where
  notBound : w.isBound = false
  fresh : ∃ provider child surface, w.client.sink =
    { contextProvider := provider, childFrameSinkId := child, localSurfaceId := surface }
  quiet : ∀ event ∈ log, ∃ location, event = .posted location
  queue : if w.bindCalled then
      ∃ front back, w.tasks = front ++ .bind :: back ∧ (∀ task ∈ front, task.IsProvider) ∧
        .bind ∉ back
    else ∀ task ∈ w.tasks, task.IsProvider

structure Pictured (s : Sink T A) (log : List (Event A)) : Prop where
  needRedraw : s.needRedraw = dirty log
  path : s.path = (0, 0) :: drawn log
  bitmap : s.bitmap = picture (drawn log)

theorem Pictured.beginFrame {s s' : Sink T A} {log : List (Event A)} (h : Pictured s log)
    {answer : Answer A} (inked : Inked s s' answer) (args : A) :
    Pictured s' (log ++ [.onBeginFrame args [answer]]) := by
  have isFrame : answer.isFrame = dirty log := inked.isFrame.trans h.needRedraw
  refine ⟨?_, ?_, ?_⟩
  · rw [dirty_concat]
    show s'.needRedraw = (dirty log && !(answer.isFrame || false))
    rw [inked.needRedraw, isFrame, Bool.or_false, Bool.and_not_self]
  · rw [drawn_other rfl]
    exact inked.path.trans h.path
  · rw [drawn_other rfl]
    exact inked.bitmap.trans h.bitmap

structure Drawing (kind : Kind) (w : World T A) (log : List (Event A)) : Prop where
  isBound : w.isBound = true
  bindCalled : w.bindCalled = true
  once : .bind ∉ w.tasks
  logged : .bind ∈ log
  balanced : w.client.Balanced
  ink : isInk kind = true → Pictured w.client.sink log

structure Inv (kind : Kind) (w : World T A × List (Event A)) : Prop extends Faithful kind w where
  stage : Waiting w.1 w.2 ∨ Drawing kind w.1 w.2

theorem start_inv (kind : Kind) : Inv kind (({}, []) : World T A × List (Event A)) where
  history := history_nil _
  order := rfl
  canvas := rfl
  stage := .inl ⟨rfl, ⟨none, none, 0, rfl⟩, fun _ member => absurd member List.not_mem_nil,
    fun _ member => absurd member List.not_mem_nil⟩

section Stages
variable {kind : Kind} {w : World T A} {log : List (Event A)}

theorem Waiting.drawn (h : Waiting w log) : drawn log = [] := by
  rw [InkInput.drawn, List.filterMap_eq_nil_iff]
  intro event member
  obtain ⟨location, rfl⟩ := h.quiet event member
  rfl

theorem Waiting.head (h : Waiting w log) {task : Task} {tasks : List Task}
    (queue : w.tasks = task :: tasks) :
    task = .bind ∧ w.bindCalled = true ∧ .bind ∉ tasks ∨
    task.IsProvider ∧ Waiting { w with tasks := tasks } log := by
  have waits := h.queue
  rw [queue] at waits
  cases called : w.bindCalled with
  | true =>
    rw [called, if_pos rfl] at waits
    obtain ⟨front, back, split, providers, once⟩ := waits
    cases front with
    | nil =>
      obtain ⟨rfl, rfl⟩ := List.cons.inj split
      exact .inl ⟨rfl, rfl, once⟩
    | cons first front =>
      obtain ⟨rfl, rfl⟩ := List.cons.inj split
      refine .inr ⟨providers task List.mem_cons_self, h.notBound, h.fresh, h.quiet, ?_⟩
      simp only [if_true]
      exact ⟨front, back, rfl, fun other member =>
        providers other (List.mem_cons_of_mem task member), once⟩
  | false =>
    rw [called, if_neg Bool.false_ne_true] at waits
    refine .inr ⟨waits task List.mem_cons_self, h.notBound, h.fresh, h.quiet, ?_⟩
    simp only [Bool.false_eq_true, if_false]
    exact fun other member => waits other (List.mem_cons_of_mem task member)

theorem Waiting.posted (h : Waiting w log) (location : Int × Int) :
    Waiting w (log ++ [.posted location]) := by
  refine ⟨h.notBound, h.fresh, fun event member => ?_, h.queue⟩
  rcases List.mem_append.mp member with old | new
  · exact h.quiet event old
  · exact ⟨location, List.mem_singleton.mp new⟩

theorem Waiting.post (h : Waiting w log) {task : Task} (other : task ≠ .bind)
    (behind : task.IsProvider ∨ w.bindCalled = true) : Waiting (post task w) log := by
  refine ⟨h.notBound, h.fresh, h.quiet, ?_⟩
  have waits := h.queue
  cases called : w.bindCalled with
  | true =>
    rw [called, if_pos rfl] at waits
    obtain ⟨front, back, split, providers, once⟩ := waits
    simp only [InkInput.post, called, if_true]
    refine ⟨front, back ++ [task], ?_, providers, ?_⟩
    · rw [split, List.append_assoc, List.cons_append]
    rw [List.mem_append, List.mem_singleton]
    exact fun member => member.elim once fun same => other same.symm
  | false =>
    rw [called, if_neg Bool.false_ne_true] at waits
    simp only [InkInput.post, called, Bool.false_eq_true, if_false]
    intro each member
    rcases List.mem_append.mp member with old | new
    · exact waits each old
    · rw [List.mem_singleton.mp new]
      exact behind.resolve_right (by rw [called]; exact Bool.false_ne_true)

theorem Waiting.bind (h : Waiting w log) (first : w.bindCalled = false) :
    Waiting (InkInput.post .bind { w with bindCalled := true }) log := by
  refine ⟨h.notBound, h.fresh, h.quiet, ?_⟩
  have waits := h.queue
  rw [first, if_neg Bool.false_ne_true] at waits
  exact ⟨w.tasks, [], rfl, waits, List.not_mem_nil⟩

theorem Waiting.bound (h : Waiting w log) (called : w.bindCalled = true) {tasks : List Task}
    (once : .bind ∉ tasks) :
    Drawing kind
      { w with tasks := tasks, client.sink := bindOn kind w.client.sink, isBound := true }
      (log ++ [.bind]) := by
  obtain ⟨provider, child, surface, fresh⟩ := h.fresh
  refine ⟨rfl, called, once, List.mem_append_right _ (List.mem_singleton_self _), ?_, ?_⟩
  · have balanced : (VizLayerClient.bound kind : Client T A).Balanced := bound_balanced kind
    rw [fresh]
    cases kind <;> exact balanced.frame rfl rfl rfl rfl
  · intro ink
    cases kind with
    | inkClient useGpu =>
      have nothing : InkInput.drawn (log ++ [.bind]) = [] := by
        rw [drawn_other rfl, h.drawn]
      rw [fresh]
      refine ⟨?_, ?_, ?_⟩
      · rw [dirty_concat]
        rfl
      · rw [nothing]
        rfl
      · rw [nothing]
        rfl
    | layerTreeFrameSink useGpu => cases ink
    | guiGpuLayerTreeFrameSink => cases ink

theorem Drawing.stroke (h : Drawing kind w log) {location : Int × Int} {tasks : List Task}
    (queue : w.tasks = .draw location :: tasks) :
    Drawing kind { w with tasks := tasks, client.sink := draw location w.client.sink }
      (log ++ [.draw location]) where
  isBound := h.isBound
  bindCalled := h.bindCalled
  once member := h.once (by rw [queue]; exact List.mem_cons_of_mem _ member)
  logged := List.mem_append_left _ h.logged
  balanced := h.balanced.frame rfl rfl rfl rfl
  ink ink := by
    have ink := h.ink ink
    refine ⟨by rw [dirty_concat]; rfl, ?_, ?_⟩
    · rw [drawn_draw]
      exact congrArg (fun path => path ++ [location]) ink.path
    · rw [drawn_draw, picture_concat]
      exact congrArg (fun path => Bitmap.path (path ++ [location])) ink.path

theorem Drawing.provide (h : Drawing kind w log) {provider : Nat} {tasks : List Task}
    (queue : w.tasks = .setContextProvider provider :: tasks) (bound : Bool) :
    Drawing kind { w with
      tasks := tasks
      client.sink := VizLayerClient.setContextProvider ⟨provider, bound⟩ w.client.sink } log where
  isBound := h.isBound
  bindCalled := h.bindCalled
  once member := h.once (by rw [queue]; exact List.mem_cons_of_mem _ member)
  logged := h.logged
  balanced := h.balanced.frame rfl rfl rfl rfl
  ink ink := ⟨(h.ink ink).needRedraw, (h.ink ink).path, (h.ink ink).bitmap⟩

theorem Drawing.post (h : Drawing kind w log) {task : Task} (other : task ≠ .bind) :
    Drawing kind (post task w) log :=
  { h with
    once := by
      rw [InkInput.post, List.mem_append, List.mem_singleton]
      exact fun member => member.elim h.once fun same => other same.symm }

theorem Drawing.posted (h : Drawing kind w log) (location : Int × Int) :
    Drawing kind w (log ++ [.posted location]) :=
  { h with
    logged := List.mem_append_left _ h.logged
    ink := fun ink => by
      have ink := h.ink ink
      refine ⟨?_, ?_, ?_⟩
      · rw [dirty_concat]
        exact ink.needRedraw
      · rw [drawn_other rfl]
        exact ink.path
      · rw [drawn_other rfl]
        exact ink.bitmap }

theorem Drawing.receive (h : Drawing kind w log) {c : Client T A} {resources : List Returned}
    (balanced : c.Balanced) (settled : c =
      .settle (returned resources w.client.sink)
        (receiveAndRemove resources (returned resources w.client.sink))) :
    Drawing kind { w with client := c } log where
  isBound := h.isBound
  bindCalled := h.bindCalled
  once := h.once
  logged := h.logged
  balanced := balanced
  ink ink := by
    have ink := h.ink ink
    rw [settled]
    cases run : receiveAndRemove resources (returned resources w.client.sink) with
    | error fault => exact ⟨ink.needRedraw, ink.path, ink.bitmap⟩
    | ok s' =>
      obtain ⟨path, bitmap, needRedraw⟩ := receiveAndRemove_ink run
      exact ⟨needRedraw.trans ink.needRedraw, path.trans ink.path, bitmap.trans ink.bitmap⟩

theorem Drawing.sound (h : Drawing kind w log) :
    Sound (returned [] w.client.sink) (returned [] w.client.sink).viz.ledger :=
  h.balanced.frame rfl rfl rfl rfl

theorem Drawing.beginFrame_unbound (h : Drawing kind w log) {args : A} {c : Client T A}
    (settled : c =
      .settle (returned [] w.client.sink) (onBeginFrame kind args (returned [] w.client.sink)))
    (unbound : Unbound (framePath kind w.client.sink)) :
    answers w { w with client := c } = [] := by
  rw [← GpuFallback.framePath_returned kind [] w.client.sink] at unbound
  rw [onBeginFrame_unbound h.sound args unbound] at settled
  rw [settled, answers]
  exact congrArg (List.map _) List.drop_length

theorem Drawing.beginFrame (h : Drawing kind w log) {args : A} {c : Client T A}
    (balanced : c.Balanced) (settled : c =
      .settle (returned [] w.client.sink) (onBeginFrame kind args (returned [] w.client.sink)))
    (provided : ¬ Unbound (framePath kind w.client.sink)) :
    Answers kind log args (answers w { w with client := c }) ∧
      Drawing kind { w with client := c }
        (log ++ [.onBeginFrame args (answers w { w with client := c })]) := by
  obtain ⟨unbound, -⟩ | ⟨s', product, run, answered⟩ :=
    onBeginFrame_answered h.sound kind args
  · rw [GpuFallback.framePath_returned] at unbound
    exact absurd unbound provided
  rw [run] at settled
  have produced : s'.viz.produced = w.client.sink.viz.produced ++ [product] := answered.produced
  have once : answers w { w with client := c } = [answer s'.service product] := by
    rw [settled, answers]
    show (s'.viz.produced.drop w.client.sink.viz.produced.length).map _ = _
    rw [produced, List.drop_left]
    rfl
  rw [once]
  refine ⟨⟨⟨_, rfl, answered.ack⟩, fun ink => ?_, fun ink ack pictures member => ?_⟩,
    { h with
      balanced := balanced
      logged := List.mem_append_left _ h.logged
      ink := fun ink => ?_ }⟩
  · rw [List.any_cons, List.any_nil, Bool.or_false, (answered.ink ink).isFrame]
    exact (h.ink ink).needRedraw
  · rw [← (h.ink ink).bitmap]
    exact (answered.ink ink).shown ack pictures (List.mem_singleton.mp member).symm
  · rw [settled]
    exact (h.ink ink).beginFrame (answered.ink ink) args

end Stages

section Steps
variable {kind : Kind} {w : World T A} {log : List (Event A)}

theorem Inv.bind (h : Inv kind (w, log)) (first : w.bindCalled = false) :
    Inv kind (post .bind { w with bindCalled := true }, log) where
  history := h.history
  order := h.order.trans (congrArg _ (queued_other w.tasks rfl).symm)
  canvas := h.canvas
  stage := by
    rcases h.stage with waiting | drawing
    · exact .inl (waiting.bind first)
    · have called : w.bindCalled = true := drawing.bindCalled
      rw [first] at called
      cases called

theorem Inv.postProvider (h : Inv kind (w, log)) (provider : Nat) :
    Inv kind (post (.setContextProvider provider) w, log) where
  history := h.history
  order := h.order.trans (congrArg _ (queued_other w.tasks rfl).symm)
  canvas := h.canvas
  stage := h.stage.imp (fun waiting => waiting.post nofun (.inl ⟨provider, rfl⟩))
    fun drawing => drawing.post nofun

theorem Inv.postDraw (h : Inv kind (w, log)) (called : w.bindCalled = true)
    (location : Int × Int) : Inv kind (post (.draw location) w, log ++ [.posted location]) where
  history := history_concat.mpr ⟨h.history, trivial⟩
  order := by
    have order : posted log = drawn log ++ queued w.tasks := h.order
    rw [posted_posted, drawn_other rfl, post, queued_draw, ← List.append_assoc, order]
  canvas := h.canvas
  stage := by
    have other : Task.draw location ≠ .bind := nofun
    rcases h.stage with waiting | drawing
    · exact .inl ((waiting.post other (.inr called)).posted location)
    · exact .inr ((drawing.post other).posted location)

theorem Inv.embedChild (h : Inv kind (w, log)) (childFrameSinkId : Nat) :
    Inv kind ({ w with client.sink := embedChild childFrameSinkId w.client.sink }, log) where
  history := h.history
  order := h.order
  canvas := h.canvas
  stage := by
    rcases h.stage with waiting | drawing
    · obtain ⟨provider, child, surface, fresh⟩ := waiting.fresh
      refine .inl { waiting with fresh := ⟨provider, childFrameSinkId, surface + 1, ?_⟩ }
      exact congrArg (VizLayerClient.embedChild childFrameSinkId) fresh
    · exact .inr { drawing with
        balanced := drawing.balanced.frame rfl rfl rfl rfl
        ink := fun ink => ⟨(drawing.ink ink).needRedraw, (drawing.ink ink).path,
          (drawing.ink ink).bitmap⟩ }

theorem Inv.runBind (h : Inv kind (w, log)) {tasks : List Task} (queue : w.tasks = .bind :: tasks) :
    Inv kind ({ w with
      tasks := tasks, client.sink := bindOn kind w.client.sink, isBound := true },
      log ++ [.bind]) := by
  have order : posted log = drawn log ++ queued w.tasks := h.order
  rw [queue] at order
  refine ⟨⟨history_concat.mpr ⟨h.history, trivial⟩, ?_, h.canvas⟩, .inr ?_⟩
  · rw [posted_other rfl, drawn_other rfl]
    exact order
  · rcases h.stage with waiting | drawing
    · obtain ⟨-, called, once⟩ | ⟨⟨provider, absurd⟩, -⟩ := waiting.head queue
      · exact waiting.bound called once
      · cases absurd
    · have once : .bind ∉ w.tasks := drawing.once
      rw [queue] at once
      exact absurd List.mem_cons_self once

theorem Inv.runDraw (h : Inv kind (w, log)) {location : Int × Int} {tasks : List Task}
    (queue : w.tasks = .draw location :: tasks) (dchecks binds : Bool) :
    Inv kind (InkInput.runTask dchecks kind binds { w with tasks := tasks } (.draw location),
      log ++ [.draw location]) := by
  have order : posted log = drawn log ++ queued w.tasks := h.order
  rw [queue] at order
  rcases h.stage with waiting | drawing
  · obtain ⟨absurd, -⟩ | ⟨⟨provider, absurd⟩, -⟩ := waiting.head queue <;> cases absurd
  have isBound : w.isBound = true := drawing.isBound
  have run : InkInput.runTask dchecks kind binds { w with tasks := tasks } (.draw location) =
      { w with tasks := tasks, client.sink := draw location w.client.sink } := if_pos isBound
  rw [run]
  refine ⟨⟨history_concat.mpr ⟨h.history, drawing.logged⟩, ?_, h.canvas⟩,
    .inr (drawing.stroke queue)⟩
  rw [posted_other rfl, drawn_draw, List.append_assoc]
  exact order

theorem Inv.runProvider (h : Inv kind (w, log)) {provider : Nat} {tasks : List Task}
    (queue : w.tasks = .setContextProvider provider :: tasks) (bound dcheckFailed : Bool) :
    Inv kind ({ w with
      tasks := tasks
      client.sink := VizLayerClient.setContextProvider ⟨provider, bound⟩ w.client.sink
      dcheckFailed := dcheckFailed }, log) := by
  have order : posted log = drawn log ++ queued w.tasks := h.order
  rw [queue] at order
  refine ⟨⟨h.history, order, h.canvas⟩, ?_⟩
  rcases h.stage with waiting | drawing
  · obtain ⟨absurd, -⟩ | ⟨-, waiting⟩ := waiting.head queue
    · cases absurd
    · obtain ⟨old, child, surface, fresh⟩ := waiting.fresh
      refine .inl ⟨waiting.notBound, ⟨some ⟨provider, bound⟩, child, surface, ?_⟩,
        waiting.quiet, waiting.queue⟩
      exact congrArg (VizLayerClient.setContextProvider ⟨provider, bound⟩) fresh
  · have provided := drawing.provide queue bound
    exact .inr ⟨provided.isBound, provided.bindCalled, provided.once, provided.logged,
      provided.balanced, provided.ink⟩

theorem Inv.runTask (h : Inv kind (w, log)) {task : Task} {tasks : List Task}
    (queue : w.tasks = task :: tasks) (dchecks binds : Bool) (t : World T A) :
    Inv kind (runTask dchecks kind binds { w with tasks := tasks } task,
      log ++ note w (.runTask binds) t) := by
  cases task with
  | bind =>
    have noted : note w (.runTask binds) t = [.bind] := by
      simp only [note, queue]
    rw [noted]
    exact h.runBind queue
  | draw location =>
    have noted : note w (.runTask binds) t = [.draw location] := by
      simp only [note, queue]
    rw [noted]
    exact h.runDraw queue dchecks binds
  | setContextProvider provider =>
    have noted : note w (.runTask binds) t = [] := by
      simp only [note, queue]
    rw [noted, List.append_nil]
    exact h.runProvider queue (dchecks && binds) (dchecks && !binds)

theorem Inv.drawing (h : Inv kind (w, log)) (isBound : w.isBound = true) : Drawing kind w log := by
  refine h.stage.resolve_left fun waiting => ?_
  have notBound : w.isBound = false := waiting.notBound
  rw [isBound] at notBound
  cases notBound

theorem step_message {m : Message A} {c : Client T A} (balanced : w.client.Balanced)
    (running : w.client.fault = none)
    (taken : VizLayerClient.step kind w.client (.message m) = some c) :
    c.Balanced ∧ c = .settle (returned m.resources w.client.sink)
      (handle kind m (returned m.resources w.client.sink)) := by
  have stepped := taken
  simp only [VizLayerClient.step, Option.ite_none_right_eq_some] at stepped
  refine ⟨balanced_step kind w.client (.message m) c balanced ?_, (Option.some.inj stepped.2).symm⟩
  exact (Machine.haltOn_step (by rw [running]; rfl) _ _).trans taken

theorem Inv.message (h : Inv kind (w, log)) (isBound : w.isBound = true)
    (running : w.client.fault = none) {m : Message A} {c : Client T A}
    (taken : VizLayerClient.step kind w.client (.message m) = some c)
    (provided : Provided kind (w, log) (.message m)) :
    Inv kind ({ w with client := c }, log ++ note w (.message m) { w with client := c }) := by
  have drawing := h.drawing isBound
  obtain ⟨balanced, settled⟩ := step_message drawing.balanced running taken
  cases m with
  | didReceiveCompositorFrameAck resources | reclaimResources resources =>
    rw [note, List.append_nil]
    exact ⟨⟨h.history, h.order, h.canvas⟩, .inr (drawing.receive balanced settled)⟩
  | onBeginFrame args =>
    obtain ⟨answers, drawing⟩ := drawing.beginFrame balanced settled provided
    refine ⟨⟨history_concat.mpr ⟨h.history, answers⟩, ?_, h.canvas⟩, .inr drawing⟩
    have order : posted log = drawn log ++ queued w.tasks := h.order
    rw [note, posted_other rfl, drawn_other rfl]
    exact order

end Steps

theorem running_of {w : World T A} (running : w.halted = false) : w.client.fault = none := by
  simp only [World.halted, Bool.or_eq_false_iff, Option.isSome_eq_false_iff,
    Option.isNone_iff_eq_none] at running
  exact running.2

theorem step_inv (dchecks : Bool) (kind : Kind) (w : World T A × List (Event A)) (a : Action A)
    (u : World T A × List (Event A)) (h : Inv kind w) (provided : Provided kind w a)
    (moved : (recorded dchecks kind).step w a = some u) : Inv kind u := by
  obtain ⟨w, log⟩ := w
  obtain ⟨t, after⟩ := u
  obtain ⟨moved, logged⟩ := Machine.step_of_recording moved
  obtain ⟨running, moved⟩ := Machine.step_of_haltOn moved
  obtain rfl : after = log ++ note w a t := logged
  cases a with
  | bind =>
    obtain ⟨first, moved⟩ := Option.ite_none_left_eq_some.mp moved
    obtain rfl := Option.some.inj moved
    rw [note, List.append_nil]
    exact h.bind (Bool.not_eq_true _ ▸ first)
  | didProcessEvent type location =>
    obtain ⟨observes, moved⟩ := Option.ite_none_right_eq_some.mp moved
    obtain rfl := Option.some.inj moved
    rw [note, didProcessEvent]
    split
    · exact h.postDraw (Bool.and_eq_true_iff.mp observes).1 location
    · rw [List.append_nil]
      exact h
  | setContextProvider provider =>
    obtain rfl := Option.some.inj moved
    rw [note, List.append_nil]
    exact h.postProvider provider
  | embedChild childFrameSinkId =>
    obtain rfl := Option.some.inj moved
    rw [note, List.append_nil]
    exact h.embedChild childFrameSinkId
  | runTask binds =>
    simp only [step] at moved
    split at moved
    · cases moved
    · next task tasks queue =>
      obtain rfl := Option.some.inj moved
      exact h.runTask queue dchecks binds _
  | message m =>
    obtain ⟨isBound, moved⟩ := Option.ite_none_right_eq_some.mp moved
    obtain ⟨c, taken, rfl⟩ := Option.map_eq_some_iff.mp moved
    exact h.message isBound (running_of running) taken provided

theorem step_not_faithful (dchecks : Bool) (kind : Kind) (w : World T A × List (Event A))
    (a : Action A) (u : World T A × List (Event A)) (h : Inv kind w) (bad : ¬ Provided kind w a)
    (moved : (recorded dchecks kind).step w a = some u) : ¬ Faithful kind u := by
  obtain ⟨w, log⟩ := w
  obtain ⟨t, after⟩ := u
  obtain ⟨moved, logged⟩ := Machine.step_of_recording moved
  obtain ⟨running, moved⟩ := Machine.step_of_haltOn moved
  obtain rfl : after = log ++ note w a t := logged
  intro faithful
  cases a with
  | bind | didProcessEvent type location | setContextProvider provider | embedChild child
  | runTask binds => exact bad trivial
  | message m =>
    obtain ⟨isBound, moved⟩ := Option.ite_none_right_eq_some.mp moved
    obtain ⟨c, taken, rfl⟩ := Option.map_eq_some_iff.mp moved
    have drawing := h.drawing isBound
    obtain ⟨-, settled⟩ := step_message drawing.balanced (running_of running) taken
    cases m with
    | didReceiveCompositorFrameAck resources | reclaimResources resources => exact bad trivial
    | onBeginFrame args =>
      have silent := drawing.beginFrame_unbound settled (not_not.mp bad)
      have lawful := (history_concat.mp faithful.history).2
      obtain ⟨answer, answered, -⟩ := lawful.once
      rw [silent] at answered
      cases answered

/-- Every begin frame of a run is answered once and with all the ink, and no draw is
lost, exactly if no begin frame makes resources on a context provider that is not
bound. -/
theorem faithful_iff (dchecks : Bool) (kind : Kind) (as : List (Action A)) :
    (∀ w ∈ (recorded dchecks kind).visited (({}, []) : World T A × List (Event A)) as,
      Faithful kind w) ↔
    ∀ p ∈ (recorded dchecks kind).taken (({}, []) : World T A × List (Event A)) as,
      Provided kind p.1 p.2 :=
  Machine.visited_iff_taken (fun _ h => h.toFaithful) (step_inv dchecks kind)
    (step_not_faithful dchecks kind) (start_inv kind) as

theorem release_frame_unanswered :
    ¬ ∀ (dchecks : Bool) (kind : Kind) (as : List (Action Unit)),
      ∀ w ∈ (recorded dchecks kind).visited
        (({}, []) : World (counting Backing) Unit × List (Event Unit)) as, Faithful kind w := by
  intro all
  have faithful := all false (.inkClient true)
    [.bind, .runTask true, .setContextProvider 0, .runTask true, .message (.onBeginFrame ())]
    _ (Machine.exec_mem_visited _ _ _)
  have lawful := faithful.history [.bind] (.onBeginFrame () []) [] rfl
  obtain ⟨answer, answered, -⟩ := lawful.once
  cases answered

def Interfaced (w : World T A) : Prop :=
  w.dcheckFailed = false → ∀ p, w.client.sink.contextProvider = some p →
    p.sharedImageInterface = true

theorem runTask_interfaced {kind : Kind} {w : World T A} (h : Interfaced w)
    (alive : w.dcheckFailed = false) (binds : Bool) (task : Task) :
    Interfaced (runTask true kind binds w task) := by
  cases task with
  | bind =>
    intro _ p stored
    refine h alive p (Eq.trans ?_ stored)
    cases kind <;> rfl
  | draw location =>
    rw [runTask]
    split
    · exact fun _ p stored => h alive p stored
    · exact fun _ p stored => h alive p stored
  | setContextProvider provider =>
    intro bound p stored
    obtain rfl := Option.some.inj stored
    cases binds with
    | true => rfl
    | false => cases bound

theorem step_interfaced {kind : Kind} {w t : World T A} {a : Action A} {log : List (Event A)}
    (inv : Inv kind (w, log)) (h : Interfaced w) (moved : (machine true kind).step w a = some t) :
    Interfaced t := by
  obtain ⟨running, moved⟩ := Machine.step_of_haltOn moved
  cases a with
  | bind =>
    obtain ⟨-, moved⟩ := Option.ite_none_left_eq_some.mp moved
    obtain rfl := Option.some.inj moved
    exact h
  | didProcessEvent type location =>
    obtain ⟨-, moved⟩ := Option.ite_none_right_eq_some.mp moved
    obtain rfl := Option.some.inj moved
    rw [didProcessEvent]
    split <;> exact h
  | setContextProvider provider | embedChild childFrameSinkId =>
    obtain rfl := Option.some.inj moved
    exact h
  | runTask binds =>
    simp only [step] at moved
    split at moved
    · cases moved
    · next task tasks queue =>
      obtain rfl := Option.some.inj moved
      simp only [World.halted, Bool.or_eq_false_iff] at running
      exact runTask_interfaced (w := { w with tasks := tasks }) h running.1.2 binds task
  | message m =>
    obtain ⟨isBound, moved⟩ := Option.ite_none_right_eq_some.mp moved
    obtain ⟨c, taken, rfl⟩ := Option.map_eq_some_iff.mp moved
    obtain ⟨provider, -⟩ := GpuFallback.step_message (inv.drawing isBound).balanced taken
    intro alive p stored
    exact h alive p (provider ▸ stored)

theorem Interfaced.provided {kind : Kind} {w : World T A × List (Event A)} (h : Interfaced w.1)
    (running : w.1.halted = false) (a : Action A) : Provided kind w a := by
  simp only [World.halted, Bool.or_eq_false_iff] at running
  cases a with
  | message m =>
    cases m with
    | onBeginFrame args =>
      rintro ⟨p, path, missing⟩
      have interface := h running.1.2 p (GpuFallback.contextProvider_of_framePath path)
      rw [missing] at interface
      cases interface
    | didReceiveCompositorFrameAck resources | reclaimResources resources => trivial
  | bind | didProcessEvent type location | setContextProvider provider | embedChild child
  | runTask binds => trivial

theorem faithful_with_dchecks (kind : Kind) (as : List (Action A)) :
    ∀ w ∈ (recorded true kind).visited (({}, []) : World T A × List (Event A)) as,
      Faithful kind w := by
  let Checked (w : World T A × List (Event A)) : Prop := Inv kind w ∧ Interfaced w.1
  have keeps (w : World T A × List (Event A)) (a : Action A) (u : World T A × List (Event A))
      (h : Checked w) (moved : (recorded true kind).step w a = some u) : Checked u := by
    have stepped := (Machine.step_of_recording moved).1
    have provided : Provided kind w a := h.2.provided (Machine.step_of_haltOn stepped).1 a
    exact ⟨step_inv true kind w a u h.1 provided moved, step_interfaced h.1 h.2 stepped⟩
  have start : Checked ({}, []) := ⟨start_inv kind, fun _ p stored => by cases stored⟩
  intro w member
  exact (Machine.visited_invariant keeps start as w member).1.toFaithful

end ChromiumDemo.InkInput
