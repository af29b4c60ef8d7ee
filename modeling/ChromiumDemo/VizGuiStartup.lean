import ChromiumDemo.VizGuiClient

/-! The start of a demo_viz_gui client. `InitializeOnThread` posts `BindOnThread`
to the client and asks the GPU main thread for an image provider, which comes back
as a second task of the client; viz may ask for frames as soon as the first task
has run. A frame needs the provider and its interface, and is built without asking
for either. -/

namespace ChromiumDemo.VizGuiStartup
open TransitionSystem LeaseLedger ReleaseTable CompositorFrames VizGuiClient

variable {A : Type*} {T : Implementation SharedImage}

inductive ClientTask
  | bindOnThread
  | bindSharedImageInterfaceProvider
deriving DecidableEq

/-- `requests` are those posted to the GPU main thread and not yet served. -/
structure Host (T : Implementation SharedImage) (A : Type*) where
  client : Client T A := {}
  initialized : Bool := false
  requests : Nat := 0
  tasks : List ClientTask := []

inductive Action (A : Type*)
  | initializeOnThread
  | serveRequest
  | embedChild (childFrameSinkId : Nat)
  | runTask
  | message (m : Message A)

def runClientTask : ClientTask → LayerTreeFrameSink T A → LayerTreeFrameSink T A
  | .bindOnThread => VizGuiClient.bindOnThread
  | .bindSharedImageInterfaceProvider => VizGuiClient.bindSharedImageInterfaceProvider

def step (h : Host T A) : Action A → Option (Host T A)
  | .initializeOnThread =>
    if h.initialized then none
    else some { h with
      initialized := true
      tasks := h.tasks ++ [.bindOnThread]
      requests := h.requests + 1 }
  | .serveRequest =>
    if h.requests = 0 then none
    else some { h with
      requests := h.requests - 1
      tasks := h.tasks ++ [.bindSharedImageInterfaceProvider] }
  | .embedChild childFrameSinkId =>
    some { h with client.sink := embedChild childFrameSinkId h.client.sink }
  | .runTask => match h.tasks with
    | [] => none
    | task :: tasks =>
      some { h with tasks := tasks, client.sink := runClientTask task h.client.sink }
  | .message m => (receive h.client m).map fun client => { h with client := client }

def machine (T : Implementation SharedImage) : Machine (Host T A) (Action A) :=
  .haltOn (fun h => h.client.fault.isSome) step

/-- Nothing that is not imported was ever sent, and each resource that a quad of
a submitted frame names is in the list of the frame. -/
structure NamesImported (h : Host T A) : Prop where
  fault : h.client.fault = none
  listed : ∀ frame ∈ h.client.sink.viz.frames, ∀ quad ∈ frame.quads, ∀ id,
    quad.resource = some id → id ∈ frame.resourceList.map Prod.fst

/-- A `BeginFrame` finds the image provider bound and both answers of
`GetSharedImageInterface` are interfaces. -/
def HasImages (h : Host T A) (a : Action A) : Prop :=
  ∀ args tile texture resources, a = .message (.onBeginFrame args tile texture resources) →
    h.client.sink.sharedImageInterfaceProvider = true ∧ tile = true ∧ texture = true

def Covers (s : LayerTreeFrameSink T A) : Prop :=
  ∃ t l, s.clientResourceProvider = some t ∧ T.Lent t l ∧ l.out 0 = none ∧
    ∀ id b, s.viz.ledger.out id = some b → l.out id = some b

structure Inv (h : Host T A) : Prop where
  fault : h.client.fault = none
  listed : ∀ frame ∈ h.client.sink.viz.frames, ∀ quad ∈ frame.quads, ∀ id,
    quad.resource = some id → id ∈ frame.resourceList.map Prod.fst
  covers : h.client.sink.viz.needsBeginFrame = true → Covers h.client.sink
  unused : h.client.sink.viz.needsBeginFrame = false → h.client.sink.viz.ledger = {}
  once : h.tasks.count .bindOnThread + (if h.client.sink.viz.needsBeginFrame then 1 else 0) =
    if h.initialized then 1 else 0

theorem start_inv : Inv ({} : Host T A) where
  fault := rfl
  listed := fun _ member => absurd member List.not_mem_nil
  covers := fun needs => by cases needs
  unused := fun _ => rfl
  once := rfl

theorem inv_task {h : Host T A} (inv : Inv h) {task : ClientTask} {tasks : List ClientTask}
    (queue : h.tasks = task :: tasks) :
    Inv { h with tasks := tasks, client.sink := runClientTask task h.client.sink } := by
  have once := inv.once
  rw [queue, List.count_cons] at once
  cases task with
  | bindSharedImageInterfaceProvider =>
    refine ⟨inv.fault, inv.listed, inv.covers, inv.unused, ?_⟩
    simp only [reduceCtorEq, beq_iff_eq, if_false, Nat.add_zero] at once
    exact once
  | bindOnThread =>
    -- the one binding, so that nothing has been sent yet
    have unbound : h.client.sink.viz.needsBeginFrame = false := by
      cases needs : h.client.sink.viz.needsBeginFrame with
      | false => rfl
      | true =>
        simp only [needs, BEq.rfl, if_true] at once
        split at once <;> omega
    refine ⟨inv.fault, inv.listed, fun _ => ?_, fun needs => (by cases needs), ?_⟩
    · refine ⟨T.new, {}, rfl, Implementation.lent_new, rfl, fun id b out => ?_⟩
      have ledger := inv.unused unbound
      change h.client.sink.viz.ledger.out id = some b at out
      rw [ledger] at out
      cases out
    · simp only [unbound, BEq.rfl, if_true, Bool.false_eq_true, if_false] at once
      simpa [runClientTask, VizGuiClient.bindOnThread] using once

theorem covers_takes {s : LayerTreeFrameSink T A} {l : Ledger SharedImage}
    (cover : ∀ id b, s.viz.ledger.out id = some b → l.out id = some b) {resources : List Returned}
    (takes : Takes s.viz.ledger resources) : Takes l resources := by
  refine ⟨takes.distinct, fun r member => ?_, takes.whole⟩
  obtain ⟨b, out⟩ := Option.isSome_iff_exists.mp (takes.out r member)
  rw [cover r.id b out]
  rfl

theorem covered_settled {l viz : Ledger SharedImage}
    (cover : ∀ id b, viz.out id = some b → l.out id = some b) (back : List Nat) (id : Nat)
    (b : SharedImage) (out : (viz.settleAll back).out id = some b) :
    id ∉ back ∧ l.out id = some b := by
  rw [Ledger.settleAll_out] at out
  split at out
  case isTrue => cases out
  case isFalse kept => exact ⟨kept, cover id b out⟩

theorem covered_lend {l viz : Ledger SharedImage}
    (cover : ∀ id b, viz.out id = some b → l.out id = some b) (i : Nat) (x : SharedImage)
    (id : Nat) (b : SharedImage) (out : (viz.lend i x).out id = some b) :
    (l.lend i x).out id = some b := by
  rw [Ledger.lend_out] at out ⊢
  split at out
  case isTrue same => rw [if_pos same, out]
  case isFalse differ => rw [if_neg differ, cover id b out]

theorem inv_message {h : Host T A} (inv : Inv h) {m : Message A}
    (images : HasImages h (.message m)) {client : Client T A}
    (received : receive h.client m = some client) : Inv { h with client := client } := by
  obtain ⟨-, needs, takes, rfl⟩ := receive_cases received
  obtain ⟨t, l, table, lent, zero, cover⟩ := inv.covers needs
  have settled := covered_settled cover (ids m.resources)
  have still (s : LayerTreeFrameSink T A) (bound : s.viz.needsBeginFrame = true) :
      s.viz.needsBeginFrame = false → s.viz.ledger = {} := fun unbound => by
    rw [bound] at unbound
    cases unbound
  cases m with
  | didReceiveCompositorFrameAck resources =>
    refine ⟨rfl, inv.listed, fun _ => ?_, still _ needs, inv.once⟩
    exact ⟨t, l, table, lent, zero, fun id b out => (settled id b out).2⟩
  | onBeginFrame args tile texture resources =>
    obtain ⟨provider, rfl, rfl⟩ := images args tile texture resources rfl
    obtain ⟨s', frame, i, j, x, y, run, submits⟩ :=
      onBeginFrame_ok (s := returned resources h.client.sink) table lent provider args resources
    rw [handle, Message.resources, run]
    have viz := submits.viz
    have ledger : s'.viz.ledger =
        ((returned resources h.client.sink).viz.ledger.lend i x).lend j y := by
      rw [viz, Viz.submitCompositorFrame, submits.resourceList]
      rfl
    have bound : s'.viz.needsBeginFrame = true := by
      rw [viz]
      exact needs
    refine ⟨rfl, ?_, fun _ => ?_, still _ bound, ?_⟩
    · intro f member
      change f ∈ s'.viz.frames at member
      rw [viz, Viz.submitCompositorFrame, List.mem_append, List.mem_singleton] at member
      obtain member | rfl := member
      · exact inv.listed f member
      · intro quad member id resource
        rw [submits.resourceList]
        simpa using submits.quads quad member id resource
    · obtain ⟨t', table', lent'⟩ := submits.lent
      refine ⟨t', _, table', lent', ?_, ?_⟩
      · rw [Ledger.lend_out, if_neg submits.valid.2.symm, Ledger.lend_out,
          if_neg submits.valid.1.symm, zero]
      · show ∀ id b, s'.viz.ledger.out id = some b → _
        rw [ledger]
        exact covered_lend (covered_lend (fun id b out => (settled id b out).2) i x) j y
    · have once := inv.once
      rw [needs] at once
      change _ + (if s'.viz.needsBeginFrame = true then 1 else 0) = _
      rw [bound]
      exact once
  | reclaimResources resources =>
    obtain ⟨t', freed, run, -, lent'⟩ :=
      reclaimResources_ok (s := returned resources h.client.sink) table lent
        (covers_takes cover takes)
    rw [handle, Message.resources]
    rw [Message.resources] at run
    rw [run]
    refine ⟨rfl, inv.listed, fun _ => ⟨t', _, rfl, lent', ?_, ?_⟩, still _ needs, inv.once⟩
    · rw [Ledger.settleAll_out, zero, ite_self]
    · intro id b out
      obtain ⟨kept, out⟩ := settled id b out
      rw [Ledger.settleAll_out, if_neg kept, out]

theorem inv_step (h : Host T A) (a : Action A) (d : Host T A) (inv : Inv h)
    (images : HasImages h a) (taken : (machine T).step h a = some d) : Inv d := by
  have stepped := (Machine.step_of_haltOn taken).2
  cases a with
  | initializeOnThread =>
    simp only [step] at stepped
    split at stepped
    case isTrue => cases stepped
    case isFalse fresh =>
      obtain rfl := Option.some.inj stepped
      refine ⟨inv.fault, inv.listed, inv.covers, inv.unused, ?_⟩
      have once := inv.once
      rw [if_neg fresh] at once
      simp only [List.count_append, List.count_singleton_self, if_true]
      omega
  | serveRequest =>
    simp only [step] at stepped
    split at stepped
    case isTrue => cases stepped
    case isFalse =>
      obtain rfl := Option.some.inj stepped
      refine ⟨inv.fault, inv.listed, inv.covers, inv.unused, ?_⟩
      simpa [List.count_append, List.count_singleton] using inv.once
  | embedChild childFrameSinkId =>
    obtain rfl := Option.some.inj stepped
    exact ⟨inv.fault, inv.listed, inv.covers, inv.unused, inv.once⟩
  | runTask =>
    simp only [step] at stepped
    split at stepped
    · cases stepped
    · next task tasks queue =>
      obtain rfl := Option.some.inj stepped
      exact inv_task inv queue
  | message m =>
    obtain ⟨client, received, rfl⟩ := Option.map_eq_some_iff.mp stepped
    exact inv_message inv images received

theorem fault_step (h : Host T A) (a : Action A) (d : Host T A) (inv : Inv h)
    (missing : ¬ HasImages h a) (taken : (machine T).step h a = some d) : ¬ NamesImported d := by
  intro names
  have stepped := (Machine.step_of_haltOn taken).2
  refine missing fun args tile texture resources same => ?_
  subst same
  obtain ⟨client, received, rfl⟩ := Option.map_eq_some_iff.mp stepped
  obtain ⟨-, needs, -, rfl⟩ := receive_cases received
  obtain ⟨t, l, table, lent, zero, -⟩ := inv.covers needs
  by_contra none_bound
  have fault := names.fault
  rw [handle, Message.resources, onBeginFrame_fault (s := returned resources h.client.sink) table
    lent zero none_bound] at fault
  cases fault

/-- Frames name imported resources in every state of a run exactly if each
`BeginFrame` of the run has its images. -/
theorem names_imported_iff (as : List (Action A)) :
    (∀ h ∈ (machine T).visited {} as, NamesImported h) ↔
      ∀ p ∈ (machine T).taken {} as, HasImages p.1 p.2 :=
  Machine.visited_iff_taken (fun _ inv => ⟨Inv.fault inv, inv.listed⟩) inv_step fault_step
    start_inv as

theorem frame_before_provider :
    ¬ ∀ h ∈ (machine (counting SharedImage)).visited ({} : Host _ Unit)
        [.initializeOnThread, .runTask, .message (.onBeginFrame () true true [])],
      NamesImported h := by
  intro names
  have fault := (names _ (Machine.exec_mem_visited _ _ _)).fault
  revert fault
  decide

end ChromiumDemo.VizGuiStartup
