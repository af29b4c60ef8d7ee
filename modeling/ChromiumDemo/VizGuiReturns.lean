import ChromiumDemo.VizGuiClient

/-! Which returns reach the resource provider of demo_viz_gui. Each of the three
messages may bring resources back, and only `ReclaimResources` looks at them, so
a run keeps its table exact as long as the other two bring none. -/

namespace ChromiumDemo.VizGuiClient
open TransitionSystem LeaseLedger ReleaseTable CompositorFrames

variable {A : Type*} {T : Implementation SharedImage}

inductive Action (A : Type*)
  | message (m : Message A)
  | embedChild (childFrameSinkId : Nat)

def machine (T : Implementation SharedImage) : Machine (Client T A) (Action A) where
  step c
    | .message m => receive c m
    | .embedChild childFrameSinkId => some { c with sink := embedChild childFrameSinkId c.sink }

def ready : Client T A := { sink := bindSharedImageInterfaceProvider (bindOnThread {}) }

/-- The imported ids are those in submitted frames that have not been returned,
and what has been returned was released, each image once. -/
structure Exact (c : Client T A) : Prop where
  imported : ∀ id, T.imported c.sink.clientResourceProvider id = (c.sink.viz.ledger.out id).isSome
  released : c.sink.released.Perm c.sink.viz.ledger.settled
  once : (c.sink.released.map SharedImage.name).Nodup

def Message.isReclaim : Message A → Bool
  | .reclaimResources _ => true
  | _ => false

def ReturnsByReclaim (a : Action A) : Prop :=
  ∀ m, a = .message m → m.isReclaim = false → m.resources = []

structure Balanced (c : Client T A) : Prop where
  table : ∃ t, c.sink.clientResourceProvider = some t ∧ T.Lent t c.sink.viz.ledger
  zero : c.sink.viz.ledger.out 0 = none
  released : c.sink.released.Perm c.sink.viz.ledger.settled
  unique : c.sink.viz.ledger.Unique SharedImage.name c.sink.sharedImages

theorem Balanced.exact {c : Client T A} (h : Balanced c) : Exact c := by
  obtain ⟨t, table, lent⟩ := h.table
  refine ⟨fun id => ?_, h.released, (h.released.map _).nodup_iff.mpr h.unique.once⟩
  rw [table]
  exact lent.imported id

theorem ready_balanced : Balanced (ready : Client T A) :=
  ⟨⟨T.new, rfl, Implementation.lent_new⟩, rfl, .nil, Ledger.unique_empty _ _⟩

theorem not_exact_of_lost {c : Client T A} {t : T.Table} {l : Ledger SharedImage} (id : Nat)
    (table : c.sink.clientResourceProvider = some t) (lent : T.Lent t l)
    (kept : (l.out id).isSome) (gone : c.sink.viz.ledger.out id = none) : ¬ Exact c := by
  intro exact
  have imported := exact.imported id
  rw [table, lent.imported, kept, gone] at imported
  cases imported

theorem returned_nil {resources : List Returned} (h : resources = []) (s : LayerTreeFrameSink T A) :
    returned resources s = s := by
  rw [h]
  rfl

theorem balanced_submit {c : Client T A} (h : Balanced c) {s' : LayerTreeFrameSink T A}
    {frame : CompositorFrame A SharedImage} {i j : Nat} {x y : SharedImage}
    (submits : Submits c.sink.viz.ledger c.sink s' frame i j x y) :
    Balanced ({ sink := s' } : Client T A) := by
  have ledger : s'.viz.ledger = (c.sink.viz.ledger.lend i x).lend j y := by
    rw [submits.viz, Viz.submitCompositorFrame, submits.resourceList]
    rfl
  refine ⟨?_, ?_, ?_, ?_⟩
  · rw [ledger]
    exact submits.lent
  · rw [ledger, Ledger.lend_out, if_neg submits.valid.2.symm, Ledger.lend_out,
      if_neg submits.valid.1.symm, h.zero]
  · rw [ledger, submits.released]
    exact h.released
  · rw [ledger, submits.sharedImages]
    exact (h.unique.lend i submits.names.1).lend j submits.names.2

theorem balanced_message {c d : Client T A} (h : Balanced c) {m : Message A}
    (by_reclaim : m.isReclaim = false → m.resources = []) (step : receive c m = some d) :
    Balanced d := by
  obtain ⟨-, -, takes, rfl⟩ := receive_cases step
  obtain ⟨t, table, lent⟩ := h.table
  cases m with
  | didReceiveCompositorFrameAck resources =>
    rw [returned_nil (by_reclaim rfl)]
    exact ⟨h.table, h.zero, h.released, h.unique⟩
  | onBeginFrame args tile texture resources =>
    rw [returned_nil (by_reclaim rfl), handle]
    by_cases images : c.sink.sharedImageInterfaceProvider = true ∧ tile = true ∧ texture = true
    · obtain ⟨provider, rfl, rfl⟩ := images
      obtain ⟨s', frame, i, j, x, y, run, submits⟩ :=
        onBeginFrame_ok table lent provider args resources
      rw [run]
      exact balanced_submit h submits
    · rw [onBeginFrame_fault table lent h.zero images]
      exact ⟨h.table, h.zero, h.released, h.unique⟩
  | reclaimResources resources =>
    have takes : Takes c.sink.viz.ledger resources := takes
    obtain ⟨t', freed, run, released, settled⟩ :=
      reclaimResources_ok (s := returned resources c.sink) table lent takes
    rw [handle, Message.resources, run]
    refine ⟨⟨t', rfl, settled⟩, ?_, ?_, ?_⟩
    · show (c.sink.viz.ledger.settleAll (ids resources)).out 0 = none
      rw [Ledger.settleAll_out, h.zero, ite_self]
    · show (c.sink.released ++ freed).Perm (c.sink.viz.ledger.settleAll (ids resources)).settled
      rw [Ledger.settleAll_settled takes.distinct]
      exact h.released.append released
    · exact h.unique.settleAll (ids resources)

theorem not_exact_message {c d : Client T A} (h : Balanced c) {m : Message A}
    (other : m.isReclaim = false) (some_back : m.resources ≠ []) (step : receive c m = some d) :
    ¬ Exact d := by
  obtain ⟨-, -, takes, rfl⟩ := receive_cases step
  obtain ⟨t, table, lent⟩ := h.table
  obtain ⟨r, member⟩ := List.exists_mem_of_ne_nil m.resources some_back
  have kept := takes.out r member
  have gone : (returned m.resources c.sink).viz.ledger.out r.id = none :=
    settled_gone (List.mem_map_of_mem member) c.sink.viz.ledger
  cases m with
  | didReceiveCompositorFrameAck resources => exact not_exact_of_lost r.id table lent kept gone
  | reclaimResources resources => cases other
  | onBeginFrame args tile texture resources =>
    rw [handle, Message.resources]
    by_cases images : c.sink.sharedImageInterfaceProvider = true ∧ tile = true ∧ texture = true
    · obtain ⟨provider, rfl, rfl⟩ := images
      obtain ⟨s', frame, i, j, x, y, run, submits⟩ :=
        onBeginFrame_ok (s := returned resources c.sink) table lent provider args resources
      rw [run]
      -- neither of the two new ids is the one that came back
      have differ : r.id ≠ i ∧ r.id ≠ j := by
        obtain ⟨newI, newJ⟩ := submits.fresh
        rw [Ledger.lend_out] at newJ
        refine ⟨fun same => ?_, fun same => ?_⟩
        · rw [same, newI] at kept
          cases kept
        · rw [← same] at newJ
          split at newJ
          · cases newJ
          · rw [newJ] at kept
            cases kept
      obtain ⟨t', table', lent'⟩ := submits.lent
      refine not_exact_of_lost (c := { sink := s' }) r.id table' lent' ?_ ?_
      · rw [Ledger.lend_out, if_neg differ.2, Ledger.lend_out, if_neg differ.1]
        exact kept
      · have ledger : s'.viz.ledger =
            ((returned resources c.sink).viz.ledger.lend i x).lend j y := by
          rw [submits.viz, Viz.submitCompositorFrame, submits.resourceList]
          rfl
        show s'.viz.ledger.out r.id = none
        rw [ledger, Ledger.lend_out, if_neg differ.2, Ledger.lend_out, if_neg differ.1]
        exact gone
    · rw [onBeginFrame_fault (s := returned resources c.sink) table lent h.zero images]
      exact not_exact_of_lost (c := { sink := returned resources c.sink, fault := _ }) r.id table
        lent kept gone

theorem balanced_step (c : Client T A) (a : Action A) (d : Client T A) (h : Balanced c)
    (good : ReturnsByReclaim a) (step : (machine T).step c a = some d) : Balanced d := by
  cases a with
  | message m => exact balanced_message h (good m rfl) step
  | embedChild childFrameSinkId =>
    obtain rfl := Option.some.inj step
    exact ⟨h.table, h.zero, h.released, h.unique⟩

theorem not_exact_step (c : Client T A) (a : Action A) (d : Client T A) (h : Balanced c)
    (bad : ¬ ReturnsByReclaim a) (step : (machine T).step c a = some d) : ¬ Exact d := by
  cases a with
  | message m =>
    simp only [ReturnsByReclaim, Action.message.injEq, forall_eq', Classical.not_imp] at bad
    exact not_exact_message h bad.1 bad.2 step
  | embedChild childFrameSinkId => exact absurd (fun m same => by cases same) bad

/-- The table is exact in every state of a run exactly if viz never returns a
resource with an ack or a `BeginFrame`. -/
theorem exact_iff_reclaimed (as : List (Action A)) :
    (∀ c ∈ (machine T).visited ready as, Exact c) ↔
      ∀ p ∈ (machine T).taken ready as, ReturnsByReclaim p.2 :=
  Machine.visited_iff_taken (fun _ h => Balanced.exact h) balanced_step not_exact_step
    ready_balanced as

theorem acked_resource_leaks :
    ¬ ∀ c ∈ (machine (counting SharedImage)).visited (ready : Client _ Unit)
        [.message (.onBeginFrame () true true []),
          .message (.didReceiveCompositorFrameAck [⟨1, 1⟩])], Exact c := by
  intro exact
  have last := (exact _ (Machine.exec_mem_visited _ _ _)).imported 1
  revert last
  decide

end ChromiumDemo.VizGuiClient
