import ChromiumDemo.VizLayerResources
import Mathlib.Data.List.Perm.Subperm

/-! What the service keeps for the layer clients. A shared image is destroyed when
its resource is released, and a bitmap that was announced is never withdrawn. -/

namespace ChromiumDemo.VizLayerClient
open TransitionSystem LeaseLedger ReleaseTable CompositorFrames

variable {A : Type*} {T : Implementation Backing}

def importedBacking (s : Sink T A) (id : Nat) : Option Backing :=
  match s.clientResourceProvider with
  | none => none
  | some provider => (T.entries provider id).map Entry.payload

def Service.live (service : Service) : List Backing :=
  (service.registered.map Prod.fst).filter fun b => b ∉ service.withdrawn

/-- The live backings are those of the imported resources, so that there are no
more of them than of imported ids. -/
structure Tidy (c : Client T A) : Prop where
  live : ∀ b, b ∈ c.sink.service.live ↔ ∃ id, importedBacking c.sink id = some b
  bounded : ∀ ids : List Nat,
    (∀ id, T.imported c.sink.clientResourceProvider id = true → id ∈ ids) →
    c.sink.service.live.length ≤ ids.length

def ReturnsSharedImages (c : Client T A) (a : Action A) : Prop :=
  ∀ m, a = .message m → ∀ r ∈ m.resources, ∀ b, c.sink.viz.ledger.out r.id = some b →
    b.isSharedImage = true

theorem Sound.importedBacking {s : Sink T A} {l : Ledger Backing} (h : Sound s l) (id : Nat) :
    VizLayerClient.importedBacking s id = l.out id := by
  obtain ⟨t, table, lent⟩ := h.table
  simp only [VizLayerClient.importedBacking, table]
  exact lent.payload id

theorem Sound.mem_live {s : Sink T A} {l : Ledger Backing} (h : Sound s l) (b : Backing) :
    b ∈ s.service.live ↔
      ((∃ id, l.out id = some b) ∨ b ∈ l.settled) ∧ ¬ (b ∈ l.settled ∧ b.isSharedImage = true) := by
  simp only [Service.live, List.mem_filter, h.registered, h.withdrawn, decide_eq_true_eq]

structure Inv (c : Client T A) : Prop where
  balanced : c.Balanced
  shared : ∀ b ∈ c.sink.viz.ledger.settled, b.isSharedImage = true

theorem Inv.tidy {c : Client T A} (h : Inv c) : Tidy c := by
  have live : ∀ b, b ∈ c.sink.service.live ↔ ∃ id, importedBacking c.sink id = some b := by
    intro b
    simp only [h.balanced.mem_live, h.balanced.importedBacking]
    constructor
    · rintro ⟨out | settled, kept⟩
      · exact out
      · exact absurd ⟨settled, h.shared b settled⟩ kept
    · rintro ⟨id, out⟩
      refine ⟨.inl ⟨id, out⟩, fun settled => ?_⟩
      exact h.balanced.unique.apart id b out (List.mem_map_of_mem settled.1)
  refine ⟨live, fun ids all => ?_⟩
  have distinct : c.sink.service.live.Nodup := h.balanced.distinct.filter _
  have covered : c.sink.service.live ⊆ ids.filterMap (importedBacking c.sink) := by
    intro b member
    obtain ⟨id, out⟩ := (live b).mp member
    refine List.mem_filterMap.mpr ⟨id, all id ?_, out⟩
    rw [h.balanced.exact.imported, ← h.balanced.importedBacking, out]
    rfl
  calc c.sink.service.live.length
      ≤ (ids.filterMap (importedBacking c.sink)).length := (distinct.subperm covered).length_le
    _ ≤ ids.length := List.length_filterMap_le _ _

theorem message_settled {kind : Kind} {c d : Client T A} {m : Message A}
    (h : c.Balanced) (taken : (machine kind).step c (.message m) = some d) :
    d.sink.viz.ledger.settled =
      c.sink.viz.ledger.settled ++ (ids m.resources).filterMap c.sink.viz.ledger.out := by
  obtain ⟨takes, -, resources, ledger, -⟩ := message_balanced h taken
  rw [ledger, lendAll_settled, Ledger.settleAll_settled takes.distinct]

theorem inv_step (kind : Kind) (c : Client T A) (a : Action A) (d : Client T A) (h : Inv c)
    (good : ReturnsSharedImages c a) (taken : (machine kind).step c a = some d) : Inv d := by
  refine ⟨balanced_step kind c a d h.balanced taken, ?_⟩
  cases a with
  | message m =>
    rw [message_settled h.balanced taken]
    intro b member
    obtain settled | returned := List.mem_append.mp member
    · exact h.shared b settled
    · obtain ⟨id, member, out⟩ := List.mem_filterMap.mp returned
      obtain ⟨r, back, rfl⟩ := List.mem_map.mp member
      exact good m rfl r back b out
  | draw location | setContextProvider contextProvider | embedChild childFrameSinkId =>
    obtain rfl := Option.some.inj (Machine.step_of_haltOn taken).2
    exact h.shared

theorem not_tidy_step (kind : Kind) (c : Client T A) (a : Action A) (d : Client T A) (h : Inv c)
    (bad : ¬ ReturnsSharedImages c a) (taken : (machine kind).step c a = some d) : ¬ Tidy d := by
  intro tidy
  refine bad fun m same r member b out => ?_
  subst same
  have after := balanced_step kind c _ d h.balanced taken
  have settled : b ∈ d.sink.viz.ledger.settled := by
    rw [message_settled h.balanced taken]
    refine List.mem_append_right _ (List.mem_filterMap.mpr ⟨r.id, ?_, out⟩)
    exact List.mem_map_of_mem member
  by_contra bitmap
  have live : b ∈ d.sink.service.live :=
    (after.mem_live b).mpr ⟨.inr settled, fun both => bitmap both.2⟩
  obtain ⟨id, imported⟩ := (tidy.live b).mp live
  rw [after.importedBacking] at imported
  exact after.unique.apart id b imported (List.mem_map_of_mem settled)

structure SharedImages (c : Client T A) : Prop where
  balanced : c.Balanced
  out : ∀ id b, c.sink.viz.ledger.out id = some b → b.isSharedImage = true

theorem sharedImages_step (c : Client T A) (a : Action A) (d : Client T A) (h : SharedImages c)
    (taken : (machine .guiGpuLayerTreeFrameSink).step c a = some d) : SharedImages d := by
  refine ⟨balanced_step _ c a d h.balanced taken, fun id b out => ?_⟩
  cases a with
  | message m =>
    obtain ⟨-, -, resources, ledger, shared⟩ := message_balanced h.balanced taken
    rw [ledger] at out
    obtain ⟨r, member, rfl⟩ | earlier := lendAll_out out
    · exact shared rfl r member
    · rw [Ledger.settleAll_out] at earlier
      split at earlier
      · cases earlier
      · exact h.out id b earlier
  | draw location | setContextProvider contextProvider | embedChild childFrameSinkId =>
    obtain rfl := Option.some.inj (Machine.step_of_haltOn taken).2
    exact h.out id b out

/-- The service keeps the backings of the imported resources alone, in every state
of a run, exactly if viz returns no resource of the software path; the client of
demo_viz_gui_gpu has none. -/
theorem tidy_iff_sharedImages (kind : Kind) (as : List (Action A)) :
    ((∀ c ∈ (machine kind).visited (bound kind : Client T A) as, Tidy c) ↔
      ∀ p ∈ (machine kind).taken (bound kind : Client T A) as, ReturnsSharedImages p.1 p.2) ∧
    (kind = .guiGpuLayerTreeFrameSink →
      ∀ p ∈ (machine kind).taken (bound kind : Client T A) as, ReturnsSharedImages p.1 p.2) := by
  have nothing_settled : Inv (bound kind : Client T A) :=
    ⟨bound_balanced kind, fun b member => by cases kind <;> cases member⟩
  refine ⟨Machine.visited_iff_taken (fun _ h => Inv.tidy h) (inv_step kind) (not_tidy_step kind)
    nothing_settled as, ?_⟩
  rintro rfl p taken m - r member b out
  have nothing_out : SharedImages (bound .guiGpuLayerTreeFrameSink : Client T A) :=
    ⟨bound_balanced _, fun id b out => by cases out⟩
  exact (Machine.taken_invariant sharedImages_step nothing_out as p taken).out r.id b out

theorem bitmap_never_withdrawn :
    ¬ ∀ c ∈ (machine (.inkClient true)).visited
        (bound (.inkClient true) : Client (counting Backing) Unit)
        [.message (.onBeginFrame ()), .message (.didReceiveCompositorFrameAck [⟨1, 1⟩])],
      Tidy c := by
  intro tidy
  have last := tidy _ (Machine.exec_mem_visited _ _ _)
  have sound := balanced_exec (T := counting Backing) (A := Unit) (.inkClient true)
    [.message (.onBeginFrame ()), .message (.didReceiveCompositorFrameAck [⟨1, 1⟩])]
  obtain ⟨id, imported⟩ := (last.live (.sharedBitmap 0)).mp (by decide)
  rw [sound.importedBacking] at imported
  exact sound.unique.apart id _ imported (by decide)

end ChromiumDemo.VizLayerClient
