import ChromiumDemo.VizLayerLedger

/-! The resource table of the layer clients over whole runs: both channels of
returns receive first and remove then, so the table and the callbacks follow the
ledger of viz whichever way a resource was made. -/

namespace ChromiumDemo.VizLayerClient
open TransitionSystem LeaseLedger ReleaseTable

variable {A : Type*} {T : Implementation Backing}

/-- The imported ids are those in submitted frames that have not been returned.
The callbacks of what was returned have run, once each, and destroyed the shared
images on the context providers that made them; nothing that viz holds is
released. -/
structure Exact (c : Client T A) : Prop where
  imported : ∀ id, T.imported c.sink.clientResourceProvider id = (c.sink.viz.ledger.out id).isSome
  released : c.sink.released.Perm c.sink.viz.ledger.settled
  once : (c.sink.released.map Backing.name).Nodup
  destroyed : c.sink.service.withdrawn.Perm (c.sink.released.filter Backing.isSharedImage)
  created : ∀ b ∈ c.sink.service.withdrawn, b ∈ c.sink.service.registered.map Prod.fst
  held : ∀ id b, c.sink.viz.ledger.out id = some b → b ∉ c.sink.released

theorem Client.Balanced.exact {c : Client T A} (h : c.Balanced) : Exact c := by
  obtain ⟨t, table, lent⟩ := h.table
  refine ⟨fun id => ?_, by rw [h.released], by rw [h.released]; exact h.unique.once,
    by rw [h.withdrawn, h.released], fun b member => ?_, fun id b out member => ?_⟩
  · rw [table]
    exact lent.imported id
  · rw [h.withdrawn] at member
    exact (h.registered b).mpr (.inr (List.mem_filter.mp member).1)
  · rw [h.released] at member
    exact h.unique.apart id b out (List.mem_map_of_mem member)

theorem resources_exact (kind : Kind) (as : List (Action A)) :
    Exact ((machine kind).exec (bound kind : Client T A) as) :=
  (balanced_exec kind as).exact

end ChromiumDemo.VizLayerClient
