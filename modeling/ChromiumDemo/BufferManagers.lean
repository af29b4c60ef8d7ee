import ChromiumDemo.GpuFallback
import ChromiumDemo.VizLayerBackings

/-! The buffer managers behind the context providers of demo_viz_layer and
demo_viz_gui_gpu. The service owns one manager at a time and hands it out raw, so
that a new one leaves the providers of the old one dangling. The channel may be
established any number of times. -/

namespace ChromiumDemo.BufferManagers
open TransitionSystem LeaseLedger ReleaseTable VizLayerClient
open GpuFallback (Demo Side)

variable {A : Type*} {T : Implementation Backing}

/-- A manager is named by how many were made before it. `managers` has for each
provider, under its name, the manager that it was made with. -/
structure World (T : Implementation Backing) (A : Type*) where
  gpu : GpuFallback.World T A
  gpuMemoryBufferManager : Option Nat := none
  made : Nat := 0
  managers : List Nat := []

def makeManager (w : World T A) : World T A :=
  { w with gpuMemoryBufferManager := some w.made, made := w.made + 1 }

/-- That of demo_viz_gui_gpu makes a manager, that of demo_viz_layer does not. -/
def getGpuMemoryBufferManager (demo : Demo) (w : World T A) : World T A :=
  match demo with
  | .vizLayer _ => w
  | .vizGuiGpu => makeManager w

def createContextProvider (w : World T A) : World T A :=
  { w with managers := w.managers ++ w.gpuMemoryBufferManager.toList }

def onEstablishedOnMain (demo : Demo) (w : World T A) : World T A :=
  let w := match demo with
    | .vizLayer _ => makeManager w
    | .vizGuiGpu => w
  let w := createContextProvider (getGpuMemoryBufferManager demo w)
  let w := createContextProvider (getGpuMemoryBufferManager demo w)
  { w with gpu := GpuFallback.onEstablishedOnMain w.gpu }

def step (dchecks : Bool) (demo : Demo) (w : World T A) :
    GpuFallback.Action A → Option (World T A)
  | .onEstablishedOnIOThread validHandle =>
    some { w with gpu := GpuFallback.onEstablishedOnIOThread validHandle w.gpu }
  | .onEstablishedOnMain =>
    if 0 < w.gpu.mainTasks then some (onEstablishedOnMain demo w) else none
  | .setContextProvider side binds =>
    (GpuFallback.step dchecks demo w.gpu (.setContextProvider side binds)).map fun gpu =>
      { w with gpu := gpu }
  | .client side a =>
    (GpuFallback.step dchecks demo w.gpu (.client side a)).map fun gpu => { w with gpu := gpu }

def machine (dchecks : Bool) (demo : Demo) : Machine (World T A) (GpuFallback.Action A) :=
  .haltOn (fun w => w.gpu.halted) (step dchecks demo)

def start (demo : Demo) : World T A := { gpu := GpuFallback.start demo }

/-- Where a client's reference to a provider can be: in its field, in a task posted to
its thread, or in the release callback of a shared image. -/
inductive Holds (w : World T A) (side : Side) : Nat → Prop
  | stored (p : ContextProvider) :
    (w.gpu.clients side).sink.contextProvider = some p → Holds w side p.name
  | posted (provider : Nat) : provider ∈ w.gpu.tasks side → Holds w side provider
  | callback (id : Nat) (p : ContextProvider) (mailbox : Nat) :
    importedBacking (w.gpu.clients side).sink id = some (.sharedImage p mailbox) →
      Holds w side p.name

def Alive (w : World T A) : Prop :=
  ∀ side provider, Holds w side provider →
    ∃ manager, w.managers[provider]? = some manager ∧ w.gpuMemoryBufferManager = some manager

def First (demo : Demo) (w : World T A) : GpuFallback.Action A → Prop
  | .onEstablishedOnMain => demo ≠ .vizGuiGpu ∧ w.gpuMemoryBufferManager = none
  | _ => True

structure Known (c : Client T A) (tasks : List Nat) (providers : Nat) : Prop where
  balanced : c.Balanced
  stored : ∀ p, c.sink.contextProvider = some p → p.name < providers
  posted : ∀ provider ∈ tasks, provider < providers
  registered : ∀ p mailbox, .sharedImage p mailbox ∈ c.sink.known → p.name < providers

structure Inv (w : World T A) : Prop where
  known : ∀ side, Known (w.gpu.clients side) (w.gpu.tasks side) w.managers.length
  names : w.gpu.hosts.length = w.managers.length
  manager : ∀ manager ∈ w.managers, w.gpuMemoryBufferManager = some manager
  held : w.gpuMemoryBufferManager.isSome →
    (w.gpu.clients .root).sink.contextProvider.isSome ∨ w.gpu.tasks .root ≠ []
  made : ∀ manager, w.gpuMemoryBufferManager = some manager → manager < w.made

theorem Known.holds_lt {w : World T A} {side : Side} {providers provider : Nat}
    (h : Known (w.gpu.clients side) (w.gpu.tasks side) providers) (holds : Holds w side provider) :
    provider < providers := by
  cases holds with
  | stored p stored => exact h.stored p stored
  | posted _ posted => exact h.posted provider posted
  | callback id p mailbox imported =>
    rw [h.balanced.importedBacking] at imported
    exact h.registered p mailbox ((h.balanced.registered _).mpr (.inl ⟨id, imported⟩))

theorem Known.post {c : Client T A} {tasks : List Nat} {providers : Nat}
    (h : Known c tasks providers) (more : Nat) {provider : Nat}
    (new : provider < providers + more) :
    Known c (tasks ++ [provider]) (providers + more) where
  balanced := h.balanced
  stored p stored := Nat.lt_add_right more (h.stored p stored)
  posted other member := by
    rcases List.mem_append.mp member with old | last
    · exact Nat.lt_add_right more (h.posted other old)
    · rw [List.mem_singleton.mp last]
      exact new
  registered p mailbox member := Nat.lt_add_right more (h.registered p mailbox member)

theorem Known.setContextProvider {c : Client T A} {provider providers : Nat} {rest : List Nat}
    (h : Known c (provider :: rest) providers) (bound : Bool) :
    Known { c with sink := VizLayerClient.setContextProvider ⟨provider, bound⟩ c.sink } rest
      providers where
  balanced := h.balanced.frame rfl rfl rfl rfl
  stored p stored := by
    obtain rfl := Option.some.inj stored
    exact h.posted provider List.mem_cons_self
  posted other member := h.posted other (List.mem_cons_of_mem provider member)
  registered := h.registered

theorem Known.message {kind : Kind} {c d : Client T A} {m : Message A} {tasks : List Nat}
    {providers : Nat} (h : Known c tasks providers) (running : c.fault = none)
    (taken : VizLayerClient.step kind c (.message m) = some d) : Known d tasks providers := by
  obtain ⟨provider, handled⟩ := GpuFallback.step_message h.balanced taken
  have balanced : d.Balanced := by
    refine balanced_step kind c (.message m) d h.balanced ?_
    exact (Machine.haltOn_step (by rw [running]; rfl) _ _).trans taken
  refine ⟨balanced, by rw [provider]; exact h.stored, h.posted, ?_⟩
  intro p mailbox member
  cases handled with
  | asked drawn unbound fault known =>
    rw [known] at member
    exact h.registered p mailbox member
  | made backings fault known madeOn someMade =>
    rw [known] at member
    rcases List.mem_append.mp member with old | new
    · exact h.registered p mailbox old
    · exact h.stored p (GpuFallback.contextProvider_of_framePath (madeOn _ new).2.1)

theorem Inv.alive {w : World T A} (h : Inv w) : Alive w := by
  intro side provider holds
  have lt := (h.known side).holds_lt holds
  exact ⟨_, List.getElem?_eq_getElem lt, h.manager _ (List.getElem_mem lt)⟩

theorem start_inv (demo : Demo) : Inv (start demo : World T A) where
  known side := by
    refine ⟨(GpuFallback.start_inv false demo).balanced side, ?_, ?_, ?_⟩
    · intro p stored
      cases demo <;> cases side <;> cases stored
    · intro provider member
      cases member
    · intro p mailbox member
      cases demo <;> cases side <;> cases member
  names := rfl
  manager _ member := absurd member List.not_mem_nil
  held some := by cases some
  made _ some := by cases some

theorem Inv.holds {w : World T A} (h : Inv w) (some : w.gpuMemoryBufferManager.isSome) :
    ∃ provider, Holds w .root provider := by
  rcases h.held some with stored | posted
  · obtain ⟨p, stored⟩ := Option.isSome_iff_exists.mp stored
    exact ⟨_, .stored p stored⟩
  · obtain ⟨provider, rest, tasks⟩ := List.exists_cons_of_ne_nil posted
    exact ⟨provider, .posted provider (by rw [tasks]; exact List.mem_cons_self)⟩

theorem known_update {clients : Side → Client T A} {tasks : Side → List Nat} {providers : Nat}
    (h : ∀ side, Known (clients side) (tasks side) providers) (side : Side) {c : Client T A}
    {rest : List Nat} (known : Known c rest providers) (other : Side) :
    Known (Function.update clients side c other) (Function.update tasks side rest other)
      providers := by
  by_cases same : other = side
  · subst same
    rw [Function.update_self, Function.update_self]
    exact known
  · rw [Function.update_of_ne same, Function.update_of_ne same]
    exact h other

theorem Inv.setClient {w : World T A} (h : Inv w) (side : Side) {c : Client T A}
    (known : Known c (w.gpu.tasks side) w.managers.length)
    (stored : c.sink.contextProvider = (w.gpu.clients side).sink.contextProvider) :
    Inv { w with gpu := w.gpu.setClient side c } where
  known other := by
    have both := known_update h.known side known other
    rw [Function.update_eq_self] at both
    exact both
  names := h.names
  manager := h.manager
  held some := by
    refine (h.held some).imp_left fun isSome => ?_
    by_cases root : side = .root
    · subst root
      rw [← stored] at isSome
      simpa [GpuFallback.World.setClient] using isSome
    · have other : Side.root ≠ side := fun same => root same.symm
      simpa [GpuFallback.World.setClient, Function.update_of_ne other] using isSome
  made := h.made

theorem Inv.setContextProvider {w : World T A} (h : Inv w) (dchecks binds : Bool) (side : Side)
    {provider : Nat} {rest : List Nat} (queue : w.gpu.tasks side = provider :: rest) :
    Inv { w with
      gpu := GpuFallback.setContextProvider dchecks side binds provider rest w.gpu } where
  known other := by
    have known := h.known side
    rw [queue] at known
    exact known_update h.known side (known.setContextProvider _) other
  names := h.names
  manager := h.manager
  held some := by
    by_cases root : side = .root
    · subst root
      refine .inl ?_
      simp [GpuFallback.setContextProvider, GpuFallback.World.setClient,
        VizLayerClient.setContextProvider]
    · have other : Side.root ≠ side := fun same => root same.symm
      simpa [GpuFallback.setContextProvider, GpuFallback.World.setClient,
        Function.update_of_ne other] using h.held some
  made := h.made

theorem onEstablishedOnMain_vizLayer (useGpu : Bool) (w : World T A) :
    onEstablishedOnMain (.vizLayer useGpu) w =
      { gpu := GpuFallback.onEstablishedOnMain w.gpu
        gpuMemoryBufferManager := some w.made
        made := w.made + 1
        managers := w.managers ++ [w.made, w.made] } := by
  simp [onEstablishedOnMain, getGpuMemoryBufferManager, makeManager, createContextProvider]

theorem onEstablishedOnMain_vizGuiGpu (w : World T A) :
    onEstablishedOnMain .vizGuiGpu w =
      { gpu := GpuFallback.onEstablishedOnMain w.gpu
        gpuMemoryBufferManager := some (w.made + 1)
        made := w.made + 2
        managers := w.managers ++ [w.made, w.made + 1] } := by
  simp [onEstablishedOnMain, getGpuMemoryBufferManager, makeManager, createContextProvider]

theorem Inv.onEstablishedOnMain {w : World T A} (h : Inv w) (useGpu : Bool)
    (first : w.gpuMemoryBufferManager = none) :
    Inv (onEstablishedOnMain (.vizLayer useGpu) w) := by
  have empty : w.managers = [] := by
    refine List.eq_nil_iff_forall_not_mem.mpr fun manager member => ?_
    have alive := h.manager manager member
    rw [first] at alive
    cases alive
  have hosts : w.gpu.hosts = [] := by
    rw [← List.length_eq_zero_iff, h.names, empty, List.length_nil]
  rw [onEstablishedOnMain_vizLayer, empty]
  refine ⟨fun side => ?_, ?_, fun manager member => ?_, fun _ => .inr ?_, ?_⟩
  · have known := h.known side
    rw [empty] at known
    refine known.post 2 ?_
    rw [hosts]
    cases side <;> decide
  · simp [GpuFallback.onEstablishedOnMain, hosts]
  · rw [List.nil_append, List.mem_pair, or_self] at member
    rw [member]
  · exact List.append_ne_nil_of_right_ne_nil _ (List.cons_ne_nil _ _)
  · intro manager alive
    obtain rfl := Option.some.inj alive
    exact Nat.lt_succ_self w.made

theorem step_inv (dchecks : Bool) (demo : Demo) (w : World T A) (a : GpuFallback.Action A)
    (u : World T A) (h : Inv w) (first : First demo w a)
    (moved : (machine dchecks demo).step w a = some u) : Inv u := by
  obtain ⟨running, moved⟩ := Machine.step_of_haltOn moved
  cases a with
  | onEstablishedOnIOThread validHandle =>
    obtain rfl := Option.some.inj moved
    exact ⟨h.known, h.names, h.manager, h.held, h.made⟩
  | onEstablishedOnMain =>
    obtain ⟨-, moved⟩ := Option.ite_none_right_eq_some.mp moved
    obtain rfl := Option.some.inj moved
    cases demo with
    | vizLayer useGpu => exact h.onEstablishedOnMain useGpu first.2
    | vizGuiGpu => exact absurd rfl first.1
  | setContextProvider side binds =>
    obtain ⟨gpu, stepped, rfl⟩ := Option.map_eq_some_iff.mp moved
    simp only [GpuFallback.step] at stepped
    split at stepped
    · cases stepped
    · next provider rest queue =>
      obtain rfl := Option.some.inj stepped
      exact h.setContextProvider dchecks binds side queue
  | client side a =>
    obtain ⟨gpu, stepped, rfl⟩ := Option.map_eq_some_iff.mp moved
    cases a with
    | setContextProvider p => cases stepped
    | draw location | embedChild childFrameSinkId =>
      obtain rfl := Option.some.inj stepped
      have known := h.known side
      exact h.setClient side ⟨known.balanced.frame rfl rfl rfl rfl, known.stored, known.posted,
        known.registered⟩ rfl
    | message m =>
      obtain ⟨c, handled, rfl⟩ := Option.map_eq_some_iff.mp stepped
      obtain ⟨stored, -⟩ := GpuFallback.step_message (h.known side).balanced handled
      exact h.setClient side ((h.known side).message (GpuFallback.fault_of_running running side)
        handled) stored

theorem Holds.onEstablishedOnMain {w : World T A} {side : Side} {provider : Nat}
    (holds : Holds w side provider) (demo : Demo) :
    Holds (onEstablishedOnMain demo w) side provider := by
  have clients : (BufferManagers.onEstablishedOnMain demo w).gpu =
      GpuFallback.onEstablishedOnMain w.gpu := by
    cases demo <;> rfl
  cases holds with
  | stored p stored =>
    refine .stored p ?_
    rw [clients]
    exact stored
  | posted _ posted =>
    refine .posted provider ?_
    rw [clients]
    exact List.mem_append_left _ posted
  | callback id p mailbox imported =>
    refine .callback id p mailbox ?_
    rw [clients]
    exact imported

theorem Inv.vizGuiGpu_not_alive {w : World T A} (h : Inv w) :
    ¬ Alive (BufferManagers.onEstablishedOnMain .vizGuiGpu w) := by
  intro alive
  have posted : w.gpu.hosts.length ∈
      (BufferManagers.onEstablishedOnMain .vizGuiGpu w).gpu.tasks .root :=
    List.mem_append_right _ (List.mem_singleton_self _)
  obtain ⟨manager, made, owned⟩ := alive .root _ (.posted _ posted)
  rw [onEstablishedOnMain_vizGuiGpu] at made owned
  have root : (w.managers ++ [w.made, w.made + 1])[w.gpu.hosts.length]? = some w.made := by
    rw [h.names, List.getElem?_append_right (Nat.le_refl _), Nat.sub_self]
    rfl
  have first := Option.some.inj (root.symm.trans made)
  have second := Option.some.inj owned
  omega

theorem Inv.vizLayer_not_alive {w : World T A} (h : Inv w) (useGpu : Bool)
    (again : w.gpuMemoryBufferManager ≠ none) :
    ¬ Alive (BufferManagers.onEstablishedOnMain (.vizLayer useGpu) w) := by
  intro alive
  obtain ⟨provider, holds⟩ := h.holds (Option.isSome_iff_ne_none.mpr again)
  have lt := (h.known .root).holds_lt holds
  have owned := h.manager _ (List.getElem_mem lt)
  have older := h.made _ owned
  obtain ⟨manager, made, replaced⟩ := alive .root provider (holds.onEstablishedOnMain _)
  rw [onEstablishedOnMain_vizLayer] at made replaced
  rw [List.getElem?_append_left lt, List.getElem?_eq_getElem lt] at made
  have first := Option.some.inj made
  have second := Option.some.inj replaced
  omega

theorem step_not_alive (dchecks : Bool) (demo : Demo) (w : World T A) (a : GpuFallback.Action A)
    (u : World T A) (h : Inv w) (again : ¬ First demo w a)
    (moved : (machine dchecks demo).step w a = some u) : ¬ Alive u := by
  obtain ⟨-, moved⟩ := Machine.step_of_haltOn moved
  cases a with
  | onEstablishedOnIOThread validHandle | setContextProvider side binds | client side a =>
    exact absurd trivial again
  | onEstablishedOnMain =>
    obtain ⟨-, moved⟩ := Option.ite_none_right_eq_some.mp moved
    obtain rfl := Option.some.inj moved
    cases demo with
    | vizGuiGpu => exact h.vizGuiGpu_not_alive
    | vizLayer useGpu => exact h.vizLayer_not_alive useGpu fun first => again ⟨nofun, first⟩

/-- Every provider that a client holds has a live manager, in every state of a run,
exactly if the channel is established once at most, in demo_viz_layer. -/
theorem managers_alive_iff (dchecks : Bool) (demo : Demo) (as : List (GpuFallback.Action A)) :
    (∀ w ∈ (machine dchecks demo).visited (start demo : World T A) as, Alive w) ↔
      ∀ p ∈ (machine dchecks demo).taken (start demo : World T A) as, First demo p.1 p.2 :=
  Machine.visited_iff_taken (fun _ h => h.alive) (step_inv dchecks demo)
    (step_not_alive dchecks demo) (start_inv demo) as

theorem root_provider_dangles :
    ¬ ∀ (dchecks : Bool) (demo : Demo) (as : List (GpuFallback.Action Unit)),
      ∀ w ∈ (machine dchecks demo).visited (start demo : World (counting Backing) Unit) as,
        Alive w := by
  intro all
  have alive := all true .vizGuiGpu [.onEstablishedOnIOThread true, .onEstablishedOnMain]
    _ (Machine.exec_mem_visited _ _ _)
  obtain ⟨manager, made, owned⟩ := alive .root 0 (.posted 0 (by decide))
  have first : manager = 0 := (Option.some.inj made).symm
  have second : manager = 1 := (Option.some.inj owned).symm
  omega

end ChromiumDemo.BufferManagers
