import ChromiumDemo.VizLayerLedger

/-! The way of a context provider from the GPU service to the two clients of a
compositor, in demo_viz_layer and demo_viz_gui_gpu. A provider is made whether or
not there is a channel host, and the bind on the client's thread is the operand of
a `DCHECK`, which builds without them leave out. -/

namespace ChromiumDemo.GpuFallback
open TransitionSystem LeaseLedger ReleaseTable CompositorFrames VizLayerClient

variable {A : Type*} {T : Implementation Backing}

inductive Side
  | root
  | child
deriving DecidableEq

inductive Demo
  | vizLayer (useGpu : Bool)
  | vizGuiGpu
deriving DecidableEq

def Demo.kind : Demo → Side → Kind
  | .vizLayer useGpu, .root => .layerTreeFrameSink useGpu
  | .vizLayer useGpu, .child => .inkClient useGpu
  | .vizGuiGpu, _ => .guiGpuLayerTreeFrameSink

/-- A provider is named by its place in `hosts`, which says whether it was made on a
channel host. `waiting` is the callback of `EstablishGpuChannel`, `mainTasks` counts
the tasks `OnEstablishedOnMain`, and `tasks` are those of `SetContextProvider` on the
threads of the clients. -/
structure World (T : Implementation Backing) (A : Type*) where
  clients : Side → Client T A
  gpuChannelHost : Bool := false
  waiting : Bool := true
  mainTasks : Nat := 0
  hosts : List Bool := []
  tasks : Side → List Nat := fun _ => []
  dcheckFailed : Bool := false

inductive Action (A : Type*)
  | onEstablishedOnIOThread (validHandle : Bool)
  | onEstablishedOnMain
  | setContextProvider (side : Side) (binds : Bool)
  | client (side : Side) (a : VizLayerClient.Action A)

def World.setClient (side : Side) (client : Client T A) (w : World T A) : World T A :=
  { w with clients := Function.update w.clients side client }

def onEstablishedOnIOThread (validHandle : Bool) (w : World T A) : World T A :=
  { w with
    waiting := false
    gpuChannelHost := w.gpuChannelHost || validHandle
    mainTasks := w.mainTasks + 1 }

def onEstablishedOnMain (w : World T A) : World T A :=
  let made := w.hosts.length
  { w with
    mainTasks := w.mainTasks - 1
    hosts := w.hosts ++ [w.gpuChannelHost, w.gpuChannelHost]
    tasks := fun side => w.tasks side ++ [match side with | .root => made | .child => made + 1] }

/-- `SetContextProvider` on the client's thread, where `BindToCurrentThread` would
answer `binds`. The provider is bound only where the `DCHECK` is compiled in. -/
def setContextProvider (dchecks : Bool) (side : Side) (binds : Bool) (provider : Nat)
    (rest : List Nat) (w : World T A) : World T A :=
  let client := w.clients side
  let stored := VizLayerClient.setContextProvider ⟨provider, dchecks && binds⟩ client.sink
  { w.setClient side { client with sink := stored } with
    tasks := Function.update w.tasks side rest
    dcheckFailed := dchecks && !binds }

def step (dchecks : Bool) (demo : Demo) (w : World T A) : Action A → Option (World T A)
  | .onEstablishedOnIOThread validHandle =>
    if w.waiting then some (onEstablishedOnIOThread validHandle w) else none
  | .onEstablishedOnMain => if 0 < w.mainTasks then some (onEstablishedOnMain w) else none
  | .setContextProvider side binds => match w.tasks side with
    | [] => none
    | provider :: rest => some (setContextProvider dchecks side binds provider rest w)
  | .client _ (.setContextProvider _) => none
  | .client side a =>
    (VizLayerClient.step (demo.kind side) (w.clients side) a).map fun c => w.setClient side c

def World.halted (w : World T A) : Bool :=
  w.dcheckFailed || (w.clients .root).fault.isSome || (w.clients .child).fault.isSome

def machine (dchecks : Bool) (demo : Demo) : Machine (World T A) (Action A) :=
  .haltOn World.halted (step dchecks demo)

def start (demo : Demo) : World T A := { clients := fun side => bound (demo.kind side) }

def World.Usable (w : World T A) (p : ContextProvider) : Prop :=
  p.sharedImageInterface = true ∧ w.hosts[p.name]? = some true

/-- Resources are made on usable providers or in software, and no provider is asked
for a shared image interface that it does not have. -/
structure FallsBack (w : World T A) : Prop where
  made : ∀ side, ∀ b ∈ (w.clients side).sink.known, ∀ p mailbox, b = .sharedImage p mailbox →
    w.Usable p
  asked : ∀ side, (w.clients side).fault ≠ some .nullSharedImageInterface

/-- A frame that makes its resources on a context provider is begun in a build with
`DCHECK`s, and the provider has a channel host. -/
def Good (dchecks : Bool) (demo : Demo) (w : World T A) : Action A → Prop
  | .client side (.message (.onBeginFrame _)) =>
    ∀ p, framePath (demo.kind side) (w.clients side).sink = some p →
      dchecks = true ∧ w.hosts[p.name]? = some true
  | _ => True

structure Inv (dchecks : Bool) (w : World T A) : Prop where
  balanced : ∀ side, (w.clients side).Balanced
  provider : w.dcheckFailed = false → ∀ side p,
    (w.clients side).sink.contextProvider = some p → p.sharedImageInterface = dchecks
  fallsBack : FallsBack w

theorem start_inv (dchecks : Bool) (demo : Demo) : Inv dchecks (start demo : World T A) where
  balanced side := bound_balanced _
  provider _ side p stored := by
    cases demo <;> cases side <;> cases stored
  fallsBack := by
    constructor
    · intro side b member
      cases demo <;> cases side <;> cases member
    · intro side fault
      cases demo <;> cases side <;> cases fault

inductive Handled (path : Option ContextProvider) (drawn : Prop) (c d : Client T A) : Prop
  | asked : drawn → Unbound path → d.fault = some .nullSharedImageInterface →
      d.sink.known = c.sink.known → Handled path drawn c d
  | made (backings : List Backing) : d.fault = none →
      d.sink.known = c.sink.known ++ backings → (∀ b ∈ backings, drawn ∧ b.MadeOn path) →
      (drawn → path.isSome → ∃ b ∈ backings, b.isSharedImage = true) → Handled path drawn c d

def Message.Draws (m : Message A) : Prop := ∃ args, m = .onBeginFrame args

theorem framePath_returned (kind : Kind) (resources : List Returned) (s : Sink T A) :
    framePath kind (returned resources s) = framePath kind s := by
  cases kind <;> rfl

theorem step_message {kind : Kind} {c d : Client T A} {m : Message A} (h : c.Balanced)
    (taken : VizLayerClient.step kind c (.message m) = some d) :
    d.sink.contextProvider = c.sink.contextProvider ∧
      Handled (framePath kind c.sink) (Message.Draws m) c d := by
  simp only [VizLayerClient.step, Option.ite_none_right_eq_some, Option.some.injEq] at taken
  obtain ⟨⟨-, takes⟩, rfl⟩ := taken
  have received (resources : List Returned) (takes : Takes c.sink.viz.ledger resources) :
      ∃ s', receiveAndRemove resources (returned resources c.sink) = .ok s' ∧
        s'.contextProvider = c.sink.contextProvider ∧ s'.known = c.sink.known := by
    have h' : Sound (returned resources c.sink) c.sink.viz.ledger := h.frame rfl rfl rfl rfl
    obtain ⟨s', run, -, same, -⟩ := receiveAndRemove_sound h' takes
    exact ⟨s', run, same⟩
  cases m with
  | didReceiveCompositorFrameAck resources =>
    obtain ⟨s', run, provider, known⟩ := received resources takes
    rw [handle, Message.resources, didReceiveCompositorFrameAck, run]
    refine ⟨provider, .made [] rfl (known.trans (List.append_nil _).symm) (by simp) ?_⟩
    rintro ⟨_, absurd⟩
    cases absurd
  | reclaimResources resources =>
    obtain ⟨s', run, provider, known⟩ := received resources takes
    rw [handle, Message.resources, reclaimResources, run]
    refine ⟨provider, .made [] rfl (known.trans (List.append_nil _).symm) (by simp) ?_⟩
    rintro ⟨_, absurd⟩
    cases absurd
  | onBeginFrame args =>
    have sound : Sound (returned [] c.sink) (returned [] c.sink).viz.ledger :=
      h.frame rfl rfl rfl rfl
    have draws : Message.Draws (.onBeginFrame args) := ⟨args, rfl⟩
    rw [← framePath_returned kind [] c.sink]
    obtain ⟨unbound, error⟩ | ⟨s', made, run, begins⟩ := onBeginFrame_sound sound kind args
    · have run : handle kind (.onBeginFrame args) (returned [] c.sink) =
          .error .nullSharedImageInterface := error
      rw [Message.resources, run]
      exact ⟨rfl, .asked draws unbound rfl rfl⟩
    · have run : handle kind (.onBeginFrame args) (returned [] c.sink) = .ok s' := run
      rw [Message.resources, run]
      exact ⟨begins.contextProvider, .made made rfl begins.known
        (fun b member => ⟨draws, begins.madeOn b member⟩) fun _ => begins.some_made⟩

theorem Inv.setClient {dchecks : Bool} {w : World T A} (h : Inv dchecks w) {side : Side}
    {c : Client T A} (balanced : c.Balanced)
    (provider : c.sink.contextProvider = (w.clients side).sink.contextProvider)
    (fallsBack : FallsBack (w.setClient side c)) : Inv dchecks (w.setClient side c) where
  balanced other := by
    simp only [World.setClient, Function.update_apply]
    split
    · exact balanced
    · exact h.balanced other
  provider alive other p stored := by
    simp only [World.setClient, Function.update_apply] at stored
    split at stored
    case isTrue same =>
      rw [provider] at stored
      exact h.provider alive side p stored
    case isFalse => exact h.provider alive other p stored
  fallsBack := fallsBack

theorem FallsBack.setClient {w : World T A} (h : FallsBack w) {side : Side} {c : Client T A}
    (made : ∀ b ∈ c.sink.known, ∀ p mailbox, b = .sharedImage p mailbox → w.Usable p)
    (asked : c.fault ≠ some .nullSharedImageInterface) : FallsBack (w.setClient side c) where
  made other b member := by
    simp only [World.setClient, Function.update_apply] at member
    split at member
    · exact made b member
    · exact h.made other b member
  asked other := by
    simp only [World.setClient, Function.update_apply]
    split
    · exact asked
    · exact h.asked other

theorem Usable.append {w d : World T A} {p : ContextProvider} (h : w.Usable p) {more : List Bool}
    (hosts : d.hosts = w.hosts ++ more) : d.Usable p := by
  refine ⟨h.1, ?_⟩
  obtain ⟨lt, -⟩ := List.getElem?_eq_some_iff.mp h.2
  rw [hosts, List.getElem?_append_left lt]
  exact h.2

theorem Inv.service {dchecks : Bool} {w d : World T A} (h : Inv dchecks w)
    (clients : d.clients = w.clients) (dcheckFailed : d.dcheckFailed = w.dcheckFailed)
    {more : List Bool} (hosts : d.hosts = w.hosts ++ more) : Inv dchecks d where
  balanced := by
    rw [clients]
    exact h.balanced
  provider := by
    rw [clients, dcheckFailed]
    exact h.provider
  fallsBack := by
    refine ⟨fun side b member p mailbox same => ?_, ?_⟩
    · rw [clients] at member
      exact Usable.append (h.fallsBack.made side b member p mailbox same) hosts
    · rw [clients]
      exact h.fallsBack.asked

theorem Inv.setContextProvider {dchecks : Bool} {w : World T A} (h : Inv dchecks w)
    (alive : w.dcheckFailed = false) (side : Side) (binds : Bool) (provider : Nat)
    (rest : List Nat) : Inv dchecks (setContextProvider dchecks side binds provider rest w) where
  balanced other := by
    simp only [GpuFallback.setContextProvider, World.setClient, Function.update_apply]
    split
    · exact (h.balanced side).frame rfl rfl rfl rfl
    · exact h.balanced other
  provider bound other p stored := by
    simp only [GpuFallback.setContextProvider] at bound
    simp only [GpuFallback.setContextProvider, World.setClient, Function.update_apply] at stored
    split at stored
    case isTrue =>
      obtain rfl := Option.some.inj stored
      cases dchecks with
      | false => rfl
      | true => simpa using bound
    case isFalse => exact h.provider alive other p stored
  fallsBack := by
    have kept : FallsBack (w.setClient side { w.clients side with
        sink := VizLayerClient.setContextProvider ⟨provider, dchecks && binds⟩
          (w.clients side).sink }) :=
      h.fallsBack.setClient (h.fallsBack.made side) (h.fallsBack.asked side)
    exact ⟨kept.made, kept.asked⟩

theorem contextProvider_of_framePath {kind : Kind} {s : Sink T A} {p : ContextProvider}
    (path : framePath kind s = some p) : s.contextProvider = some p := by
  cases kind with
  | inkClient useGpu | layerTreeFrameSink useGpu =>
    simp only [framePath, gpuPath, Option.ite_none_right_eq_some] at path
    exact path.2.2
  | guiGpuLayerTreeFrameSink => exact path

theorem alive_of_running {w : World T A} (running : w.halted = false) :
    w.dcheckFailed = false := by
  simp only [World.halted, Bool.or_eq_false_iff] at running
  exact running.1.1

theorem fault_of_running {w : World T A} (running : w.halted = false) (side : Side) :
    (w.clients side).fault = none := by
  simp only [World.halted, Bool.or_eq_false_iff, Option.isSome_eq_false_iff,
    Option.isNone_iff_eq_none] at running
  cases side
  · exact running.1.2
  · exact running.2

theorem handled_fallsBack {w : World T A} {side : Side} {c : Client T A} {drawn : Prop}
    {path : Option ContextProvider} (h : FallsBack w)
    (handled : Handled path drawn (w.clients side) c)
    (usable : drawn → ∀ p, path = some p → w.Usable p) : FallsBack (w.setClient side c) := by
  cases handled with
  | asked draws unbound fault known =>
    obtain ⟨p, same, unbound⟩ := unbound
    rw [(usable draws p same).1] at unbound
    cases unbound
  | made backings fault known madeOn some_made =>
    refine h.setClient (fun b member p mailbox same => ?_) (by rw [fault]; exact nofun)
    rw [known, List.mem_append] at member
    rcases member with old | new
    · exact h.made side b old p mailbox same
    · obtain ⟨draws, on⟩ := madeOn b new
      rw [same] at on
      exact usable draws p on.1

theorem not_fallsBack_handled {w : World T A} {side : Side} {c : Client T A} {drawn : Prop}
    {path : Option ContextProvider} (handled : Handled path drawn (w.clients side) c)
    (draws : drawn) {p : ContextProvider} (same : path = some p) (unusable : ¬ w.Usable p) :
    ¬ FallsBack (w.setClient side c) := by
  intro safe
  cases handled with
  | asked _ unbound fault known =>
    have asked := safe.asked side
    simp only [World.setClient, Function.update_self] at asked
    exact asked fault
  | made backings fault known madeOn some_made =>
    obtain ⟨b, member, shared⟩ := some_made draws (by rw [same]; rfl)
    have on := (madeOn b member).2
    cases b with
    | sharedBitmap id => cases shared
    | sharedImage q mailbox =>
      have path := on.1
      rw [same] at path
      obtain rfl := Option.some.inj path
      refine unusable (safe.made side (.sharedImage p mailbox) ?_ p mailbox rfl)
      simp only [World.setClient, Function.update_self, known, List.mem_append]
      exact .inr member

theorem inv_step (dchecks : Bool) (demo : Demo) (w : World T A) (a : Action A) (d : World T A)
    (h : Inv dchecks w) (good : Good dchecks demo w a)
    (taken : (machine dchecks demo).step w a = some d) : Inv dchecks d := by
  obtain ⟨running, taken⟩ := Machine.step_of_haltOn taken
  have alive := alive_of_running running
  cases a with
  | onEstablishedOnIOThread validHandle =>
    simp only [step, Option.ite_none_right_eq_some, Option.some.injEq] at taken
    obtain ⟨-, rfl⟩ := taken
    exact h.service rfl rfl (List.append_nil _).symm
  | onEstablishedOnMain =>
    simp only [step, Option.ite_none_right_eq_some, Option.some.injEq] at taken
    obtain ⟨-, rfl⟩ := taken
    exact h.service rfl rfl rfl
  | setContextProvider side binds =>
    simp only [step] at taken
    split at taken
    · cases taken
    next provider rest queue =>
    cases taken
    exact h.setContextProvider alive side binds provider rest
  | client side a =>
    cases a with
    | setContextProvider p => cases taken
    | draw location | embedChild childFrameSinkId =>
      cases taken
      exact h.setClient ((h.balanced side).frame rfl rfl rfl rfl) rfl
        (h.fallsBack.setClient (h.fallsBack.made side) (h.fallsBack.asked side))
    | message m =>
      obtain ⟨c, stepped, rfl⟩ := Option.map_eq_some_iff.mp taken
      obtain ⟨provider, handled⟩ := step_message (h.balanced side) stepped
      have fault := fault_of_running running side
      have balanced : c.Balanced := by
        refine balanced_step (demo.kind side) (w.clients side) (.message m) c (h.balanced side) ?_
        exact (Machine.haltOn_step (by rw [fault]; rfl) _ _).trans stepped
      refine h.setClient balanced provider (handled_fallsBack h.fallsBack handled ?_)
      rintro ⟨args, rfl⟩ p path
      obtain ⟨compiled, host⟩ := good p path
      have stored := contextProvider_of_framePath path
      exact ⟨(h.provider alive side p stored).trans compiled, host⟩

theorem not_fallsBack_step (dchecks : Bool) (demo : Demo) (w : World T A) (a : Action A)
    (d : World T A) (h : Inv dchecks w) (bad : ¬ Good dchecks demo w a)
    (taken : (machine dchecks demo).step w a = some d) : ¬ FallsBack d := by
  obtain ⟨running, taken⟩ := Machine.step_of_haltOn taken
  cases a with
  | onEstablishedOnIOThread validHandle | onEstablishedOnMain | setContextProvider side binds =>
    exact absurd trivial bad
  | client side a =>
    cases a with
    | setContextProvider p | draw location | embedChild childFrameSinkId =>
      exact absurd trivial bad
    | message m =>
      cases m with
      | didReceiveCompositorFrameAck resources | reclaimResources resources =>
        exact absurd trivial bad
      | onBeginFrame args =>
        obtain ⟨c, stepped, rfl⟩ := Option.map_eq_some_iff.mp taken
        obtain ⟨-, handled⟩ := step_message (h.balanced side) stepped
        simp only [Good, not_forall] at bad
        obtain ⟨p, path, bad⟩ := bad
        have stored := contextProvider_of_framePath path
        refine not_fallsBack_handled handled ⟨args, rfl⟩ path fun usable => bad ?_
        rw [← h.provider (alive_of_running running) side p stored]
        exact usable

structure Survives (w : World T A) : Prop where
  fallsBack : FallsBack w
  running : w.dcheckFailed = false

def Binds (dchecks : Bool) : Action A → Prop
  | .setContextProvider _ binds => dchecks = true → binds = true
  | _ => True

theorem step_dcheckFailed {dchecks : Bool} {demo : Demo} {w : World T A} {a : Action A}
    {d : World T A} (taken : (machine dchecks demo).step w a = some d) :
    d.dcheckFailed = false ↔ Binds dchecks a := by
  obtain ⟨running, taken⟩ := Machine.step_of_haltOn taken
  have alive := alive_of_running running
  cases a with
  | onEstablishedOnIOThread validHandle | onEstablishedOnMain =>
    simp only [step, Option.ite_none_right_eq_some, Option.some.injEq] at taken
    obtain ⟨-, rfl⟩ := taken
    exact iff_of_true alive trivial
  | setContextProvider side binds =>
    simp only [step] at taken
    split at taken
    · cases taken
    next provider rest queue =>
    cases taken
    cases dchecks <;> cases binds <;> simp [setContextProvider, Binds]
  | client side a =>
    refine iff_of_true ?_ trivial
    cases a with
    | setContextProvider p => cases taken
    | message m =>
      obtain ⟨c, -, rfl⟩ := Option.map_eq_some_iff.mp taken
      exact alive
    | draw location | embedChild childFrameSinkId =>
      cases taken
      exact alive

/-- A resource is made on the GPU only with a usable provider, in every state of a
run, exactly if the provider of each frame that makes one there has a channel host
and the `DCHECK` that binds it is compiled in. No `DCHECK` fails either exactly if
besides no bind fails under one. -/
theorem fallsBack_iff (dchecks : Bool) (demo : Demo) (as : List (Action A)) :
    ((∀ w ∈ (machine dchecks demo).visited (start demo : World T A) as, FallsBack w) ↔
      ∀ p ∈ (machine dchecks demo).taken (start demo : World T A) as, Good dchecks demo p.1 p.2) ∧
    ((∀ w ∈ (machine dchecks demo).visited (start demo : World T A) as, Survives w) ↔
      ∀ p ∈ (machine dchecks demo).taken (start demo : World T A) as,
        Good dchecks demo p.1 p.2 ∧ Binds dchecks p.2) := by
  constructor
  · exact Machine.visited_iff_taken (fun _ h => h.fallsBack) (inv_step dchecks demo)
      (not_fallsBack_step dchecks demo) (start_inv dchecks demo) as
  · let Running (w : World T A) : Prop := Inv dchecks w ∧ w.dcheckFailed = false
    have sound (w : World T A) (h : Running w) : Survives w := ⟨h.1.fallsBack, h.2⟩
    have keeps (w : World T A) (a : Action A) (d : World T A) (h : Running w)
        (good : Good dchecks demo w a ∧ Binds dchecks a)
        (taken : (machine dchecks demo).step w a = some d) : Running d :=
      ⟨inv_step dchecks demo w a d h.1 good.1 taken, (step_dcheckFailed taken).mpr good.2⟩
    have breaks (w : World T A) (a : Action A) (d : World T A) (h : Running w)
        (bad : ¬ (Good dchecks demo w a ∧ Binds dchecks a))
        (taken : (machine dchecks demo).step w a = some d) : ¬ Survives d := by
      intro safe
      by_cases good : Good dchecks demo w a
      · exact bad ⟨good, (step_dcheckFailed taken).mp safe.running⟩
      · exact not_fallsBack_step dchecks demo w a d h.1 good taken safe.fallsBack
    exact Machine.visited_iff_taken sound keeps breaks ⟨start_inv dchecks demo, rfl⟩ as

def releaseRun : List (Action Unit) :=
  [.onEstablishedOnIOThread true, .onEstablishedOnMain, .setContextProvider .child true,
    .client .child (.message (.onBeginFrame ()))]

theorem release_build_unbound :
    ¬ ∀ w ∈ (machine false (.vizLayer true)).visited
        (start (.vizLayer true) : World (counting Backing) Unit) releaseRun, FallsBack w := by
  intro safe
  have last := safe _ (Machine.exec_mem_visited _ _ _)
  exact absurd (last.asked .child) (by decide)

end ChromiumDemo.GpuFallback
