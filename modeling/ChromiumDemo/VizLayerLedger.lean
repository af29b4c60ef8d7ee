import ChromiumDemo.TransitionSystem
import ChromiumDemo.VizLayerClient

/-! The layer clients next to a ledger of what they have lent to viz. While a
frame is in the making its resources are lent on paper, and submitting it makes
the ledger that of viz, so every function keeps `Sound` and every reachable state
of a client has it with the ledger of viz. -/

namespace ChromiumDemo.VizLayerClient
open TransitionSystem LeaseLedger ReleaseTable CompositorFrames

variable {A : Type*}

section Specs
variable {T : Implementation Backing} {s : Sink T A} {l : Ledger Backing}

/-- The client next to a ledger of what it has lent: the table is exact, the
callbacks have run for what came back, shared images alone were withdrawn then,
and the service was told of nothing else. -/
structure Sound (s : Sink T A) (l : Ledger Backing) : Prop where
  table : ∃ t, s.clientResourceProvider = some t ∧ T.Lent t l
  unique : l.Unique Backing.name s.backings
  released : s.released = l.settled
  withdrawn : s.service.withdrawn = l.settled.filter Backing.isSharedImage
  registered : ∀ b, b ∈ s.service.registered.map Prod.fst ↔
    (∃ id, l.out id = some b) ∨ b ∈ l.settled
  distinct : (s.service.registered.map Prod.fst).Nodup

theorem Sound.frame (h : Sound s l) {s' : Sink T A}
    (provider : s'.clientResourceProvider = s.clientResourceProvider)
    (backings : s'.backings = s.backings) (released : s'.released = s.released)
    (service : s'.service = s.service) : Sound s' l := by
  refine ⟨?_, ?_, ?_, ?_, fun b => ?_, ?_⟩
  · rw [provider]
    exact h.table
  · rw [backings]
    exact h.unique
  · rw [released, h.released]
  · rw [service, h.withdrawn]
  · rw [service]
    exact h.registered b
  · rw [service]
    exact h.distinct

def gpuPath (useGpu : Bool) (s : Sink T A) : Option ContextProvider :=
  if useGpu then s.contextProvider else none

def Backing.MadeOn (path : Option ContextProvider) (b : Backing) : Prop :=
  match b with
  | .sharedBitmap _ => path = none
  | .sharedImage p _ => path = some p ∧ p.sharedImageInterface = true

theorem Backing.MadeOn.isSharedImage {path : Option ContextProvider} {b : Backing}
    (made : b.MadeOn path) (gpu : path.isSome) : b.isSharedImage = true := by
  cases b with
  | sharedBitmap id =>
    rw [show path = none from made] at gpu
    cases gpu
  | sharedImage p mailbox => rfl

def Unbound (path : Option ContextProvider) : Prop :=
  ∃ p, path = some p ∧ p.sharedImageInterface = false

theorem createResource_cases (useGpu : Bool) (source : Bitmap) (s : Sink T A) :
    (Unbound (gpuPath useGpu s) ∧
      createResource useGpu source s = .error .nullSharedImageInterface) ∨
    ∃ b, createResource useGpu source s = importResource b source s ∧ b.name = s.backings ∧
      b.MadeOn (gpuPath useGpu s) := by
  unfold createResource gpuPath
  cases s.contextProvider with
  | none => exact .inr ⟨_, rfl, rfl, by cases useGpu <;> rfl⟩
  | some contextProvider =>
    cases useGpu with
    | false => exact .inr ⟨_, rfl, rfl, rfl⟩
    | true =>
      simp only [if_true, createGpuResource]
      split
      case isTrue bound => exact .inr ⟨_, rfl, rfl, rfl, bound⟩
      case isFalse unbound => exact .inl ⟨⟨_, rfl, Bool.eq_false_iff.mpr unbound⟩, rfl⟩

def Sink.known (s : Sink T A) : List Backing := s.service.registered.map Prod.fst

/-- A quad in the making: the frame lends one backing more. -/
structure Appends (useGpu : Bool) (l : Ledger Backing) (frame : CompositorFrame A Backing)
    (s : Sink T A) (frame' : CompositorFrame A Backing) (s' : Sink T A) (id : Nat) (b : Backing) :
    Prop where
  resourceList : frame'.resourceList = frame.resourceList ++ [(id, b)]
  viz : s'.viz = s.viz
  contextProvider : s'.contextProvider = s.contextProvider
  sound : Sound s' (l.lend id b)
  known : s'.known = s.known ++ [b]
  made : b.MadeOn (gpuPath useGpu s)

theorem appendResourceDrawQuad_sound (h : Sound s l) (useGpu : Bool) (quad : Nat → DrawQuad)
    (source : Bitmap) (frame : CompositorFrame A Backing) :
    (Unbound (gpuPath useGpu s) ∧
      appendResourceDrawQuad useGpu quad source frame s = .error .nullSharedImageInterface) ∨
    ∃ frame' s' id b, appendResourceDrawQuad useGpu quad source frame s = .ok (frame', s') ∧
      Appends useGpu l frame s frame' s' id b := by
  obtain ⟨unbound, error⟩ | ⟨b, created, name, made⟩ := createResource_cases useGpu source s
  · refine .inl ⟨unbound, ?_⟩
    rw [appendResourceDrawQuad, error]
    rfl
  obtain ⟨t, table, lent⟩ := h.table
  obtain ⟨t', sent, lent'⟩ := lent.export b
  have new := lent.not_out b
  refine .inr ⟨{ frame with
      quads := frame.quads ++ [quad (T.importResource b t).1]
      resourceList := frame.resourceList ++ [((T.importResource b t).1, b)] },
    { s with
      clientResourceProvider := some t'
      backings := s.backings + 1
      service := { s.service with registered := s.service.registered ++ [(b, source)] } },
    (T.importResource b t).1, b, ?_, rfl, rfl, rfl, ?_, by simp [Sink.known], made⟩
  · rw [appendResourceDrawQuad, created, importResource, table]
    simp only [Bind.bind, Except.bind, prepareSendToParent]
    rw [sent]
  · refine ⟨⟨t', rfl, lent'⟩, h.unique.lend _ name, h.released, h.withdrawn, fun c => ?_, ?_⟩
    · rw [List.map_append, List.mem_append, h.registered c]
      simp only [List.map_cons, List.map_nil, List.mem_singleton, Ledger.lend_out]
      constructor
      · rintro ((⟨id, out⟩ | settled) | rfl)
        · refine .inl ⟨id, ?_⟩
          have differ : id ≠ (T.importResource b t).1 := by
            rintro rfl
            rw [new] at out
            cases out
          rw [if_neg differ, out]
        · exact .inr settled
        · exact .inl ⟨_, if_pos rfl⟩
      · rintro (⟨id, out⟩ | settled)
        · split at out
          · exact .inr (Option.some.inj out).symm
          · exact .inl (.inl ⟨id, out⟩)
        · exact .inl (.inr settled)
    · rw [List.map_append, List.nodup_append]
      refine ⟨h.distinct, List.nodup_singleton _, fun c old d fresh => ?_⟩
      rintro rfl
      have same : c = b := List.mem_singleton.mp fresh
      have below : c.name < s.backings := by
        obtain ⟨id, out⟩ | settled := (h.registered c).mp old
        · exact h.unique.out_lt id c out
        · exact h.unique.settled_lt c settled
      rw [same, name] at below
      omega

/-- A finished frame; its resources are lent once it is submitted. They are made on
one path, and a frame that has a provider there makes one. -/
structure Builds (path : Option ContextProvider) (s : Sink T A) (frame : CompositorFrame A Backing)
    (s' : Sink T A) (made : List Backing) : Prop where
  viz : s'.viz = s.viz
  contextProvider : s'.contextProvider = s.contextProvider
  sound : Sound s' (lendAll frame.resourceList s.viz.ledger)
  known : s'.known = s.known ++ made
  madeOn : ∀ b ∈ made, b.MadeOn path
  some_made : path.isSome → made ≠ []

theorem createInkFrame_sound (h : Sound s s.viz.ledger) (useGpu : Bool) (args : A) :
    (Unbound (gpuPath useGpu s) ∧
      createInkFrame useGpu args s = .error .nullSharedImageInterface) ∨
    ∃ frame s' made, createInkFrame useGpu args s = .ok (frame, s') ∧
      Builds (gpuPath useGpu s) s frame s' made := by
  let s₀ : Sink T A := { s with frameTokenGenerator := nextFrameToken s.frameTokenGenerator }
  have h₀ : Sound s₀ s.viz.ledger := h.frame rfl rfl rfl rfl
  obtain ⟨unbound, error⟩ | ⟨frame, s₁, id, b, run, appends⟩ :=
    appendResourceDrawQuad_sound h₀ useGpu .texture s₀.bitmap
      { beginFrameAck := args, frameToken := s₀.frameTokenGenerator }
  · refine .inl ⟨unbound, ?_⟩
    simp only [createInkFrame]
    rw [error]
    rfl
  · refine .inr ⟨{ frame with
      quads := frame.quads ++ [.solidColor ((s₁.frameTokenGenerator / 60 + 1) % colors)] }, s₁, [b],
      ?_, appends.viz, appends.contextProvider, ?_, appends.known, ?_,
      fun _ => List.cons_ne_nil _ _⟩
    · simp only [createInkFrame]
      rw [run]
      rfl
    · rw [appends.resourceList]
      exact appends.sound
    · rw [List.forall_mem_singleton]
      exact appends.made

theorem createLayerFrame_sound (h : Sound s s.viz.ledger) (useGpu copyOutput : Bool) (args : A) :
    (Unbound (gpuPath useGpu s) ∧
      createLayerFrame useGpu copyOutput args s = .error .nullSharedImageInterface) ∨
    ∃ frame s' made, createLayerFrame useGpu copyOutput args s = .ok (frame, s') ∧
      Builds (gpuPath useGpu s) s frame s' made ∧
      (useGpu = true → ∀ resource ∈ frame.resourceList, resource.2.isSharedImage = true) := by
  let frame : CompositorFrame A Backing :=
    { beginFrameAck := args
      frameToken := s.frameTokenGenerator
      quads := .debugBorder :: appendSurfaceDrawQuad s
      copyRequests := if copyOutput then 1 else 0 }
  cases bound : s.contextProvider.isSome with
  | false =>
    have nothing : gpuPath useGpu s = none := by
      rw [gpuPath, Option.isSome_eq_false_iff.mp bound |> Option.isNone_iff_eq_none.mp, ite_self]
    refine .inr ⟨{ frame with
      quads := frame.quads ++ [.solidColor (s.frameTokenGenerator / 60 % colors)] }, s, [], ?_,
      ⟨rfl, rfl, h, by simp, by simp, by simp [nothing]⟩,
      fun _ _ member => absurd member List.not_mem_nil⟩
    simp only [createLayerFrame, bound]
    rfl
  | true =>
    obtain ⟨unbound, error⟩ | ⟨frame₁, s₁, i, x, tile, first⟩ :=
      appendResourceDrawQuad_sound h useGpu .tile (circles [1, 2, 3] s) frame
    · refine .inl ⟨unbound, ?_⟩
      simp only [createLayerFrame, bound, if_true, appendTileDrawQuad]
      rw [error]
      rfl
    have path : gpuPath useGpu s₁ = gpuPath useGpu s := by
      rw [gpuPath, gpuPath, first.contextProvider]
    obtain ⟨unbound, error⟩ | ⟨frame₂, s₂, j, y, texture, second⟩ :=
      appendResourceDrawQuad_sound first.sound useGpu .texture (circles [2, 3, 1] s₁) frame₁
    · refine .inl ⟨path ▸ unbound, ?_⟩
      simp only [createLayerFrame, bound, if_true, appendTileDrawQuad, appendTextureDrawQuad]
      rw [tile]
      simp only [Bind.bind, Except.bind]
      rw [error]
    · have resources : frame₂.resourceList = [(i, x), (j, y)] := by
        rw [second.resourceList, first.resourceList]
        rfl
      have made : ∀ b ∈ [x, y], b.MadeOn (gpuPath useGpu s) := by
        rw [List.forall_mem_cons, List.forall_mem_singleton, ← path]
        exact ⟨path ▸ first.made, second.made⟩
      refine .inr ⟨{ frame₂ with
        quads := frame₂.quads ++ [.videoHole] ++
          [.solidColor (s₂.frameTokenGenerator / 60 % colors)] }, s₂, [x, y], ?_,
        ⟨second.viz.trans first.viz, second.contextProvider.trans first.contextProvider, ?_, ?_,
          made, fun _ => List.cons_ne_nil _ _⟩, fun gpu resource member => ?_⟩
      · simp only [createLayerFrame, bound, if_true, appendTileDrawQuad, appendTextureDrawQuad]
        rw [tile]
        simp only [Bind.bind, Except.bind]
        rw [texture]
      · show Sound s₂ (lendAll frame₂.resourceList s.viz.ledger)
        rw [resources]
        exact second.sound
      · rw [second.known, first.known, List.append_assoc]
        rfl
      · have gpu_path : (gpuPath useGpu s).isSome := by rw [gpuPath, gpu, if_pos rfl, bound]
        change resource ∈ frame₂.resourceList at member
        rw [resources, List.mem_pair] at member
        obtain rfl | rfl := member
        · exact (made x (by simp)).isSharedImage gpu_path
        · exact (made y (by simp)).isSharedImage gpu_path

theorem submit_sound {path : Option ContextProvider} {frame : CompositorFrame A Backing}
    {s' : Sink T A} {made : List Backing} (h : Builds path s frame s' made) :
    Sound (submit (frame, s')) (submit (frame, s')).viz.ledger := by
  have sound := h.sound
  rw [← h.viz] at sound
  exact sound.frame rfl rfl rfl rfl

def framePath (kind : Kind) (s : Sink T A) : Option ContextProvider :=
  match kind with
  | .inkClient useGpu => if s.needRedraw then gpuPath useGpu s else none
  | .layerTreeFrameSink useGpu =>
    if nextFrameToken s.frameTokenGenerator % 60 = 1 then gpuPath useGpu s else none
  | .guiGpuLayerTreeFrameSink => s.contextProvider

/-- What a `BeginFrame` that goes well leaves, with the frame it submits, if any. -/
structure Begins (kind : Kind) (s s' : Sink T A) (made : List Backing) : Prop where
  sound : Sound s' s'.viz.ledger
  contextProvider : s'.contextProvider = s.contextProvider
  known : s'.known = s.known ++ made
  madeOn : ∀ b ∈ made, b.MadeOn (framePath kind s)
  some_made : (framePath kind s).isSome → ∃ b ∈ made, b.isSharedImage = true
  lent : ∃ resources, s'.viz.ledger = lendAll resources s.viz.ledger ∧
    (kind = .guiGpuLayerTreeFrameSink → ∀ r ∈ resources, r.2.isSharedImage = true)

theorem begins_idle (kind : Kind) {s' : Sink T A} (sound : Sound s' s'.viz.ledger)
    (contextProvider : s'.contextProvider = s.contextProvider) (service : s'.service = s.service)
    (ledger : s'.viz.ledger = s.viz.ledger) (idle : framePath kind s = none) :
    Begins kind s s' [] where
  sound := sound
  contextProvider := contextProvider
  known := by simp [Sink.known, service]
  madeOn _ member := absurd member List.not_mem_nil
  some_made path := by
    rw [idle] at path
    cases path
  lent := ⟨[], ledger, fun _ _ member => absurd member List.not_mem_nil⟩

theorem Builds.begins {kind : Kind} {s₀ s' : Sink T A} {frame : CompositorFrame A Backing}
    {made : List Backing} (h : Builds (framePath kind s) s₀ frame s' made)
    (contextProvider : s₀.contextProvider = s.contextProvider) (known : s₀.known = s.known)
    (ledger : s₀.viz.ledger = s.viz.ledger) {t : Sink T A}
    (sound : Sound t t.viz.ledger) (t_provider : t.contextProvider = s'.contextProvider)
    (t_known : t.known = s'.known) (t_viz : t.viz = s'.viz.submitCompositorFrame frame)
    (shared : kind = .guiGpuLayerTreeFrameSink → ∀ r ∈ frame.resourceList,
      r.2.isSharedImage = true) : Begins kind s t made where
  sound := sound
  contextProvider := by rw [t_provider, h.contextProvider, contextProvider]
  known := by rw [t_known, h.known, known]
  madeOn := h.madeOn
  some_made path := by
    obtain ⟨b, rest, same⟩ := List.exists_cons_of_ne_nil (h.some_made path)
    rw [same]
    refine ⟨b, List.mem_cons_self, (h.madeOn b ?_).isSharedImage path⟩
    rw [same]
    exact List.mem_cons_self
  lent := by
    refine ⟨frame.resourceList, ?_, shared⟩
    rw [t_viz, ← ledger, ← h.viz]
    rfl

theorem onBeginFrame_sound (h : Sound s s.viz.ledger) (kind : Kind) (args : A) :
    (Unbound (framePath kind s) ∧ onBeginFrame kind args s = .error .nullSharedImageInterface) ∨
    ∃ s' made, onBeginFrame kind args s = .ok s' ∧ Begins kind s s' made := by
  let s₀ : Sink T A := { s with frameTokenGenerator := nextFrameToken s.frameTokenGenerator }
  have h₀ : Sound s₀ s₀.viz.ledger := h.frame rfl rfl rfl rfl
  cases kind with
  | inkClient useGpu =>
    simp only [onBeginFrame]
    split
    case isTrue redraw =>
      have path : framePath (.inkClient useGpu) s = gpuPath useGpu s := if_pos redraw
      rw [path]
      obtain ⟨unbound, error⟩ | ⟨frame, s', made, run, builds⟩ := createInkFrame_sound h useGpu args
      · exact .inl ⟨unbound, by rw [error]; rfl⟩
      · have sound := submit_sound builds
        rw [← path] at builds
        exact .inr ⟨{ submit (frame, s') with needRedraw := false }, made, by rw [run]; rfl,
          builds.begins rfl rfl rfl (sound.frame rfl rfl rfl rfl) rfl rfl rfl
            fun other => by cases other⟩
    case isFalse still =>
      exact .inr ⟨_, [], rfl, begins_idle _ (h.frame rfl rfl rfl rfl) rfl rfl rfl (if_neg still)⟩
  | layerTreeFrameSink useGpu =>
    simp only [onBeginFrame]
    split
    case isTrue turn =>
      have path : framePath (.layerTreeFrameSink useGpu) s = gpuPath useGpu s := if_pos turn
      rw [path]
      obtain ⟨unbound, error⟩ | ⟨frame, s', made, run, builds, -⟩ :=
        createLayerFrame_sound h₀ useGpu useGpu args
      · exact .inl ⟨unbound, by rw [error]; rfl⟩
      · have sound := submit_sound builds
        have built : Builds (framePath (.layerTreeFrameSink useGpu) s) s₀ frame s' made := by
          rw [path]
          exact builds
        exact .inr ⟨submit (frame, s'), made, by rw [run]; rfl,
          built.begins rfl rfl rfl sound rfl rfl rfl fun other => by cases other⟩
    case isFalse rest =>
      exact .inr ⟨_, [], rfl, begins_idle _ (h.frame rfl rfl rfl rfl) rfl rfl rfl (if_neg rest)⟩
  | guiGpuLayerTreeFrameSink =>
    simp only [onBeginFrame]
    obtain ⟨unbound, error⟩ | ⟨frame, s', made, run, builds, shared⟩ :=
      createLayerFrame_sound h₀ true false args
    · exact .inl ⟨unbound, by rw [error]; rfl⟩
    · have sound := submit_sound builds
      have built : Builds (framePath .guiGpuLayerTreeFrameSink s) s₀ frame s' made := builds
      exact .inr ⟨submit (frame, s'), made, by rw [run]; rfl,
        built.begins rfl rfl rfl sound rfl rfl rfl fun _ => shared rfl⟩

theorem runReleaseCallbacks (backings : List Backing) (s : Sink T A) :
    backings.foldl runReleaseCallback s = { s with
      released := s.released ++ backings
      service := { s.service with
        withdrawn := s.service.withdrawn ++ backings.filter Backing.isSharedImage } } := by
  induction backings generalizing s with
  | nil => simp
  | cons b backings ih =>
    rw [List.foldl_cons, ih]
    cases b <;>
      simp [runReleaseCallback, deleteSharedImage, List.filter_cons, Backing.isSharedImage]

theorem receiveAndRemove_sound (h : Sound s l) {resources : List Returned}
    (takes : Takes l resources) :
    ∃ s', receiveAndRemove resources s = .ok s' ∧ s'.viz = s.viz ∧
      (s'.contextProvider = s.contextProvider ∧ s'.known = s.known) ∧
      Sound s' (l.settleAll (ids resources)) := by
  obtain ⟨t, table, lent⟩ := h.table
  obtain ⟨settled, released⟩ := lent.receiveRemove takes
  have log := Ledger.settleAll_settled takes.distinct l
  refine ⟨_, by rw [receiveAndRemove, table], ?_, ?_, ?_⟩
  · rw [runReleaseCallbacks]
  · rw [runReleaseCallbacks]
    exact ⟨rfl, rfl⟩
  · rw [runReleaseCallbacks, released]
    refine ⟨⟨_, rfl, settled⟩, h.unique.settleAll _, ?_, ?_, fun b => ?_, h.distinct⟩
    · rw [log, ← h.released]
    · rw [log, List.filter_append, ← h.withdrawn]
    · refine (h.registered b).trans ?_
      rw [log, List.mem_append, List.mem_filterMap]
      simp only [Ledger.settleAll_out]
      constructor
      · rintro (⟨id, out⟩ | old)
        · by_cases back : id ∈ ids resources
          · exact .inr (.inr ⟨id, back, out⟩)
          · exact .inl ⟨id, by rw [if_neg back, out]⟩
        · exact .inr (.inl old)
      · rintro (⟨id, out⟩ | old | ⟨id, -, out⟩)
        · split at out
          · cases out
          · exact .inl ⟨id, out⟩
        · exact .inr old
        · exact .inl ⟨id, out⟩

end Specs

structure Client (T : Implementation Backing) (A : Type*) where
  sink : Sink T A := {}
  fault : Option Fault := none

section Client
variable {T : Implementation Backing}

def handle (kind : Kind) (m : Message A) (s : Sink T A) : Except Fault (Sink T A) :=
  match m with
  | .didReceiveCompositorFrameAck resources => didReceiveCompositorFrameAck resources s
  | .onBeginFrame args => onBeginFrame kind args s
  | .reclaimResources resources => reclaimResources resources s

def Client.settle (s : Sink T A) : Except Fault (Sink T A) → Client T A
  | .ok s => { sink := s }
  | .error fault => { sink := s, fault := some fault }

def returned (resources : List Returned) (s : Sink T A) : Sink T A :=
  { s with viz := { s.viz with ledger := s.viz.ledger.settleAll (ids resources) } }

def step (kind : Kind) (c : Client T A) : Action A → Option (Client T A)
  | .message m =>
    if c.sink.viz.needsBeginFrame = true ∧ Takes c.sink.viz.ledger m.resources then
      some (.settle (returned m.resources c.sink) (handle kind m (returned m.resources c.sink)))
    else none
  | .draw location => some { c with sink := draw location c.sink }
  | .setContextProvider contextProvider =>
    some { c with sink := setContextProvider contextProvider c.sink }
  | .embedChild childFrameSinkId => some { c with sink := embedChild childFrameSinkId c.sink }

def machine (kind : Kind) : Machine (Client T A) (Action A) :=
  .haltOn (fun c => c.fault.isSome) (step kind)

def bound : Kind → Client T A
  | .inkClient _ => { sink := inkBind {} }
  | .layerTreeFrameSink _ => { sink := bindOnThread {} }
  | .guiGpuLayerTreeFrameSink => { sink := bindOnThread {} }

def Client.Balanced (c : Client T A) : Prop := Sound c.sink c.sink.viz.ledger

theorem bound_balanced (kind : Kind) : (bound kind : Client T A).Balanced := by
  cases kind <;>
    exact ⟨⟨T.new, rfl, Implementation.lent_new⟩, Ledger.unique_empty _ _, rfl, rfl,
      fun b => by simp [bound, inkBind, bindOnThread], List.nodup_nil⟩

theorem message_balanced {kind : Kind} {c d : Client T A} {m : Message A}
    (h : c.Balanced) (taken : (machine kind).step c (.message m) = some d) :
    Takes c.sink.viz.ledger m.resources ∧ d.Balanced ∧
    ∃ resources, d.sink.viz.ledger =
        lendAll resources (c.sink.viz.ledger.settleAll (ids m.resources)) ∧
      (kind = .guiGpuLayerTreeFrameSink → ∀ r ∈ resources, r.2.isSharedImage = true) := by
  have stepped := (Machine.step_of_haltOn taken).2
  simp only [step] at stepped
  split at stepped
  case isFalse => cases stepped
  case isTrue enabled =>
    obtain rfl := Option.some.inj stepped
    refine ⟨enabled.2, ?_⟩
    have received (resources : List Returned) (takes : Takes c.sink.viz.ledger resources) :
        ∃ s', receiveAndRemove resources (returned resources c.sink) = .ok s' ∧
          s'.viz.ledger = c.sink.viz.ledger.settleAll (ids resources) ∧
          Sound s' s'.viz.ledger := by
      have h' : Sound (returned resources c.sink) c.sink.viz.ledger :=
        h.frame rfl rfl rfl rfl
      obtain ⟨s', run, viz, -, sound⟩ := receiveAndRemove_sound h' takes
      refine ⟨s', run, by rw [viz]; rfl, ?_⟩
      rw [viz]
      exact sound
    cases m with
    | didReceiveCompositorFrameAck resources =>
      obtain ⟨s', run, ledger, sound⟩ := received resources enabled.2
      rw [handle, Message.resources, didReceiveCompositorFrameAck, run]
      exact ⟨sound, [], ledger, fun _ _ member => absurd member List.not_mem_nil⟩
    | reclaimResources resources =>
      obtain ⟨s', run, ledger, sound⟩ := received resources enabled.2
      rw [handle, Message.resources, reclaimResources, run]
      exact ⟨sound, [], ledger, fun _ _ member => absurd member List.not_mem_nil⟩
    | onBeginFrame args =>
      obtain ⟨-, error⟩ | ⟨s', made, run, begins⟩ := onBeginFrame_sound h kind args
      · have run : handle kind (.onBeginFrame args) (returned [] c.sink) =
            .error .nullSharedImageInterface := error
        rw [Message.resources, run]
        exact ⟨h, [], rfl, fun _ _ member => absurd member List.not_mem_nil⟩
      · have run : handle kind (.onBeginFrame args) (returned [] c.sink) = .ok s' := run
        rw [Message.resources, run]
        exact ⟨begins.sound, begins.lent⟩

theorem balanced_step (kind : Kind) (c : Client T A) (a : Action A) (d : Client T A)
    (h : c.Balanced) (taken : (machine kind).step c a = some d) :
    d.Balanced := by
  have stepped := (Machine.step_of_haltOn taken).2
  cases a with
  | message m => exact (message_balanced h taken).2.1
  | draw location | setContextProvider contextProvider | embedChild childFrameSinkId =>
    obtain rfl := Option.some.inj stepped
    exact h.frame rfl rfl rfl rfl

theorem balanced_exec (kind : Kind) (as : List (Action A)) :
    ((machine kind).exec (bound kind : Client T A) as).Balanced :=
  Machine.exec_invariant (balanced_step kind) (bound_balanced kind) as

end Client

end ChromiumDemo.VizLayerClient
