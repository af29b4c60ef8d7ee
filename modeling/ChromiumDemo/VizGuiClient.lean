import ChromiumDemo.CompositorFrames
import ChromiumDemo.ReleaseTable
import ChromiumDemo.TransitionSystem

/-! The client of demo_viz_gui: `LayerTreeFrameSink` with the resources of its
frames. A shared image stands for the resource that is imported, for its pixels
and for the release callback, which holds on to it. `viz` is the far end of the
frame sink: the frames submitted to it and the ledger of the resources in them.
Geometry and timing of the frames are left out. -/

namespace ChromiumDemo.VizGuiClient
open LeaseLedger ReleaseTable CompositorFrames

variable {A : Type*}

structure SharedImage where
  name : Nat
  pixels : List Nat
deriving DecidableEq

structure Viz (A : Type*) where
  needsBeginFrame : Bool := false
  frames : List (CompositorFrame A SharedImage) := []
  ledger : Ledger SharedImage := {}

def Viz.submitCompositorFrame (frame : CompositorFrame A SharedImage) (viz : Viz A) : Viz A :=
  { viz with
    frames := viz.frames ++ [frame]
    ledger := lendAll frame.resourceList viz.ledger }

inductive Fault
  | notImported (id : Nat)
  | nullClientResourceProvider
deriving DecidableEq

/-- `released` are the images whose release callback has run, in order. -/
structure LayerTreeFrameSink (T : Implementation SharedImage) (A : Type*) where
  clientResourceProvider : Option T.Table := none
  sharedImageInterfaceProvider : Bool := false
  frameTokenGenerator : Nat := 0
  childFrameSinkId : Option Nat := none
  localSurfaceId : Nat := 0
  sharedImages : Nat := 0
  released : List SharedImage := []
  viz : Viz A := {}

section Functions
variable {T : Implementation SharedImage}

def bindOnThread (s : LayerTreeFrameSink T A) : LayerTreeFrameSink T A :=
  { s with
    viz := { s.viz with needsBeginFrame := true }
    clientResourceProvider := some T.new }

def bindSharedImageInterfaceProvider (s : LayerTreeFrameSink T A) : LayerTreeFrameSink T A :=
  { s with sharedImageInterfaceProvider := true }

def embedChild (childFrameSinkId : Nat) (s : LayerTreeFrameSink T A) : LayerTreeFrameSink T A :=
  { s with childFrameSinkId := some childFrameSinkId, localSurfaceId := s.localSurfaceId + 1 }

/-- `answer` says whether `GetSharedImageInterface` is not null. Both early
exits return the id zero. -/
def allocateAndFillSoftwareResource (answer : Bool) (source : List Nat)
    (s : LayerTreeFrameSink T A) : Except Fault (Nat × LayerTreeFrameSink T A) :=
  if !s.sharedImageInterfaceProvider then .ok (0, s)
  else if !answer then .ok (0, s)
  else match s.clientResourceProvider with
    | none => .error .nullClientResourceProvider
    | some provider =>
      let imported := T.importResource ⟨s.sharedImages, source⟩ provider
      .ok (imported.1,
        { s with clientResourceProvider := some imported.2, sharedImages := s.sharedImages + 1 })

def prepareSendToParent (resource : Nat) (frame : CompositorFrame A SharedImage)
    (s : LayerTreeFrameSink T A) :
    Except Fault (CompositorFrame A SharedImage × LayerTreeFrameSink T A) :=
  match s.clientResourceProvider with
  | none => .error .nullClientResourceProvider
  | some provider => match T.prepareSend resource provider with
    | none => .error (.notImported resource)
    | some (image, provider) =>
      .ok ({ frame with resourceList := frame.resourceList ++ [(resource, image)] },
        { s with clientResourceProvider := some provider })

def appendResourceDrawQuad (quad : Nat → DrawQuad) (circles : List Nat) (answer : Bool)
    (frame : CompositorFrame A SharedImage) (s : LayerTreeFrameSink T A) :
    Except Fault (CompositorFrame A SharedImage × LayerTreeFrameSink T A) := do
  let bitmap := circleColors s.frameTokenGenerator circles
  let (resource, s) ← allocateAndFillSoftwareResource answer bitmap s
  prepareSendToParent resource { frame with quads := frame.quads ++ [quad resource] } s

def appendTileDrawQuad : Bool → CompositorFrame A SharedImage → LayerTreeFrameSink T A →
    Except Fault (CompositorFrame A SharedImage × LayerTreeFrameSink T A) :=
  appendResourceDrawQuad .tile [1, 2, 3]

def appendTextureDrawQuad : Bool → CompositorFrame A SharedImage → LayerTreeFrameSink T A →
    Except Fault (CompositorFrame A SharedImage × LayerTreeFrameSink T A) :=
  appendResourceDrawQuad .texture [2, 3, 1]

def appendSurfaceDrawQuad (s : LayerTreeFrameSink T A) : List DrawQuad :=
  match s.childFrameSinkId with
  | some child => [.surface child s.localSurfaceId]
  | none => []

/-- `AppendPictureDrawQuad` appends nothing. -/
def createFrame (args : A) (tile texture : Bool) (s : LayerTreeFrameSink T A) :
    Except Fault (CompositorFrame A SharedImage × LayerTreeFrameSink T A) := do
  let token := nextFrameToken s.frameTokenGenerator
  let frame : CompositorFrame A SharedImage :=
    { beginFrameAck := args, frameToken := token, quads := .debugBorder :: appendSurfaceDrawQuad s }
  let (frame, s) ← appendTileDrawQuad tile frame { s with frameTokenGenerator := token }
  let (frame, s) ← appendTextureDrawQuad texture frame s
  .ok ({ frame with quads := frame.quads ++
    [.videoHole, .solidColor (s.frameTokenGenerator / 60 % colors)] }, s)

/-- `tile` and `texture` are the two answers of `GetSharedImageInterface`. The
resources are not used. -/
def onBeginFrame (args : A) (tile texture : Bool) (_resources : List Returned)
    (s : LayerTreeFrameSink T A) : Except Fault (LayerTreeFrameSink T A) := do
  let (frame, s) ← createFrame args tile texture s
  .ok { s with viz := s.viz.submitCompositorFrame frame }

def didReceiveCompositorFrameAck (_resources : List Returned) (s : LayerTreeFrameSink T A) :
    LayerTreeFrameSink T A := s

def reclaimResources (resources : List Returned) (s : LayerTreeFrameSink T A) :
    Except Fault (LayerTreeFrameSink T A) :=
  match s.clientResourceProvider with
  | none => .error .nullClientResourceProvider
  | some provider =>
    let removed := T.removeEach (ids resources) provider
    let received := T.receiveReturns resources removed.1
    .ok { s with
      clientResourceProvider := some received.1
      released := s.released ++ (removed.2 ++ received.2) }

end Functions

inductive Message (A : Type*)
  | didReceiveCompositorFrameAck (resources : List Returned)
  | onBeginFrame (args : A) (tile texture : Bool) (resources : List Returned)
  | reclaimResources (resources : List Returned)

def Message.resources : Message A → List Returned
  | .didReceiveCompositorFrameAck resources => resources
  | .onBeginFrame _ _ _ resources => resources
  | .reclaimResources resources => resources

section Specs
variable {T : Implementation SharedImage} {s : LayerTreeFrameSink T A} {t : T.Table}
  {l : Ledger SharedImage}

theorem appendResourceDrawQuad_ok (table : s.clientResourceProvider = some t) (lent : T.Lent t l)
    (provider : s.sharedImageInterfaceProvider = true) (quad : Nat → DrawQuad)
    (circles : List Nat) (frame : CompositorFrame A SharedImage) :
    ∃ id image t', appendResourceDrawQuad quad circles true frame s =
        .ok ({ frame with
            quads := frame.quads ++ [quad id]
            resourceList := frame.resourceList ++ [(id, image)] },
          { s with clientResourceProvider := some t', sharedImages := s.sharedImages + 1 }) ∧
      T.Lent t' (l.lend id image) ∧ l.out id = none ∧ id ≠ 0 ∧ image.name = s.sharedImages := by
  let image : SharedImage :=
    ⟨s.sharedImages, circleColors s.frameTokenGenerator circles⟩
  obtain ⟨t', sent, lent'⟩ := lent.export image
  refine ⟨(T.importResource image t).1, image, t', ?_, lent', lent.not_out image,
    T.import_valid image t, rfl⟩
  simp only [appendResourceDrawQuad, allocateAndFillSoftwareResource, provider, table,
    Bool.not_true, Bool.false_eq_true, if_false, bind, Except.bind, prepareSendToParent]
  rw [sent]

theorem appendResourceDrawQuad_fault (table : s.clientResourceProvider = some t)
    (lent : T.Lent t l) (zero : l.out 0 = none) {answer : Bool}
    (missing : ¬ (s.sharedImageInterfaceProvider = true ∧ answer = true)) (quad : Nat → DrawQuad)
    (circles : List Nat) (frame : CompositorFrame A SharedImage) :
    appendResourceDrawQuad quad circles answer frame s = .error (.notImported 0) := by
  have allocated (source : List Nat) :
      allocateAndFillSoftwareResource answer source s = .ok (0, s) := by
    unfold allocateAndFillSoftwareResource
    cases provider : s.sharedImageInterfaceProvider with
    | false => rfl
    | true =>
      cases answer with
      | false => rfl
      | true => exact absurd ⟨provider, rfl⟩ missing
  have refused : T.prepareSend 0 t = none := by
    refine T.send_refused 0 t ?_
    rw [lent]
    simp only [zero, Option.map_none]
  simp only [appendResourceDrawQuad, allocated, bind, Except.bind, prepareSendToParent, table,
    refused]

theorem appendSurfaceDrawQuad_resource (s : LayerTreeFrameSink T A) :
    ∀ quad ∈ appendSurfaceDrawQuad s, quad.resource = none := by
  unfold appendSurfaceDrawQuad
  split <;> simp [DrawQuad.resource]

/-- A frame whose two images are lent to viz under the ids `i` and `j`. -/
structure Submits (l : Ledger SharedImage) (s s' : LayerTreeFrameSink T A)
    (frame : CompositorFrame A SharedImage) (i j : Nat) (x y : SharedImage) : Prop where
  lent : ∃ t', s'.clientResourceProvider = some t' ∧ T.Lent t' ((l.lend i x).lend j y)
  provider : s'.sharedImageInterfaceProvider = s.sharedImageInterfaceProvider
  released : s'.released = s.released
  sharedImages : s'.sharedImages = s.sharedImages + 2
  viz : s'.viz = s.viz.submitCompositorFrame frame
  resourceList : frame.resourceList = [(i, x), (j, y)]
  quads : ∀ quad ∈ frame.quads, ∀ id, quad.resource = some id → id = i ∨ id = j
  fresh : l.out i = none ∧ (l.lend i x).out j = none
  valid : i ≠ 0 ∧ j ≠ 0
  names : x.name = s.sharedImages ∧ y.name = s.sharedImages + 1

theorem onBeginFrame_ok (table : s.clientResourceProvider = some t) (lent : T.Lent t l)
    (provider : s.sharedImageInterfaceProvider = true) (args : A) (resources : List Returned) :
    ∃ s' frame i j x y, onBeginFrame args true true resources s = .ok s' ∧
      Submits l s s' frame i j x y := by
  let frame : CompositorFrame A SharedImage :=
    { beginFrameAck := args
      frameToken := nextFrameToken s.frameTokenGenerator
      quads := .debugBorder :: appendSurfaceDrawQuad s }
  let s₀ : LayerTreeFrameSink T A :=
    { s with frameTokenGenerator := nextFrameToken s.frameTokenGenerator }
  obtain ⟨i, x, t₁, tile, lent₁, newI, hi, hx⟩ :=
    appendResourceDrawQuad_ok (s := s₀) table lent provider .tile [1, 2, 3] frame
  obtain ⟨j, y, t₂, texture, lent₂, newJ, hj, hy⟩ :=
    appendResourceDrawQuad_ok
      (s := { s₀ with clientResourceProvider := some t₁, sharedImages := s₀.sharedImages + 1 })
      rfl lent₁ provider .texture [2, 3, 1]
      { frame with
        quads := frame.quads ++ [.tile i]
        resourceList := frame.resourceList ++ [(i, x)] }
  let submitted : CompositorFrame A SharedImage := { frame with
    quads := frame.quads ++ [.tile i] ++ [.texture j] ++
      [.videoHole, .solidColor (s₀.frameTokenGenerator / 60 % colors)]
    resourceList := [(i, x), (j, y)] }
  refine ⟨{ s₀ with
      clientResourceProvider := some t₂
      sharedImages := s₀.sharedImages + 1 + 1
      viz := s.viz.submitCompositorFrame submitted }, submitted, i, j, x, y, ?_,
    ⟨⟨t₂, rfl, lent₂⟩, rfl, rfl, rfl, rfl, rfl, ?_, ⟨newI, newJ⟩, ⟨hi, hj⟩,
      ⟨hx, hy⟩⟩⟩
  · simp only [onBeginFrame, createFrame, appendTileDrawQuad, appendTextureDrawQuad]
    rw [tile]
    simp only [bind, Except.bind]
    rw [texture]
    rfl
  · intro quad member id resource
    simp only [submitted, frame, List.cons_append, List.append_assoc, List.nil_append,
      List.mem_cons, List.mem_append, List.not_mem_nil, or_false] at member
    rcases member with rfl | member | rfl | rfl | rfl | rfl
    · cases resource
    · rw [appendSurfaceDrawQuad_resource s quad member] at resource
      cases resource
    · exact .inl (Option.some.inj resource).symm
    · exact .inr (Option.some.inj resource).symm
    · cases resource
    · cases resource

theorem onBeginFrame_fault (table : s.clientResourceProvider = some t) (lent : T.Lent t l)
    (zero : l.out 0 = none) {tile texture : Bool}
    (missing : ¬ (s.sharedImageInterfaceProvider = true ∧ tile = true ∧ texture = true))
    (args : A) (resources : List Returned) :
    onBeginFrame args tile texture resources s = .error (.notImported 0) := by
  let frame : CompositorFrame A SharedImage :=
    { beginFrameAck := args
      frameToken := nextFrameToken s.frameTokenGenerator
      quads := .debugBorder :: appendSurfaceDrawQuad s }
  let s₀ : LayerTreeFrameSink T A :=
    { s with frameTokenGenerator := nextFrameToken s.frameTokenGenerator }
  simp only [onBeginFrame, createFrame, appendTileDrawQuad, appendTextureDrawQuad]
  by_cases first : s.sharedImageInterfaceProvider = true ∧ tile = true
  · obtain ⟨provider, rfl⟩ := first
    obtain ⟨i, x, t₁, appended, lent₁, -, hi, -⟩ :=
      appendResourceDrawQuad_ok (s := s₀) table lent provider .tile [1, 2, 3] frame
    have zero₁ : (l.lend i x).out 0 = none := by rw [Ledger.lend_out, if_neg hi.symm, zero]
    have last : ¬ (s.sharedImageInterfaceProvider = true ∧ texture = true) :=
      fun both => missing ⟨provider, rfl, both.2⟩
    rw [appended]
    simp only [bind, Except.bind]
    rw [appendResourceDrawQuad_fault
      (s := { s₀ with clientResourceProvider := some t₁, sharedImages := s₀.sharedImages + 1 })
      rfl lent₁ zero₁ last]
  · rw [appendResourceDrawQuad_fault (s := s₀) table lent zero first]
    rfl

theorem reclaimResources_ok (table : s.clientResourceProvider = some t) (lent : T.Lent t l)
    {resources : List Returned} (takes : Takes l resources) :
    ∃ t' freed, reclaimResources resources s = .ok { s with
        clientResourceProvider := some t'
        released := s.released ++ freed } ∧
      freed.Perm ((ids resources).filterMap l.out) ∧ T.Lent t' (l.settleAll (ids resources)) := by
  obtain ⟨settled, released⟩ := lent.removeReceive takes
  refine ⟨_, _, ?_, released, settled⟩
  rw [reclaimResources, table]

end Specs

/-- A fault ends the process; what it leaves is the sink before the message. -/
structure Client (T : Implementation SharedImage) (A : Type*) where
  sink : LayerTreeFrameSink T A := {}
  fault : Option Fault := none

section Client
variable {T : Implementation SharedImage}

def handle (m : Message A) (s : LayerTreeFrameSink T A) : Except Fault (LayerTreeFrameSink T A) :=
  match m with
  | .didReceiveCompositorFrameAck resources => .ok (didReceiveCompositorFrameAck resources s)
  | .onBeginFrame args tile texture resources => onBeginFrame args tile texture resources s
  | .reclaimResources resources => reclaimResources resources s

def Client.settle (s : LayerTreeFrameSink T A) :
    Except Fault (LayerTreeFrameSink T A) → Client T A
  | .ok s => { sink := s }
  | .error fault => { sink := s, fault := some fault }

def returned (resources : List Returned) (s : LayerTreeFrameSink T A) : LayerTreeFrameSink T A :=
  { s with viz := { s.viz with ledger := s.viz.ledger.settleAll (ids resources) } }

/-- viz sends messages to a bound client and returns resources that it holds. -/
def receive (c : Client T A) (m : Message A) : Option (Client T A) :=
  if c.fault = none ∧ c.sink.viz.needsBeginFrame = true ∧ Takes c.sink.viz.ledger m.resources then
    some (.settle (returned m.resources c.sink) (handle m (returned m.resources c.sink)))
  else none

theorem receive_cases {c d : Client T A} {m : Message A} (h : receive c m = some d) :
    c.fault = none ∧ c.sink.viz.needsBeginFrame = true ∧ Takes c.sink.viz.ledger m.resources ∧
      d = .settle (returned m.resources c.sink) (handle m (returned m.resources c.sink)) := by
  unfold receive at h
  split at h
  case isTrue enabled => exact ⟨enabled.1, enabled.2.1, enabled.2.2, (Option.some.inj h).symm⟩
  case isFalse => cases h

end Client

end ChromiumDemo.VizGuiClient
