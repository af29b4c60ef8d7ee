import ChromiumDemo.CompositorFrames
import ChromiumDemo.ReleaseTable

/-! The clients of demo_viz_layer, `InkClient` and `LayerTreeFrameSink`, and the
`LayerTreeFrameSink` of demo_viz_gui_gpu. They share the life of a resource, from
`CreateResource` to `DeleteSharedImage`, and differ in which frames they submit and
what is in them. A backing is what the service keeps for a resource: a bitmap
announced on the frame sink or a shared image of a context provider. -/

namespace ChromiumDemo.VizLayerClient
open LeaseLedger ReleaseTable CompositorFrames

variable {A : Type*}

inductive Bitmap
  | circles (colors : List Nat)
  | path (points : List (Int × Int))
deriving DecidableEq

structure ContextProvider where
  name : Nat
  sharedImageInterface : Bool
deriving DecidableEq

inductive Backing
  | sharedBitmap (id : Nat)
  | sharedImage (contextProvider : ContextProvider) (mailbox : Nat)
deriving DecidableEq

def Backing.name : Backing → Nat
  | .sharedBitmap id => id
  | .sharedImage _ mailbox => mailbox

def Backing.isSharedImage : Backing → Bool
  | .sharedBitmap _ => false
  | .sharedImage _ _ => true

inductive Produced (A : Type*)
  | submitted (frame : CompositorFrame A Backing)
  | didNotProduceFrame (args : A)

/-- The far end of the frame sink: what was produced, and which resources it holds. -/
structure Viz (A : Type*) where
  needsBeginFrame : Bool := false
  produced : List (Produced A) := []
  ledger : Ledger Backing := {}

def Viz.submitCompositorFrame (frame : CompositorFrame A Backing) (viz : Viz A) : Viz A :=
  { viz with
    produced := viz.produced ++ [.submitted frame]
    ledger := lendAll frame.resourceList viz.ledger }

def Viz.didNotProduceFrame (args : A) (viz : Viz A) : Viz A :=
  { viz with produced := viz.produced ++ [.didNotProduceFrame args] }

/-- The backings that the service was told of, and those it was told to drop. -/
structure Service where
  registered : List (Backing × Bitmap) := []
  withdrawn : List Backing := []

inductive Fault
  | notImported (id : Nat)
  | nullClientResourceProvider
  | nullSharedImageInterface
deriving DecidableEq

/-- `released` are the backings whose release callback has run, in order. -/
structure Sink (T : Implementation Backing) (A : Type*) where
  clientResourceProvider : Option T.Table := none
  contextProvider : Option ContextProvider := none
  frameTokenGenerator : Nat := 0
  childFrameSinkId : Option Nat := none
  localSurfaceId : Nat := 0
  path : List (Int × Int) := []
  bitmap : Bitmap := .path []
  needRedraw : Bool := false
  backings : Nat := 0
  released : List Backing := []
  service : Service := {}
  viz : Viz A := {}

section Functions
variable {T : Implementation Backing}

def bindOnThread (s : Sink T A) : Sink T A :=
  { s with
    viz := { s.viz with needsBeginFrame := true }
    clientResourceProvider := some T.new }

def inkBind (s : Sink T A) : Sink T A :=
  { bindOnThread s with path := [(0, 0)], bitmap := .path [], needRedraw := true }

def setContextProvider (contextProvider : ContextProvider) (s : Sink T A) : Sink T A :=
  { s with contextProvider := some contextProvider }

def embedChild (childFrameSinkId : Nat) (s : Sink T A) : Sink T A :=
  { s with childFrameSinkId := some childFrameSinkId, localSurfaceId := s.localSurfaceId + 1 }

def draw (location : Int × Int) (s : Sink T A) : Sink T A :=
  { s with
    path := s.path ++ [location]
    bitmap := .path (s.path ++ [location])
    needRedraw := true
    viz := { s.viz with needsBeginFrame := true } }

def importResource (backing : Backing) (source : Bitmap) (s : Sink T A) :
    Except Fault (Nat × Sink T A) :=
  match s.clientResourceProvider with
  | none => .error .nullClientResourceProvider
  | some provider =>
    let imported := T.importResource backing provider
    .ok (imported.1, { s with
      clientResourceProvider := some imported.2
      backings := s.backings + 1
      service := { s.service with registered := s.service.registered ++ [(backing, source)] } })

/-- Generates an id and announces the bitmap with `DidAllocateSharedBitmap`; the
release callback does nothing. -/
def createSoftwareResource (source : Bitmap) (s : Sink T A) : Except Fault (Nat × Sink T A) :=
  importResource (.sharedBitmap s.backings) source s

/-- `CreateSharedImage` registers the image; the release callback is
`DeleteSharedImage` with this provider and mailbox. -/
def createGpuResource (contextProvider : ContextProvider) (source : Bitmap) (s : Sink T A) :
    Except Fault (Nat × Sink T A) :=
  if contextProvider.sharedImageInterface then
    importResource (.sharedImage contextProvider s.backings) source s
  else .error .nullSharedImageInterface

def createResource (useGpu : Bool) (source : Bitmap) (s : Sink T A) :
    Except Fault (Nat × Sink T A) :=
  match s.contextProvider with
  | some contextProvider =>
    if useGpu then createGpuResource contextProvider source s else createSoftwareResource source s
  | none => createSoftwareResource source s

def prepareSendToParent (resource : Nat) (frame : CompositorFrame A Backing) (s : Sink T A) :
    Except Fault (CompositorFrame A Backing × Sink T A) :=
  match s.clientResourceProvider with
  | none => .error .nullClientResourceProvider
  | some provider => match T.prepareSend resource provider with
    | none => .error (.notImported resource)
    | some (backing, provider) =>
      .ok ({ frame with resourceList := frame.resourceList ++ [(resource, backing)] },
        { s with clientResourceProvider := some provider })

def appendResourceDrawQuad (useGpu : Bool) (quad : Nat → DrawQuad) (source : Bitmap)
    (frame : CompositorFrame A Backing) (s : Sink T A) :
    Except Fault (CompositorFrame A Backing × Sink T A) := do
  let (resource, s) ← createResource useGpu source s
  prepareSendToParent resource { frame with quads := frame.quads ++ [quad resource] } s

def circles (offsets : List Nat) (s : Sink T A) : Bitmap :=
  .circles (circleColors s.frameTokenGenerator offsets)

def appendTileDrawQuad (useGpu : Bool) (frame : CompositorFrame A Backing) (s : Sink T A) :
    Except Fault (CompositorFrame A Backing × Sink T A) :=
  appendResourceDrawQuad useGpu .tile (circles [1, 2, 3] s) frame s

def appendTextureDrawQuad (useGpu : Bool) (frame : CompositorFrame A Backing) (s : Sink T A) :
    Except Fault (CompositorFrame A Backing × Sink T A) :=
  appendResourceDrawQuad useGpu .texture (circles [2, 3, 1] s) frame s

def appendSurfaceDrawQuad (s : Sink T A) : List DrawQuad :=
  match s.childFrameSinkId with
  | some child => [.surface child s.localSurfaceId]
  | none => []

def createLayerFrame (useGpu copyOutput : Bool) (args : A) (s : Sink T A) :
    Except Fault (CompositorFrame A Backing × Sink T A) := do
  let frame : CompositorFrame A Backing :=
    { beginFrameAck := args
      frameToken := s.frameTokenGenerator
      quads := .debugBorder :: appendSurfaceDrawQuad s
      copyRequests := if copyOutput then 1 else 0 }
  let (frame, s) ← if s.contextProvider.isSome then do
      let (frame, s) ← appendTileDrawQuad useGpu frame s
      let (frame, s) ← appendTextureDrawQuad useGpu frame s
      .ok ({ frame with quads := frame.quads ++ [.videoHole] }, s)
    else .ok (frame, s)
  .ok ({ frame with
    quads := frame.quads ++ [.solidColor (s.frameTokenGenerator / 60 % colors)] }, s)

def createInkFrame (useGpu : Bool) (args : A) (s : Sink T A) :
    Except Fault (CompositorFrame A Backing × Sink T A) := do
  let s : Sink T A := { s with frameTokenGenerator := nextFrameToken s.frameTokenGenerator }
  let frame : CompositorFrame A Backing :=
    { beginFrameAck := args, frameToken := s.frameTokenGenerator }
  let (frame, s) ← appendResourceDrawQuad useGpu .texture s.bitmap frame s
  .ok ({ frame with
    quads := frame.quads ++ [.solidColor ((s.frameTokenGenerator / 60 + 1) % colors)] }, s)

def submit (built : CompositorFrame A Backing × Sink T A) : Sink T A :=
  { built.2 with viz := built.2.viz.submitCompositorFrame built.1 }

inductive Kind
  | inkClient (useGpu : Bool)
  | layerTreeFrameSink (useGpu : Bool)
  | guiGpuLayerTreeFrameSink
deriving DecidableEq

def onBeginFrame (kind : Kind) (args : A) (s : Sink T A) : Except Fault (Sink T A) :=
  match kind with
  | .inkClient useGpu =>
    if s.needRedraw then do
      let built ← createInkFrame useGpu args s
      .ok { submit built with needRedraw := false }
    else .ok { s with viz := s.viz.didNotProduceFrame args, needRedraw := false }
  | .layerTreeFrameSink useGpu =>
    let s : Sink T A := { s with frameTokenGenerator := nextFrameToken s.frameTokenGenerator }
    if s.frameTokenGenerator % 60 = 1 then do
      let built ← createLayerFrame useGpu useGpu args s
      .ok (submit built)
    else .ok { s with viz := s.viz.didNotProduceFrame args }
  | .guiGpuLayerTreeFrameSink => do
    let s : Sink T A := { s with frameTokenGenerator := nextFrameToken s.frameTokenGenerator }
    let built ← createLayerFrame true false args s
    .ok (submit built)

def deleteSharedImage (contextProvider : ContextProvider) (mailbox : Nat) (s : Sink T A) :
    Sink T A :=
  { s with service := { s.service with
    withdrawn := s.service.withdrawn ++ [.sharedImage contextProvider mailbox] } }

def runReleaseCallback (s : Sink T A) (backing : Backing) : Sink T A :=
  let s : Sink T A := { s with released := s.released ++ [backing] }
  match backing with
  | .sharedBitmap _ => s
  | .sharedImage contextProvider mailbox => deleteSharedImage contextProvider mailbox s

def receiveAndRemove (resources : List Returned) (s : Sink T A) : Except Fault (Sink T A) :=
  match s.clientResourceProvider with
  | none => .error .nullClientResourceProvider
  | some provider =>
    let received := T.receiveReturns resources provider
    let removed := T.removeEach (ids resources) received.1
    .ok ((received.2 ++ removed.2).foldl runReleaseCallback
      { s with clientResourceProvider := some removed.1 })

def didReceiveCompositorFrameAck (resources : List Returned) (s : Sink T A) :
    Except Fault (Sink T A) :=
  receiveAndRemove resources s

def reclaimResources (resources : List Returned) (s : Sink T A) : Except Fault (Sink T A) :=
  receiveAndRemove resources s

end Functions

inductive Message (A : Type*)
  | didReceiveCompositorFrameAck (resources : List Returned)
  | onBeginFrame (args : A)
  | reclaimResources (resources : List Returned)

def Message.resources : Message A → List Returned
  | .didReceiveCompositorFrameAck resources => resources
  | .onBeginFrame _ => []
  | .reclaimResources resources => resources

inductive Action (A : Type*)
  | message (m : Message A)
  | draw (location : Int × Int)
  | setContextProvider (contextProvider : ContextProvider)
  | embedChild (childFrameSinkId : Nat)

end ChromiumDemo.VizLayerClient
