import ChromiumDemo.TaskThreads

/-! Start-up of `GpuService` in demo_viz_layer and in demo_viz_gui_gpu: which
thread posts which initialisation task, and which field each task sets or reads.
Thread starts and `server_channel_->Connect()` are operands of a `DCHECK`, so
they only happen in a build that evaluates it. The message pump of the host, the
IPC channel and the GPU process are outside: their posts are events, possible
from the moment the code has asked for them. -/

namespace ChromiumDemo.GpuServiceStartup
open TransitionSystem TaskThreads

/-- `gpuIo` is `gpu_io_thread_` of the layer demo and `io_thread_` of the other. -/
inductive Thread
  | hostMain | hostIo | gpuIo | gpuMain
deriving DecidableEq

/-- Members, and three moments of the start-up that are no member: the client
channel has been initialised, the host has asked for the `VizMain` interface,
and `EstablishGpuChannel` has been called. A thread is set once it runs. -/
inductive Field
  | rootClient | childClient
  | hostIoThread | gpuIoThread | gpuMainThread | hostMainThreadRunner
  | serverChannel | clientChannel | clientChannelInit | vizMainRequested
  | gpuHost | gpuChannelRequested | gpuChannelHost | gpuMemoryBufferManager
  | vizMain
deriving DecidableEq

/-- The argument of `onAssociatedInterfaceRequest` is whether the name asked for
is that of `VizMainImpl`, the one of `onEstablishedOnIo` whether the channel
handle is valid, and the one of `bindVizMain` whether the captured pointer is
non-null. -/
inductive Task
  | initializeDemo | initIPCServer | initIPCClient | initVizHost | initVizMain
  | onAssociatedInterfaceRequest (isVizMain : Bool)
  | bindVizMain (captured : Bool)
  | onEstablishedOnIo (valid : Bool)
  | onEstablishedOnMain | getGpuService
deriving DecidableEq

abbrev Code := List (Instr Thread Field Task)

def dcheck (evaluated : Bool) (operand : Code) : Code := if evaluated then operand else []

def compositor : Code :=
  [.set .rootClient, .use .rootClient, .use .rootClient, .set .childClient, .use .childClient]

def setContextProvider : Code := [.use .rootClient, .use .childClient]

def initIPCClient : Code :=
  [.set .clientChannel, .use .clientChannel, .set .clientChannelInit]

def initVizHost : Code :=
  [.use .serverChannel, .set .vizMainRequested, .set .gpuHost, .use .gpuHost, .use .gpuHost,
    .use .gpuHost, .set .gpuChannelRequested]

def initVizMain : Code := [.set .vizMain, .use .vizMain]

def onEstablishedOnIo (valid : Bool) : Code :=
  (if valid then [.set .gpuChannelHost] else []) ++
    [.use .hostMainThreadRunner, .post .hostMain .onEstablishedOnMain]

def getGpuService : Code := [.use .gpuHost, .use .gpuHost]

def initIPCServer (checks : Bool) : Code :=
  [.set .serverChannel, .use .gpuMainThread, .post .gpuMain .initIPCClient] ++
    dcheck checks [.use .serverChannel]

namespace Layer

def gpuService (checks : Bool) : Code :=
  dcheck checks [.set .hostIoThread] ++ dcheck checks [.set .gpuIoThread] ++
    dcheck checks [.set .gpuMainThread] ++
    [.set .hostMainThreadRunner,
      .use .hostIoThread, .post .hostIo .initIPCServer,
      .use .gpuMainThread, .post .gpuMain .initVizMain,
      .use .hostIoThread, .post .hostIo .initVizHost]

def onEstablishedOnMain : Code := .set .gpuMemoryBufferManager :: setContextProvider

def onAssociatedInterfaceRequest (current : Thread) (isVizMain : Bool) : Code :=
  if isVizMain then
    if current = .gpuMain then [.use .vizMain]
    else [.use .gpuMainThread, .post .gpuMain (.onAssociatedInterfaceRequest isVizMain)]
  else []

/-- A task is only ever posted to its own thread; elsewhere it has no code. -/
def body (checks : Bool) : Thread → Task → Code
  | .hostMain, .initializeDemo => compositor ++ gpuService checks
  | .hostIo, .initIPCServer => initIPCServer checks
  | .gpuMain, .initIPCClient => initIPCClient
  | .hostIo, .initVizHost => initVizHost
  | .gpuMain, .initVizMain => initVizMain
  | t, .onAssociatedInterfaceRequest isVizMain => onAssociatedInterfaceRequest t isVizMain
  | .hostIo, .onEstablishedOnIo valid => onEstablishedOnIo valid
  | .hostMain, .onEstablishedOnMain => onEstablishedOnMain
  | .hostMain, .getGpuService => getGpuService
  | _, _ => []

end Layer

namespace GuiGpu

/-- `InitIPCServer` is called here, not posted; `InitVizHost` is the delayed task. -/
def gpuService (checks : Bool) : Code :=
  dcheck checks [.set .gpuIoThread] ++ dcheck checks [.set .gpuMainThread] ++
    [.set .hostMainThreadRunner] ++ initIPCServer checks ++
    [.use .gpuMainThread, .post .gpuMain .initVizMain,
      .use .hostMainThreadRunner, .postDelayed .hostMain .initVizHost]

def getGpuMemoryBufferManager : Code := [.set .gpuMemoryBufferManager]

def onEstablishedOnMain : Code :=
  getGpuMemoryBufferManager ++ getGpuMemoryBufferManager ++ setContextProvider

def onAssociatedInterfaceRequest (isVizMain : Bool) : Code :=
  if isVizMain then [.use .gpuMainThread, .capture .vizMain .gpuMain .bindVizMain] else []

def bindVizMain (captured : Bool) : Code := if captured then [] else [.null .vizMain]

def body (checks : Bool) : Thread → Task → Code
  | .hostMain, .initializeDemo => compositor ++ gpuService checks
  | .gpuMain, .initIPCClient => initIPCClient
  | .hostMain, .initVizHost => initVizHost
  | .gpuMain, .initVizMain => initVizMain
  | .gpuMain, .onAssociatedInterfaceRequest isVizMain => onAssociatedInterfaceRequest isVizMain
  | .gpuMain, .bindVizMain captured => bindVizMain captured
  | .hostMain, .onEstablishedOnIo valid => onEstablishedOnIo valid
  | .hostMain, .onEstablishedOnMain => onEstablishedOnMain
  | .hostMain, .getGpuService => getGpuService
  | _, _ => []

end GuiGpu

inductive Demo
  | vizLayer | vizGuiGpu
deriving DecidableEq

def Demo.hostThread : Demo → Thread
  | .vizLayer => .hostIo
  | .vizGuiGpu => .hostMain

/-- The interface request reaches the listener of the client channel by a task
on the GPU main thread, once that channel is initialised and the host has asked;
the channel reply comes after `EstablishGpuChannel`, the buffer manager calls
back once it exists. -/
def program (demo : Demo) (checks : Bool) : Program Thread Field Task where
  body := match demo with
    | .vizLayer => Layer.body checks
    | .vizGuiGpu => GuiGpu.body checks
  events := [
    ([.clientChannelInit, .vizMainRequested], .gpuMain, .onAssociatedInterfaceRequest true),
    ([.clientChannelInit, .vizMainRequested], .gpuMain, .onAssociatedInterfaceRequest false),
    ([.gpuChannelRequested], demo.hostThread, .onEstablishedOnIo true),
    ([.gpuChannelRequested], demo.hostThread, .onEstablishedOnIo false),
    ([.gpuMemoryBufferManager], .hostMain, .getGpuService)]

def initial : State Thread Field Task where
  flags _ := false
  current _ := none
  running _ := []
  queue t := if t = .hostMain then [.initializeDemo] else []
  delayed := []
  crashed := none

def watched : Field → Bool
  | .hostIoThread | .gpuIoThread | .gpuMainThread => false
  | _ => true

def clients : List (Fact Thread Field) :=
  [.flag .hostMainThreadRunner, .flag .rootClient, .flag .childClient]

/-- What the code relies on: by the time the host can ask for the interface, the
task that creates `viz_main_` is ahead in the GPU main queue. -/
def contract (demo : Demo) : Contract Thread Field Task where
  watched := watched
  pre
    | .initVizHost => .promise demo.hostThread .serverChannel ::
        .promise .gpuMain .vizMain :: clients
    | .onAssociatedInterfaceRequest _ => [.promise .gpuMain .vizMain]
    | .bindVizMain captured => if captured then [.flag .vizMain] else [.never]
    | .onEstablishedOnIo _ | .onEstablishedOnMain => .flag .gpuHost :: clients
    | .getGpuService => [.flag .gpuHost]
    | _ => []
  means
    | .vizMainRequested => [.promise .gpuMain .vizMain]
    | .gpuChannelRequested => .flag .gpuHost :: clients
    | .gpuMemoryBufferManager => [.flag .gpuHost]
    | _ => []

theorem contract_sound (demo : Demo) (checks : Bool) :
    (contract demo).Sound (program demo checks) where
  bodies t k := by
    cases demo <;> cases checks <;> cases t <;> cases k with
    | onAssociatedInterfaceRequest b | bindVizMain b | onEstablishedOnIo b =>
      cases b <;> decide
    | _ => decide
  events := by cases demo <;> cases checks <;> decide

theorem initial_inv (demo : Demo) (checks : Bool) :
    (contract demo).Inv (program demo checks) initial where
  safe _ _ h := by cases h
  meaning _ h := by cases h
  running _ _ := ⟨[], by simp, rfl⟩
  current _ _ h := by cases h
  queued t := by cases t <;> simp [initial, Contract.QueueOk, contract]
  delayed _ _ h := by cases h

def ReadsSet (s : State Thread Field Task) (f : Field) : Prop :=
  s.crashed = none → ∀ t i is, s.running t = i :: is → i.reads = some f → s.flags f = true

def runsAfterHost : Task → Bool
  | .onEstablishedOnIo _ | .onEstablishedOnMain | .getGpuService => true
  | _ => false

structure Ordered (s : State Thread Field Task) : Prop where
  vizMain : ReadsSet s .vizMain
  serverChannel : ReadsSet s .serverChannel
  gpuHost : ∀ t k, (k ∈ s.queue t ∨ s.current t = some k) → runsAfterHost k = true →
    s.flags .gpuHost = true
  rootClient : ReadsSet s .rootClient
  childClient : ReadsSet s .childClient
  noCrash : ∀ f, s.crashed = some f → watched f = false

theorem inv_readsSet {demo : Demo} {checks : Bool} {s : State Thread Field Task}
    (inv : (contract demo).Inv (program demo checks) s) {f : Field} (hf : watched f = true) :
    ReadsSet s f :=
  fun alive _ _ _ running reads => inv.read_set alive running reads hf

theorem gpuHost_mem_pre (demo : Demo) {k : Task} (h : runsAfterHost k = true) :
    .flag .gpuHost ∈ (contract demo).pre k := by
  cases k with
  | onEstablishedOnIo _ | onEstablishedOnMain | getGpuService => simp [contract]
  | _ => cases h

/-- Start-up never reads a member too early, whatever the threads do, in either
demo, with any delay of the posted `InitVizHost` and in either kind of build. -/
theorem startup_ordered (demo : Demo) (checks : Bool) (as : List (Action Thread)) :
    Ordered ((program demo checks).machine.exec initial as) := by
  have inv := (initial_inv demo checks).exec (contract_sound demo checks) as
  refine ⟨inv_readsSet inv rfl, inv_readsSet inv rfl, fun t k pending host => ?_,
    inv_readsSet inv rfl, inv_readsSet inv rfl, fun f crashed => ?_⟩
  · have known := gpuHost_mem_pre demo host
    rcases pending with queued | current
    · exact inv.flag_of_queued queued known
    · exact inv.flag_of_current current known
  · by_contra seen
    exact inv.safe f (Bool.of_not_eq_false seen) crashed

end ChromiumDemo.GpuServiceStartup
