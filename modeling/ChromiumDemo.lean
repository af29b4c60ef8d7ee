import ChromiumDemo.TransitionSystem
import ChromiumDemo.AssocMap
import ChromiumDemo.TaskThreads
import ChromiumDemo.TaskThreadsIdle
import ChromiumDemo.CheckedProgram
import ChromiumDemo.GpuServiceStartup
import ChromiumDemo.GpuServiceCompletion
import ChromiumDemo.SkiaCanvas
import ChromiumDemo.RenderLoop
import ChromiumDemo.CanvasFrames
import ChromiumDemo.FrameStatistics
import ChromiumDemo.CanvasBuilds
import ChromiumDemo.InterfaceBroker
import ChromiumDemo.BrokerWorld
import ChromiumDemo.BrokerFlow
import ChromiumDemo.BrokerProtocol
import ChromiumDemo.BrokerFailure
import ChromiumDemo.BrokerProgress
import ChromiumDemo.BrokerRefinement
import ChromiumDemo.FifoChannels
import ChromiumDemo.ApiExchange
import ChromiumDemo.ApiSession
import ChromiumDemo.IpcDispatch
import ChromiumDemo.CcFrameSink
import ChromiumDemo.CcFrameSinkReturns
import ChromiumDemo.LeaseLedger
import ChromiumDemo.ReleaseTable
import ChromiumDemo.CompositorFrames
import ChromiumDemo.VizGuiClient
import ChromiumDemo.VizGuiReturns
import ChromiumDemo.VizGuiStartup
import ChromiumDemo.VizGuiEmbedding
import ChromiumDemo.VizLayerClient
import ChromiumDemo.VizLayerLedger
import ChromiumDemo.VizLayerResources
import ChromiumDemo.VizLayerBackings
import ChromiumDemo.GpuFallback
import ChromiumDemo.BufferManagers
import ChromiumDemo.InkInput
import ChromiumDemo.ViewHierarchy
import ChromiumDemo.ShellManager
import ChromiumDemo.ShellHierarchy
import ChromiumDemo.ShellLaunch
import ChromiumDemo.DemoShellLifetime
import ChromiumDemo.DownloadDelegate
import ChromiumDemo.CanvasTeardown
import ChromiumDemo.WindowStartup
import ChromiumDemo.TouchGestures
import ChromiumDemo.AndroidSurfaces
import ChromiumDemo.GdiHandles
import ChromiumDemo.WinPresenter
import ChromiumDemo.JsonText
import ChromiumDemo.TraceFile
import ChromiumDemo.AndroidTrace
import ChromiumDemo.GinAddition
import ChromiumDemo.ScriptBinding
import ChromiumDemo.SentinelText
import ChromiumDemo.MojoConsumer
import ChromiumDemo.RawPipe
import ChromiumDemo.TracingController
import ChromiumDemo.PresenterResize
import ChromiumDemo.DeferredPainting
import ChromiumDemo.ProgramLogic
import ChromiumDemo.GLInitialization
import ChromiumDemo.GLPainting
import ChromiumDemo.X11EventLoop
import ChromiumDemo.ActivityLaunch
import ChromiumDemo.CanvasRefinement
