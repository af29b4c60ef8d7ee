import ChromiumDemo.CheckedProgram
import ChromiumDemo.RenderLoop

/-! Start-up, touch and frame code of the canvases of demo_skia and demo_android_skia as
programs over the platform. The operands of several of their `DCHECK`s do work: they
start the render thread, lock the window and make EGL calls. -/

namespace ChromiumDemo.CanvasBuilds
open CheckedProgram
open SkiaCanvas (RenderTask Version)

variable {ρ : Type}

/-- A config by the call of `eglChooseConfig` that returned it, and its place there. -/
abbrev EGLConfig := Nat × Nat

inductive ConfigAttrib
  | alphaSize | bindToTextureRgb | bindToTextureRgba | blueSize | bufferSize | configCaveat
  | configId | depthSize | greenSize | redSize | stencilSize | maxPbufferWidth
  | maxPbufferHeight | maxPbufferPixels | maxSwapInterval | minSwapInterval
  | nativeRenderable | nativeVisualId | alphaMaskSize | colorBufferType | luminanceSize
  | renderableType | conformant | samples
deriving DecidableEq

structure ChannelSizes where
  redSize : Nat
  greenSize : Nat
  blueSize : Nat
  alphaSize : Nat
deriving DecidableEq

inductive ColorFormat
  | rgba8
  | rgb565
deriving DecidableEq

inductive AttribTarget
  | newFormat
  | stencilBits
  | sampleCount
deriving DecidableEq

inductive TraceSymbol
  | beginSection
  | endSection
deriving DecidableEq

/-- What the canvases ask of the platform; `none` is a config or a count that was never
set. -/
inductive Call
  | openTraceFile
  | dlopen
  | dlsym (symbol : TraceSymbol)
  | aTrace (symbol : TraceSymbol)
  | aNativeWindowFromSurface
  | aNativeWindowGetWidth
  | aNativeWindowGetHeight
  | threadStart
  | makePresenter
  | presenterResize (width height : Int)
  | presenterGetSkCanvas
  | presenterEndPaint (width height : Int)
  | presenterOnSwapBuffers
  | aNativeWindowSetBuffersGeometry (width height : Int)
  | aNativeWindowLock
  | aNativeWindowUnlockAndPost
  | makeRasterDirect (width height : Int)
  | eglGetDisplay
  | eglInitialize
  | eglBindAPI
  | eglQueryString
  | eglGetConfigs (configSize : Nat)
  | eglChooseConfig (sizes : ChannelSizes) (configSize : Nat)
  | eglGetConfigAttrib (config : Option EGLConfig) (attrib : ConfigAttrib) (value : AttribTarget)
  | eglCreateWindowSurface (config : Option EGLConfig)
  | eglCreateContext (config : Option EGLConfig)
  | eglMakeCurrent (surface context : Int)
  | glClearStencil
  | glClearColor
  | glClear
  | glGetFloatv
  | glGetIntegerv
  | eglSwapInterval
  | eglSwapBuffers (surface : Int)
  | grGLMakeNativeInterface
  | makeGL
  | wrapBackendRenderTarget (width height : Int) (sampleCount stencilBits : Option Int)
    (format : ColorFormat)
  | characterize
  | drawDDL
  | flush
deriving DecidableEq

/-- What a call returns, and the count that some calls write besides. -/
structure Answer where
  result : Int
  count : Nat := 0

def Answer.written (answer : Answer) (old : Option Int) : Option Int :=
  if answer.result ≠ 0 then some answer.count else old

/-- `messageLoop` and the two pointers of `ScopedTrace` are globals of the process. Of
the members without an initializer the two counts are `none`, and the others keep what
was there before the constructor. -/
structure Members (ρ : Type) where
  messageLoop : Bool := false
  aTraceBeginSection : Bool := false
  aTraceEndSection : Bool := false
  canvas : SkiaCanvas.Canvas ρ := {}
  nativeWindow : Int := 0
  width : Int := 0
  height : Int := 0
  threadStarted : Bool := false
  renderTaskRunner : Bool := false
  display : Int := 0
  context : Int := 0
  surface : Int := 0
  stencilBits : Option Int := none
  sampleCount : Option Int := none
  colorFormat : ColorFormat := .rgba8
  grGLInterface : Int := 0
  grContext : Int := 0
  skSurface : Int := 0
  recorder : Bool := false

abbrev Code (ρ α : Type) := Program (Members ρ) Call Answer α

/-- That of the software canvas of demo_skia, which has none on other platforms. -/
inductive Presenter
  | x11
  | windows
  | none
deriving DecidableEq

/-- The four classes; `useDdl` is `use_ddl_` of a GL canvas. -/
inductive Kind
  | desktopSoftware (presenter : Presenter)
  | desktopGL (useDdl : Bool)
  | androidSoftware
  | androidGL (useDdl : Bool)
deriving DecidableEq

def Kind.isAndroid : Kind → Bool
  | .desktopSoftware _ | .desktopGL _ => false
  | .androidSoftware | .androidGL _ => true

def Kind.version (kind : Kind) : Version :=
  if kind.isAndroid then SkiaCanvas.android else SkiaCanvas.desktop

/-- A call for its result alone, and the dereference of what it returned. -/
def call (c : Call) : Code ρ Int := do
  let answer ← ask c
  pure answer.result

def deref (pointer : Int) : Code ρ Unit :=
  if pointer = 0 then .crash else pure ()

def checkMembers (condition : Members ρ → Bool) : Code ρ Unit :=
  check (.read fun m => .done (condition m))

def startThread : Code ρ Bool := do
  let started ← call .threadStart
  if started ≠ 0 then
    modify fun m => { m with threadStarted := true }
    pure true
  else pure false

def postTask (task : RenderTask ρ) : Code ρ Unit := do
  let m ← get
  if m.renderTaskRunner then
    modify fun m => { m with canvas.tasks := m.canvas.tasks ++ [task] }
  else .crash

/-- `SkiaCanvas::SkiaCanvas`. The thread has a task runner once it is started. -/
def construct (nativeWindow width height : Int) : Code ρ Unit := do
  modify fun m => { m with
    canvas := {}
    nativeWindow := nativeWindow
    width := width
    height := height
    threadStarted := false
    renderTaskRunner := false
    stencilBits := none
    sampleCount := none
    grGLInterface := 0
    grContext := 0
    skSurface := 0
    recorder := false }
  checkMembers fun m => m.nativeWindow != 0
  check startThread
  modify fun m => { m with renderTaskRunner := m.threadStarted }
  postTask .initializeOnRenderThread

def scopedTraceInitialize : Code ρ Bool := do
  let lib ← call .dlopen
  check (.done (lib != 0))
  if lib ≠ 0 then
    let beginSection ← call (.dlsym .beginSection)
    modify fun m => { m with aTraceBeginSection := beginSection != 0 }
    let endSection ← call (.dlsym .endSection)
    modify fun m => { m with aTraceEndSection := endSection != 0 }
    pure true
  else pure false

def demoMain : Code ρ Unit := do
  modify fun m => { m with messageLoop := true }
  let isValid ← call .openTraceFile
  check (.done (isValid != 0))
  check scopedTraceInitialize

/-- The first canvas of a process runs `DemoMain`. -/
def ensureMain : Code ρ Unit := do
  let m ← get
  onlyIf (m.messageLoop = false) demoMain

def initAndroid : Code ρ Unit := do
  ensureMain
  let nativeWindow ← call .aNativeWindowFromSurface
  let width ← call .aNativeWindowGetWidth
  let height ← call .aNativeWindowGetHeight
  construct nativeWindow width height

def init (kind : Kind) (widget width height : Int) : Code ρ Unit :=
  if kind.isAndroid then initAndroid else construct widget width height

def TraceSymbol.resolved (m : Members ρ) : TraceSymbol → Bool
  | .beginSection => m.aTraceBeginSection
  | .endSection => m.aTraceEndSection

/-- `ATRACE_CALL` and `ATRACE_NAME` of demo_android_skia, where the scope is entered and
where it is left. -/
def aTrace (kind : Kind) (symbol : TraceSymbol) : Code ρ Unit :=
  onlyIf kind.isAndroid (do
    let m ← get
    if symbol.resolved m then do
      let _ ← call (.aTrace symbol)
    else .crash)

def beginPaintPresenter : Presenter → Code ρ Int
  | .x11 | .windows => do
    let m ← get
    let _ ← call (.presenterResize m.width m.height)
    call .presenterGetSkCanvas
  | .none => pure 0

def beginPaintWindow : Code ρ Int := do
  check (do
    let status ← call .aNativeWindowLock
    pure (status == 0))
  let m ← get
  let skSurface ← call (.makeRasterDirect m.width m.height)
  modify fun m => { m with skSurface := skSurface }
  deref skSurface
  pure skSurface

def beginPaintGL (useDdl : Bool) : Code ρ Int := do
  checkMembers fun m => m.display != 0
  checkMembers fun m => m.surface != 0
  let m ← get
  deref m.grGLInterface
  let _ ← call .glGetIntegerv
  let skSurface ←
    call (.wrapBackendRenderTarget m.width m.height m.sampleCount m.stencilBits m.colorFormat)
  modify fun m => { m with skSurface := skSurface }
  onlyIf useDdl (do
    deref skSurface
    let result ← call .characterize
    check (.done (result != 0))
    modify fun m => { m with recorder := true })
  deref skSurface
  pure skSurface

def beginPaint : Kind → Code ρ Int
  | .desktopSoftware presenter => beginPaintPresenter presenter
  | .androidSoftware => beginPaintWindow
  | .desktopGL useDdl | .androidGL useDdl => beginPaintGL useDdl

/-- `DCHECK(DrawDDL(..))` of demo_skia, `DCHECK(skSurface_->draw(..))` of the other. -/
def drawList : Code ρ Unit :=
  check (do
    let drawn ← call .drawDDL
    pure (drawn != 0))

def onPaint : Kind → Code ρ Unit
  | .desktopSoftware presenter => onlyIf (presenter ≠ .none) (do
    let m ← get
    let _ ← call (.presenterEndPaint m.width m.height))
  | .androidSoftware => do
    let m ← get
    deref m.skSurface
    let _ ← call .flush
  | .desktopGL useDdl => do
    onlyIf useDdl drawList
    let m ← get
    deref m.grContext
    let _ ← call .flush
  | .androidGL useDdl => do
    onlyIf useDdl drawList
    let m ← get
    deref m.skSurface
    let _ ← call .flush

def swapBuffer : Kind → Code ρ Unit
  | .desktopSoftware presenter => onlyIf (presenter = .x11) (do
    let _ ← call .presenterOnSwapBuffers)
  | .androidSoftware => do
    let _ ← call .aNativeWindowUnlockAndPost
  | .desktopGL _ | .androidGL _ => do
    checkMembers fun m => m.display != 0
    checkMembers fun m => m.surface != 0
    let m ← get
    let _ ← call (.eglSwapBuffers m.surface)

def paintFrame (kind : Kind) : Code ρ Unit := do
  aTrace kind .beginSection
  let canvas ← beginPaint kind
  deref canvas
  onPaint kind
  aTrace kind .endSection
  aTrace kind .beginSection
  swapBuffer kind
  aTrace kind .endSection

def printedAttribs : List ConfigAttrib :=
  [.alphaSize, .bindToTextureRgb, .bindToTextureRgba, .blueSize, .bufferSize, .configCaveat,
    .configId, .depthSize, .greenSize, .redSize, .stencilSize, .maxPbufferWidth,
    .maxPbufferHeight, .maxPbufferPixels, .maxSwapInterval, .minSwapInterval, .nativeRenderable,
    .nativeVisualId, .alphaMaskSize, .colorBufferType, .luminanceSize, .renderableType,
    .conformant]

def printEGLConfig (config : Option EGLConfig) : Code ρ Unit :=
  printedAttribs.forM fun attrib => do
    let _ ← call (.eglGetConfigAttrib config attrib .newFormat)

def eightBits : ChannelSizes := ⟨8, 8, 8, 8⟩

def sixteenBits : ChannelSizes := ⟨5, 6, 5, 0⟩

structure Choice where
  sizes : ChannelSizes := eightBits
  numConfigs : Nat := 0
  surfaceConfigs : List (Option EGLConfig)

def chosen (attempt numConfigs : Nat) (configs : List (Option EGLConfig)) :
    List (Option EGLConfig) :=
  (List.range numConfigs).map (fun i => some (attempt, i)) ++ configs.drop numConfigs

def chooseConfig (attempt : Nat) (choice : Choice) : Code ρ Choice :=
  checkOut choice (do
    let configSize := choice.surfaceConfigs.length
    let answer ← ask (.eglChooseConfig choice.sizes configSize)
    let numConfigs := min answer.count configSize
    pure (answer.result != 0, { choice with
      numConfigs := numConfigs
      surfaceConfigs := chosen attempt numConfigs choice.surfaceConfigs }))

/-- One round of the loop in demo_skia, which goes on to smaller channels. -/
def chooseRound (attempt : Nat) (choice : Choice) : Code ρ Choice := do
  let choice ← chooseConfig attempt choice
  if choice.numConfigs < 1 then
    modify fun m => { m with colorFormat := .rgb565 }
    pure { choice with sizes := sixteenBits }
  else pure choice

def createSurface : List (Option EGLConfig) → Option EGLConfig → Code ρ (Option EGLConfig)
  | [], surfaceConfig => pure surfaceConfig
  | surfaceConfig :: rest, _ => do
    printEGLConfig surfaceConfig
    let surface ← call (.eglCreateWindowSurface surfaceConfig)
    modify fun m => { m with surface := surface }
    if surface ≠ 0 then pure surfaceConfig else createSurface rest surfaceConfig

def createContext (surfaceConfig : Option EGLConfig) : Code ρ Unit := do
  let context ← call (.eglCreateContext surfaceConfig)
  modify fun m => { m with context := context }
  checkMembers fun m => m.context != 0

/-- From `eglMakeCurrent` on the two GL canvases do the same. -/
def makeCurrent (surfaceConfig : Option EGLConfig) (getFloats : Bool) : Code ρ Unit := do
  let m ← get
  check (do
    let current ← call (.eglMakeCurrent m.surface m.context)
    pure (current != 0))
  let _ ← call .glClearStencil
  let _ ← call .glClearColor
  let _ ← call .glClear
  onlyIf getFloats (do
    let _ ← call .glGetFloatv)
  let stencil ← ask (.eglGetConfigAttrib surfaceConfig .stencilSize .stencilBits)
  modify fun m => { m with stencilBits := stencil.written m.stencilBits }
  let samples ← ask (.eglGetConfigAttrib surfaceConfig .samples .sampleCount)
  modify fun m => { m with sampleCount := (samples.written m.sampleCount).map (max · 1) }
  let _ ← call .eglSwapInterval
  let _ ← call (.eglSwapBuffers m.surface)
  let grGLInterface ← call .grGLMakeNativeInterface
  modify fun m => { m with grGLInterface := grGLInterface }
  checkMembers fun m => m.grGLInterface != 0
  let grContext ← call .makeGL
  modify fun m => { m with grContext := grContext }
  checkMembers fun m => m.grContext != 0

def bindAPI : Code ρ Unit := do
  let display ← call .eglGetDisplay
  modify fun m => { m with display := display }
  let _ ← call .eglInitialize
  check (do
    let bound ← call .eglBindAPI
    pure (bound != 0))

def initializeDesktopGL : Code ρ Unit := do
  bindAPI
  let _ ← call .eglQueryString
  let _ ← call .eglQueryString
  let configCount ← checkOut 0 (do
    let answer ← ask (.eglGetConfigs 0)
    pure (answer.result != 0, answer.count))
  let configs ← call (.eglGetConfigs configCount)
  if configs = 0 then pure ()
  else
    modify fun m => { m with colorFormat := .rgba8 }
    let choice ← chooseRound 0 { surfaceConfigs := List.replicate 5 none }
    let choice ← chooseRound 1 choice
    check (.done (0 < choice.numConfigs))
    let surfaceConfig ← createSurface (choice.surfaceConfigs.take choice.numConfigs) none
    checkMembers fun m => m.surface != 0
    createContext surfaceConfig
    makeCurrent surfaceConfig true

def initializeAndroidGL : Code ρ Unit := do
  bindAPI
  let choice ← chooseConfig 0 { surfaceConfigs := [none] }
  check (.done (0 < choice.numConfigs))
  let surfaceConfig := choice.surfaceConfigs.head?.join
  createContext surfaceConfig
  let surface ← call (.eglCreateWindowSurface surfaceConfig)
  modify fun m => { m with surface := surface }
  checkMembers fun m => m.surface != 0
  makeCurrent surfaceConfig false

/-- The software canvases paint a first frame, that of demo_android_skia without
`OnPaint`. -/
def initializeOnRenderThread : Kind → Code ρ Unit
  | .desktopSoftware presenter => do
    onlyIf (presenter ≠ .none) (do
      let _ ← call .makePresenter)
    let canvas ← beginPaint (.desktopSoftware presenter)
    deref canvas
    onPaint (.desktopSoftware presenter)
    swapBuffer (.desktopSoftware presenter)
  | .androidSoftware => do
    let m ← get
    let _ ← call (.aNativeWindowSetBuffersGeometry m.width m.height)
    let canvas ← beginPaint .androidSoftware
    deref canvas
    swapBuffer .androidSoftware
  | .desktopGL _ => initializeDesktopGL
  | .androidGL _ => initializeAndroidGL

def onTouch (kind : Kind) (action : Int) (x y : ρ) : Code ρ Unit := do
  aTrace kind .beginSection
  postTask (.touch action x y)
  aTrace kind .endSection

def enterTask (kind : Kind) : RenderTask ρ → Code ρ Unit
  | .initializeOnRenderThread => initializeOnRenderThread kind
  | .touch _ _ _ => aTrace kind .beginSection
  | .render | .showInfo | .flushTrace => pure ()

def leaveTask (kind : Kind) : RenderTask ρ → Code ρ Unit
  | .touch _ _ _ => aTrace kind .endSection
  | _ => pure ()

def runTask (kind : Kind) (clock : Nat → Int) (task : RenderTask ρ) : Code ρ Unit := do
  enterTask kind task
  let m ← get
  let after := SkiaCanvas.run kind.version clock task m.canvas
  modify fun m => { m with canvas := after }
  onlyIf (SkiaCanvas.renders m.canvas < SkiaCanvas.renders after) (aTrace kind .beginSection)
  onlyIf (SkiaCanvas.paints m.canvas < SkiaCanvas.paints after) (paintFrame kind)
  onlyIf (SkiaCanvas.renders m.canvas < SkiaCanvas.renders after) (aTrace kind .endSection)
  leaveTask kind task

def step (kind : Kind) (clock : Nat → Int) : RenderLoop.Action ρ → Code ρ Unit
  | .onTouch action x y => onTouch kind action x y
  | .runTask => do
    let m ← get
    match m.canvas.tasks with
    | [] => pure ()
    | task :: tasks => do
      modify fun m => { m with canvas.tasks := tasks }
      runTask kind clock task
  | .runDelayed n => do
    let m ← get
    match m.canvas.delayed[n]? with
    | none => pure ()
    | some task => do
      modify fun m => { m with canvas.delayed := m.canvas.delayed.eraseIdx n }
      runTask kind clock task

def life (kind : Kind) (widget width height : Int) (clock : Nat → Int)
    (actions : List (RenderLoop.Action ρ)) : Code ρ Unit := do
  init kind widget width height
  actions.forM (step kind clock)

def Call.isObserved : Call → Bool
  | .openTraceFile | .dlopen | .dlsym _ | .aTrace _ | .aNativeWindowFromSurface
  | .aNativeWindowGetWidth | .aNativeWindowGetHeight | .makePresenter | .presenterResize _ _
  | .presenterGetSkCanvas | .presenterEndPaint _ _ | .presenterOnSwapBuffers
  | .aNativeWindowSetBuffersGeometry _ _ | .makeRasterDirect _ _ => false
  | _ => true

structure SameWork (checked unchecked : World (Members ρ) Call) : Prop where
  calls : unchecked.calls.filter Call.isObserved = checked.calls.filter Call.isObserved
  state : unchecked.state = checked.state

theorem construct_unchecked (nativeWindow width height : Int) (answers : List Call → Call → Answer)
    (w : World (Members ρ) Call) :
    ∃ v, (construct nativeWindow width height).run false answers w = (.error .crashed, v) ∧
      v.calls = w.calls :=
  ⟨_, rfl, rfl⟩

theorem initAndroid_unchecked (answers : List Call → Call → Answer) (m : Members ρ) :
    ∃ v, initAndroid.run false answers ⟨m, []⟩ = (.error .crashed, v) ∧
      v.calls = (if m.messageLoop then [] else [.openTraceFile]) ++
        [.aNativeWindowFromSurface, .aNativeWindowGetWidth, .aNativeWindowGetHeight] := by
  obtain ⟨messageLoop, _⟩ := m
  cases messageLoop <;> exact ⟨_, rfl, rfl⟩

theorem init_unchecked (kind : Kind) (widget width height : Int)
    (answers : List Call → Call → Answer) (m : Members ρ) :
    ∃ v, (init kind widget width height).run false answers ⟨m, []⟩ = (.error .crashed, v) ∧
      .threadStart ∉ v.calls := by
  rw [init]
  split
  · obtain ⟨v, ran, calls⟩ := initAndroid_unchecked answers m
    refine ⟨v, ran, ?_⟩
    rw [calls]
    split <;> decide
  · obtain ⟨v, ran, calls⟩ := construct_unchecked widget width height answers ⟨m, []⟩
    exact ⟨v, ran, by rw [calls]; exact List.not_mem_nil⟩

theorem call_crashless (c : Call) : Crashless (call c : Code ρ Int) :=
  .bind (.ask c) fun _ => .done _

theorem checkMembers_crashless (condition : Members ρ → Bool) :
    Crashless (checkMembers condition) :=
  .check (.bind .get fun m => .done (condition m))

theorem scopedTraceInitialize_crashless : Crashless (scopedTraceInitialize : Code ρ Bool) := by
  refine .bind (call_crashless _) fun lib => .bind (.check (.done _)) fun _ => ?_
  split
  · exact .bind (call_crashless _) fun _ => .bind (.modify _) fun _ =>
      .bind (call_crashless _) fun _ => .bind (.modify _) fun _ => .done true
  · exact .done false

theorem ensureMain_crashless : Crashless (ensureMain : Code ρ Unit) :=
  .bind .get fun _ => .onlyIf <| .bind (.modify _) fun _ => .bind (call_crashless _) fun _ =>
    .bind (.check (.done _)) fun _ => .check scopedTraceInitialize_crashless

theorem construct_checked {nativeWindow width height : Int} {answers : List Call → Call → Answer}
    {w : World (Members ρ) Call}
    (met : ((construct nativeWindow width height).run true answers w).1 ≠ .error .failed) :
    .threadStart ∈ ((construct nativeWindow width height).run true answers w).2.calls := by
  rw [construct] at met ⊢
  obtain ⟨_, w₁, _, ran⟩ := Crashless.next (.modify _) met
  rw [ran] at met ⊢
  obtain ⟨_, w₂, _, ran⟩ := Crashless.next (checkMembers_crashless _) met
  rw [ran] at met ⊢
  have asked : w₂.calls ++ [.threadStart] <+: ((check startThread).run true answers w₂).2.calls :=
    calls_prefix _ ⟨w₂.state, w₂.calls ++ [.threadStart]⟩
  exact (asked.trans (calls_bind _ _ w₂)).subset
    (List.mem_append_right _ (List.mem_singleton_self _))

theorem init_checked {kind : Kind} {widget width height : Int}
    {answers : List Call → Call → Answer} {w : World (Members ρ) Call}
    (met : ((init kind widget width height).run true answers w).1 ≠ .error .failed) :
    .threadStart ∈ ((init kind widget width height).run true answers w).2.calls := by
  rw [init] at met ⊢
  split at met
  · next android =>
    rw [if_pos android]
    rw [initAndroid] at met ⊢
    obtain ⟨_, w₂, _, ran⟩ := Crashless.next ensureMain_crashless met
    rw [ran] at met ⊢
    obtain ⟨nativeWindow, w₃, _, ran⟩ := Crashless.next (call_crashless _) met
    rw [ran] at met ⊢
    obtain ⟨width, w₄, _, ran⟩ := Crashless.next (call_crashless _) met
    rw [ran] at met ⊢
    obtain ⟨height, w₅, _, ran⟩ := Crashless.next (call_crashless _) met
    rw [ran] at met ⊢
    exact construct_checked met
  · next desktop =>
    rw [if_neg desktop]
    exact construct_checked met

/-- Whatever the platform answers and whatever is drawn, if all `DCHECK`s of a run hold
then the run without them does not do the same work: it starts no thread, and crashes in
the constructor. -/
theorem not_sameWork (kind : Kind) (widget width height : Int) (clock : Nat → Int)
    (actions : List (RenderLoop.Action ρ)) (answers : List Call → Call → Answer) (m : Members ρ)
    (met : ((life kind widget width height clock actions).run true answers ⟨m, []⟩).1 ≠
      .error .failed) :
    ¬ SameWork ((life kind widget width height clock actions).run true answers ⟨m, []⟩).2
      ((life kind widget width height clock actions).run false answers ⟨m, []⟩).2 := by
  intro same
  obtain ⟨u, crashed, unstarted⟩ := init_unchecked kind widget width height answers m
  have started : .threadStart ∈
      ((life kind widget width height clock actions).run true answers ⟨m, []⟩).2.calls :=
    (calls_bind _ _ _).subset (init_checked (holds_of_bind met))
  have unchecked : ((life kind widget width height clock actions).run false answers ⟨m, []⟩).2 =
      u := by
    rw [life, run_bind, crashed]
  have member : .threadStart ∈ u.calls.filter Call.isObserved := by
    rw [← unchecked, same.calls]
    exact List.mem_filter.mpr ⟨started, rfl⟩
  exact unstarted (List.mem_filter.mp member).1

theorem androidGL_not_sameWork :
    ((life (.androidGL false) 0 0 0 (fun n => n)
        [.runTask, .onTouch 0 3 4, .runTask, .runDelayed 0]).run true (fun _ _ => ⟨1, 1⟩)
        (⟨{}, []⟩ : World (Members Int) Call)).1 = .ok () ∧
      ¬ SameWork
        ((life (.androidGL false) 0 0 0 (fun n => n)
          [.runTask, .onTouch 0 3 4, .runTask, .runDelayed 0]).run true (fun _ _ => ⟨1, 1⟩)
          (⟨{}, []⟩ : World (Members Int) Call)).2
        ((life (.androidGL false) 0 0 0 (fun n => n)
          [.runTask, .onTouch 0 3 4, .runTask, .runDelayed 0]).run false (fun _ _ => ⟨1, 1⟩)
          (⟨{}, []⟩ : World (Members Int) Call)).2 :=
  ⟨rfl, not_sameWork (.androidGL false) 0 0 0 (fun n => n)
    [.runTask, .onTouch 0 3 4, .runTask, .runDelayed 0] (fun _ _ => ⟨1, 1⟩) {} nofun⟩

theorem constructor_starts_no_thread :
    ¬ ∀ (kind : Kind) (widget width height : Int) (clock : Nat → Int)
      (actions : List (RenderLoop.Action Int)) (answers : List Call → Call → Answer)
      (m : Members Int),
      ((life kind widget width height clock actions).run true answers ⟨m, []⟩).1 ≠
        .error .failed →
      SameWork ((life kind widget width height clock actions).run true answers ⟨m, []⟩).2
        ((life kind widget width height clock actions).run false answers ⟨m, []⟩).2 := by
  intro all
  have same := all (.desktopSoftware .x11) 1 800 600 (fun n => n) [] (fun _ _ => ⟨1, 0⟩) {} nofun
  have calls : [] = [Call.threadStart] := same.calls
  cases calls

section Parts

theorem call_alike (c : Call) : Alike (call c : Code ρ Int) :=
  .bind (.ask c) fun _ => .done _

theorem deref_alike (pointer : Int) : Alike (deref pointer : Code ρ Unit) :=
  .ite .crash (.done _)

theorem checkMembers_alike (condition : Members ρ → Bool) : Alike (checkMembers condition) :=
  .check condition

theorem postTask_alike (task : RenderTask ρ) : Alike (postTask task) :=
  .bind .get fun _ => .ite (.modify _) .crash

theorem aTrace_alike (kind : Kind) (symbol : TraceSymbol) :
    Alike (aTrace kind symbol : Code ρ Unit) := by
  have called : Alike (do
      let _ ← call (.aTrace symbol) : Code ρ Unit) :=
    .bind (call_alike _) fun _ => .done _
  exact .onlyIf (.bind .get fun _ => .ite called .crash)

def Kind.ChecksMembers : Kind → Prop
  | .desktopSoftware _ => True
  | .androidSoftware => False
  | .desktopGL useDdl | .androidGL useDdl => useDdl = false

theorem beginPaintGL_alike : Alike (beginPaintGL false : Code ρ Int) := by
  refine .bind (checkMembers_alike _) fun _ => ?_
  refine .bind (checkMembers_alike _) fun _ => ?_
  refine .bind .get fun m => ?_
  refine .bind (deref_alike m.grGLInterface) fun _ => ?_
  refine .bind (call_alike .glGetIntegerv) fun _ => ?_
  refine .bind (call_alike _) fun skSurface => ?_
  refine .bind (.modify _) fun _ => ?_
  refine .bind (.done ()) fun _ => ?_
  refine .bind (deref_alike skSurface) fun _ => ?_
  exact .done skSurface

theorem beginPaint_alike {kind : Kind} (members : kind.ChecksMembers) :
    Alike (beginPaint kind : Code ρ Int) := by
  cases kind with
  | desktopSoftware presenter =>
    cases presenter with
    | x11 | windows => exact .bind .get fun _ => .bind (call_alike _) fun _ => call_alike _
    | none => exact .done 0
  | androidSoftware => exact members.elim
  | desktopGL useDdl | androidGL useDdl =>
    obtain rfl : useDdl = false := members
    exact beginPaintGL_alike

theorem onPaint_alike {kind : Kind} (members : kind.ChecksMembers) :
    Alike (onPaint kind : Code ρ Unit) := by
  cases kind with
  | desktopSoftware presenter =>
    exact .onlyIf (.bind .get fun _ => .bind (call_alike _) fun _ => .done _)
  | androidSoftware => exact members.elim
  | desktopGL useDdl | androidGL useDdl =>
    obtain rfl : useDdl = false := members
    exact .bind (.done _) fun _ => .bind .get fun _ => .bind (deref_alike _) fun _ =>
      .bind (call_alike _) fun _ => .done _

theorem swapBuffer_alike (kind : Kind) : Alike (swapBuffer kind : Code ρ Unit) := by
  cases kind with
  | desktopSoftware presenter => exact .onlyIf (.bind (call_alike _) fun _ => .done _)
  | androidSoftware => exact .bind (call_alike _) fun _ => .done _
  | desktopGL useDdl | androidGL useDdl =>
    exact .bind (checkMembers_alike _) fun _ => .bind (checkMembers_alike _) fun _ =>
      .bind .get fun _ => .bind (call_alike _) fun _ => .done _

theorem paintFrame_alike_iff (kind : Kind) :
    Alike (paintFrame kind : Code ρ Unit) ↔ kind.ChecksMembers := by
  constructor
  · intro alike
    -- where the operand makes a call, the build without it makes one call less
    let ready : Members ρ :=
      { aTraceBeginSection := true, aTraceEndSection := true, display := 1, surface := 1,
        grGLInterface := 1, grContext := 1 }
    cases kind with
    | desktopSoftware presenter => trivial
    | androidSoftware =>
      let answers (_ : List Call) : Call → Answer
        | .aNativeWindowLock => ⟨0, 0⟩
        | _ => ⟨1, 0⟩
      have ran : ((paintFrame .androidSoftware).run true answers ⟨ready, []⟩).1 = .ok () := rfl
      have same : 7 = 8 := congrArg (fun r => r.2.calls.length) (alike.run_eq ran)
      omega
    | desktopGL useDdl =>
      cases useDdl with
      | false => rfl
      | true =>
        have ran : ((paintFrame (.desktopGL true)).run true (fun _ _ => ⟨1, 0⟩)
          ⟨ready, []⟩).1 = .ok () := rfl
        have same : 5 = 6 := congrArg (fun r => r.2.calls.length) (alike.run_eq ran)
        omega
    | androidGL useDdl =>
      cases useDdl with
      | false => rfl
      | true =>
        have ran : ((paintFrame (.androidGL true)).run true (fun _ _ => ⟨1, 0⟩)
          ⟨ready, []⟩).1 = .ok () := rfl
        have same : 9 = 10 := congrArg (fun r => r.2.calls.length) (alike.run_eq ran)
        omega
  · intro members
    refine .bind (aTrace_alike kind _) fun _ => ?_
    refine .bind (beginPaint_alike members) fun canvas => ?_
    refine .bind (deref_alike canvas) fun _ => ?_
    refine .bind (onPaint_alike members) fun _ => ?_
    refine .bind (aTrace_alike kind _) fun _ => ?_
    refine .bind (aTrace_alike kind _) fun _ => ?_
    refine .bind (swapBuffer_alike kind) fun _ => ?_
    exact aTrace_alike kind _

theorem enterTask_alike {kind : Kind} {task : RenderTask ρ} (members : kind.ChecksMembers)
    (later : task = .initializeOnRenderThread → ∃ presenter, kind = .desktopSoftware presenter) :
    Alike (enterTask kind task) := by
  cases task with
  | initializeOnRenderThread =>
    obtain ⟨presenter, rfl⟩ := later rfl
    have made : Alike (onlyIf (presenter ≠ .none) (do
        let _ ← call .makePresenter) : Code ρ Unit) :=
      .onlyIf (.bind (call_alike _) fun _ => .done _)
    exact .bind made fun _ => .bind (beginPaint_alike members) fun _ =>
      .bind (deref_alike _) fun _ => .bind (onPaint_alike members) fun _ => swapBuffer_alike _
  | touch action x y => exact aTrace_alike kind _
  | render | showInfo | flushTrace => exact .done _

theorem leaveTask_alike (kind : Kind) (task : RenderTask ρ) : Alike (leaveTask kind task) := by
  cases task with
  | touch action x y => exact aTrace_alike kind _
  | initializeOnRenderThread | render | showInfo | flushTrace => exact .done _

/-- Once a GL canvas without display lists is set up, and always for the software canvas
of demo_skia, the tasks of the render thread are the same in both builds. -/
theorem runTask_alike {kind : Kind} {task : RenderTask ρ} (members : kind.ChecksMembers)
    (later : task = .initializeOnRenderThread → ∃ presenter, kind = .desktopSoftware presenter)
    (clock : Nat → Int) : Alike (runTask kind clock task) := by
  refine .bind (enterTask_alike members later) fun _ => ?_
  refine .bind .get fun m => ?_
  refine .bind (.modify _) fun _ => ?_
  refine .bind (.onlyIf (aTrace_alike kind _)) fun _ => ?_
  refine .bind (.onlyIf ((paintFrame_alike_iff kind).mpr members)) fun _ => ?_
  refine .bind (.onlyIf (aTrace_alike kind _)) fun _ => ?_
  exact leaveTask_alike kind task

theorem desktopSoftware_alike (presenter : Presenter) (clock : Nat → Int)
    (actions : List (RenderLoop.Action ρ)) :
    Alike (actions.forM (step (.desktopSoftware presenter) clock)) := by
  refine Alike.forM (fun action => ?_) actions
  have members : (Kind.desktopSoftware presenter).ChecksMembers := trivial
  have task (task : RenderTask ρ) : Alike (runTask (.desktopSoftware presenter) clock task) :=
    runTask_alike members (fun _ => ⟨presenter, rfl⟩) clock
  cases action with
  | onTouch action x y =>
    exact .bind (aTrace_alike _ _) fun _ => .bind (postTask_alike _) fun _ => aTrace_alike _ _
  | runTask =>
    refine .bind .get fun m => ?_
    cases m.canvas.tasks with
    | nil => exact .done _
    | cons first rest => exact .bind (.modify _) fun _ => task first
  | runDelayed n =>
    refine .bind .get fun m => ?_
    cases m.canvas.delayed[n]? with
    | none => exact .done _
    | some due => exact .bind (.modify _) fun _ => task due

end Parts

end ChromiumDemo.CanvasBuilds
