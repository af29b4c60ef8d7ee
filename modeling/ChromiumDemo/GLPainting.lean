import ChromiumDemo.GLInitialization

/-! The tasks of the render thread of the GL canvas of demo_skia, cut where `BeginPaint`
and `SwapBuffer` are called, and what they find there of the initialization. -/

namespace ChromiumDemo.GLPainting
open CheckedProgram CanvasBuilds GLInitialization TransitionSystem
open SkiaCanvas (RenderTask)

variable {ρ : Type}

def bookkeeping (kind : Kind) (clock : Nat → Int) (task : RenderTask ρ) : Code ρ Bool := do
  let m ← get
  let after := SkiaCanvas.run kind.version clock task m.canvas
  modify fun m => { m with canvas := after }
  onlyIf (SkiaCanvas.renders m.canvas < SkiaCanvas.renders after) (aTrace kind .beginSection)
  pure (SkiaCanvas.paints m.canvas < SkiaCanvas.paints after)

def taskToPaint (kind : Kind) (clock : Nat → Int) (task : RenderTask ρ) : Code ρ Bool := do
  enterTask kind task
  bookkeeping kind clock task

/-- The result says whether `BeginPaint` is what comes next. -/
def toPaint (kind : Kind) (clock : Nat → Int) : RenderLoop.Action ρ → Code ρ Bool
  | .onTouch action x y => do
    onTouch kind action x y
    pure false
  | .runTask => do
    let m ← get
    match m.canvas.tasks with
    | [] => pure false
    | task :: tasks => do
      modify fun m => { m with canvas.tasks := tasks }
      taskToPaint kind clock task
  | .runDelayed n => do
    let m ← get
    match m.canvas.delayed[n]? with
    | none => pure false
    | some task => do
      modify fun m => { m with canvas.delayed := m.canvas.delayed.eraseIdx n }
      taskToPaint kind clock task

def frameToSwap (kind : Kind) : Code ρ Unit := do
  aTrace kind .beginSection
  let canvas ← beginPaint kind
  deref canvas
  onPaint kind
  aTrace kind .endSection
  aTrace kind .beginSection

def toSwap (kind : Kind) (clock : Nat → Int) (a : RenderLoop.Action ρ) : Code ρ Bool := do
  let paints ← toPaint kind clock a
  onlyIf paints (frameToSwap kind)
  pure paints

section Desktop
variable {kind : Kind} (desktop : kind.isAndroid = false)
include desktop

theorem aTrace_desktop (symbol : TraceSymbol) : (aTrace kind symbol : Code ρ Unit) = pure () := by
  rw [aTrace, desktop]
  rfl

theorem leaveTask_desktop (task : RenderTask ρ) : leaveTask kind task = pure () := by
  cases task with
  | touch action x y => exact aTrace_desktop desktop .endSection
  | initializeOnRenderThread | render | showInfo | flushTrace => rfl

theorem runTask_eq (clock : Nat → Int) (task : RenderTask ρ) :
    runTask kind clock task =
      taskToPaint kind clock task >>= fun paints => onlyIf paints (paintFrame kind) := by
  simp only [runTask, taskToPaint, bookkeeping, bind_assoc, pure_bind, decide_eq_true_eq,
    aTrace_desktop desktop, leaveTask_desktop desktop, onlyIf_pure, bind_unit]

theorem step_eq (clock : Nat → Int) (a : RenderLoop.Action ρ) :
    CanvasBuilds.step kind clock a =
      toPaint kind clock a >>= fun paints => onlyIf paints (paintFrame kind) := by
  cases a with
  | onTouch action x y =>
    rw [CanvasBuilds.step, toPaint, bind_assoc]
    exact (bind_pure _).symm
  | runTask =>
    rw [CanvasBuilds.step, toPaint, bind_assoc]
    refine congrArg (get >>= ·) (funext fun m => ?_)
    cases m.canvas.tasks with
    | nil => rfl
    | cons task tasks =>
      simp only [runTask_eq desktop, bind_assoc]
  | runDelayed n =>
    rw [CanvasBuilds.step, toPaint, bind_assoc]
    refine congrArg (get >>= ·) (funext fun m => ?_)
    cases m.canvas.delayed[n]? with
    | none => rfl
    | some task => simp only [runTask_eq desktop, bind_assoc]

theorem paintFrame_eq :
    (paintFrame kind : Code ρ Unit) = frameToSwap kind >>= fun _ => swapBuffer kind := by
  simp only [paintFrame, frameToSwap, bind_assoc, pure_bind, aTrace_desktop desktop, bind_unit]

end Desktop

theorem isAndroid_desktopGL (useDdl : Bool) : (Kind.desktopGL useDdl).isAndroid = false := rfl

structure Painted (w v : State ρ) : Prop extends Apart w v where
  canvas : v.state.canvas = w.state.canvas

instance : IsPreorder (State ρ) Painted where
  refl w := ⟨refl_of Apart w, rfl⟩
  trans _ _ _ first second :=
    ⟨trans_of Apart first.toApart second.toApart, second.canvas.trans first.canvas⟩

section Frames

theorem painted_ask {c : Call} (plain : IsPlain c) : Keeps Painted (ask c : Code ρ Answer) :=
  fun checks answers w => ⟨keeps_ask plain checks answers w, rfl⟩

theorem painted_call {c : Call} (plain : IsPlain c) : Keeps Painted (call c : Code ρ Int) :=
  .bind (painted_ask plain) fun _ => .done _

theorem painted_modify {f : Members ρ → Members ρ} (same : ∀ m, glState (f m) = glState m)
    (canvas : ∀ m, (f m).canvas = m.canvas) : Keeps Painted (modify f : Code ρ Unit) :=
  fun checks answers w => ⟨keeps_modify same checks answers w, canvas w.state⟩

theorem painted_deref (pointer : Int) : Keeps Painted (deref pointer : Code ρ Unit) :=
  .ite .crash (.done _)

theorem painted_checkMembers (condition : Members ρ → Bool) :
    Keeps Painted (checkMembers condition) :=
  .check (.bind .get fun _ => .done _)

theorem painted_recorded (skSurface : Int) :
    Keeps Painted (do
      deref skSurface
      let result ← call .characterize
      check (.done (result != 0))
      modify fun m : Members ρ => { m with recorder := true } : Code ρ Unit) := by
  refine .bind (painted_deref skSurface) fun _ => ?_
  refine .bind (painted_call ⟨rfl, rfl⟩) fun result => ?_
  refine .bind (.check (.done (result != 0))) fun _ => ?_
  exact painted_modify (fun _ => rfl) fun _ => rfl

theorem painted_beginPaintGL (useDdl : Bool) :
    Keeps Painted (beginPaintGL useDdl : Code ρ Int) := by
  refine .bind (painted_checkMembers _) fun _ => ?_
  refine .bind (painted_checkMembers _) fun _ => ?_
  refine .bind .get fun m => ?_
  refine .bind (painted_deref m.grGLInterface) fun _ => ?_
  refine .bind (painted_call ⟨rfl, rfl⟩) fun _ => ?_
  refine .bind (painted_call ⟨rfl, rfl⟩) fun skSurface => ?_
  refine .bind (painted_modify (fun _ => rfl) fun _ => rfl) fun _ => ?_
  refine .bind (.onlyIf (painted_recorded skSurface)) fun _ => ?_
  refine .bind (painted_deref skSurface) fun _ => ?_
  exact .done skSurface

theorem painted_frameToSwap (useDdl : Bool) :
    Keeps Painted (frameToSwap (.desktopGL useDdl) : Code ρ Unit) := by
  have drawn : Keeps Painted (drawList : Code ρ Unit) :=
    .check (.bind (painted_call ⟨rfl, rfl⟩) fun _ => .done _)
  have onPaint : Keeps Painted (onPaint (.desktopGL useDdl) : Code ρ Unit) :=
    .bind (.onlyIf drawn) fun _ => .bind .get fun _ => .bind (painted_deref _) fun _ =>
      .bind (painted_call ⟨rfl, rfl⟩) fun _ => .done _
  simp only [frameToSwap, aTrace_desktop (isAndroid_desktopGL useDdl), pure_bind, bind_unit]
  refine .bind (painted_beginPaintGL useDdl) fun canvas => ?_
  exact .bind (painted_deref canvas) fun _ => onPaint

theorem painted_paintFrame (useDdl : Bool) :
    Keeps Painted (paintFrame (.desktopGL useDdl) : Code ρ Unit) := by
  have swapped : Keeps Painted (swapBuffer (.desktopGL useDdl) : Code ρ Unit) :=
    .bind (painted_checkMembers _) fun _ => .bind (painted_checkMembers _) fun _ =>
      .bind .get fun _ => .bind (painted_call ⟨rfl, rfl⟩) fun _ => .done _
  rw [paintFrame_eq (isAndroid_desktopGL useDdl)]
  exact .bind (painted_frameToSwap useDdl) fun _ => swapped

end Frames

def started (nativeWindow width height : Int) (m : Members ρ) : Members ρ :=
  { m with
    canvas := SkiaCanvas.new
    nativeWindow := nativeWindow
    width := width
    height := height
    threadStarted := true
    renderTaskRunner := true
    stencilBits := none
    sampleCount := none
    grGLInterface := 0
    grContext := 0
    skSurface := 0
    recorder := false }

/-- In builds with `DCHECK`s the constructor ends there or not at all. -/
theorem construct_started (nativeWindow width height : Int) (answers : Answers) (m : Members ρ) :
    wp true answers (fun _ => True) (construct nativeWindow width height)
      (fun _ v => v = ⟨started nativeWindow width height m, [.threadStart]⟩) ⟨m, []⟩ := by
  rw [construct, wp_bind, wp_modify, wp_bind, wp_checkMembers]
  split
  · rw [wp_bind, wp_check, if_pos rfl, startThread, wp_bind, wp_call, wp_ite]
    split
    · rfl
    · trivial
  · trivial

/-- `painting` are the worlds in which a task has come to `BeginPaint` or `SwapBuffer`. -/
structure Life (ρ : Type) where
  world : State ρ
  stopped : Bool := false
  painting : List (State ρ) := []

def reached (checks : Bool) (answers : Answers) (p : Code ρ Bool) (w : State ρ) :
    List (State ρ) :=
  match p.run checks answers w with
  | (.ok true, v) => [v]
  | _ => []

def hasStopped : Except Stop Unit → Bool
  | .ok _ => false
  | .error _ => true

def step (checks : Bool) (answers : Answers) (kind : Kind) (clock : Nat → Int) (l : Life ρ)
    (a : RenderLoop.Action ρ) : Option (Life ρ) :=
  let (result, world) := (CanvasBuilds.step kind clock a).run checks answers l.world
  some {
    world
    stopped := hasStopped result
    painting := l.painting ++ reached checks answers (toPaint kind clock a) l.world ++
      reached checks answers (toSwap kind clock a) l.world }

def machine (checks : Bool) (answers : Answers) (useDdl : Bool) (clock : Nat → Int) :
    Machine (Life ρ) (RenderLoop.Action ρ) :=
  .haltOn Life.stopped (step checks answers (.desktopGL useDdl) clock)

structure Sane (answers : Answers) (l : Life ρ) : Prop where
  painting : ∀ w ∈ l.painting, Consistent answers w
  configs : Safe answers l.world

/-- Where a task paints `eglGetConfigs` has succeeded and the two counts were told, and
`eglGetConfigs` has not succeeded where the initialization runs without `DCHECK`s. -/
structure Ready (checks : Bool) (answers : Answers) (useDdl : Bool) (clock : Nat → Int)
    (l : Life ρ) (a : RenderLoop.Action ρ) : Prop where
  initializes : RenderLoop.next l.world.state.canvas a = some .initializeOnRenderThread →
    listed checks answers = true → checks = true
  paints : ∀ w ∈ reached checks answers (toPaint (.desktopGL useDdl) clock a) l.world,
    listed checks answers = true ∧ Told answers w.calls

structure Waiting (w : State ρ) : Prop where
  calls : w.calls = [.threadStart]
  tasks : ∃ rest, w.state.canvas.tasks = .initializeOnRenderThread :: rest ∧
    .initializeOnRenderThread ∉ rest
  delayed : w.state.canvas.delayed = []
  stencilBits : w.state.stencilBits = none
  sampleCount : w.state.sampleCount = none
  grGLInterface : w.state.grGLInterface = 0

def NoInit (c : SkiaCanvas.Canvas ρ) : Prop :=
  .initializeOnRenderThread ∉ c.tasks ∧ .initializeOnRenderThread ∉ c.delayed

structure Ran (checks : Bool) (answers : Answers) (w : State ρ) : Prop where
  queues : NoInit w.state.canvas
  built : listed checks answers = true → Ended answers w
  unbuilt : listed checks answers = false → w.state.grGLInterface = 0

section Steps
variable {checks useDdl : Bool} {answers : Answers} {clock : Nat → Int} {w : State ρ}

theorem not_mem_posted {tasks : List (RenderTask ρ)} {task : RenderTask ρ}
    (once : .initializeOnRenderThread ∉ tasks) (other : task ≠ .initializeOnRenderThread) :
    .initializeOnRenderThread ∉ tasks ++ [task] :=
  List.not_mem_append once (mt List.mem_singleton.mp other.symm)

theorem noInit_onRender {c : SkiaCanvas.Canvas ρ} (h : NoInit c) :
    NoInit (SkiaCanvas.onRenderOnRenderThread clock c) := by
  rw [SkiaCanvas.onRenderOnRenderThread]
  split
  · exact h
  · exact ⟨h.1, not_mem_posted h.2 (by simp)⟩

theorem noInit_setNeedsRedraw (needRedraw : Bool) {c : SkiaCanvas.Canvas ρ} (h : NoInit c) :
    NoInit (SkiaCanvas.setNeedsRedraw clock needRedraw true c) := by
  rw [SkiaCanvas.setNeedsRedraw]
  split
  · exact noInit_onRender h
  · exact h

theorem noInit_showFrameRate (v : SkiaCanvas.Version) {c : SkiaCanvas.Canvas ρ} (h : NoInit c) :
    NoInit (SkiaCanvas.showFrameRateOnRenderThread v c) := by
  refine ⟨?_, h.2⟩
  rw [SkiaCanvas.showFrameRateOnRenderThread]
  split
  · exact not_mem_posted h.1 (by simp)
  · rw [List.append_nil]
    exact h.1

theorem noInit_run {v : SkiaCanvas.Version} {task : RenderTask ρ} {c : SkiaCanvas.Canvas ρ}
    (h : NoInit c) : NoInit (SkiaCanvas.run v clock task c) := by
  cases task with
  | initializeOnRenderThread | showInfo | flushTrace => exact h
  | render => exact noInit_onRender h
  | touch action x y =>
    rw [SkiaCanvas.run, SkiaCanvas.onTouchOnRenderThread]
    split
    · exact noInit_setNeedsRedraw true h
    · split
      · split
        · have still : NoInit (SkiaCanvas.setNeedsRedraw clock false true _) :=
            noInit_setNeedsRedraw false (c := { c with
              skPath := c.skPath ++ [.lineTo x y]
              totalTouchTime := clock c.ticks - c.touchStartTime
              touchCount := SkiaCanvas.increment c.touchCount
              ticks := c.ticks + 1 }) h
          have shown := noInit_showFrameRate v still
          split
          · exact ⟨shown.1, not_mem_posted shown.2 (by simp)⟩
          · exact shown
        · exact h
      · exact h

theorem bookkeeping_run (task : RenderTask ρ) (w : State ρ) :
    (bookkeeping (.desktopGL useDdl) clock task).run checks answers w =
      (.ok (decide (SkiaCanvas.paints w.state.canvas <
          SkiaCanvas.paints (SkiaCanvas.run SkiaCanvas.desktop clock task w.state.canvas))),
        { w with state := { w.state with
            canvas := SkiaCanvas.run SkiaCanvas.desktop clock task w.state.canvas } }) := by
  simp only [bookkeeping, aTrace_desktop (isAndroid_desktopGL useDdl), onlyIf_pure, pure_bind]
  rfl

theorem taskToPaint_other {task : RenderTask ρ} (other : task ≠ .initializeOnRenderThread) :
    taskToPaint (.desktopGL useDdl) clock task = bookkeeping (.desktopGL useDdl) clock task := by
  have entered : (enterTask (.desktopGL useDdl) task : Code ρ Unit) = pure () := by
    cases task with
    | initializeOnRenderThread => exact absurd rfl other
    | touch | render | showInfo | flushTrace => rfl
  rw [taskToPaint, entered, pure_bind]

theorem Ran.withCanvas (h : Ran checks answers w) {c : SkiaCanvas.Canvas ρ} (queues : NoInit c) :
    Ran checks answers { w with state := { w.state with canvas := c } } where
  queues := queues
  built on := ⟨(h.built on).safe, (h.built on).consistent, (h.built on).unset⟩
  unbuilt := h.unbuilt

theorem onTouch_posts {action : Int} {x y : ρ} {Q : Unit → State ρ → Prop} (safe : Safe answers w)
    (posted : Q () { w with state := { w.state with
      canvas.tasks := w.state.canvas.tasks ++ [.touch action x y] } }) :
    wp checks answers (Safe answers) (onTouch (.desktopGL useDdl) action x y) Q w := by
  simp only [onTouch, aTrace_desktop (isAndroid_desktopGL useDdl), pure_bind, bind_unit]
  rw [postTask, wp_bind, wp_get, wp_ite, wp_modify, wp_crash]
  split
  · exact posted
  · exact safe

theorem Ran.taskToPaint {task : RenderTask ρ} (h : Ran checks answers w) (safe : Safe answers w)
    (other : task ≠ .initializeOnRenderThread) :
    wp checks answers (Safe answers) (taskToPaint (.desktopGL useDdl) clock task)
      (fun _ v => Ran checks answers v ∧ Safe answers v) w := by
  rw [taskToPaint_other other, wp, bookkeeping_run]
  exact ⟨h.withCanvas (noInit_run h.queues), safe⟩

theorem Ran.toPaint {a : RenderLoop.Action ρ} (h : Ran checks answers w) (safe : Safe answers w) :
    wp checks answers (Safe answers) (toPaint (.desktopGL useDdl) clock a)
      (fun _ v => Ran checks answers v ∧ Safe answers v) w := by
  cases a with
  | onTouch action x y =>
    rw [GLPainting.toPaint, wp_bind]
    have queues : NoInit { w.state.canvas with
        tasks := w.state.canvas.tasks ++ [.touch action x y] } :=
      ⟨not_mem_posted h.queues.1 (by simp), h.queues.2⟩
    exact onTouch_posts safe (wp_pure.mpr ⟨h.withCanvas queues, safe⟩)
  | runTask =>
    rw [GLPainting.toPaint, wp_bind, wp_get]
    cases queue : w.state.canvas.tasks with
    | nil => exact wp_pure.mpr ⟨h, safe⟩
    | cons task tasks =>
      have queues := h.queues
      rw [NoInit, queue] at queues
      have other : task ≠ .initializeOnRenderThread := fun same =>
        queues.1 (same ▸ List.mem_cons_self)
      have popped : NoInit { w.state.canvas with tasks := tasks } :=
        ⟨fun member => queues.1 (List.mem_cons_of_mem _ member), queues.2⟩
      rw [wp_bind, wp_modify]
      exact (h.withCanvas popped).taskToPaint safe other
  | runDelayed n =>
    rw [GLPainting.toPaint, wp_bind, wp_get]
    cases due : w.state.canvas.delayed[n]? with
    | none => exact wp_pure.mpr ⟨h, safe⟩
    | some task =>
      have other : task ≠ .initializeOnRenderThread := fun same =>
        h.queues.2 (same ▸ List.mem_of_getElem? due)
      have popped : NoInit { w.state.canvas with delayed := w.state.canvas.delayed.eraseIdx n } :=
        ⟨h.queues.1, fun member => h.queues.2 (List.eraseIdx_subset member)⟩
      rw [wp_bind, wp_modify]
      exact (h.withCanvas popped).taskToPaint safe other

theorem Waiting.toPaint {a : RenderLoop.Action ρ} (h : Waiting w) (safe : Safe answers w)
    (initializes : RenderLoop.next w.state.canvas a = some .initializeOnRenderThread →
      listed checks answers = true → checks = true) :
    wp checks answers (Safe answers) (toPaint (.desktopGL useDdl) clock a)
      (fun paints v => paints = false ∧ (Waiting v ∨ Ran checks answers v) ∧ Safe answers v) w := by
  obtain ⟨rest, tasks, once⟩ := h.tasks
  cases a with
  | onTouch action x y =>
    rw [GLPainting.toPaint, wp_bind]
    refine onTouch_posts safe (wp_pure.mpr ⟨rfl, .inl ⟨h.calls, ⟨rest ++ [.touch action x y], ?_,
      not_mem_posted once (by simp)⟩, h.delayed, h.stencilBits, h.sampleCount,
      h.grGLInterface⟩, safe⟩)
    rw [tasks]
    rfl
  | runTask =>
    have checked := initializes (by rw [RenderLoop.next, tasks]; rfl)
    rw [GLPainting.toPaint, wp_bind, wp_get, tasks]
    rw [wp_bind, wp_modify, taskToPaint]
    refine wp_seq (sameCanvas_initializeDesktopGL.wp_and
      (initializeDesktopGL_spec h.calls h.stencilBits h.sampleCount checked)
      fun v safe _ => safe) fun _ v found => ?_
    obtain ⟨⟨safe, built, unbuilt⟩, canvas⟩ := found
    rw [wp, bookkeeping_run]
    have queues : NoInit v.state.canvas := by
      rw [canvas]
      refine ⟨once, fun member => ?_⟩
      rw [show (_ : SkiaCanvas.Canvas ρ).delayed = [] from h.delayed] at member
      cases member
    refine ⟨decide_eq_false (Nat.lt_irrefl _), .inr ⟨queues, built, fun off => ?_⟩, safe⟩
    exact (unbuilt off).trans h.grGLInterface
  | runDelayed n =>
    rw [GLPainting.toPaint, wp_bind, wp_get, h.delayed]
    exact wp_pure.mpr ⟨rfl, .inl h, safe⟩

end Steps

section Lives
variable {checks useDdl : Bool} {answers : Answers} {clock : Nat → Int} {l t : Life ρ}
  {a : RenderLoop.Action ρ}

/-- How far a step comes: to its frame or to its end, or into the frame and through it. -/
structure Stepped (l : Life ρ) (ending : Except Stop Bool × State ρ) (t : Life ρ) : Prop where
  world : Painted ending.2 t.world
  painting : ∀ w ∈ t.painting, w ∈ l.painting ∨ ending.1 = .ok true ∧ Painted ending.2 w
  reached : ending.1 = .ok true → ending.2 ∈ t.painting
  ended : t.stopped = false → ∃ paints, ending.1 = .ok paints ∧
    (paints = false → t.world = ending.2)

theorem mem_reached {p : Code ρ Bool} {w v : State ρ} :
    v ∈ reached checks answers p w ↔ p.run checks answers w = (.ok true, v) := by
  rw [reached]
  split
  · rename_i u ran
    rw [ran, List.mem_singleton, Prod.mk.injEq, and_iff_right rfl]
    exact eq_comm
  · rename_i other
    exact iff_of_false List.not_mem_nil fun ran => other v ran

theorem toSwap_reached {w v : State ρ}
    (swaps : (toSwap (.desktopGL useDdl) clock a).run checks answers w = (.ok true, v)) :
    ∃ u, (toPaint (.desktopGL useDdl) clock a).run checks answers w = (.ok true, u) ∧
      Painted u v := by
  obtain ⟨paints, u, first, rest⟩ := ok_of_bind swaps
  obtain ⟨_, x, frame, last⟩ := ok_of_bind rest
  obtain ⟨same, rfl⟩ := Prod.mk.inj last
  obtain rfl := Except.ok.inj same
  have painted := painted_frameToSwap useDdl checks answers u
  have framed : (frameToSwap (.desktopGL useDdl)).run checks answers u = (.ok (), x) := frame
  rw [framed] at painted
  exact ⟨u, first, painted⟩

theorem step_painted (checks useDdl : Bool) (answers : Answers) (clock : Nat → Int)
    (a : RenderLoop.Action ρ) (w : State ρ) :
    Painted ((toPaint (.desktopGL useDdl) clock a).run checks answers w).2
        ((CanvasBuilds.step (.desktopGL useDdl) clock a).run checks answers w).2 ∧
      (hasStopped ((CanvasBuilds.step (.desktopGL useDdl) clock a).run checks answers w).1 = false →
        ∃ paints, ((toPaint (.desktopGL useDdl) clock a).run checks answers w).1 = .ok paints ∧
          (paints = false →
            ((CanvasBuilds.step (.desktopGL useDdl) clock a).run checks answers w).2 =
              ((toPaint (.desktopGL useDdl) clock a).run checks answers w).2)) := by
  rw [step_eq (isAndroid_desktopGL useDdl), run_bind]
  generalize (toPaint (.desktopGL useDdl) clock a).run checks answers w = ending
  obtain ⟨result, v⟩ := ending
  cases result with
  | error stop =>
    refine ⟨refl_of Painted v, fun going => ?_⟩
    cases going
  | ok paints =>
    cases paints with
    | false => exact ⟨refl_of Painted v, fun _ => ⟨false, rfl, fun _ => rfl⟩⟩
    | true =>
      refine ⟨painted_paintFrame useDdl checks answers v, fun _ => ⟨true, rfl, fun off => ?_⟩⟩
      cases off

theorem step_stepped (moved : step checks answers (.desktopGL useDdl) clock l a = some t) :
    Stepped l ((toPaint (.desktopGL useDdl) clock a).run checks answers l.world) t := by
  obtain ⟨world, ended⟩ := step_painted checks useDdl answers clock a l.world
  obtain rfl := Option.some.inj moved
  refine ⟨world, fun w member => ?_, fun paints => ?_, ended⟩
  · rcases List.mem_append.mp member with earlier | atSwap
    · rcases List.mem_append.mp earlier with old | atPaint
      · exact .inl old
      · rw [mem_reached.mp atPaint]
        exact .inr ⟨rfl, refl_of Painted w⟩
    · obtain ⟨u, ran, painted⟩ := toSwap_reached (mem_reached.mp atSwap)
      rw [ran]
      exact .inr ⟨rfl, painted⟩
  · exact List.mem_append_left _ (List.mem_append_right _ (mem_reached.mpr (Prod.ext paints rfl)))

theorem Ran.painted {w v : State ρ} (h : Ran checks answers w) (painted : Painted w v) :
    Ran checks answers v := by
  refine ⟨?_, fun on => (h.built on).apart painted.toApart, fun off => ?_⟩
  · rw [painted.canvas]
    exact h.queues
  · exact (congrArg GLState.grGLInterface painted.glState).trans (h.unbuilt off)

theorem not_consistent {w : State ρ} (unbuilt : w.state.grGLInterface = 0) :
    ¬ Consistent answers w := by
  rintro ⟨config, sizes, built⟩
  exact built.grGLInterface unbuilt

structure Inv (checks : Bool) (answers : Answers) (l : Life ρ) : Prop where
  sane : Sane answers l
  phase : l.stopped = false → Waiting l.world ∨ Ran checks answers l.world

theorem toPaint_spec {w : State ρ} (phase : Waiting w ∨ Ran checks answers w)
    (safe : Safe answers w)
    (initializes : RenderLoop.next w.state.canvas a = some .initializeOnRenderThread →
      listed checks answers = true → checks = true) :
    wp checks answers (Safe answers) (toPaint (.desktopGL useDdl) clock a)
      (fun paints v => (paints = false ∧ Waiting v ∨ Ran checks answers v) ∧ Safe answers v) w := by
  rcases phase with waiting | ran
  · refine wp_mono (waiting.toPaint safe initializes) fun paints v found => ?_
    exact ⟨found.2.1.imp (fun waiting => ⟨found.1, waiting⟩) id, found.2.2⟩
  · exact wp_mono (ran.toPaint safe) fun paints v found => ⟨.inr found.1, found.2⟩

theorem Inv.spec (h : Inv checks answers l) (going : l.stopped = false)
    (ready : Ready checks answers useDdl clock l a) {ending : Except Stop Bool × State ρ}
    (ran : (toPaint (.desktopGL useDdl) clock a).run checks answers l.world = ending) :
    Safe answers ending.2 ∧ (ending.1 = .ok true → Consistent answers ending.2) ∧
      ∀ paints, ending.1 = .ok paints →
        (paints = false ∧ Waiting ending.2) ∨ Ran checks answers ending.2 := by
  have spec : wp checks answers (Safe answers) (toPaint (.desktopGL useDdl) clock a) _ l.world :=
    toPaint_spec (h.phase going) h.sane.configs ready.initializes
  rw [wp, ran] at spec
  obtain ⟨result, v⟩ := ending
  cases result with
  | error stop =>
    refine ⟨spec, fun same => ?_, fun _ same => ?_⟩
    · cases same
    · cases same
  | ok paints =>
    obtain ⟨phase, safe⟩ := spec
    refine ⟨safe, fun same => ?_, fun other same => ?_⟩
    · obtain rfl := Except.ok.inj same
      rcases phase with ⟨off, -⟩ | initialized
      · cases off
      · obtain ⟨on, told⟩ := ready.paints v (mem_reached.mpr ran)
        exact (initialized.built on).consistent told
    · obtain rfl := Except.ok.inj same
      exact phase

theorem Inv.step (h : Inv checks answers l) (ready : Ready checks answers useDdl clock l a)
    (moved : (machine checks answers useDdl clock).step l a = some t) : Inv checks answers t := by
  obtain ⟨going, moved⟩ := Machine.step_of_haltOn moved
  have stepped := step_stepped moved
  obtain ⟨safe, consistent, phase⟩ := h.spec going ready rfl
  refine ⟨⟨fun w member => ?_, safe.apart stepped.world.toApart⟩, fun alive => ?_⟩
  · rcases stepped.painting w member with old | ⟨paints, painted⟩
    · exact h.sane.painting w old
    · exact (consistent paints).apart painted.toApart
  · obtain ⟨paints, ended, unpainted⟩ := stepped.ended alive
    rcases phase paints ended with ⟨off, waiting⟩ | ran
    · rw [unpainted off]
      exact .inl waiting
    · exact .inr (ran.painted stepped.world)

theorem next_mem {c : SkiaCanvas.Canvas ρ} {task : RenderTask ρ}
    (due : RenderLoop.next c a = some task) : task ∈ c.tasks ∨ task ∈ c.delayed := by
  cases a with
  | onTouch action x y => cases due
  | runTask => exact .inl (List.mem_of_head? due)
  | runDelayed n => exact .inr (List.mem_of_getElem? due)

theorem toPaint_unchecked {w : State ρ} (h : Waiting w) (on : listed false answers = true) :
    .eglCreateContext none ∈
      ((toPaint (.desktopGL useDdl) clock .runTask).run false answers w).2.calls := by
  obtain ⟨rest, tasks, -⟩ := h.tasks
  let E (v : State ρ) : Prop := .eglCreateContext none ∈ v.calls
  show E ((toPaint (.desktopGL useDdl) clock .runTask).run false answers w).2
  refine wp_world.mp ?_
  rw [toPaint, wp_bind, wp_get, tasks]
  rw [wp_bind, wp_modify]
  refine wp_world.mpr ((calls_bind _ _ _).subset ?_)
  exact initializeDesktopGL_unchecked h.calls on

theorem not_safe_of_mem {w : State ρ} (used : .eglCreateContext none ∈ w.calls) :
    ¬ Safe answers w := by
  intro safe
  obtain ⟨before, after, split⟩ := List.append_of_mem used
  obtain ⟨chosen, sizes, same, -⟩ := safe before _ after split none rfl
  cases same

theorem Inv.unready (h : Inv checks answers l) (going : l.stopped = false)
    (initializes : RenderLoop.next l.world.state.canvas a = some .initializeOnRenderThread →
      listed checks answers = true → checks = true) {v : State ρ}
    (off : ¬ (listed checks answers = true ∧ Told answers v.calls))
    (ran : (toPaint (.desktopGL useDdl) clock a).run checks answers l.world = (.ok true, v)) :
    ¬ Consistent answers v := by
  obtain ⟨phase, -⟩ := of_wp (toPaint_spec (h.phase going) h.sane.configs initializes) ran
  rcases phase with ⟨unpainted, -⟩ | initialized
  · cases unpainted
  · cases on : listed checks answers with
    | false => exact not_consistent (initialized.unbuilt on)
    | true => exact ((initialized.built on).unset fun told => off ⟨on, told⟩).not_consistent

theorem Inv.unchecked (h : Inv false answers l) (going : l.stopped = false)
    (due : RenderLoop.next l.world.state.canvas a = some .initializeOnRenderThread)
    (on : listed false answers = true) :
    .eglCreateContext none ∈
      ((toPaint (.desktopGL useDdl) clock a).run false answers l.world).2.calls := by
  rcases h.phase going with waiting | initialized
  · cases a with
    | onTouch action x y => cases due
    | runTask => exact toPaint_unchecked waiting on
    | runDelayed n =>
      rw [RenderLoop.next, waiting.delayed] at due
      cases due
  · exact absurd (next_mem due) (not_or.mpr initialized.queues)

theorem Inv.breaks (h : Inv checks answers l) (unready : ¬ Ready checks answers useDdl clock l a)
    (moved : (machine checks answers useDdl clock).step l a = some t) : ¬ Sane answers t := by
  obtain ⟨going, moved⟩ := Machine.step_of_haltOn moved
  have stepped := step_stepped moved
  intro sane
  by_cases initializes : RenderLoop.next l.world.state.canvas a = some .initializeOnRenderThread →
      listed checks answers = true → checks = true
  · refine unready ⟨initializes, fun v member => ?_⟩
    have ran := mem_reached.mp member
    by_contra off
    refine h.unready going initializes off ran (sane.painting v ?_)
    have painted := stepped.reached (by rw [ran])
    rw [ran] at painted
    exact painted
  · push Not at initializes
    obtain ⟨due, on, unchecked⟩ := initializes
    obtain rfl := Bool.eq_false_iff.mpr unchecked
    obtain ⟨more, calls, -⟩ := stepped.world.calls
    refine not_safe_of_mem ?_ sane.configs
    rw [calls]
    exact List.mem_append_left _ (h.unchecked going due on)

def begun (nativeWindow width height : Int) (m : Members ρ) : Life ρ :=
  { world := ⟨started nativeWindow width height m, [.threadStart]⟩ }

theorem inv_begun (nativeWindow width height : Int) (m : Members ρ) :
    Inv checks answers (begun nativeWindow width height m) where
  sane := by
    refine ⟨fun w member => ?_, ?_⟩
    · cases member
    · exact safe_of_started rfl
  phase _ := .inl ⟨rfl, ⟨[], rfl, List.not_mem_nil⟩, rfl, rfl, rfl, rfl⟩

/-- Over every run painting finds a consistent canvas and only returned configs are used
exactly if for every task that paints `eglGetConfigs` has succeeded and EGL has told both
counts, and `eglGetConfigs` has not succeeded for an initialization without `DCHECK`s. -/
theorem painting_consistent_iff (checks : Bool) (answers : Answers) (useDdl : Bool)
    (clock : Nat → Int) (nativeWindow width height : Int) (m : Members ρ)
    (as : List (RenderLoop.Action ρ)) :
    (∀ l ∈ (machine checks answers useDdl clock).visited (begun nativeWindow width height m) as,
        Sane answers l) ↔
      ∀ p ∈ (machine checks answers useDdl clock).taken (begun nativeWindow width height m) as,
        Ready checks answers useDdl clock p.1 p.2 :=
  Machine.visited_iff_taken (fun _ (h : Inv checks answers _) => h.sane)
    (fun _ _ _ h ready moved => h.step ready moved)
    (fun _ _ _ h unready moved => h.breaks unready moved)
    (inv_begun nativeWindow width height m) as

def unlisted : Answers := fun _ c => if c = .eglGetConfigs 1 then ⟨0, 0⟩ else ⟨1, 1⟩

theorem painting_not_consistent :
    ¬ ∀ l ∈ (machine true unlisted false fun _ => 0).visited (begun 1 800 600 {})
      [.runTask, .onTouch 0 (3 : Int) 4, .runTask], Sane unlisted l := by
  intro sane
  have painted : ∃ l ∈ (machine true unlisted false fun _ => 0).visited (begun 1 800 600 {})
      [.runTask, .onTouch 0 (3 : Int) 4, .runTask],
      ∃ w ∈ l.painting, w.state.grGLInterface = 0 := by
    decide
  obtain ⟨l, member, w, paints, unbuilt⟩ := painted
  exact not_consistent unbuilt ((sane l member).painting w paints)

end Lives

end ChromiumDemo.GLPainting
