import ChromiumDemo.GLPainting

/-! The canvases over the platform and the render loop they share. A life of any of the
four classes is a run of the loop, as far as it gets, and hands over one frame for each
that the loop paints and at most one more, which its initialization makes. -/

namespace ChromiumDemo.CanvasRefinement
open CheckedProgram CanvasBuilds GLInitialization GLPainting TransitionSystem
open SkiaCanvas (Canvas RenderTask Version paints)
open RenderLoop (Action)

variable {ρ : Type}

def endsPaint : Call → Bool
  | .presenterEndPaint _ _ => true
  | _ => false

def swaps : Call → Bool
  | .eglSwapBuffers _ => true
  | _ => false

def presents : Kind → Call → Bool
  | .desktopSoftware _ => endsPaint
  | .androidSoftware => (· == .aNativeWindowUnlockAndPost)
  | .desktopGL _ | .androidGL _ => swaps

def presented (kind : Kind) (w : World (Members ρ) Call) : Nat := w.calls.countP (presents kind)

/-- A part that hands `lo` to `hi` frames over and leaves the canvas of the loop alone. -/
def Presents (f : Call → Bool) (lo hi : Nat) {α : Type} (p : Code ρ α) : Prop :=
  Makes f Members.canvas lo hi p

section Parts
variable {f : Call → Bool}

theorem presents_call {c : Call} (other : f c = false) :
    Presents f 0 0 (call c : Code ρ Int) :=
  .after (.ask_other other) fun _ => .done _

theorem presents_frame {c : Call} (frame : f c = true) :
    Presents f 1 1 (call c : Code ρ Int) :=
  .before (.ask frame) fun _ => .done _

theorem presents_deref (pointer : Int) : Presents f 0 0 (deref pointer : Code ρ Unit) :=
  .ite .crash (.done _)

theorem presents_checkMembers (condition : Members ρ → Bool) :
    Presents f 0 0 (checkMembers condition) :=
  .check (.after .get fun _ => .done _)

theorem presents_checked {c : Call} (test : Int → Bool) (other : f c = false) :
    Presents f 0 0 (check (do
      let result ← call c
      pure (test result)) : Code ρ Unit) :=
  .check (.after (presents_call other) fun _ => .done _)

theorem presents_aTrace (kind : Kind) (symbol : TraceSymbol) :
    Presents (presents kind) 0 0 (aTrace kind symbol : Code ρ Unit) := by
  have other : presents kind (.aTrace symbol) = false := by cases kind <;> rfl
  have called : Presents (presents kind) 0 0 (do
      let _ ← call (.aTrace symbol) : Code ρ Unit) :=
    .after (presents_call other) fun _ => .done _
  exact .onlyIf <| .after .get fun _ => .ite called .crash

theorem presents_recorded (skSurface : Int) :
    Presents swaps 0 0 (do
      deref skSurface
      let result ← call .characterize
      check (.done (result != 0))
      modify fun m : Members ρ => { m with recorder := true } : Code ρ Unit) := by
  refine .after (presents_deref skSurface) fun _ => ?_
  refine .after (presents_call rfl) fun result => ?_
  refine .after (.check (.done (result != 0))) fun _ => ?_
  exact .modify fun _ => rfl

theorem presents_beginPaintGL (useDdl : Bool) :
    Presents swaps 0 0 (beginPaintGL useDdl : Code ρ Int) := by
  refine .after (presents_checkMembers _) fun _ => ?_
  refine .after (presents_checkMembers _) fun _ => ?_
  refine .after .get fun m => ?_
  refine .after (presents_deref m.grGLInterface) fun _ => ?_
  refine .after (presents_call rfl) fun _ => ?_
  refine .after (presents_call rfl) fun skSurface => ?_
  refine .after (.modify fun _ => rfl) fun _ => ?_
  refine .after (.onlyIf (presents_recorded skSurface)) fun _ => ?_
  refine .after (presents_deref skSurface) fun _ => ?_
  exact .done skSurface

theorem presents_beginPaint (kind : Kind) :
    Presents (presents kind) 0 0 (beginPaint kind : Code ρ Int) := by
  cases kind with
  | desktopSoftware presenter =>
    cases presenter with
    | x11 | windows =>
      refine .after .get fun _ => ?_
      exact .after (presents_call rfl) fun _ => presents_call rfl
    | none => exact .done 0
  | androidSoftware =>
    refine .after (presents_checked _ rfl) fun _ => ?_
    refine .after .get fun m => ?_
    refine .after (presents_call rfl) fun skSurface => ?_
    refine .after (.modify fun _ => rfl) fun _ => ?_
    exact .after (presents_deref skSurface) fun _ => .done skSurface
  | desktopGL useDdl | androidGL useDdl => exact presents_beginPaintGL useDdl

theorem presents_swapBuffer_gl (useDdl : Bool) :
    Presents swaps 1 1 (swapBuffer (.desktopGL useDdl) : Code ρ Unit) :=
  .after (presents_checkMembers _) fun _ => .after (presents_checkMembers _) fun _ =>
    .after .get fun _ => .before (presents_frame rfl) fun _ => .done _

theorem presents_onPaint_software {presenter : Presenter} (made : presenter ≠ .none) :
    Presents endsPaint 1 1 (onPaint (.desktopSoftware presenter) : Code ρ Unit) := by
  rw [onPaint, onlyIf, if_pos made]
  exact .after .get fun _ => .before (presents_frame rfl) fun _ => .done _

theorem presents_swapBuffer_software (presenter : Presenter) :
    Presents endsPaint 0 0 (swapBuffer (.desktopSoftware presenter) : Code ρ Unit) :=
  .onlyIf (.after (presents_call rfl) fun _ => .done _)

theorem presents_onPaint_other {kind : Kind}
    (other : ∀ presenter, kind ≠ .desktopSoftware presenter) :
    Presents (presents kind) 0 0 (onPaint kind : Code ρ Unit) := by
  cases kind with
  | desktopSoftware presenter => exact absurd rfl (other presenter)
  | androidSoftware =>
    exact .after .get fun m => .after (presents_deref _) fun _ => .after (presents_call rfl)
      fun _ => .done _
  | desktopGL useDdl | androidGL useDdl =>
    have drawn : Presents swaps 0 0 (drawList : Code ρ Unit) := presents_checked _ rfl
    exact .after (.onlyIf drawn) fun _ => .after .get fun m => .after (presents_deref _) fun _ =>
      .after (presents_call rfl) fun _ => .done _

theorem presents_swapBuffer_other {kind : Kind}
    (other : ∀ presenter, kind ≠ .desktopSoftware presenter) :
    Presents (presents kind) 1 1 (swapBuffer kind : Code ρ Unit) := by
  cases kind with
  | desktopSoftware presenter => exact absurd rfl (other presenter)
  | androidSoftware => exact .before (presents_frame rfl) fun _ => .done _
  | desktopGL useDdl | androidGL useDdl => exact presents_swapBuffer_gl useDdl

theorem presents_paintFrame (kind : Kind) :
    Presents (presents kind) 1 1 (paintFrame kind : Code ρ Unit) := by
  by_cases bare : kind = .desktopSoftware .none
  · -- there is no canvas to clear
    subst bare
    have crashes : (paintFrame (.desktopSoftware .none) : Code ρ Unit) = .crash := rfl
    rw [crashes]
    exact .crash
  refine .after (presents_aTrace kind _) fun _ => ?_
  refine .after (presents_beginPaint kind) fun canvas => ?_
  refine .after (presents_deref canvas) fun _ => ?_
  by_cases software : ∃ presenter, kind = .desktopSoftware presenter
  · obtain ⟨presenter, rfl⟩ := software
    have made : presenter ≠ .none := fun same => bare (by rw [same])
    refine .before (presents_onPaint_software made) fun _ => ?_
    refine .after (presents_aTrace (.desktopSoftware presenter) _) fun _ => ?_
    refine .after (presents_aTrace (.desktopSoftware presenter) _) fun _ => ?_
    refine .after (presents_swapBuffer_software presenter) fun _ => ?_
    exact presents_aTrace (.desktopSoftware presenter) _
  · have other : ∀ presenter, kind ≠ .desktopSoftware presenter := fun presenter same =>
      software ⟨presenter, same⟩
    refine .after (presents_onPaint_other other) fun _ => ?_
    refine .after (presents_aTrace kind _) fun _ => ?_
    refine .after (presents_aTrace kind _) fun _ => ?_
    refine .before (presents_swapBuffer_other other) fun _ => ?_
    exact presents_aTrace kind _

theorem presents_makeGr : Presents swaps 0 0 (makeGr : Code ρ Unit) := by
  refine .after (presents_call rfl) fun grGLInterface => ?_
  refine .after (.modify fun _ => rfl) fun _ => ?_
  refine .after (presents_checkMembers _) fun _ => ?_
  refine .after (presents_call rfl) fun grContext => ?_
  refine .after (.modify fun _ => rfl) fun _ => ?_
  exact presents_checkMembers _

theorem presents_clear (getFloats : Bool) (m : Members ρ) :
    Presents swaps 0 0 (clear getFloats m) := by
  refine .after (presents_checked _ rfl) fun _ => ?_
  refine .after (presents_call rfl) fun _ => ?_
  refine .after (presents_call rfl) fun _ => ?_
  refine .after (presents_call rfl) fun _ => ?_
  exact .onlyIf <| .after (presents_call rfl) fun _ => .done _

theorem presents_readAttribs (surfaceConfig : Option EGLConfig) :
    Presents swaps 0 0 (readAttribs surfaceConfig : Code ρ Unit) := by
  refine .after (.ask_other rfl) fun stencil => ?_
  refine .after (.modify fun _ => rfl) fun _ => ?_
  refine .after (.ask_other rfl) fun samples => ?_
  exact .modify fun _ => rfl

theorem presents_makeCurrent (surfaceConfig : Option EGLConfig) (getFloats : Bool) :
    Presents swaps 1 1 (makeCurrent surfaceConfig getFloats : Code ρ Unit) := by
  have swapped (m : Members ρ) : Presents swaps 1 1 (swapOnce m) :=
    .after (presents_call rfl) fun _ => .before (presents_frame rfl) fun _ => .done _
  rw [makeCurrent_eq]
  refine .after .get fun m => ?_
  refine .after (presents_clear getFloats m) fun _ => ?_
  refine .after (presents_readAttribs surfaceConfig) fun _ => ?_
  exact .before (swapped m) fun _ => presents_makeGr

theorem presents_bindAPI : Presents swaps 0 0 (bindAPI : Code ρ Unit) :=
  .after (presents_call rfl) fun _ => .after (.modify fun _ => rfl) fun _ =>
    .after (presents_call rfl) fun _ => presents_checked _ rfl

theorem presents_chooseConfig (attempt : Nat) (choice : Choice) :
    Presents swaps 0 0 (chooseConfig attempt choice : Code ρ Choice) :=
  .checkOut (.after (.ask_other rfl) fun _ => .done _)

theorem presents_chooseRound (attempt : Nat) (choice : Choice) :
    Presents swaps 0 0 (chooseRound attempt choice : Code ρ Choice) :=
  .after (presents_chooseConfig attempt choice) fun _ =>
    .ite (.after (.modify fun _ => rfl) fun _ => .done _) (.done _)

theorem presents_createSurface (configs : List (Option EGLConfig)) (config : Option EGLConfig) :
    Presents swaps 0 0 (createSurface configs config : Code ρ (Option EGLConfig)) := by
  induction configs generalizing config with
  | nil => exact .done config
  | cons surfaceConfig rest ih =>
    have printed : Presents swaps 0 0 (printEGLConfig surfaceConfig : Code ρ Unit) :=
      .forM (fun _ => .after (presents_call rfl) fun _ => .done _) printedAttribs
    exact .after printed fun _ => .after (presents_call rfl) fun _ =>
      .after (.modify fun _ => rfl) fun _ => .ite (.done _) (ih surfaceConfig)

theorem presents_createContext (surfaceConfig : Option EGLConfig) :
    Presents swaps 0 0 (createContext surfaceConfig : Code ρ Unit) :=
  .after (presents_call rfl) fun _ => .after (.modify fun _ => rfl) fun _ =>
    presents_checkMembers _

theorem presents_initializeDesktopGL : Presents swaps 0 1 (initializeDesktopGL : Code ρ Unit) := by
  have set : Presents swaps 0 1 (do
      modify fun m : Members ρ => { m with colorFormat := .rgba8 }
      let choice ← chooseRound 0 { surfaceConfigs := List.replicate 5 none }
      let choice ← chooseRound 1 choice
      check (.done (0 < choice.numConfigs))
      let surfaceConfig ← createSurface (choice.surfaceConfigs.take choice.numConfigs) none
      checkMembers fun m => m.surface != 0
      createContext surfaceConfig
      makeCurrent surfaceConfig true : Code ρ Unit) :=
    .after (.modify fun _ => rfl) fun _ => .after (presents_chooseRound 0 _) fun _ =>
      .after (presents_chooseRound 1 _) fun _ => .after (.check (.done _)) fun _ =>
        .after (presents_createSurface _ _) fun _ => .after (presents_checkMembers _) fun _ =>
          .after (presents_createContext _) fun _ =>
            (presents_makeCurrent _ true).weaken (Nat.zero_le 1) le_rfl
  exact .after presents_bindAPI fun _ => .after (presents_call rfl) fun _ =>
    .after (presents_call rfl) fun _ =>
      .after (.checkOut (.after (.ask_other rfl) fun _ => .done _)) fun _ =>
        .after (presents_call rfl) fun _ =>
          .ite ((Makes.done ()).weaken le_rfl (Nat.zero_le 1)) set

theorem presents_initializeAndroidGL : Presents swaps 1 1 (initializeAndroidGL : Code ρ Unit) :=
  .after presents_bindAPI fun _ => .after (presents_chooseConfig 0 _) fun _ =>
    .after (.check (.done _)) fun _ => .after (presents_createContext _) fun _ =>
      .after (presents_call rfl) fun _ => .after (.modify fun _ => rfl) fun _ =>
        .after (presents_checkMembers _) fun _ => presents_makeCurrent _ false

def first : Kind → Nat
  | .desktopGL _ => 0
  | _ => 1

theorem presents_initializeOnRenderThread (kind : Kind) :
    Presents (presents kind) (first kind) 1 (initializeOnRenderThread kind : Code ρ Unit) := by
  cases kind with
  | desktopSoftware presenter =>
    by_cases bare : presenter = .none
    · subst bare
      have crashes : (initializeOnRenderThread (.desktopSoftware .none) : Code ρ Unit) =
          .crash := rfl
      rw [crashes]
      exact .crash
    · refine .after (.onlyIf <| .after (presents_call rfl) fun _ => .done _) fun _ => ?_
      refine .after (presents_beginPaint (.desktopSoftware presenter)) fun canvas => ?_
      refine .after (presents_deref canvas) fun _ => ?_
      refine .before (presents_onPaint_software bare) fun _ => ?_
      exact presents_swapBuffer_software presenter
  | androidSoftware =>
    refine .after .get fun m => ?_
    refine .after (presents_call rfl) fun _ => ?_
    refine .after (presents_beginPaint .androidSoftware) fun canvas => ?_
    refine .after (presents_deref canvas) fun _ => ?_
    exact .before (presents_frame rfl) fun _ => .done _
  | desktopGL useDdl => exact presents_initializeDesktopGL
  | androidGL useDdl => exact presents_initializeAndroidGL

end Parts

section Loop
variable {clock : Nat → Int} {v : Version} {c : Canvas ρ}

theorem paints_onRender {d : Canvas ρ} (same : paints d = paints c) :
    paints c ≤ paints (SkiaCanvas.onRenderOnRenderThread clock d) ∧
      paints (SkiaCanvas.onRenderOnRenderThread clock d) ≤ paints c + 1 := by
  rw [SkiaCanvas.onRender_paints, same]
  split <;> omega

theorem paints_run (clock : Nat → Int) (v : Version) (task : RenderTask ρ) (c : Canvas ρ) :
    paints c ≤ paints (SkiaCanvas.run v clock task c) ∧
      paints (SkiaCanvas.run v clock task c) ≤ paints c + 1 := by
  cases task with
  | initializeOnRenderThread | showInfo | flushTrace => exact ⟨le_rfl, Nat.le_succ _⟩
  | render => exact paints_onRender rfl
  | touch action x y =>
    by_cases down : action = 0
    · subst down
      rw [SkiaCanvas.run, SkiaCanvas.onTouchOnRenderThread, if_pos rfl, SkiaCanvas.setNeedsRedraw]
      split
      · rw [if_pos rfl]
        exact paints_onRender rfl
      · exact ⟨le_rfl, Nat.le_succ _⟩
    · have same := (SkiaCanvas.onTouch_other clock c v down x y).2.2.2.2
      rw [SkiaCanvas.run, same]
      exact ⟨le_rfl, Nat.le_succ _⟩

end Loop

/-- The canvas of the loop is `c`, and the frames handed over are those that it paints and
one of the initialization. -/
structure Refines (kind : Kind) (c : Canvas ρ) (w : World (Members ρ) Call) : Prop where
  canvas : w.state.canvas = c
  waiting : .initializeOnRenderThread ∈ c.tasks → presented kind w = 0
  least : .initializeOnRenderThread ∉ c.tasks → paints c + first kind ≤ presented kind w
  most : presented kind w ≤ paints c + 1

def Phase (c : Canvas ρ) : Prop :=
  (paints c = 0 ∧ c.delayed = [] ∧ ∃ rest, c.tasks = .initializeOnRenderThread :: rest ∧
    .initializeOnRenderThread ∉ rest) ∨ NoInit c

section Steps
variable {kind : Kind} {clock : Nat → Int} {c : Canvas ρ} {w : World (Members ρ) Call}
  {checks : Bool} {answers : List Call → Call → Answer}

theorem runTask_spec {lo hi : Nat} {task : RenderTask ρ}
    (entered : Presents (presents kind) lo hi (enterTask kind task : Code ρ Unit))
    {d : Canvas ρ} (after : SkiaCanvas.run kind.version clock task w.state.canvas = d) :
    wp checks answers
      (fun v => presented kind v ≤ presented kind w + hi + (paints d - paints w.state.canvas))
      (runTask kind clock task)
      (fun _ v => v.state.canvas = d ∧
        presented kind w + lo + (paints d - paints w.state.canvas) ≤ presented kind v ∧
        presented kind v ≤ presented kind w + hi + (paints d - paints w.state.canvas)) w := by
  have frame : Presents (presents kind) (paints d - paints w.state.canvas)
      (paints d - paints w.state.canvas)
      (onlyIf (paints w.state.canvas < paints d) (paintFrame kind) : Code ρ Unit) := by
    have bounds := paints_run clock kind.version task w.state.canvas
    rw [after] at bounds
    rw [onlyIf]
    split
    next more =>
      rw [show paints d - paints w.state.canvas = 1 by omega]
      exact presents_paintFrame kind
    next none =>
      rw [show paints d - paints w.state.canvas = 0 by omega]
      exact .done ()
  have traced (symbol : TraceSymbol) : Presents (presents kind) 0 0
      (onlyIf (SkiaCanvas.renders w.state.canvas < SkiaCanvas.renders d) (aTrace kind symbol) :
        Code ρ Unit) :=
    .onlyIf (presents_aTrace kind symbol)
  have left : Presents (presents kind) 0 0 (leaveTask kind task : Code ρ Unit) := by
    cases task with
    | touch => exact presents_aTrace kind _
    | initializeOnRenderThread | render | showInfo | flushTrace => exact .done ()
  have rest := (traced .beginSection).after fun _ => frame.before fun _ =>
    (traced .endSection).after fun _ => left
  rw [runTask]
  refine wp_seq (wp_imp (entered checks answers w) (fun v made => ?_) fun _ _ made => made)
    fun _ u made => ?_
  · have := made.most
    unfold presented
    omega
  · rw [wp_bind, wp_get, made.state, after, wp_bind, wp_modify]
    refine wp_imp (rest checks answers _) (fun v more => ?_) fun _ v more => ⟨more.state, ?_⟩
    · have := made.most
      have : presented kind v ≤ presented kind u + _ := more.most
      unfold presented at *
      omega
    · have := made.least
      have := made.most
      have : presented kind u + _ ≤ presented kind v := more.least
      have : presented kind v ≤ presented kind u + _ := more.most
      unfold presented at *
      omega

theorem runTask_refines {task : RenderTask ρ} (queues : NoInit w.state.canvas)
    (fresh : task = .initializeOnRenderThread →
      presented kind w = 0 ∧ paints w.state.canvas = 0)
    (usual : task ≠ .initializeOnRenderThread →
      paints w.state.canvas + first kind ≤ presented kind w ∧
        presented kind w ≤ paints w.state.canvas + 1)
    {d : Canvas ρ} (after : SkiaCanvas.run kind.version clock task w.state.canvas = d) :
    wp checks answers (fun v => presented kind v ≤ paints d + 1) (runTask kind clock task)
      (fun _ v => Refines kind d v) w := by
  have bounds := paints_run clock kind.version task w.state.canvas
  have once : .initializeOnRenderThread ∉ d.tasks := by
    rw [← after]
    exact (noInit_run queues).1
  rw [after] at bounds
  by_cases initializes : task = .initializeOnRenderThread
  · obtain ⟨none, unpainted⟩ := fresh initializes
    subst initializes
    refine wp_imp (runTask_spec (presents_initializeOnRenderThread kind) after)
      (fun v most => by omega) fun _ v shown => ?_
    obtain ⟨canvas, least, most⟩ := shown
    exact ⟨canvas, fun waits => absurd waits once, fun _ => by omega, by omega⟩
  · obtain ⟨least, most⟩ := usual initializes
    have entered : Presents (presents kind) 0 0 (enterTask kind task : Code ρ Unit) := by
      cases task with
      | initializeOnRenderThread => exact absurd rfl initializes
      | touch => exact presents_aTrace kind _
      | render | showInfo | flushTrace => exact .done ()
    refine wp_imp (runTask_spec entered after) (fun v most => by omega) fun _ v shown => ?_
    obtain ⟨canvas, more, fewer⟩ := shown
    exact ⟨canvas, fun waits => absurd waits once, fun _ => by omega, by omega⟩

theorem postTask_spec {task : RenderTask ρ} {Q : Unit → World (Members ρ) Call → Prop}
    {E : World (Members ρ) Call → Prop} (stops : E w)
    (ends : Q () { w with state := { w.state with
      canvas.tasks := w.state.canvas.tasks ++ [task] } }) :
    wp checks answers E (postTask task) Q w := by
  rw [postTask, wp_bind, wp_get, wp_ite, wp_modify, wp_crash]
  split
  · exact ends
  · exact stops

def popped (c : Canvas ρ) : Action ρ → Canvas ρ
  | .onTouch _ _ _ => c
  | .runTask => { c with tasks := c.tasks.tail }
  | .runDelayed n => { c with delayed := c.delayed.eraseIdx n }

theorem next_of_due {v : Version} {a : Action ρ} {task : RenderTask ρ}
    (due : RenderLoop.next c a = some task) :
    (RenderLoop.machine v clock).next c a = SkiaCanvas.run v clock task (popped c a) := by
  refine Machine.next_of_some ?_
  cases a with
  | onTouch action x y => cases due
  | runTask | runDelayed n =>
    show (RenderLoop.next c _).map _ = _
    rw [due]
    rfl

theorem next_of_idle {v : Version} {a : Action ρ} (idle : RenderLoop.next c a = none)
    (untouched : ∀ action x y, a ≠ .onTouch action x y) :
    (RenderLoop.machine v clock).next c a = c := by
  refine Machine.next_of_none ?_
  cases a with
  | onTouch action x y => exact absurd rfl (untouched action x y)
  | runTask | runDelayed n =>
    show (RenderLoop.next c _).map _ = _
    rw [idle]
    rfl

theorem Phase.popped {a : Action ρ} {task : RenderTask ρ} (phase : Phase c)
    (due : RenderLoop.next c a = some task) :
    NoInit (popped c a) ∧
      (task = .initializeOnRenderThread →
        paints c = 0 ∧ .initializeOnRenderThread ∈ c.tasks) ∧
      (task ≠ .initializeOnRenderThread → .initializeOnRenderThread ∉ c.tasks) := by
  rcases phase with ⟨unpainted, delayed, rest, tasks, once⟩ | ran
  · cases a with
    | onTouch action x y => cases due
    | runTask =>
      have first : task = .initializeOnRenderThread := by
        rw [RenderLoop.next, tasks] at due
        exact (Option.some.inj due).symm
      refine ⟨⟨?_, ?_⟩, fun _ => ⟨unpainted, ?_⟩, fun other => absurd first other⟩
      · simpa [CanvasRefinement.popped, tasks] using once
      · simp [CanvasRefinement.popped, delayed]
      · simp [tasks]
    | runDelayed n =>
      rw [RenderLoop.next, delayed] at due
      cases due
  · have other : task ≠ .initializeOnRenderThread := by
      rintro rfl
      exact absurd (next_mem due) (not_or.mpr ran)
    refine ⟨⟨?_, ?_⟩, fun same => absurd same other, fun _ => ran.1⟩
    · cases a with
      | onTouch | runDelayed => exact ran.1
      | runTask => exact fun member => ran.1 (List.mem_of_mem_tail member)
    · cases a with
      | onTouch | runTask => exact ran.2
      | runDelayed n => exact fun member => ran.2 (List.mem_of_mem_eraseIdx member)

theorem Phase.next (v : Version) (phase : Phase c) (a : Action ρ) :
    Phase ((RenderLoop.machine v clock).next c a) := by
  cases due : RenderLoop.next c a with
  | some task =>
    rw [next_of_due due]
    exact .inr (noInit_run (phase.popped due).1)
  | none =>
    cases a with
    | onTouch action x y =>
      rcases phase with ⟨unpainted, delayed, rest, tasks, once⟩ | ran
      · refine .inl ⟨unpainted, delayed, rest ++ [.touch action x y], ?_, ?_⟩
        · show c.tasks ++ _ = _
          rw [tasks]
          rfl
        · exact not_mem_posted once (by simp)
      · exact .inr ⟨not_mem_posted ran.1 (by simp), ran.2⟩
    | runTask | runDelayed =>
      rw [next_of_idle due (by simp)]
      exact phase

theorem Refines.runTask (h : Refines kind c w) (phase : Phase c) {a : Action ρ}
    {task : RenderTask ρ} (due : RenderLoop.next c a = some task)
    {u : World (Members ρ) Call} (canvas : u.state.canvas = popped c a)
    (calls : u.calls = w.calls) :
    wp checks answers
      (fun v => presented kind v ≤ paints ((RenderLoop.machine kind.version clock).next c a) + 1)
      (CanvasBuilds.runTask kind clock task)
      (fun _ v => Refines kind ((RenderLoop.machine kind.version clock).next c a) v) u := by
  obtain ⟨queues, fresh, usual⟩ := phase.popped due
  have painted : paints (popped c a) = paints c := by cases a <;> rfl
  have shown : presented kind u = presented kind w := by rw [presented, calls, presented]
  refine runTask_refines ?_ (fun first => ?_) (fun other => ?_) ?_
  · rw [canvas]
    exact queues
  · rw [canvas, painted, shown]
    exact ⟨h.waiting (fresh first).2, (fresh first).1⟩
  · rw [canvas, painted, shown]
    exact ⟨h.least (usual other), h.most⟩
  · rw [canvas, next_of_due due]

theorem Refines.quiet (h : Refines kind c w) {v : World (Members ρ) Call}
    (made : Made (presents kind) Members.canvas 0 0 w v) : Refines kind c v := by
  have same : presented kind v = presented kind w := le_antisymm made.most made.least
  exact ⟨made.state.trans h.canvas, fun waits => same.trans (h.waiting waits),
    fun ran => same ▸ h.least ran, same ▸ h.most⟩

theorem Refines.posted (h : Refines kind c w) (action : Int) (x y : ρ) :
    Refines kind (SkiaCanvas.onTouch action x y c) { w with state := { w.state with
      canvas.tasks := w.state.canvas.tasks ++ [.touch action x y] } } := by
  refine ⟨?_, fun waits => ?_, fun ran => ?_, h.most⟩
  · simp only [h.canvas]
    rfl
  · have waited : .initializeOnRenderThread ∈ c.tasks := by
      simpa [SkiaCanvas.onTouch] using waits
    exact h.waiting waited
  · have absent : .initializeOnRenderThread ∉ c.tasks := by
      simpa [SkiaCanvas.onTouch] using ran
    exact h.least absent

theorem Refines.onTouch (h : Refines kind c w) (action : Int) (x y : ρ) :
    wp checks answers
      (fun v => presented kind v ≤
        paints ((RenderLoop.machine kind.version clock).next c (.onTouch action x y)) + 1)
      (onTouch kind action x y)
      (fun _ v => Refines kind
        ((RenderLoop.machine kind.version clock).next c (.onTouch action x y)) v) w := by
  have arrived : (RenderLoop.machine kind.version clock).next c (.onTouch action x y) =
    SkiaCanvas.onTouch action x y c := rfl
  rw [arrived]
  refine wp_seq (wp_imp (presents_aTrace kind .beginSection checks answers w)
    (fun v made => made.most.trans h.most) fun _ _ made => made) fun _ u made => ?_
  have entered := h.quiet made
  have posts : wp checks answers (fun v => presented kind v ≤ paints c + 1)
      (postTask (.touch action x y))
      (fun _ v => Refines kind (SkiaCanvas.onTouch action x y c) v) u :=
    postTask_spec entered.most (entered.posted action x y)
  refine wp_seq posts fun _ v posted => ?_
  exact wp_imp (presents_aTrace kind .endSection checks answers v)
    (fun t made => made.most.trans posted.most) fun _ t made => posted.quiet made

theorem Refines.step (h : Refines kind c w) (phase : Phase c) (a : Action ρ) :
    wp checks answers
      (fun v => presented kind v ≤ paints ((RenderLoop.machine kind.version clock).next c a) + 1)
      (CanvasBuilds.step kind clock a)
      (fun _ v => Refines kind ((RenderLoop.machine kind.version clock).next c a) v) w := by
  cases a with
  | onTouch action x y => exact h.onTouch action x y
  | runTask =>
    rw [CanvasBuilds.step, wp_bind, wp_get, h.canvas]
    cases tasks : c.tasks with
    | nil =>
      have idle : RenderLoop.next c .runTask = none := by
        rw [RenderLoop.next, tasks]
        rfl
      rw [next_of_idle idle (by simp)]
      exact h
    | cons task rest =>
      have due : RenderLoop.next c .runTask = some task := by
        rw [RenderLoop.next, tasks]
        rfl
      rw [wp_bind, wp_modify]
      refine h.runTask phase due ?_ rfl
      simp only [h.canvas, popped, tasks, List.tail_cons]
  | runDelayed n =>
    rw [CanvasBuilds.step, wp_bind, wp_get, h.canvas]
    cases delayed : c.delayed[n]? with
    | none =>
      have idle : RenderLoop.next c (.runDelayed n) = none := delayed
      rw [next_of_idle idle (by simp)]
      exact h
    | some task =>
      have due : RenderLoop.next c (.runDelayed n) = some task := delayed
      rw [wp_bind, wp_modify]
      refine h.runTask phase due ?_ rfl
      simp only [h.canvas, popped]

end Steps

end ChromiumDemo.CanvasRefinement
