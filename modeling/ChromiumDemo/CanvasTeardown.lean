import ChromiumDemo.SkiaCanvas
import ChromiumDemo.TransitionSystem

/-! The destruction of a `SkiaCanvas` of demo_skia while its render thread runs.
A task body is the list of members it reads or writes and of virtual functions
it calls, executed one by one; the owner's thread destroys the object one stage
at a time: the destructor body and the members of the subclass, then, the object
being a plain `SkiaCanvas` from there on, the members of the base in the reverse
of their declaration. `~Thread` posts a quit task and waits until it has run. -/

namespace ChromiumDemo.CanvasTeardown
open TransitionSystem SkiaCanvas

variable {ρ D : Type*}

inductive BaseMember
  | nativeWindow | width | height | renderThread | renderTaskRunner
  | skSurface | pathPaint | circlePaint | skPath | strokeWidth | background | tag
  | needRedraw | isDrawing
  | totalFrameTime | lastFrameTime | frameCount | totalPaintTime | totalSwapTime
  | touchCount | touchStartTime | totalTouchTime
  | timer | renderClosure | weakFactory
deriving DecidableEq

def BaseMember.declared : List BaseMember :=
  [.nativeWindow, .width, .height, .renderThread, .renderTaskRunner,
    .skSurface, .pathPaint, .circlePaint, .skPath, .strokeWidth, .background, .tag,
    .needRedraw, .isDrawing,
    .totalFrameTime, .lastFrameTime, .frameCount, .totalPaintTime, .totalSwapTime,
    .touchCount, .touchStartTime, .totalTouchTime,
    .timer, .renderClosure, .weakFactory]

inductive Member (D : Type*)
  | base (m : BaseMember)
  | derived (m : D)
deriving DecidableEq

inductive Virtual
  | initializeOnRenderThread
  | beginPaint
  | onPaint
  | swapBuffer
deriving DecidableEq

inductive Access (D : Type*)
  | member (m : Member D)
  | call (f : Virtual)

/-- The members of a subclass as declared and the bodies of its overrides. -/
structure Subclass (D : Type*) where
  members : List D
  body : Virtual → List (Access D)

def baseBody : Virtual → Option (List (Access D))
  | .initializeOnRenderThread => some []
  | .onPaint => some []
  | .beginPaint => none
  | .swapBuffer => none

inductive Task (ρ : Type*)
  | canvas (t : RenderTask ρ)
  | quit

inductive Stage (D : Type*)
  | destructorBody
  | baseClass
  | member (m : Member D)

inductive ThreadState
  | running
  | stopping
  | stopped
deriving DecidableEq

/-- `queue` stands for the tasks posted without a delay. `started` and
`continued` count the task bodies begun, and their steps made, while the object
is being destroyed; `dangling` lists the destroyed members they used. -/
structure World (ρ D : Type*) where
  canvas : Canvas ρ := {}
  queue : List (Task ρ) := [.canvas .initializeOnRenderThread]
  current : Option (List (Access D)) := none
  thread : ThreadState := .running
  dying : Option (List (Stage D)) := none
  derived : Bool := true
  destroyed : List (Member D) := []
  started : Nat := 0
  continued : Nat := 0
  dangling : List (Member D) := []
  pureVirtualCall : Bool := false

def World.isDying (w : World ρ D) : Bool := w.dying.isSome

def uses (ms : List BaseMember) : List (Access D) := ms.map fun m => .member (.base m)

def renderAccesses (c : Canvas ρ) : List (Access D) :=
  if !c.needRedraw then uses [.needRedraw, .isDrawing, .frameCount]
  else
    uses [.needRedraw, .isDrawing, .renderTaskRunner, .renderClosure, .frameCount] ++
    uses (if 0 < c.frameCount then [.totalFrameTime, .lastFrameTime] else []) ++
    uses [.frameCount, .lastFrameTime] ++
    [.call .beginPaint] ++ uses [.background, .skPath, .pathPaint, .skPath] ++
    uses (c.skPath.flatMap fun _ => [.skPath, .circlePaint]) ++
    [.call .onPaint] ++ uses [.totalPaintTime] ++
    [.call .swapBuffer] ++ uses [.totalSwapTime]

def touchAccesses (action : Int) (x y : ρ) (c : Canvas ρ) : List (Access D) :=
  if action = 0 then
    uses [.skPath, .skPath, .frameCount, .lastFrameTime, .totalFrameTime, .totalPaintTime,
      .totalSwapTime, .touchCount, .touchStartTime, .totalTouchTime, .needRedraw, .isDrawing] ++
    if c.isDrawing then []
    else uses [.renderTaskRunner] ++
      renderAccesses { c with skPath := [.moveTo x y], frameCount := 0, needRedraw := true }
  else if action = 2 ∨ action = 1 then
    uses [.skPath, .touchStartTime, .totalTouchTime, .touchCount] ++
    uses (if action = 1 then
      [.needRedraw, .tag, .totalFrameTime, .frameCount, .totalPaintTime, .frameCount,
        .totalSwapTime, .frameCount, .totalTouchTime, .touchCount] else [])
  else []

def accesses : RenderTask ρ → Canvas ρ → List (Access D)
  | .initializeOnRenderThread, _ => [.call .initializeOnRenderThread]
  | .touch action x y, c => touchAccesses action x y c
  | .render, c => renderAccesses c
  | .showInfo, _ => []
  | .flushTrace, _ => []

def posted (c : Canvas ρ) : List (Task ρ) := c.tasks.map .canvas

/-- The render thread starts a task. What the body leaves in the members is
settled here; its accesses are executed one at a time. -/
def start (clock : Nat → Int) (t : Task ρ) (w : World ρ D) : World ρ D :=
  match t with
  | .quit => { w with thread := .stopped }
  | .canvas t =>
    let c := run desktop clock t w.canvas
    { w with
      canvas := { c with tasks := [] }
      queue := w.queue ++ posted c
      current := some (accesses t w.canvas)
      started := w.started + w.isDying.toNat }

/-- A virtual call finds the function of the class the object still is. -/
def execute [DecidableEq D] (k : Subclass D) (a : Access D) (w : World ρ D) : World ρ D :=
  let w := { w with continued := w.continued + w.isDying.toNat }
  match a with
  | .member m => if m ∈ w.destroyed then { w with dangling := m :: w.dangling } else w
  | .call f =>
    match if w.derived then some (k.body f) else baseBody f with
    | some body => { w with current := w.current.map (body ++ ·) }
    | none => { w with pureVirtualCall := true }

def finish (w : World ρ D) : World ρ D :=
  { w with current := none, continued := w.continued + w.isDying.toNat }

def stages (k : Subclass D) : List (Stage D) :=
  [.destructorBody] ++ k.members.reverse.map (fun m => .member (.derived m)) ++
    [.baseClass] ++ BaseMember.declared.reverse.map fun m => .member (.base m)

/-- `~Thread` ends when the thread has run its quit task. -/
def destruct (s : Stage D) (rest : List (Stage D)) (w : World ρ D) : Option (World ρ D) :=
  match s with
  | .destructorBody => some { w with dying := some rest }
  | .baseClass => some { w with dying := some rest, derived := false }
  | .member (.base .renderThread) =>
    match w.thread with
    | .running => some { w with thread := .stopping, queue := w.queue ++ [.quit] }
    | .stopping => none
    | .stopped =>
      some { w with dying := some rest, destroyed := .base .renderThread :: w.destroyed }
  | .member m => some { w with dying := some rest, destroyed := m :: w.destroyed }

inductive Work (ρ : Type*)
  | onTouch (action : Int) (x y : ρ)
  | start
  | startDelayed (n : Nat)
  | access
  | finish

inductive Action (ρ : Type*)
  | work (a : Work ρ)
  | destroy
  | destruct

def work [DecidableEq D] (k : Subclass D) (clock : Nat → Int) (w : World ρ D) :
    Work ρ → Option (World ρ D)
  | .onTouch action x y =>
    if w.isDying then none
    else some { w with queue := w.queue ++ [.canvas (.touch action x y)] }
  | .start =>
    if w.thread = .stopped ∨ w.current.isSome then none
    else match w.queue with
      | [] => none
      | t :: rest => some (start clock t { w with queue := rest })
  | .startDelayed n =>
    if w.thread = .stopped ∨ w.current.isSome then none
    else match w.canvas.delayed[n]? with
      | none => none
      | some t =>
        let c : Canvas ρ := { w.canvas with delayed := w.canvas.delayed.eraseIdx n }
        some (start clock (.canvas t) { w with canvas := c })
  | .access =>
    match w.current with
    | some (a :: rest) => some (execute k a { w with current := some rest })
    | _ => none
  | .finish =>
    match w.current with
    | some [] => some (finish w)
    | _ => none

def step [DecidableEq D] (k : Subclass D) (clock : Nat → Int) (w : World ρ D) :
    Action ρ → Option (World ρ D)
  | .work a => work k clock w a
  | .destroy => if w.isDying then none else some { w with dying := some (stages k) }
  | .destruct =>
    match w.dying with
    | some (s :: rest) => destruct s rest w
    | _ => none

def machine [DecidableEq D] (k : Subclass D) (clock : Nat → Int) :
    Machine (World ρ D) (Action ρ) :=
  Machine.haltOn World.pureVirtualCall (step k clock)

inductive GLMember
  | display | context | surface | stencilBits | sampleCount | colorFormat
  | grGLInterface | grContext | useDdl | recorder
deriving DecidableEq

def owns (ms : List D) : List (Access D) := ms.map fun m => .member (.derived m)

/-- `InitializeOnRenderThread` where EGL answers every call at the first try.
`use_ddl_` is never set. -/
def skiaCanvasGL : Subclass GLMember where
  members := [.display, .context, .surface, .stencilBits, .sampleCount, .colorFormat,
    .grGLInterface, .grContext, .useDdl, .recorder]
  body
    | .initializeOnRenderThread =>
      owns [.display, .display, .display, .display, .display, .display, .colorFormat,
        .display, .display, .colorFormat, .display] ++
      uses [.nativeWindow] ++
      owns [.surface, .surface, .surface, .display, .context, .context, .display, .surface,
        .surface, .context, .display, .stencilBits, .display, .sampleCount, .sampleCount,
        .sampleCount, .display, .display, .surface, .grGLInterface, .grGLInterface,
        .grGLInterface, .grContext, .grContext]
    | .beginPaint =>
      owns [.display, .surface, .grGLInterface, .colorFormat] ++ uses [.width, .height] ++
      owns [.sampleCount, .stencilBits, .grContext, .colorFormat] ++ uses [.skSurface] ++
      owns [.useDdl] ++ uses [.skSurface]
    | .onPaint => owns [.useDdl, .grContext]
    | .swapBuffer => owns [.display, .surface, .display, .surface]

inductive SoftwareMember
  | presenter
deriving DecidableEq

/-- `x11_presenter_` is handed to `OnSwapBuffers`, `win_presenter_` is not. -/
def skiaCanvasSoftware (usesX11 : Bool) : Subclass SoftwareMember where
  members := [.presenter]
  body
    | .initializeOnRenderThread =>
      uses [.nativeWindow] ++ owns [.presenter] ++ [.call .beginPaint] ++ uses [.background] ++
      [.call .onPaint, .call .swapBuffer]
    | .beginPaint => owns [.presenter] ++ uses [.width, .height] ++ owns [.presenter]
    | .onPaint => owns [.presenter] ++ uses [.width, .height]
    | .swapBuffer => if usesX11 then owns [.presenter] else []

/-- No task body has started or gone on, and none has used a destroyed member,
since the destructor began. -/
structure Undisturbed (w : World ρ D) : Prop where
  started : w.started = 0
  continued : w.continued = 0
  dangling : w.dangling = []

structure Quiet (w : World ρ D) : Prop where
  current : w.current = none
  queue : w.queue = []
  delayed : w.canvas.delayed = []

structure Kept (w : World ρ D) : Prop where
  dying : w.dying = none
  thread : w.thread = .running
  queue : ∀ t ∈ w.queue, t ≠ .quit
  destroyed : w.destroyed = []
  derived : w.derived = true
  pureVirtualCall : w.pureVirtualCall = false
  undisturbed : Undisturbed w

theorem new_kept : Kept ({} : World ρ D) := ⟨rfl, rfl, by simp, rfl, rfl, rfl, rfl, rfl, rfl⟩

theorem Kept.isDying {w : World ρ D} (kept : Kept w) : w.isDying = false := by
  rw [World.isDying, kept.dying, Option.isSome_none]

theorem posted_ne_quit (c : Canvas ρ) : ∀ t ∈ posted c, t ≠ .quit := by
  intro t ht
  obtain ⟨_, -, rfl⟩ := List.mem_map.mp ht
  simp

theorem start_started (clock : Nat → Int) {t : Task ρ} (ht : t ≠ .quit) (w : World ρ D) :
    (start clock t w).started = w.started + w.isDying.toNat := by
  cases t with
  | quit => exact absurd rfl ht
  | canvas t => rfl

theorem execute_continued [DecidableEq D] (k : Subclass D) (a : Access D) (w : World ρ D) :
    (execute k a w).continued = w.continued + w.isDying.toNat := by
  cases a with
  | member m =>
    simp only [execute]
    split <;> rfl
  | call f =>
    simp only [execute]
    split <;> rfl

theorem start_kept (clock : Nat → Int) {t : Task ρ} (ht : t ≠ .quit) {w : World ρ D}
    (kept : Kept w) : Kept (start clock t w) := by
  have added : w.started + w.isDying.toNat = 0 := by
    rw [kept.isDying, kept.undisturbed.started, Bool.toNat_false]
  have rest : Undisturbed w := kept.undisturbed
  cases t with
  | quit => exact absurd rfl ht
  | canvas t =>
    refine { kept with queue := ?_, undisturbed := ⟨added, rest.continued, rest.dangling⟩ }
    exact List.forall_mem_append.mpr ⟨kept.queue, posted_ne_quit _⟩

structure Resting (w : World ρ D) : Prop where
  dying : w.isDying = true
  current : w.current = none
  queue : ∀ t ∈ w.queue, t = .quit
  delayed : w.canvas.delayed = []
  undisturbed : Undisturbed w

theorem destruct_resting {w v : World ρ D} {s : Stage D} {rest : List (Stage D)}
    (inv : Resting w) (h : destruct s rest w = some v) : Resting v := by
  have intact := inv.undisturbed
  cases s with
  | destructorBody | baseClass =>
    simp only [destruct, Option.some.injEq] at h
    subst h
    exact { inv with dying := rfl, undisturbed := { intact with } }
  | member m =>
    simp only [destruct] at h
    split at h
    case h_1 other => cases other
    case h_2 other => cases other
    · split at h
      · cases h
        have asked : ∀ t ∈ w.queue ++ [.quit], t = .quit :=
          List.forall_mem_append.mpr ⟨inv.queue, by simp⟩
        exact { inv with queue := asked, undisturbed := { intact with } }
      · cases h
      · cases h
        exact { inv with dying := rfl, undisturbed := { intact with } }
    · cases h
      exact { inv with dying := rfl, undisturbed := { intact with } }

section Machine
variable [DecidableEq D] (k : Subclass D) (clock : Nat → Int)

theorem execute_kept (a : Access D) {w : World ρ D} (kept : Kept w) : Kept (execute k a w) := by
  have added : w.continued + w.isDying.toNat = 0 := by
    rw [kept.isDying, kept.undisturbed.continued, Bool.toNat_false]
  have counted : Undisturbed { w with continued := w.continued + w.isDying.toNat } :=
    ⟨kept.undisturbed.started, added, kept.undisturbed.dangling⟩
  cases a with
  | member m =>
    have intact : m ∉ w.destroyed := by simp [kept.destroyed]
    simp only [execute, intact, if_false]
    exact { kept with undisturbed := counted }
  | call f =>
    simp only [execute, kept.derived, if_true]
    exact { kept with derived := rfl, undisturbed := { counted with } }

theorem work_kept {w v : World ρ D} {a : Work ρ} (kept : Kept w)
    (h : work k clock w a = some v) : Kept v := by
  cases a with
  | onTouch action x y =>
    simp only [work, kept.isDying, Bool.false_eq_true, if_false, Option.some.injEq] at h
    subst h
    have asked : ∀ t ∈ w.queue ++ [.canvas (.touch action x y)], t ≠ .quit :=
      List.forall_mem_append.mpr ⟨kept.queue, by simp⟩
    exact { kept with queue := asked, undisturbed := { kept.undisturbed with } }
  | start =>
    simp only [work] at h
    split at h
    · cases h
    · cases hq : w.queue with
      | nil => simp [hq] at h
      | cons t rest =>
        simp only [hq, Option.some.injEq] at h
        subst h
        have first := List.forall_mem_cons.mp (hq ▸ kept.queue)
        exact start_kept clock first.1
          { kept with queue := first.2, undisturbed := { kept.undisturbed with } }
  | startDelayed n =>
    simp only [work] at h
    split at h
    · cases h
    · cases due : w.canvas.delayed[n]? with
      | none => simp [due] at h
      | some t =>
        simp only [due, Option.some.injEq] at h
        subst h
        exact start_kept clock (by simp) { kept with undisturbed := { kept.undisturbed with } }
  | access =>
    cases hc : w.current with
    | none => simp [work, hc] at h
    | some l =>
      cases l with
      | nil => simp [work, hc] at h
      | cons a rest =>
        simp only [work, hc, Option.some.injEq] at h
        subst h
        exact execute_kept k a { kept with undisturbed := { kept.undisturbed with } }
  | finish =>
    cases hc : w.current with
    | none => simp [work, hc] at h
    | some l =>
      cases l with
      | cons a rest => simp [work, hc] at h
      | nil =>
        simp only [work, hc, Option.some.injEq] at h
        subst h
        have added : w.continued + w.isDying.toNat = 0 := by
          rw [kept.isDying, kept.undisturbed.continued, Bool.toNat_false]
        exact { kept with undisturbed := { kept.undisturbed with continued := added } }

theorem exec_kept (as : List (Work ρ)) :
    Kept ((machine k clock).exec ({} : World ρ D) (as.map .work)) := by
  suffices ∀ w : World ρ D, Kept w → Kept ((machine k clock).exec w (as.map .work)) from
    this {} new_kept
  induction as with
  | nil => exact fun w kept => kept
  | cons a as ih =>
    intro w kept
    rw [List.map_cons, Machine.exec_cons]
    apply ih
    rw [machine, Machine.haltOn_next kept.pureVirtualCall]
    cases h : step k clock w (.work a) with
    | none => exact kept
    | some v => exact work_kept k clock kept h

theorem step_resting (w : World ρ D) (a : Action ρ) (v : World ρ D) (inv : Resting w)
    (h : (machine k clock).step w a = some v) : Resting v := by
  obtain ⟨-, h⟩ := Machine.step_of_haltOn h
  have idle := inv.current
  cases a with
  | destroy => simp [step, inv.dying] at h
  | destruct =>
    simp only [step] at h
    split at h
    · exact destruct_resting inv h
    · cases h
  | work a =>
    cases a with
    | onTouch action x y => simp [step, work, inv.dying] at h
    | startDelayed n => simp [step, work, inv.delayed] at h
    | access => simp [step, work, idle] at h
    | finish => simp [step, work, idle] at h
    | start =>
      simp only [step, work] at h
      split at h
      · cases h
      · cases hq : w.queue with
        | nil => simp [hq] at h
        | cons t rest =>
          have last := List.forall_mem_cons.mp (hq ▸ inv.queue)
          simp only [hq, last.1, start, Option.some.injEq] at h
          subst h
          exact { inv with queue := last.2, undisturbed := { inv.undisturbed with } }

theorem next_destroy {w : World ρ D} (kept : Kept w) :
    (machine k clock).next w .destroy = { w with dying := some (stages k) } := by
  rw [machine, Machine.haltOn_next kept.pureVirtualCall, step, kept.isDying]
  rfl

theorem destroy_disturbs {w : World ρ D} (kept : Kept w) (busy : ¬ Quiet w) :
    ∃ bs, ¬ Undisturbed ((machine k clock).exec w (.destroy :: bs)) := by
  have then_next (a : Action ρ) {v : World ρ D}
      (h : step k clock { w with dying := some (stages k) } a = some v) :
      (machine k clock).exec w [.destroy, a] = v := by
    have alive : ({ w with dying := some (stages k) } : World ρ D).pureVirtualCall = false :=
      kept.pureVirtualCall
    rw [Machine.exec_cons, next_destroy k clock kept, Machine.exec_cons, Machine.exec_nil]
    exact Machine.next_of_some ((Machine.haltOn_step alive (step k clock) a).trans h)
  have free : w.current = none → ¬ (w.thread = .stopped ∨ w.current.isSome = true) := by
    intro idle
    simp [kept.thread, idle]
  cases hc : w.current with
  | some l =>
    cases l with
    | nil =>
      refine ⟨[.work .finish], fun all => ?_⟩
      have moved := all.continued
      rw [then_next _ (by simp only [step, work, hc]; rfl)] at moved
      simp [finish, World.isDying] at moved
    | cons a rest =>
      refine ⟨[.work .access], fun all => ?_⟩
      have moved := all.continued
      rw [then_next _ (by simp only [step, work, hc]; rfl), execute_continued] at moved
      simp [World.isDying] at moved
  | none =>
    cases hq : w.queue with
    | cons t rest =>
      have ht : t ≠ .quit := kept.queue t (by simp [hq])
      refine ⟨[.work .start], fun all => ?_⟩
      have moved := all.started
      rw [then_next _ (by simp only [step, work, free hc, hq, if_false]; rfl),
        start_started clock ht] at moved
      simp [World.isDying] at moved
    | nil =>
      cases hd : w.canvas.delayed with
      | nil => exact absurd ⟨hc, hq, hd⟩ busy
      | cons t rest =>
        refine ⟨[.work (.startDelayed 0)], fun all => ?_⟩
        have moved := all.started
        have due : w.canvas.delayed[0]? = some t := by rw [hd, List.getElem?_cons_zero]
        rw [then_next _ (by simp only [step, work, free hc, due, if_false]; rfl),
          start_started clock (by simp)] at moved
        simp [World.isDying] at moved

/-- A teardown disturbs no task exactly if the canvas is destroyed while its
render thread is idle and has no task left, delayed or not. -/
theorem undisturbed_iff (as : List (Work ρ)) :
    (∀ bs, Undisturbed
      ((machine k clock).exec ({} : World ρ D) (as.map .work ++ .destroy :: bs))) ↔
    Quiet ((machine k clock).exec ({} : World ρ D) (as.map .work)) := by
  have kept := exec_kept (ρ := ρ) k clock as
  simp only [Machine.exec_append]
  constructor
  · intro all
    by_contra busy
    obtain ⟨bs, disturbed⟩ := destroy_disturbs k clock kept busy
    exact disturbed (all bs)
  · intro quiet bs
    have resting : Resting ((machine k clock).next
        ((machine k clock).exec ({} : World ρ D) (as.map .work)) .destroy) := by
      rw [next_destroy k clock kept]
      exact ⟨rfl, quiet.current, by simp [quiet.queue], quiet.delayed, { kept.undisturbed with }⟩
    rw [Machine.exec_cons]
    exact (Machine.exec_invariant (step_resting k clock) resting bs).undisturbed

end Machine

def runTask : List (Work Int) := [.start] ++ List.replicate 60 .access ++ [.finish]

def pointerDown : List (Work Int) := runTask ++ [.onTouch 0 1 1] ++ runTask

def lateFrame : List (Action Int) :=
  List.replicate 11 .destruct ++ [.work (.startDelayed 0)] ++
    List.replicate 11 (.work .access)

set_option maxRecDepth 4000 in
theorem frame_of_dying_canvas :
    ¬ ∀ (as : List (Work Int)) (bs : List (Action Int)), Undisturbed
      ((machine skiaCanvasGL fun _ => 0).exec ({} : World Int GLMember)
        (as.map .work ++ .destroy :: bs)) := by
  intro all
  have dangles : ((machine skiaCanvasGL fun _ => 0).exec ({} : World Int GLMember)
      (pointerDown.map .work ++ .destroy :: lateFrame)).dangling = [.derived .display] := by
    decide +kernel
  rw [(all pointerDown lateFrame).dangling] at dangles
  cases dangles

end ChromiumDemo.CanvasTeardown
