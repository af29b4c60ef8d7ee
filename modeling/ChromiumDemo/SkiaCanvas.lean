import Mathlib.Data.List.Basic
import Mathlib.Algebra.Ring.Nat

/-! `SkiaCanvas` of demo_skia and of demo_android_skia. On the desktop `ShowInfo` is
posted to the render thread and a frame has a circle at every point of its path; on
Android `ShowInfo` is posted to the UI thread, and an up also posts `FlushTrace`.
A canvas holds its render task runner: `tasks` run in order, a delayed task may
run at any moment once posted. `clock n` is the `n`-th reading of
`base::TimeTicks::Now()` on the render thread, `ticks` the number taken so far. -/

namespace ChromiumDemo.SkiaCanvas

variable {ρ : Type*}

inductive Verb (ρ : Type*)
  | moveTo (x y : ρ)
  | lineTo (x y : ρ)
deriving DecidableEq

inductive RenderTask (ρ : Type*)
  | initializeOnRenderThread
  | touch (action : Int) (x y : ρ)
  | render
  | showInfo
  | flushTrace
deriving DecidableEq

/-- What a task leaves outside the members: a call of `OnRenderOnRenderThread`,
a frame painted and swapped, and the `ShowInfo` that is posted, with the totals and
the counts that divide them. -/
inductive Event (ρ : Type*)
  | render
  | paint (path : List (Verb ρ)) (start stop : Int)
  | swapBuffer (start stop : Int)
  | showInfo (frame paint swap touch : Int × Nat)
deriving DecidableEq

structure Canvas (ρ : Type*) where
  skPath : List (Verb ρ) := []
  needRedraw : Bool := false
  isDrawing : Bool := false
  totalFrameTime : Int := 0
  lastFrameTime : Int := 0
  frameCount : Nat := 0
  totalPaintTime : Int := 0
  totalSwapTime : Int := 0
  touchCount : Nat := 0
  touchStartTime : Int := 0
  totalTouchTime : Int := 0
  tasks : List (RenderTask ρ) := []
  delayed : List (RenderTask ρ) := []
  events : List (Event ρ) := []
  ticks : Nat := 0

structure Version where
  flushesTrace : Bool
  showsInfoOnRenderThread : Bool
  drawsCircles : Bool

def desktop : Version := ⟨false, true, true⟩

def android : Version := ⟨true, false, false⟩

inductive Draw (ρ : Type*)
  | clear
  | drawPath (path : List (Verb ρ))
  | drawCircle (x y : ρ)
deriving DecidableEq

def Verb.circle : Verb ρ → Draw ρ
  | .moveTo x y | .lineTo x y => .drawCircle x y

def draws (v : Version) (path : List (Verb ρ)) : List (Draw ρ) :=
  [.clear, .drawPath path] ++ if v.drawsCircles then path.map Verb.circle else []

def increment (n : Nat) : Nat := (n + 1) % 2 ^ 32

def new : Canvas ρ := { tasks := [.initializeOnRenderThread] }

def onTouch (action : Int) (x y : ρ) (c : Canvas ρ) : Canvas ρ :=
  { c with tasks := c.tasks ++ [.touch action x y] }

def onRenderOnRenderThread (clock : Nat → Int) (c : Canvas ρ) : Canvas ρ :=
  let c : Canvas ρ := { c with events := c.events ++ [.render] }
  if !c.needRedraw then
    { c with isDrawing := false, frameCount := 0 }
  else
    let now := clock c.ticks
    let paintStart := clock (c.ticks + 1)
    let paintStop := clock (c.ticks + 2)
    let swapStart := clock (c.ticks + 3)
    let swapStop := clock (c.ticks + 4)
    { c with
      isDrawing := true
      delayed := c.delayed ++ [.render]
      totalFrameTime :=
        if 0 < c.frameCount then c.totalFrameTime + (now - c.lastFrameTime) else c.totalFrameTime
      frameCount := increment c.frameCount
      lastFrameTime := now
      totalPaintTime := c.totalPaintTime + (paintStop - paintStart)
      totalSwapTime := c.totalSwapTime + (swapStop - swapStart)
      events := c.events ++
        [.paint c.skPath paintStart paintStop, .swapBuffer swapStart swapStop]
      ticks := c.ticks + 5 }

/-- The last argument is `RunsTasksInCurrentSequence()` of the caller. -/
def setNeedsRedraw (clock : Nat → Int) (needRedraw inSequence : Bool) (c : Canvas ρ) :
    Canvas ρ :=
  let c : Canvas ρ := { c with needRedraw := needRedraw }
  if needRedraw && !c.isDrawing then
    if inSequence then onRenderOnRenderThread clock c
    else { c with tasks := c.tasks ++ [.render] }
  else c

def showFrameRateOnRenderThread (v : Version) (c : Canvas ρ) : Canvas ρ :=
  { c with
    tasks := c.tasks ++ if v.showsInfoOnRenderThread then [.showInfo] else []
    events := c.events ++
      [.showInfo (c.totalFrameTime, c.frameCount) (c.totalPaintTime, c.frameCount)
        (c.totalSwapTime, c.frameCount) (c.totalTouchTime, c.touchCount)] }

def onTouchOnRenderThread (v : Version) (clock : Nat → Int) (action : Int) (x y : ρ)
    (c : Canvas ρ) : Canvas ρ :=
  if action = 0 then
    setNeedsRedraw clock true true { c with
      skPath := [.moveTo x y]
      frameCount := 0
      lastFrameTime := 0
      totalFrameTime := 0
      totalPaintTime := 0
      totalSwapTime := 0
      touchCount := 1
      touchStartTime := clock c.ticks
      totalTouchTime := 0
      ticks := c.ticks + 1 }
  else if action = 2 ∨ action = 1 then
    let c : Canvas ρ := { c with
      skPath := c.skPath ++ [.lineTo x y]
      totalTouchTime := clock c.ticks - c.touchStartTime
      touchCount := increment c.touchCount
      ticks := c.ticks + 1 }
    if action = 1 then
      let c := showFrameRateOnRenderThread v (setNeedsRedraw clock false true c)
      if v.flushesTrace then { c with delayed := c.delayed ++ [.flushTrace] } else c
    else c
  else c

/-- `InitializeOnRenderThread` of the base class is empty, and neither `ShowInfo`
nor `FlushTrace` touches a member. -/
def run (v : Version) (clock : Nat → Int) : RenderTask ρ → Canvas ρ → Canvas ρ
  | .touch action x y, c => onTouchOnRenderThread v clock action x y c
  | .render, c => onRenderOnRenderThread clock c
  | .initializeOnRenderThread, c => c
  | .showInfo, c => c
  | .flushTrace, c => c

def RenderTask.isRender : RenderTask ρ → Bool
  | .render => true
  | _ => false

def RenderTask.isDown : RenderTask ρ → Bool
  | .touch action _ _ => action == 0
  | _ => false

def Event.isRender : Event ρ → Bool
  | .render => true
  | _ => false

def Event.isPaint : Event ρ → Bool
  | .paint _ _ _ => true
  | _ => false

def pendingRenders (c : Canvas ρ) : Nat :=
  c.tasks.countP RenderTask.isRender + c.delayed.countP RenderTask.isRender

def renders (c : Canvas ρ) : Nat := c.events.countP Event.isRender

def paints (c : Canvas ρ) : Nat := c.events.countP Event.isPaint

theorem onTouch_pendingRenders (action : Int) (x y : ρ) (c : Canvas ρ) :
    pendingRenders (onTouch action x y c) = pendingRenders c := by
  simp [onTouch, pendingRenders, RenderTask.isRender]

section Specs
variable (clock : Nat → Int) (c : Canvas ρ)

@[simp] theorem onRender_needRedraw :
    (onRenderOnRenderThread clock c).needRedraw = c.needRedraw := by
  cases h : c.needRedraw <;> simp [onRenderOnRenderThread, h]

@[simp] theorem onRender_isDrawing :
    (onRenderOnRenderThread clock c).isDrawing = c.needRedraw := by
  cases h : c.needRedraw <;> simp [onRenderOnRenderThread, h]

@[simp] theorem onRender_pendingRenders :
    pendingRenders (onRenderOnRenderThread clock c) =
      pendingRenders c + if c.needRedraw then 1 else 0 := by
  cases h : c.needRedraw <;>
    simp [onRenderOnRenderThread, h, pendingRenders, RenderTask.isRender, Nat.add_assoc]

@[simp] theorem onRender_renders :
    renders (onRenderOnRenderThread clock c) = renders c + 1 := by
  cases h : c.needRedraw <;>
    simp [onRenderOnRenderThread, h, renders, List.countP_cons, Event.isRender]

@[simp] theorem onRender_paints :
    paints (onRenderOnRenderThread clock c) = paints c + if c.needRedraw then 1 else 0 := by
  cases h : c.needRedraw <;>
    simp [onRenderOnRenderThread, h, paints, List.countP_cons, Event.isPaint]

theorem onTouch_down (v : Version) (x y : ρ) :
    (onTouchOnRenderThread v clock 0 x y c).needRedraw = true ∧
    (onTouchOnRenderThread v clock 0 x y c).isDrawing = true ∧
    pendingRenders (onTouchOnRenderThread v clock 0 x y c) =
      pendingRenders c + if c.isDrawing then 0 else 1 := by
  cases h : c.isDrawing with
  | true => simp [onTouchOnRenderThread, setNeedsRedraw, h, pendingRenders]
  | false =>
    simp only [onTouchOnRenderThread, setNeedsRedraw, h, if_true, Bool.not_false, Bool.and_self,
      onRender_needRedraw, onRender_isDrawing, onRender_pendingRenders, Bool.false_eq_true,
      if_false, true_and]
    rfl

theorem onTouch_other (v : Version) {action : Int} (h : action ≠ 0) (x y : ρ) :
    (onTouchOnRenderThread v clock action x y c).needRedraw =
      (c.needRedraw && !decide (action = 1)) ∧
    (onTouchOnRenderThread v clock action x y c).isDrawing = c.isDrawing ∧
    pendingRenders (onTouchOnRenderThread v clock action x y c) = pendingRenders c ∧
    renders (onTouchOnRenderThread v clock action x y c) = renders c ∧
    paints (onTouchOnRenderThread v clock action x y c) = paints c := by
  by_cases up : action = 1
  · subst up
    cases trace : v.flushesTrace <;> cases info : v.showsInfoOnRenderThread <;>
      simp [onTouchOnRenderThread, setNeedsRedraw, showFrameRateOnRenderThread, trace, info,
        pendingRenders, renders, paints, RenderTask.isRender, Event.isRender, Event.isPaint]
  · by_cases move : action = 2 <;>
      simp [onTouchOnRenderThread, h, up, move, pendingRenders, renders, paints]

end Specs

end ChromiumDemo.SkiaCanvas
