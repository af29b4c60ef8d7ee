import ChromiumDemo.RenderLoop
import Mathlib.Algebra.BigOperators.Group.List.Basic
import Mathlib.Algebra.Ring.Int.Defs

/-! The frame and touch statistics of `SkiaCanvas`. A run is recorded as a log of
downs, other touches, frames and reports with the times that they were made at,
and the accumulators are compared with what the log holds since the last down. -/

namespace ChromiumDemo.FrameStatistics
open TransitionSystem SkiaCanvas RenderLoop

variable {ρ : Type*}

structure Frame where
  time : Int
  paintStart : Int
  paintStop : Int
  swapStart : Int
  swapStop : Int
deriving DecidableEq

def Frame.paintTime (f : Frame) : Int := f.paintStop - f.paintStart

def Frame.swapTime (f : Frame) : Int := f.swapStop - f.swapStart

/-- A report holds each total with the count that divides it. -/
inductive Entry
  | down (time : Int)
  | touch (time : Int)
  | frame (frame : Frame)
  | report (frame paint swap touch : Int × Nat)
deriving DecidableEq

/-- What has come since the last down. -/
structure Gesture where
  down : Int
  touches : List Int := []
  frames : List Frame := []

def extend : Option Gesture → Entry → Option Gesture
  | _, .down time => some { down := time }
  | g, .touch time => g.map fun g => { g with touches := g.touches ++ [time] }
  | g, .frame f => g.map fun g => { g with frames := g.frames ++ [f] }
  | g, .report _ _ _ _ => g

def gesture (log : List Entry) : Option Gesture := log.foldl extend none

def frameAt (clock : Nat → Int) (n : Nat) : Frame :=
  ⟨clock n, clock (n + 1), clock (n + 2), clock (n + 3), clock (n + 4)⟩

def touched (clock : Nat → Int) (n : Nat) : RenderTask ρ → List Entry
  | .touch action _ _ =>
    if action = 0 then [.down (clock n)]
    else if action = 2 ∨ action = 1 then [.touch (clock n)] else []
  | _ => []

def reported : Event ρ → Option Entry
  | .showInfo frame paint swap touch => some (.report frame paint swap touch)
  | _ => none

/-- What a step adds to the log: the touch that it handles, the frame that it
paints, of which it takes the last five readings, and the report that it makes. -/
def note (clock : Nat → Int) (c : Canvas ρ) (a : Action ρ) (d : Canvas ρ) : List Entry :=
  (next c a).toList.flatMap (touched clock c.ticks) ++
    (if paints c < paints d then [.frame (frameAt clock (d.ticks - 5))] else []) ++
    (d.events.drop c.events.length).filterMap reported

def recorded (v : Version) (clock : Nat → Int) : Machine (Canvas ρ × List Entry) (Action ρ) :=
  (machine v clock).recording (note clock)

structure Exact (c : Canvas ρ) (g : Gesture) : Prop where
  frameCount : c.frameCount = g.frames.length
  totalFrameTime : ∃ first ∈ g.frames.head?, c.totalFrameTime = c.lastFrameTime - first.time
  totalPaintTime : c.totalPaintTime = (g.frames.map Frame.paintTime).sum
  totalSwapTime : c.totalSwapTime = (g.frames.map Frame.swapTime).sum
  touchCount : c.touchCount = 1 + g.touches.length
  totalTouchTime : c.totalTouchTime = (g.touches.getLast?.map fun time => time - g.down).getD 0

structure Unwrapped (g : Gesture) : Prop where
  frames : g.frames.length < 2 ^ 32
  touches : 1 + g.touches.length < 2 ^ 32

/-- `Exact` up to wrapped counts, and also while no frame is counted. The count
is reset when the loop goes idle; by then no frame is wanted before the next down. -/
structure Kept (c : Canvas ρ) (g : Gesture) : Prop where
  frameCount : c.frameCount = g.frames.length % 2 ^ 32 ∨ c.needRedraw = false ∧ c.frameCount = 0
  totalFrameTime : g.frames.length < 2 ^ 32 → c.totalFrameTime =
    (g.frames.head?.map fun first => c.lastFrameTime - first.time).getD 0
  totalPaintTime : c.totalPaintTime = (g.frames.map Frame.paintTime).sum
  totalSwapTime : c.totalSwapTime = (g.frames.map Frame.swapTime).sum
  touchStartTime : c.touchStartTime = g.down
  touchCount : c.touchCount = (1 + g.touches.length) % 2 ^ 32
  totalTouchTime : c.totalTouchTime = (g.touches.getLast?.map fun time => time - g.down).getD 0

def Tracks (c : Canvas ρ) : Option Gesture → Prop
  | none => c.needRedraw = false ∧ c.frameCount = 0
  | some g => Kept c g

theorem gesture_append (log es : List Entry) :
    gesture (log ++ es) = es.foldl extend (gesture log) := by
  simp [gesture]

theorem Kept.exact {c : Canvas ρ} {g : Gesture} (h : Kept c g) (counted : 0 < c.frameCount)
    (few : Unwrapped g) : Exact c g := by
  have frames : c.frameCount = g.frames.length := by
    rcases h.frameCount with same | ⟨-, zero⟩
    · rw [same, Nat.mod_eq_of_lt few.frames]
    · omega
  refine ⟨frames, ?_, h.totalPaintTime, h.totalSwapTime, ?_, h.totalTouchTime⟩
  · cases shape : g.frames with
    | nil =>
      rw [shape, List.length_nil] at frames
      omega
    | cons first rest =>
      refine ⟨first, rfl, ?_⟩
      rw [h.totalFrameTime few.frames, shape]
      rfl
  · rw [h.touchCount, Nat.mod_eq_of_lt few.touches]

theorem step_runs {v : Version} {clock : Nat → Int} {c d : Canvas ρ} {a : Action ρ}
    (h : step v clock c a = some d) :
    (next c a = none ∧ ∃ action x y, d = onTouch action x y c) ∨
    ∃ t tasks delayed, next c a = some t ∧
      d = run v clock t { c with tasks := tasks, delayed := delayed } := by
  cases a with
  | onTouch action x y => exact .inl ⟨rfl, action, x, y, (Option.some.inj h).symm⟩
  | runTask =>
    obtain ⟨t, ht, rfl⟩ := Option.map_eq_some_iff.mp h
    exact .inr ⟨t, _, _, ht, rfl⟩
  | runDelayed n =>
    obtain ⟨t, ht, rfl⟩ := Option.map_eq_some_iff.mp h
    exact .inr ⟨t, _, _, ht, rfl⟩

section Notes
variable {clock : Nat → Int} {c d : Canvas ρ} {a : Action ρ} {t : RenderTask ρ}

theorem note_of_next (runs : next c a = some t) : note clock c a d =
    touched clock c.ticks t ++
      (if paints c < paints d then [.frame (frameAt clock (d.ticks - 5))] else []) ++
      (d.events.drop c.events.length).filterMap reported := by
  simp [note, runs]

theorem note_of_events (runs : next c a = some t) {es : List (Event ρ)}
    (events : d.events = c.events ++ es) : note clock c a d =
    touched clock c.ticks t ++
      (if 0 < es.countP Event.isPaint then [.frame (frameAt clock (d.ticks - 5))] else []) ++
      es.filterMap reported := by
  rw [note_of_next runs, paints, paints, events, List.countP_append, List.drop_left]
  simp only [Nat.lt_add_right_iff_pos]

end Notes

section Renders
variable (clock : Nat → Int) {c : Canvas ρ} {g : Gesture}

theorem onRender_of_idle (idle : c.needRedraw = false) : onRenderOnRenderThread clock c =
    { c with events := c.events ++ [.render], isDrawing := false, frameCount := 0 } := by
  simp [onRenderOnRenderThread, idle]

theorem onRender_of_need (need : c.needRedraw = true) : onRenderOnRenderThread clock c =
    let f := frameAt clock c.ticks
    { c with
      isDrawing := true
      delayed := c.delayed ++ [.render]
      totalFrameTime :=
        if 0 < c.frameCount then c.totalFrameTime + (f.time - c.lastFrameTime)
        else c.totalFrameTime
      frameCount := increment c.frameCount
      lastFrameTime := f.time
      totalPaintTime := c.totalPaintTime + f.paintTime
      totalSwapTime := c.totalSwapTime + f.swapTime
      events := c.events ++
        [.render, .paint c.skPath f.paintStart f.paintStop, .swapBuffer f.swapStart f.swapStop]
      ticks := c.ticks + 5 } := by
  simp [onRenderOnRenderThread, need, frameAt, Frame.paintTime, Frame.swapTime]

theorem Kept.idle (h : Kept c g) (idle : c.needRedraw = false) :
    Kept (onRenderOnRenderThread clock c) g := by
  rw [onRender_of_idle clock idle]
  exact { h with frameCount := .inr ⟨idle, rfl⟩ }

theorem Kept.frame (h : Kept c g) (need : c.needRedraw = true) :
    Kept (onRenderOnRenderThread clock c)
      { g with frames := g.frames ++ [frameAt clock c.ticks] } := by
  have counted : c.frameCount = g.frames.length % 2 ^ 32 := by
    rcases h.frameCount with same | ⟨idle, -⟩
    · exact same
    · rw [need] at idle
      cases idle
  rw [onRender_of_need clock need]
  refine ⟨.inl ?_, fun few => ?_, ?_, ?_, h.touchStartTime, h.touchCount, h.totalTouchTime⟩
  · rw [increment, counted, List.length_append, List.length_singleton, Nat.mod_add_mod]
  · rw [List.length_append, List.length_singleton] at few
    have small : g.frames.length < 2 ^ 32 := by omega
    rw [Nat.mod_eq_of_lt small] at counted
    have total := h.totalFrameTime small
    cases shape : g.frames with
    | nil =>
      rw [shape, List.length_nil] at counted
      simp [counted, total, shape, frameAt]
    | cons first rest =>
      have positive : 0 < c.frameCount := by
        rw [counted, shape, List.length_cons]
        omega
      rw [shape] at total
      simp only [List.cons_append, List.head?_cons, Option.map_some, Option.getD_some] at total ⊢
      rw [if_pos positive, total]
      omega
  · simp [h.totalPaintTime]
  · simp [h.totalSwapTime]

end Renders

section Touches
variable (v : Version) (clock : Nat → Int) (x y : ρ) {c : Canvas ρ} {g : Gesture}

def downed (c : Canvas ρ) : Canvas ρ :=
  { c with
    skPath := [.moveTo x y]
    frameCount := 0
    lastFrameTime := 0
    totalFrameTime := 0
    totalPaintTime := 0
    totalSwapTime := 0
    touchCount := 1
    touchStartTime := clock c.ticks
    totalTouchTime := 0
    ticks := c.ticks + 1
    needRedraw := true }

theorem onTouch_zero : onTouchOnRenderThread v clock 0 x y c =
    if c.isDrawing then downed clock x y c
    else onRenderOnRenderThread clock (downed clock x y c) := by
  cases drawing : c.isDrawing <;>
    simp [onTouchOnRenderThread, setNeedsRedraw, downed, drawing]

theorem kept_downed : Kept (downed clock x y c) { down := clock c.ticks } :=
  ⟨.inl rfl, fun _ => rfl, rfl, rfl, rfl, rfl, rfl⟩

def lined (c : Canvas ρ) : Canvas ρ :=
  { c with
    skPath := c.skPath ++ [.lineTo x y]
    totalTouchTime := clock c.ticks - c.touchStartTime
    touchCount := increment c.touchCount
    ticks := c.ticks + 1 }

theorem onTouch_two : onTouchOnRenderThread v clock 2 x y c = lined clock x y c := by
  simp [onTouchOnRenderThread, lined]

theorem onTouch_one : ∃ delayed, onTouchOnRenderThread v clock 1 x y c =
    { showFrameRateOnRenderThread v { lined clock x y c with needRedraw := false } with
      delayed := delayed } := by
  cases traces : v.flushesTrace with
  | true =>
    exact ⟨c.delayed ++ [.flushTrace], by
      simp [onTouchOnRenderThread, setNeedsRedraw, showFrameRateOnRenderThread, lined, traces]⟩
  | false =>
    exact ⟨c.delayed, by
      simp [onTouchOnRenderThread, setNeedsRedraw, showFrameRateOnRenderThread, lined, traces]⟩

theorem onTouch_unknown {action : Int} (down : action ≠ 0) (other : ¬ (action = 2 ∨ action = 1)) :
    onTouchOnRenderThread v clock action x y c = c := by
  simp [onTouchOnRenderThread, down, other]

theorem Kept.lined (h : Kept c g) :
    Kept (lined clock x y c) { g with touches := g.touches ++ [clock c.ticks] } := by
  refine { h with touchCount := ?_, totalTouchTime := ?_ }
  · simp only [FrameStatistics.lined, increment, h.touchCount, List.length_append,
      List.length_singleton, Nat.mod_add_mod, Nat.add_assoc]
  · simp [FrameStatistics.lined, h.touchStartTime]

end Touches

section Runs
variable {clock : Nat → Int} {c e : Canvas ρ} {a : Action ρ} {t : RenderTask ρ}

theorem note_of_frame (runs : next c a = some t) (events : e.events = c.events)
    (need : e.needRedraw = true) :
    note clock c a (onRenderOnRenderThread clock e) =
      touched clock c.ticks t ++ [.frame (frameAt clock e.ticks)] := by
  rw [onRender_of_need clock need]
  rw [note_of_events runs (by rw [← events])]
  simp [Event.isPaint, List.countP_cons, reported]

theorem note_of_quiet (runs : next c a = some t) {l : List (Event ρ)}
    (events : e.events = c.events ++ l) (quiet : ∀ event ∈ l, event.isPaint = false) :
    note clock c a e = touched clock c.ticks t ++ l.filterMap reported := by
  rw [note_of_events runs events, if_neg, List.append_nil]
  rw [List.countP_pos_iff]
  rintro ⟨event, member, paint⟩
  rw [quiet event member] at paint
  cases paint

theorem Tracks.requeue {g : Option Gesture} (h : Tracks c g) (tasks delayed : List (RenderTask ρ)) :
    Tracks { c with tasks := tasks, delayed := delayed } g := by
  cases g with
  | none => exact h
  | some g => exact { h with }

theorem Tracks.of_need {g : Option Gesture} (h : Tracks c g) (need : c.needRedraw = true) :
    ∃ gesture, g = some gesture ∧ Kept c gesture := by
  cases g with
  | none =>
    have idle := h.1
    rw [need] at idle
    cases idle
  | some gesture => exact ⟨gesture, rfl, h⟩

theorem render_tracks {g : Option Gesture} (h : Tracks e g) (runs : next c a = some .render)
    (events : e.events = c.events) :
    Tracks (onRenderOnRenderThread clock e)
      ((note clock c a (onRenderOnRenderThread clock e)).foldl extend g) := by
  cases need : e.needRedraw with
  | true =>
    obtain ⟨g, rfl, kept⟩ := h.of_need need
    rw [note_of_frame runs events need]
    exact kept.frame clock need
  | false =>
    rw [note_of_quiet runs (l := [.render])
      (by rw [onRender_of_idle clock need, events]) (by simp [Event.isPaint])]
    cases g with
    | none =>
      rw [onRender_of_idle clock need]
      exact ⟨need, rfl⟩
    | some g => exact Kept.idle clock h need

theorem touch_tracks (v : Version) {g : Option Gesture} (h : Tracks e g) {action : Int} {x y : ρ}
    (runs : next c a = some (.touch action x y)) (ticks : e.ticks = c.ticks)
    (events : e.events = c.events) :
    Tracks (onTouchOnRenderThread v clock action x y e)
      ((note clock c a (onTouchOnRenderThread v clock action x y e)).foldl extend g) := by
  by_cases down : action = 0
  · subst down
    rw [onTouch_zero]
    split
    case isTrue =>
      rw [note_of_quiet runs (l := []) (by rw [List.append_nil]; exact events) (by simp)]
      rw [← ticks]
      exact kept_downed clock x y
    case isFalse =>
      rw [note_of_frame runs (by exact events) rfl, ← ticks]
      exact (kept_downed clock x y).frame clock rfl
  by_cases up : action = 1
  · subst up
    obtain ⟨delayed, ran⟩ := onTouch_one v clock x y (c := e)
    rw [ran]
    rw [note_of_quiet runs (by rw [← events]; rfl) (by simp [Event.isPaint])]
    cases g with
    | none => exact ⟨rfl, h.2⟩
    | some g =>
      have lined := Kept.lined clock x y h
      rw [ticks] at lined
      exact { lined with frameCount := lined.frameCount.imp_right fun idle => ⟨rfl, idle.2⟩ }
  by_cases move : action = 2
  · subst move
    rw [onTouch_two]
    rw [note_of_quiet runs (l := []) (by rw [List.append_nil]; exact events) (by simp)]
    cases g with
    | none => exact h
    | some g =>
      rw [← ticks]
      exact Kept.lined clock x y h
  · rw [onTouch_unknown v clock x y down (by simp [up, move])]
    rw [note_of_quiet runs (l := []) (by rw [List.append_nil]; exact events) (by simp)]
    simpa [touched, down, up, move] using h

end Runs

def Agrees (w : Canvas ρ × List Entry) : Prop := Tracks w.1 (gesture w.2)

theorem step_agrees (v : Version) (clock : Nat → Int) (w : Canvas ρ × List Entry) (a : Action ρ)
    (u : Canvas ρ × List Entry) (h : Agrees w) (moved : (recorded v clock).step w a = some u) :
    Agrees u := by
  obtain ⟨stepped, logged⟩ := Machine.step_of_recording moved
  rw [Agrees, logged, gesture_append]
  obtain ⟨waits, action, x, y, arrived⟩ | ⟨t, tasks, delayed, runs, ran⟩ := step_runs stepped
  · rw [arrived]
    have nothing : note clock w.1 a (onTouch action x y w.1) = [] := by
      simp [note, waits, onTouch, paints]
    rw [nothing]
    exact Tracks.requeue h _ _
  rw [ran]
  have requeued := Tracks.requeue h tasks delayed
  cases t with
  | touch action x y => exact touch_tracks v requeued runs rfl rfl
  | render => exact render_tracks requeued runs rfl
  | initializeOnRenderThread | showInfo | flushTrace =>
    rw [note_of_quiet runs (l := []) (by simp [run]) (by simp)]
    exact requeued

theorem new_agrees : Agrees ((new, []) : Canvas ρ × List Entry) := ⟨rfl, rfl⟩

theorem exec_agrees (v : Version) (clock : Nat → Int) (as : List (Action ρ)) :
    Agrees ((recorded v clock).exec (new, []) as) :=
  Machine.exec_invariant (step_agrees v clock) new_agrees as

/-- While frames are counted the accumulators are exact. -/
theorem exec_exact (v : Version) (clock : Nat → Int) (as : List (Action ρ))
    (counted : 0 < ((recorded v clock).exec (new, []) as).1.frameCount) :
    ∃ g, gesture ((recorded v clock).exec (new, []) as).2 = some g ∧
      (Unwrapped g → Exact ((recorded v clock).exec (new, []) as).1 g) := by
  have agrees := exec_agrees v clock as
  cases found : gesture ((recorded v clock).exec (new, []) as).2 with
  | none =>
    rw [Agrees, found] at agrees
    have zero := agrees.2
    omega
  | some g =>
    rw [Agrees, found] at agrees
    exact ⟨g, rfl, Kept.exact agrees counted⟩

def drawn : Canvas Int × List Entry :=
  (recorded desktop fun n => n).exec (new, [])
    [.runTask, .onTouch 0 1 1, .runTask, .onTouch 2 2 2, .runTask, .runDelayed 0]

theorem exec_exact_drawn :
    0 < drawn.1.frameCount ∧ ∃ g, gesture drawn.2 = some g ∧ Unwrapped g ∧ Exact drawn.1 g := by
  have counted : 0 < drawn.1.frameCount := by decide
  obtain ⟨g, found, exact⟩ := exec_exact desktop (fun n => n) _ counted
  have few : Unwrapped g := by
    obtain rfl := Option.some.inj found
    exact ⟨by decide, by decide⟩
  exact ⟨counted, g, found, few, exact few⟩

/-- An average over as many spans as its total has. -/
structure TrueAverage (divided : Int × Nat) (spans : Nat) : Prop where
  positive : 0 < divided.2
  spans : divided.2 = spans

def frameCount (g : Option Gesture) : Nat := (g.map fun g => g.frames.length).getD 0

/-- The time between two frames is an interval, so `n` frames have one less. -/
def frameIntervals (g : Option Gesture) : Nat := frameCount g - 1

/-- Each touch since the down ends an interval. -/
def touchIntervals (g : Option Gesture) : Nat := (g.map fun g => g.touches.length).getD 0

structure Averages (g : Option Gesture) (frame paint swap touch : Int × Nat) : Prop where
  frame : TrueAverage frame (frameIntervals g)
  paint : TrueAverage paint (frameCount g)
  swap : TrueAverage swap (frameCount g)
  touch : TrueAverage touch (touchIntervals g)

def TrueAverages (log : List Entry) : Prop :=
  ∀ before frame paint swap touch after,
    log = before ++ .report frame paint swap touch :: after →
      Averages (gesture before) frame paint swap touch

def NotUp (w : Canvas ρ × List Entry) (a : Action ρ) : Prop :=
  ∀ x y, next w.1 a ≠ some (.touch 1 x y)

def Entry.isReport : Entry → Bool
  | .report _ _ _ _ => true
  | _ => false

structure Unreported (w : Canvas ρ × List Entry) : Prop where
  agrees : Agrees w
  none : ∀ entry ∈ w.2, entry.isReport = false

theorem Unreported.trueAverages {w : Canvas ρ × List Entry} (h : Unreported w) :
    TrueAverages w.2 := by
  intro before frame paint swap touch after split
  have report := h.none (.report frame paint swap touch) (by simp [split])
  cases report

theorem not_averages {c : Canvas ρ} {g : Option Gesture} (h : Tracks c g) (time : Int)
    {frame paint swap touch : Int × Nat} (frames : frame.2 = c.frameCount)
    (touches : touch.2 = increment c.touchCount) :
    ¬ Averages (extend g (.touch time)) frame paint swap touch := by
  intro averages
  cases g with
  | none =>
    have positive := averages.frame.positive
    rw [frames, h.2] at positive
    omega
  | some g =>
    have spans := averages.touch.spans
    rw [touches, increment, h.touchCount] at spans
    simp only [touchIntervals, extend, Option.map_some, Option.getD_some, List.length_append,
      List.length_singleton] at spans
    omega

theorem run_cases (v : Version) (clock : Nat → Int) (e : Canvas ρ) {t : RenderTask ρ}
    (up : ∀ x y, t ≠ .touch 1 x y) :
    (∃ f, run v clock t e = onRenderOnRenderThread clock f ∧ f.events = e.events ∧
      f.needRedraw = true) ∨
    ∃ es, (run v clock t e).events = e.events ++ es ∧ ∀ event ∈ es, event = .render := by
  cases t with
  | initializeOnRenderThread | showInfo | flushTrace => exact .inr ⟨[], by simp [run], by simp⟩
  | render =>
    cases need : e.needRedraw with
    | true => exact .inl ⟨e, rfl, rfl, need⟩
    | false => exact .inr ⟨[.render], by rw [run, onRender_of_idle clock need], by simp⟩
  | touch action x y =>
    rw [run]
    by_cases down : action = 0
    · subst down
      rw [onTouch_zero]
      split
      case isTrue => exact .inr ⟨[], by simp [downed], by simp⟩
      case isFalse => exact .inl ⟨_, rfl, rfl, rfl⟩
    by_cases move : action = 2
    · rw [move, onTouch_two]
      exact .inr ⟨[], by simp [lined], by simp⟩
    · have other : action ≠ 1 := fun same => up x y (same ▸ rfl)
      rw [onTouch_unknown v clock x y down (by simp [other, move])]
      exact .inr ⟨[], by simp, by simp⟩

theorem touched_unreported (clock : Nat → Int) (n : Nat) (t : RenderTask ρ) :
    ∀ entry ∈ touched clock n t, entry.isReport = false := by
  intro entry member
  cases t with
  | touch action x y =>
    simp only [touched] at member
    split_ifs at member <;> simp_all [Entry.isReport]
  | _ => simp [touched] at member

section Reports
variable {clock : Nat → Int} {c e : Canvas ρ} {a : Action ρ} {t : RenderTask ρ}

theorem frame_unreported (runs : next c a = some t) (events : e.events = c.events)
    (need : e.needRedraw = true) :
    ∀ entry ∈ note clock c a (onRenderOnRenderThread clock e), entry.isReport = false := by
  rw [note_of_frame runs events need]
  intro entry member
  rcases List.mem_append.mp member with touch | frame
  · exact touched_unreported clock c.ticks t entry touch
  · rw [List.mem_singleton.mp frame]
    rfl

theorem note_of_renders (runs : next c a = some t) {es : List (Event ρ)}
    (events : e.events = c.events ++ es) (renders : ∀ event ∈ es, event = .render) :
    note clock c a e = touched clock c.ticks t := by
  have silent : es.filterMap reported = [] := by
    rw [List.filterMap_eq_nil_iff]
    intro event member
    rw [renders event member]
    rfl
  rw [note_of_quiet runs events (fun event member => by rw [renders event member]; rfl), silent,
    List.append_nil]

variable (clock) in
theorem note_of_up (v : Version) {x y : ρ} (runs : next c a = some (.touch 1 x y))
    (events : e.events = c.events) : ∃ frame paint swap touch : Int × Nat,
    note clock c a (onTouchOnRenderThread v clock 1 x y e) =
      [.touch (clock c.ticks), .report frame paint swap touch] ∧
    frame.2 = e.frameCount ∧ touch.2 = increment e.touchCount := by
  obtain ⟨delayed, ran⟩ := onTouch_one v clock x y (c := e)
  refine ⟨(e.totalFrameTime, e.frameCount), (e.totalPaintTime, e.frameCount),
    (e.totalSwapTime, e.frameCount),
    (clock e.ticks - e.touchStartTime, increment e.touchCount), ?_, rfl, rfl⟩
  rw [ran]
  rw [note_of_quiet runs (by rw [← events]; rfl) (by simp [Event.isPaint])]
  rfl

end Reports

theorem step_unreported (v : Version) (clock : Nat → Int) (w : Canvas ρ × List Entry)
    (a : Action ρ) (u : Canvas ρ × List Entry) (h : Unreported w) (quiet : NotUp w a)
    (moved : (recorded v clock).step w a = some u) : Unreported u := by
  refine ⟨step_agrees v clock w a u h.agrees moved, fun entry member => ?_⟩
  obtain ⟨stepped, logged⟩ := Machine.step_of_recording moved
  rw [logged] at member
  refine (List.mem_append.mp member).elim (h.none entry) fun new => ?_
  clear member
  revert entry new
  obtain ⟨waits, action, x, y, arrived⟩ | ⟨t, tasks, delayed, runs, ran⟩ := step_runs stepped
  · rw [arrived]
    simp [note, waits, onTouch, paints]
  rw [ran]
  obtain ⟨f, ends, events, need⟩ | ⟨es, events, renders⟩ :=
    run_cases v clock { w.1 with tasks := tasks, delayed := delayed } fun x y up =>
      quiet x y (up ▸ runs)
  · rw [ends]
    exact frame_unreported runs events need
  · rw [note_of_renders runs events renders]
    exact touched_unreported clock w.1.ticks t

theorem up_not_trueAverages (v : Version) (clock : Nat → Int) (w : Canvas ρ × List Entry)
    (a : Action ρ) (u : Canvas ρ × List Entry) (h : Unreported w) (up : ¬ NotUp w a)
    (moved : (recorded v clock).step w a = some u) : ¬ TrueAverages u.2 := by
  simp only [NotUp, not_forall, not_not] at up
  obtain ⟨x, y, runs⟩ := up
  obtain ⟨stepped, logged⟩ := Machine.step_of_recording moved
  obtain ⟨waits, -⟩ | ⟨t, tasks, delayed, runs', ran⟩ := step_runs stepped
  · rw [waits] at runs
    cases runs
  rw [runs] at runs'
  cases runs'
  obtain ⟨frame, paint, swap, touch, reported, frames, touches⟩ :=
    note_of_up (e := { w.1 with tasks := tasks, delayed := delayed }) clock v runs rfl
  intro averages
  have bad : ¬ Averages (extend (gesture w.2) (.touch (clock w.1.ticks))) frame paint swap touch :=
    not_averages h.agrees (clock w.1.ticks) frames touches
  refine bad ?_
  have before := averages (w.2 ++ [.touch (clock w.1.ticks)]) frame paint swap touch [] (by
    rw [logged, ran, run, reported, List.append_assoc]
    rfl)
  rw [gesture_append] at before
  exact before

/-- The paint and swap averages of a report are true exactly if a frame has been
counted since the down and the count has not wrapped around. -/
theorem exec_average_iff (v : Version) (clock : Nat → Int) (as : List (Action ρ)) (total : Int)
    {g : Gesture} (found : gesture ((recorded v clock).exec (new, []) as).2 = some g) :
    TrueAverage (total, ((recorded v clock).exec (new, []) as).1.frameCount) (frameCount (some g)) ↔
      0 < ((recorded v clock).exec (new, []) as).1.frameCount ∧ g.frames.length < 2 ^ 32 := by
  have agrees := exec_agrees v clock as
  rw [Agrees, found] at agrees
  constructor
  · rintro ⟨positive, spans⟩
    refine ⟨positive, ?_⟩
    rcases agrees.frameCount with same | ⟨-, zero⟩
    · simp only [frameCount, Option.map_some, Option.getD_some] at spans
      omega
    · simp only [zero] at positive
      omega
  · rintro ⟨positive, few⟩
    refine ⟨positive, ?_⟩
    rcases agrees.frameCount with same | ⟨-, zero⟩
    · simp only [frameCount, Option.map_some, Option.getD_some]
      omega
    · omega

def eventSpans : Event ρ → List (Int × Int)
  | .paint _ start stop => [(start, stop)]
  | .swapBuffer start stop => [(start, stop)]
  | _ => []

def Entry.spans : Entry → List (Int × Int)
  | .frame f => [(f.paintStart, f.paintStop), (f.swapStart, f.swapStop)]
  | _ => []

def Spanned (w : Canvas ρ × List Entry) : Prop :=
  w.1.events.flatMap eventSpans = w.2.flatMap Entry.spans

theorem touched_spans (clock : Nat → Int) (n : Nat) (t : RenderTask ρ) :
    (touched clock n t).flatMap Entry.spans = [] := by
  cases t with
  | touch action x y =>
    rw [touched]
    split_ifs <;> rfl
  | _ => rfl

theorem step_spanned (v : Version) (clock : Nat → Int) (w : Canvas ρ × List Entry)
    (a : Action ρ) (u : Canvas ρ × List Entry) (h : Spanned w)
    (moved : (recorded v clock).step w a = some u) : Spanned u := by
  obtain ⟨stepped, logged⟩ := Machine.step_of_recording moved
  rw [Spanned, logged, List.flatMap_append, ← h]
  obtain ⟨waits, action, x, y, arrived⟩ | ⟨t, tasks, delayed, runs, ran⟩ := step_runs stepped
  · rw [arrived]
    simp [note, waits, onTouch, paints]
  rw [ran]
  by_cases up : ∃ x y, t = .touch 1 x y
  · obtain ⟨x, y, rfl⟩ := up
    obtain ⟨frame, paint, swap, touch, reported, -, -⟩ :=
      note_of_up (e := { w.1 with tasks := tasks, delayed := delayed }) clock v runs rfl
    obtain ⟨later, shown⟩ :=
      onTouch_one v clock x y (c := { w.1 with tasks := tasks, delayed := delayed })
    rw [run, reported, shown]
    simp [showFrameRateOnRenderThread, lined, eventSpans, Entry.spans]
  obtain ⟨f, ends, events, need⟩ | ⟨es, events, renders⟩ :=
    run_cases v clock { w.1 with tasks := tasks, delayed := delayed } fun x y same =>
      up ⟨x, y, same⟩
  · rw [ends, note_of_frame runs events need, List.flatMap_append, touched_spans,
      onRender_of_need clock need]
    simp [events, eventSpans, Entry.spans]
  · have spanless : es.flatMap eventSpans = [] := by
      rw [List.flatMap_eq_nil_iff]
      intro event member
      rw [renders event member]
      rfl
    rw [note_of_renders runs events renders, events, List.flatMap_append, spanless,
      touched_spans]

theorem exec_spanned (v : Version) (clock : Nat → Int) (as : List (Action ρ)) :
    ((machine v clock).exec new as).events.flatMap eventSpans =
      ((recorded v clock).exec (new, []) as).2.flatMap Entry.spans := by
  rw [← Machine.recording_exec (machine v clock) (note clock) (new, []) as]
  exact Machine.exec_invariant (step_spanned v clock) (show Spanned (new, []) from rfl) as

/-- In every run the averages are true as long as no report is made, and not after. -/
theorem trueAverages_iff (v : Version) (clock : Nat → Int) (as : List (Action ρ)) :
    (∀ w ∈ (recorded v clock).visited (new, []) as, TrueAverages w.2) ↔
      ∀ p ∈ (recorded v clock).taken (new, []) as, NotUp p.1 p.2 :=
  Machine.visited_iff_taken (fun _ => Unreported.trueAverages) (step_unreported v clock)
    (up_not_trueAverages v clock) ⟨new_agrees, by simp⟩ as

def fastTaps : List (Action Int) :=
  [.runTask, .onTouch 0 1 1, .onTouch 1 1 1, .onTouch 0 2 2, .onTouch 1 2 2,
    .runTask, .runTask, .runTask, .runTask]

theorem fastTaps_divide_by_zero :
    ¬ ∀ w ∈ (recorded desktop fun n => n).visited (new, []) fastTaps, TrueAverages w.2 := by
  intro all
  have last := all _ (Machine.exec_mem_visited _ _ _)
  have positive := (last [.down 0, .frame ⟨1, 2, 3, 4, 5⟩, .touch 6,
    .report (0, 1) (1, 1) (1, 1) (6, 2), .down 7, .touch 8] (0, 0) (0, 0) (0, 0) (1, 2) []
    (by decide)).paint.positive
  exact absurd positive (by decide)

end ChromiumDemo.FrameStatistics
