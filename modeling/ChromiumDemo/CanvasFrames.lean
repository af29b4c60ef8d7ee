import ChromiumDemo.RenderLoop
import Mathlib.Data.List.Infix

/-! What the frames of a `SkiaCanvas` show. A run is recorded with the calls of
`OnTouch`, the touch tasks that the render thread has run and the frames painted,
so that a frame can be compared with the touches before it. -/

namespace ChromiumDemo.CanvasFrames
open TransitionSystem SkiaCanvas RenderLoop

variable {ρ : Type*}

structure Touch (ρ : Type*) where
  action : Int
  x : ρ
  y : ρ
deriving DecidableEq

inductive Entry (ρ : Type*)
  | called (t : Touch ρ)
  | ran (t : Touch ρ)
  | painted (path : List (Verb ρ))
deriving DecidableEq

def touchOf : RenderTask ρ → Option (Touch ρ)
  | .touch action x y => some ⟨action, x, y⟩
  | _ => none

def pathOf : Event ρ → Option (List (Verb ρ))
  | .paint path _ _ => some path
  | _ => none

def newPaths (c d : Canvas ρ) : List (List (Verb ρ)) :=
  (d.events.drop c.events.length).filterMap pathOf

def callOf : Action ρ → List (Touch ρ)
  | .onTouch action x y => [⟨action, x, y⟩]
  | _ => []

def note (c : Canvas ρ) (a : Action ρ) (d : Canvas ρ) : List (Entry ρ) :=
  (callOf a).map .called ++ ((next c a).bind touchOf).toList.map .ran ++
    (newPaths c d).map .painted

def recorder (v : Version) (clock : Nat → Int) : Machine (Canvas ρ × List (Entry ρ)) (Action ρ) :=
  (machine v clock).recording note

def called (log : List (Entry ρ)) : List (Touch ρ) :=
  log.filterMap fun | .called t => some t | _ => none

def ran (log : List (Entry ρ)) : List (Touch ρ) :=
  log.filterMap fun | .ran t => some t | _ => none

/-- A gesture is under way: a down, neither a down nor an up since, and the path
goes from the down through the moves. -/
def Stroke (touches : List (Touch ρ)) (path : List (Verb ρ)) : Prop :=
  ∃ earlier x y rest, touches = earlier ++ ⟨0, x, y⟩ :: rest ∧
    (∀ t ∈ rest, t.action ≠ 0 ∧ t.action ≠ 1) ∧
    path = .moveTo x y :: (rest.filter (·.action = 2)).map fun t => .lineTo t.x t.y

/-- A frame shows the stroke of the touches run so far, which are the first ones called. -/
def Shows (before : List (Entry ρ)) : Entry ρ → Prop
  | .painted path => Stroke (ran before) path ∧ ran before <+: called before
  | _ => True

section Log
variable (log more : List (Entry ρ))

@[simp] theorem called_append : called (log ++ more) = called log ++ called more :=
  List.filterMap_append

@[simp] theorem ran_append : ran (log ++ more) = ran log ++ ran more :=
  List.filterMap_append

@[simp] theorem called_map_called (ts : List (Touch ρ)) : called (ts.map .called) = ts := by
  induction ts with
  | nil => rfl
  | cons t ts ih => exact congrArg (t :: ·) ih

@[simp] theorem called_map_ran (ts : List (Touch ρ)) : called (ts.map .ran) = [] := by
  induction ts with
  | nil => rfl
  | cons t ts ih => exact ih

@[simp] theorem called_map_painted (ps : List (List (Verb ρ))) :
    called (ps.map .painted) = [] := by
  induction ps with
  | nil => rfl
  | cons p ps ih => exact ih

@[simp] theorem ran_map_called (ts : List (Touch ρ)) : ran (ts.map .called) = [] := by
  induction ts with
  | nil => rfl
  | cons t ts ih => exact ih

@[simp] theorem ran_map_ran (ts : List (Touch ρ)) : ran (ts.map .ran) = ts := by
  induction ts with
  | nil => rfl
  | cons t ts ih => exact congrArg (t :: ·) ih

@[simp] theorem ran_map_painted (ps : List (List (Verb ρ))) : ran (ps.map .painted) = [] := by
  induction ps with
  | nil => rfl
  | cons p ps ih => exact ih

end Log

theorem stroke_down (touches : List (Touch ρ)) (x y : ρ) :
    Stroke (touches ++ [⟨0, x, y⟩]) [.moveTo x y] := by
  refine ⟨touches, x, y, [], rfl, ?_, rfl⟩
  intro t member
  cases member

theorem stroke_concat {touches : List (Touch ρ)} {path : List (Verb ρ)} {t : Touch ρ}
    (h : Stroke touches path) (notDown : t.action ≠ 0) (notUp : t.action ≠ 1) :
    Stroke (touches ++ [t])
      (path ++ if t.action = 2 then [.lineTo t.x t.y] else []) := by
  obtain ⟨earlier, x, y, rest, rfl, quiet, rfl⟩ := h
  refine ⟨earlier, x, y, rest ++ [t], ?_, ?_, ?_⟩
  · rw [List.append_assoc, List.cons_append]
  · intro s member
    rcases List.mem_append.mp member with old | new
    · exact quiet s old
    · rw [List.mem_singleton.mp new]
      exact ⟨notDown, notUp⟩
  · rw [List.filter_append, List.map_append, List.cons_append]
    by_cases move : t.action = 2 <;> simp [move]

structure Result (touches : List (Touch ρ)) (e d : Canvas ρ) : Prop where
  tasks : d.tasks.filterMap touchOf = e.tasks.filterMap touchOf
  delayed : ∀ t ∈ d.delayed, t ∈ e.delayed ∨ touchOf t = none
  stroke : d.needRedraw = true → Stroke touches d.skPath
  paths : newPaths e d = [] ∨ d.needRedraw = true ∧ newPaths e d = [d.skPath]

theorem result_refl {touches : List (Touch ρ)} {e : Canvas ρ}
    (stroke : e.needRedraw = true → Stroke touches e.skPath) : Result touches e e := by
  refine ⟨rfl, fun t member => .inl member, stroke, .inl ?_⟩
  simp [newPaths]

theorem render_result (clock : Nat → Int) (touches : List (Touch ρ)) {e : Canvas ρ}
    (stroke : e.needRedraw = true → Stroke touches e.skPath) :
    Result touches e (onRenderOnRenderThread clock e) := by
  cases need : e.needRedraw with
  | false =>
    have painted : newPaths e (onRenderOnRenderThread clock e) = [] := by
      simp [newPaths, onRenderOnRenderThread, need, pathOf]
    refine ⟨?_, ?_, ?_, ?_⟩
    · simp [onRenderOnRenderThread, need]
    · intro t member
      simp only [onRenderOnRenderThread, need, Bool.not_false, if_true] at member
      exact .inl member
    · simp [need]
    · exact .inl painted
  | true =>
    have path : (onRenderOnRenderThread clock e).skPath = e.skPath := by
      simp [onRenderOnRenderThread, need]
    have painted : newPaths e (onRenderOnRenderThread clock e) = [e.skPath] := by
      simp only [newPaths, onRenderOnRenderThread, need, Bool.not_true, Bool.false_eq_true,
        if_false, List.append_assoc, List.drop_left]
      rfl
    refine ⟨?_, ?_, ?_, ?_⟩
    · simp [onRenderOnRenderThread, need]
    · intro t member
      simp only [onRenderOnRenderThread, need, Bool.not_true, Bool.false_eq_true, if_false,
        List.mem_append, List.mem_singleton] at member
      rcases member with old | rfl
      · exact .inl old
      · exact .inr rfl
    · rw [path]
      intro _
      exact stroke need
    · rw [onRender_needRedraw, path]
      exact .inr ⟨need, painted⟩

theorem down_result (v : Version) (clock : Nat → Int) (touches : List (Touch ρ))
    (e : Canvas ρ) (x y : ρ) :
    Result (touches ++ [⟨0, x, y⟩]) e (onTouchOnRenderThread v clock 0 x y e) := by
  cases drawing : e.isDrawing with
  | true =>
    simp only [onTouchOnRenderThread, setNeedsRedraw, drawing, if_true, Bool.not_true,
      Bool.and_false, Bool.false_eq_true, if_false]
    refine ⟨rfl, fun t member => .inl member, fun _ => stroke_down touches x y, .inl ?_⟩
    simp [newPaths]
  | false =>
    -- the loop is idle, so the down paints its first frame at once
    simp only [onTouchOnRenderThread, setNeedsRedraw, drawing, if_true, Bool.not_false,
      Bool.and_self]
    have rendered := render_result clock (touches ++ [⟨0, x, y⟩])
      (e := { e with
        skPath := [.moveTo x y], needRedraw := true, frameCount := 0, lastFrameTime := 0
        totalFrameTime := 0, totalPaintTime := 0, totalSwapTime := 0, touchCount := 1
        touchStartTime := clock e.ticks, totalTouchTime := 0, ticks := e.ticks + 1 })
      (fun _ => stroke_down touches x y)
    exact ⟨rendered.tasks, rendered.delayed, rendered.stroke, rendered.paths⟩

theorem up_result (v : Version) (clock : Nat → Int) (touches : List (Touch ρ))
    (e : Canvas ρ) (x y : ρ) :
    Result (touches ++ [⟨1, x, y⟩]) e (onTouchOnRenderThread v clock 1 x y e) := by
  have quiet : newPaths e (onTouchOnRenderThread v clock 1 x y e) = [] := by
    cases trace : v.flushesTrace <;>
      simp [newPaths, onTouchOnRenderThread, setNeedsRedraw, showFrameRateOnRenderThread,
        trace, pathOf]
  refine ⟨?_, ?_, ?_, ?_⟩
  · cases trace : v.flushesTrace <;> cases info : v.showsInfoOnRenderThread <;>
      simp [onTouchOnRenderThread, setNeedsRedraw, showFrameRateOnRenderThread, trace, info,
        touchOf]
  · intro t member
    cases trace : v.flushesTrace with
    | false =>
      simp [onTouchOnRenderThread, setNeedsRedraw, showFrameRateOnRenderThread,
        trace] at member
      exact .inl member
    | true =>
      simp [onTouchOnRenderThread, setNeedsRedraw, showFrameRateOnRenderThread,
        trace] at member
      rcases member with old | rfl
      · exact .inl old
      · exact .inr rfl
  · intro need
    have cleared := (onTouch_other clock e v (by decide : (1 : Int) ≠ 0) x y).1
    rw [need] at cleared
    simp at cleared
  · exact .inl quiet

theorem touch_result (v : Version) (clock : Nat → Int) {touches : List (Touch ρ)}
    {e : Canvas ρ} (stroke : e.needRedraw = true → Stroke touches e.skPath)
    (action : Int) (x y : ρ) :
    Result (touches ++ [⟨action, x, y⟩]) e (onTouchOnRenderThread v clock action x y e) := by
  by_cases down : action = 0
  · subst down
    exact down_result v clock touches e x y
  by_cases up : action = 1
  · subst up
    exact up_result v clock touches e x y
  · have other := onTouch_other clock e v down x y
    have need : (onTouchOnRenderThread v clock action x y e).needRedraw = e.needRedraw := by
      simpa [up] using other.1
    have path : (onTouchOnRenderThread v clock action x y e).skPath =
        e.skPath ++ if action = 2 then [.lineTo x y] else [] := by
      by_cases move : action = 2 <;> simp [onTouchOnRenderThread, down, up, move]
    have quiet : newPaths e (onTouchOnRenderThread v clock action x y e) = [] := by
      by_cases move : action = 2 <;> simp [newPaths, onTouchOnRenderThread, down, up, move]
    refine ⟨?_, ?_, ?_, ?_⟩
    · by_cases move : action = 2 <;> simp [onTouchOnRenderThread, down, up, move]
    · intro t member
      by_cases move : action = 2 <;>
        simp [onTouchOnRenderThread, down, up, move] at member <;>
        exact .inl member
    · rw [need, path]
      intro wanted
      exact stroke_concat (t := ⟨action, x, y⟩) (stroke wanted) down up
    · exact .inl quiet

theorem run_result (v : Version) (clock : Nat → Int) {touches : List (Touch ρ)} {e : Canvas ρ}
    (stroke : e.needRedraw = true → Stroke touches e.skPath) (t : RenderTask ρ) :
    Result (touches ++ (touchOf t).toList) e (run v clock t e) := by
  cases t with
  | touch action x y => exact touch_result v clock stroke action x y
  | render =>
    change Result (touches ++ []) e (onRenderOnRenderThread clock e)
    rw [List.append_nil]
    exact render_result clock touches stroke
  | initializeOnRenderThread | showInfo | flushTrace =>
    change Result (touches ++ []) e e
    rw [List.append_nil]
    exact result_refl stroke

structure FrameInv (s : Canvas ρ × List (Entry ρ)) : Prop where
  posted : called s.2 = ran s.2 ++ s.1.tasks.filterMap touchOf
  delayed : ∀ t ∈ s.1.delayed, touchOf t = none
  stroke : s.1.needRedraw = true → Stroke (ran s.2) s.1.skPath
  frames : History Shows s.2

theorem new_frameInv : FrameInv ((new : Canvas ρ), []) where
  posted := rfl
  delayed := by
    intro t member
    cases member
  stroke := by
    intro need
    cases need
  frames := history_nil Shows

theorem frames_of_result {log : List (Entry ρ)} {e d : Canvas ρ} {t : RenderTask ρ}
    (frames : History Shows log) (first : ran log ++ (touchOf t).toList <+: called log)
    (result : Result (ran log ++ (touchOf t).toList) e d) :
    History Shows (log ++ ((touchOf t).toList.map .ran ++ (newPaths e d).map .painted)) := by
  have touched : History Shows (log ++ (touchOf t).toList.map .ran) := by
    refine history_append frames fun entry member middle => ?_
    obtain ⟨touch, -, rfl⟩ := List.mem_map.mp member
    trivial
  rw [← List.append_assoc]
  rcases result.paths with none | ⟨need, one⟩
  · rw [none, List.map_nil, List.append_nil]
    exact touched
  · rw [one]
    refine history_concat.mpr ⟨touched, ?_, ?_⟩
    · rw [ran_append, ran_map_ran]
      exact result.stroke need
    · rw [ran_append, ran_map_ran, called_append, called_map_ran, List.append_nil]
      exact first

theorem frameInv_of_run (v : Version) (clock : Nat → Int) {c e : Canvas ρ}
    {log : List (Entry ρ)} {t : RenderTask ρ} (inv : FrameInv (c, log))
    (same : { e with tasks := c.tasks, delayed := c.delayed } = c)
    (tasks : c.tasks.filterMap touchOf = (touchOf t).toList ++ e.tasks.filterMap touchOf)
    (delayed : ∀ u ∈ e.delayed, u ∈ c.delayed) :
    FrameInv (run v clock t e,
      log ++ ((touchOf t).toList.map .ran ++ (newPaths c (run v clock t e)).map .painted)) := by
  have need : e.needRedraw = c.needRedraw := by rw [← same]
  have path : e.skPath = c.skPath := by rw [← same]
  have events : e.events = c.events := by rw [← same]
  have stroke : e.needRedraw = true → Stroke (ran log) e.skPath := by
    rw [need, path]
    exact inv.stroke
  have result := run_result v clock stroke t
  have posted := inv.posted
  change called log = ran log ++ c.tasks.filterMap touchOf at posted
  rw [tasks, ← List.append_assoc] at posted
  refine ⟨?_, ?_, ?_, ?_⟩
  · simp only [called_append, ran_append, called_map_ran, called_map_painted, ran_map_ran,
      ran_map_painted, List.append_nil, result.tasks]
    exact posted
  · intro u member
    rcases result.delayed u member with old | new
    · exact inv.delayed u (delayed u old)
    · exact new
  · simp only [ran_append, ran_map_ran, ran_map_painted, List.append_nil]
    exact result.stroke
  · have first : ran log ++ (touchOf t).toList <+: called log := ⟨_, posted.symm⟩
    rw [newPaths, ← events]
    exact frames_of_result inv.frames first result

theorem step_frameInv (v : Version) (clock : Nat → Int) (s : Canvas ρ × List (Entry ρ))
    (a : Action ρ) (s' : Canvas ρ × List (Entry ρ)) (inv : FrameInv s)
    (h : (recorder v clock).step s a = some s') : FrameInv s' := by
  obtain ⟨c, log⟩ := s
  obtain ⟨d, log'⟩ := s'
  obtain ⟨moved, entered⟩ := Machine.step_of_recording h
  change log' = log ++ note c a d at entered
  subst entered
  cases a with
  | onTouch action x y =>
    obtain rfl := (Option.some.inj moved).symm
    have logged : note c (.onTouch action x y) (onTouch action x y c) =
        [.called ⟨action, x, y⟩] := by
      simp [note, callOf, RenderLoop.next, newPaths, onTouch]
    rw [logged]
    refine ⟨?_, inv.delayed, ?_, history_concat.mpr ⟨inv.frames, trivial⟩⟩
    · have posted := inv.posted
      change called log = ran log ++ c.tasks.filterMap touchOf at posted
      simp only [called_append, ran_append, posted, onTouch, List.filterMap_append]
      simp [called, ran, touchOf]
    · simp only [ran_append]
      simpa [ran, onTouch] using inv.stroke
  | runTask =>
    obtain ⟨t, taken, rfl⟩ := Option.map_eq_some_iff.mp moved
    obtain ⟨rest, tasks⟩ := List.head?_eq_some_iff.mp taken
    have logged := frameInv_of_run v clock (e := { c with tasks := c.tasks.tail }) (t := t)
      inv rfl (by rw [tasks, List.tail_cons]; cases h : touchOf t <;> simp [h])
      (fun u member => member)
    simpa only [note, callOf, taken, List.map_nil, List.nil_append, Option.bind_some]
      using logged
  | runDelayed n =>
    obtain ⟨t, taken, rfl⟩ := Option.map_eq_some_iff.mp moved
    have quiet : touchOf t = none := inv.delayed t (List.mem_of_getElem? taken)
    have logged := frameInv_of_run v clock (e := { c with delayed := c.delayed.eraseIdx n })
      (t := t) inv rfl (by rw [quiet]; rfl) (fun u member => List.mem_of_mem_eraseIdx member)
    simpa only [note, callOf, taken, List.map_nil, List.nil_append, Option.bind_some]
      using logged

/-- Every frame shows the down and the moves of the gesture under way, as far as
the render thread has got with the touches in the order of their arrival. An up
ends the gesture before its point is shown. -/
theorem frames_show_stroke (v : Version) (clock : Nat → Int) (as : List (Action ρ)) :
    History Shows ((recorder v clock).exec (new, []) as).2 :=
  (Machine.exec_invariant (step_frameInv v clock) new_frameInv as).frames

def shared : RenderTask ρ → Bool
  | .showInfo | .flushTrace => false
  | _ => true

def sharedPart (c : Canvas ρ) : Canvas ρ :=
  { c with tasks := c.tasks.filter shared, delayed := c.delayed.filter shared }

def sharedRun (s : Canvas ρ × List (Entry ρ)) : Canvas ρ × List (Entry ρ) :=
  (sharedPart s.1, s.2)

def plain : Version := ⟨false, false, false⟩

theorem sharedPart_onRender (clock : Nat → Int) (e : Canvas ρ) :
    sharedPart (onRenderOnRenderThread clock e) = onRenderOnRenderThread clock (sharedPart e) := by
  cases need : e.needRedraw <;>
    simp [sharedPart, onRenderOnRenderThread, need, shared, List.filter_append]

theorem sharedPart_onTouch (v : Version) (clock : Nat → Int) (action : Int) (x y : ρ)
    (e : Canvas ρ) :
    sharedPart (onTouchOnRenderThread v clock action x y e) =
      onTouchOnRenderThread plain clock action x y (sharedPart e) := by
  by_cases down : action = 0
  · subst down
    cases drawing : e.isDrawing with
    | true => simp [onTouchOnRenderThread, setNeedsRedraw, drawing, sharedPart]
    | false =>
      have idle : (sharedPart e).isDrawing = false := drawing
      simp only [onTouchOnRenderThread, setNeedsRedraw, drawing, idle, if_true, Bool.not_false,
        Bool.and_self, sharedPart_onRender]
      rfl
  by_cases up : action = 1
  · subst up
    cases trace : v.flushesTrace <;> cases info : v.showsInfoOnRenderThread <;>
      simp [onTouchOnRenderThread, setNeedsRedraw, showFrameRateOnRenderThread, trace, info,
        sharedPart, plain, shared]
  · by_cases move : action = 2 <;> simp [onTouchOnRenderThread, down, up, move, sharedPart]

theorem sharedPart_run (v : Version) (clock : Nat → Int) (t : RenderTask ρ) (e : Canvas ρ) :
    sharedPart (run v clock t e) = run plain clock t (sharedPart e) := by
  cases t with
  | touch action x y => exact sharedPart_onTouch v clock action x y e
  | render => exact sharedPart_onRender clock e
  | initializeOnRenderThread | showInfo | flushTrace => rfl

theorem run_of_not_shared {t : RenderTask ρ} (own : shared t = false) (v : Version)
    (clock : Nat → Int) (e : Canvas ρ) : run v clock t e = e ∧ touchOf t = none := by
  cases t with
  | showInfo | flushTrace => exact ⟨rfl, rfl⟩
  | initializeOnRenderThread | touch | render => cases own

theorem eraseIdx_of_split {α : Type*} (before : List α) (t : α) (after : List α) :
    (before ++ t :: after)[before.length]? = some t ∧
      (before ++ t :: after).eraseIdx before.length = before ++ after := by
  constructor
  · simp
  · rw [List.eraseIdx_append_of_length_le (Nat.le_refl _), Nat.sub_self, List.eraseIdx_cons_zero]

theorem split_of_getElem? {α : Type*} {l : List α} {n : Nat} {t : α} (h : l[n]? = some t) :
    ∃ before after, l = before ++ t :: after ∧ before.length = n := by
  obtain ⟨bound, rfl⟩ := List.getElem?_eq_some_iff.mp h
  refine ⟨l.take n, l.drop (n + 1), ?_, List.length_take_of_le (Nat.le_of_lt bound)⟩
  rw [List.cons_getElem_drop_succ, List.take_append_drop]

section Versions
variable {v : Version} {clock : Nat → Int} {c d : Canvas ρ} {a b : Action ρ}

theorem note_shared (call : callOf a = callOf b) (task : next c a = next (sharedPart c) b) :
    note c a d = note (sharedPart c) b (sharedPart d) := by
  rw [note, note, call, task]
  rfl

theorem recorder_step (moved : step v clock c a = some d) (log : List (Entry ρ)) :
    (recorder v clock).step (c, log) a = some (d, log ++ note c a d) := by
  simp only [recorder, machine, Machine.recording, moved, Option.map_some]

theorem silent {t : RenderTask ρ} (due : next c a = some t) (own : shared t = false)
    (calls : callOf a = []) (events : d.events = c.events) : note c a d = [] := by
  simp [note, calls, due, (run_of_not_shared own plain (fun _ => 0) c).2, newPaths, events]

theorem plain_simulates (v : Version) (clock : Nat → Int) (s : Canvas ρ × List (Entry ρ))
    (a : Action ρ) (s' : Canvas ρ × List (Entry ρ))
    (h : (recorder v clock).step s a = some s') :
    sharedRun s' = sharedRun s ∨
      ∃ b, (recorder plain clock).step (sharedRun s) b = some (sharedRun s') := by
  obtain ⟨c, log⟩ := s
  obtain ⟨d, log'⟩ := s'
  obtain ⟨moved, entered⟩ := Machine.step_of_recording h
  change log' = log ++ note c a d at entered
  change step v clock c a = some d at moved
  subst entered
  suffices same : (sharedPart d = sharedPart c ∧ note c a d = []) ∨
      ∃ b, step plain clock (sharedPart c) b = some (sharedPart d) ∧
        note c a d = note (sharedPart c) b (sharedPart d) by
    rcases same with ⟨still, quiet⟩ | ⟨b, moved, noted⟩
    · left
      simp only [sharedRun, still, quiet, List.append_nil]
    · right
      refine ⟨b, ?_⟩
      rw [sharedRun, sharedRun, noted]
      exact recorder_step moved log
  cases a with
  | onTouch action x y =>
    obtain rfl := (Option.some.inj moved).symm
    have posted : sharedPart (onTouch action x y c) = onTouch action x y (sharedPart c) := by
      simp [sharedPart, onTouch, shared]
    exact .inr ⟨.onTouch action x y, congrArg some posted.symm, note_shared rfl rfl⟩
  | runTask =>
    obtain ⟨t, taken, rfl⟩ := Option.map_eq_some_iff.mp moved
    obtain ⟨rest, tasks⟩ := List.head?_eq_some_iff.mp taken
    cases own : shared t with
    | false =>
      obtain ⟨still, -⟩ := run_of_not_shared own v clock { c with tasks := c.tasks.tail }
      rw [still]
      refine .inl ⟨?_, silent taken own rfl rfl⟩
      simp [sharedPart, tasks, own]
    | true =>
      have first : next (sharedPart c) .runTask = some t := by
        simp [RenderLoop.next, sharedPart, tasks, own]
      refine .inr ⟨.runTask, ?_, note_shared rfl (taken.trans first.symm)⟩
      rw [step, first, Option.map_some, sharedPart_run]
      simp [sharedPart, tasks, own]
  | runDelayed n =>
    obtain ⟨t, taken, rfl⟩ := Option.map_eq_some_iff.mp moved
    obtain ⟨before, after, split, rfl⟩ := split_of_getElem? taken
    obtain ⟨-, erased⟩ := eraseIdx_of_split before t after
    rw [← split] at erased
    cases own : shared t with
    | false =>
      obtain ⟨still, -⟩ := run_of_not_shared own v clock
        { c with delayed := c.delayed.eraseIdx before.length }
      rw [still, erased]
      refine .inl ⟨?_, silent taken own rfl rfl⟩
      simp [sharedPart, split, own]
    | true =>
      have filtered :
          (sharedPart c).delayed = before.filter shared ++ t :: after.filter shared := by
        rw [sharedPart, split, List.filter_append, List.filter_cons_of_pos own]
      obtain ⟨found, removed⟩ := eraseIdx_of_split (before.filter shared) t
        (after.filter shared)
      rw [← filtered] at found removed
      refine .inr ⟨.runDelayed (before.filter shared).length, ?_, ?_⟩
      · rw [step, RenderLoop.next, found, Option.map_some, sharedPart_run, removed, erased,
          ← List.filter_append]
        rfl
      · exact note_shared rfl (taken.trans found.symm)

theorem exec_skipped (v : Version) (clock : Nat → Int) (c : Canvas ρ) (log : List (Entry ρ))
    {skipped : List (RenderTask ρ)} (own : ∀ t ∈ skipped, shared t = false)
    (rest : List (RenderTask ρ)) :
    (recorder v clock).exec ({ c with tasks := skipped ++ rest }, log)
      (List.replicate skipped.length .runTask) = ({ c with tasks := rest }, log) := by
  induction skipped with
  | nil => rfl
  | cons t skipped ih =>
    have first := own t List.mem_cons_self
    let before : Canvas ρ := { c with tasks := t :: skipped ++ rest }
    have moved : step v clock before .runTask = some { c with tasks := skipped ++ rest } :=
      congrArg some (run_of_not_shared first v clock _).1
    have quiet : note before .runTask { c with tasks := skipped ++ rest } = [] :=
      silent (t := t) rfl first rfl rfl
    have stepped := recorder_step moved log
    rw [quiet, List.append_nil] at stepped
    rw [List.length_cons, List.replicate_succ, Machine.exec_cons, Machine.next_of_some stepped]
    exact ih fun u member => own u (List.mem_cons_of_mem _ member)

theorem plain_simulated (v : Version) (clock : Nat → Int) (s : Canvas ρ × List (Entry ρ))
    (b : Action ρ) (u : Canvas ρ × List (Entry ρ))
    (h : (recorder plain clock).step (sharedRun s) b = some u) :
    ∃ as, sharedRun ((recorder v clock).exec s as) = u := by
  obtain ⟨c, log⟩ := s
  obtain ⟨d, log'⟩ := u
  obtain ⟨moved, entered⟩ := Machine.step_of_recording h
  change log' = log ++ note (sharedPart c) b d at entered
  subst entered
  change step plain clock (sharedPart c) b = some d at moved
  suffices same : ∃ as e a f, (recorder v clock).exec (c, log) as = (e, log) ∧
      step v clock e a = some f ∧ sharedPart f = d ∧ sharedPart e = sharedPart c ∧
      callOf a = callOf b ∧ next e a = next (sharedPart c) b by
    obtain ⟨as, e, a, f, skipped, stepped, rfl, still, call, task⟩ := same
    have noted := note_shared (d := f) call (task.trans (by rw [still]))
    rw [still] at noted
    refine ⟨as ++ [a], ?_⟩
    rw [Machine.exec_append, skipped, Machine.exec_cons, Machine.exec_nil,
      Machine.next_of_some (recorder_step stepped log), sharedRun, noted]
  cases b with
  | onTouch action x y =>
    obtain rfl := (Option.some.inj moved).symm
    refine ⟨[], c, .onTouch action x y, onTouch action x y c, rfl, rfl, ?_, rfl, rfl, rfl⟩
    simp [sharedPart, onTouch, shared]
  | runTask =>
    obtain ⟨t, taken, rfl⟩ := Option.map_eq_some_iff.mp moved
    obtain ⟨later, filtered⟩ := List.head?_eq_some_iff.mp taken
    obtain ⟨skipped, rest, tasks, own, kept, rfl⟩ := List.filter_eq_cons_iff.mp filtered
    have unshared : ∀ u ∈ skipped, shared u = false := fun u member =>
      Bool.eq_false_iff.mpr (own u member)
    have run_to := exec_skipped v clock c log unshared (t :: rest)
    rw [← tasks] at run_to
    have dropped : skipped.filter shared = [] := List.filter_eq_nil_iff.mpr own
    refine ⟨List.replicate skipped.length .runTask, { c with tasks := t :: rest }, .runTask,
      run v clock t { c with tasks := rest }, run_to, rfl, ?_, ?_, rfl, taken.symm⟩
    · rw [sharedPart_run, filtered]
      rfl
    · simp [sharedPart, tasks, dropped]
  | runDelayed n =>
    obtain ⟨t, taken, rfl⟩ := Option.map_eq_some_iff.mp moved
    obtain ⟨front, back, filtered, rfl⟩ := split_of_getElem? taken
    change c.delayed.filter shared = front ++ t :: back at filtered
    obtain ⟨-, removed⟩ := eraseIdx_of_split front t back
    rw [← filtered] at removed
    -- the index of the plain version skips the tasks in front that it does not have
    obtain ⟨first, rest, split, rfl, found⟩ := List.filter_eq_append_iff.mp filtered
    obtain ⟨skipped, after, rfl, own, kept, rfl⟩ := List.filter_eq_cons_iff.mp found
    have dropped : skipped.filter shared = [] := List.filter_eq_nil_iff.mpr own
    rw [← List.append_assoc] at split
    obtain ⟨same, erased⟩ := eraseIdx_of_split (first ++ skipped) t after
    rw [← split] at same erased
    refine ⟨[], c, .runDelayed (first ++ skipped).length,
      run v clock t { c with delayed := first ++ skipped ++ after }, rfl, ?_, ?_, rfl, rfl,
      same.trans taken.symm⟩
    · rw [step, RenderLoop.next, same, Option.map_some, erased]
    · have rest : (first ++ skipped ++ after).filter shared =
          (c.delayed.filter shared).eraseIdx (first.filter shared).length := by
        rw [removed, List.filter_append, List.filter_append, dropped, List.append_nil]
      rw [sharedPart_run]
      simp only [sharedPart, rest]

theorem iff_plain (v : Version) (clock : Nat → Int) (c : Canvas ρ) (log : List (Entry ρ)) :
    (∃ as, sharedRun ((recorder v clock).exec (new, []) as) = (c, log)) ↔
      ∃ bs, (recorder plain clock).exec (new, []) bs = (c, log) := by
  constructor
  · rintro ⟨as, reached⟩
    obtain ⟨bs, same⟩ := Machine.exec_of_simulates (plain_simulates v clock)
      ((new : Canvas ρ), []) as
    exact ⟨bs, same.trans reached⟩
  · rintro ⟨bs, reached⟩
    obtain ⟨as, same⟩ := Machine.exec_of_simulated_by_runs (plain_simulated v clock)
      ((new : Canvas ρ), []) bs
    exact ⟨as, same.trans reached⟩

end Versions

inductive Shown (ρ : Type*)
  | called (t : Touch ρ)
  | ran (t : Touch ρ)
  | drew (calls : List (Draw ρ))
deriving DecidableEq

def Entry.shown (v : Version) : Entry ρ → Shown ρ
  | .called t => .called t
  | .ran t => .ran t
  | .painted path => .drew (draws v path)

def Draw.isCircle : Draw ρ → Bool
  | .drawCircle _ _ => true
  | _ => false

def Shown.withoutCircles : Shown ρ → Shown ρ
  | .drew calls => .drew (calls.filter (!Draw.isCircle ·))
  | e => e

theorem withoutCircles_shown (e : Entry ρ) :
    (e.shown desktop).withoutCircles = e.shown android := by
  cases e with
  | called t | ran t => rfl
  | painted path =>
    have circles : (path.map Verb.circle).filter (!Draw.isCircle ·) = [] := by
      rw [List.filter_eq_nil_iff]
      intro call member
      obtain ⟨verb, -, rfl⟩ := List.mem_map.mp member
      cases verb <;> simp [Verb.circle, Draw.isCircle]
    change Shown.drew ([.clear, .drawPath path] ++
      (path.map Verb.circle).filter (!Draw.isCircle ·)) = .drew ([.clear, .drawPath path] ++ [])
    rw [circles]

/-- The `ShowInfo` and `FlushTrace` tasks that wait apart, the two versions have the same
canvases after the same touches called and run, and draw the same frames in between but
for the circles of the desktop. -/
theorem android_iff_desktop (clock : Nat → Int) (c : Canvas ρ) (log : List (Shown ρ)) :
    (∃ as, ∃ s, (recorder android clock).exec (new, []) as = s ∧
        sharedPart s.1 = c ∧ s.2.map (Entry.shown android) = log) ↔
      ∃ bs, ∃ s, (recorder desktop clock).exec (new, []) bs = s ∧
        sharedPart s.1 = c ∧
          s.2.map (fun e => (e.shown desktop).withoutCircles) = log := by
  simp only [withoutCircles_shown]
  have same (entries : List (Entry ρ)) :=
    (iff_plain android clock c entries).trans (iff_plain desktop clock c entries).symm
  constructor
  · rintro ⟨as, s, rfl, rfl, rfl⟩
    obtain ⟨bs, reached⟩ := (same _).mp ⟨as, rfl⟩
    obtain ⟨canvas, entries⟩ := Prod.mk.inj reached
    exact ⟨bs, _, rfl, canvas, congrArg _ entries⟩
  · rintro ⟨bs, s, rfl, rfl, rfl⟩
    obtain ⟨as, reached⟩ := (same _).mpr ⟨bs, rfl⟩
    obtain ⟨canvas, entries⟩ := Prod.mk.inj reached
    exact ⟨as, _, rfl, canvas, congrArg _ entries⟩

end ChromiumDemo.CanvasFrames
