import ChromiumDemo.RenderLoop
import ChromiumDemo.WindowStartup

/-! The way of a gesture from the platform to `need_redraw_`, through the touch
listener of the Android activity or through `DispatchEvent` of demo_skia. A front
end says what an event means to a gesture and which calls of `OnTouch` it makes. -/

namespace ChromiumDemo.TouchGestures
open TransitionSystem SkiaCanvas RenderLoop
open WindowStartup (EventType touchAction)

variable {E ρ : Type*}

structure Touch (ρ : Type*) where
  action : Int
  x : ρ
  y : ρ

/-- `breaksOff` is a cancel or a lost capture. -/
inductive Role
  | begins
  | moves
  | releases
  | breaksOff
  | stray
deriving DecidableEq

inductive Progress
  | ended
  | inGesture
  | brokenOff
deriving DecidableEq

/-- Gestures do not overlap; a capture may also be lost outside of one. -/
def Progress.next : Progress → Role → Option Progress
  | .inGesture, .begins => none
  | _, .begins => some .inGesture
  | .inGesture, .moves => some .inGesture
  | .inGesture, .releases => some .ended
  | .inGesture, .breaksOff => some .brokenOff
  | p, .breaksOff => some p
  | p, .stray => some p
  | _, _ => none

/-- The action codes that events of each role may be forwarded with. -/
def Role.Forwards : Role → List Int → Prop
  | .begins, codes => codes ≠ [] ∧ ∀ a ∈ codes, a = 0
  | .releases, codes => codes ≠ [] ∧ ∀ a ∈ codes, a = 1
  | _, codes => ∀ a ∈ codes, a ≠ 0 ∧ a ≠ 1

structure FrontEnd (E ρ : Type*) where
  version : Version
  role : E → Role
  forward : E → List (Touch ρ)
  forwards : ∀ e, (role e).Forwards ((forward e).map Touch.action)

structure MotionEvent (ρ : Type*) where
  action : Nat
  pointers : List (ρ × ρ)
  pointers_ne_nil : pointers ≠ []

def MotionEvent.masked (e : MotionEvent ρ) : Nat := e.action % 256

def MotionEvent.role (e : MotionEvent ρ) : Role :=
  if e.masked = 0 then .begins
  else if e.masked = 1 then .releases
  else if e.masked = 2 ∨ e.masked = 5 ∨ e.masked = 6 then .moves
  else if e.masked = 3 then .breaksOff
  else .stray

def onTouchListener (e : MotionEvent ρ) : List (Touch ρ) :=
  e.pointers.map fun p => ⟨e.masked, p.1, p.2⟩

theorem onTouchListener_forwards (e : MotionEvent ρ) :
    e.role.Forwards ((onTouchListener e).map Touch.action) := by
  have codes : ∀ a ∈ (onTouchListener e).map Touch.action, a = e.masked := by
    intro a ha
    obtain ⟨t, ht, rfl⟩ := List.mem_map.mp ha
    obtain ⟨p, -, rfl⟩ := List.mem_map.mp ht
    rfl
  have nonempty : (onTouchListener e).map Touch.action ≠ [] := by
    simpa [onTouchListener] using e.pointers_ne_nil
  unfold MotionEvent.role
  split
  case isTrue down => exact ⟨nonempty, fun a ha => by simp [codes a ha, down]⟩
  split
  case isTrue up => exact ⟨nonempty, fun a ha => by simp [codes a ha, up]⟩
  have ignored : ∀ a ∈ (onTouchListener e).map Touch.action, a ≠ 0 ∧ a ≠ 1 := by
    intro a ha
    have code := codes a ha
    omega
  split
  · exact ignored
  · split <;> exact ignored

def android : FrontEnd (MotionEvent ρ) ρ where
  version := SkiaCanvas.android
  role := MotionEvent.role
  forward := onTouchListener
  forwards := onTouchListener_forwards

inductive DesktopEvent (ρ : Type*)
  | dispatchEvent (e : WindowStartup.Event ρ)
  | onLostCapture

/-- Mouse events belong to a gesture while the left button is held. -/
def DesktopEvent.role : DesktopEvent ρ → Role
  | .dispatchEvent e => match e.type with
    | .touchPressed => .begins
    | .touchMoved => .moves
    | .touchReleased => .releases
    | .touchCancelled => .breaksOff
    | .mousePressed => if e.isLeftMouseButton then .begins else .stray
    | .mouseDragged => if e.isLeftMouseButton then .moves else .stray
    | .mouseReleased => if e.isLeftMouseButton then .releases else .stray
    | _ => .stray
  | .onLostCapture => .breaksOff

def DesktopEvent.forward : DesktopEvent ρ → List (Touch ρ)
  | .dispatchEvent e => ((touchAction e).map fun action => ⟨action, e.x, e.y⟩).toList
  | .onLostCapture => []

theorem DesktopEvent.forward_forwards (e : DesktopEvent ρ) :
    e.role.Forwards (e.forward.map Touch.action) := by
  cases e with
  | onLostCapture => simp [role, forward, Role.Forwards]
  | dispatchEvent e =>
    cases left : e.isLeftMouseButton <;> cases type : e.type <;>
      simp [role, forward, Role.Forwards, touchAction, type, left, EventType.isMouseEvent,
        EventType.isTouchEvent]

def desktop : FrontEnd (DesktopEvent ρ) ρ where
  version := SkiaCanvas.desktop
  role := DesktopEvent.role
  forward := DesktopEvent.forward
  forwards := DesktopEvent.forward_forwards

def FrontEnd.progress (f : FrontEnd E ρ) : Progress → List E → Option Progress
  | p, [] => some p
  | p, e :: es => (p.next (f.role e)).bind fun q => f.progress q es

structure Stream (f : FrontEnd E ρ) where
  events : List E
  progress : Progress
  legal : f.progress .ended events = some progress

def Stream.touches {f : FrontEnd E ρ} (s : Stream f) : List (Touch ρ) :=
  s.events.flatMap f.forward

def redraw (wanted : Bool) (codes : List Int) : Bool :=
  codes.foldl (fun b a => if a = 0 then true else b && !decide (a = 1)) wanted

theorem redraw_append (b : Bool) (k l : List Int) :
    redraw b (k ++ l) = redraw (redraw b k) l :=
  List.foldl_append

theorem redraw_of_ignored (b : Bool) {codes : List Int} (ignored : ∀ a ∈ codes, a ≠ 0 ∧ a ≠ 1) :
    redraw b codes = b := by
  induction codes generalizing b with
  | nil => rfl
  | cons a codes ih =>
    rw [List.forall_mem_cons] at ignored
    have same : redraw b [a] = b := by simp [redraw, ignored.1]
    rw [← List.singleton_append, redraw_append, same, ih b ignored.2]

theorem redraw_of_downs (b : Bool) {codes : List Int} (nonempty : codes ≠ [])
    (downs : ∀ a ∈ codes, a = 0) : redraw b codes = true := by
  induction codes generalizing b with
  | nil => exact absurd rfl nonempty
  | cons a codes ih =>
    rw [List.forall_mem_cons] at downs
    have set : redraw b [a] = true := by simp [redraw, downs.1]
    rw [← List.singleton_append, redraw_append, set]
    cases codes with
    | nil => rfl
    | cons c codes => exact ih true (by simp) downs.2

theorem redraw_of_ups (b : Bool) {codes : List Int} (nonempty : codes ≠ [])
    (ups : ∀ a ∈ codes, a = 1) : redraw b codes = false := by
  induction codes generalizing b with
  | nil => exact absurd rfl nonempty
  | cons a codes ih =>
    rw [List.forall_mem_cons] at ups
    have cleared : redraw b [a] = false := by simp [redraw, ups.1]
    rw [← List.singleton_append, redraw_append, cleared]
    cases codes with
    | nil => rfl
    | cons c codes => exact ih false (by simp) ups.2

theorem redraw_before {b : Bool} {codes : List Int} (later : ∀ a ∈ codes, a ≠ 0)
    (wanted : redraw b codes = true) : b = true := by
  induction codes generalizing b with
  | nil => exact wanted
  | cons a codes ih =>
    rw [List.forall_mem_cons] at later
    rw [← List.singleton_append, redraw_append] at wanted
    have still := ih later.2 wanted
    simp only [redraw, List.foldl_cons, List.foldl_nil, later.1, if_false,
      Bool.and_eq_true] at still
    exact still.1

theorem Progress.redraw_next {p q : Progress} {r : Role} {codes : List Int}
    (h : p.next r = some q) (forwards : r.Forwards codes) :
    redraw (p != .ended) codes = (q != .ended) := by
  cases r with
  | begins =>
    rw [redraw_of_downs _ forwards.1 forwards.2]
    cases p <;> simp only [next, Option.some.injEq, reduceCtorEq] at h <;> (subst h; rfl)
  | releases =>
    rw [redraw_of_ups _ forwards.1 forwards.2]
    cases p <;> simp only [next, Option.some.injEq, reduceCtorEq] at h
    subst h
    rfl
  | moves | breaksOff | stray =>
    rw [redraw_of_ignored _ forwards]
    cases p <;> simp only [next, Option.some.injEq, reduceCtorEq] at h <;> (subst h; rfl)

theorem FrontEnd.redraw_progress (f : FrontEnd E ρ) {p q : Progress} {es : List E}
    (h : f.progress p es = some q) :
    redraw (p != .ended) ((es.flatMap f.forward).map Touch.action) = (q != .ended) := by
  induction es generalizing p with
  | nil =>
    cases h
    rfl
  | cons e es ih =>
    obtain ⟨r, first, rest⟩ := Option.bind_eq_some_iff.mp h
    rw [List.flatMap_cons, List.map_append, redraw_append,
      Progress.redraw_next first (f.forwards e)]
    exact ih rest

def RenderTask.code : RenderTask ρ → Option Int
  | .touch action _ _ => some action
  | _ => none

def queued (c : Canvas ρ) : List Int := c.tasks.filterMap RenderTask.code

def posted : RenderLoop.Action ρ → Option (Touch ρ)
  | .onTouch action x y => some ⟨action, x, y⟩
  | _ => none

def Untouched (tasks : List (RenderTask ρ)) : Prop := ∀ t ∈ tasks, RenderTask.code t = none

section Specs
variable (clock : Nat → Int)

theorem onRender_tasks (c : Canvas ρ) :
    (onRenderOnRenderThread clock c).tasks = c.tasks := by
  cases h : c.needRedraw <;> simp [onRenderOnRenderThread, h]

theorem onRender_untouched (c : Canvas ρ) (h : Untouched c.delayed) :
    Untouched (onRenderOnRenderThread clock c).delayed := by
  cases need : c.needRedraw with
  | false => simpa [onRenderOnRenderThread, need] using h
  | true =>
    simp only [onRenderOnRenderThread, need, Bool.not_true, Bool.false_eq_true, if_false]
    exact List.forall_mem_append.mpr ⟨h, by simp [RenderTask.code]⟩

theorem setNeedsRedraw_tasks (needRedraw : Bool) (c : Canvas ρ) :
    (setNeedsRedraw clock needRedraw true c).tasks = c.tasks := by
  rw [setNeedsRedraw]
  split
  · exact onRender_tasks clock _
  · rfl

theorem setNeedsRedraw_untouched (needRedraw : Bool) (c : Canvas ρ) (h : Untouched c.delayed) :
    Untouched (setNeedsRedraw clock needRedraw true c).delayed := by
  rw [setNeedsRedraw]
  split
  · exact onRender_untouched clock _ h
  · exact h

theorem showFrameRate_tasks (v : Version) (c : Canvas ρ) :
    ∃ more, Untouched more ∧ (showFrameRateOnRenderThread v c).tasks = c.tasks ++ more := by
  refine ⟨if v.showsInfoOnRenderThread then [.showInfo] else [], ?_, rfl⟩
  split <;> simp [Untouched, RenderTask.code]

theorem run_tasks (v : Version) (t : RenderTask ρ) (c : Canvas ρ) :
    ∃ more, Untouched more ∧ (run v clock t c).tasks = c.tasks ++ more := by
  have nothing : ∀ d : Canvas ρ, d.tasks = c.tasks →
      ∃ more, Untouched more ∧ d.tasks = c.tasks ++ more := fun d same =>
    ⟨[], by simp [Untouched], by rw [same, List.append_nil]⟩
  cases t with
  | initializeOnRenderThread | showInfo | flushTrace => exact nothing c rfl
  | render => exact nothing _ (onRender_tasks clock c)
  | touch action x y =>
    rw [run, onTouchOnRenderThread]
    split
    · exact nothing _ (setNeedsRedraw_tasks clock true _)
    · split
      · split
        · obtain ⟨more, untouched, tasks⟩ := showFrameRate_tasks v (setNeedsRedraw clock false true
            { c with
              skPath := c.skPath ++ [.lineTo x y]
              totalTouchTime := clock c.ticks - c.touchStartTime
              touchCount := increment c.touchCount
              ticks := c.ticks + 1 })
          rw [setNeedsRedraw_tasks] at tasks
          refine ⟨more, untouched, ?_⟩
          split <;> exact tasks
        · exact nothing _ rfl
      · exact nothing _ rfl

theorem queued_run (v : Version) (t : RenderTask ρ) (c : Canvas ρ) :
    queued (run v clock t c) = queued c := by
  obtain ⟨more, untouched, tasks⟩ := run_tasks clock v t c
  rw [queued, tasks, List.filterMap_append, List.filterMap_eq_nil_iff.mpr untouched,
    List.append_nil, queued]

theorem run_untouched (v : Version) (t : RenderTask ρ) (c : Canvas ρ)
    (h : Untouched c.delayed) : Untouched (run v clock t c).delayed := by
  cases t with
  | initializeOnRenderThread | showInfo | flushTrace => exact h
  | render => exact onRender_untouched clock c h
  | touch action x y =>
    rw [run, onTouchOnRenderThread]
    split
    · exact setNeedsRedraw_untouched clock true _ h
    · split
      · split
        · have kept := setNeedsRedraw_untouched clock false { c with
            skPath := c.skPath ++ [.lineTo x y]
            totalTouchTime := clock c.ticks - c.touchStartTime
            touchCount := increment c.touchCount
            ticks := c.ticks + 1 } h
          split
          · exact List.forall_mem_append.mpr ⟨kept, by simp [RenderTask.code]⟩
          · exact kept
        · exact h
      · exact h

theorem run_needRedraw (v : Version) (t : RenderTask ρ) (c : Canvas ρ) :
    (run v clock t c).needRedraw = redraw c.needRedraw (RenderTask.code t).toList := by
  cases t with
  | initializeOnRenderThread | showInfo | flushTrace => rfl
  | render => exact onRender_needRedraw clock c
  | touch action x y =>
    by_cases down : action = 0
    · subst down
      exact (onTouch_down clock c v x y).1
    · rw [run, (onTouch_other clock c v down x y).1]
      simp [RenderTask.code, redraw, down]

end Specs

/-- The canvas after the touches `codes` have been posted, of which `ran` have run. -/
structure Follows (ran codes : List Int) (c : Canvas ρ) : Prop where
  order : ran ++ queued c = codes
  needRedraw : c.needRedraw = redraw false ran
  untouched : Untouched c.delayed

theorem new_follows : Follows [] [] (new : Canvas ρ) := ⟨rfl, rfl, by simp [Untouched, new]⟩

section Runs
variable (v : Version) (clock : Nat → Int)

theorem step_follows {ran codes : List Int} {c d : Canvas ρ} {a : RenderLoop.Action ρ}
    (inv : Follows ran codes c) (h : RenderLoop.step v clock c a = some d) :
    ∃ more, Follows (ran ++ more) (codes ++ ((posted a).map Touch.action).toList) d := by
  cases a with
  | onTouch action x y =>
    cases h
    refine ⟨[], ?_, ?_, inv.untouched⟩
    · rw [← inv.order]
      simp [queued, SkiaCanvas.onTouch, posted, RenderTask.code]
    · rw [List.append_nil]
      exact inv.needRedraw
  | runTask =>
    obtain ⟨t, ht, rfl⟩ := Option.map_eq_some_iff.mp h
    obtain ⟨rest, hc⟩ := List.head?_eq_some_iff.mp ht
    refine ⟨(RenderTask.code t).toList, ?_, ?_, run_untouched clock v t _ inv.untouched⟩
    · rw [queued_run, ← inv.order, queued, queued, hc]
      cases code : RenderTask.code t <;> simp [posted, code]
    · rw [run_needRedraw, redraw_append, ← inv.needRedraw]
  | runDelayed n =>
    obtain ⟨t, ht, rfl⟩ := Option.map_eq_some_iff.mp h
    have code : RenderTask.code t = none := inv.untouched t (List.mem_of_getElem? ht)
    have fewer : Untouched (c.delayed.eraseIdx n) := fun d hd =>
      inv.untouched d (List.mem_of_mem_eraseIdx hd)
    refine ⟨[], ?_, ?_, run_untouched clock v t _ fewer⟩
    · rw [queued_run, ← inv.order]
      simp [queued, posted]
    · rw [run_needRedraw, code, List.append_nil]
      exact inv.needRedraw

theorem exec_follows (as : List (RenderLoop.Action ρ)) {ran codes : List Int} {c : Canvas ρ}
    (inv : Follows ran codes c) :
    ∃ more, Follows (ran ++ more) (codes ++ (as.filterMap posted).map Touch.action)
      ((RenderLoop.machine v clock).exec c as) := by
  induction as generalizing ran codes c with
  | nil => exact ⟨[], by simpa using inv⟩
  | cons a as ih =>
    rw [Machine.exec_cons]
    cases h : RenderLoop.step v clock c a with
    | none =>
      have silent : posted a = none := by
        cases a with
        | onTouch action x y => cases h
        | runTask | runDelayed n => rfl
      rw [Machine.next_of_none h, List.filterMap_cons_none silent]
      exact ih inv
    | some d =>
      obtain ⟨first, next⟩ := step_follows v clock inv h
      obtain ⟨more, last⟩ := ih next
      rw [Machine.next_of_some h]
      refine ⟨first ++ more, ?_⟩
      rw [← List.append_assoc]
      cases touch : posted a with
      | none => simpa [touch, List.filterMap_cons] using last
      | some t => simpa [touch, List.filterMap_cons] using last

theorem next_runTask (c : Canvas ρ) :
    ∃ more, Untouched more ∧
      ((RenderLoop.machine v clock).next c .runTask).tasks = c.tasks.tail ++ more := by
  cases hc : c.tasks with
  | nil =>
    rw [Machine.next_of_none (by simp [RenderLoop.machine, RenderLoop.step, RenderLoop.next, hc])]
    exact ⟨[], by simp [Untouched], hc⟩
  | cons t rest =>
    have taken : (RenderLoop.machine v clock).step c .runTask =
        some (run v clock t { c with tasks := c.tasks.tail }) := by
      simp [RenderLoop.machine, RenderLoop.step, RenderLoop.next, hc]
    obtain ⟨more, untouched, tasks⟩ := run_tasks clock v t { c with tasks := c.tasks.tail }
    rw [Machine.next_of_some taken, tasks]
    exact ⟨more, untouched, by rw [hc]⟩

theorem queued_exec_runTask (n : Nat) (c : Canvas ρ) :
    queued ((RenderLoop.machine v clock).exec c (List.replicate n .runTask)) =
      (c.tasks.drop n).filterMap RenderTask.code := by
  induction n generalizing c with
  | zero => rfl
  | succ n ih =>
    obtain ⟨more, untouched, tasks⟩ := next_runTask v clock c
    have later : (more.drop (n - c.tasks.tail.length)).filterMap RenderTask.code = [] :=
      List.filterMap_eq_nil_iff.mpr fun t ht => untouched t (List.mem_of_mem_drop ht)
    rw [List.replicate_succ, Machine.exec_cons, ih, tasks, List.drop_append,
      List.filterMap_append, later, List.append_nil, List.drop_tail]

theorem untouched_of_queued {c : Canvas ρ} (h : queued c = []) : Untouched c.tasks :=
  List.filterMap_eq_nil_iff.mp h

theorem notDown_of_untouched {c : Canvas ρ} {a : RenderLoop.Action ρ} (tasks : Untouched c.tasks)
    (delayed : Untouched c.delayed) : NotDown c a := by
  have no_code : ∀ t : RenderTask ρ, RenderTask.code t = none → t.isDown = false := by
    intro t ht
    cases t with
    | touch action x y => simp [RenderTask.code] at ht
    | initializeOnRenderThread | render | showInfo | flushTrace => rfl
  intro t ht
  cases a with
  | onTouch action x y => cases ht
  | runTask =>
    obtain ⟨rest, hc⟩ := List.head?_eq_some_iff.mp ht
    exact no_code t (tasks t (by simp [hc]))
  | runDelayed n => exact no_code t (delayed t (List.mem_of_getElem? ht))

theorem step_untouched {c d : Canvas ρ} {a : RenderLoop.Action ρ} (silent : posted a = none)
    (tasks : Untouched c.tasks) (delayed : Untouched c.delayed)
    (h : RenderLoop.step v clock c a = some d) : Untouched d.tasks ∧ Untouched d.delayed := by
  cases a with
  | onTouch action x y => cases silent
  | runTask =>
    obtain ⟨t, ht, rfl⟩ := Option.map_eq_some_iff.mp h
    refine ⟨untouched_of_queued ?_, run_untouched clock v t _ delayed⟩
    rw [queued_run]
    exact List.filterMap_eq_nil_iff.mpr fun u hu => tasks u (List.mem_of_mem_tail hu)
  | runDelayed n =>
    obtain ⟨t, ht, rfl⟩ := Option.map_eq_some_iff.mp h
    refine ⟨untouched_of_queued ?_, run_untouched clock v t _ fun u hu =>
      delayed u (List.mem_of_mem_eraseIdx hu)⟩
    rw [queued_run]
    exact List.filterMap_eq_nil_iff.mpr tasks

theorem taken_notDown {c : Canvas ρ} {bs : List (RenderLoop.Action ρ)}
    (silent : ∀ a ∈ bs, posted a = none) (tasks : Untouched c.tasks)
    (delayed : Untouched c.delayed) :
    ∀ p ∈ (RenderLoop.machine v clock).taken c bs, NotDown p.1 p.2 := by
  induction bs generalizing c with
  | nil => simp
  | cons a bs ih =>
    rw [List.forall_mem_cons] at silent
    cases h : (RenderLoop.machine v clock).step c a with
    | none =>
      rw [Machine.taken_cons_of_none h]
      exact ih silent.2 tasks delayed
    | some d =>
      obtain ⟨later, posted_later⟩ := step_untouched v clock silent.1 tasks delayed h
      rw [Machine.taken_cons_of_some h, List.forall_mem_cons]
      exact ⟨notDown_of_untouched tasks delayed, ih silent.2 later posted_later⟩

/-- At a moment of a stream: the gestures have ended, the loop has stopped for
good once the renders that are still pending have run; or the down of the open
gesture has run, and a redraw is wanted. -/
structure RepaintsOnly (p : Progress) (c : Canvas ρ) : Prop where
  ended : p ≠ .inGesture → queued c = [] → c.needRedraw = false ∧
    ∀ bs, (∀ a ∈ bs, posted a = none) →
      renders c + pendingRenders c ≤ renders ((RenderLoop.machine v clock).exec c bs) →
      pendingRenders ((RenderLoop.machine v clock).exec c bs) = 0
  held : p = .inGesture → (∀ t ∈ c.tasks, t.isDown = false) → c.needRedraw = true

end Runs

def Stream.RepaintsDuring {f : FrontEnd E ρ} (clock : Nat → Int) (s : Stream f) : Prop :=
  ∀ as, as.filterMap posted = s.touches →
    RepaintsOnly f.version clock s.progress
      ((RenderLoop.machine f.version clock).exec new as)

theorem Stream.repaintsDuring_iff {f : FrontEnd E ρ} (clock : Nat → Int) (s : Stream f) :
    s.RepaintsDuring clock ↔ s.progress ≠ .brokenOff := by
  have outcome : redraw false (s.touches.map Touch.action) = (s.progress != .ended) :=
    f.redraw_progress s.legal
  constructor
  · intro all broken
    -- deliver the whole stream, then let the render thread run every task it has
    let touches : List (RenderLoop.Action ρ) := s.touches.map fun t => .onTouch t.action t.x t.y
    let c := (RenderLoop.machine f.version clock).exec new touches
    let as := touches ++ List.replicate c.tasks.length .runTask
    have stream : as.filterMap posted = s.touches := by
      simp only [as, touches, List.filterMap_append, List.filterMap_map]
      simp [Function.comp_def, posted]
    obtain ⟨ran, inv⟩ := exec_follows f.version clock as new_follows
    rw [stream, List.nil_append, List.nil_append] at inv
    have repaints := all as stream
    have run : queued ((RenderLoop.machine f.version clock).exec new as) = [] := by
      rw [Machine.exec_append, queued_exec_runTask, List.drop_length, List.filterMap_nil]
    have order := inv.order
    rw [run, List.append_nil] at order
    have stopped := (repaints.ended (by simp [broken]) run).1
    rw [inv.needRedraw, order, outcome, broken] at stopped
    cases stopped
  · intro unbroken as stream
    obtain ⟨ran, inv⟩ := exec_follows f.version clock as new_follows
    have loop := exec_loopInv f.version clock as
    generalize (RenderLoop.machine f.version clock).exec new as = c at inv loop
    rw [stream, List.nil_append, List.nil_append] at inv
    constructor
    · intro notOpen run
      have ended : s.progress = .ended := by
        cases h : s.progress with
        | ended => rfl
        | inGesture => exact absurd h notOpen
        | brokenOff => exact absurd h unbroken
      have order := inv.order
      rw [run, List.append_nil] at order
      have need : c.needRedraw = false := by rw [inv.needRedraw, order, outcome, ended]; rfl
      refine ⟨need, fun bs silent later => ?_⟩
      have winding := exec_winding f.version clock need bs
        (taken_notDown f.version clock silent (untouched_of_queued run) inv.untouched)
      have total := winding.renders
      omega
    · intro inGesture noDown
      rw [inGesture, ← inv.order, redraw_append] at outcome
      rw [inv.needRedraw]
      refine redraw_before (fun a ha => ?_) outcome
      obtain ⟨t, ht, code⟩ := List.mem_filterMap.mp ha
      have up := noDown t ht
      cases t with
      | touch action x y =>
        cases code
        simpa [RenderTask.isDown] using up
      | initializeOnRenderThread | render | showInfo | flushTrace => cases code

/-- A stream repaints only during its gestures, however the threads take turns,
exactly if its last gesture was not broken off. -/
theorem repaints_during_gestures (clock : Nat → Int) :
    (∀ s : Stream (android : FrontEnd (MotionEvent ρ) ρ),
      s.RepaintsDuring clock ↔ s.progress ≠ .brokenOff) ∧
    ∀ s : Stream (desktop : FrontEnd (DesktopEvent ρ) ρ),
      s.RepaintsDuring clock ↔ s.progress ≠ .brokenOff :=
  ⟨Stream.repaintsDuring_iff clock, Stream.repaintsDuring_iff clock⟩

def cancelled : List (MotionEvent Int) :=
  [⟨0, [(1, 1)], by simp⟩, ⟨3, [(1, 1)], by simp⟩]

theorem cancelled_keeps_painting :
    ¬ ∀ s : Stream (android : FrontEnd (MotionEvent Int) Int), s.RepaintsDuring fun _ => 0 := by
  intro all
  have stopped := (all ⟨cancelled, .brokenOff, rfl⟩
    [.onTouch 0 1 1, .onTouch 3 1 1, .runTask, .runTask, .runTask] rfl).ended (by simp) rfl
  exact Bool.noConfusion stopped.1

end ChromiumDemo.TouchGestures
