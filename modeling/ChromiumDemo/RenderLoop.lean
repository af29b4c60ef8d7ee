import ChromiumDemo.SkiaCanvas
import ChromiumDemo.TransitionSystem
import Mathlib.Data.List.Perm.Basic

/-! The 16 ms render loop of `SkiaCanvas`: the canvas with its posted tasks as a
transition system, run by the UI thread (touches) and the render thread (the
first posted task, or any delayed one that has come due). -/

namespace ChromiumDemo.RenderLoop
open TransitionSystem SkiaCanvas

variable {ρ : Type*}

inductive Action (ρ : Type*)
  | onTouch (action : Int) (x y : ρ)
  | runTask
  | runDelayed (n : Nat)

def next (c : Canvas ρ) : Action ρ → Option (RenderTask ρ)
  | .onTouch _ _ _ => none
  | .runTask => c.tasks.head?
  | .runDelayed n => c.delayed[n]?

def step (v : Version) (clock : Nat → Int) (c : Canvas ρ) (a : Action ρ) :
    Option (Canvas ρ) :=
  match a with
  | .onTouch action x y => some (onTouch action x y c)
  | .runTask => (next c a).map fun t => run v clock t { c with tasks := c.tasks.tail }
  | .runDelayed n =>
    (next c a).map fun t => run v clock t { c with delayed := c.delayed.eraseIdx n }

def machine (v : Version) (clock : Nat → Int) : Machine (Canvas ρ) (Action ρ) :=
  ⟨step v clock⟩

/-- The loop is one pending render task while drawing and none otherwise. -/
structure LoopInv (c : Canvas ρ) : Prop where
  pending : pendingRenders c = if c.isDrawing then 1 else 0
  wanted : c.needRedraw = true → c.isDrawing = true

theorem new_loopInv : LoopInv (new : Canvas ρ) := ⟨rfl, fun h => by cases h⟩

structure Taken (c d : Canvas ρ) (t : RenderTask ρ) : Prop where
  needRedraw : d.needRedraw = c.needRedraw
  isDrawing : d.isDrawing = c.isDrawing
  renders : renders d = renders c
  paints : paints d = paints c
  pending : pendingRenders d + (if t.isRender then 1 else 0) = pendingRenders c

theorem countP_eraseIdx {α : Type*} (q : α → Bool) {l : List α} {n : Nat} {a : α}
    (h : l[n]? = some a) :
    (l.eraseIdx n).countP q + (if q a then 1 else 0) = l.countP q := by
  obtain ⟨hn, rfl⟩ := List.getElem?_eq_some_iff.mp h
  rw [← (List.getElem_cons_eraseIdx_perm hn).countP_eq, List.countP_cons]

theorem step_cases {v : Version} {clock : Nat → Int} {c d : Canvas ρ} {a : Action ρ}
    (h : step v clock c a = some d) :
    (∃ action x y, d = onTouch action x y c) ∨
    ∃ t e, next c a = some t ∧ Taken c e t ∧ d = run v clock t e := by
  cases a with
  | onTouch action x y => exact .inl ⟨action, x, y, (Option.some.inj h).symm⟩
  | runTask =>
    obtain ⟨t, ht, rfl⟩ := Option.map_eq_some_iff.mp h
    refine .inr ⟨t, { c with tasks := c.tasks.tail }, ht, ⟨rfl, rfl, rfl, rfl, ?_⟩, rfl⟩
    obtain ⟨rest, hc⟩ := List.head?_eq_some_iff.mp ht
    simp only [pendingRenders, hc, List.tail_cons, List.countP_cons]
    omega
  | runDelayed n =>
    obtain ⟨t, ht, rfl⟩ := Option.map_eq_some_iff.mp h
    refine .inr
      ⟨t, { c with delayed := c.delayed.eraseIdx n }, ht, ⟨rfl, rfl, rfl, rfl, ?_⟩, rfl⟩
    have erased := countP_eraseIdx RenderTask.isRender ht
    simp only [pendingRenders]
    omega

theorem run_loopInv (v : Version) (clock : Nat → Int) {c e : Canvas ρ} {t : RenderTask ρ}
    (inv : LoopInv c) (taken : Taken c e t) : LoopInv (run v clock t e) := by
  have pending := taken.pending
  rw [inv.pending, ← taken.isDrawing] at pending
  have wanted : e.needRedraw = true → e.isDrawing = true := by
    rw [taken.needRedraw, taken.isDrawing]
    exact inv.wanted
  cases t with
  | initializeOnRenderThread | showInfo | flushTrace =>
    simp only [RenderTask.isRender, Bool.false_eq_true, if_false, Nat.add_zero] at pending
    exact ⟨pending, wanted⟩
  | render =>
    -- the loop reposts itself exactly when a redraw is still wanted
    have none_left : pendingRenders e = 0 := by
      simp only [RenderTask.isRender, if_true] at pending
      split at pending <;> omega
    exact ⟨by simp [run, none_left], by simp [run]⟩
  | touch action x y =>
    simp only [RenderTask.isRender, Bool.false_eq_true, if_false, Nat.add_zero] at pending
    by_cases down : action = 0
    · subst down
      obtain ⟨need, drawing, count⟩ := onTouch_down clock e v x y
      refine ⟨?_, fun _ => drawing⟩
      rw [run, count, drawing, pending]
      cases e.isDrawing <;> rfl
    · obtain ⟨need, drawing, count, -, -⟩ := onTouch_other clock e v down x y
      refine ⟨by rw [run, count, drawing, pending], fun h => ?_⟩
      rw [run, need, Bool.and_eq_true] at h
      rw [run, drawing, wanted h.1]

theorem step_loopInv (v : Version) (clock : Nat → Int) (c : Canvas ρ) (a : Action ρ)
    (d : Canvas ρ) (inv : LoopInv c) (h : (machine v clock).step c a = some d) : LoopInv d := by
  obtain ⟨action, x, y, rfl⟩ | ⟨t, e, -, taken, rfl⟩ := step_cases h
  · exact ⟨(onTouch_pendingRenders action x y c).trans inv.pending, inv.wanted⟩
  · exact run_loopInv v clock inv taken

theorem exec_loopInv (v : Version) (clock : Nat → Int) (as : List (Action ρ)) :
    LoopInv ((machine v clock).exec new as) :=
  Machine.exec_invariant (step_loopInv v clock) new_loopInv as

def NotDown (c : Canvas ρ) (a : Action ρ) : Prop := ∀ t, next c a = some t → t.isDown = false

/-- The loop winding down from `c`: no redraw is wanted, nothing has been
painted, and a render that has run is one that was pending. -/
structure Winding (c d : Canvas ρ) : Prop where
  needRedraw : d.needRedraw = false
  paints : paints d = paints c
  renders : renders d + pendingRenders d = renders c + pendingRenders c

theorem step_winding (v : Version) (clock : Nat → Int) (b c : Canvas ρ) (a : Action ρ)
    (d : Canvas ρ) (inv : Winding b c) (quiet : NotDown c a)
    (h : (machine v clock).step c a = some d) : Winding b d := by
  obtain ⟨action, x, y, rfl⟩ | ⟨t, e, ht, taken, rfl⟩ := step_cases h
  · refine ⟨inv.needRedraw, inv.paints, ?_⟩
    rw [onTouch_pendingRenders]
    exact inv.renders
  have need : e.needRedraw = false := taken.needRedraw.trans inv.needRedraw
  have drawn : paints e = paints b := taken.paints.trans inv.paints
  have pending := taken.pending
  have total := inv.renders
  rw [← taken.renders] at total
  cases t with
  | initializeOnRenderThread | showInfo | flushTrace =>
    refine ⟨need, drawn, ?_⟩
    simp only [RenderTask.isRender, Bool.false_eq_true, if_false, Nat.add_zero] at pending
    rw [run]
    omega
  | render =>
    refine ⟨by simp [run, need], by simp [run, need, drawn], ?_⟩
    simp only [RenderTask.isRender, if_true] at pending
    simp only [run, onRender_renders, onRender_pendingRenders, need, Bool.false_eq_true, if_false]
    omega
  | touch action x y =>
    have up : action ≠ 0 := by simpa [RenderTask.isDown] using quiet _ ht
    obtain ⟨needs, -, count, calls, frames⟩ := onTouch_other clock e v up x y
    simp only [RenderTask.isRender, Bool.false_eq_true, if_false, Nat.add_zero] at pending
    refine ⟨by rw [run, needs, need, Bool.false_and], by rw [run, frames, drawn], ?_⟩
    rw [run, count, calls]
    omega

theorem exec_winding (v : Version) (clock : Nat → Int) {c : Canvas ρ}
    (need : c.needRedraw = false) (bs : List (Action ρ))
    (quiet : ∀ p ∈ (machine v clock).taken c bs, NotDown p.1 p.2) :
    Winding c ((machine v clock).exec c bs) :=
  Machine.exec_invariant_of_taken (step_winding v clock c) ⟨need, rfl, rfl⟩ quiet

/-- In every reachable state the loop is alone, alive while a redraw is wanted,
and once none is wanted it ends with at most one more call that paints nothing. -/
theorem render_loop (v : Version) (clock : Nat → Int) (as : List (Action ρ)) :
    LoopInv ((machine v clock).exec new as) ∧
    (((machine v clock).exec new as).needRedraw = false → ∀ bs,
      (∀ p ∈ (machine v clock).taken ((machine v clock).exec new as) bs, NotDown p.1 p.2) →
      renders ((machine v clock).exec new (as ++ bs)) ≤
          renders ((machine v clock).exec new as) + 1 ∧
        paints ((machine v clock).exec new (as ++ bs)) =
          paints ((machine v clock).exec new as)) := by
  have inv := exec_loopInv v clock as
  refine ⟨inv, fun need bs quiet => ?_⟩
  have winding := exec_winding v clock need bs quiet
  rw [Machine.exec_append]
  have pending := inv.pending
  have total := winding.renders
  refine ⟨?_, winding.paints⟩
  split at pending <;> omega

end ChromiumDemo.RenderLoop
