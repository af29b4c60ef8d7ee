import ChromiumDemo.TouchGestures
import Mathlib.Logic.Function.Basic

/-! The activity of demo_android_skia with its two surface views, the canvas fields
that `surfaceCreated` fills, and the native canvases behind them, each with a render
thread of its own. The surfaces are numbered as the views make them; nothing deletes
a native canvas, so it is named by its place in `natives`. -/

namespace ChromiumDemo.AndroidSurfaces
open TransitionSystem SkiaCanvas TouchGestures

variable {ρ : Type*}

inductive View
  | software
  | gl
deriving DecidableEq

structure NativeCanvas (ρ : Type*) where
  surface : Nat
  useGL : Bool
  canvas : Canvas ρ := SkiaCanvas.new

/-- `fields` are `mCanvasSoftware` and `mCanvasGL`. `staleTouches` and `stalePaints`
count the touches forwarded to a canvas and the tasks that painted into it when its
surface was gone. -/
structure Activity (ρ : Type*) where
  surfaces : Nat := 0
  alive : View → Option Nat := fun _ => none
  fields : View → Option Nat := fun _ => none
  natives : List (NativeCanvas ρ) := []
  staleTouches : Nat := 0
  stalePaints : Nat := 0
  nullPointer : Bool := false

def Activity.isLive (w : Activity ρ) (surface : Nat) : Bool :=
  w.alive .software == some surface || w.alive .gl == some surface

def Activity.liveSurfaces (w : Activity ρ) : Nat :=
  (w.alive .software).toList.length + (w.alive .gl).toList.length

def Activity.made (w : Activity ρ) : List Nat := w.natives.map NativeCanvas.surface

def newSkiaCanvas (v : View) (surface : Nat) (useGL : Bool) (w : Activity ρ) : Activity ρ :=
  { w with
    natives := w.natives ++ [{ surface := surface, useGL := useGL }]
    fields := Function.update w.fields v (some w.natives.length) }

def surfaceCreated (holder : View) (w : Activity ρ) : Activity ρ :=
  let surface := w.surfaces
  let w := { w with
    surfaces := surface + 1
    alive := Function.update w.alive holder (some surface) }
  if w.fields .software = none ∧ holder = .software then newSkiaCanvas .software surface false w
  else if w.fields .gl = none ∧ holder = .gl then newSkiaCanvas .gl surface true w
  else w

/-- The callback logs; the surface is gone when it returns. -/
def surfaceDestroyed (holder : View) (w : Activity ρ) : Activity ρ :=
  { w with alive := Function.update w.alive holder none }

def onTouch (v : View) (e : MotionEvent ρ) (w : Activity ρ) : Activity ρ :=
  match w.fields v with
  | none => { w with nullPointer := true }
  | some n => match w.natives[n]? with
    | none => w
    | some c =>
      let touches := onTouchListener e
      let canvas := touches.foldl (fun c t => SkiaCanvas.onTouch t.action t.x t.y c) c.canvas
      { w with
        natives := w.natives.set n { c with canvas := canvas }
        staleTouches := w.staleTouches + if w.isLive c.surface then 0 else touches.length }

def isInitialize : RenderTask ρ → Bool
  | .initializeOnRenderThread => true
  | _ => false

/-- The first frame is painted by `InitializeOnRenderThread` of the subclass. -/
def paintsInto (t : RenderTask ρ) (c d : Canvas ρ) : Bool :=
  isInitialize t || decide (paints c < paints d)

def runOn (clock : Nat → Int) (n : Nat) (a : RenderLoop.Action ρ) (w : Activity ρ) :
    Option (Activity ρ) := do
  let c ← w.natives[n]?
  let t ← RenderLoop.next c.canvas a
  let d ← RenderLoop.step SkiaCanvas.android clock c.canvas a
  let stale := paintsInto t c.canvas d && !w.isLive c.surface
  some { w with
    natives := w.natives.set n { c with canvas := d }
    stalePaints := w.stalePaints + stale.toNat }

inductive Action (ρ : Type*)
  | surfaceCreated (holder : View)
  | surfaceDestroyed (holder : View)
  | onTouch (v : View) (e : MotionEvent ρ)
  | runTask (n : Nat)
  | runDelayed (n i : Nat)

def step (clock : Nat → Int) (w : Activity ρ) : Action ρ → Option (Activity ρ)
  | .surfaceCreated holder =>
    if w.alive holder = none then some (surfaceCreated holder w) else none
  | .surfaceDestroyed holder =>
    if w.alive holder = none then none else some (surfaceDestroyed holder w)
  | .onTouch v e => some (onTouch v e w)
  | .runTask n => runOn clock n .runTask w
  | .runDelayed n i => runOn clock n (.runDelayed i) w

def machine (clock : Nat → Int) : Machine (Activity ρ) (Action ρ) :=
  .haltOn Activity.nullPointer (step clock)

structure Paired (w : Activity ρ) : Prop where
  fields : ∀ v n, w.fields v = some n → ∃ c, w.natives[n]? = some c ∧ w.alive v = some c.surface
  touches : w.staleTouches = 0
  paints : w.stalePaints = 0
  natives : w.natives.length ≤ w.liveSurfaces

def Action.isSurfaceDestroyed : Action ρ → Bool
  | .surfaceDestroyed _ => true
  | _ => false

structure Inv (w : Activity ρ) : Prop where
  fields : ∀ v, w.fields v = none ↔ w.alive v = none
  made : ∀ v n, w.fields v = some n → n < w.made.length ∧ w.made[n]? = w.alive v
  live : ∀ s ∈ w.made, w.isLive s = true
  count : w.made.length = w.liveSurfaces
  touches : w.staleTouches = 0
  paints : w.stalePaints = 0

theorem new_inv : Inv ({} : Activity ρ) := by
  refine ⟨fun v => Iff.rfl, ?_, ?_, rfl, rfl, rfl⟩ <;> simp [Activity.made]

theorem Inv.paired {w : Activity ρ} (inv : Inv w) : Paired w := by
  refine ⟨fun v n h => ?_, inv.touches, inv.paints, ?_⟩
  · obtain ⟨bound, same⟩ := inv.made v n h
    rw [Activity.made, List.length_map] at bound
    refine ⟨w.natives[n], List.getElem?_eq_getElem bound, ?_⟩
    rw [← same]
    simp [Activity.made, bound]
  · have count := inv.count
    rw [Activity.made, List.length_map] at count
    omega

theorem made_set {w : Activity ρ} {n : Nat} {c : NativeCanvas ρ} (h : w.natives[n]? = some c)
    (d : Canvas ρ) :
    (w.natives.set n { c with canvas := d }).map NativeCanvas.surface = w.made := by
  apply List.ext_getElem?
  intro i
  by_cases same : i = n
  · subst same
    obtain ⟨bound, rfl⟩ := List.getElem?_eq_some_iff.mp h
    simp [Activity.made, bound]
  · simp [Activity.made, List.getElem?_set_ne (Ne.symm same)]

theorem surfaceCreated_eq {holder : View} {w : Activity ρ} (h : w.fields holder = none) :
    surfaceCreated holder w = newSkiaCanvas holder w.surfaces (holder = .gl) { w with
      surfaces := w.surfaces + 1
      alive := Function.update w.alive holder (some w.surfaces) } := by
  cases holder with
  | software => exact if_pos ⟨h, rfl⟩
  | gl => exact (if_neg (by simp)).trans (if_pos ⟨h, rfl⟩)

theorem surfaceCreated_made {holder : View} {w : Activity ρ} (h : w.fields holder = none) :
    (surfaceCreated holder w).made = w.made ++ [w.surfaces] := by
  simp [surfaceCreated_eq h, newSkiaCanvas, Activity.made]

theorem surfaceCreated_fields {holder : View} {w : Activity ρ} (h : w.fields holder = none) :
    (surfaceCreated holder w).fields =
      Function.update w.fields holder (some w.made.length) := by
  simp [surfaceCreated_eq h, newSkiaCanvas, Activity.made]

theorem surfaceCreated_inv {holder : View} {w : Activity ρ} (inv : Inv w)
    (gone : w.alive holder = none) : Inv (surfaceCreated holder w) := by
  have empty : w.fields holder = none := (inv.fields holder).mpr gone
  have made := surfaceCreated_made empty
  have fields := surfaceCreated_fields empty
  have alive : (surfaceCreated holder w).alive =
      Function.update w.alive holder (some w.surfaces) := by
    rw [surfaceCreated_eq empty, newSkiaCanvas]
  refine ⟨fun v => ?_, fun v n h => ?_, fun s hs => ?_, ?_, ?_, ?_⟩
  · rw [fields, alive, Function.update_apply, Function.update_apply]
    split
    · simp
    · exact inv.fields v
  · rw [fields, Function.update_apply] at h
    rw [made, alive, Function.update_apply, List.length_append, List.length_singleton]
    split at h
    case isTrue same =>
      cases h
      exact ⟨by omega, by rw [List.getElem?_concat_length, if_pos same]⟩
    case isFalse other =>
      obtain ⟨bound, kept⟩ := inv.made v n h
      refine ⟨by omega, ?_⟩
      rw [List.getElem?_append_left bound, kept, if_neg other]
  · rw [made, List.mem_append, List.mem_singleton] at hs
    rw [Activity.isLive, alive]
    rcases hs with old | rfl
    · have live := inv.live s old
      rw [Activity.isLive] at live
      cases holder <;> simp_all
    · cases holder <;> simp
  · rw [made, List.length_append, inv.count, Activity.liveSurfaces, Activity.liveSurfaces, alive]
    cases holder with
    | software => simp [gone, Nat.add_comm]
    | gl => simp [gone]
  · rw [surfaceCreated_eq empty]
    exact inv.touches
  · rw [surfaceCreated_eq empty]
    exact inv.paints

theorem set_inv {w : Activity ρ} {n : Nat} {c : NativeCanvas ρ} (inv : Inv w)
    (h : w.natives[n]? = some c) (d : Canvas ρ) :
    Inv { w with natives := w.natives.set n { c with canvas := d } } := by
  have made : Activity.made { w with natives := w.natives.set n { c with canvas := d } } =
      w.made := made_set h d
  refine { inv with made := ?_, live := ?_, count := ?_ }
  · rw [made]
    exact inv.made
  · rw [made]
    exact inv.live
  · rw [made]
    exact inv.count

theorem Inv.isLive {w : Activity ρ} (inv : Inv w) {n : Nat} {c : NativeCanvas ρ}
    (h : w.natives[n]? = some c) : w.isLive c.surface = true :=
  inv.live c.surface (List.mem_map_of_mem (List.mem_of_getElem? h))

theorem onTouch_inv {w : Activity ρ} (inv : Inv w) (v : View) (e : MotionEvent ρ) :
    Inv (onTouch v e w) := by
  cases field : w.fields v with
  | none =>
    simp only [onTouch, field]
    exact { inv with }
  | some n =>
    cases h : w.natives[n]? with
    | none =>
      simp only [onTouch, field, h]
      exact inv
    | some c =>
      simp only [onTouch, field, h, inv.isLive h, if_true, Nat.add_zero]
      exact set_inv inv h _

theorem runOn_inv {w t : Activity ρ} (inv : Inv w) (clock : Nat → Int) (n : Nat)
    (a : RenderLoop.Action ρ) (h : runOn clock n a w = some t) : Inv t := by
  obtain ⟨c, hc, h⟩ := Option.bind_eq_some_iff.mp h
  obtain ⟨task, -, h⟩ := Option.bind_eq_some_iff.mp h
  obtain ⟨d, -, h⟩ := Option.bind_eq_some_iff.mp h
  simp only [inv.isLive hc, Bool.not_true, Bool.and_false, Bool.toNat_false, Nat.add_zero,
    Option.some.injEq] at h
  subst h
  exact set_inv inv hc d

theorem step_inv (clock : Nat → Int) (w : Activity ρ) (a : Action ρ) (t : Activity ρ)
    (inv : Inv w) (kept : a.isSurfaceDestroyed = false)
    (h : (machine clock).step w a = some t) : Inv t := by
  obtain ⟨-, h⟩ := Machine.step_of_haltOn h
  cases a with
  | surfaceCreated holder =>
    obtain ⟨gone, ⟨⟩⟩ := Option.ite_none_right_eq_some.mp h
    exact surfaceCreated_inv inv gone
  | surfaceDestroyed holder => cases kept
  | onTouch v e =>
    cases h
    exact onTouch_inv inv v e
  | runTask n => exact runOn_inv inv clock n _ h
  | runDelayed n i => exact runOn_inv inv clock n _ h

theorem surfaceDestroyed_unpaired (clock : Nat → Int) (w : Activity ρ) (a : Action ρ)
    (t : Activity ρ) (inv : Inv w) (destroyed : ¬ a.isSurfaceDestroyed = false)
    (h : (machine clock).step w a = some t) : ¬ Paired t := by
  obtain ⟨-, h⟩ := Machine.step_of_haltOn h
  cases a with
  | surfaceCreated _ | onTouch _ _ | runTask _ | runDelayed _ _ => exact absurd rfl destroyed
  | surfaceDestroyed holder =>
    obtain ⟨shown, ⟨⟩⟩ := Option.ite_none_left_eq_some.mp h
    intro paired
    obtain ⟨n, field⟩ := Option.ne_none_iff_exists'.mp (mt (inv.fields holder).mp shown)
    obtain ⟨c, -, live⟩ := paired.fields holder n field
    simp [surfaceDestroyed] at live

/-- Surfaces and canvases stay paired throughout a run exactly if no surface is
destroyed in it. -/
theorem paired_iff (clock : Nat → Int) (as : List (Action ρ)) :
    (∀ w ∈ (machine clock).visited ({} : Activity ρ) as, Paired w) ↔
    ∀ p ∈ (machine clock).taken ({} : Activity ρ) as, p.2.isSurfaceDestroyed = false :=
  Machine.visited_iff_taken (fun _ => Inv.paired) (step_inv clock)
    (surfaceDestroyed_unpaired clock) new_inv as

theorem surfaceCreated_keeps (holder : View) {w : Activity ρ} {v : View} {n s : Nat}
    (h : w.fields v = some n ∧ w.made[n]? = some s) :
    (surfaceCreated holder w).fields v = some n ∧ (surfaceCreated holder w).made[n]? = some s := by
  cases empty : w.fields holder with
  | some m =>
    have kept : (surfaceCreated holder w).fields = w.fields ∧
        (surfaceCreated holder w).made = w.made := by
      cases holder <;> simp [surfaceCreated, empty, Activity.made]
    rw [kept.1, kept.2]
    exact h
  | none =>
    have other : v ≠ holder := by
      rintro rfl
      simp [empty] at h
    have bound := (List.getElem?_eq_some_iff.mp h.2).1
    refine ⟨?_, ?_⟩
    · rw [surfaceCreated_fields empty, Function.update_of_ne other]
      exact h.1
    · rw [surfaceCreated_made empty, List.getElem?_append_left bound]
      exact h.2

theorem runOn_keeps {w t : Activity ρ} (clock : Nat → Int) (m : Nat) (a : RenderLoop.Action ρ)
    (h : runOn clock m a w = some t) : t.fields = w.fields ∧ t.made = w.made := by
  obtain ⟨c, hc, h⟩ := Option.bind_eq_some_iff.mp h
  obtain ⟨task, -, h⟩ := Option.bind_eq_some_iff.mp h
  obtain ⟨d, -, h⟩ := Option.bind_eq_some_iff.mp h
  cases h
  exact ⟨rfl, made_set hc d⟩

theorem onTouch_keeps (w : Activity ρ) (v : View) (e : MotionEvent ρ) :
    (onTouch v e w).fields = w.fields ∧ (onTouch v e w).made = w.made := by
  cases field : w.fields v with
  | none => simp [onTouch, field, Activity.made]
  | some n =>
    cases h : w.natives[n]? with
    | none => simp [onTouch, field, h]
    | some c =>
      simp only [onTouch, field, h, true_and]
      exact made_set h _

/-- The canvas that a view has been given stays with it, on its first surface,
through any number of later cycles. -/
theorem exec_keeps_canvas (clock : Nat → Int) {w : Activity ρ} {v : View} {n s : Nat}
    (h : w.fields v = some n ∧ w.made[n]? = some s) (as : List (Action ρ)) :
    ((machine clock).exec w as).fields v = some n ∧
      ((machine clock).exec w as).made[n]? = some s := by
  suffices keeps : ∀ (w : Activity ρ) (a : Action ρ) (t : Activity ρ),
      w.fields v = some n ∧ w.made[n]? = some s → (machine clock).step w a = some t →
      t.fields v = some n ∧ t.made[n]? = some s from Machine.exec_invariant keeps h as
  intro w a t inv taken
  obtain ⟨-, taken⟩ := Machine.step_of_haltOn taken
  cases a with
  | surfaceCreated holder =>
    obtain ⟨-, ⟨⟩⟩ := Option.ite_none_right_eq_some.mp taken
    exact surfaceCreated_keeps holder inv
  | surfaceDestroyed holder =>
    obtain ⟨-, ⟨⟩⟩ := Option.ite_none_left_eq_some.mp taken
    exact inv
  | onTouch u e =>
    cases taken
    rw [(onTouch_keeps w u e).1, (onTouch_keeps w u e).2]
    exact inv
  | runTask m | runDelayed m i =>
    obtain ⟨fields, made⟩ := runOn_keeps clock m _ taken
    rw [fields, made]
    exact inv

def returned : List (Action Int) :=
  [.surfaceCreated .software, .surfaceDestroyed .software, .surfaceCreated .software,
    .onTouch .software ⟨0, [(1, 1)], List.cons_ne_nil _ _⟩, .runTask 0, .runTask 0]

theorem touch_after_return :
    ¬ ∀ (as : List (Action Int)), ∀ w ∈ (machine fun _ => 0).visited {} as, Paired w := by
  intro all
  have paired := all returned _ (Machine.exec_mem_visited _ _ _)
  have painted : ((machine fun _ => 0).exec {} returned).stalePaints = 2 := by decide
  rw [paired.paints] at painted
  cases painted

end ChromiumDemo.AndroidSurfaces
