import ChromiumDemo.TransitionSystem

/-! The start-up of the windows of demo_viz_gui, demo_viz_layer, demo_skia and
demo_gl, four classes that differ in what `InitializeDemo` makes and in what their
event callbacks touch. The platform window calls back at any moment from its
construction on. `widget_` has no initializer, so a window starts with any content. -/

namespace ChromiumDemo.WindowStartup
open TransitionSystem

variable {ω ρ : Type*}

inductive EventType
  | mousePressed | mouseDragged | mouseReleased | mouseMoved | mouseEntered | mouseExited
  | mousewheel | mouseCaptureChanged
  | touchReleased | touchPressed | touchMoved | touchCancelled
  | other
deriving DecidableEq

def EventType.isMouseEvent : EventType → Bool
  | .mousePressed | .mouseDragged | .mouseReleased | .mouseMoved | .mouseEntered
  | .mouseExited | .mousewheel | .mouseCaptureChanged => true
  | _ => false

def EventType.isTouchEvent : EventType → Bool
  | .touchReleased | .touchPressed | .touchMoved | .touchCancelled => true
  | _ => false

structure Event (ρ : Type*) where
  type : EventType
  isLeftMouseButton : Bool
  x : ρ
  y : ρ

def touchAction (e : Event ρ) : Option Int :=
  if (e.type.isMouseEvent && e.isLeftMouseButton) || e.type.isTouchEvent then
    match e.type with
    | .mousePressed | .touchPressed => some 0
    | .mouseReleased | .touchReleased => some 1
    | .mouseDragged | .touchMoved => some 2
    | _ => none
  else none

inductive Platform
  | ozone
  | windows
  | x11
deriving DecidableEq

inductive Pointer
  | host
  | platformWindow
  | skiaCanvas
deriving DecidableEq

/-- Where `Create` is: in `CreatePlatformWindow`, in `Show`, or done. -/
inductive Phase
  | constructing
  | showing
  | running
deriving DecidableEq

/-- `none` is `gfx::kNullAcceleratedWidget`. `host`, `skiaCanvas` and `glSurface`
hold the `widget_` they were made for. `starts` lists the `widget_` of the calls of
`InitializeDemo` by `Create` and by the platform window, `chains` counts the delayed
tasks `InitializeDemo`, and `fault` is the pointer dereferenced while null. -/
structure Window (ω : Type*) where
  phase : Phase := .constructing
  widget : Option ω
  platformWindow : Bool := false
  isSoftware : Bool := true
  host : Option (Option ω) := none
  skiaCanvas : Option (Option ω) := none
  glSurface : Option (Option ω) := none
  chains : Nat := 0
  starts : List (Option ω) := []
  delivered : List ω := []
  fault : Option Pointer := none

def Window.deref (w : Window ω) (p : Pointer) (set : Bool) (next : Window ω) : Window ω :=
  if set then next else { w with fault := some p }

structure Delegate (ω ρ : Type*) where
  createPlatformWindow : Platform → Bool
  initializeDemo : Platform → Window ω → Window ω
  onBoundsChanged : Window ω → Window ω
  dispatchEvent : Event ρ → Window ω → Window ω

def makeHost (w : Window ω) : Window ω :=
  w.deref .platformWindow w.platformWindow { w with host := some w.widget }

def demoVizGui : Delegate ω ρ where
  createPlatformWindow _ := true
  initializeDemo _ := makeHost
  onBoundsChanged w := w.deref .host w.host.isSome (w.deref .platformWindow w.platformWindow w)
  dispatchEvent _ w := w

def demoVizLayer : Delegate ω ρ where
  createPlatformWindow _ := true
  initializeDemo _ := makeHost
  onBoundsChanged w := w.deref .host w.host.isSome w
  dispatchEvent _ w := w

/-- `SkiaCanvasGL` is compiled out on Windows. -/
def demoSkia : Delegate ω ρ where
  createPlatformWindow platform := platform != .x11
  initializeDemo platform w := w.deref .platformWindow w.platformWindow
    (if w.isSoftware || platform != .windows then { w with skiaCanvas := some w.widget } else w)
  onBoundsChanged w :=
    if w.skiaCanvas.isSome then w.deref .platformWindow w.platformWindow w else w
  dispatchEvent e w :=
    if (touchAction e).isSome then w.deref .skiaCanvas w.skiaCanvas.isSome w else w

/-- `InitializeDemo` posts itself for a second later. -/
def demoGl : Delegate ω ρ where
  createPlatformWindow _ := true
  initializeDemo _ w :=
    { w with glSurface := w.glSurface.or (some w.widget), chains := w.chains + 1 }
  onBoundsChanged w := w
  dispatchEvent _ w := w

inductive Demo
  | vizGui
  | vizLayer
  | skia
  | gl
deriving DecidableEq

def Demo.delegate : Demo → Delegate ω ρ
  | .vizGui => demoVizGui
  | .vizLayer => demoVizLayer
  | .skia => demoSkia
  | .gl => demoGl

section Steps
variable (d : Delegate ω ρ) (platform : Platform)

def initializeDemo (w : Window ω) : Window ω :=
  d.initializeDemo platform { w with starts := w.starts ++ [w.widget] }

def onAcceleratedWidgetAvailable (widget : ω) (w : Window ω) : Window ω :=
  let w := { w with widget := some widget, delivered := w.delivered ++ [widget] }
  if w.platformWindow then initializeDemo d platform w else w

def callShow (w : Window ω) : Window ω :=
  let w := { w with platformWindow := d.createPlatformWindow platform, phase := .showing }
  w.deref .platformWindow w.platformWindow w

def finishCreate (w : Window ω) : Window ω :=
  let w := { w with phase := .running }
  if w.widget.isSome then initializeDemo d platform w else w

end Steps

inductive Action (ω ρ : Type*)
  | callShow
  | finishCreate
  | onAcceleratedWidgetAvailable (widget : ω)
  | onBoundsChanged
  | dispatchEvent (e : Event ρ)
  | runInitializeDemo

def step (d : Delegate ω ρ) (platform : Platform) (w : Window ω) :
    Action ω ρ → Option (Window ω)
  | .callShow => if w.phase = .constructing then some (callShow d platform w) else none
  | .finishCreate => if w.phase = .showing then some (finishCreate d platform w) else none
  | .onAcceleratedWidgetAvailable widget =>
    some (onAcceleratedWidgetAvailable d platform widget w)
  | .onBoundsChanged => some (d.onBoundsChanged w)
  | .dispatchEvent e => some (d.dispatchEvent e w)
  | .runInitializeDemo =>
    if w.phase = .running ∧ 0 < w.chains then
      some (d.initializeDemo platform { w with chains := w.chains - 1 })
    else none

def machine (d : Delegate ω ρ) (platform : Platform) : Machine (Window ω) (Action ω ρ) :=
  .haltOn (fun w => w.fault.isSome) (step d platform)

/-- Only demo_skia reads the switch `--gl`. -/
def Demo.new (demo : Demo) (hasSwitchGl : Bool) (uninitialized : Option ω) : Window ω :=
  { widget := uninitialized, isSoftware := !(demo = .skia && hasSwitchGl) }

structure StartedOnce (w : Window ω) : Prop where
  fault : w.fault = none
  delivered : ∀ s ∈ w.starts, ∃ v ∈ w.delivered, s = some v
  once : w.starts.Nodup
  every : w.phase = .running → ∀ v ∈ w.delivered, some v ∈ w.starts
  chains : w.chains ≤ 1

def Drawable (platform : Platform) (w : Window ω) : Prop :=
  platform = .windows → w.isSoftware = true

/-- The placements of a callback that start-up withstands. -/
def Safe (demo : Demo) (platform : Platform) (w : Window ω) : Action ω ρ → Prop
  | .callShow => demo = .skia → platform ≠ .x11
  | .finishCreate => w.starts = [] ∧ (∀ v ∈ w.delivered, w.widget = some v) ∧
      (w.delivered = [] → w.widget = none)
  | .onAcceleratedWidgetAvailable widget => w.phase ≠ .constructing →
      some widget ∉ w.starts ∧ (demo = .gl → w.starts = [])
  | .onBoundsChanged => demo = .vizGui ∨ demo = .vizLayer → w.starts ≠ []
  | .dispatchEvent e => demo = .skia → (touchAction e).isSome = true →
      w.starts ≠ [] ∧ Drawable platform w
  | .runInitializeDemo => True

structure Shape (demo : Demo) (platform : Platform) (w : Window ω) : Prop where
  window : w.platformWindow = true ↔ w.phase ≠ .constructing
  constructing : w.phase = .constructing → w.starts = []
  host : w.host.isSome = true ↔ (demo = .vizGui ∨ demo = .vizLayer) ∧ w.starts ≠ []
  canvas : w.skiaCanvas.isSome = true ↔ demo = .skia ∧ w.starts ≠ [] ∧ Drawable platform w
  chains : w.chains = if demo = .gl then w.starts.length else 0

structure Inv (demo : Demo) (platform : Platform) (w : Window ω) : Prop where
  shape : Shape demo platform w
  widget : w.starts ≠ [] → w.widget ∈ w.starts
  startedOnce : StartedOnce w

theorem new_inv (demo : Demo) (platform : Platform) (hasSwitchGl : Bool)
    (uninitialized : Option ω) : Inv demo platform (demo.new hasSwitchGl uninitialized) := by
  refine ⟨⟨?_, ?_, ?_, ?_, ?_⟩, ?_, ⟨rfl, ?_, ?_, ?_, ?_⟩⟩ <;> simp [Demo.new]

theorem drawable_iff {platform : Platform} {w : Window ω} :
    (w.isSoftware || platform != .windows) = true ↔ Drawable platform w := by
  by_cases windows : platform = .windows <;> simp [Drawable, windows]

structure Initialized (demo : Demo) (platform : Platform) (w v : Window ω) : Prop where
  phase : v.phase = w.phase
  widget : v.widget = w.widget
  platformWindow : v.platformWindow = w.platformWindow
  isSoftware : v.isSoftware = w.isSoftware
  starts : v.starts = w.starts ++ [w.widget]
  delivered : v.delivered = w.delivered
  fault : v.fault = w.fault
  host : v.host.isSome = true ↔ (demo = .vizGui ∨ demo = .vizLayer) ∨ w.host.isSome = true
  canvas : v.skiaCanvas.isSome = true ↔
    (demo = .skia ∧ Drawable platform w) ∨ w.skiaCanvas.isSome = true
  chains : v.chains = w.chains + if demo = .gl then 1 else 0

theorem initializeDemo_spec (demo : Demo) (platform : Platform) {w : Window ω}
    (window : w.platformWindow = true) :
    Initialized demo platform w (initializeDemo (demo.delegate : Delegate ω ρ) platform w) := by
  cases demo with
  | vizGui | vizLayer =>
    constructor <;>
      simp [initializeDemo, Demo.delegate, demoVizGui, demoVizLayer, makeHost, Window.deref, window]
  | gl => constructor <;> simp [initializeDemo, Demo.delegate, demoGl]
  | skia =>
    have call : initializeDemo (demoSkia : Delegate ω ρ) platform w =
        if w.isSoftware || platform != .windows then
          { w with starts := w.starts ++ [w.widget], skiaCanvas := some w.widget }
        else { w with starts := w.starts ++ [w.widget] } := by
      simp only [initializeDemo, demoSkia, Window.deref, window, if_true]
    rw [Demo.delegate, call]
    by_cases drawable : Drawable platform w
    · rw [if_pos (drawable_iff.mpr drawable)]
      constructor <;> simp [drawable]
    · rw [if_neg fun made => drawable (drawable_iff.mp made)]
      constructor <;> simp [drawable]

theorem initializeDemo_inv {demo : Demo} {platform : Platform} {w : Window ω}
    (shape : Shape demo platform w) (alive : w.fault = none) (window : w.platformWindow = true)
    {v : ω} (widget : w.widget = some v) (known : v ∈ w.delivered)
    (delivered : ∀ s ∈ w.starts, ∃ u ∈ w.delivered, s = some u)
    (once : w.starts.Nodup) (fresh : some v ∉ w.starts) (chain : demo = .gl → w.starts = [])
    (every : w.phase = .running → ∀ u ∈ w.delivered, some u ∈ w.starts ∨ u = v) :
    Inv demo platform (initializeDemo (demo.delegate : Delegate ω ρ) platform w) := by
  have spec := initializeDemo_spec (ρ := ρ) demo platform window
  generalize initializeDemo (demo.delegate : Delegate ω ρ) platform w = t at spec
  have begun : w.phase ≠ .constructing := shape.window.mp window
  have starts : t.starts = w.starts ++ [some v] := by rw [spec.starts, widget]
  have nonempty : t.starts ≠ [] := by simp [starts]
  have drawable : Drawable platform t ↔ Drawable platform w := by
    rw [Drawable, Drawable, spec.isSoftware]
  have counted : t.chains = if demo = .gl then t.starts.length else 0 := by
    rw [spec.chains, shape.chains, starts, List.length_append, List.length_singleton]
    split <;> rfl
  refine ⟨⟨?_, ?_, ?_, ?_, counted⟩, ?_, ⟨?_, ?_, ?_, ?_, ?_⟩⟩
  · rw [spec.platformWindow, spec.phase]
    exact shape.window
  · intro constructing
    exact absurd (spec.phase.symm.trans constructing) begun
  · rw [spec.host, shape.host, and_iff_left nonempty]
    exact or_iff_left_of_imp And.left
  · rw [spec.canvas, shape.canvas, drawable, and_iff_right nonempty]
    exact or_iff_left_of_imp fun made => ⟨made.1, made.2.2⟩
  · intro _
    rw [spec.widget, widget, starts]
    simp
  · rw [spec.fault, alive]
  · rw [starts, spec.delivered]
    intro s hs
    rcases List.mem_append.mp hs with old | new
    · exact delivered s old
    · exact ⟨v, known, List.mem_singleton.mp new⟩
  · rw [starts, List.nodup_append]
    refine ⟨once, by simp, ?_⟩
    rintro a ha b hb rfl
    exact fresh (List.mem_singleton.mp hb ▸ ha)
  · rw [spec.phase, spec.delivered, starts]
    intro running u hu
    rcases every running u hu with old | rfl
    · exact List.mem_append_left _ old
    · simp
  · rw [counted]
    split
    case isTrue gl => simp [starts, chain gl]
    case isFalse => exact Nat.zero_le 1

theorem createPlatformWindow_iff (demo : Demo) (platform : Platform) :
    (demo.delegate : Delegate ω ρ).createPlatformWindow platform = true ↔
      (demo = .skia → platform ≠ .x11) := by
  cases demo <;> simp [Demo.delegate, demoVizGui, demoVizLayer, demoSkia, demoGl]

section Callbacks
variable {demo : Demo} {platform : Platform} {w : Window ω}

theorem callShow_inv (inv : Inv demo platform w) (constructing : w.phase = .constructing)
    (safe : demo = .skia → platform ≠ .x11) :
    Inv demo platform (callShow (demo.delegate : Delegate ω ρ) platform w) := by
  have created := (createPlatformWindow_iff (ω := ω) (ρ := ρ) demo platform).mpr safe
  have idle := inv.shape.constructing constructing
  simp only [callShow, created, Window.deref, if_true]
  refine ⟨{ inv.shape with window := ?_, constructing := ?_ }, inv.widget,
    { inv.startedOnce with every := ?_ }⟩ <;> simp

theorem callShow_unsafe (unsafe' : ¬ (demo = .skia → platform ≠ .x11)) :
    ¬ StartedOnce (callShow (demo.delegate : Delegate ω ρ) platform w) := by
  have failed := mt (createPlatformWindow_iff (ω := ω) (ρ := ρ) demo platform).mp unsafe'
  intro started
  have alive := started.fault
  simp [callShow, failed, Window.deref] at alive

theorem finishCreate_none (d : Delegate ω ρ) (widget : w.widget = none) :
    finishCreate d platform w = { w with phase := .running } :=
  if_neg (by simp [widget])

theorem finishCreate_some (d : Delegate ω ρ) {v : ω} (widget : w.widget = some v) :
    finishCreate d platform w = initializeDemo d platform { w with phase := .running } :=
  if_pos (by simp [widget])

theorem finishCreate_inv (inv : Inv demo platform w) (showing : w.phase = .showing)
    (idle : w.starts = []) (last : ∀ v ∈ w.delivered, w.widget = some v)
    (blank : w.delivered = [] → w.widget = none) :
    Inv demo platform (finishCreate (demo.delegate : Delegate ω ρ) platform w) := by
  have window : w.platformWindow = true := inv.shape.window.mpr (by simp [showing])
  have shape : Shape demo platform { w with phase := .running } :=
    { inv.shape with window := by simp [window], constructing := by simp }
  cases widget : w.widget with
  | none =>
    have nothing : w.delivered = [] := by
      rw [List.eq_nil_iff_forall_not_mem]
      intro v hv
      simpa [widget] using last v hv
    have every : ∀ v ∈ w.delivered, some v ∈ w.starts := by simp [nothing]
    rw [finishCreate_none _ widget]
    exact ⟨shape, by simp [idle], { inv.startedOnce with every := fun _ => every }⟩
  | some v =>
    have known : v ∈ w.delivered := by
      cases delivered : w.delivered with
      | nil => simp [widget] at blank; exact absurd delivered blank
      | cons u rest =>
        have same := last u (by simp [delivered])
        rw [widget, Option.some.injEq] at same
        simp [same]
    rw [finishCreate_some _ widget]
    apply initializeDemo_inv shape inv.startedOnce.fault window widget known
      inv.startedOnce.delivered inv.startedOnce.once
    · simp [idle]
    · exact fun _ => idle
    · intro _ u hu
      have same := last u hu
      rw [widget, Option.some.injEq] at same
      exact .inr same.symm

theorem finishCreate_unsafe (inv : Inv demo platform w) (showing : w.phase = .showing)
    (started : StartedOnce (finishCreate (demo.delegate : Delegate ω ρ) platform w)) :
    w.starts = [] ∧ (∀ v ∈ w.delivered, w.widget = some v) ∧
      (w.delivered = [] → w.widget = none) := by
  have window : w.platformWindow = true := inv.shape.window.mpr (by simp [showing])
  cases widget : w.widget with
  | none =>
    have idle : w.starts = [] := by
      by_contra busy
      obtain ⟨v, -, hv⟩ := inv.startedOnce.delivered _ (inv.widget busy)
      simp [widget] at hv
    rw [finishCreate_none _ widget] at started
    refine ⟨idle, fun v hv => ?_, fun _ => rfl⟩
    have begun : some v ∈ w.starts := started.every rfl v hv
    simp [idle] at begun
  | some v =>
    rw [finishCreate_some _ widget] at started
    have spec := initializeDemo_spec (ρ := ρ) demo platform
      (w := { w with phase := .running }) window
    have starts := spec.starts.trans (congrArg (fun x => w.starts ++ [x]) widget)
    have once := started.once
    rw [starts, List.nodup_append] at once
    have idle : w.starts = [] := by
      by_contra busy
      have last : some v ∈ w.starts := widget ▸ inv.widget busy
      exact once.2.2 (some v) last (some v) (by simp) rfl
    refine ⟨idle, fun u hu => ?_, fun nothing => ?_⟩
    · have begun := started.every spec.phase u (spec.delivered.symm ▸ hu)
      rw [starts, idle] at begun
      simpa [eq_comm] using begun
    · obtain ⟨u, hu, -⟩ := started.delivered (some v) (by simp [starts])
      rw [spec.delivered] at hu
      simp [nothing] at hu

theorem onAcceleratedWidgetAvailable_early (d : Delegate ω ρ) (v : ω)
    (window : w.platformWindow = false) : onAcceleratedWidgetAvailable d platform v w =
      { w with widget := some v, delivered := w.delivered ++ [v] } :=
  if_neg (by simp [window])

theorem onAcceleratedWidgetAvailable_late (d : Delegate ω ρ) (v : ω)
    (window : w.platformWindow = true) : onAcceleratedWidgetAvailable d platform v w =
      initializeDemo d platform { w with widget := some v, delivered := w.delivered ++ [v] } :=
  if_pos window

theorem onAcceleratedWidgetAvailable_inv (inv : Inv demo platform w) (v : ω)
    (safe : w.phase ≠ .constructing → some v ∉ w.starts ∧ (demo = .gl → w.starts = [])) :
    Inv demo platform
      (onAcceleratedWidgetAvailable (demo.delegate : Delegate ω ρ) platform v w) := by
  have still : ∀ s ∈ w.starts, ∃ u ∈ w.delivered ++ [v], s = some u := by
    intro s hs
    obtain ⟨u, hu, rfl⟩ := inv.startedOnce.delivered s hs
    exact ⟨u, List.mem_append_left _ hu, rfl⟩
  have shape : Shape demo platform
      { w with widget := some v, delivered := w.delivered ++ [v] } := { inv.shape with }
  cases window : w.platformWindow with
  | false =>
    have constructing : w.phase = .constructing := by
      by_contra begun
      simp [inv.shape.window.mpr begun] at window
    have idle := inv.shape.constructing constructing
    rw [onAcceleratedWidgetAvailable_early _ v window]
    exact ⟨shape, by simp [idle],
      { inv.startedOnce with delivered := still, every := by simp [constructing] }⟩
  | true =>
    have safe := safe (inv.shape.window.mp window)
    rw [onAcceleratedWidgetAvailable_late _ v window]
    apply initializeDemo_inv shape inv.startedOnce.fault window rfl (by simp) still
      inv.startedOnce.once safe.1 safe.2
    intro running u hu
    rcases List.mem_append.mp hu with old | new
    · exact .inl (inv.startedOnce.every running u old)
    · exact .inr (List.mem_singleton.mp new)

theorem onAcceleratedWidgetAvailable_unsafe (inv : Inv demo platform w) {v : ω}
    (begun : w.phase ≠ .constructing)
    (started : StartedOnce
      (onAcceleratedWidgetAvailable (demo.delegate : Delegate ω ρ) platform v w)) :
    some v ∉ w.starts ∧ (demo = .gl → w.starts = []) := by
  have window : w.platformWindow = true := inv.shape.window.mpr begun
  rw [onAcceleratedWidgetAvailable_late _ v window] at started
  have spec := initializeDemo_spec (ρ := ρ) demo platform
    (w := { w with widget := some v, delivered := w.delivered ++ [v] }) window
  constructor
  · intro again
    have once := started.once
    rw [spec.starts, List.nodup_append] at once
    exact once.2.2 (some v) again (some v) (by simp) rfl
  · intro gl
    have chains := started.chains
    rw [spec.chains] at chains
    have counted := inv.shape.chains
    simp only [gl, if_true] at chains counted
    rw [← List.length_eq_zero_iff]
    omega

theorem deref_unsafe {p : Pointer} {set : Bool} (null : set = false) (next : Window ω) :
    ¬ StartedOnce (w.deref p set next) := by
  intro started
  have alive := started.fault
  simp [Window.deref, null] at alive

theorem onBoundsChanged_safe (inv : Inv demo platform w)
    (safe : demo = .vizGui ∨ demo = .vizLayer → w.starts ≠ []) :
    (demo.delegate : Delegate ω ρ).onBoundsChanged w = w := by
  have shape := inv.shape
  have window : w.starts ≠ [] → w.platformWindow = true := by
    intro busy
    exact shape.window.mpr fun constructing => busy (shape.constructing constructing)
  cases demo with
  | vizGui =>
    have busy : w.starts ≠ [] := safe (.inl rfl)
    have host : w.host.isSome = true := shape.host.mpr ⟨.inl rfl, busy⟩
    simp only [Demo.delegate, demoVizGui, Window.deref, host, window busy, if_true]
  | vizLayer =>
    have host : w.host.isSome = true := shape.host.mpr ⟨.inr rfl, safe (.inr rfl)⟩
    simp only [Demo.delegate, demoVizLayer, Window.deref, host, if_true]
  | skia =>
    cases canvas : w.skiaCanvas.isSome with
    | false => simp [Demo.delegate, demoSkia, canvas]
    | true =>
      have busy := (shape.canvas.mp canvas).2.1
      simp only [Demo.delegate, demoSkia, Window.deref, canvas, window busy, if_true]
  | gl => rfl

theorem onBoundsChanged_unsafe (inv : Inv demo platform w)
    (started : StartedOnce ((demo.delegate : Delegate ω ρ).onBoundsChanged w)) :
    demo = .vizGui ∨ demo = .vizLayer → w.starts ≠ [] := by
  intro viz idle
  have null : w.host.isSome = false := by
    rw [Bool.eq_false_iff, Ne, inv.shape.host]
    exact fun made => made.2 idle
  rcases viz with rfl | rfl <;> exact deref_unsafe null _ started

theorem dispatchEvent_safe (inv : Inv demo platform w) (e : Event ρ)
    (safe : demo = .skia → (touchAction e).isSome = true → w.starts ≠ [] ∧ Drawable platform w) :
    (demo.delegate : Delegate ω ρ).dispatchEvent e w = w := by
  cases demo with
  | vizGui | vizLayer | gl => rfl
  | skia =>
    cases touch : (touchAction e).isSome with
    | false => simp [Demo.delegate, demoSkia, touch]
    | true =>
      have canvas : w.skiaCanvas.isSome = true := inv.shape.canvas.mpr ⟨rfl, safe rfl touch⟩
      simp only [Demo.delegate, demoSkia, Window.deref, touch, canvas, if_true]

theorem dispatchEvent_unsafe (inv : Inv demo platform w) {e : Event ρ}
    (started : StartedOnce ((demo.delegate : Delegate ω ρ).dispatchEvent e w)) :
    demo = .skia → (touchAction e).isSome = true → w.starts ≠ [] ∧ Drawable platform w := by
  rintro rfl touch
  by_contra unready
  have null : w.skiaCanvas.isSome = false := by
    rw [Bool.eq_false_iff, Ne, inv.shape.canvas]
    exact fun made => unready made.2
  simp only [Demo.delegate, demoSkia, touch, if_true] at started
  exact deref_unsafe null _ started

theorem runInitializeDemo_inv (inv : Inv demo platform w) (pending : 0 < w.chains) :
    Inv demo platform ((demo.delegate : Delegate ω ρ).initializeDemo platform
      { w with chains := w.chains - 1 }) := by
  have gl : demo = .gl := by
    by_contra other
    simp [inv.shape.chains, other] at pending
  have reposted : w.chains - 1 + 1 = w.chains := by omega
  subst gl
  simp only [Demo.delegate, demoGl, reposted]
  exact ⟨{ inv.shape with }, inv.widget, { inv.startedOnce with }⟩

end Callbacks

theorem step_inv (demo : Demo) (platform : Platform) (w : Window ω) (a : Action ω ρ)
    (t : Window ω) (inv : Inv demo platform w) (safe : Safe demo platform w a)
    (h : (machine demo.delegate platform).step w a = some t) : Inv demo platform t := by
  obtain ⟨-, h⟩ := Machine.step_of_haltOn h
  cases a with
  | callShow =>
    obtain ⟨constructing, ⟨⟩⟩ := Option.ite_none_right_eq_some.mp h
    exact callShow_inv inv constructing safe
  | finishCreate =>
    obtain ⟨showing, ⟨⟩⟩ := Option.ite_none_right_eq_some.mp h
    exact finishCreate_inv inv showing safe.1 safe.2.1 safe.2.2
  | onAcceleratedWidgetAvailable v =>
    cases h
    exact onAcceleratedWidgetAvailable_inv inv v safe
  | onBoundsChanged =>
    cases h
    rw [onBoundsChanged_safe inv safe]
    exact inv
  | dispatchEvent e =>
    cases h
    rw [dispatchEvent_safe inv e safe]
    exact inv
  | runInitializeDemo =>
    obtain ⟨⟨-, pending⟩, ⟨⟩⟩ := Option.ite_none_right_eq_some.mp h
    exact runInitializeDemo_inv inv pending

theorem step_safe (demo : Demo) (platform : Platform) (w : Window ω) (a : Action ω ρ)
    (t : Window ω) (inv : Inv demo platform w)
    (h : (machine demo.delegate platform).step w a = some t) (started : StartedOnce t) :
    Safe demo platform w a := by
  obtain ⟨-, h⟩ := Machine.step_of_haltOn h
  cases a with
  | callShow =>
    obtain ⟨-, ⟨⟩⟩ := Option.ite_none_right_eq_some.mp h
    by_contra unsafe'
    exact callShow_unsafe unsafe' started
  | finishCreate =>
    obtain ⟨showing, ⟨⟩⟩ := Option.ite_none_right_eq_some.mp h
    exact finishCreate_unsafe inv showing started
  | onAcceleratedWidgetAvailable v =>
    cases h
    exact fun begun => onAcceleratedWidgetAvailable_unsafe inv begun started
  | onBoundsChanged =>
    cases h
    exact onBoundsChanged_unsafe inv started
  | dispatchEvent e =>
    cases h
    exact dispatchEvent_unsafe inv started
  | runInitializeDemo => trivial

/-- In every run of the four windows, under every command line and whatever the
memory of `widget_` held, start-up goes right exactly if every callback and every
step of `Create` comes at a safe moment. -/
theorem startedOnce_iff (demo : Demo) (platform : Platform) (hasSwitchGl : Bool)
    (uninitialized : Option ω) (as : List (Action ω ρ)) :
    (∀ w ∈ (machine demo.delegate platform).visited (demo.new hasSwitchGl uninitialized) as,
      StartedOnce w) ↔
    ∀ p ∈ (machine demo.delegate platform).taken (demo.new hasSwitchGl uninitialized) as,
      Safe demo platform p.1 p.2 :=
  Machine.visited_iff_taken (fun _ inv => inv.startedOnce) (step_inv demo platform)
    (fun w a t inv bad h started => bad (step_safe demo platform w a t inv h started))
    (new_inv demo platform hasSwitchGl uninitialized) as

theorem widget_during_show :
    ¬ ∀ (demo : Demo) (platform : Platform) (hasSwitchGl : Bool) (as : List (Action Nat Int)),
      ∀ w ∈ (machine demo.delegate platform).visited (demo.new hasSwitchGl none) as,
        StartedOnce w := by
  intro all
  have once := (all .vizGui .ozone false [.callShow, .onAcceleratedWidgetAvailable 1, .finishCreate]
    _ (Machine.exec_mem_visited _ _ _)).once
  have twice : ((machine Demo.vizGui.delegate .ozone).exec (Demo.vizGui.new false none)
      [.callShow, .onAcceleratedWidgetAvailable 1, (.finishCreate : Action Nat Int)]).starts =
      [some 1, some 1] := by decide
  rw [twice] at once
  simp at once

end ChromiumDemo.WindowStartup
