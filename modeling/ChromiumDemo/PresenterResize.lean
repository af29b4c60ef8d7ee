import ChromiumDemo.WinPresenter
import Mathlib.Algebra.Ring.Nat

/-! The software canvas of demo_skia on Windows, which resizes its presenter before each
frame and paints into the surface that it then has. The presenter notes the new size
before it asks for a bitmap. -/

namespace ChromiumDemo.PresenterResize
open TransitionSystem WinPresenter

/-- What Skia documents of `SkSurfaces::WrapPixels`: it refuses a size without pixels,
and a surface is over the memory that was given. -/
structure Documented (wrapPixels : Size → Pointer → Option Surface) : Prop where
  pixels : ∀ size memory surface, wrapPixels size memory = some surface → size.isEmpty = false
  describes : ∀ size memory surface, wrapPixels size memory = some surface →
    surface = ⟨size, memory⟩

structure Call where
  size : Size
  before : Presenter
  after : Presenter

/-- `created` are the bitmaps that `CreateDIBSection` has made, with their sizes.
`nullSurface` says that `GetSkCanvas` was called without a surface. -/
structure SkiaCanvasSoftware where
  width : Int
  height : Int
  winPresenter : WinPresenter.World := {}
  created : List (Nat × Size) := []
  calls : List Call := []
  nullSurface : Bool := false

def gfxSize (width height : Int) : Size := ⟨width.toNat, height.toNat⟩

def newBitmaps (before after : WinPresenter.World) : List Nat :=
  after.gdi.bitmaps.drop before.gdi.bitmaps.length

def getSkCanvas (w : SkiaCanvasSoftware) : SkiaCanvasSoftware :=
  { w with nullSurface := w.winPresenter.presenter.surface.isNone }

def resize (width height : Int) (w : SkiaCanvasSoftware) : SkiaCanvasSoftware :=
  { w with width, height }

def onPaint (w : SkiaCanvasSoftware) : SkiaCanvasSoftware :=
  let size := gfxSize w.width w.height
  { w with winPresenter := WinPresenter.endPaint ⟨0, 0, size.width, size.height⟩ w.winPresenter }

inductive Action
  | resizePresenter (size : Size) (outcome : Outcome)
  | resize (width height : Int)
  | beginPaint (outcome : Outcome)
  | onPaint

section Canvas
variable (wrapPixels : Size → Pointer → Option Surface)

def resizePresenter (size : Size) (outcome : Outcome) (w : SkiaCanvasSoftware) :
    SkiaCanvasSoftware :=
  let winPresenter := WinPresenter.resize wrapPixels size outcome w.winPresenter
  { w with
    winPresenter
    created := w.created ++ (newBitmaps w.winPresenter winPresenter).map fun b => (b, size)
    calls := w.calls ++ [⟨size, w.winPresenter.presenter, winPresenter.presenter⟩] }

def beginPaint (outcome : Outcome) (w : SkiaCanvasSoftware) : SkiaCanvasSoftware :=
  getSkCanvas (resizePresenter wrapPixels (gfxSize w.width w.height) outcome w)

def step (w : SkiaCanvasSoftware) : Action → Option SkiaCanvasSoftware
  | .resizePresenter size outcome => some (resizePresenter wrapPixels size outcome w)
  | .resize width height => some (resize width height w)
  | .beginPaint outcome => some (beginPaint wrapPixels outcome w)
  | .onPaint => some (onPaint w)

def machine : Machine SkiaCanvasSoftware Action :=
  .haltOn SkiaCanvasSoftware.nullSurface (step wrapPixels)

structure Whole (created : List (Nat × Size)) (size : Size) (p : Presenter) : Prop where
  sized : p.size = size
  bitmap : ∃ bitmap, (bitmap, size) ∈ created ∧ p.hBitmap = some bitmap ∧
    p.pixelPtr = .bits bitmap ∧ p.surface = some ⟨size, .bits bitmap⟩

/-- The call has done its work, or nothing, so that the next one with this size tries
again. -/
def Call.AllOrNothing (created : List (Nat × Size)) (call : Call) : Prop :=
  Whole created call.size call.after ∨ call.after = call.before ∧ call.after.size ≠ call.size

structure Consistent (w : SkiaCanvasSoftware) : Prop where
  calls : ∀ call ∈ w.calls, call.AllOrNothing w.created
  pixelPtr : w.winPresenter.presenter.pixelPtr ≠ .uninitialized
  nullSurface : w.nullSurface = false

/-- The size has pixels, and it is the current one or its bitmap is created and wrapped. -/
def Granted (size : Size) (outcome : Outcome) (w : SkiaCanvasSoftware) : Prop :=
  size.isEmpty = false ∧ (w.winPresenter.presenter.size ≠ size → outcome = .success ∧
    (wrapPixels size (.bits w.winPresenter.gdi.nextBitmap)).isSome = true)

def Good (w : SkiaCanvasSoftware) : Action → Prop
  | .resizePresenter size outcome => Granted wrapPixels size outcome w
  | .beginPaint outcome => Granted wrapPixels (gfxSize w.width w.height) outcome w
  | _ => True

instance (size : Size) (outcome : Outcome) (w : SkiaCanvasSoftware) :
    Decidable (Granted wrapPixels size outcome w) :=
  inferInstanceAs (Decidable (_ ∧ _))

instance (w : SkiaCanvasSoftware) : (a : Action) → Decidable (Good wrapPixels w a)
  | .resizePresenter size outcome => inferInstanceAs (Decidable (Granted wrapPixels size outcome w))
  | .beginPaint outcome =>
    inferInstanceAs (Decidable (Granted wrapPixels (gfxSize w.width w.height) outcome w))
  | .resize _ _ | .onPaint => inferInstanceAs (Decidable True)

end Canvas

structure Sound (w : SkiaCanvasSoftware) : Prop extends Consistent w where
  presenter : w.winPresenter.presenter = {} ∨
    w.winPresenter.presenter.size.isEmpty = false ∧
      Whole w.created w.winPresenter.presenter.size w.winPresenter.presenter

theorem Whole.mono {created more : List (Nat × Size)} {size : Size} {p : Presenter}
    (h : Whole created size p) : Whole (created ++ more) size p := by
  obtain ⟨bitmap, member, fields⟩ := h.bitmap
  exact ⟨h.sized, bitmap, List.mem_append_left _ member, fields⟩

theorem Call.AllOrNothing.mono {created more : List (Nat × Size)} {call : Call}
    (h : call.AllOrNothing created) : call.AllOrNothing (created ++ more) :=
  h.imp Whole.mono id

section Presenters
variable {wrapPixels : Size → Pointer → Option Surface} {size : Size} {w : WinPresenter.World}

theorem resize_presenter (other : w.presenter.size ≠ size) (outcome : Outcome) :
    let made := createBitmap outcome (GdiHandles.getDC w.gdi).2
    (WinPresenter.resize wrapPixels size outcome w).presenter =
      ⟨size, made.1, made.2.1, wrapPixels size made.2.1⟩ := by
  rw [WinPresenter.resize, if_neg other]

theorem resize_success (documented : Documented wrapPixels) (other : w.presenter.size ≠ size)
    (wrapped : (wrapPixels size (.bits w.gdi.nextBitmap)).isSome = true) :
    (WinPresenter.resize wrapPixels size .success w).presenter = ⟨size, some w.gdi.nextBitmap,
        .bits w.gdi.nextBitmap, some ⟨size, .bits w.gdi.nextBitmap⟩⟩ ∧
      newBitmaps w (WinPresenter.resize wrapPixels size .success w) = [w.gdi.nextBitmap] := by
  obtain ⟨surface, made⟩ := Option.isSome_iff_exists.mp wrapped
  have described := documented.describes size _ surface made
  constructor
  · rw [resize_presenter other]
    simp [createBitmap, GdiHandles.createDIBSection, GdiHandles.getDC, made, described]
  · rw [WinPresenter.resize, if_neg other]
    simp [createBitmap, GdiHandles.createDIBSection, GdiHandles.getDC, GdiHandles.releaseDC,
      newBitmaps]

theorem resize_not_whole {created : List (Nat × Size)} {outcome : Outcome}
    (other : w.presenter.size ≠ size)
    (refused : ¬ (outcome = .success ∧
      (wrapPixels size (.bits w.gdi.nextBitmap)).isSome = true)) :
    ¬ Whole created size (WinPresenter.resize wrapPixels size outcome w).presenter := by
  intro whole
  obtain ⟨bitmap, -, hBitmap, -, surface⟩ := whole.bitmap
  rw [resize_presenter other] at hBitmap surface
  obtain ⟨rfl, -, -⟩ | ⟨-, failed, -⟩ := createBitmap_cases outcome (GdiHandles.getDC w.gdi).2
  · refine refused ⟨rfl, ?_⟩
    change wrapPixels size (.bits w.gdi.nextBitmap) = _ at surface
    rw [surface]
    rfl
  · exact Option.some_ne_none _ (hBitmap.symm.trans failed)

end Presenters

section Steps
variable {wrapPixels : Size → Pointer → Option Surface} {w t : SkiaCanvasSoftware} {size : Size}
  {outcome : Outcome}

theorem Whole.usable {created : List (Nat × Size)} {p : Presenter} (h : Whole created size p) :
    p.pixelPtr ≠ .uninitialized ∧ p.surface ≠ none := by
  obtain ⟨bitmap, -, -, pixelPtr, surface⟩ := h.bitmap
  rw [pixelPtr, surface]
  exact ⟨by simp, Option.some_ne_none _⟩

theorem Sound.whole (h : Sound w) (documented : Documented wrapPixels)
    (granted : Granted wrapPixels size outcome w) :
    Whole (resizePresenter wrapPixels size outcome w).created size
      (resizePresenter wrapPixels size outcome w).winPresenter.presenter := by
  obtain ⟨pixels, succeeds⟩ := granted
  by_cases same : w.winPresenter.presenter.size = size
  · have kept : (resizePresenter wrapPixels size outcome w).winPresenter = w.winPresenter := by
      change WinPresenter.resize wrapPixels size outcome w.winPresenter = _
      rw [WinPresenter.resize, if_pos same]
    rw [kept]
    rcases h.presenter with new | ⟨-, whole⟩
    · rw [new] at same
      rw [← same] at pixels
      cases pixels
    · rw [same] at whole
      exact whole.mono
  · obtain ⟨rfl, wrapped⟩ := succeeds same
    obtain ⟨fields, created⟩ := resize_success documented same wrapped
    refine ⟨resize_size wrapPixels size .success w.winPresenter, w.winPresenter.gdi.nextBitmap,
      ?_, ?_⟩
    · change _ ∈ w.created ++ (newBitmaps w.winPresenter _).map _
      rw [created]
      exact List.mem_append_right _ (List.mem_singleton_self _)
    · change (WinPresenter.resize wrapPixels size .success w.winPresenter).presenter.hBitmap = _ ∧ _
      rw [show (resizePresenter wrapPixels size .success w).winPresenter.presenter = _ from fields,
        fields]
      exact ⟨rfl, rfl, rfl⟩

theorem Sound.resizePresenter (h : Sound w) (documented : Documented wrapPixels)
    (granted : Granted wrapPixels size outcome w) :
    Sound (resizePresenter wrapPixels size outcome w) := by
  have whole := h.whole documented granted
  refine ⟨⟨?_, whole.usable.1, h.nullSurface⟩, .inr ?_⟩
  · intro call member
    rcases List.mem_append.mp member with old | new
    · exact (h.calls call old).mono
    · obtain rfl := List.mem_singleton.mp new
      exact .inl whole
  · rw [whole.sized]
    exact ⟨granted.1, whole⟩

theorem Sound.beginPaint (h : Sound w) (documented : Documented wrapPixels)
    (granted : Granted wrapPixels (gfxSize w.width w.height) outcome w) :
    Sound (beginPaint wrapPixels outcome w) := by
  have resized := h.resizePresenter documented granted
  have surface := (h.whole documented granted).usable.2
  exact ⟨⟨resized.calls, resized.pixelPtr, Option.isNone_eq_false_iff.mpr
    (Option.isSome_iff_ne_none.mpr surface)⟩, resized.presenter⟩

theorem Sound.step {a : Action} (h : Sound w) (documented : Documented wrapPixels)
    (good : Good wrapPixels w a) (moved : (machine wrapPixels).step w a = some t) : Sound t := by
  obtain ⟨-, moved⟩ := Machine.step_of_haltOn moved
  cases a with
  | resizePresenter size outcome =>
    obtain rfl := Option.some.inj moved
    exact h.resizePresenter documented good
  | resize width height =>
    obtain rfl := Option.some.inj moved
    exact ⟨⟨h.calls, h.pixelPtr, h.nullSurface⟩, h.presenter⟩
  | beginPaint outcome =>
    obtain rfl := Option.some.inj moved
    exact h.beginPaint documented good
  | onPaint =>
    obtain rfl := Option.some.inj moved
    exact ⟨⟨h.calls, h.pixelPtr, h.nullSurface⟩, h.presenter⟩

theorem Sound.refused (h : Sound w) (documented : Documented wrapPixels)
    (refused : ¬ Granted wrapPixels size outcome w) :
    ¬ ∀ call ∈ (PresenterResize.resizePresenter wrapPixels size outcome w).calls,
      call.AllOrNothing
        (PresenterResize.resizePresenter wrapPixels size outcome w).created := by
  intro all
  have last := all _ (List.mem_append_right _ (List.mem_singleton_self _))
  rcases last with whole | ⟨-, retried⟩
  · by_cases same : w.winPresenter.presenter.size = size
    · have empty : size.isEmpty = true :=
        Bool.of_not_eq_false fun pixels => refused ⟨pixels, fun other => absurd same other⟩
      obtain ⟨bitmap, -, -, -, surface⟩ := whole.bitmap
      change (WinPresenter.resize wrapPixels size outcome w.winPresenter).presenter.surface = _
        at surface
      rw [WinPresenter.resize, if_pos same] at surface
      rcases h.presenter with new | ⟨pixels, -⟩
      · rw [new] at surface
        cases surface
      · rw [same, empty] at pixels
        cases pixels
    · refine resize_not_whole same (fun succeeds => refused ⟨?_, fun _ => succeeds⟩) whole
      obtain ⟨surface, wrapped⟩ := Option.isSome_iff_exists.mp succeeds.2
      exact documented.pixels size _ surface wrapped
  · exact retried (resize_size wrapPixels size outcome w.winPresenter)

theorem Sound.breaks {a : Action} (h : Sound w) (documented : Documented wrapPixels)
    (bad : ¬ Good wrapPixels w a) (moved : (machine wrapPixels).step w a = some t) :
    ¬ Consistent t := by
  obtain ⟨-, moved⟩ := Machine.step_of_haltOn moved
  intro consistent
  cases a with
  | resizePresenter size outcome =>
    obtain rfl := Option.some.inj moved
    exact h.refused documented bad consistent.calls
  | beginPaint outcome =>
    obtain rfl := Option.some.inj moved
    exact h.refused documented bad consistent.calls
  | resize | onPaint => exact bad trivial

end Steps

theorem sound_init (width height : Int) : Sound { width, height } :=
  ⟨⟨by simp, by simp, rfl⟩, .inl rfl⟩

/-- Presenter and canvas are consistent throughout a run exactly if each size that is
asked for has pixels and gets its bitmap and its surface. -/
theorem presenter_consistent_iff (wrapPixels : Size → Pointer → Option Surface)
    (documented : Documented wrapPixels) (width height : Int) (as : List Action) :
    (∀ w ∈ (machine wrapPixels).visited { width, height } as, Consistent w) ↔
      ∀ p ∈ (machine wrapPixels).taken { width, height } as, Good wrapPixels p.1 p.2 :=
  Machine.visited_iff_taken (fun _ h => h.toConsistent)
    (fun _ _ _ h good => h.step documented good)
    (fun _ _ _ h bad => h.breaks documented bad) (sound_init width height) as

def wrapN32 (size : Size) (memory : Pointer) : Option Surface :=
  if size.isEmpty || memory == .null || 2 ^ 31 ≤ 4 * size.width * size.height then none
  else some ⟨size, memory⟩

theorem wrapN32_documented : Documented wrapN32 where
  pixels size memory surface wrapped := by
    simp only [wrapN32, Option.ite_none_left_eq_some] at wrapped
    simp only [Bool.or_eq_true, not_or, Bool.not_eq_true] at wrapped
    exact wrapped.1.1.1
  describes size memory surface wrapped := by
    simp only [wrapN32, Option.ite_none_left_eq_some, Option.some.injEq] at wrapped
    exact wrapped.2.symm

theorem presenter_consistent_grown :
    Consistent ((machine wrapN32).exec { width := 800, height := 600 }
      [.beginPaint .success, .onPaint, .resize 1024 768, .beginPaint .success, .onPaint]) := by
  let as : List Action :=
    [.beginPaint .success, .onPaint, .resize 1024 768, .beginPaint .success, .onPaint]
  have consistent := (presenter_consistent_iff wrapN32 wrapN32_documented 800 600 as).mpr
    (by decide)
  exact consistent _ (Machine.exec_mem_visited _ _ _)

theorem presenter_not_consistent :
    ¬ ∀ (wrapPixels : Size → Pointer → Option Surface), Documented wrapPixels →
      ∀ (width height : Int) (as : List Action),
        ∀ w ∈ (machine wrapPixels).visited { width, height } as, Consistent w := by
  intro all
  have consistent := all wrapN32 wrapN32_documented 800 600 [.beginPaint (.failure false)] _
    (Machine.exec_mem_visited _ _ _)
  exact consistent.pixelPtr (by decide)

end ChromiumDemo.PresenterResize
