import ChromiumDemo.GdiHandles
import ChromiumDemo.TransitionSystem

/-! `WinSoftwareBitmapPresenter` of demo_skia: the bitmap that the software canvas
draws into, as a GDI handle with the memory behind it and a Skia surface over
that. The destructor is the default one, which deletes no handle. What
`SkSurfaces::WrapPixels` makes of the memory is a parameter. -/

namespace ChromiumDemo.WinPresenter
open TransitionSystem GdiHandles

structure Size where
  width : Nat := 0
  height : Nat := 0
deriving DecidableEq

def Size.isEmpty (size : Size) : Bool := size.width = 0 || size.height = 0

structure Rect where
  x : Int
  y : Int
  width : Nat
  height : Nat
deriving DecidableEq

inductive Pointer
  | null
  | uninitialized
  | bits (bitmap : Nat)
deriving DecidableEq

structure Surface where
  size : Size
  pixels : Pointer
deriving DecidableEq

structure Presenter where
  size : Size := {}
  hBitmap : Option Nat := none
  pixelPtr : Pointer := .null
  surface : Option Surface := none
deriving DecidableEq

/-- What `CreateDIBSection` does: a failure returns null and may leave the pointer
as it was. -/
inductive Outcome
  | success
  | failure (clears : Bool)
deriving DecidableEq

structure World where
  presenter : Presenter := {}
  gdi : State := {}
  destroyed : Bool := false

/-- `CreateDIBSection` with the pointer that `pptr` is afterwards. -/
def createBitmap (outcome : Outcome) (g : State) : Option Nat × Pointer × State :=
  match outcome with
  | .success => (some (createDIBSection g).1, .bits (createDIBSection g).1, (createDIBSection g).2)
  | .failure true => (none, .null, g)
  | .failure false => (none, .uninitialized, g)

def resize (wrapPixels : Size → Pointer → Option Surface) (size : Size) (outcome : Outcome)
    (w : World) : World :=
  if w.presenter.size = size then w
  else
    let (hdc, g) := getDC w.gdi
    let (hBitmap, pptr, g) := createBitmap outcome g
    { w with
      presenter := ⟨size, hBitmap, pptr, wrapPixels size pptr⟩
      gdi := releaseDC hdc g }

/-- The damage is only where `BitBlt` copies from and to. -/
def endPaint (_damage : Rect) (w : World) : World :=
  let (hdc, g) := getDC w.gdi
  let (memDC, g) := createCompatibleDC g
  let (oldBitmap, g) := selectObject memDC (w.presenter.hBitmap.map .bitmap) g
  let (_, g) := selectObject memDC oldBitmap g
  { w with gdi := releaseDC hdc (deleteDC memDC g) }

inductive Action
  | resize (size : Size) (outcome : Outcome)
  | endPaint (damage : Rect)
  | destroy
deriving DecidableEq

section Presenter
variable (wrapPixels : Size → Pointer → Option Surface)

def step (w : World) : Action → Option World
  | .resize size outcome => some (resize wrapPixels size outcome w)
  | .endPaint damage => some (endPaint damage w)
  | .destroy => some { w with destroyed := true }

def machine : Machine World Action := .haltOn World.destroyed (step wrapPixels)

structure Owned (w : World) : Prop where
  atMostOne : w.gdi.bitmaps.length ≤ 1
  held : ∀ bitmap ∈ w.gdi.bitmaps, w.presenter.hBitmap = some bitmap
  released : w.destroyed = true → w.gdi.bitmaps = []
  balanced : Balanced w.gdi

/-- What the calls and the answers of `CreateDIBSection` come to: the size that was
asked for last, and whether a bitmap has been made. -/
structure Asked where
  size : Size := {}
  created : Bool := false
  destroyed : Bool := false

/-- Once there is a bitmap, no other size is asked for and the presenter stays. -/
def oneBitmap : Monitor Asked Action where
  allows u a := u.destroyed = true ∨ match a with
    | .resize size _ => u.size = size ∨ u.created = false
    | .endPaint _ => True
    | .destroy => u.created = false
  next u a := if u.destroyed then u else match a with
    | .resize size outcome =>
      if u.size = size then u else ⟨size, u.created || outcome == .success, false⟩
    | .endPaint _ => u
    | .destroy => { u with destroyed := true }

theorem createBitmap_cases (outcome : Outcome) (g : State) :
    (outcome = .success ∧ (createBitmap outcome g).1 = some g.nextBitmap ∧
      (createBitmap outcome g).2.2 =
        { g with bitmaps := g.bitmaps ++ [g.nextBitmap], nextBitmap := g.nextBitmap + 1 }) ∨
    (outcome ≠ .success ∧ (createBitmap outcome g).1 = none ∧
      (createBitmap outcome g).2.2 = g) := by
  cases outcome with
  | success => exact .inl ⟨rfl, rfl, rfl⟩
  | failure clears => cases clears <;> exact .inr ⟨by simp, rfl, rfl⟩

theorem resize_cases {size : Size} {w : World} (other : w.presenter.size ≠ size)
    (outcome : Outcome) :
    (outcome = .success ∧
      (resize wrapPixels size outcome w).presenter.hBitmap = some w.gdi.nextBitmap ∧
      (resize wrapPixels size outcome w).gdi = { w.gdi with
        bitmaps := w.gdi.bitmaps ++ [w.gdi.nextBitmap]
        nextBitmap := w.gdi.nextBitmap + 1
        nextDC := w.gdi.nextDC + 1 }) ∨
    (outcome ≠ .success ∧ (resize wrapPixels size outcome w).presenter.hBitmap = none ∧
      (resize wrapPixels size outcome w).gdi = { w.gdi with nextDC := w.gdi.nextDC + 1 }) := by
  have unfolded : (resize wrapPixels size outcome w).presenter.hBitmap =
        (createBitmap outcome (getDC w.gdi).2).1 ∧
      (resize wrapPixels size outcome w).gdi =
        releaseDC w.gdi.nextDC (createBitmap outcome (getDC w.gdi).2).2.2 := by
    rw [resize, if_neg other]
    exact ⟨rfl, rfl⟩
  rw [unfolded.1, unfolded.2]
  obtain ⟨success, made, after⟩ | ⟨failure, failed, after⟩ :=
    createBitmap_cases outcome (getDC w.gdi).2
  · exact .inl ⟨success, made, by rw [after]; simp [releaseDC, getDC]⟩
  · exact .inr ⟨failure, failed, by rw [after, releaseDC_getDC]⟩

theorem resize_size (size : Size) (outcome : Outcome) (w : World) :
    (resize wrapPixels size outcome w).presenter.size = size := by
  rw [resize]
  split
  · assumption
  · rfl

theorem resize_destroyed (size : Size) (outcome : Outcome) (w : World) :
    (resize wrapPixels size outcome w).destroyed = w.destroyed := by
  rw [resize]
  split <;> rfl

theorem endPaint_gdi {w : World} (closed : Balanced w.gdi) (damage : Rect) :
    (endPaint damage w).gdi = { w.gdi with nextDC := w.gdi.nextDC + 2 } := by
  have fresh : (getDC w.gdi).2.memoryDCs (getDC w.gdi).2.nextDC = none := by
    rw [getDC, closed.memoryDCs]
  have deleted := deleteDC_selected (getDC w.gdi).2 fresh (w.presenter.hBitmap.map .bitmap)
  simp only [endPaint]
  rw [deleted]
  simp [releaseDC, getDC]

theorem resize_balanced {w : World} (h : Balanced w.gdi) (size : Size) (outcome : Outcome) :
    Balanced (resize wrapPixels size outcome w).gdi := by
  by_cases same : w.presenter.size = size
  · rw [resize, if_pos same]
    exact h
  · obtain ⟨-, -, gdi⟩ | ⟨-, -, gdi⟩ := resize_cases wrapPixels same outcome <;>
      exact gdi ▸ { h with }

theorem endPaint_balanced {w : World} (h : Balanced w.gdi) (damage : Rect) :
    Balanced (endPaint damage w).gdi :=
  endPaint_gdi h damage ▸ { h with }

structure Follows (w : World) (u : Asked) : Prop where
  owned : Owned w
  size : w.presenter.size = u.size
  created : w.gdi.bitmaps = [] ↔ u.created = false
  destroyed : w.destroyed = u.destroyed

section Steps
variable {wrapPixels : Size → Pointer → Option Surface} {w : World} {u : Asked}

theorem next_eq (alive : w.destroyed = false) (a : Action) :
    (machine wrapPixels).next w a = (step wrapPixels w a).getD w :=
  Machine.haltOn_next alive (step wrapPixels) a

theorem Follows.resize {size : Size} (h : Follows w u) (alive : w.destroyed = false)
    (clean : u.size = size ∨ u.created = false) (outcome : Outcome) :
    Follows (resize wrapPixels size outcome w)
      (if u.size = size then u else ⟨size, u.created || outcome == .success, false⟩) := by
  by_cases same : u.size = size
  · rw [if_pos same, WinPresenter.resize, if_pos (h.size.trans same)]
    exact h
  have other : w.presenter.size ≠ size := h.size ▸ same
  have uncreated : u.created = false := clean.resolve_left same
  have empty : w.gdi.bitmaps = [] := h.created.mpr uncreated
  have stays : (WinPresenter.resize wrapPixels size outcome w).destroyed = false := by
    rw [resize_destroyed, alive]
  have kept : ¬ (WinPresenter.resize wrapPixels size outcome w).destroyed = true := by simp [stays]
  have balanced := resize_balanced wrapPixels h.owned.balanced size outcome
  rw [if_neg same]
  obtain ⟨rfl, made, gdi⟩ | ⟨failure, failed, gdi⟩ := resize_cases wrapPixels other outcome
  · refine ⟨⟨by simp [gdi, empty], by simp [gdi, empty, made], fun gone => absurd gone kept,
      balanced⟩, resize_size wrapPixels size .success w, ?_, stays⟩
    simp [gdi, empty]
  · refine ⟨⟨by simp [gdi, empty], by simp [gdi, empty], fun gone => absurd gone kept, balanced⟩,
      resize_size wrapPixels size outcome w, ?_, stays⟩
    simp [gdi, empty, uncreated, failure]

theorem Follows.endPaint (h : Follows w u) (damage : Rect) : Follows (endPaint damage w) u := by
  have gdi := endPaint_gdi h.owned.balanced damage
  refine ⟨⟨?_, ?_, ?_, endPaint_balanced h.owned.balanced damage⟩, h.size, ?_, h.destroyed⟩
  · rw [gdi]
    exact h.owned.atMostOne
  · rw [gdi]
    exact h.owned.held
  · rw [gdi]
    exact h.owned.released
  · rw [gdi]
    exact h.created

theorem Follows.next (a : Action) (h : Follows w u) (allowed : oneBitmap.allows u a) :
    Follows ((machine wrapPixels).next w a) (oneBitmap.next u a) := by
  cases gone : u.destroyed with
  | true =>
    have dead : w.destroyed = true := h.destroyed.trans gone
    rw [machine, Machine.haltOn_next_of_halted dead]
    simpa [oneBitmap, gone] using h
  | false =>
    have alive : w.destroyed = false := h.destroyed.trans gone
    rw [next_eq alive]
    simp only [oneBitmap, gone, Bool.false_eq_true, false_or, if_false] at allowed ⊢
    cases a with
    | resize size outcome => exact h.resize alive allowed outcome
    | endPaint damage => exact h.endPaint damage
    | destroy =>
      have none_left : w.gdi.bitmaps = [] := h.created.mpr allowed
      exact ⟨⟨h.owned.atMostOne, h.owned.held, fun _ => none_left, h.owned.balanced⟩, h.size,
        h.created, rfl⟩

theorem resize_not_owned {size : Size} (outcome : Outcome) (other : w.presenter.size ≠ size)
    (bitmaps : w.gdi.bitmaps ≠ []) : ¬ Owned (WinPresenter.resize wrapPixels size outcome w) := by
  intro owned
  have positive := List.length_pos_iff.mpr bitmaps
  obtain ⟨-, -, gdi⟩ | ⟨-, failed, gdi⟩ := resize_cases wrapPixels other outcome
  · have few := owned.atMostOne
    rw [gdi, List.length_append, List.length_singleton] at few
    omega
  · obtain ⟨bitmap, member⟩ := List.exists_mem_of_ne_nil _ bitmaps
    have held := owned.held bitmap (by rw [gdi]; exact member)
    rw [failed] at held
    cases held

theorem Follows.breaks (a : Action) (h : Follows w u) (refused : ¬ oneBitmap.allows u a) :
    ¬ Owned ((machine wrapPixels).next w a) := by
  obtain ⟨present, refused⟩ := not_or.mp refused
  have alive : w.destroyed = false := h.destroyed.trans (Bool.eq_false_iff.mpr present)
  rw [next_eq alive]
  cases a with
  | resize size outcome =>
    obtain ⟨other, created⟩ := not_or.mp refused
    exact resize_not_owned outcome (h.size ▸ other) (mt h.created.mp created)
  | endPaint damage => exact absurd trivial refused
  | destroy =>
    intro owned
    exact refused (h.created.mp (owned.released rfl))

end Steps

theorem start_follows : Follows {} {} :=
  ⟨⟨Nat.zero_le 1, fun _ member => absurd member List.not_mem_nil, fun _ => rfl, balanced_start⟩,
    rfl, iff_of_true rfl rfl, rfl⟩

/-- The presenter owns its bitmap throughout a run exactly if after the first bitmap
made it is neither asked for another size nor destroyed. -/
theorem owned_iff (as : List Action) :
    (∀ w ∈ (machine wrapPixels).visited {} as, Owned w) ↔ oneBitmap.Accepts {} as :=
  Machine.visited_iff_accepts (fun _ _ h => h.owned) (fun _ _ a h => h.next a)
    (fun _ _ a h => h.breaks a) start_follows as

theorem step_balanced (w : World) (a : Action) (u : World) (h : Balanced w.gdi)
    (moved : (machine wrapPixels).step w a = some u) : Balanced u.gdi := by
  obtain ⟨-, moved⟩ := Machine.step_of_haltOn moved
  cases a with
  | resize size outcome =>
    obtain rfl := Option.some.inj moved
    exact resize_balanced wrapPixels h size outcome
  | endPaint damage =>
    obtain rfl := Option.some.inj moved
    exact endPaint_balanced h damage
  | destroy =>
    obtain rfl := Option.some.inj moved
    exact h

theorem exec_balanced (as : List Action) : Balanced ((machine wrapPixels).exec {} as).gdi := by
  have start : Balanced ({} : World).gdi := balanced_start
  exact Machine.exec_invariant (step_balanced wrapPixels) start as

theorem closed_window_leaks :
    ¬ ∀ w ∈ (machine fun size pixels => some ⟨size, pixels⟩).visited {}
      [.resize ⟨800, 600⟩ .success, .endPaint ⟨0, 0, 800, 600⟩, .destroy], Owned w := by
  intro all
  have released := (all _ (Machine.exec_mem_visited _ _ _)).released rfl
  exact absurd released (by decide)

end Presenter

end ChromiumDemo.WinPresenter
