import ChromiumDemo.TransitionSystem
import Mathlib.Data.List.Infix

/-! Frames of the GL canvases with and without `use_ddl_`. `C` are the draw commands of
a frame. What a surface shows is given by the commands that have reached it. -/

namespace ChromiumDemo.DeferredPainting
open TransitionSystem

variable {C : Type*}

/-- Whether `BeginPaint` goes on to the canvas of `skSurface_` after it has made a
recorder, as in demo_skia, or returns that of the recorder, as in demo_android_skia. -/
structure Version where
  overwritesCanvas : Bool

def desktop : Version := ⟨true⟩

def android : Version := ⟨false⟩

/-- The commands that are issued between `BeginPaint` and `OnPaint`, and whether
`WrapBackendRenderTarget`, `characterize` and `DrawDDL` succeed. -/
structure Frame (C : Type*) where
  commands : List C
  wraps : Bool
  characterizes : Bool
  draws : Bool

inductive Canvas
  | skSurface
  | recorder

inductive Way
  | direct
  | replay

/-- `recorder` is what the recorder holds, `pending` what `flushAndSubmit` will bring to
the framebuffer. The other lists are histories. -/
structure World (C : Type*) where
  recorder : List C := []
  pending : List C := []
  framebuffer : List C := []
  crashed : Bool := false
  issued : List C := []
  recorded : List C := []
  reached : List (Way × C) := []
  swaps : List (List C) := []

def crash (w : World C) : World C := { w with crashed := true }

/-- No canvas comes back from a crash. Without a surface both ways dereference null, and
a recorder that has no characterization has no canvas. -/
def beginPaint (v : Version) (checks useDdl : Bool) (frame : Frame C) (w : World C) :
    World C × Option Canvas :=
  if frame.wraps = false then (crash w, none)
  else if useDdl then
    if checks ∧ frame.characterizes = false then (crash w, none)
    else
      let w := { w with recorder := [] }
      if v.overwritesCanvas then (w, some .skSurface)
      else if frame.characterizes then (w, some .recorder)
      else (crash w, none)
  else (w, some .skSurface)

def draw (canvas : Canvas) (w : World C) (command : C) : World C :=
  let w := { w with issued := w.issued ++ [command] }
  match canvas with
  | .skSurface => { w with
      pending := w.pending ++ [command]
      reached := w.reached ++ [(.direct, command)] }
  | .recorder => { w with
      recorder := w.recorder ++ [command]
      recorded := w.recorded ++ [command] }

/-- `recorder_->detach()`, and the replay of the list inside a `DCHECK`. -/
def drawDDL (checks : Bool) (frame : Frame C) (w : World C) : World C :=
  let list := w.recorder
  let w := { w with recorder := [] }
  if checks then
    if frame.draws then { w with
      pending := w.pending ++ list
      reached := w.reached ++ list.map fun command => (.replay, command) }
    else crash w
  else w

def flushAndSubmit (w : World C) : World C :=
  if w.crashed then w
  else { w with framebuffer := w.framebuffer ++ w.pending, pending := [] }

def onPaint (checks useDdl : Bool) (frame : Frame C) (w : World C) : World C :=
  flushAndSubmit (if useDdl then drawDDL checks frame w else w)

def swapBuffer (w : World C) : World C :=
  if w.crashed then w else { w with swaps := w.swaps ++ [w.framebuffer] }

def paint (v : Version) (checks useDdl : Bool) (frame : Frame C) (w : World C) : World C :=
  if w.crashed then w
  else match beginPaint v checks useDdl frame w with
  | (w, none) => w
  | (w, some canvas) =>
    swapBuffer (onPaint checks useDdl frame (frame.commands.foldl (draw canvas) w))

structure Pair (C : Type*) where
  deferred : World C := {}
  direct : World C := {}

def machine (v : Version) (checks : Bool) : Machine (Pair C) (Frame C) where
  step p frame := some
    ⟨paint v checks true frame p.deferred, paint v checks false frame p.direct⟩

structure Replayed (w : World C) : Prop where
  recorded : w.recorded = w.issued
  reached : w.reached = w.issued.map fun command => (.replay, command)

/-- Each swap shows what it shows after direct painting. -/
structure Refines (p : Pair C) : Prop where
  replayed : Replayed p.deferred
  content : p.deferred.swaps <+: p.direct.swaps

def Idle (checks : Bool) (p : Pair C) (frame : Frame C) : Prop :=
  p.deferred.crashed = true ∨ frame.commands = [] ∨ frame.wraps = false ∨
    checks = true ∧ frame.characterizes = false

structure Same (p : Pair C) : Prop where
  alive : p.deferred.crashed = false → p.direct.crashed = false
  pending : p.deferred.crashed = false → p.deferred.pending = p.direct.pending
  framebuffer : p.deferred.crashed = false → p.deferred.framebuffer = p.direct.framebuffer
  swaps : p.deferred.crashed = false → p.deferred.swaps = p.direct.swaps
  content : p.deferred.swaps <+: p.direct.swaps

section Draws
variable (commands : List C) (w : World C)

theorem foldl_draw_skSurface : commands.foldl (draw .skSurface) w = { w with
    issued := w.issued ++ commands
    pending := w.pending ++ commands
    reached := w.reached ++ commands.map fun command => (.direct, command) } := by
  induction commands generalizing w with
  | nil => simp
  | cons command commands ih =>
    rw [List.foldl_cons, ih]
    simp [draw]

theorem foldl_draw_recorder : commands.foldl (draw .recorder) w = { w with
    issued := w.issued ++ commands
    recorder := w.recorder ++ commands
    recorded := w.recorded ++ commands } := by
  induction commands generalizing w with
  | nil => simp
  | cons command commands ih =>
    rw [List.foldl_cons, ih]
    simp [draw]

end Draws

section Frames
variable {v : Version} {checks : Bool} {frame : Frame C} {w : World C}

theorem paint_of_crashed {useDdl : Bool} (dead : w.crashed = true) :
    paint v checks useDdl frame w = w := by
  rw [paint, if_pos dead]

theorem paint_of_unwrapped {useDdl : Bool} (alive : w.crashed = false)
    (null : frame.wraps = false) : paint v checks useDdl frame w = crash w := by
  simp [paint, beginPaint, alive, null]

theorem paint_direct (alive : w.crashed = false) (wraps : frame.wraps = true) :
    paint v checks false frame w = { w with
      issued := w.issued ++ frame.commands
      reached := w.reached ++ frame.commands.map fun command => (.direct, command)
      framebuffer := w.framebuffer ++ (w.pending ++ frame.commands)
      pending := []
      swaps := w.swaps ++ [w.framebuffer ++ (w.pending ++ frame.commands)] } := by
  simp [paint, beginPaint, alive, wraps, foldl_draw_skSurface, onPaint, flushAndSubmit, swapBuffer]

theorem paint_uncharacterized (alive : w.crashed = false)
    (fails : frame.characterizes = false) : paint v true true frame w = crash w := by
  simp [paint, beginPaint, alive, fails]

theorem paint_desktop (alive : w.crashed = false) (wraps : frame.wraps = true)
    (characterized : checks = true → frame.characterizes = true)
    (drawn : checks = true → frame.draws = true) :
    paint desktop checks true frame w =
      { paint desktop checks false frame w with recorder := [] } := by
  rw [paint_direct alive wraps]
  cases checks with
  | false =>
    simp [paint, beginPaint, desktop, alive, wraps, foldl_draw_skSurface, onPaint, drawDDL,
      flushAndSubmit, swapBuffer]
  | true =>
    simp [paint, beginPaint, desktop, alive, wraps, characterized rfl, foldl_draw_skSurface,
      onPaint, drawDDL, flushAndSubmit, drawn rfl, swapBuffer]

theorem desktop_reached (alive : w.crashed = false) (wraps : frame.wraps = true)
    (characterized : checks = true → frame.characterizes = true) :
    let t := paint desktop checks true frame w
    t.issued = w.issued ++ frame.commands ∧ t.recorded = w.recorded ∧
      t.reached = w.reached ++ frame.commands.map fun command => (.direct, command) := by
  cases checks with
  | false =>
    simp [paint, beginPaint, desktop, alive, wraps, foldl_draw_skSurface, onPaint, drawDDL,
      flushAndSubmit, swapBuffer]
  | true =>
    cases drawn : frame.draws with
    | false =>
      simp [paint, beginPaint, desktop, alive, wraps, characterized rfl, foldl_draw_skSurface,
        onPaint, drawDDL, flushAndSubmit, drawn, swapBuffer, crash]
    | true =>
      rw [paint_desktop alive wraps characterized fun _ => drawn, paint_direct alive wraps]
      exact ⟨rfl, rfl, rfl⟩

theorem beginPaint_swaps (v : Version) (checks useDdl : Bool) (frame : Frame C) (w : World C) :
    (beginPaint v checks useDdl frame w).1.swaps = w.swaps ∧
      ((beginPaint v checks useDdl frame w).2 = none →
        (beginPaint v checks useDdl frame w).1.crashed = true) := by
  rw [beginPaint]
  split
  · exact ⟨rfl, fun _ => rfl⟩
  · cases useDdl with
    | false => exact ⟨rfl, fun none => by cases none⟩
    | true =>
      obtain ⟨overwrites⟩ := v
      rw [if_pos rfl]
      split
      · exact ⟨rfl, fun _ => rfl⟩
      · cases overwrites with
        | true => exact ⟨rfl, fun none => by cases none⟩
        | false =>
          cases frame.characterizes with
          | true => exact ⟨rfl, fun none => by cases none⟩
          | false => exact ⟨rfl, fun _ => rfl⟩

theorem foldl_draw_swaps (canvas : Canvas) (commands : List C) (w : World C) :
    (commands.foldl (draw canvas) w).swaps = w.swaps := by
  cases canvas with
  | skSurface => rw [foldl_draw_skSurface]
  | recorder => rw [foldl_draw_recorder]

theorem onPaint_swaps (checks useDdl : Bool) (frame : Frame C) (w : World C) :
    (onPaint checks useDdl frame w).swaps = w.swaps := by
  have flushed : ∀ w : World C, (flushAndSubmit w).swaps = w.swaps := by
    intro w
    rw [flushAndSubmit]
    split <;> rfl
  have drawn : (drawDDL checks frame w).swaps = w.swaps := by
    rw [drawDDL]
    split
    · split <;> rfl
    · rfl
  rw [onPaint, flushed]
  cases useDdl with
  | false => rfl
  | true => exact drawn

theorem paint_swaps (v : Version) (checks useDdl : Bool) (frame : Frame C) (w : World C) :
    let t := paint v checks useDdl frame w
    t.crashed = true ∧ t.swaps = w.swaps ∨
      t.crashed = false ∧ t.swaps = w.swaps ++ [t.framebuffer] := by
  rw [paint]
  split
  · rename_i dead
    exact .inl ⟨dead, rfl⟩
  · obtain ⟨swaps, dead⟩ := beginPaint_swaps v checks useDdl frame w
    split
    · rename_i t began
      rw [began] at swaps dead
      exact .inl ⟨dead rfl, swaps⟩
    · rename_i t canvas began
      rw [began] at swaps
      have same := (onPaint_swaps checks useDdl frame
        (frame.commands.foldl (draw canvas) t)).trans
          ((foldl_draw_swaps canvas frame.commands t).trans swaps)
      rw [swapBuffer]
      split
      · rename_i dead
        exact .inl ⟨dead, same⟩
      · rename_i alive
        refine .inr ⟨Bool.of_not_eq_true alive, ?_⟩
        change _ ++ _ = _
        rw [same]

theorem swaps_prefix (v : Version) (checks useDdl : Bool) (frame : Frame C) (w : World C) :
    w.swaps <+: (paint v checks useDdl frame w).swaps := by
  obtain ⟨-, same⟩ | ⟨-, more⟩ := paint_swaps v checks useDdl frame w
  · rw [same]
  · rw [more]
    exact List.prefix_append _ _

theorem paint_alive {useDdl : Bool} (alive : (paint v checks useDdl frame w).crashed = false) :
    w.crashed = false ∧ frame.wraps = true ∧ (useDdl = true → checks = true →
      frame.characterizes = true ∧ frame.draws = true) := by
  have before : w.crashed = false := by
    by_contra dead
    rw [paint_of_crashed (Bool.of_not_eq_false dead)] at alive
    exact dead alive
  have wraps : frame.wraps = true := by
    by_contra null
    rw [paint_of_unwrapped before (Bool.of_not_eq_true null)] at alive
    cases alive
  refine ⟨before, wraps, ?_⟩
  rintro rfl rfl
  have characterized : frame.characterizes = true := by
    by_contra fails
    rw [paint_uncharacterized before (Bool.of_not_eq_true fails)] at alive
    cases alive
  refine ⟨characterized, ?_⟩
  by_contra fails
  obtain ⟨overwrites⟩ := v
  cases overwrites <;>
    simp [paint, beginPaint, before, wraps, characterized, foldl_draw_skSurface,
      foldl_draw_recorder, onPaint, drawDDL, flushAndSubmit, Bool.of_not_eq_true fails,
      swapBuffer, crash] at alive

theorem paint_android (alive : w.crashed = false) (wraps : frame.wraps = true)
    (characterizes : frame.characterizes = true) (draws : frame.draws = true) :
    paint android true true frame w = { w with
      recorder := []
      issued := w.issued ++ frame.commands
      recorded := w.recorded ++ frame.commands
      reached := w.reached ++ frame.commands.map fun command => (.replay, command)
      framebuffer := w.framebuffer ++ (w.pending ++ frame.commands)
      pending := []
      swaps := w.swaps ++ [w.framebuffer ++ (w.pending ++ frame.commands)] } := by
  simp [paint, beginPaint, android, alive, wraps, characterizes, foldl_draw_recorder, onPaint,
    drawDDL, draws, flushAndSubmit, swapBuffer]

theorem paint_android_without_canvas (alive : w.crashed = false) (wraps : frame.wraps = true)
    (fails : frame.characterizes = false) :
    paint android false true frame w = crash { w with recorder := [] } := by
  simp [paint, beginPaint, android, alive, wraps, fails]

theorem paint_android_unchecked (alive : w.crashed = false) (wraps : frame.wraps = true)
    (characterizes : frame.characterizes = true) :
    paint android false true frame w = { w with
      recorder := []
      issued := w.issued ++ frame.commands
      recorded := w.recorded ++ frame.commands
      framebuffer := w.framebuffer ++ w.pending
      pending := []
      swaps := w.swaps ++ [w.framebuffer ++ w.pending] } := by
  simp [paint, beginPaint, android, alive, wraps, characterizes, foldl_draw_recorder, onPaint,
    drawDDL, flushAndSubmit, swapBuffer]

end Frames

def Shows (C : Type*) (v : Version) (checks : Bool) : Prop :=
  ∀ (frame : Frame C) (w : World C), let t := paint v checks true frame w
    t.crashed = false → t.pending = [] ∧
      t.framebuffer = w.framebuffer ++ (w.pending ++ frame.commands) ∧
      t.swaps = w.swaps ++ [w.framebuffer ++ (w.pending ++ frame.commands)]

theorem desktop_shows (checks : Bool) : Shows C desktop checks := by
  intro frame w t alive
  obtain ⟨before, wraps, succeed⟩ := paint_alive alive
  have painted := paint_desktop before wraps (fun on => (succeed rfl on).1)
    (fun on => (succeed rfl on).2)
  rw [paint_direct before wraps] at painted
  have same : t = _ := painted
  rw [same]
  exact ⟨rfl, rfl, rfl⟩

theorem android_shows : Shows C android true := by
  intro frame w t alive
  obtain ⟨before, wraps, succeed⟩ := paint_alive alive
  have same : t = _ := paint_android before wraps (succeed rfl rfl).1 (succeed rfl rfl).2
  rw [same]
  exact ⟨rfl, rfl, rfl⟩

section Pairs
variable {v : Version} {checks : Bool} {p t : Pair C} {frame : Frame C}

theorem Same.next (h : Same p) (shows : Shows C v checks)
    (moved : (machine v checks).step p frame = some t) : Same t := by
  obtain rfl := Option.some.inj moved
  have grown := swaps_prefix v checks false frame p.direct
  obtain ⟨dead, swaps⟩ | ⟨alive, -⟩ := paint_swaps v checks true frame p.deferred
  · have never : ∀ {P : Prop}, (paint v checks true frame p.deferred).crashed = false → P :=
      fun alive => Bool.noConfusion (dead.symm.trans alive)
    refine ⟨never, never, never, never, ?_⟩
    change (paint v checks true frame p.deferred).swaps <+: _
    rw [swaps]
    exact h.content.trans grown
  · obtain ⟨before, wraps, -⟩ := paint_alive alive
    obtain ⟨pending, framebuffer, swaps⟩ := shows frame p.deferred alive
    rw [h.pending before, h.framebuffer before] at framebuffer swaps
    rw [h.swaps before] at swaps
    have direct : paint v checks false frame p.direct = _ := paint_direct (h.alive before) wraps
    have content : (paint v checks true frame p.deferred).swaps =
        (paint v checks false frame p.direct).swaps := by
      rw [swaps, direct]
    refine ⟨fun _ => ?_, fun _ => ?_, fun _ => ?_, fun _ => content, content ▸ List.prefix_rfl⟩
    · change (paint v checks false frame p.direct).crashed = false
      rw [direct]
      exact h.alive before
    · change (paint v checks true frame p.deferred).pending = (paint _ _ _ _ _).pending
      rw [pending, direct]
    · change (paint v checks true frame p.deferred).framebuffer = (paint _ _ _ _ _).framebuffer
      rw [framebuffer, direct]

theorem Replayed.desktop_iff {w : World C} (h : Replayed w) (alive : w.crashed = false) :
    Replayed (paint desktop checks true frame w) ↔
      frame.commands = [] ∨ frame.wraps = false ∨
        checks = true ∧ frame.characterizes = false := by
  by_cases fails : frame.wraps = false ∨ checks = true ∧ frame.characterizes = false
  · have crashed : paint desktop checks true frame w = crash w := by
      rcases fails with null | ⟨rfl, uncharacterized⟩
      · exact paint_of_unwrapped alive null
      · exact paint_uncharacterized alive uncharacterized
    rw [crashed]
    exact iff_of_true ⟨h.recorded, h.reached⟩ (.inr fails)
  · obtain ⟨wraps, characterized⟩ := not_or.mp fails
    obtain ⟨issued, recorded, reached⟩ :=
      desktop_reached alive (Bool.of_not_eq_false wraps) fun on =>
        Bool.of_not_eq_false fun off => characterized ⟨on, off⟩
    rw [or_iff_left fails]
    constructor
    · intro replayed
      have all := replayed.recorded
      rw [recorded, issued, h.recorded] at all
      exact List.self_eq_append_right.mp all
    · intro empty
      rw [empty, List.append_nil] at issued
      rw [empty, List.map_nil, List.append_nil] at reached
      exact ⟨by rw [recorded, issued, h.recorded], by rw [reached, issued, h.reached]⟩

theorem Refines.next (h : Refines p) (same : Same p) (idle : Idle checks p frame)
    (moved : (machine desktop checks).step p frame = some t) : Refines t := by
  have content := (same.next (desktop_shows checks) moved).content
  obtain rfl := Option.some.inj moved
  refine ⟨?_, content⟩
  cases alive : p.deferred.crashed with
  | true =>
    change Replayed (paint desktop checks true frame p.deferred)
    rw [paint_of_crashed alive]
    exact h.replayed
  | false =>
    refine (h.replayed.desktop_iff alive).mpr (idle.resolve_left fun dead => ?_)
    exact Bool.noConfusion (alive.symm.trans dead)

theorem Refines.breaks (h : Refines p) (busy : ¬ Idle checks p frame)
    (moved : (machine desktop checks).step p frame = some t) : ¬ Refines t := by
  obtain rfl := Option.some.inj moved
  obtain ⟨alive, drawn⟩ := not_or.mp busy
  intro refines
  exact drawn ((h.replayed.desktop_iff (Bool.of_not_eq_true alive)).mp refines.replayed)

theorem Replayed.android {w : World C} (h : Replayed w) (draws : frame.draws = true) :
    Replayed (paint android true true frame w) := by
  cases alive : w.crashed with
  | true =>
    rw [paint_of_crashed alive]
    exact h
  | false =>
    cases wraps : frame.wraps with
    | false =>
      rw [paint_of_unwrapped alive wraps]
      exact ⟨h.recorded, h.reached⟩
    | true =>
      cases characterizes : frame.characterizes with
      | false =>
        rw [paint_uncharacterized alive characterizes]
        exact ⟨h.recorded, h.reached⟩
      | true =>
        rw [paint_android alive wraps characterizes draws]
        refine ⟨congrArg (· ++ frame.commands) h.recorded, ?_⟩
        change w.reached ++ _ = (w.issued ++ frame.commands).map _
        rw [h.reached, List.map_append]

structure Blank (w : World C) : Prop where
  pending : w.pending = []
  framebuffer : w.framebuffer = []
  swaps : ∀ content ∈ w.swaps, content = []

theorem Blank.android {w : World C} (h : Blank w) : Blank (paint android false true frame w) := by
  cases alive : w.crashed with
  | true =>
    rw [paint_of_crashed alive]
    exact h
  | false =>
    cases wraps : frame.wraps with
    | false =>
      rw [paint_of_unwrapped alive wraps]
      exact ⟨h.pending, h.framebuffer, h.swaps⟩
    | true =>
      cases characterizes : frame.characterizes with
      | false =>
        rw [paint_android_without_canvas alive wraps characterizes]
        exact ⟨h.pending, h.framebuffer, h.swaps⟩
      | true =>
        rw [paint_android_unchecked alive wraps characterizes, h.pending, h.framebuffer]
        refine ⟨rfl, rfl, ?_⟩
        intro content member
        rcases List.mem_append.mp member with old | new
        · exact h.swaps content old
        · exact List.mem_singleton.mp new

end Pairs

theorem refines_init : Refines ({} : Pair C) := ⟨⟨rfl, rfl⟩, List.prefix_rfl⟩

theorem same_init : Same ({} : Pair C) :=
  ⟨fun _ => rfl, fun _ => rfl, fun _ => rfl, fun _ => rfl, List.prefix_rfl⟩

/-- The deferred way of the desktop always shows what direct painting shows, and it is
deferred exactly in runs in which nothing is drawn. -/
theorem deferred_refines_iff (checks : Bool) (frames : List (Frame C)) :
    ((∀ p ∈ (machine desktop checks).visited {} frames, Refines p) ↔
        ∀ q ∈ (machine desktop checks).taken {} frames, Idle checks q.1 q.2) ∧
      ∀ p ∈ (machine desktop checks).visited {} frames, Same p := by
  constructor
  · refine Machine.visited_iff_taken (fun p (h : Refines p ∧ Same p) => h.1) ?_ ?_
      ⟨refines_init, same_init⟩ frames
    · intro p frame t h idle moved
      exact ⟨h.1.next h.2 idle moved, h.2.next (desktop_shows checks) moved⟩
    · intro p frame t h busy moved
      exact h.1.breaks busy moved
  · refine Machine.visited_invariant (fun p frame t h moved => ?_) same_init frames
    exact h.next (desktop_shows checks) moved

theorem deferred_draws_directly : ¬ ∀ (checks : Bool) (frames : List (Frame Nat)),
    ∀ p ∈ (machine desktop checks).visited {} frames, Refines p := by
  intro all
  have refines := all true [⟨[7], true, true, true⟩] _ (Machine.exec_mem_visited _ _ _)
  have recorded : [] = [7] := refines.replayed.recorded
  cases recorded

/-- With `DCHECK`s the canvas of demo_android_skia defers, as long as the replays succeed. -/
theorem android_refines (frames : List (Frame C))
    (draws : ∀ q ∈ (machine android true).taken {} frames, q.2.draws = true) :
    Refines ((machine android true).exec {} frames) := by
  have keeps : ∀ (p : Pair C) (frame : Frame C) (t : Pair C), Replayed p.deferred ∧ Same p →
      frame.draws = true → (machine android true).step p frame = some t →
        Replayed t.deferred ∧ Same t := by
    intro p frame t h draws moved
    refine ⟨?_, h.2.next android_shows moved⟩
    obtain rfl := Option.some.inj moved
    exact h.1.android draws
  obtain ⟨replayed, same⟩ :=
    Machine.exec_invariant_of_taken keeps ⟨refines_init.replayed, same_init⟩ draws
  exact ⟨replayed, same.content⟩

theorem android_unchecked_blank (frames : List (Frame C)) :
    Blank ((machine android false).exec {} frames).deferred := by
  have keeps : ∀ (p : Pair C) (frame : Frame C) (t : Pair C), Blank p.deferred →
      (machine android false).step p frame = some t → Blank t.deferred := by
    intro p frame t h moved
    obtain rfl := Option.some.inj moved
    exact h.android
  have start : Blank ({} : Pair C).deferred := ⟨rfl, rfl, by simp⟩
  exact Machine.exec_invariant keeps start frames

end ChromiumDemo.DeferredPainting
