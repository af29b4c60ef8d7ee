import ChromiumDemo.JsonText
import ChromiumDemo.TransitionSystem
import Mathlib.Algebra.Ring.Int.Defs

/-! The trace writer of demo_android_skia. `g_write_offset` is advanced by what each
`base::File::Write` returns, which is -1 after an error. A flush that `TraceLog` has
been asked for comes back as callbacks, the last one without more events. -/

namespace ChromiumDemo.AndroidTrace
open TransitionSystem JsonText

/-- Conversion to `int`, and where the addition of two `int` goes when it overflows. -/
def toInt (n : Int) : Int := (n + 2 ^ 31) % 2 ^ 32 - 2 ^ 31

structure Write where
  offset : Int
  data : Text
  result : Int

def Write.stored (w : Write) : Nat := w.result.toNat

/-- `flushes` are those that `TraceLog` has not finished, and `offsets` all values that
`g_write_offset` has had. -/
structure Trace where
  started : Bool := false
  gWriteOffset : Int := 0
  isFlushing : Bool := false
  flushes : Nat := 0
  offsets : List Int := [0]
  writes : List Write := []

/-- A write at a place that does not exist, or of a negative size, is an error. -/
def Returns (offset size result : Int) : Prop :=
  result = -1 ∨ 0 ≤ offset ∧ 0 ≤ result ∧ result ≤ size

instance (offset size result : Int) : Decidable (Returns offset size result) :=
  inferInstanceAs (Decidable (_ ∨ _))

def write (data : Text) (result : Int) (t : Trace) : Option Trace :=
  if Returns t.gWriteOffset (toInt data.length) result then
    some { t with
      gWriteOffset := toInt (t.gWriteOffset + result)
      offsets := t.offsets ++ [toInt (t.gWriteOffset + result)]
      writes := t.writes ++ [⟨t.gWriteOffset, data, result⟩] }
  else none

def demoMain (result : Int) (t : Trace) : Option Trace :=
  write [ascii '['] result { t with started := true }

def flushTrace (t : Trace) : Trace :=
  if t.isFlushing then t else { t with isFlushing := true, flushes := t.flushes + 1 }

/-- The last results are those of the three writes in order; the third write is only
that of the last callback. -/
def flushCallback (eventsStr : Text) (hasMoreEvents : Bool) (first second third : Int)
    (t : Trace) : Option Trace := do
  let t ← write eventsStr first t
  let t ← write (comma ++ [ascii '\n']) second t
  if hasMoreEvents then some t
  else
    let t ← write [ascii '\n'] third t
    some { t with isFlushing := false, flushes := t.flushes - 1 }

inductive Action
  | demoMain (result : Int)
  | flushTrace
  | flushCallback (eventsStr : Text) (hasMoreEvents : Bool) (first second third : Int)

/-- `DemoMain` runs once, before there is a canvas that could ask for a flush. -/
def step (t : Trace) : Action → Option Trace
  | .demoMain result => if t.started then none else demoMain result t
  | .flushTrace => if t.started then some (flushTrace t) else none
  | .flushCallback eventsStr hasMoreEvents first second third =>
    if 0 < t.flushes then flushCallback eventsStr hasMoreEvents first second third t else none

def machine : Machine Trace Action := ⟨step⟩

def Grows (t : Trace) : Prop := t.offsets.Pairwise (· ≤ ·)

def stored (writes : List Write) : Nat := (writes.map Write.stored).sum

structure Appends (t : Trace) : Prop where
  offset : t.gWriteOffset = stored t.writes
  nonnegative : 0 ≤ t.gWriteOffset
  grows : Grows t
  places : History (fun before w => 0 < w.stored → w.offset = stored before) t.writes

structure Sound (t : Trace) : Prop extends Appends t where
  flushes : t.flushes = if t.isFlushing then 1 else 0
  ignored : t.isFlushing = true → flushTrace t = t

def Succeeds (t : Trace) : Action → Prop
  | .demoMain result => 0 ≤ result
  | .flushTrace => True
  | .flushCallback _ hasMoreEvents first second third =>
    0 ≤ first ∧ 0 ≤ second ∧ (hasMoreEvents = false → 0 ≤ third) ∧
      t.gWriteOffset + first + second + (if hasMoreEvents then 0 else third) < 2 ^ 31

structure Kept (t : Trace) : Prop extends Appends t where
  bounded : t.gWriteOffset < 2 ^ 31
  last : t.offsets.getLast? = some t.gWriteOffset

section Writes
variable {t u : Trace} {data : Text} {result : Int}

theorem write_eq_some (written : write data result t = some u) :
    Returns t.gWriteOffset (toInt data.length) result ∧
      u = { t with
        gWriteOffset := toInt (t.gWriteOffset + result)
        offsets := t.offsets ++ [toInt (t.gWriteOffset + result)]
        writes := t.writes ++ [⟨t.gWriteOffset, data, result⟩] } := by
  rw [write, Option.ite_none_right_eq_some] at written
  exact ⟨written.1, (Option.some.inj written.2).symm⟩

theorem write_flushing (written : write data result t = some u) :
    u.isFlushing = t.isFlushing ∧ u.flushes = t.flushes := by
  obtain ⟨-, rfl⟩ := write_eq_some written
  exact ⟨rfl, rfl⟩

theorem grows_of_write (written : write data result t = some u) (grows : Grows u) : Grows t := by
  obtain ⟨-, rfl⟩ := write_eq_some written
  exact grows.sublist (List.sublist_append_left _ _)

theorem Kept.grows_iff (h : Kept t) (written : write data result t = some u) :
    Grows u ↔ 0 ≤ result ∧ t.gWriteOffset + result < 2 ^ 31 := by
  obtain ⟨returns, rfl⟩ := write_eq_some written
  have small : toInt data.length < 2 ^ 31 := by
    rw [toInt]
    omega
  have nonnegative := h.nonnegative
  have bounded := h.bounded
  constructor
  · intro grows
    have later := (List.pairwise_append.mp grows).2.2 t.gWriteOffset
      (List.mem_of_getLast? h.last) _ (List.mem_singleton_self _)
    rw [toInt] at later
    rcases returns with rfl | ⟨-, positive, le⟩
    · omega
    · refine ⟨positive, ?_⟩
      omega
  · rintro ⟨positive, fits⟩
    refine List.pairwise_append.mpr ⟨h.grows, List.pairwise_singleton _ _, ?_⟩
    intro offset member next new
    rw [List.mem_singleton.mp new, toInt]
    have before : offset ≤ t.gWriteOffset := by
      obtain ⟨front, split⟩ := List.getLast?_eq_some_iff.mp h.last
      rw [split] at member
      rcases List.mem_append.mp member with old | last
      · have grows := h.grows
        rw [Grows, split] at grows
        exact (List.pairwise_append.mp grows).2.2 offset old _ (List.mem_singleton_self _)
      · exact Int.le_of_eq (List.mem_singleton.mp last)
    omega

theorem Kept.advance (h : Kept t) (written : write data result t = some u)
    (positive : 0 ≤ result) (fits : t.gWriteOffset + result < 2 ^ 31) :
    Kept u ∧ u.gWriteOffset = t.gWriteOffset + result := by
  have grows := (h.grows_iff written).mpr ⟨positive, fits⟩
  obtain ⟨-, rfl⟩ := write_eq_some written
  have nonnegative := h.nonnegative
  have moved : toInt (t.gWriteOffset + result) = t.gWriteOffset + result := by
    rw [toInt]
    omega
  refine ⟨⟨⟨?_, ?_, grows, ?_⟩, ?_, ?_⟩, moved⟩
  · simp only [moved, stored, List.map_append, List.sum_append, List.map_singleton,
      List.sum_singleton, Write.stored]
    have offset := h.offset
    rw [stored] at offset
    omega
  · simp only [moved]
    omega
  · exact history_concat.mpr ⟨h.places, fun _ => h.offset⟩
  · simp only [moved]
    exact fits
  · simp

theorem Kept.of_grows (h : Kept t) (written : write data result t = some u) (grows : Grows u) :
    0 ≤ result ∧ Kept u ∧ u.gWriteOffset = t.gWriteOffset + result := by
  obtain ⟨positive, fits⟩ := (h.grows_iff written).mp grows
  exact ⟨positive, h.advance written positive fits⟩

end Writes

section Steps
variable {t u : Trace} {eventsStr : Text} {hasMoreEvents : Bool} {first second third : Int}

theorem Kept.start (h : Kept t) : Kept { t with started := true } :=
  ⟨⟨h.offset, h.nonnegative, h.grows, h.places⟩, h.bounded, h.last⟩

theorem Kept.flushing (h : Kept t) (isFlushing : Bool) (flushes : Nat) :
    Kept { t with isFlushing := isFlushing, flushes := flushes } :=
  ⟨⟨h.offset, h.nonnegative, h.grows, h.places⟩, h.bounded, h.last⟩

theorem flushCallback_eq_some
    (called : flushCallback eventsStr hasMoreEvents first second third t = some u) :
    ∃ v w, write eventsStr first t = some v ∧
      write (comma ++ [ascii '\n']) second v = some w ∧
      (hasMoreEvents = true ∧ u = w ∨ hasMoreEvents = false ∧ ∃ x,
        write [ascii '\n'] third w = some x ∧
          u = { x with isFlushing := false, flushes := x.flushes - 1 }) := by
  rw [flushCallback, Option.bind_eq_bind, Option.bind_eq_some_iff] at called
  obtain ⟨v, events, called⟩ := called
  obtain ⟨w, separator, called⟩ := Option.bind_eq_some_iff.mp called
  refine ⟨v, w, events, separator, ?_⟩
  cases hasMoreEvents with
  | true => exact .inl ⟨rfl, (Option.some.inj called).symm⟩
  | false =>
    obtain ⟨x, newline, called⟩ := Option.bind_eq_some_iff.mp called
    exact .inr ⟨rfl, x, newline, (Option.some.inj called).symm⟩

theorem Kept.callback (h : Kept t)
    (called : flushCallback eventsStr hasMoreEvents first second third t = some u) :
    (Succeeds t (.flushCallback eventsStr hasMoreEvents first second third) → Kept u) ∧
      (Grows u → Succeeds t (.flushCallback eventsStr hasMoreEvents first second third)) := by
  obtain ⟨v, w, events, separator, rest⟩ := flushCallback_eq_some called
  constructor
  · rintro ⟨firstPositive, secondPositive, thirdPositive, fits⟩
    have thirdFits : 0 ≤ if hasMoreEvents then 0 else third := by
      cases hasMoreEvents with
      | true => exact Int.le_refl 0
      | false => exact thirdPositive rfl
    obtain ⟨v_kept, v_offset⟩ := h.advance events firstPositive (by omega)
    obtain ⟨w_kept, w_offset⟩ := v_kept.advance separator secondPositive (by omega)
    rcases rest with ⟨-, rfl⟩ | ⟨rfl, x, newline, rfl⟩
    · exact w_kept
    · have last : w.gWriteOffset + third < 2 ^ 31 := by
        rw [w_offset, v_offset]
        exact fits
      exact (w_kept.advance newline (thirdPositive rfl) last).1.flushing false _
  · intro grows
    have w_grows : Grows w := by
      rcases rest with ⟨-, rfl⟩ | ⟨-, x, newline, rfl⟩
      · exact grows
      · exact grows_of_write newline grows
    obtain ⟨firstPositive, v_kept, v_offset⟩ :=
      h.of_grows events (grows_of_write separator w_grows)
    obtain ⟨secondPositive, w_kept, w_offset⟩ := v_kept.of_grows separator w_grows
    rcases rest with ⟨rfl, -⟩ | ⟨rfl, x, newline, rfl⟩
    · refine ⟨firstPositive, secondPositive, nofun, ?_⟩
      have fits := w_kept.bounded
      rw [w_offset, v_offset] at fits
      rw [if_pos rfl, Int.add_zero]
      exact fits
    · obtain ⟨thirdPositive, fits⟩ := (w_kept.grows_iff newline).mp grows
      refine ⟨firstPositive, secondPositive, fun _ => thirdPositive, ?_⟩
      rw [w_offset, v_offset] at fits
      exact fits

end Steps

theorem write_started {t u : Trace} {data : Text} {result : Int}
    (written : write data result t = some u) : u.started = t.started := by
  obtain ⟨-, rfl⟩ := write_eq_some written
  rfl

structure Invariant (t : Trace) : Prop extends Kept t where
  flushes : t.flushes = if t.isFlushing then 1 else 0
  fresh : t.started = false → t.gWriteOffset = 0 ∧ t.flushes = 0

theorem Invariant.sound {t : Trace} (h : Invariant t) : Sound t :=
  ⟨h.toAppends, h.flushes, fun flushing => if_pos flushing⟩

theorem Invariant.init : Invariant {} :=
  ⟨⟨⟨rfl, Int.le_refl 0, List.pairwise_singleton _ _, history_nil _⟩, by decide, rfl⟩, rfl,
    fun _ => ⟨rfl, rfl⟩⟩

theorem Invariant.demoMain {t u : Trace} {result : Int} (h : Invariant t) (positive : 0 ≤ result)
    (fresh : t.started = false) (called : demoMain result t = some u) : Invariant u := by
  obtain ⟨empty, -⟩ := h.fresh fresh
  obtain ⟨returns, -⟩ := write_eq_some called
  have fits : t.gWriteOffset + result < 2 ^ 31 := by
    rcases returns with rfl | ⟨-, -, le⟩
    · omega
    · have one : toInt [ascii '['].length = 1 := rfl
      omega
  refine ⟨(h.start.advance called positive fits).1, ?_, ?_⟩
  · obtain ⟨same, count⟩ := write_flushing called
    rw [same, count, h.flushes]
  · intro stopped
    rw [write_started called] at stopped
    cases stopped

theorem Invariant.flushTrace {t : Trace} (h : Invariant t) (started : t.started = true) :
    Invariant (flushTrace t) := by
  rw [AndroidTrace.flushTrace]
  split
  · exact h
  · next idle =>
    have flushes := h.flushes
    rw [if_neg idle] at flushes
    refine ⟨h.flushing true _, ?_, ?_⟩
    · rw [flushes]
      rfl
    · intro stopped
      rw [started] at stopped
      cases stopped

theorem Invariant.flushCallback {t u : Trace} {eventsStr : Text} {hasMoreEvents : Bool}
    {first second third : Int} (h : Invariant t) (pending : 0 < t.flushes)
    (succeeds : Succeeds t (.flushCallback eventsStr hasMoreEvents first second third))
    (called : flushCallback eventsStr hasMoreEvents first second third t = some u) :
    Invariant u := by
  have flushes := h.flushes
  have started : t.started ≠ false := fun stopped => by
    have idle := (h.fresh stopped).2
    omega
  obtain ⟨v, w, events, separator, rest⟩ := flushCallback_eq_some called
  obtain ⟨v_same, v_count⟩ := write_flushing events
  obtain ⟨w_same, w_count⟩ := write_flushing separator
  have w_started := (write_started separator).trans (write_started events)
  refine ⟨(h.callback called).1 succeeds, ?_, ?_⟩
  · rcases rest with ⟨-, rfl⟩ | ⟨-, x, newline, rfl⟩
    · rw [w_same, w_count, v_same, v_count, flushes]
    · obtain ⟨-, x_count⟩ := write_flushing newline
      rw [x_count, w_count, v_count, flushes]
      split <;> rfl
  · intro stopped
    refine absurd ?_ started
    rcases rest with ⟨-, rfl⟩ | ⟨-, x, newline, rfl⟩
    · exact w_started.symm.trans stopped
    · exact w_started.symm.trans ((write_started newline).symm.trans stopped)

theorem Invariant.keeps (t : Trace) (action : Action) (u : Trace) (h : Invariant t)
    (succeeds : Succeeds t action) (moved : machine.step t action = some u) : Invariant u := by
  cases action with
  | demoMain result =>
    obtain ⟨fresh, called⟩ := Option.ite_none_left_eq_some.mp moved
    exact h.demoMain succeeds (Bool.not_eq_true _ ▸ fresh) called
  | flushTrace =>
    obtain ⟨started, called⟩ := Option.ite_none_right_eq_some.mp moved
    obtain rfl := Option.some.inj called
    exact h.flushTrace started
  | flushCallback eventsStr hasMoreEvents first second third =>
    obtain ⟨pending, called⟩ := Option.ite_none_right_eq_some.mp moved
    exact h.flushCallback pending succeeds called

theorem Invariant.succeeds {t u : Trace} {action : Action} (h : Invariant t)
    (grows : Grows u) (moved : machine.step t action = some u) : Succeeds t action := by
  cases action with
  | demoMain result =>
    obtain ⟨-, called⟩ := Option.ite_none_left_eq_some.mp moved
    exact (h.start.of_grows called grows).1
  | flushTrace => trivial
  | flushCallback eventsStr hasMoreEvents first second third =>
    obtain ⟨-, called⟩ := Option.ite_none_right_eq_some.mp moved
    exact (h.callback called).2 grows

/-- The offset is right through a run exactly if no write of it fails. -/
theorem sound_iff (actions : List Action) :
    (∀ t ∈ machine.visited {} actions, Sound t) ↔
      ∀ p ∈ machine.taken {} actions, Succeeds p.1 p.2 :=
  machine.visited_iff_taken (fun _ h => h.sound) Invariant.keeps
    (fun _ _ _ h failed moved sound => failed (h.succeeds sound.grows moved)) Invariant.init actions

theorem failed_write_moves_back :
    ¬ ∀ actions : List Action, ∀ t ∈ machine.visited {} actions, Sound t := by
  intro all
  have sound := all [.demoMain 1, .flushTrace, .flushCallback [] true (-1) 2 0]
    _ (machine.exec_mem_visited _ _)
  have grows := sound.grows
  rw [Grows] at grows
  revert grows
  decide

end ChromiumDemo.AndroidTrace
