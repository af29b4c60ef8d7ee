import ChromiumDemo.TransitionSystem
import Mathlib.Data.List.Basic

/-! Native shells and the end of the main message loop. A destructor runs the quit
closure whenever there still is one, without a look at the other shells, and the
browser context goes as soon as the loop has been left. -/

namespace ChromiumDemo.DemoShellLifetime
open TransitionSystem

/-- `quitClosure` says that `g_quit_main_message_loop` is not null. The history is in
`quits`, the number of shells left at each run of the closure, `emptied`, how often
the last shell went, and `stranded`, the shells alive when the context went. -/
structure World where
  alive : List Nat
  made : Nat
  quitClosure : Bool := true
  browserContext : Bool := true
  quits : List Nat := []
  emptied : Nat := 0
  stranded : List Nat := []
deriving DecidableEq

inductive Action
  | createNewWindow
  | destroy (shell : Nat)
  | postMainMessageLoopRun

def createNewWindow (w : World) : World :=
  { w with alive := w.alive ++ [w.made], made := w.made + 1 }

def World.remove (shell : Nat) (w : World) : World :=
  let left := w.alive.erase shell
  { w with alive := left, emptied := if left = [] then w.emptied + 1 else w.emptied }

def destroy (shell : Nat) (w : World) : World :=
  let gone := w.remove shell
  if gone.quitClosure then
    { gone with quitClosure := false, quits := gone.quits ++ [gone.alive.length] }
  else gone

def postMainMessageLoopRun (w : World) : World :=
  { w with browserContext := false, stranded := w.alive }

/-- The loop is left once the quit closure has run. -/
def step (w : World) : Action → Option World
  | .createNewWindow => if w.browserContext then some (createNewWindow w) else none
  | .destroy shell => if shell ∈ w.alive then some (destroy shell w) else none
  | .postMainMessageLoopRun =>
    if w.browserContext ∧ ¬ w.quitClosure then some (postMainMessageLoopRun w) else none

def machine : Machine World Action := ⟨step⟩

def start (n : Nat) : World := { alive := List.range n, made := n }

structure QuitsLast (w : World) : Prop where
  once : w.quits.length ≤ 1
  last : ∀ left ∈ w.quits, left = 0
  atLast : 0 < w.emptied → w.quits ≠ []
  context : w.stranded = []

/-- The step destroys no shell but the only one while the closure is there, and no
context that a shell uses. -/
def Clean (w : World) : Action → Prop
  | .createNewWindow => True
  | .destroy shell => w.quitClosure → w.alive = [shell]
  | .postMainMessageLoopRun => w.alive = []

structure Waiting (w : World) : Prop where
  quits : w.quits = if w.quitClosure then [] else [0]
  emptied : w.quitClosure → w.emptied = 0
  context : w.stranded = []

theorem start_waiting (n : Nat) : Waiting (start n) := ⟨rfl, fun _ => rfl, rfl⟩

theorem Waiting.quitsLast {w : World} (h : Waiting w) : QuitsLast w := by
  have quits := h.quits
  cases closure : w.quitClosure with
  | true =>
    rw [closure, if_pos rfl] at quits
    have emptied := h.emptied closure
    exact ⟨by simp [quits], by simp [quits], by omega, h.context⟩
  | false =>
    rw [closure, if_neg (by decide)] at quits
    exact ⟨by simp [quits], by simp [quits], by simp [quits], h.context⟩

theorem destroy_of_closure {w : World} (closure : w.quitClosure) (shell : Nat) :
    (destroy shell w).quits = w.quits ++ [(w.alive.erase shell).length] ∧
      (destroy shell w).quitClosure = false ∧ (destroy shell w).stranded = w.stranded := by
  simp [destroy, World.remove, closure]

theorem destroy_of_no_closure {w : World} (closure : w.quitClosure = false) (shell : Nat) :
    destroy shell w = w.remove shell := by
  simp [destroy, World.remove, closure]

theorem waiting_step (w : World) (a : Action) (d : World) (h : Waiting w) (clean : Clean w a)
    (taken : machine.step w a = some d) : Waiting d := by
  cases a with
  | createNewWindow =>
    simp only [machine, step, Option.ite_none_right_eq_some, Option.some.injEq] at taken
    obtain ⟨-, rfl⟩ := taken
    exact ⟨h.quits, h.emptied, h.context⟩
  | destroy shell =>
    simp only [machine, step, Option.ite_none_right_eq_some, Option.some.injEq] at taken
    obtain ⟨-, rfl⟩ := taken
    have quits := h.quits
    cases closure : w.quitClosure with
    | true =>
      obtain ⟨run, unset, stranded⟩ := destroy_of_closure closure shell
      rw [closure, if_pos rfl] at quits
      refine ⟨?_, fun set => ?_, stranded.trans h.context⟩
      · rw [run, unset, quits, clean closure]
        simp
      · rw [unset] at set
        cases set
    | false =>
      rw [destroy_of_no_closure closure]
      refine ⟨h.quits, fun set => ?_, h.context⟩
      exact absurd set (by simp [World.remove, closure])
  | postMainMessageLoopRun =>
    simp only [machine, step, Option.ite_none_right_eq_some, Option.some.injEq] at taken
    obtain ⟨-, rfl⟩ := taken
    exact ⟨h.quits, h.emptied, clean⟩

theorem erase_ne_nil {shells : List Nat} {shell : Nat} (member : shell ∈ shells)
    (others : shells ≠ [shell]) : shells.erase shell ≠ [] := by
  intro empty
  have length := List.length_erase_of_mem member
  rw [empty, List.length_nil] at length
  have pos := List.length_pos_of_mem member
  obtain ⟨only, same⟩ := List.length_eq_one_iff.mp (show shells.length = 1 by omega)
  rw [same, List.mem_singleton] at member
  rw [same, member] at others
  exact others rfl

theorem not_quitsLast_step (w : World) (a : Action) (d : World) (_ : Waiting w)
    (unclean : ¬ Clean w a) (taken : machine.step w a = some d) : ¬ QuitsLast d := by
  cases a with
  | createNewWindow => exact absurd trivial unclean
  | destroy shell =>
    simp only [machine, step, Option.ite_none_right_eq_some, Option.some.injEq] at taken
    obtain ⟨member, rfl⟩ := taken
    obtain ⟨closure, others⟩ := Classical.not_imp.mp unclean
    intro safe
    have none_left := safe.last (w.alive.erase shell).length (by
      rw [(destroy_of_closure closure shell).1]
      simp)
    exact erase_ne_nil member others (List.length_eq_zero_iff.mp none_left)
  | postMainMessageLoopRun =>
    simp only [machine, step, Option.ite_none_right_eq_some, Option.some.injEq] at taken
    obtain ⟨-, rfl⟩ := taken
    exact fun safe => unclean safe.context

/-- The browser quits with its last shell throughout a run exactly if each step of
the run is clean. -/
theorem quitsLast_iff (n : Nat) (as : List Action) :
    (∀ w ∈ machine.visited (start n) as, QuitsLast w) ↔
      ∀ p ∈ machine.taken (start n) as, Clean p.1 p.2 :=
  Machine.visited_iff_taken (fun _ => Waiting.quitsLast) waiting_step not_quitsLast_step
    (start_waiting n) as

theorem first_close_quits :
    ¬ ∀ w ∈ machine.visited (start 1)
      [.createNewWindow, .destroy 0, .postMainMessageLoopRun], QuitsLast w := by
  intro safe
  have last := safe { alive := [1], made := 2, quitClosure := false, quits := [1] } (by decide)
  exact absurd (last.last 1 (by decide)) (by decide)

end ChromiumDemo.DemoShellLifetime
