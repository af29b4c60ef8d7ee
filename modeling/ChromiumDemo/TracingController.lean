import ChromiumDemo.TransitionSystem

/-! `TracingController` of demo_tracing_perfetto: three mojo endpoints, which are bound
when tracing starts and never reset, and the one callback that it stores. Each call
brings a callback of its own, which stands here for its number. -/

namespace ChromiumDemo.TracingController
open TransitionSystem

inductive Endpoint
  | consumerHost
  | tracingSessionHost
  | receiver
deriving DecidableEq

/-- `returned` are the callbacks of calls that returned true; those in `handed` belong to
the tracing service, and those in `destroyed` went without having been run. -/
structure Controller where
  bound : List Endpoint := []
  startCallback : Option Nat := none
  calls : Nat := 0
  returned : List Nat := []
  run : List Nat := []
  handed : List Nat := []
  destroyed : List Nat := []
  boundTwice : Bool := false
  usedUnbound : Bool := false
  crashed : Bool := false

def bindNewPipe (checks : Bool) (endpoint : Endpoint) (w : Controller) : Controller :=
  if w.crashed then w
  else if endpoint ∈ w.bound then { w with boundTwice := true, crashed := checks }
  else { w with bound := endpoint :: w.bound }

def use (endpoint : Endpoint) (w : Controller) : Controller :=
  if w.crashed then w
  else if endpoint ∈ w.bound then w
  else { w with usedUnbound := true, crashed := true }

def setStartCallback (callback : Nat) (w : Controller) : Controller :=
  { w with
    startCallback := some callback
    destroyed := w.destroyed ++ w.startCallback.toList }

def returnTrue (callback : Nat) (w : Controller) : Controller :=
  if w.crashed then w else { w with returned := w.returned ++ [callback] }

def startTracing (checks : Bool) (w : Controller) : Controller :=
  let startCallback := w.calls
  let w := setStartCallback startCallback { w with calls := w.calls + 1 }
  let w := bindNewPipe checks .consumerHost w
  let w := use .consumerHost w
  let w := bindNewPipe checks .tracingSessionHost w
  let w := bindNewPipe checks .receiver w
  returnTrue startCallback w

def stopTracing (created : Bool) (w : Controller) : Controller :=
  let stopCallback := w.calls
  let w := { w with calls := w.calls + 1 }
  if created = false then
    returnTrue stopCallback { w with destroyed := w.destroyed ++ [stopCallback] }
  else
    let w := use .tracingSessionHost w
    let w := if w.crashed then w else { w with handed := w.handed ++ [stopCallback] }
    returnTrue stopCallback w

def onTracingEnabled (w : Controller) : Controller :=
  { w with startCallback := none, run := w.run ++ w.startCallback.toList }

inductive Action
  | startTracing
  | stopTracing (created : Bool)
  | onTracingEnabled

def step (checks : Bool) (w : Controller) : Action → Option Controller
  | .startTracing => some (startTracing checks w)
  | .stopTracing created => some (stopTracing created w)
  | .onTracingEnabled => some (onTracingEnabled w)

def machine (checks : Bool) : Machine Controller Action := .haltOn Controller.crashed (step checks)

/-- The callback of a call that returned true has been run or handed on once, or it is
the one that is stored. -/
structure Kept (w : Controller) : Prop where
  boundTwice : w.boundTwice = false
  usedUnbound : w.usedUnbound = false
  destroyed : w.destroyed = []
  distinct : w.returned.Nodup
  once : w.returned.Perm (w.run ++ w.handed ++ w.startCallback.toList)

/-- One start, and stops after it whose data pipe is created. -/
def session : Monitor Bool Action where
  allows started
    | .startTracing => started = false
    | .stopTracing created => started = true ∧ created = true
    | .onTracingEnabled => True
  next started
    | .startTracing => true
    | _ => started

structure Follows (w : Controller) (started : Bool) : Prop extends Kept w where
  bound : ∀ endpoint, endpoint ∈ w.bound ↔ started = true
  unstarted : started = false → w.startCallback = none
  alive : w.crashed = false
  fresh : ∀ callback ∈ w.returned, callback < w.calls

section Calls
variable {checks created : Bool} {w : Controller}

theorem startTracing_of_unbound (alive : w.crashed = false) (unbound : w.bound = []) :
    startTracing checks w = { w with
      bound := [.receiver, .tracingSessionHost, .consumerHost]
      startCallback := some w.calls
      calls := w.calls + 1
      returned := w.returned ++ [w.calls]
      destroyed := w.destroyed ++ w.startCallback.toList } := by
  simp [startTracing, setStartCallback, bindNewPipe, use, returnTrue, alive, unbound]

theorem stopTracing_of_bound (alive : w.crashed = false)
    (bound : .tracingSessionHost ∈ w.bound) :
    stopTracing true w = { w with
      calls := w.calls + 1
      returned := w.returned ++ [w.calls]
      handed := w.handed ++ [w.calls] } := by
  simp [stopTracing, use, returnTrue, alive, bound]

theorem bindNewPipe_boundTwice {endpoint : Endpoint} (twice : w.boundTwice = true) :
    (bindNewPipe checks endpoint w).boundTwice = true := by
  rw [bindNewPipe]
  split
  · exact twice
  · split
    · rfl
    · exact twice

theorem use_boundTwice {endpoint : Endpoint} : (use endpoint w).boundTwice = w.boundTwice := by
  rw [use]
  split
  · rfl
  · split <;> rfl

theorem returnTrue_boundTwice {callback : Nat} :
    (returnTrue callback w).boundTwice = w.boundTwice := by
  rw [returnTrue]
  split <;> rfl

theorem startTracing_of_bound (alive : w.crashed = false) (bound : .consumerHost ∈ w.bound) :
    (startTracing checks w).boundTwice = true := by
  rw [startTracing, returnTrue_boundTwice]
  refine bindNewPipe_boundTwice (bindNewPipe_boundTwice ?_)
  rw [use_boundTwice, bindNewPipe, setStartCallback]
  simp [alive, bound]

theorem stopTracing_of_failed : (stopTracing false w).destroyed = w.destroyed ++ [w.calls] := by
  rw [stopTracing, if_pos rfl, returnTrue]
  split <;> rfl

theorem stopTracing_of_unbound (alive : w.crashed = false)
    (unbound : .tracingSessionHost ∉ w.bound) : (stopTracing true w).usedUnbound = true := by
  simp [stopTracing, use, returnTrue, alive, unbound]

end Calls

section Steps
variable {checks started : Bool} {w : Controller}

theorem next_of_alive (alive : w.crashed = false) (a : Action) :
    (machine checks).next w a = (step checks w a).getD w :=
  Machine.haltOn_next alive (step checks) a

theorem Follows.start (h : Follows w false) : Follows (startTracing checks w) true := by
  have unbound : w.bound = [] :=
    List.eq_nil_iff_forall_not_mem.mpr fun endpoint member =>
      Bool.noConfusion ((h.bound endpoint).mp member)
  have unstored := h.unstarted rfl
  have distinct := nodup_concat h.distinct h.fresh
  rw [startTracing_of_unbound h.alive unbound]
  refine ⟨⟨h.boundTwice, h.usedUnbound, ?_, distinct, ?_⟩, ?_, fun _ => by contradiction,
    h.alive, lt_of_mem_concat h.fresh⟩
  · change w.destroyed ++ w.startCallback.toList = []
    rw [unstored, h.destroyed]
    rfl
  · have once := h.once
    rw [unstored, Option.toList_none, List.append_nil] at once
    exact once.append_right [w.calls]
  · intro endpoint
    refine iff_of_true ?_ rfl
    cases endpoint <;> simp

theorem Follows.stop (h : Follows w true) : Follows (stopTracing true w) true := by
  have distinct := nodup_concat h.distinct h.fresh
  rw [stopTracing_of_bound h.alive ((h.bound .tracingSessionHost).mpr rfl)]
  refine ⟨⟨h.boundTwice, h.usedUnbound, h.destroyed, distinct, ?_⟩, h.bound, h.unstarted,
    h.alive, lt_of_mem_concat h.fresh⟩
  refine (h.once.append_right [w.calls]).trans ?_
  change List.Perm _ (w.run ++ (w.handed ++ [w.calls]) ++ w.startCallback.toList)
  simp only [List.append_assoc]
  exact (List.perm_append_comm.append_left _).append_left _

theorem Follows.enabled (h : Follows w started) : Follows (onTracingEnabled w) started := by
  refine ⟨⟨h.boundTwice, h.usedUnbound, h.destroyed, h.distinct, ?_⟩, h.bound, fun _ => rfl,
    h.alive, h.fresh⟩
  refine h.once.trans ?_
  change List.Perm _ (w.run ++ w.startCallback.toList ++ w.handed ++ [])
  rw [List.append_nil, List.append_assoc, List.append_assoc]
  exact List.perm_append_comm.append_left _

theorem Follows.next (h : Follows w started) {a : Action} (allowed : session.allows started a) :
    Follows ((machine checks).next w a) (session.next started a) := by
  rw [next_of_alive h.alive]
  cases a with
  | startTracing =>
    obtain rfl : started = false := allowed
    exact h.start
  | stopTracing created =>
    obtain ⟨rfl, rfl⟩ := allowed
    exact h.stop
  | onTracingEnabled => exact h.enabled

theorem Follows.refused (h : Follows w started) {a : Action}
    (refused : ¬ session.allows started a) : ¬ Kept ((machine checks).next w a) := by
  rw [next_of_alive h.alive]
  intro kept
  cases a with
  | startTracing =>
    have running : started = true := Bool.of_not_eq_false refused
    have twice : (startTracing checks w).boundTwice = true :=
      startTracing_of_bound h.alive ((h.bound .consumerHost).mpr running)
    exact Bool.noConfusion (twice.symm.trans kept.boundTwice)
  | stopTracing created =>
    cases created with
    | false =>
      have destroyed := kept.destroyed
      change (stopTracing false w).destroyed = [] at destroyed
      rw [stopTracing_of_failed] at destroyed
      exact List.append_ne_nil_of_right_ne_nil _ (List.cons_ne_nil _ _) destroyed
    | true =>
      have unbound : .tracingSessionHost ∉ w.bound := fun member =>
        refused ⟨(h.bound .tracingSessionHost).mp member, rfl⟩
      have used := stopTracing_of_unbound h.alive unbound
      exact Bool.noConfusion (used.symm.trans kept.usedUnbound)
  | onTracingEnabled => exact refused trivial

end Steps

theorem follows_init : Follows {} false :=
  ⟨⟨rfl, rfl, rfl, List.nodup_nil, .nil⟩, by simp, fun _ => rfl, rfl, by simp⟩

/-- The endpoints and the callbacks are kept throughout a run exactly if tracing starts
once and each stop comes after that and gets its data pipe. -/
theorem tracing_kept_iff (checks : Bool) (as : List Action) :
    ((∀ w ∈ (machine checks).visited {} as, Kept w) ↔ session.Accepts false as) ∧
      ∀ w : Controller, (onTracingEnabled w).startCallback = none ∧
        (onTracingEnabled w).run = w.run ++ w.startCallback.toList := by
  refine ⟨?_, fun w => ⟨rfl, rfl⟩⟩
  exact Machine.visited_iff_accepts (fun w started h => h.toKept)
    (fun w started a h allowed => h.next allowed)
    (fun w started a h refused => h.refused refused) follows_init as

theorem tracing_not_kept : ¬ ∀ (checks : Bool) (as : List Action),
    ∀ w ∈ (machine checks).visited {} as, Kept w := by
  intro all
  have kept := all true [.startTracing, .onTracingEnabled, .stopTracing false] _
    (Machine.exec_mem_visited _ _ _)
  have destroyed : ((machine true).exec {}
      [.startTracing, .onTracingEnabled, .stopTracing false]).destroyed = [1] := by decide
  exact List.cons_ne_nil _ _ (destroyed.symm.trans kept.destroyed)

end ChromiumDemo.TracingController
