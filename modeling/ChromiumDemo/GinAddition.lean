import ChromiumDemo.TransitionSystem
import Mathlib.Data.List.Forall2
import Mathlib.Algebra.Ring.Int.Defs

/-! The two additions of demo_gin. `demo.add` returns the sum of its arguments, and
`asyncDemo.add` a promise that a posted task resolves. `V` are the values of the
script, `C` the contexts of V8, and `getNext` is `gin::Arguments::GetNext` for an `int`:
it fails, or gives the number and the arguments that are left. -/

namespace ChromiumDemo.GinAddition
open TransitionSystem

variable {V C : Type*} (getNext : List V → Option (Int32 × List V))

def InRange (a b : Int32) : Prop :=
  Int32.minValue.toInt ≤ a.toInt + b.toInt ∧ a.toInt + b.toInt ≤ Int32.maxValue.toInt

instance (a b : Int32) : Decidable (InRange a b) := inferInstanceAs (Decidable (_ ∧ _))

def plus (a b : Int32) : Int32 × Bool := (a + b, !decide (InRange a b))

def arguments (args : List V) : Option (Int32 × Int32) :=
  match getNext args with
  | none => none
  | some (a, rest) => (getNext rest).map fun next => (a, next.1)

/-- `demo.add`, which throws (`none`) or returns a value. -/
def Demo.add (args : List V) : Option (Int32 × Bool) :=
  (arguments getNext args).map fun (a, b) => plus a b

structure Promise (V C : Type*) where
  resolver : Nat
  context : C
  args : List V

structure Task (C : Type*) where
  resolver : Nat
  originalContext : C
  a : Int32
  b : Int32

structure Resolution (C : Type*) where
  resolver : Nat
  context : C
  value : Int32

/-- `resolvers` counts the resolvers made, `promises` are those the script got, and
`abandoned` the resolvers of calls that threw. -/
structure World (V C : Type*) where
  resolvers : Nat := 0
  tasks : List (Task C) := []
  promises : List (Promise V C) := []
  abandoned : List Nat := []
  resolved : List (Resolution C) := []
  returned : List (List V × Int32) := []
  overflowed : Bool := false

def World.demoAdd (args : List V) (w : World V C) : World V C :=
  match Demo.add getNext args with
  | none => w
  | some (value, overflows) =>
    { w with returned := w.returned ++ [(args, value)], overflowed := w.overflowed || overflows }

/-- `Add` of async_demo.cc makes the resolver before it reads the arguments. -/
def World.add (context : C) (args : List V) (w : World V C) : World V C :=
  let resolver := w.resolvers
  let w := { w with resolvers := w.resolvers + 1 }
  match arguments getNext args with
  | none => { w with abandoned := w.abandoned ++ [resolver] }
  | some (a, b) =>
    { w with
      promises := w.promises ++ [⟨resolver, context, args⟩]
      tasks := w.tasks ++ [⟨resolver, context, a, b⟩] }

def asyncAdd (task : Task C) (w : World V C) : World V C :=
  let (result, overflows) := plus task.a task.b
  { w with
    resolved := w.resolved ++ [⟨task.resolver, task.originalContext, result⟩]
    overflowed := w.overflowed || overflows }

inductive Action (V C : Type*)
  | demoAdd (args : List V)
  | asyncDemoAdd (context : C) (args : List V)
  | runTask

def step (w : World V C) : Action V C → Option (World V C)
  | .demoAdd args => some (w.demoAdd getNext args)
  | .asyncDemoAdd context args => some (w.add getNext context args)
  | .runTask => match w.tasks with
    | [] => none
    | task :: tasks => some (asyncAdd task { w with tasks })

def machine : Machine (World V C) (Action V C) := ⟨step getNext⟩

def Exact (args : List V) (value : Int32) : Prop :=
  ∃ a b, arguments getNext args = some (a, b) ∧ value.toInt = a.toInt + b.toInt

structure Resolves (p : Promise V C) (r : Resolution C) : Prop where
  resolver : r.resolver = p.resolver
  context : r.context = p.context
  exact : Exact getNext p.args r.value
  same : Demo.add getNext p.args = some (r.value, false)

structure Awaits (p : Promise V C) (task : Task C) : Prop where
  resolver : task.resolver = p.resolver
  context : task.originalContext = p.context
  arguments : arguments getNext p.args = some (task.a, task.b)

/-- The promises are resolved in the order of the calls, those with a task are still
to come, and a call that threw has no task. -/
structure Agrees (w : World V C) : Prop where
  distinct : (w.promises.map Promise.resolver ++ w.abandoned).Nodup
  order : ∃ resolved pending, w.promises = resolved ++ pending ∧
    List.Forall₂ (Resolves getNext) resolved w.resolved ∧
      List.Forall₂ (Awaits getNext) pending w.tasks
  returned : ∀ call ∈ w.returned, Exact getNext call.1 call.2
  taskless : ∀ resolver ∈ w.abandoned, resolver ∉ w.tasks.map Task.resolver
  fits : w.overflowed = false

def Fits (w : World V C) : Action V C → Prop
  | .demoAdd args => ∀ a b, arguments getNext args = some (a, b) → InRange a b
  | .asyncDemoAdd _ _ => True
  | .runTask => ∀ task ∈ w.tasks.head?, InRange task.a task.b

structure Sound (w : World V C) : Prop extends Agrees getNext w where
  fresh : ∀ resolver ∈ w.promises.map Promise.resolver ++ w.abandoned, resolver < w.resolvers

section Sums
variable {getNext} {a b : Int32} {args : List V}

theorem plus_toInt (fits : InRange a b) : (plus a b).1.toInt = a.toInt + b.toInt := by
  rw [plus, Int32.toInt_add]
  exact Int.bmod_eq_of_le fits.1 (Int.lt_add_one_of_le fits.2)

theorem plus_overflows : (plus a b).2 = false ↔ InRange a b := by
  rw [plus, Bool.not_eq_false', decide_eq_true_iff]

theorem plus_of_fits (fits : InRange a b) : plus a b = ((plus a b).1, false) :=
  Prod.ext rfl (plus_overflows.mpr fits)

theorem demo_add_of_arguments (converted : arguments getNext args = some (a, b)) :
    Demo.add getNext args = some (plus a b) := by
  rw [Demo.add, converted]
  rfl

theorem exact_of_fits (converted : arguments getNext args = some (a, b)) (fits : InRange a b) :
    Exact getNext args (plus a b).1 :=
  ⟨a, b, converted, plus_toInt fits⟩

end Sums

section Steps
variable {getNext} {w t : World V C} {args : List V} {context : C} {a b : Int32}

theorem demoAdd_cases (w : World V C) (args : List V) :
    arguments getNext args = none ∧ w.demoAdd getNext args = w ∨
      ∃ a b, arguments getNext args = some (a, b) ∧ w.demoAdd getNext args = { w with
        returned := w.returned ++ [(args, (plus a b).1)]
        overflowed := w.overflowed || (plus a b).2 } := by
  cases converted : arguments getNext args with
  | none =>
    left
    refine ⟨rfl, ?_⟩
    rw [World.demoAdd, Demo.add, converted]
    rfl
  | some pair =>
    right
    refine ⟨pair.1, pair.2, rfl, ?_⟩
    rw [World.demoAdd, demo_add_of_arguments converted]

theorem add_cases (w : World V C) (context : C) (args : List V) :
    arguments getNext args = none ∧ w.add getNext context args = { w with
        resolvers := w.resolvers + 1
        abandoned := w.abandoned ++ [w.resolvers] } ∨
      ∃ a b, arguments getNext args = some (a, b) ∧ w.add getNext context args = { w with
        resolvers := w.resolvers + 1
        promises := w.promises ++ [⟨w.resolvers, context, args⟩]
        tasks := w.tasks ++ [⟨w.resolvers, context, a, b⟩] } := by
  cases converted : arguments getNext args with
  | none =>
    left
    refine ⟨rfl, ?_⟩
    rw [World.add, converted]
  | some pair =>
    right
    refine ⟨pair.1, pair.2, rfl, ?_⟩
    rw [World.add, converted]

theorem runTask_eq_some (moved : step getNext w .runTask = some t) :
    ∃ task tasks, w.tasks = task :: tasks ∧ t = { w with
      tasks := tasks
      resolved := w.resolved ++ [⟨task.resolver, task.originalContext, (plus task.a task.b).1⟩]
      overflowed := w.overflowed || (plus task.a task.b).2 } := by
  rw [step] at moved
  split at moved
  · cases moved
  · rename_i task tasks same
    exact ⟨task, tasks, same, (Option.some.inj moved).symm⟩

theorem resolvers_of_tasks {pending : List (Promise V C)} {tasks : List (Task C)}
    (awaits : List.Forall₂ (Awaits getNext) pending tasks) :
    tasks.map Task.resolver = pending.map Promise.resolver := by
  induction awaits with
  | nil => rfl
  | cons first _ ih => rw [List.map_cons, List.map_cons, first.resolver, ih]

theorem Agrees.promised (h : Agrees getNext w) {resolver : Nat}
    (member : resolver ∈ w.tasks.map Task.resolver) :
    resolver ∈ w.promises.map Promise.resolver := by
  obtain ⟨resolved, pending, split, -, awaits⟩ := h.order
  rw [split, List.map_append, List.mem_append]
  rw [resolvers_of_tasks awaits] at member
  exact .inr member

theorem Sound.demoAdd (h : Sound getNext w) (fits : Fits getNext w (.demoAdd args)) :
    Sound getNext (w.demoAdd getNext args) := by
  rcases demoAdd_cases w args with ⟨-, same⟩ | ⟨a, b, converted, same⟩
  · rw [same]
    exact h
  · rw [same]
    have inRange := fits a b converted
    refine ⟨⟨h.distinct, h.order, ?_, h.taskless, ?_⟩, h.fresh⟩
    · intro call member
      rcases List.mem_append.mp member with old | new
      · exact h.returned call old
      · obtain rfl := List.mem_singleton.mp new
        exact exact_of_fits converted inRange
    · exact Bool.or_eq_false_iff.mpr ⟨h.fits, plus_overflows.mpr inRange⟩

theorem Sound.unused (h : Sound getNext w) :
    w.resolvers ∉ w.promises.map Promise.resolver ++ w.abandoned :=
  fun member => Nat.lt_irrefl _ (h.fresh _ member)

theorem Sound.abandon (h : Sound getNext w) : Sound getNext { w with
    resolvers := w.resolvers + 1
    abandoned := w.abandoned ++ [w.resolvers] } := by
  have longer := nodup_concat h.distinct h.fresh
  have fresh := lt_of_mem_concat h.fresh
  rw [List.append_assoc] at longer fresh
  refine ⟨⟨longer, h.order, h.returned, ?_, h.fits⟩, fresh⟩
  intro resolver member task
  rcases List.mem_append.mp member with old | new
  · exact h.taskless resolver old task
  · rw [List.mem_singleton.mp new] at task
    exact h.unused (List.mem_append_left _ (h.promised task))

theorem Sound.promise (h : Sound getNext w) (converted : arguments getNext args = some (a, b)) :
    Sound getNext { w with
      resolvers := w.resolvers + 1
      promises := w.promises ++ [⟨w.resolvers, context, args⟩]
      tasks := w.tasks ++ [⟨w.resolvers, context, a, b⟩] } := by
  have moved : (w.promises.map Promise.resolver ++ [w.resolvers] ++ w.abandoned).Perm
      (w.promises.map Promise.resolver ++ w.abandoned ++ [w.resolvers]) := by
    rw [List.append_assoc, List.append_assoc]
    exact List.perm_append_comm.append_left _
  refine ⟨⟨?_, ?_, h.returned, ?_, h.fits⟩, ?_⟩
  · rw [List.map_append]
    exact moved.nodup_iff.mpr (nodup_concat h.distinct h.fresh)
  · obtain ⟨resolved, pending, split, resolves, awaits⟩ := h.order
    refine ⟨resolved, pending ++ [⟨w.resolvers, context, args⟩], ?_, resolves, ?_⟩
    · rw [split, List.append_assoc]
    · exact List.rel_append awaits (.cons ⟨rfl, rfl, converted⟩ .nil)
  · intro resolver member task
    rw [List.map_append] at task
    rcases List.mem_append.mp task with old | new
    · exact h.taskless resolver member old
    · rw [List.mem_singleton.mp new] at member
      exact h.unused (List.mem_append_right _ member)
  · intro resolver member
    rw [List.map_append] at member
    exact lt_of_mem_concat h.fresh resolver (moved.mem_iff.mp member)

theorem Sound.add (h : Sound getNext w) (context : C) (args : List V) :
    Sound getNext (w.add getNext context args) := by
  rcases add_cases w context args with ⟨-, same⟩ | ⟨a, b, converted, same⟩
  · rw [same]
    exact h.abandon
  · rw [same]
    exact h.promise converted

theorem Sound.runTask (h : Sound getNext w) (moved : step getNext w .runTask = some t)
    (fits : Fits getNext w .runTask) : Sound getNext t := by
  obtain ⟨task, tasks, first, rfl⟩ := runTask_eq_some moved
  have inRange : InRange task.a task.b := fits task (by rw [first]; rfl)
  obtain ⟨resolved, pending, split, resolves, awaits⟩ := h.order
  rw [first] at awaits
  obtain ⟨p, rest, own, later, rfl⟩ := List.forall₂_cons_right_iff.mp awaits
  refine ⟨⟨h.distinct, ?_, h.returned, ?_, ?_⟩, h.fresh⟩
  · refine ⟨resolved ++ [p], rest, ?_, ?_, later⟩
    · rw [split, List.append_assoc]
      rfl
    · have value := demo_add_of_arguments own.arguments
      rw [plus_of_fits inRange] at value
      exact List.rel_append resolves
        (.cons ⟨own.resolver, own.context, exact_of_fits own.arguments inRange, value⟩ .nil)
  · intro resolver member pendingTask
    refine h.taskless resolver member ?_
    rw [first, List.map_cons]
    exact List.mem_cons_of_mem _ pendingTask
  · exact Bool.or_eq_false_iff.mpr ⟨h.fits, plus_overflows.mpr inRange⟩

theorem Sound.step {a : Action V C} (h : Sound getNext w) (fits : Fits getNext w a)
    (moved : (machine getNext).step w a = some t) : Sound getNext t := by
  cases a with
  | demoAdd args =>
    obtain rfl := Option.some.inj moved
    exact h.demoAdd fits
  | asyncDemoAdd context args =>
    obtain rfl := Option.some.inj moved
    exact h.add context args
  | runTask => exact h.runTask moved fits

theorem overflowed_of_step {a : Action V C} (unfit : ¬ Fits getNext w a)
    (moved : (machine getNext).step w a = some t) : t.overflowed = true := by
  have overflows : ∀ {a b : Int32}, ¬ InRange a b → (w.overflowed || (plus a b).2) = true := by
    intro a b out
    rw [Bool.of_not_eq_false (mt plus_overflows.mp out), Bool.or_true]
  cases a with
  | demoAdd args =>
    obtain rfl := Option.some.inj moved
    rcases demoAdd_cases w args with ⟨fails, -⟩ | ⟨a, b, converted, same⟩
    · refine absurd (fun a b converted => ?_) unfit
      rw [fails] at converted
      cases converted
    · rw [same]
      refine overflows fun fits => unfit fun a' b' again => ?_
      obtain ⟨rfl, rfl⟩ := Prod.mk.inj (Option.some.inj (converted.symm.trans again))
      exact fits
  | asyncDemoAdd context args => exact absurd trivial unfit
  | runTask =>
    change step getNext w .runTask = some t at moved
    obtain ⟨task, tasks, first, rfl⟩ := runTask_eq_some moved
    refine overflows fun fits => unfit fun head member => ?_
    rw [first, List.head?_cons] at member
    obtain rfl := Option.some.inj member
    exact fits

end Steps

theorem exec_runTask (w : World V C) :
    ((machine getNext).exec w (List.replicate w.tasks.length .runTask)).tasks = [] := by
  obtain ⟨n, same⟩ : ∃ n, n = w.tasks.length := ⟨_, rfl⟩
  rw [← same]
  induction n generalizing w with
  | zero => exact List.eq_nil_of_length_eq_zero same.symm
  | succ n ih =>
    obtain ⟨task, tasks, first⟩ := List.exists_cons_of_length_eq_add_one same.symm
    have moved : (machine getNext).step w .runTask = some (asyncAdd task { w with tasks }) := by
      change step getNext w .runTask = _
      rw [step, first]
    rw [List.replicate_succ, Machine.exec_cons, Machine.next_of_some moved]
    refine ih _ ?_
    rw [first, List.length_cons] at same
    exact Nat.succ.inj same

theorem sound_init : Sound getNext ({} : World V C) :=
  ⟨⟨List.nodup_nil, ⟨[], [], rfl, .nil, .nil⟩, by simp, by simp, rfl⟩, by simp⟩

/-- Both additions give the exact sum throughout a run exactly if no two numbers that
are added in it have a sum out of range. Every promise is resolved once its task ran. -/
theorem additions_agree_iff (as : List (Action V C)) :
    ((∀ w ∈ (machine getNext).visited {} as, Agrees getNext w) ↔
        ∀ p ∈ (machine getNext).taken {} as, Fits getNext p.1 p.2) ∧
      ∀ w : World V C,
        ((machine getNext).exec w (List.replicate w.tasks.length .runTask)).tasks = [] := by
  refine ⟨?_, exec_runTask getNext⟩
  refine Machine.visited_iff_taken (fun w (h : Sound getNext w) => h.toAgrees)
    (fun w a t h fits moved => h.step fits moved) ?_ (sound_init getNext) as
  intro w a t _ unfit moved agrees
  exact Bool.noConfusion ((overflowed_of_step unfit moved).symm.trans agrees.fits)

def getNextInt : List Int32 → Option (Int32 × List Int32)
  | [] => none
  | value :: rest => some (value, rest)

theorem additions_overflow : ¬ ∀ (getNext : List Int32 → Option (Int32 × List Int32))
    (as : List (Action Int32 Unit)), ∀ w ∈ (machine getNext).visited {} as, Agrees getNext w := by
  intro all
  have agrees := all getNextInt [.asyncDemoAdd () [Int32.maxValue, 1], .runTask] _
    (Machine.exec_mem_visited _ _ _)
  have overflowed : ((machine getNextInt).exec ({} : World Int32 Unit)
      [.asyncDemoAdd () [Int32.maxValue, 1], .runTask]).overflowed = true := by decide
  exact Bool.noConfusion (overflowed.symm.trans agrees.fits)

end ChromiumDemo.GinAddition
