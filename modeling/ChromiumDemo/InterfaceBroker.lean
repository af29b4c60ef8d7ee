import ChromiumDemo.AssocMap
import ChromiumDemo.TransitionSystem
import Mathlib.Data.List.Induction

/-! The registry of `InterfaceBrokerImpl` in demo_mojo_multiple_process_binding.
`binders_` maps a name to a callback, which may be null; a binder is identified
with the implementation class that it instantiates. `GetInterface` looks the name
up with `operator[]` and runs the callback as an rvalue, so a registration is used
up by its first request and an unknown name is a null callback. -/

namespace ChromiumDemo.InterfaceBroker
open TransitionSystem AssocMap

variable {ι π : Type*}

/-- `some none` is an entry whose callback is null. -/
abbrev BinderMap (ι : Type*) := Map String (Option ι)

def BinderMap.emplace (binders : BinderMap ι) (name : String) (impl : ι) : BinderMap ι :=
  (AssocMap.emplace binders name (some impl)).1

/-- `operator[]` inserts a null callback for a missing key. -/
def BinderMap.subscript (binders : BinderMap ι) (name : String) : BinderMap ι :=
  (AssocMap.emplace binders name none).1

structure InterfaceBrokerImpl (ι π : Type*) where
  binders : BinderMap ι := fun _ => none
  bound : List (π × ι) := []
  crashed : Bool := false

def addMap (name : String) (impl : ι) (b : InterfaceBrokerImpl ι π) : InterfaceBrokerImpl ι π :=
  { b with binders := b.binders.emplace name impl }

def getInterface (name : String) (pipe : π) (b : InterfaceBrokerImpl ι π) :
    InterfaceBrokerImpl ι π :=
  let binders := b.binders.subscript name
  match binders name with
  | some (some impl) => { b with
      binders := Function.update binders name (some none)
      bound := b.bound ++ [(pipe, impl)] }
  | _ => { b with binders := binders, crashed := true }

theorem subscript_self (binders : BinderMap ι) (name : String) :
    binders.subscript name name = some ((binders name).getD none) := by
  rw [BinderMap.subscript, emplace_apply, if_pos rfl]

theorem subscript_update (binders : BinderMap ι) (name : String) (callback : Option ι) :
    Function.update (binders.subscript name) name (some callback) =
      Function.update binders name (some callback) := by
  funext other
  rw [Function.update_apply, Function.update_apply, BinderMap.subscript, emplace_apply]
  split <;> rfl

theorem subscript_of_null {binders : BinderMap ι} {name : String}
    (null : (binders name).getD none = none) :
    binders.subscript name = Function.update binders name (some none) := by
  funext other
  rw [Function.update_apply, BinderMap.subscript, emplace_apply, null]

theorem getInterface_binders (name : String) (pipe : π) (b : InterfaceBrokerImpl ι π) :
    (getInterface name pipe b).binders = Function.update b.binders name (some none) := by
  simp only [getInterface, subscript_self]
  cases callback : (b.binders name).getD none with
  | none => exact subscript_of_null callback
  | some impl => exact subscript_update b.binders name none

theorem getInterface_of_runnable {name : String} {b : InterfaceBrokerImpl ι π} {impl : ι}
    (h : b.binders name = some (some impl)) (pipe : π) :
    (getInterface name pipe b).bound = b.bound ++ [(pipe, impl)] ∧
      (getInterface name pipe b).crashed = b.crashed := by
  simp only [getInterface, subscript_self, h, Option.getD_some, true_and]

theorem getInterface_of_null {name : String} {b : InterfaceBrokerImpl ι π}
    (h : ∀ impl, b.binders name ≠ some (some impl)) (pipe : π) :
    (getInterface name pipe b).bound = b.bound ∧
      (getInterface name pipe b).crashed = true := by
  have null : (b.binders name).getD none = none := by
    cases entry : b.binders name with
    | none => rfl
    | some callback =>
      cases callback with
      | none => rfl
      | some impl => exact absurd entry (h impl)
  simp only [getInterface, subscript_self, null, true_and]

inductive Message (ι π : Type*)
  | addMap (name : String) (impl : ι)
  | getInterface (name : String) (pipe : π)
deriving DecidableEq

def machine : Machine (InterfaceBrokerImpl ι π) (Message ι π) :=
  .haltOn InterfaceBrokerImpl.crashed fun b => fun
    | .addMap name impl => some (addMap name impl b)
    | .getInterface name pipe => some (getInterface name pipe b)

def run (ms : List (Message ι π)) : InterfaceBrokerImpl ι π := machine.exec {} ms

def registered (ms : List (Message ι π)) (name : String) : Option ι :=
  ms.findSome? fun
    | .addMap other impl => if other = name then some impl else none
    | .getInterface _ _ => none

def requested (ms : List (Message ι π)) (name : String) : Bool :=
  ms.any fun
    | .addMap _ _ => false
    | .getInterface other _ => other = name

/-- Every request is the first one for a name that was registered before it. -/
def FirstRequests (ms : List (Message ι π)) : Prop :=
  ∀ pre name pipe, pre ++ [.getInterface name pipe] <+: ms →
    (registered pre name).isSome ∧ requested pre name = false

theorem firstRequests_addMap (ms : List (Message ι π)) (name : String) (impl : ι) :
    FirstRequests (ms ++ [.addMap name impl]) ↔ FirstRequests ms := by
  simp [FirstRequests, List.prefix_concat_iff]

theorem firstRequests_getInterface (ms : List (Message ι π)) (name : String) (pipe : π) :
    FirstRequests (ms ++ [.getInterface name pipe]) ↔
      ((registered ms name).isSome ∧ requested ms name = false) ∧ FirstRequests ms := by
  simp only [FirstRequests, List.prefix_concat_iff]
  constructor
  · intro h
    exact ⟨h ms name pipe (.inl rfl), fun pre other q hp => h pre other q (.inr hp)⟩
  · rintro ⟨last, before⟩ pre other q (same | hp)
    · have parts := List.append_inj' same rfl
      simp only [List.cons.injEq, Message.getInterface.injEq, and_true] at parts
      rw [parts.1, parts.2.1]
      exact last
    · exact before pre other q hp

theorem registered_addMap (ms : List (Message ι π)) (name other : String) (impl : ι) :
    registered (ms ++ [.addMap name impl]) other =
      (registered ms other).or (if name = other then some impl else none) := by
  simp [registered, List.findSome?_append]

theorem registered_getInterface (ms : List (Message ι π)) (name other : String) (pipe : π) :
    registered (ms ++ [.getInterface name pipe]) other = registered ms other := by
  simp [registered, List.findSome?_append]

theorem requested_addMap (ms : List (Message ι π)) (name other : String) (impl : ι) :
    requested (ms ++ [.addMap name impl]) other = requested ms other := by
  simp [requested]

theorem requested_getInterface (ms : List (Message ι π)) (name other : String) (pipe : π) :
    requested (ms ++ [.getInterface name pipe]) other =
      (requested ms other || decide (name = other)) := by
  simp [requested]

theorem run_append (ms : List (Message ι π)) (m : Message ι π) :
    run (ms ++ [m]) = machine.next (run ms) m := by
  rw [run, Machine.exec_append]
  rfl

theorem run_addMap {ms : List (Message ι π)} (alive : (run ms).crashed = false)
    (name : String) (impl : ι) :
    run (ms ++ [.addMap name impl]) = addMap name impl (run ms) := by
  rw [run_append]
  exact Machine.haltOn_next alive ..

theorem run_getInterface {ms : List (Message ι π)} (alive : (run ms).crashed = false)
    (name : String) (pipe : π) :
    run (ms ++ [.getInterface name pipe]) = getInterface name pipe (run ms) := by
  rw [run_append]
  exact Machine.haltOn_next alive ..

theorem run_of_crashed {ms : List (Message ι π)} (crashed : (run ms).crashed = true)
    (m : Message ι π) : run (ms ++ [m]) = run ms := by
  rw [run_append]
  exact Machine.haltOn_next_of_halted crashed ..

/-- What the registry of a living process holds: the first registration of each
name, and a null callback once the name has been requested. -/
structure Tracks (ms : List (Message ι π)) : Prop where
  alive : (run ms).crashed = false
  binders : ∀ name, (run ms).binders name =
    (registered ms name).map fun impl => if requested ms name then none else some impl

theorem Tracks.addMap {ms : List (Message ι π)} (h : Tracks ms)
    (unasked : ∀ name, requested ms name = true → (registered ms name).isSome)
    (name : String) (impl : ι) : Tracks (ms ++ [.addMap name impl]) := by
  have after := run_addMap h.alive name impl
  refine ⟨by rw [after]; exact h.alive, fun other => ?_⟩
  have entries : (InterfaceBroker.addMap name impl (run ms)).binders =
      (run ms).binders.emplace name impl := rfl
  rw [after, entries, BinderMap.emplace, emplace_apply, registered_addMap, requested_addMap]
  by_cases same : other = name
  · subst same
    rw [h.binders other]
    cases known : registered ms other with
    | some first => simp
    | none =>
      have new : requested ms other = false := by
        by_contra asked
        simpa [known] using unasked other (by simpa using asked)
      simp [new]
  · have differ : name ≠ other := fun e => same e.symm
    simp [same, differ, h.binders other]

theorem Tracks.getInterface {ms : List (Message ι π)} (h : Tracks ms) {name : String}
    (known : (registered ms name).isSome) (new : requested ms name = false) (pipe : π) :
    Tracks (ms ++ [.getInterface name pipe]) := by
  obtain ⟨impl, first⟩ := Option.isSome_iff_exists.mp known
  have entry : (run ms).binders name = some (some impl) := by simp [h.binders, first, new]
  have after := run_getInterface h.alive name pipe
  refine ⟨?_, fun other => ?_⟩
  · rw [after, (getInterface_of_runnable entry pipe).2, h.alive]
  rw [after, getInterface_binders, registered_getInterface, requested_getInterface]
  by_cases same : other = name
  · subst same
    simp [first]
  · have differ : name ≠ other := fun e => same e.symm
    simp [same, differ, h.binders other]

theorem requested_registered {ms : List (Message ι π)} (first : FirstRequests ms) (name : String)
    (asked : requested ms name = true) : (registered ms name).isSome := by
  induction ms using List.reverseRecOn with
  | nil => simp [requested] at asked
  | append_singleton ms m ih =>
    cases m with
    | addMap other impl =>
      rw [requested_addMap] at asked
      have before := ih ((firstRequests_addMap ms other impl).mp first) asked
      simp [registered_addMap, before]
    | getInterface other pipe =>
      obtain ⟨⟨known, -⟩, before⟩ := (firstRequests_getInterface ms other pipe).mp first
      rw [requested_getInterface, Bool.or_eq_true, decide_eq_true_eq] at asked
      rw [registered_getInterface]
      obtain asked | rfl := asked
      · exact ih before asked
      · exact known

theorem crash_of_not_first {ms : List (Message ι π)} (h : Tracks ms) {name : String}
    (bad : ¬ ((registered ms name).isSome ∧ requested ms name = false)) (pipe : π) :
    (getInterface name pipe (run ms)).bound = (run ms).bound ∧
      (getInterface name pipe (run ms)).crashed = true := by
  refine getInterface_of_null (fun impl runnable => bad ?_) pipe
  rw [h.binders] at runnable
  obtain ⟨first, known, callback⟩ := Option.map_eq_some_iff.mp runnable
  refine ⟨by rw [known]; rfl, ?_⟩
  cases asked : requested ms name with
  | false => rfl
  | true => simp [asked] at callback

theorem tracks_of_firstRequests {ms : List (Message ι π)} (first : FirstRequests ms) :
    Tracks ms := by
  induction ms using List.reverseRecOn with
  | nil => exact ⟨rfl, fun _ => rfl⟩
  | append_singleton ms m ih =>
    cases m with
    | addMap name impl =>
      have before := (firstRequests_addMap ms name impl).mp first
      exact (ih before).addMap (requested_registered before) name impl
    | getInterface name pipe =>
      obtain ⟨⟨known, new⟩, before⟩ := (firstRequests_getInterface ms name pipe).mp first
      exact (ih before).getInterface known new pipe

theorem alive_iff (ms : List (Message ι π)) : (run ms).crashed = false ↔ FirstRequests ms := by
  refine ⟨fun alive => ?_, fun first => (tracks_of_firstRequests first).alive⟩
  induction ms using List.reverseRecOn with
  | nil =>
    intro pre name pipe hp
    simp at hp
  | append_singleton ms m ih =>
    have before : (run ms).crashed = false := by
      by_contra crashed
      have crashed : (run ms).crashed = true := by simpa using crashed
      rw [run_of_crashed crashed, crashed] at alive
      cases alive
    cases m with
    | addMap name impl => exact (firstRequests_addMap ms name impl).mpr (ih before)
    | getInterface name pipe =>
      refine (firstRequests_getInterface ms name pipe).mpr ⟨?_, ih before⟩
      by_contra bad
      have crash := (crash_of_not_first (tracks_of_firstRequests (ih before)) bad pipe).2
      rw [run_getInterface before, crash] at alive
      cases alive

def Unchanged (pre : List (Message ι π)) (name : String) (pipe : π) : Prop :=
  (run (pre ++ [.getInterface name pipe])).binders = (run pre).binders ∧
    ∀ other, (run (pre ++ [.getInterface name pipe])).binders other ≠ some none

def Binds (pre : List (Message ι π)) (name : String) (pipe : π) : Prop :=
  ∀ impl, registered pre name = some impl →
    (run (pre ++ [.getInterface name pipe])).bound = (run pre).bound ++ [(pipe, impl)]

def Refuses (pre : List (Message ι π)) (name : String) (pipe : π) : Prop :=
  registered pre name = none →
    (run (pre ++ [.getInterface name pipe])).crashed = (run pre).crashed ∧
    (run (pre ++ [.getInterface name pipe])).binders = (run pre).binders

def EachRequest (ms : List (Message ι π))
    (Q : List (Message ι π) → String → π → Prop) : Prop :=
  ∀ pre name pipe, pre ++ [.getInterface name pipe] <+: ms → Q pre name pipe

def KeepsRegistry (ms : List (Message ι π)) : Prop :=
  EachRequest ms Unchanged ∧ EachRequest ms Binds ∧ EachRequest ms Refuses

def NoRequest (ms : List (Message ι π)) : Prop := ∀ name pipe, .getInterface name pipe ∉ ms

theorem NoRequest.eachRequest {ms : List (Message ι π)} (h : NoRequest ms)
    (Q : List (Message ι π) → String → π → Prop) : EachRequest ms Q := by
  intro pre name pipe hp
  exact absurd (hp.subset (by simp)) (h name pipe)

theorem noRequest_of_unchanged {ms : List (Message ι π)} (kept : EachRequest ms Unchanged) :
    NoRequest ms := by
  induction ms using List.reverseRecOn with
  | nil =>
    intro name pipe
    simp
  | append_singleton ms m ih =>
    have before : NoRequest ms := ih fun pre name pipe hp =>
      kept pre name pipe (hp.trans (List.prefix_append ms [m]))
    have alive : (run ms).crashed = false := (alive_iff ms).mpr (before.eachRequest _)
    intro name pipe member
    obtain member | last := List.mem_append.mp member
    · exact before name pipe member
    -- the entry that this request leaves behind is a null callback
    rw [List.mem_singleton] at last
    subst last
    have unchanged := kept ms name pipe List.prefix_rfl
    refine unchanged.2 name ?_
    rw [run_getInterface alive, getInterface_binders, Function.update_self]

theorem binds_iff {pre : List (Message ι π)} {name : String} {impl : ι}
    (known : registered pre name = some impl) (pipe : π) :
    (run (pre ++ [.getInterface name pipe])).bound = (run pre).bound ++ [(pipe, impl)] ↔
      FirstRequests (pre ++ [.getInterface name pipe]) := by
  by_cases before : FirstRequests pre
  · have tracks := tracks_of_firstRequests before
    rw [run_getInterface tracks.alive, firstRequests_getInterface]
    cases asked : requested pre name with
    | false =>
      have entry : (run pre).binders name = some (some impl) := by
        simp [tracks.binders, known, asked]
      exact iff_of_true (getInterface_of_runnable entry pipe).1 ⟨by simp [known], before⟩
    | true =>
      rw [(crash_of_not_first tracks (by simp [asked]) pipe).1]
      simp
  · have crashed : (run pre).crashed = true := by
      simpa using mt (alive_iff pre).mp before
    rw [run_of_crashed crashed, firstRequests_getInterface]
    simp [before]

theorem refuses_iff {pre : List (Message ι π)} {name : String}
    (unknown : registered pre name = none) (pipe : π) :
    ((run (pre ++ [.getInterface name pipe])).crashed = (run pre).crashed ∧
      (run (pre ++ [.getInterface name pipe])).binders = (run pre).binders) ↔
      ¬ FirstRequests pre := by
  by_cases before : FirstRequests pre
  · have tracks := tracks_of_firstRequests before
    rw [run_getInterface tracks.alive,
      (crash_of_not_first tracks (by simp [unknown]) pipe).2, tracks.alive]
    simp [before]
  · have crashed : (run pre).crashed = true := by
      simpa using mt (alive_iff pre).mp before
    rw [run_of_crashed crashed]
    simp [before]

/-- The registry survives exactly the runs without a request. A request for a
registered name is served while every request is the first for its name, and one
for an unknown name does no harm only to a process that is gone. -/
theorem keepsRegistry_iff (ms : List (Message ι π)) :
    (KeepsRegistry ms ↔ NoRequest ms) ∧
    (EachRequest ms Unchanged ↔ NoRequest ms) ∧
    (EachRequest ms Binds ↔ EachRequest ms fun pre name pipe =>
      (registered pre name).isSome → FirstRequests (pre ++ [.getInterface name pipe])) ∧
    (EachRequest ms Refuses ↔ EachRequest ms fun pre name _ =>
      registered pre name = none → ¬ FirstRequests pre) := by
  have unchanged : EachRequest ms Unchanged ↔ NoRequest ms :=
    ⟨noRequest_of_unchanged, fun h => h.eachRequest _⟩
  refine ⟨⟨fun h => unchanged.mp h.1, fun h => ?_⟩, unchanged, ?_, ?_⟩
  · exact ⟨h.eachRequest _, h.eachRequest _, h.eachRequest _⟩
  · refine forall₄_congr fun pre name pipe _ => ?_
    cases known : registered pre name with
    | none => simp [Binds, known]
    | some impl => simp [Binds, known, binds_iff]
  · refine forall₄_congr fun pre name pipe _ => forall_congr' fun unknown => ?_
    exact refuses_iff unknown pipe

theorem second_request_unserved :
    ¬ KeepsRegistry (ι := Unit) (π := Nat)
      [.addMap "Interface1" (), .getInterface "Interface1" 0, .getInterface "Interface1" 1] := by
  rintro ⟨-, binds, -⟩
  have served := binds [.addMap "Interface1" (), .getInterface "Interface1" 0] "Interface1" 1
    (List.prefix_rfl) () rfl
  exact absurd served (by decide)

end ChromiumDemo.InterfaceBroker
