import ChromiumDemo.SentinelText
import ChromiumDemo.TransitionSystem
import Mathlib.Algebra.Ring.Nat
import Mathlib.Data.List.Basic

/-! The `Demo` objects that demo_mojo_v8 gives to scripts, in a build where `assert`
is active. A script object, the `ObjectWrap` behind it and the `DemoImpl` in the
browser are joined by a weak handle and a message pipe; the collector and the browser
act whenever they like. -/

namespace ChromiumDemo.ScriptBinding
open TransitionSystem SentinelText

inductive Persistent
  | empty
  | strong
  | weak
deriving DecidableEq

/-- `deleted` counts how often the destructor has run. -/
structure ObjectWrap where
  handle : Persistent := .empty
  refs : Int32 := 0
  deleted : Nat := 0

-- In the members of `ObjectWrap` an assertion that fails is `none`.

def ObjectWrap.wrap (w : ObjectWrap) : Option ObjectWrap :=
  if w.handle = .empty then some { w with handle := .weak } else none

def ObjectWrap.ref (w : ObjectWrap) : Option ObjectWrap :=
  if w.handle = .empty then none else some { w with handle := .strong, refs := w.refs + 1 }

def ObjectWrap.unref (w : ObjectWrap) : Option ObjectWrap :=
  if w.handle = .strong ∧ 0 < w.refs then
    let refs := w.refs - 1
    some { w with refs, handle := if refs = 0 then .weak else w.handle }
  else none

def ObjectWrap.destroy (w : ObjectWrap) : ObjectWrap :=
  { w with handle := .empty, deleted := w.deleted + 1 }

def ObjectWrap.weakCallback (w : ObjectWrap) : Option ObjectWrap :=
  if w.refs = 0 then some ({ w with handle := .empty } : ObjectWrap).destroy else none

structure Object where
  wrap : ObjectWrap := {}
  reachable : Bool := true
  failed : Bool := false

inductive Use
  | wrap
  | ref
  | unref
  | drop
  | collect
deriving DecidableEq

/-- A member function runs on memory that must not have been deleted. -/
def Object.call (f : ObjectWrap → Option ObjectWrap) (o : Object) : Object :=
  if 0 < o.wrap.deleted then { o with failed := true }
  else match f o.wrap with
    | none => { o with failed := true }
    | some wrap => { o with wrap }

def Object.collectable (o : Object) : Bool := !o.reachable && o.wrap.handle == .weak

def useStep (o : Object) : Use → Option Object
  | .wrap => some (o.call ObjectWrap.wrap)
  | .ref => some (o.call ObjectWrap.ref)
  | .unref => some (o.call ObjectWrap.unref)
  | .drop => if o.reachable then some { o with reachable := false } else none
  | .collect => if o.collectable then some (o.call ObjectWrap.weakCallback) else none

def objectMachine : Machine Object Use := .haltOn Object.failed useStep

/-- The object lives while it is referred to, and is deleted once at most. -/
structure Sound (o : Object) : Prop where
  alive : o.failed = false
  strong : o.wrap.handle = .strong ↔ 0 < o.wrap.refs.toInt
  once : o.wrap.deleted ≤ 1
  unused : 0 < o.wrap.deleted → o.wrap.refs = 0 ∧ o.reachable = false

structure Calls where
  wrapped : Bool := false
  refs : Nat := 0
  dropped : Bool := false
  freed : Bool := false

/-- One `Wrap`, then `Ref`s before the object is freed, each `Unref` after its `Ref`
and never more than an `int` counts. -/
def balanced : Monitor Calls Use where
  allows u
    | .wrap => u.wrapped = false
    | .ref => u.wrapped = true ∧ u.freed = false ∧ u.refs + 1 < 2 ^ 31
    | .unref => 0 < u.refs
    | .drop => True
    | .collect => True
  next u
    | .wrap => { u with wrapped := true }
    | .ref => { u with refs := u.refs + 1 }
    | .unref => { u with refs := u.refs - 1 }
    | .drop => { u with dropped := true }
    | .collect => { u with freed := u.freed || (u.wrapped && u.dropped && u.refs == 0) }

def handleOf (u : Calls) : Persistent :=
  if u.wrapped = false ∨ u.freed = true then .empty else if u.refs = 0 then .weak else .strong

structure Follows (o : Object) (u : Calls) : Prop where
  alive : o.failed = false
  handle : o.wrap.handle = handleOf u
  refs : o.wrap.refs.toInt = u.refs
  bound : u.refs < 2 ^ 31
  deleted : o.wrap.deleted = if u.freed then 1 else 0
  reachable : o.reachable = !u.dropped
  unwrapped : u.wrapped = false → u.refs = 0
  freed : u.freed = true → u.wrapped = true ∧ u.refs = 0 ∧ u.dropped = true

theorem Follows.refs_eq_zero {o : Object} {u : Calls} (h : Follows o u) :
    o.wrap.refs = 0 ↔ u.refs = 0 := by
  rw [← Int32.toInt_inj, h.refs]
  simp

theorem follows_sound {o : Object} {u : Calls} (h : Follows o u) : Sound o := by
  refine ⟨h.alive, ?_, ?_, ?_⟩
  · rw [h.handle, h.refs, handleOf]
    by_cases gone : u.wrapped = false ∨ u.freed = true
    · rw [if_pos gone]
      have none_left : u.refs = 0 := gone.elim h.unwrapped fun freed => (h.freed freed).2.1
      simp [none_left]
    · rw [if_neg gone]
      by_cases none_left : u.refs = 0
      · simp [none_left]
      · simpa [none_left] using Nat.pos_of_ne_zero none_left
  · rw [h.deleted]
    split <;> decide
  · rw [h.deleted]
    intro positive
    have freed : u.freed = true := by
      by_contra unfreed
      simp [unfreed] at positive
    obtain ⟨-, none_left, dropped⟩ := h.freed freed
    rw [h.refs_eq_zero, h.reachable, none_left, dropped]
    exact ⟨rfl, rfl⟩

theorem call_of_some {f : ObjectWrap → Option ObjectWrap} {o : Object} {w : ObjectWrap}
    (there : o.wrap.deleted = 0) (h : f o.wrap = some w) : o.call f = { o with wrap := w } := by
  rw [Object.call, if_neg (by omega), h]

theorem call_failed {f : ObjectWrap → Option ObjectWrap} {o : Object}
    (h : 0 < o.wrap.deleted ∨ f o.wrap = none) : (o.call f).failed = true := by
  rw [Object.call]
  by_cases gone : 0 < o.wrap.deleted
  · rw [if_pos gone]
  · rw [if_neg gone, h.resolve_left gone]

theorem next_eq {o : Object} (alive : o.failed = false) (a : Use) :
    objectMachine.next o a = (useStep o a).getD o :=
  Machine.haltOn_next alive useStep a

theorem handle_of_freed {u : Calls} (h : u.freed = true) : handleOf u = .empty := by
  simp [handleOf, h]

theorem handle_of_unwrapped {u : Calls} (h : u.wrapped = false) : handleOf u = .empty := by
  simp [handleOf, h]

theorem handle_of_wrapped {u : Calls} (wrapped : u.wrapped = true) (there : u.freed = false) :
    handleOf u = if u.refs = 0 then .weak else .strong := by
  simp [handleOf, wrapped, there]

theorem collectable_iff {o : Object} {u : Calls} (h : Follows o u) :
    o.collectable = true ↔
      u.freed = false ∧ u.wrapped = true ∧ u.dropped = true ∧ u.refs = 0 := by
  rw [Object.collectable, Bool.and_eq_true, h.reachable, Bool.not_not, beq_iff_eq, h.handle]
  cases wrapped : u.wrapped with
  | false => simp [handle_of_unwrapped wrapped]
  | true =>
    cases there : u.freed with
    | true => simp [handle_of_freed there]
    | false =>
      rw [handle_of_wrapped wrapped there]
      by_cases none_left : u.refs = 0 <;> simp [none_left]

theorem Follows.wrap {o : Object} {u : Calls} (h : Follows o u)
    (allowed : balanced.allows u .wrap) :
    Follows (objectMachine.next o .wrap) (balanced.next u .wrap) := by
  rw [next_eq h.alive]
  have deleted := h.deleted
  have unwrapped : u.wrapped = false := allowed
  have there : u.freed = false := by
    by_contra freed
    simp [(h.freed (by simpa using freed)).1] at unwrapped
  have none_left := h.unwrapped unwrapped
  have empty : o.wrap.handle = .empty := h.handle.trans (handle_of_unwrapped unwrapped)
  rw [there] at deleted
  have called : o.call ObjectWrap.wrap = { o with wrap := { o.wrap with handle := .weak } } :=
    call_of_some deleted (if_pos empty)
  rw [useStep, called]
  refine ⟨h.alive, ?_, h.refs, h.bound, ?_, h.reachable, ?_, ?_⟩
  · simp [balanced, handleOf, there, none_left]
  · simpa [balanced, there] using deleted
  · intro unwrapped
    cases unwrapped
  · intro freed
    simp [balanced, there] at freed

theorem Follows.call_ref {o : Object} {u : Calls} (h : Follows o u) (wrapped : u.wrapped = true)
    (there : u.freed = false) : o.call ObjectWrap.ref =
      { o with wrap := { o.wrap with handle := .strong, refs := o.wrap.refs + 1 } } := by
  have deleted := h.deleted
  have held : ¬ o.wrap.handle = .empty := by
    rw [h.handle, handle_of_wrapped wrapped there]
    split <;> simp
  rw [there] at deleted
  exact call_of_some deleted (if_neg held)

theorem Follows.toInt_ref {o : Object} {u : Calls} (h : Follows o u)
    (room : u.refs + 1 < 2 ^ 31) : (o.wrap.refs + 1).toInt = ((u.refs + 1 : Nat) : Int) := by
  have one : (1 : Int32).toInt = 1 := by decide
  rw [Int32.toInt_add, h.refs, one]
  simp only [Int.bmod]
  omega

theorem Follows.toInt_unref {o : Object} {u : Calls} (h : Follows o u)
    (referred : 0 < u.refs) : (o.wrap.refs - 1).toInt = ((u.refs - 1 : Nat) : Int) := by
  have one : (1 : Int32).toInt = 1 := by decide
  have room := h.bound
  rw [Int32.toInt_sub, h.refs, one]
  simp only [Int.bmod]
  omega

theorem Follows.ref {o : Object} {u : Calls} (h : Follows o u)
    (allowed : balanced.allows u .ref) :
    Follows (objectMachine.next o .ref) (balanced.next u .ref) := by
  rw [next_eq h.alive]
  have deleted := h.deleted
  obtain ⟨wrapped, there, room⟩ : u.wrapped = true ∧ u.freed = false ∧ u.refs + 1 < 2 ^ 31 :=
    allowed
  rw [there] at deleted
  rw [useStep, h.call_ref wrapped there]
  refine ⟨h.alive, ?_, ?_, room, ?_, h.reachable, ?_, ?_⟩
  · simp [balanced, handleOf, wrapped, there]
  · exact h.toInt_ref room
  · simpa [balanced, there] using deleted
  · intro unwrapped
    simp [balanced, wrapped] at unwrapped
  · intro freed
    simp [balanced, there] at freed

theorem Follows.unref {o : Object} {u : Calls} (h : Follows o u)
    (allowed : balanced.allows u .unref) :
    Follows (objectMachine.next o .unref) (balanced.next u .unref) := by
  rw [next_eq h.alive]
  have deleted := h.deleted
  have referred : 0 < u.refs := allowed
  have wrapped : u.wrapped = true := by
    by_contra unwrapped
    have none_left := h.unwrapped (by simpa using unwrapped)
    omega
  have there : u.freed = false := by
    by_contra freed
    have none_left := (h.freed (by simpa using freed)).2.1
    omega
  have strong : o.wrap.handle = .strong := by
    rw [h.handle, handle_of_wrapped wrapped there, if_neg (by omega)]
  have positive : 0 < o.wrap.refs := by
    rw [Int32.lt_iff_toInt_lt, h.refs]
    exact Int.natCast_pos.mpr referred
  have none_left : o.wrap.refs - 1 = 0 ↔ u.refs - 1 = 0 := by
    rw [← Int32.toInt_inj, h.toInt_unref referred]
    simp
  rw [there] at deleted
  have called : o.call ObjectWrap.unref = { o with wrap := { o.wrap with
      refs := o.wrap.refs - 1
      handle := if o.wrap.refs - 1 = 0 then .weak else o.wrap.handle } } :=
    call_of_some deleted (if_pos ⟨strong, positive⟩)
  rw [useStep, called]
  refine ⟨h.alive, ?_, h.toInt_unref referred, ?_, ?_, h.reachable, ?_, ?_⟩
  · simp [balanced, handleOf, wrapped, there, strong, none_left]
  · exact (Nat.sub_le _ _).trans_lt h.bound
  · simpa [balanced, there] using deleted
  · intro unwrapped
    simp [balanced, wrapped] at unwrapped
  · intro freed
    simp [balanced, there] at freed

theorem Follows.drop {o : Object} {u : Calls} (h : Follows o u) :
    Follows (objectMachine.next o .drop) (balanced.next u .drop) := by
  rw [next_eq h.alive]
  have next : (useStep o .drop).getD o = { o with reachable := false } := by
    cases held : o.reachable with
    | true => rw [useStep, if_pos held, Option.getD_some]
    | false =>
      rw [useStep, held, if_neg Bool.false_ne_true, Option.getD_none, ← held]
  rw [next]
  refine ⟨h.alive, h.handle, h.refs, h.bound, h.deleted, rfl, h.unwrapped, fun freed => ?_⟩
  obtain ⟨wrapped, none_left, -⟩ := h.freed freed
  exact ⟨wrapped, none_left, rfl⟩

theorem Follows.collect {o : Object} {u : Calls} (h : Follows o u) :
    Follows (objectMachine.next o .collect) (balanced.next u .collect) := by
  rw [next_eq h.alive]
  have deleted := h.deleted
  by_cases free : o.collectable = true
  · obtain ⟨there, wrapped, dropped, none_left⟩ := (collectable_iff h).mp free
    rw [there] at deleted
    have called : o.call ObjectWrap.weakCallback = { o with wrap :=
        ({ o.wrap with handle := .empty } : ObjectWrap).destroy } :=
      call_of_some deleted (if_pos (h.refs_eq_zero.mpr none_left))
    have next : balanced.next u .collect = { u with freed := true } := by
      simp [balanced, wrapped, dropped, none_left]
    rw [useStep, if_pos free, called, next]
    refine ⟨h.alive, ?_, h.refs, h.bound, ?_, h.reachable, h.unwrapped, ?_⟩
    · exact (handle_of_freed rfl).symm
    · simpa [ObjectWrap.destroy] using deleted
    · intro _
      exact ⟨wrapped, none_left, dropped⟩
  · have next : balanced.next u .collect = u := by
      have kept := mt (collectable_iff h).mpr free
      cases there : u.freed with
      | true =>
        simp only [balanced, there, Bool.true_or]
        rw [← there]
      | false =>
        have none_taken : (u.wrapped && u.dropped && u.refs == 0) = false := by
          by_contra taken
          simp only [Bool.not_eq_false, Bool.and_eq_true, beq_iff_eq] at taken
          exact kept ⟨there, taken.1.1, taken.1.2, taken.2⟩
        simp only [balanced, there, Bool.false_or, none_taken]
        rw [← there]
    rw [useStep, if_neg free, next]
    exact h

theorem balanced_follows (o : Object) (u : Calls) (a : Use) (h : Follows o u)
    (allowed : balanced.allows u a) : Follows (objectMachine.next o a) (balanced.next u a) := by
  cases a with
  | wrap => exact h.wrap allowed
  | ref => exact h.ref allowed
  | unref => exact h.unref allowed
  | drop => exact h.drop
  | collect => exact h.collect

theorem Follows.ref_overflows {o : Object} {u : Calls} (h : Follows o u)
    (wrapped : u.wrapped = true) (there : u.freed = false) (full : u.refs + 1 = 2 ^ 31) :
    ¬ Sound ((useStep o .ref).getD o) := by
  rw [useStep, h.call_ref wrapped there]
  intro sound
  have counted : 0 < (o.wrap.refs + 1).toInt := sound.strong.mp rfl
  have one : (1 : Int32).toInt = 1 := by decide
  rw [Int32.toInt_add, h.refs, one] at counted
  simp only [Int.bmod] at counted
  omega

theorem unbalanced_fails (o : Object) (u : Calls) (a : Use) (h : Follows o u)
    (refused : ¬ balanced.allows u a) : ¬ Sound (objectMachine.next o a) := by
  rw [next_eq h.alive]
  have unsound : ((useStep o a).getD o).failed = true → ¬ Sound ((useStep o a).getD o) := by
    intro failed sound
    rw [sound.alive] at failed
    cases failed
  cases a with
  | wrap =>
    have wrapped : u.wrapped = true := by simpa [balanced] using refused
    refine unsound (call_failed ?_)
    cases there : u.freed with
    | true =>
      left
      rw [h.deleted, there]
      decide
    | false =>
      right
      refine if_neg ?_
      rw [h.handle, handle_of_wrapped wrapped there]
      split <;> simp
  | ref =>
    cases there : u.freed with
    | true =>
      refine unsound (call_failed (.inl ?_))
      rw [h.deleted, there]
      decide
    | false =>
      cases wrapped : u.wrapped with
      | false =>
        exact unsound (call_failed (.inr (if_pos (h.handle.trans (handle_of_unwrapped wrapped)))))
      | true =>
        -- the counter has overflowed, and the handle stays strong
        have full : u.refs + 1 = 2 ^ 31 := by
          have bound := h.bound
          have room : ¬ u.refs + 1 < 2 ^ 31 := by simpa [balanced, there, wrapped] using refused
          omega
        exact h.ref_overflows wrapped there full
  | unref =>
    have none_left : u.refs = 0 := by simpa [balanced] using refused
    refine unsound (call_failed (.inr (if_neg ?_)))
    rw [h.refs_eq_zero.mpr none_left]
    simp
  | drop | collect => exact absurd trivial refused

/-- The wrapped object is sound throughout exactly if the calls are balanced. -/
theorem objectWrap_iff (as : List Use) :
    (∀ o ∈ objectMachine.visited {} as, Sound o) ↔ balanced.Accepts {} as := by
  refine Machine.visited_iff_accepts (fun _ _ h => follows_sound h) balanced_follows
    unbalanced_fails ?_ as
  refine ⟨rfl, rfl, rfl, by decide, rfl, rfl, fun _ => rfl, ?_⟩
  intro freed
  cases freed

-- `DemoV8Binding` behind the object, and its `DemoImpl` in the browser.

abbrev Bytes := List UInt8

inductive Value
  | string (utf8 : Bytes)
  | other

inductive Impl
  | requested
  | serving
  | destroyed
deriving DecidableEq

/-- `asked` are the calls of `hello` by their arguments, `logged` the names that the
`DemoImpl` has logged. -/
structure Demo where
  object : Object := {}
  remote : Bool := false
  pipe : List Bytes := []
  impl : Impl := .requested
  thrown : List String := []
  asked : List (List Value) := []
  logged : List Bytes := []

def bindRemote (d : Demo) : Demo :=
  if d.remote then d else { d with remote := true, impl := .requested }

def v8New (isConstructCall : Bool) : Except String Demo :=
  if isConstructCall then
    let d := bindRemote {}
    .ok { d with object := d.object.call ObjectWrap.wrap }
  else .error "Must invoke by new !"

def hello (message : Bytes) (d : Demo) : Demo :=
  if 0 < d.object.wrap.deleted ∨ d.remote = false then
    { d with object := { d.object with failed := true } }
  else { d with pipe := d.pipe ++ [message] }

/-- The name in the arguments of `hello`, if they are one string. `std::string` of
a `char*` ends at the first NUL byte. -/
def spoken : List Value → Option Bytes
  | [.string utf8] => some (upTo 0 utf8)
  | _ => none

def v8Hello (args : List Value) (d : Demo) : Demo :=
  let d : Demo := { d with asked := d.asked ++ [args] }
  match spoken args with
  | some message => hello message d
  | none => { d with thrown := d.thrown ++ ["args number valid !"] }

inductive Action
  | hello (args : List Value)
  | drop
  | collect
  | bind
  | dispatch
  | disconnect

/-- The destructor closes the remote. The self-owned receiver goes with the last
message of a pipe whose other end is closed. -/
def step (d : Demo) : Action → Option Demo
  | .hello args => if d.object.reachable then some (v8Hello args d) else none
  | .drop => (useStep d.object .drop).map fun object => { d with object }
  | .collect => (useStep d.object .collect).map fun object => { d with object, remote := false }
  | .bind => if d.impl = .requested then some { d with impl := .serving } else none
  | .dispatch => if d.impl = .serving then match d.pipe with
      | [] => none
      | name :: pipe => some { d with pipe, logged := d.logged ++ [name] }
    else none
  | .disconnect =>
    if d.impl = .serving ∧ d.remote = false ∧ d.pipe = [] then some { d with impl := .destroyed }
    else none

def machine : Machine (List Demo) (Bool ⊕ Nat × Action) :=
  Machine.family (.haltOn (fun d => d.object.failed) step) fun b => (v8New b).toOption

def Settled (d : Demo) : Prop :=
  step d .bind = none ∧ step d .dispatch = none ∧ step d .disconnect = none

/-- The names go to the `DemoImpl` of their object, each once and in order. Both ends
are destroyed once at most, the `DemoImpl` after the last name. -/
structure Delivers (d : Demo) : Prop where
  alive : d.object.failed = false
  names : d.asked.filterMap spoken = d.logged ++ d.pipe
  once : d.object.wrap.deleted ≤ 1
  unused : 0 < d.object.wrap.deleted → d.object.reachable = false
  last : d.impl = .destroyed → 0 < d.object.wrap.deleted ∧ d.logged = d.asked.filterMap spoken
  settled : Settled d → d.logged = d.asked.filterMap spoken ∧
    (d.impl = .serving ↔ d.object.wrap.deleted = 0)

structure Inv (d : Demo) : Prop where
  alive : d.object.failed = false
  refs : d.object.wrap.refs = 0
  deleted : d.object.wrap.deleted = if d.remote then 0 else 1
  handle : d.object.wrap.handle = if d.remote then .weak else .empty
  unused : d.remote = false → d.object.reachable = false
  names : d.asked.filterMap spoken = d.logged ++ d.pipe
  last : d.impl = .destroyed → d.remote = false ∧ d.pipe = []

theorem inv_delivers {d : Demo} (h : Inv d) : Delivers d := by
  have closed : 0 < d.object.wrap.deleted → d.remote = false := by
    rw [h.deleted]
    intro positive
    cases there : d.remote with
    | false => rfl
    | true => simp [there] at positive
  refine ⟨h.alive, h.names, ?_, fun gone => h.unused (closed gone), fun gone => ?_, ?_⟩
  · rw [h.deleted]
    split <;> decide
  · obtain ⟨shut, drained⟩ := h.last gone
    rw [h.names, drained, List.append_nil, h.deleted, shut]
    exact ⟨Nat.one_pos, rfl⟩
  · rintro ⟨bound, dispatched, disconnected⟩
    cases impl : d.impl with
    | requested => simp [step, impl] at bound
    | destroyed =>
      obtain ⟨shut, drained⟩ := h.last impl
      rw [h.names, drained, List.append_nil, h.deleted, shut]
      exact ⟨rfl, by simp⟩
    | serving =>
      have drained : d.pipe = [] := by
        cases waiting : d.pipe with
        | nil => rfl
        | cons name pipe => simp [step, impl, waiting] at dispatched
      have open_ : d.remote = true := by
        cases there : d.remote with
        | true => rfl
        | false => simp [step, impl, there, drained] at disconnected
      rw [h.names, drained, List.append_nil, h.deleted, open_]
      exact ⟨rfl, by simp⟩

theorem new_inv (b : Bool) (d : Demo) (h : (v8New b).toOption = some d) : Inv d := by
  cases b with
  | false => cases h
  | true =>
    obtain rfl := Option.some.inj h
    refine ⟨rfl, rfl, rfl, rfl, ?_, rfl, ?_⟩
    · intro shut
      cases shut
    · intro gone
      cases gone

theorem hello_inv {d : Demo} (h : Inv d) (held : d.object.reachable = true) (args : List Value) :
    Inv (v8Hello args d) := by
  have open_ : d.remote = true := by
    cases there : d.remote with
    | true => rfl
    | false =>
      rw [h.unused there] at held
      cases held
  have running : ¬ d.impl = .destroyed := by
    intro gone
    rw [(h.last gone).1] at open_
    cases open_
  rw [v8Hello]
  cases said : spoken args with
  | none =>
    refine ⟨h.alive, h.refs, h.deleted, h.handle, h.unused, ?_, h.last⟩
    simp [said, h.names]
  | some message =>
    have there : ¬ (0 < d.object.wrap.deleted ∨ d.remote = false) := by
      rw [h.deleted, open_]
      simp
    dsimp only
    rw [hello, if_neg there]
    refine ⟨h.alive, h.refs, h.deleted, h.handle, h.unused, ?_, fun gone => absurd gone running⟩
    simp [said, h.names]

theorem step_inv (d : Demo) (a : Action) (e : Demo) (h : Inv d)
    (moved : (Machine.haltOn (fun d => d.object.failed) step).step d a = some e) : Inv e := by
  obtain ⟨-, moved⟩ := Machine.step_of_haltOn moved
  cases a with
  | hello args =>
    obtain ⟨held, same⟩ := Option.ite_none_right_eq_some.mp moved
    obtain rfl := Option.some.inj same
    exact hello_inv h held args
  | drop =>
    obtain ⟨object, dropped, rfl⟩ := Option.map_eq_some_iff.mp moved
    obtain ⟨-, same⟩ := Option.ite_none_right_eq_some.mp dropped
    obtain rfl := Option.some.inj same
    exact ⟨h.alive, h.refs, h.deleted, h.handle, fun _ => rfl, h.names, h.last⟩
  | collect =>
    obtain ⟨object, collected, rfl⟩ := Option.map_eq_some_iff.mp moved
    obtain ⟨free, same⟩ := Option.ite_none_right_eq_some.mp collected
    obtain rfl := Option.some.inj same
    obtain ⟨unreached, weak⟩ : d.object.reachable = false ∧ d.object.wrap.handle = .weak := by
      simpa [Object.collectable] using free
    have open_ : d.remote = true := by
      cases there : d.remote with
      | true => rfl
      | false => simp [h.handle, there] at weak
    have deleted : d.object.wrap.deleted = 0 := by
      rw [h.deleted, open_]
      rfl
    have called : d.object.call ObjectWrap.weakCallback = { d.object with wrap :=
        ({ d.object.wrap with handle := .empty } : ObjectWrap).destroy } :=
      call_of_some deleted (if_pos h.refs)
    rw [called]
    refine ⟨h.alive, h.refs, ?_, rfl, fun _ => unreached, h.names, fun gone => ?_⟩
    · simp [ObjectWrap.destroy, deleted]
    · exact ⟨rfl, (h.last gone).2⟩
  | bind =>
    obtain ⟨-, same⟩ := Option.ite_none_right_eq_some.mp moved
    obtain rfl := Option.some.inj same
    exact ⟨h.alive, h.refs, h.deleted, h.handle, h.unused, h.names, fun gone => by cases gone⟩
  | dispatch =>
    obtain ⟨serving, same⟩ := Option.ite_none_right_eq_some.mp moved
    cases waiting : d.pipe with
    | nil => simp [waiting] at same
    | cons name pipe =>
      simp only [waiting, Option.some.injEq] at same
      subst same
      refine ⟨h.alive, h.refs, h.deleted, h.handle, h.unused, ?_, fun gone => ?_⟩
      · rw [h.names, waiting]
        simp
      · rw [serving] at gone
        cases gone
  | disconnect =>
    obtain ⟨⟨-, shut, drained⟩, same⟩ := Option.ite_none_right_eq_some.mp moved
    obtain rfl := Option.some.inj same
    exact ⟨h.alive, h.refs, h.deleted, h.handle, h.unused, h.names, fun _ => ⟨shut, drained⟩⟩

/-- Whatever scripts, the collector and the browser do, each object delivers its names. -/
theorem every_demo_delivers (as : List (Bool ⊕ Nat × Action)) :
    ∀ d ∈ machine.exec [] as, Delivers d :=
  fun d member => inv_delivers (Machine.family_invariant new_inv step_inv as d member)

theorem every_demo_delivers_hi :
    ∃ d ∈ machine.exec [] [.inl true, .inr (0, .hello [.string [104, 105]]), .inr (0, .drop),
        .inr (0, .collect), .inr (0, .bind), .inr (0, .dispatch), .inr (0, .disconnect)],
      Delivers d ∧ d.logged = [[104, 105]] ∧ d.impl = .destroyed := by
  let d : Demo :=
    { object := { wrap := { handle := .empty, deleted := 1 }, reachable := false }
      impl := .destroyed
      asked := [[.string [104, 105]]]
      logged := [[104, 105]] }
  have member : d ∈ machine.exec [] [.inl true, .inr (0, .hello [.string [104, 105]]),
      .inr (0, .drop), .inr (0, .collect), .inr (0, .bind), .inr (0, .dispatch),
      .inr (0, .disconnect)] := List.mem_singleton.mpr rfl
  exact ⟨d, member, every_demo_delivers _ d member, rfl, rfl⟩

end ChromiumDemo.ScriptBinding
