import ChromiumDemo.AssocMap
import Mathlib.Data.List.Range
import Mathlib.Algebra.Ring.Int.Defs

/-! Message dispatch in the consumer of demo_ipc. A filter may do anything to the
state that the filters share; it answers whether it has handled the message. The
router is `IPC::MessageRouter`, which has at most one listener for each routing id. -/

namespace ChromiumDemo.IpcDispatch
open AssocMap

variable {π ω : Type*}

inductive MessageType
  | hello
  | hi
  | routedHello
  | routedHi
  | other (id : Nat)
deriving DecidableEq

def msgRoutingControl : Int := 2 ^ 31 - 1

structure Message (π : Type*) where
  routingId : Int
  type : MessageType
  payload : π
deriving DecidableEq

structure Receiver (π ω : Type*) where
  onMessageReceived : Message π → ω → Bool × ω

structure ConsumerChannel (π ω : Type*) where
  filters : List (Receiver π ω) := []

/-- What a dispatch returned and did: the answer of the control handler if it was
called, and the filters called with their answers, by their places in `filters_`. -/
structure Dispatch (ω : Type*) where
  handled : Bool
  control : Option Bool
  calls : List (Nat × Bool)
  state : ω

def addFilter (filter : Receiver π ω) (c : ConsumerChannel π ω) : ConsumerChannel π ω :=
  { c with filters := c.filters ++ [filter] }

/-- The message map has one handler, `OnHello`, which only logs. -/
def onControlMessageReceived (m : Message π) : Bool := m.type = .hello

/-- The loop over `filters_` from place `n` on, left at the first that accepts. -/
def tryFilters (m : Message π) : Nat → List (Receiver π ω) → ω → List (Nat × Bool) × ω
  | _, [], s => ([], s)
  | n, filter :: filters, s =>
    match filter.onMessageReceived m s with
    | (true, s) => ([(n, true)], s)
    | (false, s) =>
      let rest := tryFilters m (n + 1) filters s
      ((n, false) :: rest.1, rest.2)

/-- The loop does not touch `handled`. -/
def onMessageReceived (c : ConsumerChannel π ω) (m : Message π) (s : ω) : Dispatch ω :=
  if m.routingId = msgRoutingControl then
    let handled := onControlMessageReceived m
    ⟨handled, some handled, [], s⟩
  else
    let loop := tryFilters m 0 c.filters s
    ⟨false, none, loop.1, loop.2⟩

def Refused (m : Message π) : List (Receiver π ω) → ω → Prop
  | [], _ => True
  | filter :: filters, s =>
    (filter.onMessageReceived m s).1 = false ∧ Refused m filters (filter.onMessageReceived m s).2

def stateBefore (m : Message π) : List (Receiver π ω) → ω → Nat → ω
  | filter :: filters, s, n + 1 => stateBefore m filters (filter.onMessageReceived m s).2 n
  | _, s, _ => s

/-- The calls of a loop: the filters in order from the first on, with the answers
that they give when they are asked, up to the first that accepts. -/
structure Tried (m : Message π) (filters : List (Receiver π ω)) (s : ω)
    (calls : List (Nat × Bool)) : Prop where
  order : calls.map Prod.fst = List.range calls.length
  answers : ∀ n accepted, (n, accepted) ∈ calls → ∃ filter ∈ filters[n]?,
    (filter.onMessageReceived m (stateBefore m filters s n)).1 = accepted
  stops : ∀ before n after, calls = before ++ (n, true) :: after → after = []
  exhausts : (∀ call ∈ calls, call.2 = false) → calls.length = filters.length

structure Reports (c : ConsumerChannel π ω) (m : Message π) (s : ω) (d : Dispatch ω) : Prop where
  handled : d.handled = true ↔ d.control = some true ∨ ∃ call ∈ d.calls, call.2 = true
  control : d.control =
    if m.routingId = msgRoutingControl then some (onControlMessageReceived m) else none
  unseen : m.routingId = msgRoutingControl → d.calls = []
  tried : m.routingId ≠ msgRoutingControl → Tried m c.filters s d.calls

section Loop
variable {m : Message π} {filter : Receiver π ω} {filters : List (Receiver π ω)} {s t : ω}

theorem tryFilters_accepted (n : Nat) (accepts : filter.onMessageReceived m s = (true, t)) :
    tryFilters m n (filter :: filters) s = ([(n, true)], t) := by
  rw [tryFilters, accepts]

theorem tryFilters_refused (n : Nat) (refuses : filter.onMessageReceived m s = (false, t)) :
    tryFilters m n (filter :: filters) s =
      ((n, false) :: (tryFilters m (n + 1) filters t).1, (tryFilters m (n + 1) filters t).2) := by
  rw [tryFilters, refuses]

theorem tryFilters_shift (m : Message π) (filters : List (Receiver π ω)) (n : Nat) (s : ω) :
    (tryFilters m (n + 1) filters s).1 =
      (tryFilters m n filters s).1.map fun call => (call.1 + 1, call.2) := by
  induction filters generalizing n s with
  | nil => rfl
  | cons filter filters ih =>
    rcases asked : filter.onMessageReceived m s with ⟨accepted, t⟩
    cases accepted with
    | true => rw [tryFilters_accepted _ asked, tryFilters_accepted _ asked]; rfl
    | false => rw [tryFilters_refused _ asked, tryFilters_refused _ asked, ih (n + 1) t]; rfl

theorem Tried.accepted (accepts : filter.onMessageReceived m s = (true, t)) :
    Tried m (filter :: filters) s [(0, true)] where
  order := rfl
  answers n accepted member := by
    obtain ⟨rfl, rfl⟩ := Prod.mk.inj (List.mem_singleton.mp member)
    exact ⟨filter, rfl, by rw [stateBefore, accepts]; simp⟩
  stops before n after split := by
    cases before with
    | nil => exact (List.cons.inj split).2.symm
    | cons call before => simp at split
  exhausts none := absurd (none _ (List.mem_singleton_self _)) (by simp)

theorem Tried.refused (refuses : filter.onMessageReceived m s = (false, t))
    {calls : List (Nat × Bool)} (rest : Tried m filters t calls) :
    Tried m (filter :: filters) s ((0, false) :: calls.map fun call => (call.1 + 1, call.2)) where
  order := by
    have order := congrArg (List.map Nat.succ) rest.order
    rw [List.map_map] at order
    simpa [List.range_succ_eq_map, Function.comp_def] using order
  answers n accepted member := by
    rcases List.mem_cons.mp member with first | later
    · obtain ⟨rfl, rfl⟩ := Prod.mk.inj first
      exact ⟨filter, rfl, by rw [stateBefore, refuses]; simp⟩
    · obtain ⟨⟨k, answer⟩, called, same⟩ := List.mem_map.mp later
      obtain ⟨rfl, rfl⟩ := Prod.mk.inj same
      obtain ⟨other, found, asked⟩ := rest.answers k answer called
      exact ⟨other, found, by rw [stateBefore, refuses]; exact asked⟩
  stops before n after split := by
    cases before with
    | nil => simp at split
    | cons call before =>
      obtain ⟨-, split⟩ := List.cons.inj split
      obtain ⟨first, last, rfl, -, shifted⟩ := List.map_eq_append_iff.mp split
      obtain ⟨⟨k, answer⟩, others, rfl, same, rfl⟩ := List.map_eq_cons_iff.mp shifted
      obtain ⟨-, rfl⟩ := Prod.mk.inj same
      rw [rest.stops first k others rfl]
      rfl
  exhausts none := by
    rw [List.length_cons, List.length_map, List.length_cons, rest.exhausts]
    intro call member
    exact none (call.1 + 1, call.2) (List.mem_cons_of_mem _ (List.mem_map.mpr ⟨call, member, rfl⟩))

theorem tryFilters_tried (m : Message π) (filters : List (Receiver π ω)) (s : ω) :
    Tried m filters s (tryFilters m 0 filters s).1 := by
  induction filters generalizing s with
  | nil => exact ⟨rfl, by simp [tryFilters], by simp [tryFilters], fun _ => rfl⟩
  | cons filter filters ih =>
    rcases asked : filter.onMessageReceived m s with ⟨accepted, t⟩
    cases accepted with
    | true =>
      rw [tryFilters_accepted 0 asked]
      exact .accepted asked
    | false =>
      rw [tryFilters_refused 0 asked, tryFilters_shift]
      exact (ih t).refused asked

theorem refused_iff (m : Message π) (filters : List (Receiver π ω)) (n : Nat) (s : ω) :
    Refused m filters s ↔ ∀ call ∈ (tryFilters m n filters s).1, call.2 = false := by
  induction filters generalizing n s with
  | nil => simp [Refused, tryFilters]
  | cons filter filters ih =>
    rcases asked : filter.onMessageReceived m s with ⟨accepted, t⟩
    cases accepted with
    | true => simp [Refused, tryFilters_accepted n asked, asked]
    | false =>
      rw [tryFilters_refused n asked, List.forall_mem_cons, ← ih (n + 1) t, Refused, asked]

end Loop

/-- A dispatch reports what it did exactly if it is that of a control message or no
filter accepts the message. -/
theorem reports_iff (c : ConsumerChannel π ω) (m : Message π) (s : ω) :
    Reports c m s (onMessageReceived c m s) ↔
      m.routingId = msgRoutingControl ∨ Refused m c.filters s := by
  by_cases control : m.routingId = msgRoutingControl
  · refine iff_of_true ?_ (.inl control)
    rw [onMessageReceived, if_pos control]
    exact ⟨by simp, by rw [if_pos control], fun _ => rfl, fun routed => absurd control routed⟩
  rw [onMessageReceived, if_neg control, or_iff_right control, refused_iff m c.filters 0 s]
  constructor
  · intro reports call member
    by_contra accepted
    have returned := reports.handled.mpr (.inr ⟨call, member, by simpa using accepted⟩)
    cases returned
  · intro refused
    have unhandled :
        ¬ (none = some true ∨ ∃ call ∈ (tryFilters m 0 c.filters s).1, call.2 = true) := by
      rintro (answered | ⟨call, member, accepted⟩)
      · cases answered
      · rw [refused call member] at accepted
        cases accepted
    exact ⟨iff_of_false Bool.false_ne_true unhandled, by rw [if_neg control],
      fun same => absurd same control, fun _ => tryFilters_tried m c.filters s⟩

abbrev MessageRouter (π ω : Type*) := Map Int (Receiver π ω)

def addRoute (routingId : Int) (listener : Receiver π ω) (routes : MessageRouter π ω) :
    MessageRouter π ω := (emplace routes routingId listener).1

def routeMessage (routes : MessageRouter π ω) (m : Message π) (s : ω) : Bool × ω :=
  match routes m.routingId with
  | some listener => listener.onMessageReceived m s
  | none => (false, s)

def consumerFilter (routes : MessageRouter π ω) : Receiver π ω := ⟨routeMessage routes⟩

def consumerListener : Receiver π (List π) where
  onMessageReceived m greetings :=
    if m.type = .routedHello then (true, greetings ++ [m.payload]) else (false, greetings)

def init (c : ConsumerChannel π (List π)) : ConsumerChannel π (List π) :=
  addFilter (consumerFilter (addRoute 1 consumerListener fun _ => none)) c

def routedHello : Message String := ⟨1, .routedHello, "Producer"⟩

theorem routedHello_unreported :
    ¬ ∀ (c : ConsumerChannel String (List String)) (m : Message String) (s : List String),
      Reports c m s (onMessageReceived c m s) := by
  intro all
  have reports := (all (init {}) routedHello []).handled
  exact absurd (reports.mpr (.inr ⟨(0, true), by decide, rfl⟩)) (by decide)

end ChromiumDemo.IpcDispatch
