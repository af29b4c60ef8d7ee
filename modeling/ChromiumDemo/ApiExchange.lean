import ChromiumDemo.TransitionSystem

/-! `Test3Impl` and `Test32Impl` of demo_mojo_multiple_process_binding against a peer
that sends any messages in any order. The two classes differ in the endpoints that
they exchange: pipes of their own, or endpoints associated with the pipe of the
interface. A handle is moved, so each message carries one that is new. -/

namespace ChromiumDemo.ApiExchange
open TransitionSystem

inductive Kind
  | pipe
  | associated
deriving DecidableEq

structure Handle (kind : Kind) where
  number : Nat
deriving DecidableEq

/-- `receiver_` and `associated_receiver_`, one of which is null. -/
structure ApiImpl where
  receiver : Option (Handle .pipe) := none
  associatedReceiver : Option (Handle .associated) := none
deriving DecidableEq

def ApiImpl.new : {kind : Kind} → Handle kind → ApiImpl
  | .pipe, api => { receiver := some api }
  | .associated, api => { associatedReceiver := some api }

def ApiImpl.serves (impl : ApiImpl) : {kind : Kind} → Handle kind → Prop
  | .pipe, api => impl.receiver = some api
  | .associated, api => impl.associatedReceiver = some api

theorem ApiImpl.new_serves {kind : Kind} (api other : Handle kind) :
    (ApiImpl.new api).serves other ↔ api = other := by
  cases kind <;> simp [ApiImpl.new, ApiImpl.serves]

structure Impl (kind : Kind) where
  api : Option ApiImpl := none
  remoteApi2 : Option (Handle kind) := none

abbrev Test3Impl := Impl .pipe

abbrev Test32Impl := Impl .associated

/-- `handed` are the receivers that came with `GetApi`, `closed` those of them
whose other end the peer has closed, `carried` the remotes that came with `SetApi2`,
and `printed` the calls of `PrintApi2` by the remote they were sent on. -/
structure World (kind : Kind) where
  impl : Impl kind := {}
  handed : List (Handle kind) := []
  closed : List (Handle kind) := []
  carried : List (Handle kind) := []
  printed : List (Handle kind × String) := []
  boundTwice : Bool := false

variable {kind : Kind}

/-- The assignment destroys the `ApiImpl` that `api_` had. -/
def getApi (api : Handle kind) (w : World kind) : World kind :=
  { w with
    impl := { w.impl with api := some (ApiImpl.new api) }
    handed := w.handed ++ [api] }

/-- `Bind` requires a remote that is not bound. -/
def setApi2 (api2 : Handle kind) (w : World kind) : World kind :=
  if w.impl.remoteApi2.isSome then
    { w with carried := w.carried ++ [api2], boundTwice := true }
  else
    { w with
      impl := { w.impl with remoteApi2 := some api2 }
      carried := w.carried ++ [api2]
      printed := w.printed ++ [(api2, "api2")] }

inductive Action
  | getApi
  | setApi2
  | closeApi (number : Nat)
deriving DecidableEq

def step (w : World kind) : Action → Option (World kind)
  | .getApi => some (getApi ⟨w.handed.length⟩ w)
  | .setApi2 => some (setApi2 ⟨w.carried.length⟩ w)
  | .closeApi number =>
    if ⟨number⟩ ∈ w.handed then some { w with closed := w.closed ++ [⟨number⟩] } else none

def machine (kind : Kind) : Machine (World kind) Action := .haltOn World.boundTwice step

structure Survives (w : World kind) : Prop where
  unbound : w.boundTwice = false
  printed : w.printed = w.carried.map fun api2 => (api2, "api2")
  served : ∀ api ∈ w.handed, api ∉ w.closed → ∃ impl ∈ w.impl.api, impl.serves api

structure Inv (w : World kind) : Prop where
  survives : Survives w
  numbers : ∀ api ∈ w.handed, api.number < w.handed.length
  bound : w.impl.remoteApi2 = none ↔ w.carried = []

/-- No `SetApi2` comes after another, and `GetApi` finds no receiver that the peer still uses. -/
def Harmless (w : World kind) : Action → Prop
  | .getApi => ∀ api ∈ w.handed, api ∈ w.closed
  | .setApi2 => w.carried = []
  | .closeApi _ => True

theorem getApi_inv {w : World kind} (h : Inv w) (unused : ∀ api ∈ w.handed, api ∈ w.closed) :
    Inv (getApi ⟨w.handed.length⟩ w) := by
  refine ⟨⟨h.survives.unbound, h.survives.printed, fun api member used => ?_⟩,
    fun api member => ?_, h.bound⟩
  · rcases List.mem_append.mp member with old | new
    · exact absurd (unused api old) used
    · exact ⟨_, rfl, (ApiImpl.new_serves _ _).mpr (List.mem_singleton.mp new).symm⟩
  · simp only [getApi, List.length_append, List.length_singleton]
    rcases List.mem_append.mp member with old | new
    · exact Nat.lt_succ_of_lt (h.numbers api old)
    · rw [List.mem_singleton.mp new]
      exact Nat.lt_succ_self _

theorem setApi2_inv {w : World kind} (h : Inv w) (first : w.carried = [])
    (api2 : Handle kind) : Inv (setApi2 api2 w) := by
  rw [setApi2, h.bound.mpr first]
  exact ⟨⟨h.survives.unbound, by simp [h.survives.printed], h.survives.served⟩, h.numbers,
    by simp⟩

theorem step_inv (w : World kind) (a : Action) (u : World kind) (h : Inv w)
    (harmless : Harmless w a) (moved : (machine kind).step w a = some u) : Inv u := by
  obtain ⟨-, moved⟩ := Machine.step_of_haltOn moved
  cases a with
  | getApi =>
    obtain rfl := Option.some.inj moved
    exact getApi_inv h harmless
  | setApi2 =>
    obtain rfl := Option.some.inj moved
    exact setApi2_inv h harmless _
  | closeApi number =>
    obtain ⟨-, same⟩ := Option.ite_none_right_eq_some.mp moved
    obtain rfl := Option.some.inj same
    refine ⟨⟨h.survives.unbound, h.survives.printed, fun api member used => ?_⟩, h.numbers,
      h.bound⟩
    exact h.survives.served api member fun closed => used (List.mem_append_left _ closed)

theorem getApi_not_survives {w : World kind} (h : Inv w) {api : Handle kind}
    (member : api ∈ w.handed) (used : api ∉ w.closed) :
    ¬ Survives (getApi ⟨w.handed.length⟩ w) := by
  intro survives
  obtain ⟨impl, held, serves⟩ := survives.served api (List.mem_append_left _ member) used
  obtain rfl := Option.some.inj held
  have same := (ApiImpl.new_serves _ _).mp serves
  have number := h.numbers api member
  rw [← same] at number
  exact Nat.lt_irrefl _ number

theorem step_not_survives (w : World kind) (a : Action) (u : World kind) (h : Inv w)
    (harmful : ¬ Harmless w a) (moved : (machine kind).step w a = some u) : ¬ Survives u := by
  obtain ⟨-, moved⟩ := Machine.step_of_haltOn moved
  cases a with
  | getApi =>
    obtain rfl := Option.some.inj moved
    simp only [Harmless, not_forall] at harmful
    obtain ⟨api, member, used⟩ := harmful
    exact getApi_not_survives h member used
  | setApi2 =>
    obtain rfl := Option.some.inj moved
    have bound : w.impl.remoteApi2 ≠ none := mt h.bound.mp harmful
    rw [setApi2, if_pos (Option.isSome_iff_ne_none.mpr bound)]
    intro survives
    cases survives.unbound
  | closeApi number => exact absurd trivial harmful

/-- The process survives a history exactly if each of its messages is harmless. -/
theorem survives_iff (kind : Kind) (as : List Action) :
    (∀ w ∈ (machine kind).visited {} as, Survives w) ↔
      ∀ p ∈ (machine kind).taken {} as, Harmless p.1 p.2 :=
  Machine.visited_iff_taken (fun _ => Inv.survives) step_inv step_not_survives
    ⟨⟨rfl, rfl, fun _ member => absurd member List.not_mem_nil⟩,
      fun _ member => absurd member List.not_mem_nil, Iff.intro (fun _ => rfl) fun _ => rfl⟩ as

theorem setApi2_twice_binds_twice :
    ¬ ∀ (kind : Kind) (as : List Action), ∀ w ∈ (machine kind).visited {} as, Survives w := by
  intro all
  have survives := all .pipe [.setApi2, .setApi2] _ (Machine.exec_mem_visited _ _ _)
  cases survives.unbound

end ChromiumDemo.ApiExchange
