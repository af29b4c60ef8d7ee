import ChromiumDemo.ApiExchange
import ChromiumDemo.FifoChannels

/-! The calls of a client on `Test3` or `Test32` and on the `Api` objects that it hands
over, as they run on the other side. With pipes of their own the `Api` calls may be
overtaken, with associated endpoints all calls share the pipe of the interface. -/

namespace ChromiumDemo.ApiSession
open TransitionSystem ApiExchange

/-- The calls that the client makes, by the number of the handle that goes with them. -/
inductive Call
  | getApi (api : Nat)
  | setApi2 (api2 : Nat)
  | printApi (api : Nat) (data : String)
deriving DecidableEq

def mojoProducer : List Call := [.getApi 0, .printApi 0 "api", .setApi2 0]

inductive Pipe
  | test
  | api (number : Nat)
deriving DecidableEq

def route : Kind → Call → Pipe
  | .pipe, .printApi api _ => .api api
  | _, _ => .test

def routed (kind : Kind) (call : Call) : Pipe × Call := (route kind call, call)

/-- `ran` are the calls whose body has run. -/
structure Session (kind : Kind) where
  world : World kind := {}
  ran : List Call := []

variable {kind : Kind}

def serves (api : Nat) (s : Session kind) : Bool :=
  decide (s.world.impl.api = some (ApiImpl.new (⟨api⟩ : Handle kind)))

/-- A call on an endpoint whose `ApiImpl` is gone is dropped. -/
def dispatch (s : Session kind) (call : Call) : Session kind :=
  match call with
  | .getApi api => { world := getApi ⟨api⟩ s.world, ran := s.ran ++ [call] }
  | .setApi2 api2 => { world := setApi2 ⟨api2⟩ s.world, ran := s.ran ++ [call] }
  | .printApi api _ => if serves api s then { s with ran := s.ran ++ [call] } else s

def session (kind : Kind) (calls : List Call) : Session kind := calls.foldl dispatch {}

/-- The process reads a pipe while it has a receiver bound to it, and nothing
after it has crashed. -/
def listens (kind : Kind) (received : List (Pipe × Call)) (pipe : Pipe) : Bool :=
  let s := session kind (received.map Prod.snd)
  !s.world.boundTwice && match pipe with
    | .test => true
    | .api number => serves number s

def exec (kind : Kind) (program : List Call) (as : List (FifoChannels.Action Pipe)) :
    FifoChannels.Network Pipe Call :=
  (FifoChannels.machine (listens kind)).exec (FifoChannels.start (program.map (routed kind))) as

def ran (kind : Kind) (n : FifoChannels.Network Pipe Call) : List Call :=
  (session kind (n.received.map Prod.snd)).ran

def Call.own : Call → Bool
  | .printApi _ _ => false
  | _ => true

def Call.prints (api : Nat) : Call → Bool
  | .printApi number _ => number == api
  | _ => false

def Call.handsApi : Call → Option Nat
  | .getApi api => some api
  | _ => none

def Call.handsApi2 : Call → Bool
  | .setApi2 _ => true
  | _ => false

def lastApi (calls : List Call) : Option Nat := (calls.filterMap Call.handsApi).getLast?

def BindsOnce (calls : List Call) : Prop := calls.countP Call.handsApi2 ≤ 1

def Current (before : List Call) : Call → Prop
  | .printApi api _ => lastApi before = some api
  | _ => True

theorem session_concat (calls : List Call) (call : Call) :
    session kind (calls ++ [call]) = dispatch (session kind calls) call := by
  rw [session, List.foldl_append]
  rfl

theorem new_injective {api other : Handle kind} (h : ApiImpl.new api = ApiImpl.new other) :
    api = other := by
  have served : (ApiImpl.new api).serves other := by
    rw [h]
    exact (ApiImpl.new_serves other other).mpr rfl
  exact (ApiImpl.new_serves api other).mp served

structure Follows (calls : List Call) (s : Session kind) : Prop where
  api : s.world.impl.api = (lastApi calls).map fun n => ApiImpl.new (⟨n⟩ : Handle kind)
  bound : s.world.impl.remoteApi2.isSome = decide (0 < calls.countP Call.handsApi2)
  twice : s.world.boundTwice = decide (1 < calls.countP Call.handsApi2)

theorem follows_dispatch {calls : List Call} {s : Session kind} (h : Follows calls s)
    (call : Call) : Follows (calls ++ [call]) (dispatch s call) := by
  obtain ⟨api, bound, twice⟩ := h
  cases call with
  | getApi number =>
    refine ⟨?_, ?_, ?_⟩
    · simp [dispatch, getApi, lastApi, Call.handsApi]
    · simpa [dispatch, getApi, Call.handsApi2] using bound
    · simpa [dispatch, getApi, Call.handsApi2] using twice
  | setApi2 number =>
    have last : lastApi (calls ++ [Call.setApi2 number]) = lastApi calls := by
      simp [lastApi, Call.handsApi]
    rw [dispatch, setApi2]
    by_cases again : s.world.impl.remoteApi2.isSome = true
    · rw [if_pos again]
      rw [again] at bound
      have some_before := of_decide_eq_true bound.symm
      refine ⟨?_, ?_, ?_⟩
      · rw [last]
        exact api
      · simpa [Call.handsApi2] using again
      · simp only [List.countP_append, List.countP_singleton, Call.handsApi2, if_true]
        exact (decide_eq_true (by omega)).symm
    · rw [if_neg again]
      rw [Bool.not_eq_true] at again
      rw [again] at bound
      have none_before := of_decide_eq_false bound.symm
      refine ⟨?_, ?_, ?_⟩
      · rw [last]
        exact api
      · simp [Call.handsApi2]
      · simp only [List.countP_append, List.countP_singleton, Call.handsApi2, if_true, twice]
        rw [decide_eq_false (by omega), decide_eq_false (by omega)]
  | printApi number data =>
    have same : (dispatch s (.printApi number data)).world = s.world := by
      rw [dispatch]
      split <;> rfl
    rw [← same] at api bound twice
    refine ⟨?_, ?_, ?_⟩
    · simpa [lastApi, Call.handsApi] using api
    · simpa [Call.handsApi2] using bound
    · simpa [Call.handsApi2] using twice

theorem session_follows (kind : Kind) (calls : List Call) :
    Follows calls (session kind calls) := by
  induction calls using List.reverseRecOn with
  | nil => exact ⟨rfl, rfl, rfl⟩
  | append_singleton calls call ih =>
    rw [session_concat]
    exact follows_dispatch ih call

theorem serves_iff (kind : Kind) (calls : List Call) (api : Nat) :
    serves api (session kind calls) = true ↔ lastApi calls = some api := by
  rw [serves, decide_eq_true_eq, (session_follows kind calls).api, Option.map_eq_some_iff]
  constructor
  · rintro ⟨number, last, same⟩
    have numbers := congrArg Handle.number (new_injective same)
    rw [last]
    exact congrArg some numbers
  · intro last
    exact ⟨api, last, rfl⟩

theorem bindsOnce_iff (calls : List Call) :
    (session kind calls).world.boundTwice = false ↔ BindsOnce calls := by
  rw [(session_follows kind calls).twice, decide_eq_false_iff_not, Nat.not_lt, BindsOnce]

theorem ran_of_current {calls : List Call} (current : History Current calls) :
    (session kind calls).ran = calls := by
  induction calls using List.reverseRecOn with
  | nil => rfl
  | append_singleton calls call ih =>
    obtain ⟨before, last⟩ := history_concat.mp current
    rw [session_concat]
    cases call with
    | getApi api | setApi2 api => rw [dispatch, ih before]
    | printApi api data =>
      have served := (serves_iff kind calls api).mpr last
      rw [dispatch, if_pos served, ih before]

theorem listens_iff (received : List (Pipe × Call)) (call : Call) :
    listens kind received (route kind call) = true ↔
      BindsOnce (received.map Prod.snd) ∧
        (kind = .pipe → Current (received.map Prod.snd) call) := by
  simp only [listens, Bool.and_eq_true, Bool.not_eq_true', bindsOnce_iff]
  refine and_congr Iff.rfl ?_
  cases kind <;> cases call <;> simp [route, Current, serves_iff]

theorem on_routed (kind : Kind) (pipe : Pipe) (calls : List Call) :
    FifoChannels.on pipe (calls.map (routed kind)) =
      calls.filter fun call => route kind call = pipe := by
  induction calls with
  | nil => rfl
  | cons call calls ih =>
    by_cases same : route kind call = pipe
    · subst same
      rw [List.map_cons, routed, FifoChannels.on_cons_self, ih,
        List.filter_cons_of_pos (by simp)]
    · rw [List.map_cons, routed, FifoChannels.on_cons_of_ne _ _ same, ih,
        List.filter_cons_of_neg (by simpa using same)]

theorem eq_routed (program : List Call) {log : List (Pipe × Call)}
    (ordered : ∀ k, FifoChannels.on k log <+: FifoChannels.on k (program.map (routed kind))) :
    (log.map Prod.snd).map (routed kind) = log := by
  rw [List.map_map]
  refine (List.map_congr_left ?_).trans log.map_id
  intro e member
  have sent : e.2 ∈ FifoChannels.on e.1 (program.map (routed kind)) :=
    (ordered e.1).subset (FifoChannels.mem_on.mpr member)
  rw [on_routed, List.mem_filter, decide_eq_true_eq] at sent
  exact Prod.ext sent.2 rfl

theorem received_iff (kind : Kind) (program log : List Call) :
    (∃ as, (exec kind program as).received.map Prod.snd = log) ↔
      (∀ pipe, (log.filter fun call => route kind call = pipe) <+:
        program.filter fun call => route kind call = pipe) ∧
      History (fun before call => BindsOnce before ∧ (kind = .pipe → Current before call)) log := by
  have map_snd : ∀ calls : List Call, (calls.map (routed kind)).map Prod.snd = calls := by
    intro calls
    rw [List.map_map]
    exact calls.map_id
  have network := FifoChannels.received_iff (listens kind)
    (program.map (routed kind)) (log.map (routed kind))
  simp only [on_routed] at network
  have heard : History (fun before e => listens kind before e.1 = true) (log.map (routed kind)) ↔
      History (fun before call => BindsOnce before ∧ (kind = .pipe → Current before call)) log := by
    rw [history_map]
    refine history_congr (fun before call => ?_) log
    rw [← map_snd before, routed, listens_iff, map_snd]
  rw [← heard, ← network]
  constructor
  · rintro ⟨as, rfl⟩
    refine ⟨as, (eq_routed program fun k => ?_).symm⟩
    have inv := FifoChannels.exec_inv (listens kind) (program.map (routed kind)) as
    exact inv.received_prefix k
  · rintro ⟨as, received⟩
    refine ⟨as, ?_⟩
    rw [exec, received, map_snd]

def Ready (before : List Call) (call : Call) : Prop := BindsOnce before ∧ Current before call

theorem filter_own (calls : List Call) :
    (calls.filter fun call => route .pipe call = .test) = calls.filter Call.own := by
  refine List.filter_congr fun call _ => ?_
  cases call <;> simp [route, Call.own]

theorem filter_prints (api : Nat) (calls : List Call) :
    (calls.filter fun call => route .pipe call = .api api) = calls.filter (Call.prints api) := by
  refine List.filter_congr fun call _ => ?_
  cases call with
  | printApi number data => simp [route, Call.prints, beq_eq_decide]
  | getApi number | setApi2 number => simp [route, Call.prints]

/-- With pipes of their own, the calls that run are those that keep the order of each
object and come while the `Api` they are made on is the one that is held. -/
theorem pipe_ran_iff (program log : List Call) :
    (∃ as, ran .pipe (exec .pipe program as) = log) ↔
      log.filter Call.own <+: program.filter Call.own ∧
      (∀ api, log.filter (Call.prints api) <+: program.filter (Call.prints api)) ∧
      History Ready log := by
  have runs : ∀ as, ran .pipe (exec .pipe program as) =
      (exec .pipe program as).received.map Prod.snd := by
    intro as
    have ready := ((received_iff .pipe program _).mp ⟨as, rfl⟩).2
    exact ran_of_current fun before call after split => (ready before call after split).2 rfl
  simp only [runs, received_iff]
  rw [← and_assoc]
  refine and_congr ⟨fun ordered => ?_, ?_⟩ (history_congr (fun before call => ?_) log)
  · have own := ordered .test
    rw [filter_own, filter_own] at own
    refine ⟨own, fun api => ?_⟩
    have prints := ordered (.api api)
    rwa [filter_prints, filter_prints] at prints
  · rintro ⟨own, prints⟩ pipe
    cases pipe with
    | test =>
      rw [filter_own, filter_own]
      exact own
    | api api =>
      rw [filter_prints, filter_prints]
      exact prints api
  · simp [Ready]

/-- With associated endpoints, a client that prints on its last `Api` alone has its
calls run in the order in which it made them, each of them. -/
theorem associated_ran_iff (program : List Call) (current : History Current program)
    (log : List Call) :
    (∃ as, ran .associated (exec .associated program as) = log) ↔
      log <+: program ∧ History (fun before _ => BindsOnce before) log := by
  have one_pipe : ∀ calls : List Call,
      (calls.filter fun call => route .associated call = .test) = calls := by
    intro calls
    refine List.filter_eq_self.mpr fun call _ => ?_
    cases call <;> rfl
  have no_other : ∀ (api : Nat) (calls : List Call),
      (calls.filter fun call => route .associated call = .api api) = [] := by
    intro api calls
    refine List.filter_eq_nil_iff.mpr fun call _ => ?_
    cases call <;> simp [route]
  have ordered : ∀ calls : List Call, (∀ pipe,
      (calls.filter fun call => route .associated call = pipe) <+:
        program.filter fun call => route .associated call = pipe) ↔ calls <+: program := by
    intro calls
    constructor
    · intro all
      have test := all .test
      rwa [one_pipe, one_pipe] at test
    · intro first pipe
      cases pipe with
      | test => rwa [one_pipe, one_pipe]
      | api api => rw [no_other, no_other]
  have received := received_iff .associated program
  simp only [ordered, reduceCtorEq, false_imp_iff, and_true] at received
  have runs : ∀ as, ran .associated (exec .associated program as) =
      (exec .associated program as).received.map Prod.snd := by
    intro as
    obtain ⟨rest, split⟩ := ((received _).mp ⟨as, rfl⟩).1
    refine ran_of_current fun before call after inside => ?_
    refine current before call (after ++ rest) ?_
    rw [← split, inside, List.append_assoc, List.cons_append]
  simp only [runs, received]

theorem associated_ran_all :
    ∃ as, ran .associated (exec .associated mojoProducer as) = mojoProducer := by
  have first : History Current ([] ++ [Call.getApi 0]) :=
    history_concat.mpr ⟨history_nil _, trivial⟩
  have second : History Current ([Call.getApi 0] ++ [.printApi 0 "api"]) :=
    history_concat.mpr ⟨first, rfl⟩
  have current : History Current ([Call.getApi 0, .printApi 0 "api"] ++ [.setApi2 0]) :=
    history_concat.mpr ⟨second, trivial⟩
  refine (associated_ran_iff mojoProducer current mojoProducer).mpr ⟨List.prefix_rfl, ?_⟩
  intro before call after split
  have one : mojoProducer.countP Call.handsApi2 = 1 := rfl
  rw [split, List.countP_append] at one
  exact (Nat.le_add_right _ _).trans one.le

example : ran .pipe (exec .pipe mojoProducer
    [.send, .send, .send, .receive .test, .receive .test, .receive (.api 0)]) =
      [.getApi 0, .setApi2 0, .printApi 0 "api"] := by
  decide

end ChromiumDemo.ApiSession
