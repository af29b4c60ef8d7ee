import ChromiumDemo.TransitionSystem
import Mathlib.Data.List.Infix
import Mathlib.Logic.Function.Basic

/-! A sender with a script and a receiver, joined by channels each of which keeps its
order. The receiver takes the head of any channel that it listens to, which may depend
on what it has received. `received_iff` says which logs of received messages there are. -/

namespace FifoChannels
open TransitionSystem

variable {κ μ : Type*} [DecidableEq κ]

def on (k : κ) (log : List (κ × μ)) : List μ :=
  log.filterMap fun e => if e.1 = k then some e.2 else none

section On
variable (k : κ) (m : μ) (log more : List (κ × μ))

@[simp] theorem on_nil : on k ([] : List (κ × μ)) = [] := rfl

@[simp] theorem on_append : on k (log ++ more) = on k log ++ on k more :=
  List.filterMap_append

theorem mem_on {k : κ} {m : μ} {log : List (κ × μ)} : m ∈ on k log ↔ (k, m) ∈ log := by
  simp [on]

theorem on_cons_self : on k ((k, m) :: log) = m :: on k log := by
  simp [on]

theorem on_cons_of_ne {k j : κ} (other : j ≠ k) : on k ((j, m) :: log) = on k log := by
  simp [on, other]

theorem on_singleton (j : κ) : on k [(j, m)] = if j = k then [m] else [] := by
  by_cases same : j = k <;> simp [on, same]

theorem prefix_of_on {log whole : List (κ × μ)} (ordered : ∀ k, on k log <+: on k whole)
    (channels : log.map Prod.fst <+: whole.map Prod.fst) : log <+: whole := by
  induction log generalizing whole with
  | nil => exact List.nil_prefix
  | cons e log ih =>
    obtain ⟨k, m⟩ := e
    cases whole with
    | nil => simp at channels
    | cons f whole =>
      obtain ⟨j, m'⟩ := f
      simp only [List.map_cons, List.cons_prefix_cons] at channels
      obtain ⟨rfl, channels⟩ := channels
      have first := ordered k
      rw [on_cons_self, on_cons_self, List.cons_prefix_cons] at first
      obtain ⟨rfl, first⟩ := first
      refine List.cons_prefix_cons.mpr ⟨rfl, ih (fun i => ?_) channels⟩
      by_cases same : k = i
      · subst same
        exact first
      · have rest := ordered i
        rwa [on_cons_of_ne _ _ same, on_cons_of_ne _ _ same] at rest

end On

/-- `script` is what the sender has yet to send. -/
structure Network (κ μ : Type*) where
  script : List (κ × μ)
  queue : κ → List μ
  received : List (κ × μ)

inductive Action (κ : Type*)
  | send
  | receive (k : κ)

def start (script : List (κ × μ)) : Network κ μ := ⟨script, fun _ => [], []⟩

def step (listens : List (κ × μ) → κ → Bool) (n : Network κ μ) : Action κ → Option (Network κ μ)
  | .send => match n.script with
    | [] => none
    | (k, m) :: script =>
      some { n with script, queue := Function.update n.queue k (n.queue k ++ [m]) }
  | .receive k => if listens n.received k then match n.queue k with
      | [] => none
      | m :: queue =>
        some { n with
          queue := Function.update n.queue k queue
          received := n.received ++ [(k, m)] }
    else none

def machine (listens : List (κ × μ) → κ → Bool) : Machine (Network κ μ) (Action κ) :=
  ⟨step listens⟩

section Runs
variable {listens : List (κ × μ) → κ → Bool} {n t : Network κ μ}

theorem step_send {k : κ} {m : μ} {script : List (κ × μ)} (h : n.script = (k, m) :: script) :
    step listens n .send =
      some { n with script, queue := Function.update n.queue k (n.queue k ++ [m]) } := by
  rw [step, h]

theorem step_receive {k : κ} {m : μ} {queue : List μ} (open_ : listens n.received k = true)
    (h : n.queue k = m :: queue) : step listens n (.receive k) =
      some { n with
        queue := Function.update n.queue k queue
        received := n.received ++ [(k, m)] } := by
  rw [step, if_pos open_, h]

theorem step_cases {a : Action κ} (h : step listens n a = some t) :
    (∃ k m script, n.script = (k, m) :: script ∧
      t = { n with script, queue := Function.update n.queue k (n.queue k ++ [m]) }) ∨
    ∃ k m queue, listens n.received k = true ∧ n.queue k = m :: queue ∧
      t = { n with
        queue := Function.update n.queue k queue
        received := n.received ++ [(k, m)] } := by
  cases a with
  | send =>
    cases todo : n.script with
    | nil => simp [step, todo] at h
    | cons e script =>
      rw [step_send todo] at h
      exact .inl ⟨e.1, e.2, script, rfl, (Option.some.inj h).symm⟩
  | receive k =>
    cases heard : listens n.received k with
    | false => simp [step, heard] at h
    | true =>
      cases waiting : n.queue k with
      | nil => simp [step, heard, waiting] at h
      | cons m queue =>
        rw [step_receive heard waiting] at h
        exact .inr ⟨k, m, queue, heard, waiting, (Option.some.inj h).symm⟩

/-- On each channel, what was received, what waits and what is still to be sent make
up the script, and each message was received on a channel listened to. -/
structure Inv (listens : List (κ × μ) → κ → Bool) (script : List (κ × μ))
    (n : Network κ μ) : Prop where
  conserved : ∀ k, on k n.received ++ n.queue k ++ on k n.script = on k script
  heard : History (fun before e => listens before e.1 = true) n.received

theorem start_inv (script : List (κ × μ)) : Inv listens script (start script) :=
  ⟨fun _ => rfl, history_nil _⟩

theorem step_inv (script : List (κ × μ)) (n : Network κ μ) (a : Action κ) (t : Network κ μ)
    (inv : Inv listens script n) (h : (machine listens).step n a = some t) :
    Inv listens script t := by
  obtain ⟨k, m, rest, todo, rfl⟩ | ⟨k, m, queue, open_, waiting, rfl⟩ := step_cases h
  · refine ⟨fun j => ?_, inv.heard⟩
    have conserved := inv.conserved j
    rw [todo] at conserved
    by_cases same : j = k
    · subst same
      rw [on_cons_self] at conserved
      simpa using conserved
    · rw [on_cons_of_ne _ _ (Ne.symm same)] at conserved
      simpa [same] using conserved
  · refine ⟨fun j => ?_, history_concat.mpr ⟨inv.heard, open_⟩⟩
    have conserved := inv.conserved j
    by_cases same : j = k
    · subst same
      rw [waiting] at conserved
      simpa [on_singleton] using conserved
    · simpa [same, on_singleton, Ne.symm same] using conserved

theorem Inv.received_prefix {script : List (κ × μ)} (inv : Inv listens script n) (k : κ) :
    on k n.received <+: on k script := by
  rw [← inv.conserved k, List.append_assoc]
  exact List.prefix_append _ _

end Runs

variable (listens : List (κ × μ) → κ → Bool)

theorem exec_inv (script : List (κ × μ)) (as : List (Action κ)) :
    Inv listens script ((machine listens).exec (start script) as) :=
  Machine.exec_invariant (step_inv script) (start_inv script) as

theorem send_all (n : Network κ μ) :
    ∃ as, (machine listens).exec n as =
      ⟨[], fun k => n.queue k ++ on k n.script, n.received⟩ := by
  obtain ⟨script, queue, received⟩ := n
  induction script generalizing queue with
  | nil =>
    refine ⟨[], ?_⟩
    simp
  | cons e script ih =>
    obtain ⟨k, m⟩ := e
    obtain ⟨as, sent⟩ := ih (Function.update queue k (queue k ++ [m]))
    have moved : (machine listens).step ⟨(k, m) :: script, queue, received⟩ .send =
        some ⟨script, Function.update queue k (queue k ++ [m]), received⟩ := rfl
    refine ⟨.send :: as, ?_⟩
    rw [Machine.exec_cons, Machine.next_of_some moved, sent]
    congr 1
    funext j
    by_cases same : j = k
    · subst same
      simp [on_cons_self]
    · simp [same, on_cons_of_ne _ _ (Ne.symm same)]

theorem receive_all (log : List (κ × μ)) (n : Network κ μ)
    (ordered : ∀ k, on k log <+: n.queue k)
    (heard : ∀ before e after, log = before ++ e :: after →
      listens (n.received ++ before) e.1 = true) :
    ∃ as, ((machine listens).exec n as).received = n.received ++ log := by
  induction log generalizing n with
  | nil => exact ⟨[], (List.append_nil _).symm⟩
  | cons e log ih =>
    obtain ⟨k, m⟩ := e
    obtain ⟨queue, waiting⟩ := ordered k
    rw [on_cons_self, List.cons_append] at waiting
    have open_ : listens n.received k = true := by
      simpa using heard [] (k, m) log rfl
    let next : Network κ μ :=
      { n with
        queue := Function.update n.queue k (on k log ++ queue)
        received := n.received ++ [(k, m)] }
    have moved : (machine listens).step n (.receive k) = some next :=
      step_receive open_ waiting.symm
    have rest_ordered : ∀ j, on j log <+: next.queue j := by
      intro j
      by_cases same : j = k
      · subst same
        simp [next]
      · have before := ordered j
        rw [on_cons_of_ne _ _ (Ne.symm same)] at before
        simpa [next, same] using before
    have rest_heard : ∀ before e after, log = before ++ e :: after →
        listens (next.received ++ before) e.1 = true := by
      intro before e after split
      have later := heard ((k, m) :: before) e after (by rw [split]; rfl)
      simpa [next] using later
    obtain ⟨as, received⟩ := ih next rest_ordered rest_heard
    refine ⟨.receive k :: as, ?_⟩
    rw [Machine.exec_cons, Machine.next_of_some moved, received, List.append_assoc,
      List.singleton_append]

/-- A log is received in some run exactly if it keeps the order of each channel and
each of its messages came through a channel that was listened to. -/
theorem received_iff (script log : List (κ × μ)) :
    (∃ as, ((machine listens).exec (start script) as).received = log) ↔
      (∀ k, on k log <+: on k script) ∧
        History (fun before e => listens before e.1 = true) log := by
  constructor
  · rintro ⟨as, rfl⟩
    have inv := exec_inv listens script as
    exact ⟨inv.received_prefix, inv.heard⟩
  · rintro ⟨ordered, heard⟩
    obtain ⟨as, sent⟩ := send_all listens (start script)
    obtain ⟨bs, received⟩ := receive_all listens log
      ((machine listens).exec (start script) as) (by rw [sent]; exact ordered)
      (by rw [sent]; exact heard)
    refine ⟨as ++ bs, ?_⟩
    rw [Machine.exec_append, received, sent]
    rfl

end FifoChannels
