import ChromiumDemo.BrokerFailure
import Mathlib.Algebra.BigOperators.Group.Finset.Basic
import Mathlib.Algebra.Order.BigOperators.Group.Finset
import Mathlib.Data.Finset.Card

/-! The broker comes to rest. Once nothing new is asked, joins or goes away, the messages
and notifications on their way are only finitely many, whichever of them is delivered next,
and none of them is stuck. -/

namespace ChromiumDemo.BrokerProgress
open TransitionSystem AssocMap BrokerFailure
open Broker (Responder ConnectionHelper setClient_clients)

/-- The delivery of a message or of a notification, as opposed to what a client, main or the
service starts. -/
def Delivers : Action → Prop
  | .broker (.mainReceives _) | .broker .serviceReceives | .broker .mainTakesReply
  | .broker (.clientReceives _) | .broker (.clientDisconnect _)
  | .broker (.serviceDisconnect _) | .remoteDisconnect => True
  | _ => False

structure Linked (w : Broker.World) : Prop where
  captured : ∀ key receiver, w.helper.receivers key = some receiver → receiver.captured = key
  receiver : ∀ c, (w.clients c).connected = true →
    ∃ key receiver, w.helper.receivers key = some receiver ∧ receiver.client = c
  indices : ∀ key receiver, w.helper.receivers key = some receiver →
    key ∈ w.indices ∧ receiver.client < w.nextClient
  services : ∀ key impl, w.factory.service key = some impl →
    impl.captured = key ∧ key ∈ w.impls.map Prod.fst
  unused : ∀ c, w.nextClient ≤ c → w.clients c = {}

theorem start_linked : Linked {} where
  captured _ _ found := by cases found
  receiver _ connected := by cases connected
  indices _ _ found := by cases found
  services _ _ found := by cases found
  unused _ _ := rfl

section Steps
variable {w : Broker.World}

theorem Linked.setClient (h : Linked w) (c : Nat) {client : Broker.Client}
    (connected : client.connected = true → (w.clients c).connected = true)
    (unused : w.nextClient ≤ c → client = {}) : Linked (w.setClient c client) := by
  refine ⟨h.captured, fun d linked => ?_, h.indices, h.services, fun d le => ?_⟩
  · rw [setClient_clients] at linked
    split at linked
    case isTrue same =>
      rw [same]
      exact h.receiver c (connected linked)
    case isFalse => exact h.receiver d linked
  · rw [setClient_clients]
    split
    case isTrue same => exact unused (same ▸ le)
    case isFalse => exact h.unused d le

theorem Linked.addClient (h : Linked w) : Linked (Broker.addClient w) := by
  let id := Broker.increment w.helper.clientIndex
  have receivers (key : Int) : (Broker.addClient w).helper.receivers key =
      if key = id then some ((w.helper.receivers id).getD ⟨w.nextClient, id⟩)
      else w.helper.receivers key := emplace_apply ..
  have clients (c : Nat) : (Broker.addClient w).clients c =
      if c = w.nextClient then
        { connected := (emplace w.helper.receivers id ⟨w.nextClient, id⟩).2 }
      else w.clients c := Function.update_apply ..
  refine ⟨fun key receiver found => ?_, fun c linked => ?_, fun key receiver found => ?_,
    h.services, fun c le => ?_⟩
  · rw [receivers] at found
    split at found
    case isFalse => exact h.captured key receiver found
    case isTrue same =>
      subst same
      cases old : w.helper.receivers id with
      | none =>
        rw [old, Option.getD_none, Option.some.injEq] at found
        rw [← found]
      | some before =>
        rw [old, Option.getD_some, Option.some.injEq] at found
        rw [← found]
        exact h.captured id before old
  · rw [clients] at linked
    split at linked
    case isTrue same =>
      refine ⟨id, ⟨w.nextClient, id⟩, ?_, same.symm⟩
      have free : w.helper.receivers id = none := by
        cases old : w.helper.receivers id with
        | none => rfl
        | some before => simp [emplace, old] at linked
      rw [receivers, if_pos rfl, free]
      rfl
    case isFalse =>
      obtain ⟨key, receiver, found, own⟩ := h.receiver c linked
      refine ⟨key, receiver, ?_, own⟩
      rw [receivers]
      split
      case isTrue same => rw [← same, found]; rfl
      case isFalse => exact found
  · change key ∈ w.indices ++ [id] ∧ receiver.client < w.nextClient + 1
    have known {other : Int} {r : Broker.Receiver} (old : w.helper.receivers other = some r) :
        other ∈ w.indices ++ [id] ∧ r.client < w.nextClient + 1 := by
      obtain ⟨member, lt⟩ := h.indices other r old
      exact ⟨List.mem_append_left _ member, Nat.lt_succ_of_lt lt⟩
    rw [receivers] at found
    split at found
    case isFalse => exact known found
    case isTrue same =>
      subst same
      cases old : w.helper.receivers id with
      | none =>
        rw [old, Option.getD_none, Option.some.injEq] at found
        rw [← found]
        simp
      | some before =>
        rw [old, Option.getD_some, Option.some.injEq] at found
        rw [← found]
        exact known old
  · change w.nextClient + 1 ≤ c at le
    rw [clients, if_neg (by omega)]
    exact h.unused c (by omega)

theorem Linked.clientDisconnect (h : Linked w) {key : Int} {receiver : Broker.Receiver}
    (found : w.helper.receivers key = some receiver)
    (gone : (w.clients receiver.client).connected = false) :
    Linked { w with helper := w.helper.onDisconnect receiver } := by
  refine ⟨fun other r known => h.captured other r (erase_eq_some.mp known).2, fun c linked => ?_,
    fun other r known => h.indices other r (erase_eq_some.mp known).2, h.services, h.unused⟩
  obtain ⟨other, r, known, own⟩ := h.receiver c linked
  refine ⟨other, r, erase_eq_some.mpr ⟨?_, known⟩, own⟩
  intro same
  rw [h.captured key receiver found] at same
  subst same
  obtain rfl := Option.some.inj (found.symm.trans known)
  rw [own] at gone
  rw [gone] at linked
  cases linked

theorem Linked.serve (h : Linked w) (request : Nat) (rest : List Nat) :
    Linked (w.serve request rest) := by
  let id := Broker.increment w.factory.clientId
  refine ⟨h.captured, h.receiver, h.indices, fun key impl found => ?_, h.unused⟩
  have impls : (w.serve request rest).impls.map Prod.fst = w.impls.map Prod.fst ++ [id] :=
    List.map_append
  rw [impls]
  change (emplace w.factory.service id ⟨⟨w.nextPipe, false⟩, id⟩).1 key = some impl at found
  rw [emplace_apply] at found
  split at found
  case isFalse =>
    obtain ⟨own, made⟩ := h.services key impl found
    exact ⟨own, List.mem_append_left _ made⟩
  case isTrue same =>
    subst same
    refine ⟨?_, by simp⟩
    cases old : w.factory.service id with
    | none =>
      rw [old, Option.getD_none, Option.some.injEq] at found
      rw [← found]
    | some before =>
      rw [old, Option.getD_some, Option.some.injEq] at found
      rw [← found]
      exact (h.services id before old).1

theorem Linked.serviceDisconnect (h : Linked w) (impl : Broker.MyServiceImpl) :
    Linked { w with factory := w.factory.onDisconnect impl } :=
  ⟨h.captured, h.receiver, h.indices,
    fun key i found => h.services key i (erase_eq_some.mp found).2, h.unused⟩

theorem Linked.forward (h : Linked w) {callback : Responder} {rest : List Nat}
    (queue : (w.clients callback.client).toMain = callback.request :: rest) :
    Linked (w.forward callback rest) := by
  let client := { w.clients callback.client with toMain := rest }
  have known : w.nextClient ≤ callback.client → client = {} := by
    intro le
    rw [h.unused _ le] at queue
    cases queue
  have set : Linked (w.setClient callback.client client) :=
    h.setClient callback.client id known
  exact ⟨set.captured, set.receiver, set.indices, set.services, set.unused⟩

theorem Linked.run (h : Linked w) (callback : Responder) (reply : Broker.Reply) :
    Linked (w.run callback reply) := by
  unfold Broker.World.run
  split
  case isFalse => exact ⟨h.captured, h.receiver, h.indices, h.services, h.unused⟩
  case isTrue bound =>
    obtain ⟨receiver, found, own⟩ := Option.map_eq_some_iff.mp bound
    have lt := (h.indices _ receiver found).2
    refine h.setClient callback.client id ?_
    intro le
    omega

theorem Linked.receive (h : Linked w) {c : Nat} {reply : Broker.Reply} {rest : List Broker.Reply}
    (queue : (w.clients c).fromMain = reply :: rest) : Linked (w.receive c reply rest) := by
  refine h.setClient c id ?_
  intro le
  rw [h.unused c le] at queue
  cases queue

theorem linked_step (h : Linked w) {a : Broker.Action} {d : Broker.World}
    (taken : Broker.step w a = some d) : Linked d := by
  cases a with
  | addClient =>
    cases taken
    exact h.addClient
  | sendRequest c =>
    simp only [Broker.step, Broker.sendRequest] at taken
    obtain ⟨connected, ⟨⟩⟩ := Option.ite_none_right_eq_some.mp taken
    refine h.setClient c id fun le => ?_
    rw [h.unused c le] at connected
    cases connected
  | mainReceives key =>
    simp only [Broker.step, Broker.mainReceives] at taken
    split at taken
    · cases taken
    next receiver found =>
    split at taken
    · cases taken
    next request rest queue =>
    cases taken
    exact h.forward queue
  | serviceReceives =>
    simp only [Broker.step, Broker.serviceReceives] at taken
    split at taken
    · cases taken
    next request rest queue =>
    cases taken
    exact h.serve request rest
  | mainTakesReply =>
    simp only [Broker.step, Broker.mainTakesReply] at taken
    split at taken
    · cases taken
    next reply rest queue =>
    have took : Linked (w.take reply rest) :=
      ⟨h.captured, h.receiver, h.indices, h.services, h.unused⟩
    split at taken
    case h_1 =>
      cases taken
      exact took
    case h_2 callback found =>
      cases taken
      exact took.run callback reply
  | clientReceives c =>
    simp only [Broker.step, Broker.clientReceives] at taken
    split at taken
    · cases taken
    next reply rest queue =>
    obtain ⟨-, ⟨⟩⟩ := Option.ite_none_right_eq_some.mp taken
    exact h.receive queue
  | closeClient c =>
    cases taken
    refine h.setClient c (fun linked => by cases linked) fun le => ?_
    rw [h.unused c le]
  | clientDisconnect key =>
    simp only [Broker.step, Broker.clientDisconnect] at taken
    split at taken
    · cases taken
    next receiver found =>
    obtain ⟨gone, ⟨⟩⟩ := Option.ite_none_left_eq_some.mp taken
    exact h.clientDisconnect found (Bool.eq_false_iff.mpr gone)
  | closeService pipe =>
    simp only [Broker.step] at taken
    obtain ⟨-, ⟨⟩⟩ := Option.ite_none_right_eq_some.mp taken
    exact ⟨h.captured, h.receiver, h.indices, h.services, h.unused⟩
  | serviceDisconnect key =>
    simp only [Broker.step, Broker.serviceDisconnect] at taken
    split at taken
    · cases taken
    next impl found =>
    obtain ⟨-, ⟨⟩⟩ := Option.ite_none_right_eq_some.mp taken
    exact h.serviceDisconnect impl

theorem toService_step {a : Broker.Action} {d : Broker.World} (other : ∀ key, a ≠ .mainReceives key)
    (taken : Broker.step w a = some d) (empty : w.toService = []) : d.toService = [] := by
  cases a with
  | mainReceives key => exact absurd rfl (other key)
  | addClient | closeClient c =>
    cases taken
    exact empty
  | sendRequest c =>
    simp only [Broker.step, Broker.sendRequest] at taken
    obtain ⟨-, ⟨⟩⟩ := Option.ite_none_right_eq_some.mp taken
    exact empty
  | serviceReceives => simp [Broker.step, Broker.serviceReceives, empty] at taken
  | mainTakesReply =>
    simp only [Broker.step, Broker.mainTakesReply] at taken
    split at taken
    · cases taken
    split at taken
    · cases taken
      exact empty
    · cases taken
      unfold Broker.World.run
      split
      · exact empty
      · exact empty
  | clientReceives c =>
    simp only [Broker.step, Broker.clientReceives] at taken
    split at taken
    · cases taken
    obtain ⟨-, ⟨⟩⟩ := Option.ite_none_right_eq_some.mp taken
    exact empty
  | clientDisconnect key =>
    simp only [Broker.step, Broker.clientDisconnect] at taken
    split at taken
    · cases taken
    obtain ⟨-, ⟨⟩⟩ := Option.ite_none_left_eq_some.mp taken
    exact empty
  | closeService pipe =>
    simp only [Broker.step] at taken
    obtain ⟨-, ⟨⟩⟩ := Option.ite_none_right_eq_some.mp taken
    exact empty
  | serviceDisconnect key =>
    simp only [Broker.step, Broker.serviceDisconnect] at taken
    split at taken
    · cases taken
    obtain ⟨-, ⟨⟩⟩ := Option.ite_none_right_eq_some.mp taken
    exact empty

end Steps

inductive Moves (x : World) : Action → World → Prop
  | late (key : Int) (receiver : Broker.Receiver) (request : Nat) (rest : List Nat)
    (notified : x.notified = true) (found : x.broker.helper.receivers key = some receiver)
    (queue : (x.broker.clients receiver.client).toMain = request :: rest) :
    Moves x (.broker (.mainReceives key)) (dropCall ⟨receiver.client, request, key⟩ rest x)
  | forward (key : Int) (receiver : Broker.Receiver) (request : Nat) (rest : List Nat)
    (unnotified : x.notified = false) (found : x.broker.helper.receivers key = some receiver)
    (queue : (x.broker.clients receiver.client).toMain = request :: rest) :
    Moves x (.broker (.mainReceives key))
      (forwarded x (x.broker.forward ⟨receiver.client, request, key⟩ rest))
  | broker (b : Broker.Action) (w : Broker.World) (other : ∀ key, b ≠ .mainReceives key)
    (taken : Broker.step x.broker b = some w) : Moves x (.broker b) { x with broker := w }
  | serviceDies (process : Bool) (delivered : Nat) (alive : x.alive = true) :
    Moves x (.serviceDies process delivered) (serviceDies process delivered x)
  | remoteDisconnect (dead : x.alive = false) (unnotified : x.notified = false) :
    Moves x .remoteDisconnect (remoteDisconnect x)

theorem moves_of_step {x y : World} {a : Action} (h : machine.step x a = some y) :
    Moves x a y := by
  cases a with
  | serviceDies process delivered =>
    obtain ⟨alive, ⟨⟩⟩ := Option.ite_none_right_eq_some.mp h
    exact .serviceDies process delivered alive
  | remoteDisconnect =>
    obtain ⟨now, ⟨⟩⟩ := Option.ite_none_right_eq_some.mp h
    simp only [Bool.and_eq_true, Bool.not_eq_true'] at now
    exact .remoteDisconnect now.1.1 now.1.2
  | broker b =>
    by_cases other : ∀ key, b ≠ .mainReceives key
    · rw [step_broker other] at h
      obtain ⟨w, taken, rfl⟩ := Option.map_eq_some_iff.mp h
      exact .broker b w other taken
    · simp only [not_forall, not_not] at other
      obtain ⟨key, rfl⟩ := other
      simp only [machine, step, mainReceives] at h
      split at h
      next notified =>
        split at h
        · cases h
        next receiver found =>
        split at h
        · cases h
        next request rest queue =>
        cases h
        exact .late key receiver request rest notified found queue
      next unnotified =>
        obtain ⟨w, taken, rfl⟩ := Option.map_eq_some_iff.mp h
        simp only [Broker.mainReceives] at taken
        split at taken
        · cases taken
        next receiver found =>
        split at taken
        · cases taken
        next request rest queue =>
        cases taken
        exact .forward key receiver request rest (Bool.eq_false_iff.mpr unnotified) found queue

structure Settling (x : World) : Prop where
  linked : Linked x.broker
  silent : x.alive = false → x.broker.toService = []
  served : x.alive = true → BrokerFailure.Inv x

theorem start_settling : Settling {} where
  linked := start_linked
  silent dead := by cases dead
  served _ := start_inv

theorem spared_of_alive {x y : World} {a : Action} (inv : Settling x) (moves : Moves x a y)
    (alive : y.alive = true) : x.alive = true ∧ Spared x a := by
  cases moves with
  | late key receiver request rest notified found queue =>
    have before : x.alive = true := alive
    rw [(inv.served before).notified notified] at before
    cases before
  | forward key receiver request rest unnotified found queue => exact ⟨alive, unnotified⟩
  | broker b w other taken =>
    refine ⟨alive, ?_⟩
    cases b with
    | mainReceives key => exact absurd rfl (other key)
    | _ => trivial
  | serviceDies process delivered => cases alive
  | remoteDisconnect dead =>
    have before : x.alive = true := alive
    rw [dead] at before
    cases before

theorem linked_moves {x y : World} {a : Action} (h : Linked x.broker) (moves : Moves x a y) :
    Linked y.broker := by
  cases moves with
  | late key receiver request rest notified found queue =>
    refine h.setClient receiver.client id ?_
    intro le
    rw [h.unused _ le] at queue
    cases queue
  | forward key receiver request rest unnotified found queue =>
    let callback : Responder := ⟨receiver.client, request, key⟩
    have next : Linked (x.broker.forward callback rest) := h.forward queue
    exact ⟨next.captured, next.receiver, next.indices, next.services, next.unused⟩
  | broker b w other taken => exact linked_step h taken
  | serviceDies process delivered =>
    refine ⟨h.captured, h.receiver, h.indices, ?_, h.unused⟩
    intro key impl found
    cases process with
    | true => cases found
    | false => exact h.services key impl found
  | remoteDisconnect => exact ⟨h.captured, h.receiver, h.indices, h.services, h.unused⟩

theorem silent_moves {x y : World} {a : Action} (silent : x.alive = false → x.broker.toService = [])
    (moves : Moves x a y) : y.alive = false → y.broker.toService = [] := by
  intro dead
  cases moves with
  | late => exact silent dead
  | forward =>
    change x.alive = false at dead
    simp [forwarded, dead]
  | broker b w other taken => exact toService_step other taken (silent dead)
  | serviceDies => rfl
  | remoteDisconnect => exact silent dead

theorem settling_step (x : World) (a : Action) (y : World) (inv : Settling x)
    (h : machine.step x a = some y) : Settling y := by
  have moves := moves_of_step h
  refine ⟨linked_moves inv.linked moves, silent_moves inv.silent moves, fun alive => ?_⟩
  obtain ⟨before, spared⟩ := spared_of_alive inv moves alive
  exact step_inv x a y (inv.served before) spared h

section Work

def held {ν : Type*} (m : Map Int ν) (keys : List Int) : Nat :=
  (keys.toFinset.filter fun key => (m key).isSome).card

theorem held_erase {ν : Type*} {m : Map Int ν} {keys : List Int} {key : Int} {value : ν}
    (found : m key = some value) (used : key ∈ keys) :
    held (erase m key) keys + 1 = held m keys := by
  have member : key ∈ keys.toFinset.filter fun key => (m key).isSome := by
    simp [used, found]
  have fewer : (keys.toFinset.filter fun other => (erase m key other).isSome) =
      (keys.toFinset.filter fun other => (m other).isSome).erase key := by
    ext other
    rw [Finset.mem_erase, Finset.mem_filter, Finset.mem_filter, erase, Function.update_apply]
    by_cases same : other = key
    · simp [same]
    · simp [same]
  rw [held, fewer, Finset.card_erase_of_mem member, held]
  have positive := Finset.card_pos.mpr ⟨key, member⟩
  omega

theorem held_emplace {ν : Type*} (m : Map Int ν) (keys : List Int) (key : Int) (value : ν) :
    held (emplace m key value).1 (keys ++ [key]) ≤ held m keys + 1 := by
  have more : ((keys ++ [key]).toFinset.filter fun other =>
      ((emplace m key value).1 other).isSome) ⊆
      insert key (keys.toFinset.filter fun other => (m other).isSome) := by
    intro other member
    rw [Finset.mem_filter, emplace_apply] at member
    by_cases same : other = key
    · simp [same]
    · simpa [same] using member
  exact (Finset.card_le_card more).trans (Finset.card_insert_le ..)

def clientWork (client : Broker.Client) : Nat := 5 * client.toMain.length + client.fromMain.length

def pipes (w : Broker.World) : Nat := ∑ c ∈ Finset.range w.nextClient, clientWork (w.clients c)

theorem pipes_setClient {w : Broker.World} {c : Nat} (known : c < w.nextClient)
    (client : Broker.Client) :
    pipes (w.setClient c client) + clientWork (w.clients c) = pipes w + clientWork client := by
  have member : c ∈ Finset.range w.nextClient := Finset.mem_range.mpr known
  have before := Finset.add_sum_erase _ (fun d => clientWork (w.clients d)) member
  have after := Finset.add_sum_erase _
    (fun d => clientWork ((w.setClient c client).clients d)) member
  have others : ∑ d ∈ (Finset.range w.nextClient).erase c,
        clientWork ((w.setClient c client).clients d) =
      ∑ d ∈ (Finset.range w.nextClient).erase c, clientWork (w.clients d) := by
    refine Finset.sum_congr rfl fun d other => ?_
    rw [setClient_clients, if_neg (Finset.ne_of_mem_erase other)]
  rw [setClient_clients, if_pos rfl, others] at after
  have whole : pipes (w.setClient c client) = _ := after.symm
  have old : pipes w = _ := before.symm
  omega

def work (x : World) : Nat :=
  pipes x.broker + 4 * x.broker.toService.length + 2 * x.broker.fromService.length +
    held x.broker.helper.receivers x.broker.indices +
    held x.broker.factory.service (x.broker.impls.map Prod.fst) + (!x.notified).toNat

variable {x : World}

theorem work_late {receiver : Broker.Receiver} {request : Nat} {rest : List Nat} {key : Int}
    (known : receiver.client < x.broker.nextClient)
    (queue : (x.broker.clients receiver.client).toMain = request :: rest) :
    work (dropCall ⟨receiver.client, request, key⟩ rest x) < work x := by
  have less := pipes_setClient known { x.broker.clients receiver.client with toMain := rest }
  simp only [clientWork, queue, List.length_cons] at less
  simp only [work, dropCall, Broker.World.setClient] at less ⊢
  omega

theorem work_forward {receiver : Broker.Receiver} {request : Nat} {rest : List Nat} {key : Int}
    (known : receiver.client < x.broker.nextClient)
    (queue : (x.broker.clients receiver.client).toMain = request :: rest) :
    work (forwarded x (x.broker.forward ⟨receiver.client, request, key⟩ rest)) < work x := by
  have less := pipes_setClient known { x.broker.clients receiver.client with toMain := rest }
  simp only [clientWork, queue, List.length_cons] at less
  have sent : (if x.alive then x.broker.toService ++ [x.broker.helper.nextRequest]
      else []).length ≤ x.broker.toService.length + 1 := by
    split <;> simp
  simp only [work, forwarded, Broker.World.forward, ConnectionHelper.establishChannel, pipes,
    Broker.World.setClient] at less ⊢
  omega

theorem work_serve {request : Nat} {rest : List Nat}
    (queue : x.broker.toService = request :: rest) :
    work { x with broker := x.broker.serve request rest } < work x := by
  have more := held_emplace x.broker.factory.service (x.broker.impls.map Prod.fst)
    (Broker.increment x.broker.factory.clientId)
    ⟨⟨x.broker.nextPipe, false⟩, Broker.increment x.broker.factory.clientId⟩
  simp only [work, pipes, Broker.World.serve, Broker.ConnectionFactory.establishChannel, queue,
    List.map_append, List.map_cons, List.map_nil, List.length_append, List.length_cons,
    List.length_nil]
  omega

theorem work_run {w : Broker.World} (linked : Linked w) (callback : Responder)
    (reply : Broker.Reply) : work { x with broker := w.run callback reply } ≤
      work { x with broker := w } + 1 := by
  unfold Broker.World.run
  split
  case isFalse => exact Nat.le_succ _
  case isTrue bound =>
    obtain ⟨receiver, found, own⟩ := Option.map_eq_some_iff.mp bound
    have known : callback.client < w.nextClient := by
      rw [← own]
      exact (linked.indices _ receiver found).2
    have more := pipes_setClient known { w.clients callback.client with
      fromMain := (w.clients callback.client).fromMain ++
        [{ reply with request := callback.request }] }
    simp only [clientWork, List.length_append, List.length_cons, List.length_nil] at more
    simp only [work, Broker.World.setClient] at more ⊢
    omega

theorem work_take {reply : Broker.Reply} {rest : List Broker.Reply}
    (queue : x.broker.fromService = reply :: rest) :
    work { x with broker := x.broker.take reply rest } + 2 = work x := by
  simp only [work, pipes, Broker.World.take, queue, List.length_cons]
  omega

theorem work_receive (linked : Linked x.broker) {c : Nat} {reply : Broker.Reply}
    {rest : List Broker.Reply} (queue : (x.broker.clients c).fromMain = reply :: rest) :
    work { x with broker := x.broker.receive c reply rest } < work x := by
  have known : c < x.broker.nextClient := by
    by_contra le
    rw [linked.unused c (by omega)] at queue
    cases queue
  have less := pipes_setClient known { x.broker.clients c with
    fromMain := rest, received := (x.broker.clients c).received ++ [reply] }
  simp only [clientWork, queue, List.length_cons] at less
  simp only [work, Broker.World.receive, Broker.World.setClient] at less ⊢
  omega

theorem work_clientDisconnect (linked : Linked x.broker) {key : Int} {receiver : Broker.Receiver}
    (found : x.broker.helper.receivers key = some receiver) :
    work { x with broker := { x.broker with
      helper := x.broker.helper.onDisconnect receiver } } < work x := by
  have fewer := held_erase found (linked.indices key receiver found).1
  simp only [work, pipes, ConnectionHelper.onDisconnect, linked.captured key receiver found]
  omega

theorem work_serviceDisconnect (linked : Linked x.broker) {key : Int}
    {impl : Broker.MyServiceImpl} (found : x.broker.factory.service key = some impl) :
    work { x with broker := { x.broker with
      factory := x.broker.factory.onDisconnect impl } } < work x := by
  obtain ⟨captured, made⟩ := linked.services key impl found
  have fewer := held_erase found made
  simp only [work, pipes, Broker.ConnectionFactory.onDisconnect, captured]
  omega

theorem work_broker (linked : Linked x.broker) {b : Broker.Action} {w : Broker.World}
    (other : ∀ key, b ≠ .mainReceives key) (delivers : Delivers (.broker b))
    (taken : Broker.step x.broker b = some w) : work { x with broker := w } < work x := by
  cases b with
  | addClient | sendRequest _ | closeClient _ | closeService _ => exact absurd delivers id
  | mainReceives key => exact absurd rfl (other key)
  | serviceReceives =>
    simp only [Broker.step, Broker.serviceReceives] at taken
    split at taken
    · cases taken
    next request rest queue =>
    cases taken
    exact work_serve queue
  | mainTakesReply =>
    simp only [Broker.step, Broker.mainTakesReply] at taken
    split at taken
    · cases taken
    next reply rest queue =>
    have took := work_take queue
    split at taken
    case h_1 =>
      cases taken
      omega
    case h_2 callback found =>
      cases taken
      have linked : Linked (x.broker.take reply rest) :=
        ⟨linked.captured, linked.receiver, linked.indices, linked.services, linked.unused⟩
      have ran := work_run (x := x) linked callback reply
      omega
  | clientReceives c =>
    simp only [Broker.step, Broker.clientReceives] at taken
    split at taken
    · cases taken
    next reply rest queue =>
    obtain ⟨-, ⟨⟩⟩ := Option.ite_none_right_eq_some.mp taken
    exact work_receive linked queue
  | clientDisconnect key =>
    simp only [Broker.step, Broker.clientDisconnect] at taken
    split at taken
    · cases taken
    next receiver found =>
    obtain ⟨-, ⟨⟩⟩ := Option.ite_none_left_eq_some.mp taken
    exact work_clientDisconnect linked found
  | serviceDisconnect key =>
    simp only [Broker.step, Broker.serviceDisconnect] at taken
    split at taken
    · cases taken
    next impl found =>
    obtain ⟨-, ⟨⟩⟩ := Option.ite_none_right_eq_some.mp taken
    exact work_serviceDisconnect linked found

theorem work_moves {y : World} {a : Action} (linked : Linked x.broker) (delivers : Delivers a)
    (moves : Moves x a y) : work y < work x := by
  cases moves with
  | late key receiver request rest notified found queue =>
    exact work_late (linked.indices key receiver found).2 queue
  | forward key receiver request rest unnotified found queue =>
    exact work_forward (linked.indices key receiver found).2 queue
  | broker b w other taken => exact work_broker linked other delivers taken
  | serviceDies => exact absurd delivers id
  | remoteDisconnect dead unnotified =>
    simp only [work, pipes, remoteDisconnect, unnotified]
    exact Nat.lt_succ_self _

end Work

section Enabled
variable {x : World}

def Goes (x : World) : Prop := ∃ a y, Delivers a ∧ machine.step x a = some y

theorem goes_of_broker {b : Broker.Action} (other : ∀ key, b ≠ .mainReceives key)
    (delivers : Delivers (.broker b)) (enabled : (Broker.step x.broker b).isSome) : Goes x := by
  obtain ⟨w, taken⟩ := Option.isSome_iff_exists.mp enabled
  refine ⟨.broker b, { x with broker := w }, delivers, ?_⟩
  rw [step_broker other, taken]
  rfl

theorem goes_of_fromService (waiting : x.broker.fromService ≠ []) : Goes x := by
  apply goes_of_broker (b := .mainTakesReply)
  · intro key same
    cases same
  · trivial
  · cases queue : x.broker.fromService with
    | nil => exact absurd queue waiting
    | cons reply rest =>
      cases found : x.broker.helper.pending reply.request <;>
        simp [Broker.step, Broker.mainTakesReply, queue, found]

theorem goes_of_toService (waiting : x.broker.toService ≠ []) : Goes x := by
  apply goes_of_broker (b := .serviceReceives)
  · intro key same
    cases same
  · trivial
  · cases queue : x.broker.toService with
    | nil => exact absurd queue waiting
    | cons request rest => simp [Broker.step, Broker.serviceReceives, queue]

theorem goes_of_toMain (linked : Linked x.broker) {c : Nat}
    (connected : (x.broker.clients c).connected = true)
    (waiting : (x.broker.clients c).toMain ≠ []) : Goes x := by
  obtain ⟨key, receiver, found, rfl⟩ := linked.receiver c connected
  cases queue : (x.broker.clients receiver.client).toMain with
  | nil => exact absurd queue waiting
  | cons request rest =>
    refine ⟨.broker (.mainReceives key), ?_⟩
    cases late : x.notified with
    | true =>
      exact ⟨_, trivial, by simp [machine, step, mainReceives, late, found, queue]; rfl⟩
    | false =>
      exact ⟨_, trivial, by
        simp [machine, step, mainReceives, late, found, queue, Broker.mainReceives]; rfl⟩

theorem goes_of_fromMain {c : Nat} (connected : (x.broker.clients c).connected = true)
    (waiting : (x.broker.clients c).fromMain ≠ []) : Goes x := by
  apply goes_of_broker (b := .clientReceives c)
  · intro key same
    cases same
  · trivial
  · cases queue : (x.broker.clients c).fromMain with
    | nil => exact absurd queue waiting
    | cons reply rest => simp [Broker.step, Broker.clientReceives, queue, connected]

theorem goes_of_busy (linked : Linked x.broker) (busy : ¬ Quiescent x) : Goes x := by
  by_contra stuck
  have fromService : x.broker.fromService = [] := by
    by_contra waiting
    exact stuck (goes_of_fromService waiting)
  refine busy ⟨?_, fromService, fun c connected => ⟨?_, ?_⟩, ?_, fun key receiver found => ?_,
    fun key impl found => ?_⟩
  · by_contra waiting
    exact stuck (goes_of_toService waiting)
  · by_contra waiting
    exact stuck (goes_of_toMain linked connected waiting)
  · by_contra waiting
    exact stuck (goes_of_fromMain connected waiting)
  · by_contra unnotified
    rw [not_or, Bool.not_eq_true, Bool.not_eq_true] at unnotified
    refine stuck ⟨.remoteDisconnect, remoteDisconnect x, trivial, ?_⟩
    simp [machine, step, unnotified, fromService]
  · by_contra gone
    apply stuck
    apply goes_of_broker (b := .clientDisconnect key)
    · intro other same
      cases same
    · trivial
    · simp [Broker.step, Broker.clientDisconnect, found, gone]
  · by_contra closed
    apply stuck
    apply goes_of_broker (b := .serviceDisconnect key)
    · intro other same
      cases same
    · trivial
    · rw [Bool.not_eq_false] at closed
      simp [Broker.step, Broker.serviceDisconnect, found, closed]

end Enabled

/-- Whatever has happened, deliveries alone go on for a bounded number of steps, in any
order, and can lead to rest. They only stop where nothing is on its way, and if the service is
alive there, every connected client has a reply to each of its requests. -/
theorem deliveries_settle (as : List Action) :
    let x := machine.exec {} as
    (∀ bs, (∀ b ∈ bs, Delivers b) → (machine.taken x bs).length ≤ work x) ∧
    (∃ bs, (∀ b ∈ bs, Delivers b) ∧ Quiescent (machine.exec x bs)) ∧
    (¬ Goes x → Quiescent x ∧ (x.alive = true → ∀ c, (x.broker.clients c).connected = true →
      ∀ request < (x.broker.clients c).requests,
        ∃ reply ∈ (x.broker.clients c).received, reply.request = request)) := by
  intro x
  have inv : Settling x := Machine.exec_invariant settling_step start_settling as
  have less : ∀ s a t, Settling s → Delivers a → machine.step s a = some t →
      Settling t ∧ work t < work s := by
    intro s a t inv delivers moved
    exact ⟨settling_step s a t inv moved, work_moves inv.linked delivers (moves_of_step moved)⟩
  refine ⟨fun bs delivers => Machine.taken_length_le less inv delivers,
    Machine.exists_rest less (fun s inv busy => goes_of_busy inv.linked busy) inv,
    fun stuck => ?_⟩
  have quiet : Quiescent x := by
    by_contra busy
    exact stuck (goes_of_busy inv.linked busy)
  exact ⟨quiet, fun alive => (inv.served alive).answered.replies quiet⟩

end ChromiumDemo.BrokerProgress
