import ChromiumDemo.BrokerWorld
import Mathlib.Data.List.Range

/-! Requests and replies on their way through the broker. Every pipe is a queue,
so what has gone in is what has come out followed by what is still there, at each
hop. A client is sent at most the replies to its own requests, and a response that
main has taken is on its way to its client unless its handle was closed. -/

namespace ChromiumDemo.Broker
open TransitionSystem AssocMap

/-- The request of client `c` that a callback answers. -/
def requestFor (c : Nat) (callback : Responder) : Option Nat :=
  if callback.client = c then some callback.request else none

/-- A response of the service as client `c` sees it, if it answers one of its requests. -/
def route (forwarded : List Responder) (c : Nat) (reply : Reply) : Option Reply :=
  (forwarded[reply.request]?.bind (requestFor c)).map fun request =>
    { reply with request := request }

def Client.replies (client : Client) : List Reply := client.received ++ client.fromMain

structure Flow (w : World) : Prop where
  numbers : w.helper.nextRequest = w.forwarded.length
  served : w.produced.map Reply.request ++ w.toService = List.range w.forwarded.length
  taken : w.produced = w.answered ++ w.fromService
  pending : ∀ k, w.answered.length ≤ k → w.helper.pending k = w.forwarded[k]?
  sent : ∀ c, w.forwarded.filterMap (requestFor c) ++ (w.clients c).toMain =
    List.range (w.clients c).requests
  delivered : ∀ c, (w.clients c).replies.Sublist (w.answered.filterMap (route w.forwarded c))
  kept : ∀ c, ∀ reply ∈ w.answered, ∀ r, route w.forwarded c reply = some r →
    r ∈ (w.clients c).replies ∨ w.closed reply.handle.pipe = true
  unused : ∀ c, w.nextClient ≤ c → w.clients c = {}

theorem start_flow : Flow {} where
  numbers := rfl
  served := rfl
  taken := rfl
  pending _ _ := rfl
  sent _ := rfl
  delivered _ := List.Sublist.refl []
  kept _ _ member := nomatch member
  unused _ _ := rfl

@[simp] theorem setClient_nextClient (c : Nat) (client : Client) (w : World) :
    (w.setClient c client).nextClient = w.nextClient := rfl

theorem setClient_clients (c d : Nat) (client : Client) (w : World) :
    (w.setClient c client).clients d = if d = c then client else w.clients d :=
  Function.update_apply ..

theorem prefix_range {xs ys : List Nat} {n : Nat} (h : xs ++ ys = List.range n) :
    xs = List.range xs.length := by
  have lengths := congrArg List.length h
  rw [List.length_append, List.length_range] at lengths
  have taken := congrArg (List.take xs.length) h
  rw [List.take_left, List.take_range, Nat.min_eq_left (by omega)] at taken
  exact taken

theorem split_range {xs ys : List Nat} {k n : Nat} (h : xs ++ k :: ys = List.range n) :
    k = xs.length ∧ k < n := by
  have at_end := congrArg (fun l => l[xs.length]?) h
  have found : (List.range n)[xs.length]? = some k := by simpa using at_end.symm
  obtain ⟨lt, same⟩ := List.getElem?_eq_some_iff.mp found
  rw [List.length_range] at lt
  rw [List.getElem_range] at same
  omega

theorem Flow.produced_range {w : World} (h : Flow w) :
    w.produced.map Reply.request = List.range w.produced.length := by
  simpa using prefix_range h.served

theorem Flow.answered_range {w : World} (h : Flow w) :
    w.answered.map Reply.request = List.range w.answered.length := by
  have served := h.produced_range
  rw [h.taken, List.map_append] at served
  simpa using prefix_range served

theorem Flow.answered_lt {w : World} (h : Flow w) {reply : Reply} (member : reply ∈ w.answered) :
    reply.request < w.forwarded.length := by
  have served : reply.request ∈ w.produced.map Reply.request ++ w.toService := by
    rw [h.taken, List.map_append, List.append_assoc]
    exact List.mem_append_left _ (List.mem_map_of_mem member)
  rw [h.served] at served
  exact List.mem_range.mp served

theorem Flow.client_lt {w : World} (h : Flow w) {callback : Responder}
    (member : callback ∈ w.forwarded) : callback.client < w.nextClient := by
  by_contra le
  have sent := h.sent callback.client
  rw [h.unused callback.client (by omega)] at sent
  have answers : requestFor callback.client callback = some callback.request := if_pos rfl
  have issued := List.mem_append_left [] (List.mem_filterMap.mpr ⟨callback, member, answers⟩)
  rw [sent] at issued
  cases issued

theorem Flow.next_request {w : World} (h : Flow w) {request : Nat} {rest : List Nat}
    (queue : w.toService = request :: rest) :
    request = w.produced.length ∧ request < w.forwarded.length := by
  have served := h.served
  rw [queue] at served
  simpa using split_range served

theorem Flow.next_reply {w : World} (h : Flow w) {reply : Reply} {rest : List Reply}
    (queue : w.fromService = reply :: rest) :
    reply.request = w.answered.length ∧ reply.request < w.forwarded.length := by
  have served := h.served
  rw [h.taken, queue, List.map_append, List.map_cons, List.append_assoc] at served
  simpa using split_range served

theorem route_append {forwarded : List Responder} {reply : Reply}
    (known : reply.request < forwarded.length) (callback : Responder) (c : Nat) :
    route (forwarded ++ [callback]) c reply = route forwarded c reply := by
  rw [route, List.getElem?_append_left known, route]

theorem route_own {forwarded : List Responder} {reply : Reply} {callback : Responder}
    (found : forwarded[reply.request]? = some callback) :
    route forwarded callback.client reply = some { reply with request := callback.request } := by
  rw [route, found, Option.bind_some, requestFor, if_pos rfl]
  rfl

theorem route_other {forwarded : List Responder} {reply : Reply} {callback : Responder} {c : Nat}
    (found : forwarded[reply.request]? = some callback) (other : callback.client ≠ c) :
    route forwarded c reply = none := by
  rw [route, found, Option.bind_some, requestFor, if_neg other]
  rfl

theorem Flow.setClient {w : World} (h : Flow w) (c : Nat) {client : Client}
    (requests : client.requests = (w.clients c).requests)
    (toMain : client.toMain = (w.clients c).toMain)
    (replies : client.replies = (w.clients c).replies)
    (unused : w.nextClient ≤ c → client = {}) : Flow (w.setClient c client) := by
  refine ⟨h.numbers, h.served, h.taken, h.pending, fun d => ?_, fun d => ?_,
    fun d reply member r routed => ?_, fun d le => ?_⟩
  all_goals
    rw [setClient_clients]
    split
  case refine_1.isTrue same => rw [requests, toMain, same]; exact h.sent c
  case refine_1.isFalse => exact h.sent d
  case refine_2.isTrue same => rw [replies, same]; exact h.delivered c
  case refine_2.isFalse => exact h.delivered d
  case refine_3.isTrue same => rw [replies]; exact h.kept c reply member r (same ▸ routed)
  case refine_3.isFalse => exact h.kept d reply member r routed
  case refine_4.isTrue same => exact unused (same ▸ le)
  case refine_4.isFalse => exact h.unused d le

theorem Flow.addClient {w : World} (h : Flow w) : Flow (addClient w) := by
  have old := h.unused w.nextClient (Nat.le_refl _)
  refine ⟨h.numbers, h.served, h.taken, h.pending, fun c => ?_, fun c => ?_,
    fun c reply member r routed => ?_, fun c le => ?_⟩
  · have sent := h.sent c
    simp only [Broker.addClient, Function.update_apply]
    split
    case isTrue same =>
      rw [same, old] at sent
      rw [same]
      exact sent
    case isFalse => exact sent
  · simp only [Broker.addClient, Function.update_apply]
    split
    case isTrue => exact List.nil_sublist _
    case isFalse => exact h.delivered c
  · have kept := h.kept c reply member r routed
    simp only [Broker.addClient, Function.update_apply]
    split
    case isTrue same =>
      rw [same, old] at kept
      exact kept
    case isFalse => exact kept
  · simp only [Broker.addClient] at le ⊢
    rw [Function.update_of_ne (by omega)]
    exact h.unused c (by omega)

theorem Flow.send {w : World} (h : Flow w) {c : Nat} (connected : (w.clients c).connected) :
    Flow (w.send c) := by
  refine ⟨h.numbers, h.served, h.taken, h.pending, fun d => ?_, fun d => ?_,
    fun d reply member r routed => ?_, fun d le => ?_⟩
  all_goals
    rw [World.send, setClient_clients]
    split
  case refine_1.isTrue same =>
    have sent := h.sent c
    rw [same, List.range_succ, ← sent, List.append_assoc]
    rfl
  case refine_1.isFalse => exact h.sent d
  case refine_2.isTrue same => rw [same]; exact h.delivered c
  case refine_2.isFalse => exact h.delivered d
  case refine_3.isTrue same => exact h.kept c reply member r (same ▸ routed)
  case refine_3.isFalse => exact h.kept d reply member r routed
  case refine_4.isTrue same =>
    rw [← same, h.unused d le] at connected
    cases connected
  case refine_4.isFalse => exact h.unused d le

theorem Flow.forward {w : World} (h : Flow w) (callback : Responder) {rest : List Nat}
    (queue : (w.clients callback.client).toMain = callback.request :: rest) :
    Flow (w.forward callback rest) := by
  have numbers := h.numbers
  have replies (c : Nat) :
      ((w.forward callback rest).clients c).replies = (w.clients c).replies := by
    simp only [World.forward, Function.update_apply]
    split
    case isTrue same => rw [same]; rfl
    case isFalse => rfl
  have routed (c : Nat) {reply : Reply} (member : reply ∈ w.answered) :
      route (w.forward callback rest).forwarded c reply = route w.forwarded c reply :=
    route_append (h.answered_lt member) callback c
  refine ⟨?_, ?_, h.taken, fun k le => ?_, fun c => ?_, fun c => ?_,
    fun c reply member r sees => ?_, fun c le => ?_⟩
  · simp [World.forward, ConnectionHelper.establishChannel, numbers]
  · simp only [World.forward, ConnectionHelper.establishChannel, numbers, List.length_append,
      List.length_singleton, List.range_succ]
    rw [← List.append_assoc, ← h.served]
  · simp only [World.forward, ConnectionHelper.establishChannel, numbers, Function.update_apply]
    split
    case isTrue same => rw [same, List.getElem?_concat_length]
    case isFalse differ =>
      rw [h.pending k le, List.getElem?_append]
      split
      · rfl
      · rw [List.getElem?_eq_none (by omega), List.getElem?_eq_none (by simp; omega)]
  · have sent := h.sent c
    simp only [World.forward, Function.update_apply, List.filterMap_append]
    by_cases same : c = callback.client
    · subst same
      rw [queue] at sent
      simpa [requestFor] using sent
    · have other : callback.client ≠ c := fun e => same e.symm
      simpa [requestFor, same, other] using sent
  · rw [replies, show (w.forward callback rest).answered = w.answered from rfl,
      List.filterMap_congr fun reply member => routed c member]
    exact h.delivered c
  · rw [replies]
    exact h.kept c reply member r ((routed c member).symm.trans sees)
  · have unused := h.unused c le
    simp only [World.forward, Function.update_apply]
    split
    case isTrue same =>
      rw [← same, unused] at queue
      cases queue
    case isFalse => exact unused

theorem Flow.serve {w : World} (h : Flow w) {request : Nat} {rest : List Nat}
    (queue : w.toService = request :: rest) : Flow (w.serve request rest) := by
  have served := h.served
  rw [queue] at served
  refine ⟨h.numbers, ?_, ?_, h.pending, h.sent, h.delivered, h.kept, h.unused⟩
  · simpa [World.serve] using served
  · simp only [World.serve]
    rw [h.taken, List.append_assoc]

theorem Flow.close {w : World} (h : Flow w) (pipe : Nat) : Flow (w.close pipe) := by
  refine ⟨h.numbers, h.served, h.taken, h.pending, h.sent, h.delivered,
    fun c reply member r routed => ?_, h.unused⟩
  apply (h.kept c reply member r routed).imp_right
  intro closed
  simp only [World.close, Function.update_apply]
  split
  · rfl
  · exact closed

theorem take_routed (w : World) (reply : Reply) (rest : List Reply) (c : Nat) :
    (w.take reply rest).answered.filterMap (route w.forwarded c) =
      w.answered.filterMap (route w.forwarded c) ++ (route w.forwarded c reply).toList := by
  rw [World.take, List.filterMap_append]
  cases answer : route w.forwarded c reply <;> simp [answer]

theorem Flow.take_taken {w : World} (h : Flow w) {reply : Reply} {rest : List Reply}
    (queue : w.fromService = reply :: rest) :
    w.produced = (w.take reply rest).answered ++ rest := by
  rw [h.taken, queue, World.take, List.append_assoc]
  rfl

theorem Flow.take_pending {w : World} (h : Flow w) {reply : Reply} {rest : List Reply}
    (queue : w.fromService = reply :: rest) (k : Nat)
    (le : (w.take reply rest).answered.length ≤ k) :
    (w.take reply rest).helper.pending k = w.forwarded[k]? := by
  have turn := (h.next_reply queue).1
  simp only [World.take, List.length_append, List.length_singleton] at le ⊢
  rw [erase, Function.update_of_ne (by omega)]
  exact h.pending k (by omega)

theorem Flow.pending_reply {w : World} (h : Flow w) {reply : Reply} {rest : List Reply}
    (queue : w.fromService = reply :: rest) :
    w.helper.pending reply.request = w.forwarded[reply.request]? :=
  h.pending _ (Nat.le_of_eq (h.next_reply queue).1.symm)

theorem close_closed (w : World) (pipe : Nat) : (w.close pipe).closed pipe = true :=
  Function.update_self ..

theorem Flow.discard {w : World} (h : Flow w) {reply : Reply} {rest : List Reply}
    (queue : w.fromService = reply :: rest) :
    Flow ((w.take reply rest).close reply.handle.pipe) := by
  have closing := h.close reply.handle.pipe
  refine ⟨h.numbers, h.served, h.take_taken queue, h.take_pending queue, h.sent, fun c => ?_,
    fun c other member r routed => ?_, h.unused⟩
  · show List.Sublist _ ((w.take reply rest).answered.filterMap (route w.forwarded c))
    rw [take_routed]
    exact (h.delivered c).trans (List.sublist_append_left _ _)
  · rcases List.mem_append.mp member with before | now
    · exact closing.kept c other before r routed
    · rw [List.mem_singleton.mp now]
      exact Or.inr (close_closed _ _)

theorem Flow.answer {w : World} (h : Flow w) {reply : Reply} {rest : List Reply}
    (queue : w.fromService = reply :: rest) {callback : Responder}
    (found : w.forwarded[reply.request]? = some callback) {client : Client}
    (requests : client.requests = (w.clients callback.client).requests)
    (toMain : client.toMain = (w.clients callback.client).toMain)
    (replies : client.replies =
      (w.clients callback.client).replies ++ [{ reply with request := callback.request }]) :
    Flow ((w.take reply rest).setClient callback.client client) := by
  have replies_mono (c : Nat) : (w.clients c).replies ⊆
      (((w.take reply rest).setClient callback.client client).clients c).replies := by
    rw [setClient_clients]
    split
    case isTrue same => rw [replies, same]; exact List.subset_append_left _ _
    case isFalse => exact List.Subset.refl _
  refine ⟨h.numbers, h.served, h.take_taken queue, h.take_pending queue, fun c => ?_, fun c => ?_,
    fun c other member r routed => ?_, fun c le => ?_⟩
  · rw [setClient_clients]
    split
    case isTrue same => rw [requests, toMain, same]; exact h.sent callback.client
    case isFalse => exact h.sent c
  · have delivered := h.delivered c
    show List.Sublist _ ((w.take reply rest).answered.filterMap (route w.forwarded c))
    rw [take_routed, setClient_clients]
    split
    case isTrue same =>
      subst same
      rw [replies, route_own found]
      exact delivered.append (List.Sublist.refl _)
    case isFalse => exact delivered.trans (List.sublist_append_left _ _)
  · rcases List.mem_append.mp member with before | now
    · exact (h.kept c other before r routed).imp_left fun received => replies_mono c received
    · left
      rw [List.mem_singleton.mp now] at routed
      by_cases same : callback.client = c
      · subst same
        have whole := (route_own found).symm.trans routed
        rw [setClient_clients, if_pos rfl, replies, ← Option.some.inj whole]
        exact List.mem_append_right _ (List.mem_singleton_self _)
      · have silent := (route_other found same).symm.trans routed
        cases silent
  · have lt := h.client_lt (List.mem_of_getElem? found)
    have other : c ≠ callback.client := by
      simp only [setClient_nextClient, World.take] at le
      omega
    rw [setClient_clients, if_neg other]
    exact h.unused c le

theorem Flow.run {w : World} (h : Flow w) {reply : Reply} {rest : List Reply}
    (queue : w.fromService = reply :: rest) {callback : Responder}
    (found : w.helper.pending reply.request = some callback) :
    Flow ((w.take reply rest).run callback reply) := by
  rw [h.pending_reply queue] at found
  unfold World.run
  split
  case isTrue => exact h.answer queue found rfl rfl (List.append_assoc ..).symm
  case isFalse => exact h.discard queue

theorem Flow.receive {w : World} (h : Flow w) {c : Nat} {reply : Reply} {rest : List Reply}
    (queue : (w.clients c).fromMain = reply :: rest) : Flow (w.receive c reply rest) := by
  refine h.setClient c ?_ ?_ ?_ ?_
  · rfl
  · rfl
  · rw [Client.replies, Client.replies, queue, List.append_assoc]
    rfl
  · intro le
    rw [h.unused c le] at queue
    cases queue

theorem flow_moves {w d : World} (h : Flow w) (moves : Moves w d) : Flow d := by
  cases moves with
  | addClient => exact h.addClient
  | send c connected => exact h.send connected
  | forward callback rest queue => exact h.forward callback queue
  | serve request rest queue => exact h.serve queue
  | take reply rest queue idle =>
    rw [h.pending_reply queue, List.getElem?_eq_none_iff] at idle
    have known := (h.next_reply queue).2
    omega
  | run callback reply rest queue found => exact h.run queue found
  | receive c reply rest queue => exact h.receive queue
  | closeClient c => exact h.setClient c rfl rfl rfl fun le => by rw [h.unused c le]
  | clientDisconnect key receiver found =>
    exact ⟨h.numbers, h.served, h.taken, h.pending, h.sent, h.delivered, h.kept, h.unused⟩
  | closeService pipe => exact h.close pipe
  | serviceDisconnect key impl found =>
    exact ⟨h.numbers, h.served, h.taken, h.pending, h.sent, h.delivered, h.kept, h.unused⟩

end ChromiumDemo.Broker
