import ChromiumDemo.BrokerFlow
import Mathlib.Data.List.Nodup

/-! The ids of the broker and the replies that its clients get. Before a counter
wraps around, the ids count the responses and the indices count the clients, so no
emplace meets its own key, whichever disconnect handlers have run in between. -/

namespace ChromiumDemo.Broker
open TransitionSystem AssocMap

def Bounded (w : World) : Prop :=
  w.nextClient < 2 ^ 31 - 1 ∧ w.forwarded.length < 2 ^ 31 - 1

instance (w : World) : Decidable (Bounded w) := by
  unfold Bounded
  infer_instance

/-- The response to request number `k`, which is also the number of its pipe. -/
def replyTo (k : Nat) : Reply := ⟨k, k + 1, ⟨k, true⟩⟩

def entryOf (k : Nat) : Int × MyServiceImpl := (k + 1, ⟨⟨k, false⟩, k + 1⟩)

def indexOf (client : Nat) : Int := client + 1

structure Numbered (w : World) : Prop where
  clientIndex : w.helper.clientIndex = w.nextClient
  indices : w.indices = (List.range w.nextClient).map indexOf
  receivers : ∀ key receiver, w.helper.receivers key = some receiver →
    receiver.client < w.nextClient ∧ receiver.captured = key ∧ key = indexOf receiver.client
  clientId : w.factory.clientId = w.nextPipe
  produced : w.produced = (List.range w.nextPipe).map replyTo
  impls : w.impls = (List.range w.nextPipe).map entryOf
  service : ∀ key impl, w.factory.service key = some impl → (key, impl) ∈ w.impls
  dropped : w.dropped = 0

theorem start_numbered : Numbered {} where
  clientIndex := rfl
  indices := rfl
  receivers _ _ found := nomatch found
  clientId := rfl
  produced := rfl
  impls := rfl
  service _ _ found := nomatch found
  dropped := rfl

theorem increment_of_lt {n : Nat} (lt : n < 2 ^ 31 - 1) : increment n = n + 1 := by
  unfold increment
  split
  · omega
  · rfl

theorem Numbered.index_free {w : World} (h : Numbered w) :
    w.helper.receivers (indexOf w.nextClient) = none := by
  apply Option.eq_none_iff_forall_ne_some.mpr
  intro receiver found
  have known := h.receivers _ receiver found
  unfold indexOf at known
  omega

theorem Numbered.id_free {w : World} (h : Numbered w) :
    w.factory.service (w.nextPipe + 1) = none := by
  apply Option.eq_none_iff_forall_ne_some.mpr
  intro impl found
  have known := h.service _ impl found
  rw [h.impls] at known
  obtain ⟨k, lt, same⟩ := List.mem_map.mp known
  have key := congrArg Prod.fst same
  simp only [entryOf] at key
  rw [List.mem_range] at lt
  omega

theorem Numbered.addClient {w : World} (h : Numbered w) (bound : w.nextClient < 2 ^ 31 - 1) :
    Numbered (addClient w) := by
  have added : w.helper.addClient w.nextClient =
      ({ w.helper with
        clientIndex := indexOf w.nextClient
        receivers := Function.update w.helper.receivers (indexOf w.nextClient)
          (some ⟨w.nextClient, indexOf w.nextClient⟩) }, indexOf w.nextClient, true) := by
    have fresh : increment w.helper.clientIndex = indexOf w.nextClient := by
      rw [h.clientIndex, increment_of_lt bound, indexOf]
    simp only [ConnectionHelper.addClient, fresh, emplace_of_none h.index_free]
  unfold Broker.addClient
  rw [added]
  refine ⟨?_, ?_, fun key receiver found => ?_, h.clientId, h.produced, h.impls, h.service,
    h.dropped⟩
  · simp [indexOf]
  · simp [h.indices, List.range_succ]
  · simp only [Function.update_apply] at found
    split at found
    case isTrue same =>
      rw [← Option.some.inj found]
      exact ⟨Nat.lt_succ_self _, same.symm, same⟩
    case isFalse =>
      have known := h.receivers key receiver found
      exact ⟨Nat.lt_succ_of_lt known.1, known.2⟩

theorem Numbered.serve {w : World} (h : Numbered w) {request : Nat} (rest : List Nat)
    (turn : request = w.nextPipe) (bound : w.nextPipe < 2 ^ 31 - 1) :
    Numbered (w.serve request rest) := by
  have made : w.factory.establishChannel w.nextPipe =
      ({ clientId := w.nextPipe + 1
         service := Function.update w.factory.service (w.nextPipe + 1)
           (some (entryOf w.nextPipe).2) }, entryOf w.nextPipe,
        ((replyTo w.nextPipe).id, (replyTo w.nextPipe).handle), true) := by
    simp only [ConnectionFactory.establishChannel, h.clientId, increment_of_lt bound,
      emplace_of_none h.id_free]
    rfl
  unfold World.serve
  rw [made, turn]
  refine ⟨h.clientIndex, h.indices, h.receivers, ?_, ?_, ?_, fun key impl found => ?_, h.dropped⟩
  · simp
  · simp [h.produced, List.range_succ, replyTo]
  · simp [h.impls, List.range_succ]
  · simp only [Function.update_apply] at found
    rw [List.mem_append, List.mem_singleton]
    split at found
    case isTrue same =>
      right
      rw [← Option.some.inj found, same]
      rfl
    case isFalse => exact Or.inl (h.service key impl found)

theorem Numbered.clientDisconnect {w : World} (h : Numbered w) (receiver : Receiver) :
    Numbered { w with helper := w.helper.onDisconnect receiver } :=
  ⟨h.clientIndex, h.indices, fun key r found => h.receivers key r (erase_eq_some.mp found).2,
    h.clientId, h.produced, h.impls, h.service, h.dropped⟩

theorem Numbered.serviceDisconnect {w : World} (h : Numbered w) (impl : MyServiceImpl) :
    Numbered { w with factory := w.factory.onDisconnect impl } :=
  ⟨h.clientIndex, h.indices, h.receivers, h.clientId, h.produced, h.impls,
    fun key i found => h.service key i (erase_eq_some.mp found).2, h.dropped⟩

theorem bounded_moves {w d : World} (moves : Moves w d) (bound : Bounded d) : Bounded w := by
  cases moves with
  | addClient => exact ⟨Nat.lt_of_succ_lt bound.1, bound.2⟩
  | forward callback rest queue =>
    refine ⟨bound.1, Nat.lt_of_succ_lt ?_⟩
    have longer := bound.2
    rwa [World.forward, List.length_append] at longer
  | run callback reply rest queue found =>
    unfold World.run at bound
    split at bound
    · exact bound
    · exact bound
  | _ => exact bound

theorem numbered_moves {w d : World} (flow : Flow w) (h : Numbered w) (moves : Moves w d)
    (bound : Bounded d) : Numbered d := by
  have before := bounded_moves moves bound
  cases moves with
  | addClient => exact h.addClient before.1
  | serve request rest queue =>
    have turn := flow.next_request queue
    have count : w.produced.length = w.nextPipe := by simp [h.produced]
    have within := before.2
    exact h.serve rest (by omega) (by omega)
  | run callback reply rest queue found =>
    unfold World.run
    split <;> exact ⟨h.clientIndex, h.indices, h.receivers, h.clientId, h.produced, h.impls,
      h.service, h.dropped⟩
  | clientDisconnect key receiver found => exact h.clientDisconnect receiver
  | serviceDisconnect key impl found => exact h.serviceDisconnect impl
  | _ =>
    exact ⟨h.clientIndex, h.indices, h.receivers, h.clientId, h.produced, h.impls, h.service,
      h.dropped⟩

theorem route_eq_some {forwarded : List Responder} {c : Nat} {reply r : Reply} :
    route forwarded c reply = some r ↔ ∃ callback, forwarded[reply.request]? = some callback ∧
      callback.client = c ∧ { reply with request := callback.request } = r := by
  unfold route requestFor
  cases found : forwarded[reply.request]? with
  | none => simp
  | some callback => simp

theorem filterMap_sublist_map {α β : Type} {g : α → Option β} {f : α → β}
    (agree : ∀ a b, g a = some b → b = f a) (l : List α) : (l.filterMap g).Sublist (l.map f) := by
  induction l with
  | nil => exact List.Sublist.refl []
  | cons a l ih =>
    rw [List.map_cons]
    cases value : g a with
    | none =>
      rw [List.filterMap_cons_none value]
      exact ih.cons _
    | some b =>
      rw [List.filterMap_cons_some value, agree a b value]
      exact ih.cons_cons _

theorem range_filterMap {α β : Type} (l : List α) (g : α → Option β) (n : Nat) :
    (List.range n).filterMap (fun k => l[k]?.bind g) = (l.take n).filterMap g := by
  induction n with
  | zero => rfl
  | succ n ih =>
    rw [List.range_succ, List.filterMap_append, ih, List.take_add_one, List.filterMap_append]
    cases found : l[n]? <;> simp [found, List.filterMap_cons]

theorem Flow.ids_sublist {w : World} (h : Flow w) (c : Nat) :
    ((w.clients c).replies.map Reply.id).Sublist (w.produced.map Reply.id) := by
  have seen := (h.delivered c).map Reply.id
  rw [List.map_filterMap] at seen
  have answered : (w.answered.map Reply.id).Sublist (w.produced.map Reply.id) := by
    rw [h.taken, List.map_append]
    exact List.sublist_append_left _ _
  refine (seen.trans (filterMap_sublist_map ?_ _)).trans answered
  intro reply id sees
  obtain ⟨r, routed, rfl⟩ := Option.map_eq_some_iff.mp sees
  obtain ⟨callback, -, -, rfl⟩ := route_eq_some.mp routed
  rfl

theorem Flow.requests_sublist {w : World} (h : Flow w) (c : Nat) :
    ((w.clients c).replies.map Reply.request).Sublist (List.range (w.clients c).requests) := by
  have seen := (h.delivered c).map Reply.request
  have number (reply : Reply) : (route w.forwarded c reply).map Reply.request =
      w.forwarded[reply.request]?.bind (requestFor c) := by
    rw [route, Option.map_map]
    exact Option.map_id'
  have routed : (w.answered.filterMap (route w.forwarded c)).map Reply.request =
      (w.forwarded.take w.answered.length).filterMap (requestFor c) := by
    rw [List.map_filterMap, ← range_filterMap, ← h.answered_range, List.filterMap_map]
    exact List.filterMap_congr fun reply _ => number reply
  rw [routed] at seen
  rw [← h.sent c]
  exact (seen.trans ((List.take_sublist _ _).filterMap _)).trans (List.sublist_append_left _ _)

/-- The clients get their own replies once, no id or index is handed out twice, no
emplace drops an entry, and an id names the pipe of one service. -/
structure Safe (w : World) : Prop where
  own : ∀ c, ∀ r ∈ (w.clients c).received, r.request < (w.clients c).requests ∧
    ∃ reply ∈ w.produced, route w.forwarded c reply = some r
  once : ∀ c, ((w.clients c).received.map Reply.request).Nodup ∧
    ((w.clients c).received.map Reply.id).Nodup
  alone : ∀ c d, ∀ r ∈ (w.clients c).received, ∀ s ∈ (w.clients d).received, r.id = s.id → c = d
  kept : ∀ reply ∈ w.answered, ∃ callback, w.forwarded[reply.request]? = some callback ∧
    ({ reply with request := callback.request } ∈ (w.clients callback.client).replies ∨
      w.closed reply.handle.pipe = true)
  ids : (w.produced.map Reply.id).Nodup
  indices : w.indices.Nodup
  dropped : w.dropped = 0
  bound : ∀ reply ∈ w.produced, ∃ impl, (reply.id, impl) ∈ w.impls
  peer : ∀ reply ∈ w.produced, ∀ entry ∈ w.impls,
    entry.1 = reply.id ↔ entry.2.receiver.peer = reply.handle
  service : ∀ key impl, w.factory.service key = some impl → (key, impl) ∈ w.impls

theorem Numbered.ids_nodup {w : World} (h : Numbered w) : (w.produced.map Reply.id).Nodup := by
  rw [h.produced, List.map_map]
  apply List.nodup_range.map
  intro j k same
  simp only [Function.comp_apply, replyTo] at same
  omega

theorem Numbered.indices_nodup {w : World} (h : Numbered w) : w.indices.Nodup := by
  rw [h.indices]
  apply List.nodup_range.map
  intro c d same
  unfold indexOf at same
  omega

theorem Numbered.eq_of_id {w : World} (h : Numbered w) {reply other : Reply}
    (member : reply ∈ w.produced) (another : other ∈ w.produced) (same : reply.id = other.id) :
    reply = other := by
  rw [h.produced] at member another
  obtain ⟨j, -, rfl⟩ := List.mem_map.mp member
  obtain ⟨k, -, rfl⟩ := List.mem_map.mp another
  have equal : j = k := by
    simp only [replyTo] at same
    omega
  rw [equal]

theorem safe_of {w : World} (flow : Flow w) (h : Numbered w) : Safe w := by
  have received (c : Nat) : (w.clients c).received.Sublist (w.clients c).replies :=
    List.sublist_append_left _ _
  have own (c : Nat) (r : Reply) (member : r ∈ (w.clients c).received) :
      ∃ reply ∈ w.produced, route w.forwarded c reply = some r := by
    have seen := (flow.delivered c).subset ((received c).subset member)
    obtain ⟨reply, answered, routed⟩ := List.mem_filterMap.mp seen
    refine ⟨reply, ?_, routed⟩
    rw [flow.taken]
    exact List.mem_append_left _ answered
  refine ⟨fun c r member => ⟨?_, own c r member⟩, fun c => ⟨?_, ?_⟩, ?_, ?_, h.ids_nodup,
    h.indices_nodup, h.dropped, ?_, ?_, h.service⟩
  · have request := (((received c).map Reply.request).trans (flow.requests_sublist c)).subset
    exact List.mem_range.mp (request (List.mem_map_of_mem member))
  · exact List.nodup_range.sublist (((received c).map _).trans (flow.requests_sublist c))
  · exact h.ids_nodup.sublist (((received c).map _).trans (flow.ids_sublist c))
  · intro c d r member s another same
    obtain ⟨reply, made, routed⟩ := own c r member
    obtain ⟨other, too, sees⟩ := own d s another
    obtain ⟨callback, found, client, rfl⟩ := route_eq_some.mp routed
    obtain ⟨callback', found', client', rfl⟩ := route_eq_some.mp sees
    rw [← h.eq_of_id made too same, found] at found'
    rw [← client, ← client', Option.some.inj found']
  · intro reply member
    have found := List.getElem?_eq_getElem (flow.answered_lt member)
    exact ⟨_, found, flow.kept _ reply member _ (route_own found)⟩
  · intro reply member
    rw [h.produced] at member
    obtain ⟨k, lt, rfl⟩ := List.mem_map.mp member
    rw [h.impls]
    exact ⟨_, List.mem_map_of_mem lt⟩
  · intro reply member entry made
    rw [h.produced] at member
    rw [h.impls] at made
    obtain ⟨j, -, rfl⟩ := List.mem_map.mp member
    obtain ⟨k, -, rfl⟩ := List.mem_map.mp made
    simp only [entryOf, replyTo, PipeEnd.peer, Bool.not_false, PipeEnd.mk.injEq, and_true]
    omega

def Ordered (w : World) : Prop := Flow w ∧ (Bounded w → Numbered w)

theorem ordered_step (w : World) (a : Action) (d : World) (h : Ordered w)
    (taken : machine.step w a = some d) : Ordered d := by
  have moves := moves_of_step taken
  refine ⟨flow_moves h.1 moves, fun bound => ?_⟩
  exact numbered_moves h.1 (h.2 (bounded_moves moves bound)) moves bound

/-- Every schedule of clients, main and service is safe until a counter wraps around. -/
theorem protocol_safe (schedule : List Action) (bounded : Bounded (machine.exec {} schedule)) :
    Safe (machine.exec {} schedule) := by
  have start : Ordered {} := ⟨start_flow, fun _ => start_numbered⟩
  have ordered := Machine.exec_invariant ordered_step start schedule
  exact safe_of ordered.1 (ordered.2 bounded)

theorem protocol_safe_two_clients : Safe (machine.exec {} [.addClient, .sendRequest 0, .addClient,
    .sendRequest 1, .mainReceives 2, .mainReceives 1, .serviceReceives, .sendRequest 0,
    .serviceReceives, .mainTakesReply, .mainTakesReply, .clientReceives 0, .clientReceives 1,
    .mainReceives 1, .closeClient 0, .clientDisconnect 1, .serviceReceives, .mainTakesReply,
    .serviceDisconnect 3]) :=
  protocol_safe _ (by decide)

end ChromiumDemo.Broker
