import ChromiumDemo.BrokerProgress
import ChromiumDemo.BrokerProtocol

/-! What the broker is for: a clerk who takes one request of a client at a time and grants it
the next number. The broker with its two counters, its maps of receivers and callbacks and its
five kinds of pipes behaves as the clerk does at the moment in which the service takes a
request, and its clients are told the numbers that the clerk grants them. -/

namespace ChromiumDemo.BrokerRefinement
open TransitionSystem AssocMap Broker BrokerProgress

/-- A grant is a client and the number of a request of that client, and stands at the place
that it gives. -/
def clerk : Machine (List (Nat × Nat)) Nat where
  step grants c := some (grants ++ [(c, (grants.filter fun grant => grant.1 = c).length)])

/-- What a client is owed: its requests in their order, each with the number granted. -/
def owed (c : Nat) (grants : List (Nat × Nat)) : List (Nat × Int) :=
  (List.range grants.length).filterMap fun k : Nat =>
    grants[k]?.bind fun grant => if grant.1 = c then some (grant.2, (k : Int) + 1) else none

def InOrder (c : Nat) (grants : List (Nat × Nat)) : Prop :=
  (grants.filter fun grant => grant.1 = c).map Prod.snd =
    List.range (grants.filter fun grant => grant.1 = c).length

theorem clerk_in_order (c : Nat) (calls : List Nat) : InOrder c (clerk.exec [] calls) := by
  have start : InOrder c [] := rfl
  refine Machine.exec_invariant (fun grants d next inv moved => ?_) start calls
  obtain rfl := Option.some.inj moved
  unfold InOrder at inv ⊢
  by_cases same : d = c
  · subst same
    simp [List.filter_append, inv, List.range_succ]
  · simp [List.filter_append, inv, same]

def granted (w : World) : List (Nat × Nat) :=
  (w.forwarded.take w.produced.length).map fun callback => (callback.client, callback.request)

section Steps
variable {w : World}

theorem produced_le (flow : Flow w) : w.produced.length ≤ w.forwarded.length := by
  have lengths := congrArg List.length flow.served
  rw [List.length_append, List.length_map, List.length_range] at lengths
  omega

theorem request_number (flow : Flow w) {n : Nat} {callback : Responder}
    (found : w.forwarded[n]? = some callback) : callback.request =
      ((w.forwarded.take n).filter fun other => other.client = callback.client).length := by
  obtain ⟨lt, here⟩ := List.getElem?_eq_some_iff.mp found
  have cut : w.forwarded = w.forwarded.take n ++ callback :: w.forwarded.drop (n + 1) := by
    rw [← here, List.getElem_cons_drop, List.take_append_drop]
  have sent := flow.sent callback.client
  have own : requestFor callback.client callback = some callback.request := if_pos rfl
  rw [cut, List.filterMap_append, List.filterMap_cons_some own, List.append_assoc,
    List.cons_append] at sent
  rw [(split_range sent).1]
  generalize w.forwarded.take n = earlier
  induction earlier with
  | nil => rfl
  | cons other earlier ih =>
    by_cases same : other.client = callback.client
    · have counted : requestFor callback.client other = some other.request := if_pos same
      rw [List.filterMap_cons_some counted, List.length_cons, ih]
      simp [same]
    · have skipped : requestFor callback.client other = none := if_neg same
      rw [List.filterMap_cons_none skipped, ih]
      simp [same]

theorem granted_serve (flow : Flow w) {request : Nat} {rest : List Nat}
    (queue : w.toService = request :: rest) :
    ∃ c, clerk.step (granted w) c = some (granted (w.serve request rest)) := by
  have turn := flow.next_request queue
  obtain ⟨callback, found⟩ : ∃ callback, w.forwarded[w.produced.length]? = some callback := by
    apply Option.isSome_iff_exists.mp
    simp [← turn.1, turn.2]
  refine ⟨callback.client, congrArg some ?_⟩
  have later : granted (w.serve request rest) =
      granted w ++ [(callback.client, callback.request)] := by
    have taken : w.forwarded.take (w.produced.length + 1) =
        w.forwarded.take w.produced.length ++ [callback] := by
      rw [List.take_add_one, found]
      rfl
    simp only [granted, World.serve, List.length_append, List.length_singleton, taken,
      List.map_append, List.map_cons, List.map_nil]
  have number := request_number flow found
  rw [later, granted, List.filter_map, List.length_map, number]
  rfl

theorem granted_forward (flow : Flow w) (callback : Responder) (rest : List Nat) :
    granted (w.forward callback rest) = granted w := by
  have within := produced_le flow
  simp only [granted, World.forward]
  rw [List.take_append_of_le_length within]

theorem clerk_simulates (w : World) (a : Action) (d : World) (flow : Flow w)
    (moved : Broker.machine.step w a = some d) :
    granted d = granted w ∨ ∃ c, clerk.step (granted w) c = some (granted d) := by
  have moves := moves_of_step moved
  cases moves with
  | forward callback rest queue => exact .inl (granted_forward flow callback rest)
  | serve request rest queue => exact .inr (granted_serve flow queue)
  | run callback reply rest queue found =>
    left
    unfold World.run
    split <;> rfl
  | _ => exact .inl rfl

end Steps

structure Prompt (w : World) : Prop where
  bound : ∀ callback ∈ w.forwarded, (w.clients callback.client).connected = true →
    (w.helper.receivers callback.receiver).map Receiver.client = some callback.client
  replies : ∀ c, (w.clients c).connected = true →
    (w.clients c).replies = w.answered.filterMap (route w.forwarded c)

section Told
variable {w : World}

theorem start_prompt : Prompt {} where
  bound _ member := by cases member
  replies _ connected := by cases connected

theorem Prompt.setClient (h : Prompt w) (c : Nat) {client : Client}
    (connected : client.connected = true → (w.clients c).connected = true)
    (replies : client.replies = (w.clients c).replies) : Prompt (w.setClient c client) := by
  constructor
  · intro callback member linked
    rw [setClient_clients] at linked
    split at linked
    case isTrue same => exact h.bound callback member (same ▸ connected linked)
    case isFalse => exact h.bound callback member linked
  · intro d linked
    rw [setClient_clients] at linked ⊢
    split at linked
    case isTrue same =>
      rw [if_pos same, replies, same]
      exact h.replies c (connected linked)
    case isFalse differ =>
      rw [if_neg differ]
      exact h.replies d linked

theorem Prompt.addClient (h : Prompt w) (flow : Flow w) : Prompt (Broker.addClient w) := by
  have older {callback : Responder} (member : callback ∈ w.forwarded) :
      (Broker.addClient w).clients callback.client = w.clients callback.client := by
    have known := flow.client_lt member
    simp only [Broker.addClient]
    rw [Function.update_of_ne (by omega)]
  constructor
  · intro callback member linked
    rw [older member] at linked
    have before := h.bound callback member linked
    obtain ⟨receiver, found, own⟩ := Option.map_eq_some_iff.mp before
    have kept : (Broker.addClient w).helper.receivers callback.receiver = some receiver := by
      simp only [Broker.addClient, ConnectionHelper.addClient, emplace_apply]
      split
      case isTrue same => rw [← same, found]; rfl
      case isFalse => exact found
    rw [kept, ← own]
    rfl
  · intro c linked
    by_cases new : c = w.nextClient
    · subst new
      have none_routed : w.answered.filterMap (route w.forwarded w.nextClient) = [] := by
        rw [List.filterMap_eq_nil_iff]
        intro reply member
        have found := List.getElem?_eq_getElem (flow.answered_lt member)
        have known := flow.client_lt (List.mem_of_getElem? found)
        exact route_other found (by omega)
      simp [Broker.addClient, none_routed, Client.replies]
    · have same : (Broker.addClient w).clients c = w.clients c := by
        simp [Broker.addClient, Function.update_of_ne new]
      rw [same] at linked ⊢
      exact h.replies c linked

theorem Prompt.forward (h : Prompt w) (flow : Flow w) {callback : Responder} {rest : List Nat}
    (bound : (w.helper.receivers callback.receiver).map Receiver.client = some callback.client) :
    Prompt (w.forward callback rest) := by
  have clients (c : Nat) : (w.forward callback rest).clients c =
      if c = callback.client then { w.clients callback.client with toMain := rest }
      else w.clients c := Function.update_apply ..
  have told (c : Nat) : ((w.forward callback rest).clients c).connected = (w.clients c).connected ∧
      ((w.forward callback rest).clients c).replies = (w.clients c).replies := by
    rw [clients]
    split
    case isTrue same =>
      rw [same]
      exact ⟨rfl, rfl⟩
    case isFalse => exact ⟨rfl, rfl⟩
  constructor
  · intro other member linked
    rw [(told _).1] at linked
    rcases List.mem_append.mp member with old | new
    · exact h.bound other old linked
    · rw [List.mem_singleton.mp new]
      exact bound
  · intro c linked
    rw [(told c).1] at linked
    rw [(told c).2, h.replies c linked]
    exact List.filterMap_congr fun reply member =>
      (route_append (flow.answered_lt member) callback c).symm

theorem Prompt.run (h : Prompt w) (flow : Flow w) {reply : Reply} {rest : List Reply}
    (queue : w.fromService = reply :: rest) {callback : Responder}
    (found : w.helper.pending reply.request = some callback) :
    Prompt ((w.take reply rest).run callback reply) := by
  rw [flow.pending_reply queue] at found
  have others {c : Nat} (other : c ≠ callback.client) :
      (w.answered ++ [reply]).filterMap (route w.forwarded c) =
        w.answered.filterMap (route w.forwarded c) := by
    have none := route_other found (c := c) fun same => other same.symm
    rw [List.filterMap_append, List.filterMap_cons_none none, List.filterMap_nil, List.append_nil]
  unfold World.run
  split
  case isTrue bound =>
    refine ⟨fun other member linked => ?_, fun c linked => ?_⟩
    · rw [setClient_clients] at linked
      split at linked
      case isTrue same => exact h.bound other member (same ▸ linked)
      case isFalse => exact h.bound other member linked
    · rw [setClient_clients] at linked ⊢
      change _ = (w.answered ++ [reply]).filterMap (route w.forwarded c)
      split at linked
      case isTrue same =>
        subst same
        have before := h.replies callback.client linked
        rw [if_pos rfl, List.filterMap_append, ← before, List.filterMap_cons_some (route_own found)]
        exact (List.append_assoc ..).symm
      case isFalse differ =>
        rw [if_neg differ, others differ]
        exact h.replies c linked
  case isFalse unbound =>
    refine ⟨h.bound, fun c linked => ?_⟩
    have differ : c ≠ callback.client := by
      rintro rfl
      exact unbound (h.bound callback (List.mem_of_getElem? found) linked)
    change (w.clients c).replies = (w.answered ++ [reply]).filterMap (route w.forwarded c)
    rw [others differ]
    exact h.replies c linked

theorem Prompt.clientDisconnect (h : Prompt w) (linked : Linked w) {key : Int}
    {receiver : Receiver} (found : w.helper.receivers key = some receiver)
    (gone : (w.clients receiver.client).connected = false) :
    Prompt { w with helper := w.helper.onDisconnect receiver } := by
  refine ⟨fun callback member connected => ?_, h.replies⟩
  obtain ⟨own, known, same⟩ := Option.map_eq_some_iff.mp (h.bound callback member connected)
  refine Option.map_eq_some_iff.mpr ⟨own, erase_eq_some.mpr ⟨?_, known⟩, same⟩
  intro equal
  rw [linked.captured key receiver found] at equal
  rw [equal, found] at known
  rw [Option.some.inj known, same] at gone
  change (w.clients callback.client).connected = true at connected
  rw [gone] at connected
  cases connected

theorem prompt_step {a : Action} {d : World} (h : Prompt w) (flow : Flow w) (linked : Linked w)
    (taken : step w a = some d) : Prompt d := by
  cases a with
  | addClient =>
    cases taken
    exact h.addClient flow
  | sendRequest c =>
    simp only [step, sendRequest] at taken
    obtain ⟨-, ⟨⟩⟩ := Option.ite_none_right_eq_some.mp taken
    exact h.setClient c id rfl
  | mainReceives key =>
    simp only [step, mainReceives] at taken
    split at taken
    · cases taken
    next receiver found =>
    split at taken
    · cases taken
    next request rest queue =>
    cases taken
    exact h.forward flow (Option.map_eq_some_iff.mpr ⟨receiver, found, rfl⟩)
  | serviceReceives =>
    simp only [step, serviceReceives] at taken
    split at taken
    · cases taken
    cases taken
    exact ⟨h.bound, h.replies⟩
  | mainTakesReply =>
    simp only [step, mainTakesReply] at taken
    split at taken
    · cases taken
    next reply rest queue =>
    split at taken
    case h_1 idle =>
      rw [flow.pending_reply queue, List.getElem?_eq_none_iff] at idle
      have known := (flow.next_reply queue).2
      omega
    case h_2 callback found =>
      cases taken
      exact h.run flow queue found
  | clientReceives c =>
    simp only [step, clientReceives] at taken
    split at taken
    · cases taken
    next reply rest queue =>
    obtain ⟨-, ⟨⟩⟩ := Option.ite_none_right_eq_some.mp taken
    refine h.setClient c id ?_
    rw [Client.replies, Client.replies, queue, List.append_assoc]
    rfl
  | closeClient c =>
    cases taken
    refine h.setClient c ?_ rfl
    intro connected
    cases connected
  | clientDisconnect key =>
    simp only [step, clientDisconnect] at taken
    split at taken
    · cases taken
    next receiver found =>
    obtain ⟨gone, ⟨⟩⟩ := Option.ite_none_left_eq_some.mp taken
    exact h.clientDisconnect linked found (Bool.eq_false_iff.mpr gone)
  | closeService pipe =>
    simp only [step] at taken
    obtain ⟨-, ⟨⟩⟩ := Option.ite_none_right_eq_some.mp taken
    exact ⟨h.bound, h.replies⟩
  | serviceDisconnect key =>
    simp only [step, serviceDisconnect] at taken
    split at taken
    · cases taken
    obtain ⟨-, ⟨⟩⟩ := Option.ite_none_right_eq_some.mp taken
    exact ⟨h.bound, h.replies⟩

def seen (reply : Reply) : Nat × Int := (reply.request, reply.id)

theorem routed_prefix_owed (flow : Flow w) (numbered : Numbered w) (c : Nat) :
    (w.answered.filterMap (route w.forwarded c)).map seen <+: owed c (granted w) := by
  have within := produced_le flow
  have count : (granted w).length = w.produced.length := by
    simp [granted, within]
  have produced : w.produced.length = w.nextPipe := by
    simp [numbered.produced]
  have number (k : Nat) : (granted w)[k]? = if k < w.produced.length then
      w.forwarded[k]?.map (fun callback => (callback.client, callback.request)) else none := by
    rw [granted, List.getElem?_map, List.getElem?_take]
    split <;> rfl
  have all : (w.produced.filterMap (route w.forwarded c)).map seen = owed c (granted w) := by
    rw [owed, count, List.map_filterMap, numbered.produced, List.filterMap_map, List.length_map,
      List.length_range]
    refine List.filterMap_congr fun k member => ?_
    have lt : k < w.produced.length := by
      rw [produced]
      exact List.mem_range.mp member
    rw [number, if_pos lt]
    simp only [Function.comp_apply, route, replyTo]
    cases w.forwarded[k]? with
    | none => rfl
    | some callback =>
      by_cases own : callback.client = c
      · simp [requestFor, own, seen]
      · simp [requestFor, own]
  rw [← all, flow.taken, List.filterMap_append, List.map_append]
  exact List.prefix_append _ _

end Told

structure Refined (w : World) : Prop where
  ordered : Ordered w
  linked : Linked w
  prompt : Prompt w

theorem refined_step (w : World) (a : Action) (d : World) (h : Refined w)
    (taken : Broker.machine.step w a = some d) : Refined d :=
  ⟨ordered_step w a d h.ordered taken, linked_step h.linked taken,
    prompt_step h.prompt h.ordered.1 h.linked taken⟩

theorem refined_exec (schedule : List Action) : Refined (Broker.machine.exec {} schedule) :=
  Machine.exec_invariant refined_step
    ⟨⟨start_flow, fun _ => start_numbered⟩, start_linked, start_prompt⟩ schedule

theorem bounded_of_exec {w : World} {more : List Action}
    (bounded : Bounded (Broker.machine.exec w more)) : Bounded w := by
  induction more generalizing w with
  | nil => exact bounded
  | cons a more ih =>
    rw [Machine.exec_cons] at bounded
    have next := ih bounded
    cases moved : Broker.machine.step w a with
    | none => rwa [Machine.next_of_none moved] at next
    | some d =>
      rw [Machine.next_of_some moved] at next
      exact bounded_moves (moves_of_step moved) next

/-- The clerk has granted requests that were made, those of a client in their order. What a
client has received are numbers that the clerk owes it, and as long as it is connected they
are the first ones, with none left out. -/
structure Told (w : World) (grants : List (Nat × Nat)) : Prop where
  ordered : ∀ c, InOrder c grants
  made : ∀ grant ∈ grants, grant.2 < (w.clients grant.1).requests
  own : ∀ c, ((w.clients c).received.map seen).Sublist (owed c grants)
  first : ∀ c, (w.clients c).connected = true → (w.clients c).received.map seen <+: owed c grants

theorem told_granted {w : World} (h : Refined w) (bounded : Bounded w) {calls : List Nat}
    (same : clerk.exec [] calls = granted w) : Told w (clerk.exec [] calls) := by
  have flow := h.ordered.1
  have numbered := h.ordered.2 bounded
  have received (c : Nat) : (w.clients c).received <+: (w.clients c).replies :=
    List.prefix_append _ _
  refine ⟨fun c => clerk_in_order c calls, ?_, fun c => ?_, fun c connected => ?_⟩
  all_goals rw [same]
  · intro grant member
    obtain ⟨callback, taken, rfl⟩ := List.mem_map.mp member
    have own : requestFor callback.client callback = some callback.request := if_pos rfl
    have asked : callback.request ∈ w.forwarded.filterMap (requestFor callback.client) :=
      List.mem_filterMap.mpr ⟨callback, List.mem_of_mem_take taken, own⟩
    have issued := List.mem_append_left (w.clients callback.client).toMain asked
    rw [flow.sent] at issued
    exact List.mem_range.mp issued
  · have told := ((received c).sublist.trans (flow.delivered c)).map seen
    exact told.trans (routed_prefix_owed flow numbered c).sublist
  · have told := received c
    rw [h.prompt.replies c connected] at told
    exact (told.map seen).trans (routed_prefix_owed flow numbered c)

/-- Every run of the broker is one of the clerk, who grants a request between the moment in
which it is made and that in which it is answered: as the run goes on, the clerk only goes on
as well. -/
theorem broker_refines_clerk (schedule more : List Action)
    (bounded : Bounded (Broker.machine.exec {} (schedule ++ more))) :
    ∃ calls later, Told (Broker.machine.exec {} schedule) (clerk.exec [] calls) ∧
      Told (Broker.machine.exec {} (schedule ++ more)) (clerk.exec [] (calls ++ later)) := by
  have simulates : ∀ w a d, Refined w → Broker.machine.step w a = some d →
      granted d = granted w ∨ ∃ c, clerk.step (granted w) c = some (granted d) :=
    fun w a d h moved => clerk_simulates w a d h.ordered.1 moved
  have begun := refined_exec schedule
  have whole := refined_exec (schedule ++ more)
  obtain ⟨calls, same⟩ :=
    Machine.exec_of_simulates_of_inv refined_step simulates (refined_exec []) schedule
  obtain ⟨later, goes_on⟩ :=
    Machine.exec_of_simulates_of_inv refined_step simulates begun more
  have here : clerk.exec [] calls = granted (Broker.machine.exec {} schedule) := same
  have there : clerk.exec [] (calls ++ later) =
      granted (Broker.machine.exec {} (schedule ++ more)) := by
    rw [Machine.exec_append, Machine.exec_append]
    exact (congrArg (clerk.exec · later) here).trans goes_on
  refine ⟨calls, later, told_granted begun ?_ here, told_granted whole bounded there⟩
  rw [Machine.exec_append] at bounded
  exact bounded_of_exec bounded

theorem broker_refines_clerk_two_clients : ∃ calls later,
    Told (Broker.machine.exec {} [.addClient, .addClient, .sendRequest 0, .mainReceives 1,
      .serviceReceives, .mainTakesReply, .clientReceives 0]) (clerk.exec [] calls) ∧
    Told (Broker.machine.exec {} ([.addClient, .addClient, .sendRequest 0, .mainReceives 1,
      .serviceReceives, .mainTakesReply, .clientReceives 0] ++ [.sendRequest 1, .sendRequest 0,
      .mainReceives 2, .mainReceives 1, .serviceReceives, .serviceReceives, .mainTakesReply,
      .closeClient 1, .mainTakesReply, .clientReceives 0])) (clerk.exec [] (calls ++ later)) :=
  broker_refines_clerk _ _ (by decide)

end ChromiumDemo.BrokerRefinement
