import ChromiumDemo.BrokerFlow

/-! The broker when the service process or its pipe to main dies. Main goes on
with the replies that were still delivered to it and learns of the death after
them; `remote_` is disconnected from then on, drops the callbacks it still holds,
and drops every later call. A request written in between is lost with the pipe. -/

namespace ChromiumDemo.BrokerFailure
open TransitionSystem AssocMap
open Broker (Responder ConnectionHelper Moves moves_of_step setClient_clients)

/-- `notified` says that the disconnect handler of `remote_` has run. `dropped` are
the callbacks dropped while the receiver of their request was bound. -/
structure World where
  broker : Broker.World := {}
  alive : Bool := true
  notified : Bool := false
  dropped : List Responder := []

inductive Action
  | broker (a : Broker.Action)
  | serviceDies (process : Bool) (delivered : Nat)
  | remoteDisconnect

def isBound (h : ConnectionHelper) (callback : Responder) : Bool :=
  (h.receivers callback.receiver).map Broker.Receiver.client == some callback.client

/-- Of the replies on their way to main the first `delivered` still arrive. -/
def serviceDies (process : Bool) (delivered : Nat) (x : World) : World :=
  let w := x.broker
  let broker : Broker.World := { w with
    toService := []
    fromService := w.fromService.take delivered
    factory := if process then {} else w.factory }
  { x with alive := false, broker := broker }

def pendingCallbacks (h : ConnectionHelper) : List Responder :=
  (List.range h.nextRequest).filterMap h.pending

/-- The handler of `remote_` logs; the callbacks that are left go with the pipe. -/
def remoteDisconnect (x : World) : World :=
  let w := x.broker
  { x with
    notified := true
    dropped := x.dropped ++ (pendingCallbacks w.helper).filter (isBound w.helper)
    broker := { w with helper := { w.helper with pending := fun _ => none } } }

/-- `EstablishChannel` on a `remote_` that is disconnected. -/
def dropCall (callback : Responder) (rest : List Nat) (x : World) : World :=
  let w := x.broker
  let client := { w.clients callback.client with toMain := rest }
  { x with
    dropped := x.dropped ++ [callback].filter (isBound w.helper)
    broker := w.setClient callback.client client }

def forwarded (x : World) (w : Broker.World) : World :=
  { x with broker := { w with toService := if x.alive then w.toService else [] } }

def mainReceives (key : Int) (x : World) : Option World :=
  if x.notified then
    match x.broker.helper.receivers key with
    | none => none
    | some receiver => match (x.broker.clients receiver.client).toMain with
      | [] => none
      | request :: rest => some (dropCall ⟨receiver.client, request, key⟩ rest x)
  else (Broker.mainReceives key x.broker).map (forwarded x)

def step (x : World) : Action → Option World
  | .broker (.mainReceives key) => mainReceives key x
  | .broker a => (Broker.step x.broker a).map fun w => { x with broker := w }
  | .serviceDies process delivered =>
    if x.alive then some (serviceDies process delivered x) else none
  | .remoteDisconnect =>
    if !x.alive && !x.notified && x.broker.fromService.isEmpty then some (remoteDisconnect x)
    else none

def machine : Machine World Action := ⟨step⟩

structure Quiescent (x : World) : Prop where
  toService : x.broker.toService = []
  fromService : x.broker.fromService = []
  clients : ∀ c, (x.broker.clients c).connected = true →
    (x.broker.clients c).toMain = [] ∧ (x.broker.clients c).fromMain = []
  notified : x.alive = true ∨ x.notified = true
  receivers : ∀ key receiver, x.broker.helper.receivers key = some receiver →
    (x.broker.clients receiver.client).connected = true
  services : ∀ key impl, x.broker.factory.service key = some impl →
    x.broker.closed impl.receiver.pipe = false

structure Answered (x : World) : Prop where
  replies : Quiescent x → ∀ c, (x.broker.clients c).connected = true →
    ∀ request < (x.broker.clients c).requests,
      ∃ reply ∈ (x.broker.clients c).received, reply.request = request
  dropped : x.dropped = []

def Spared (x : World) : Action → Prop
  | .remoteDisconnect => ∀ k callback, x.broker.helper.pending k = some callback →
      isBound x.broker.helper callback = false
  | .broker (.mainReceives _) => x.notified = false
  | _ => True

def Waits (w : Broker.World) (c request : Nat) : Prop :=
  request ∈ (w.clients c).toMain ∨
  (∃ reply ∈ (w.clients c).replies, reply.request = request) ∨
  ∃ k callback, w.helper.pending k = some callback ∧ callback.client = c ∧
    callback.request = request ∧ isBound w.helper callback = true

structure Waiting (alive notified : Bool) (w : Broker.World) : Prop where
  captured : ∀ key receiver, w.helper.receivers key = some receiver → receiver.captured = key
  numbers : ∀ k callback, w.helper.pending k = some callback → k < w.helper.nextRequest
  inFlight : alive = true → ∀ k callback, w.helper.pending k = some callback →
    k ∈ w.toService ∨ ∃ reply ∈ w.fromService, reply.request = k
  silent : notified = true → ∀ k, w.helper.pending k = none
  requests : ∀ c, (w.clients c).connected = true → ∀ request < (w.clients c).requests,
    Waits w c request

theorem start_waiting : Waiting true false {} where
  captured _ _ found := nomatch found
  numbers _ _ found := nomatch found
  inFlight _ _ _ found := nomatch found
  silent notified := nomatch notified
  requests _ connected := nomatch connected

theorem isBound_iff {h : ConnectionHelper} {callback : Responder} :
    isBound h callback = true ↔
      ∃ receiver, h.receivers callback.receiver = some receiver ∧
        receiver.client = callback.client := by
  simp [isBound]

section Moves
variable {alive notified : Bool} {w : Broker.World}

theorem Waits.step {d : Broker.World} {c request : Nat} (h : Waits w c request)
    (toMain : request ∈ (w.clients c).toMain → Waits d c request)
    (replies : (w.clients c).replies ⊆ (d.clients c).replies)
    (pending : ∀ k callback, w.helper.pending k = some callback → callback.client = c →
      callback.request = request → isBound w.helper callback = true → Waits d c request) :
    Waits d c request := by
  rcases h with queued | ⟨reply, answered, rfl⟩ | ⟨k, callback, found, client, asked, bound⟩
  · exact toMain queued
  · exact .inr (.inl ⟨reply, replies answered, rfl⟩)
  · exact pending k callback found client asked bound

theorem Waiting.setClient (h : Waiting alive notified w) (c : Nat) {client : Broker.Client}
    (connected : client.connected = true → (w.clients c).connected = true)
    (requests : ∀ request < client.requests,
      request < (w.clients c).requests ∨ request ∈ client.toMain)
    (toMain : (w.clients c).toMain ⊆ client.toMain)
    (replies : (w.clients c).replies ⊆ client.replies) :
    Waiting alive notified (w.setClient c client) := by
  refine ⟨h.captured, h.numbers, h.inFlight, h.silent, fun d linked request issued => ?_⟩
  rw [setClient_clients] at linked issued
  have queued (member : d = c → request ∈ client.toMain)
      (other : d ≠ c → request ∈ (w.clients d).toMain) :
      Waits (w.setClient c client) d request := by
    left
    rw [setClient_clients]
    split
    case isTrue same => exact member same
    case isFalse differ => exact other differ
  have waits (before : Waits w d request) : Waits (w.setClient c client) d request := by
    refine before.step (fun member => queued (fun same => toMain (same ▸ member)) fun _ => member)
      ?_ fun k callback found known asked bound => ?_
    · rw [setClient_clients]
      split
      case isTrue same => rw [same]; exact replies
      case isFalse => exact List.Subset.refl _
    · exact .inr (.inr ⟨k, callback, found, known, asked, bound⟩)
  split at linked
  case isTrue same =>
    rw [if_pos same] at issued
    rcases requests request issued with old | new
    · exact waits (h.requests d (same ▸ connected linked) request (same ▸ old))
    · exact queued (fun _ => new) fun differ => absurd same differ
  case isFalse differ =>
    rw [if_neg differ] at issued
    exact waits (h.requests d linked request issued)

theorem Waiting.addClient (h : Waiting alive notified w) :
    Waiting alive notified (Broker.addClient w) := by
  have kept {key : Int} {receiver : Broker.Receiver}
      (found : w.helper.receivers key = some receiver) :
      (Broker.addClient w).helper.receivers key = some receiver := by
    simp only [Broker.addClient, ConnectionHelper.addClient, emplace_apply]
    split
    case isTrue same => rw [← same, found]; rfl
    case isFalse => exact found
  refine ⟨fun key receiver found => ?_, h.numbers, h.inFlight, h.silent,
    fun c linked request issued => ?_⟩
  · simp only [Broker.addClient, ConnectionHelper.addClient, emplace_apply] at found
    split at found
    case isFalse => exact h.captured key receiver found
    case isTrue same =>
      subst same
      rw [Option.some.injEq] at found
      cases taken : w.helper.receivers (Broker.increment w.helper.clientIndex) with
      | none => rw [← found, taken]; rfl
      | some old =>
        rw [taken, Option.getD_some] at found
        exact found ▸ h.captured _ old taken
  · by_cases new : c = w.nextClient
    · subst new
      simp [Broker.addClient] at issued
    · have same : (Broker.addClient w).clients c = w.clients c := by
        simp [Broker.addClient, Function.update_of_ne new]
      rw [same] at linked issued
      refine (h.requests c linked request issued).step (fun member => ?_) ?_
        fun k callback found client asked bound => ?_
      · exact .inl (same ▸ member)
      · rw [same]
        exact List.Subset.refl _
      · obtain ⟨receiver, known, own⟩ := isBound_iff.mp bound
        exact .inr (.inr ⟨k, callback, found, client, asked,
          isBound_iff.mpr ⟨receiver, kept known, own⟩⟩)

theorem Waiting.issued (h : Waiting alive notified w) {d : Broker.World} {e : Nat}
    {client : Broker.Client} (clients : ∀ c, d.clients c = if c = e then client else w.clients c)
    (connected : client.connected = (w.clients e).connected)
    (requests : client.requests = (w.clients e).requests) {c request : Nat}
    (linked : (d.clients c).connected = true) (lt : request < (d.clients c).requests) :
    Waits w c request := by
  rw [clients] at linked lt
  split at linked
  case isTrue same =>
    rw [if_pos same, requests] at lt
    rw [connected] at linked
    exact h.requests c (same ▸ linked) request (same ▸ lt)
  case isFalse differ =>
    rw [if_neg differ] at lt
    exact h.requests c linked request lt

theorem Waiting.forward (h : Waiting alive false w) {callback : Responder} {rest : List Nat}
    (queue : (w.clients callback.client).toMain = callback.request :: rest)
    (bound : isBound w.helper callback = true) : Waiting alive false (w.forward callback rest) := by
  have pending (k : Nat) : (w.forward callback rest).helper.pending k =
      if k = w.helper.nextRequest then some callback else w.helper.pending k :=
    Function.update_apply ..
  have clients (c : Nat) : (w.forward callback rest).clients c =
      if c = callback.client then { w.clients callback.client with toMain := rest }
      else w.clients c := Function.update_apply ..
  have older {k : Nat} {other : Responder} (found : w.helper.pending k = some other) :
      k ≠ w.helper.nextRequest := by
    have issued := h.numbers k other found
    omega
  refine ⟨h.captured, fun k other found => ?_, fun linked k other found => ?_,
    (fun notified => nomatch notified), fun c linked request issued => ?_⟩
  · rw [pending] at found
    show k < w.helper.nextRequest + 1
    split at found
    case isTrue same => omega
    case isFalse =>
      have issued := h.numbers k other found
      omega
  · rw [pending] at found
    split at found
    case isTrue same =>
      left
      rw [same]
      exact List.mem_append_right _ (List.mem_singleton_self _)
    case isFalse => exact (h.inFlight linked k other found).imp_left (List.mem_append_left _)
  · have before : Waits w c request := h.issued clients rfl rfl linked issued
    refine before.step (fun member => ?_) ?_ fun k other found client asked held => ?_
    · by_cases same : c = callback.client
      · subst same
        rw [queue] at member
        rcases List.mem_cons.mp member with rfl | later
        · exact .inr (.inr ⟨w.helper.nextRequest, callback, (pending _).trans (if_pos rfl), rfl,
            rfl, bound⟩)
        · left
          rw [clients, if_pos rfl]
          exact later
      · left
        rw [clients, if_neg same]
        exact member
    · rw [clients]
      split
      case isTrue same => rw [same]; exact List.Subset.refl _
      case isFalse => exact List.Subset.refl _
    · exact .inr (.inr ⟨k, other, ((pending k).trans (if_neg (older found))).trans found, client,
        asked, held⟩)

theorem Waiting.serve (h : Waiting alive notified w) {request : Nat} {rest : List Nat}
    (queue : w.toService = request :: rest) : Waiting alive notified (w.serve request rest) := by
  refine ⟨h.captured, h.numbers, fun linked k callback found => ?_, h.silent, h.requests⟩
  show k ∈ rest ∨ ∃ reply ∈ w.fromService ++ [_], reply.request = k
  rcases h.inFlight linked k callback found with queued | ⟨reply, sent, asked⟩
  · rw [queue] at queued
    rcases List.mem_cons.mp queued with rfl | later
    · exact .inr ⟨_, List.mem_append_right _ (List.mem_singleton_self _), rfl⟩
    · exact .inl later
  · exact .inr ⟨reply, List.mem_append_left _ sent, asked⟩

theorem Waiting.of_take {d : Broker.World} (h : Waiting alive notified w) {reply : Broker.Reply}
    {rest : List Broker.Reply} (queue : w.fromService = reply :: rest)
    (helper : d.helper = (w.take reply rest).helper) (toService : d.toService = w.toService)
    (fromService : d.fromService = rest)
    (requests : ∀ c, (d.clients c).connected = true → ∀ request < (d.clients c).requests,
      Waits d c request) : Waiting alive notified d := by
  have erased {k : Nat} {callback : Responder} (found : d.helper.pending k = some callback) :
      k ≠ reply.request ∧ w.helper.pending k = some callback := by
    rw [helper] at found
    exact erase_eq_some.mp found
  refine ⟨?_, fun k callback found => ?_, fun linked k callback found => ?_,
    fun notified k => ?_, requests⟩
  · rw [helper]
    exact h.captured
  · rw [helper]
    exact h.numbers k callback (erased found).2
  · rw [toService, fromService]
    apply (h.inFlight linked k callback (erased found).2).imp_right
    rintro ⟨other, sent, asked⟩
    rw [queue] at sent
    rcases List.mem_cons.mp sent with rfl | later
    · exact absurd asked.symm (erased found).1
    · exact ⟨other, later, asked⟩
  · rw [Option.eq_none_iff_forall_ne_some]
    intro callback found
    have before := (erased found).2
    rw [h.silent notified k] at before
    cases before

theorem Waiting.take (h : Waiting alive notified w)
    {reply : Broker.Reply} {rest : List Broker.Reply}
    (queue : w.fromService = reply :: rest) (idle : w.helper.pending reply.request = none) :
    Waiting alive notified (w.take reply rest) := by
  refine h.of_take queue rfl rfl rfl fun c linked request issued => ?_
  refine (h.requests c linked request issued).step .inl (List.Subset.refl _)
    fun k callback found client asked bound => ?_
  have other : k ≠ reply.request := by
    rintro rfl
    rw [idle] at found
    cases found
  exact .inr (.inr ⟨k, callback, erase_eq_some.mpr ⟨other, found⟩, client, asked, bound⟩)

theorem Waiting.run (h : Waiting alive notified w) {reply : Broker.Reply} {rest : List Broker.Reply}
    (queue : w.fromService = reply :: rest) {callback : Responder}
    (found : w.helper.pending reply.request = some callback) :
    Waiting alive notified ((w.take reply rest).run callback reply) := by
  have unique {k : Nat} {other : Responder} (pending : w.helper.pending k = some other)
      (same : k = reply.request) : other = callback := by
    rw [same, found] at pending
    exact (Option.some.inj pending).symm
  unfold Broker.World.run
  split
  case isTrue bound =>
    let client : Broker.Client := { w.clients callback.client with
      fromMain := (w.clients callback.client).fromMain ++
        [{ reply with request := callback.request }] }
    have clients (c : Nat) : ((w.take reply rest).setClient callback.client client).clients c =
        if c = callback.client then client else w.clients c := setClient_clients ..
    change Waiting alive notified ((w.take reply rest).setClient callback.client client)
    refine h.of_take queue rfl rfl rfl fun c linked request issued => ?_
    have before : Waits w c request := h.issued clients rfl rfl linked issued
    refine before.step (fun member => ?_) ?_ fun k other pending known asked held => ?_
    · left
      rw [clients]
      split
      case isTrue same =>
        rw [same] at member
        exact member
      case isFalse => exact member
    · rw [clients]
      split
      case isTrue same =>
        rw [same]
        exact List.append_subset.mpr ⟨List.subset_append_left _ _,
          fun r member => List.mem_append_right _ (List.mem_append_left _ member)⟩
      case isFalse => exact List.Subset.refl _
    · by_cases same : k = reply.request
      · right
        left
        refine ⟨{ reply with request := callback.request }, ?_, ?_⟩
        · rw [clients, if_pos (known.symm.trans (by rw [unique pending same]))]
          simp [client, Broker.Client.replies]
        · rw [← asked, unique pending same]
      · exact .inr (.inr ⟨k, other, erase_eq_some.mpr ⟨same, pending⟩, known, asked, held⟩)
  case isFalse gone =>
    refine h.of_take queue rfl rfl rfl fun c linked request issued => ?_
    refine (h.requests c linked request issued).step .inl (List.Subset.refl _)
      fun k other pending client asked bound => ?_
    have differ : k ≠ reply.request := by
      intro same
      rw [unique pending same] at bound
      exact gone (beq_iff_eq.mp bound)
    exact .inr (.inr ⟨k, other, erase_eq_some.mpr ⟨differ, pending⟩, client, asked, bound⟩)

theorem Waiting.clientDisconnect (h : Waiting alive notified w) {key : Int}
    {receiver : Broker.Receiver}
    (found : w.helper.receivers key = some receiver)
    (gone : (w.clients receiver.client).connected = false) :
    Waiting alive notified { w with helper := w.helper.onDisconnect receiver } := by
  refine ⟨fun other r known => h.captured other r (erase_eq_some.mp known).2, h.numbers,
    h.inFlight, h.silent, fun c linked request issued => ?_⟩
  refine (h.requests c linked request issued).step .inl (List.Subset.refl _)
    fun k callback pending client asked bound => ?_
  obtain ⟨own, known, same⟩ := isBound_iff.mp bound
  have differ : callback.receiver ≠ receiver.captured := by
    intro equal
    rw [equal, h.captured key receiver found, found] at known
    rw [Option.some.inj known, same, client, linked] at gone
    cases gone
  exact .inr (.inr ⟨k, callback, pending, client, asked,
    isBound_iff.mpr ⟨own, erase_eq_some.mpr ⟨differ, known⟩, same⟩⟩)

theorem waiting_step (h : Waiting alive notified w) {a : Broker.Action} {d : Broker.World}
    (other : ∀ key, a ≠ .mainReceives key) (taken : Broker.step w a = some d) :
    Waiting alive notified d := by
  cases a with
  | mainReceives key => exact absurd rfl (other key)
  | addClient =>
    cases taken
    exact h.addClient
  | sendRequest c =>
    simp only [Broker.step, Broker.sendRequest] at taken
    obtain ⟨connected, ⟨⟩⟩ := Option.ite_none_right_eq_some.mp taken
    refine h.setClient c (fun _ => connected) (fun request lt => ?_)
      (List.subset_append_left _ _) (List.Subset.refl _)
    rcases Nat.lt_succ_iff_lt_or_eq.mp lt with old | rfl
    · exact .inl old
    · exact .inr (List.mem_append_right _ (List.mem_singleton_self _))
  | serviceReceives =>
    simp only [Broker.step, Broker.serviceReceives] at taken
    split at taken
    · cases taken
    next request rest queue =>
    cases taken
    exact h.serve queue
  | mainTakesReply =>
    simp only [Broker.step, Broker.mainTakesReply] at taken
    split at taken
    · cases taken
    next reply rest queue =>
    split at taken
    case h_1 idle =>
      cases taken
      exact h.take queue idle
    case h_2 callback found =>
      cases taken
      exact h.run queue found
  | clientReceives c =>
    simp only [Broker.step, Broker.clientReceives] at taken
    split at taken
    · cases taken
    next reply rest queue =>
    obtain ⟨-, ⟨⟩⟩ := Option.ite_none_right_eq_some.mp taken
    refine h.setClient c id (fun _ => .inl) (List.Subset.refl _) ?_
    rw [Broker.Client.replies, Broker.Client.replies, queue, List.append_assoc]
    exact List.Subset.refl _
  | closeClient c =>
    cases taken
    exact h.setClient c (fun linked => by cases linked) (fun _ => .inl) (List.Subset.refl _)
      (List.Subset.refl _)
  | clientDisconnect key =>
    simp only [Broker.step, Broker.clientDisconnect] at taken
    split at taken
    · cases taken
    next receiver found =>
    obtain ⟨gone, ⟨⟩⟩ := Option.ite_none_left_eq_some.mp taken
    exact h.clientDisconnect found (Bool.eq_false_iff.mpr gone)
  | closeService pipe =>
    simp only [Broker.step] at taken
    obtain ⟨-, ⟨⟩⟩ := Option.ite_none_right_eq_some.mp taken
    exact ⟨h.captured, h.numbers, h.inFlight, h.silent, h.requests⟩
  | serviceDisconnect key =>
    simp only [Broker.step, Broker.serviceDisconnect] at taken
    split at taken
    · cases taken
    next impl found =>
    obtain ⟨-, ⟨⟩⟩ := Option.ite_none_right_eq_some.mp taken
    exact ⟨h.captured, h.numbers, h.inFlight, h.silent, h.requests⟩

end Moves

structure Inv (x : World) : Prop where
  waiting : Waiting x.alive x.notified x.broker
  notified : x.notified = true → x.alive = false
  dropped : x.dropped = []

theorem start_inv : Inv {} := ⟨start_waiting, (fun notified => nomatch notified), rfl⟩

theorem Inv.answered {x : World} (inv : Inv x) : Answered x := by
  refine ⟨fun quiet c linked request issued => ?_, inv.dropped⟩
  have idle := quiet.clients c linked
  rcases inv.waiting.requests c linked request issued with
    queued | ⟨reply, answered, asked⟩ | ⟨k, callback, found, -⟩
  · rw [idle.1] at queued
    cases queued
  · rw [Broker.Client.replies, idle.2, List.append_nil] at answered
    exact ⟨reply, answered, asked⟩
  · rcases quiet.notified with alive | notified
    · rcases inv.waiting.inFlight alive k callback found with queued | ⟨reply, sent, -⟩
      · rw [quiet.toService] at queued
        cases queued
      · rw [quiet.fromService] at sent
        cases sent
    · rw [inv.waiting.silent notified k] at found
      cases found

theorem mem_pendingCallbacks {w : Broker.World} {alive notified : Bool}
    (h : Waiting alive notified w) {callback : Responder} :
    callback ∈ pendingCallbacks w.helper ↔ ∃ k, w.helper.pending k = some callback := by
  rw [pendingCallbacks, List.mem_filterMap]
  constructor
  · rintro ⟨k, -, found⟩
    exact ⟨k, found⟩
  · rintro ⟨k, found⟩
    exact ⟨k, List.mem_range.mpr (h.numbers k callback found), found⟩

theorem no_bound_callbacks {x : World} (inv : Inv x) :
    (pendingCallbacks x.broker.helper).filter (isBound x.broker.helper) = [] ↔
      ∀ k callback, x.broker.helper.pending k = some callback →
        isBound x.broker.helper callback = false := by
  rw [List.filter_eq_nil_iff]
  constructor
  · intro none_bound k callback found
    simpa using none_bound callback ((mem_pendingCallbacks inv.waiting).mpr ⟨k, found⟩)
  · intro spared callback member
    obtain ⟨k, found⟩ := (mem_pendingCallbacks inv.waiting).mp member
    simp [spared k callback found]

theorem forwarded_inv {x : World} (inv : Inv x) (live : x.notified = false) {key : Int}
    {w : Broker.World} (taken : Broker.mainReceives key x.broker = some w) :
    Inv (forwarded x w) := by
  simp only [Broker.mainReceives] at taken
  split at taken
  · cases taken
  next receiver known =>
  split at taken
  · cases taken
  next request rest queue =>
  cases taken
  have bound : isBound x.broker.helper ⟨receiver.client, request, key⟩ = true :=
    isBound_iff.mpr ⟨receiver, known, rfl⟩
  have waiting := (live ▸ inv.waiting).forward queue bound
  refine ⟨⟨waiting.captured, waiting.numbers, fun alive k callback found => ?_, ?_,
    waiting.requests⟩, inv.notified, inv.dropped⟩
  · have kept : (if x.alive then (x.broker.forward ⟨receiver.client, request, key⟩ rest).toService
        else []) = (x.broker.forward ⟨receiver.client, request, key⟩ rest).toService := if_pos alive
    simp only [forwarded, kept]
    exact waiting.inFlight alive k callback found
  · intro notified
    rw [forwarded, live] at notified
    cases notified

theorem remoteDisconnect_inv {x : World} (inv : Inv x) (dead : x.alive = false)
    (spared : ∀ k callback, x.broker.helper.pending k = some callback →
      isBound x.broker.helper callback = false) : Inv (remoteDisconnect x) := by
  refine ⟨⟨inv.waiting.captured, (fun k callback found => nomatch found),
    (fun _ k callback found => nomatch found), fun _ _ => rfl,
    fun c linked request issued => ?_⟩, fun _ => dead, ?_⟩
  · refine (inv.waiting.requests c linked request issued).step .inl (List.Subset.refl _)
      fun k callback found client asked bound => ?_
    rw [spared k callback found] at bound
    cases bound
  · simp only [remoteDisconnect, (no_bound_callbacks inv).mpr spared, inv.dropped, List.append_nil]

theorem serviceDies_inv {x : World} (inv : Inv x) (process : Bool) (delivered : Nat) :
    Inv (serviceDies process delivered x) :=
  ⟨⟨inv.waiting.captured, inv.waiting.numbers, (fun alive => nomatch alive), inv.waiting.silent,
    inv.waiting.requests⟩, fun _ => rfl, inv.dropped⟩

theorem step_broker {b : Broker.Action} (other : ∀ key, b ≠ .mainReceives key) (x : World) :
    machine.step x (.broker b) = (Broker.step x.broker b).map fun w => { x with broker := w } := by
  cases b with
  | mainReceives key => exact absurd rfl (other key)
  | _ => rfl

theorem step_inv (x : World) (a : Action) (y : World) (inv : Inv x) (spared : Spared x a)
    (h : machine.step x a = some y) : Inv y := by
  cases a with
  | serviceDies process delivered =>
    obtain ⟨-, ⟨⟩⟩ := Option.ite_none_right_eq_some.mp h
    exact serviceDies_inv inv process delivered
  | remoteDisconnect =>
    obtain ⟨now, ⟨⟩⟩ := Option.ite_none_right_eq_some.mp h
    simp only [Bool.and_eq_true, Bool.not_eq_true'] at now
    exact remoteDisconnect_inv inv now.1.1 spared
  | broker b =>
    by_cases other : ∀ key, b ≠ .mainReceives key
    · rw [step_broker other] at h
      obtain ⟨w, taken, rfl⟩ := Option.map_eq_some_iff.mp h
      exact ⟨waiting_step inv.waiting other taken, inv.notified, inv.dropped⟩
    · simp only [not_forall, not_not] at other
      obtain ⟨key, rfl⟩ := other
      have live : x.notified = false := spared
      have forwards : (Broker.mainReceives key x.broker).map (forwarded x) = some y :=
        (if_neg (by simp [live])).symm.trans h
      obtain ⟨w, taken, rfl⟩ := Option.map_eq_some_iff.mp forwards
      exact forwarded_inv inv live taken

theorem mainReceives_late {x y : World} {key : Int} (late : x.notified = true)
    (h : mainReceives key x = some y) : y.dropped ≠ [] := by
  simp only [mainReceives, late, if_true] at h
  split at h
  · cases h
  next receiver known =>
  split at h
  · cases h
  next request rest queue =>
  cases h
  have bound : isBound x.broker.helper ⟨receiver.client, request, key⟩ = true :=
    isBound_iff.mpr ⟨receiver, known, rfl⟩
  simp [dropCall, bound]

theorem step_spared (x : World) (a : Action) (y : World) (inv : Inv x)
    (h : machine.step x a = some y) (answered : Answered y) : Spared x a := by
  cases a with
  | serviceDies process delivered => trivial
  | remoteDisconnect =>
    obtain ⟨-, ⟨⟩⟩ := Option.ite_none_right_eq_some.mp h
    have dropped := answered.dropped
    simp only [remoteDisconnect, List.append_eq_nil_iff] at dropped
    exact (no_bound_callbacks inv).mp dropped.2
  | broker b =>
    cases b with
    | mainReceives key =>
      by_contra notified
      have late : x.notified = true := Bool.of_not_eq_false notified
      exact mainReceives_late late h answered.dropped
    | _ => trivial

/-- Whatever the moment of the failure, every client is answered and no callback
is dropped at a bound receiver exactly if main holds no such callback when it learns
of the failure and takes no request after that. -/
theorem answered_iff (as : List Action) :
    (∀ x ∈ machine.visited {} as, Answered x) ↔
      ∀ p ∈ machine.taken {} as, Spared p.1 p.2 :=
  Machine.visited_iff_taken (fun _ => Inv.answered) step_inv
    (fun x a y inv bad h answered => bad (step_spared x a y inv h answered)) start_inv as

theorem request_lost_with_service :
    ¬ ∀ (as : List Action), ∀ x ∈ machine.visited {} as, Answered x := by
  intro all
  have answered := all [.broker .addClient, .broker (.sendRequest 0), .broker (.mainReceives 1),
    .serviceDies true 0, .remoteDisconnect] _ (Machine.exec_mem_visited _ _ _)
  exact absurd answered.dropped (by decide)

end ChromiumDemo.BrokerFailure
