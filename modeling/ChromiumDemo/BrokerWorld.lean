import ChromiumDemo.AssocMap
import ChromiumDemo.TransitionSystem
import Mathlib.Algebra.Ring.Int.Defs
import Mathlib.Algebra.Ring.Nat

/-! The broker of demo_mojo_child_process: the main process with its
`ConnectionHelper`, the service process with its `ConnectionFactory`, any number of
clients, and the mojo pipes between them as FIFO queues. A response callback is the
request that it answers, and a disconnect handler is an action of its receiver that
may run any time after the far end has closed, with the id that it captured. -/

namespace ChromiumDemo.Broker
open TransitionSystem AssocMap

structure PipeEnd where
  pipe : Nat
  handle1 : Bool
deriving DecidableEq

def PipeEnd.peer (e : PipeEnd) : PipeEnd := { e with handle1 := !e.handle1 }

def increment (n : Int) : Int := if n = 2 ^ 31 - 1 then -2 ^ 31 else n + 1

/-- A `mojo::Receiver` on the pipe of a client, with the id its disconnect handler captured. -/
structure Receiver where
  client : Nat
  captured : Int
deriving DecidableEq

/-- The response callback of one request of a client, which came in through the
receiver of that key. -/
structure Responder where
  client : Nat
  request : Nat
  receiver : Int
deriving DecidableEq

/-- `nextRequest` and `pending` are the numbers and the callbacks of the requests
that went out through `remote_`. -/
structure ConnectionHelper where
  clientIndex : Int := 0
  receivers : Map Int Receiver := fun _ => none
  nextRequest : Nat := 0
  pending : Map Nat Responder := fun _ => none

def ConnectionHelper.addClient (client : Nat) (h : ConnectionHelper) :
    ConnectionHelper × Int × Bool :=
  let id := increment h.clientIndex
  let slot := emplace h.receivers id ⟨client, id⟩
  ({ h with clientIndex := id, receivers := slot.1 }, id, slot.2)

def ConnectionHelper.establishChannel (callback : Responder) (h : ConnectionHelper) :
    ConnectionHelper × Nat :=
  ({ h with
    nextRequest := h.nextRequest + 1
    pending := Function.update h.pending h.nextRequest (some callback) }, h.nextRequest)

def ConnectionHelper.onDisconnect (receiver : Receiver) (h : ConnectionHelper) :
    ConnectionHelper :=
  { h with receivers := erase h.receivers receiver.captured }

structure MyServiceImpl where
  receiver : PipeEnd
  captured : Int
deriving DecidableEq

structure ConnectionFactory where
  clientId : Int := 0
  service : Map Int MyServiceImpl := fun _ => none

/-- On the new message pipe `pipe`: the entry made for it, the response, and
whether the entry went in come back as well. -/
def ConnectionFactory.establishChannel (pipe : Nat) (f : ConnectionFactory) :
    ConnectionFactory × (Int × MyServiceImpl) × (Int × PipeEnd) × Bool :=
  let id := increment f.clientId
  let impl : MyServiceImpl := ⟨⟨pipe, false⟩, id⟩
  let slot := emplace f.service id impl
  ({ clientId := id, service := slot.1 }, (id, impl), (id, ⟨pipe, true⟩), slot.2)

def ConnectionFactory.onDisconnect (impl : MyServiceImpl) (f : ConnectionFactory) :
    ConnectionFactory :=
  { f with service := erase f.service impl.captured }

structure Reply where
  request : Nat
  id : Int
  handle : PipeEnd
deriving DecidableEq

structure Client where
  connected : Bool := false
  requests : Nat := 0
  toMain : List Nat := []
  fromMain : List Reply := []
  received : List Reply := []

/-- `indices`, `dropped`, `forwarded`, `produced`, `answered` and `impls` are the
history: client indices handed out, entries that an emplace dropped, callbacks in
the order of their requests to the service, responses that the service has sent,
those that main has taken, and the services made, with their keys. -/
structure World where
  helper : ConnectionHelper := {}
  factory : ConnectionFactory := {}
  clients : Nat → Client := fun _ => {}
  nextClient : Nat := 0
  toService : List Nat := []
  fromService : List Reply := []
  nextPipe : Nat := 0
  closed : Nat → Bool := fun _ => false
  indices : List Int := []
  dropped : Nat := 0
  forwarded : List Responder := []
  produced : List Reply := []
  answered : List Reply := []
  impls : List (Int × MyServiceImpl) := []

def World.setClient (c : Nat) (client : Client) (w : World) : World :=
  { w with clients := Function.update w.clients c client }

inductive Action
  | addClient
  | sendRequest (client : Nat)
  | mainReceives (key : Int)
  | serviceReceives
  | mainTakesReply
  | clientReceives (client : Nat)
  | closeClient (client : Nat)
  | clientDisconnect (key : Int)
  | closeService (pipe : Nat)
  | serviceDisconnect (key : Int)
deriving DecidableEq

def addClient (w : World) : World :=
  let added := w.helper.addClient w.nextClient
  { w with
    helper := added.1
    clients := Function.update w.clients w.nextClient { connected := added.2.2 }
    nextClient := w.nextClient + 1
    indices := w.indices ++ [added.2.1]
    dropped := if added.2.2 then w.dropped else w.dropped + 1 }

def World.send (c : Nat) (w : World) : World :=
  let client := w.clients c
  w.setClient c { client with
    requests := client.requests + 1
    toMain := client.toMain ++ [client.requests] }

def sendRequest (c : Nat) (w : World) : Option World :=
  if (w.clients c).connected then some (w.send c) else none

def World.forward (callback : Responder) (rest : List Nat) (w : World) : World :=
  let sent := w.helper.establishChannel callback
  let client := { w.clients callback.client with toMain := rest }
  { w with
    helper := sent.1
    clients := Function.update w.clients callback.client client
    toService := w.toService ++ [sent.2]
    forwarded := w.forwarded ++ [callback] }

def mainReceives (key : Int) (w : World) : Option World :=
  match w.helper.receivers key with
  | none => none
  | some receiver => match (w.clients receiver.client).toMain with
    | [] => none
    | request :: rest => some (w.forward ⟨receiver.client, request, key⟩ rest)

def World.serve (request : Nat) (rest : List Nat) (w : World) : World :=
  let made := w.factory.establishChannel w.nextPipe
  let reply : Reply := ⟨request, made.2.2.1.1, made.2.2.1.2⟩
  { w with
    factory := made.1
    toService := rest
    fromService := w.fromService ++ [reply]
    nextPipe := w.nextPipe + 1
    dropped := if made.2.2.2 then w.dropped else w.dropped + 1
    produced := w.produced ++ [reply]
    impls := w.impls ++ [made.2.1] }

def serviceReceives (w : World) : Option World :=
  match w.toService with
  | [] => none
  | request :: rest => some (w.serve request rest)

def World.take (reply : Reply) (rest : List Reply) (w : World) : World :=
  { w with
    helper := { w.helper with pending := erase w.helper.pending reply.request }
    fromService := rest
    answered := w.answered ++ [reply] }

def World.close (pipe : Nat) (w : World) : World :=
  { w with closed := Function.update w.closed pipe true }

def World.run (callback : Responder) (reply : Reply) (w : World) : World :=
  if (w.helper.receivers callback.receiver).map Receiver.client = some callback.client then
    let client := w.clients callback.client
    w.setClient callback.client { client with
      fromMain := client.fromMain ++ [{ reply with request := callback.request }] }
  else w.close reply.handle.pipe

def mainTakesReply (w : World) : Option World :=
  match w.fromService with
  | [] => none
  | reply :: rest => match w.helper.pending reply.request with
    | none => some (w.take reply rest)
    | some callback => some ((w.take reply rest).run callback reply)

def World.receive (c : Nat) (reply : Reply) (rest : List Reply) (w : World) : World :=
  let client := w.clients c
  w.setClient c { client with fromMain := rest, received := client.received ++ [reply] }

def clientReceives (c : Nat) (w : World) : Option World :=
  match (w.clients c).fromMain with
  | [] => none
  | reply :: rest => if (w.clients c).connected then some (w.receive c reply rest) else none

def clientDisconnect (key : Int) (w : World) : Option World :=
  match w.helper.receivers key with
  | none => none
  | some receiver =>
    if (w.clients receiver.client).connected then none
    else some { w with helper := w.helper.onDisconnect receiver }

def serviceDisconnect (key : Int) (w : World) : Option World :=
  match w.factory.service key with
  | none => none
  | some impl =>
    if w.closed impl.receiver.pipe then some { w with factory := w.factory.onDisconnect impl }
    else none

def step (w : World) : Action → Option World
  | .addClient => some (addClient w)
  | .sendRequest c => sendRequest c w
  | .mainReceives key => mainReceives key w
  | .serviceReceives => serviceReceives w
  | .mainTakesReply => mainTakesReply w
  | .clientReceives c => clientReceives c w
  | .closeClient c => some (w.setClient c { w.clients c with connected := false })
  | .clientDisconnect key => clientDisconnect key w
  | .closeService pipe => if pipe < w.nextPipe then some (w.close pipe) else none
  | .serviceDisconnect key => serviceDisconnect key w

def machine : Machine World Action := ⟨step⟩

inductive Moves (w : World) : World → Prop
  | addClient : Moves w (addClient w)
  | send (c : Nat) : (w.clients c).connected → Moves w (w.send c)
  | forward (callback : Responder) (rest : List Nat) :
      (w.clients callback.client).toMain = callback.request :: rest →
      Moves w (w.forward callback rest)
  | serve (request : Nat) (rest : List Nat) :
      w.toService = request :: rest → Moves w (w.serve request rest)
  | take (reply : Reply) (rest : List Reply) : w.fromService = reply :: rest →
      w.helper.pending reply.request = none → Moves w (w.take reply rest)
  | run (callback : Responder) (reply : Reply) (rest : List Reply) :
      w.fromService = reply :: rest → w.helper.pending reply.request = some callback →
      Moves w ((w.take reply rest).run callback reply)
  | receive (c : Nat) (reply : Reply) (rest : List Reply) :
      (w.clients c).fromMain = reply :: rest → Moves w (w.receive c reply rest)
  | closeClient (c : Nat) : Moves w (w.setClient c { w.clients c with connected := false })
  | clientDisconnect (key : Int) (receiver : Receiver) : w.helper.receivers key = some receiver →
      Moves w { w with helper := w.helper.onDisconnect receiver }
  | closeService (pipe : Nat) : Moves w (w.close pipe)
  | serviceDisconnect (key : Int) (impl : MyServiceImpl) : w.factory.service key = some impl →
      Moves w { w with factory := w.factory.onDisconnect impl }

theorem moves_of_step {w d : World} {a : Action} (taken : step w a = some d) : Moves w d := by
  cases a with
  | addClient =>
    cases taken
    exact .addClient
  | sendRequest c =>
    simp only [step, sendRequest, Option.ite_none_right_eq_some, Option.some.injEq] at taken
    obtain ⟨connected, rfl⟩ := taken
    exact .send c connected
  | mainReceives key =>
    simp only [step, mainReceives] at taken
    split at taken
    · cases taken
    next receiver found =>
    split at taken
    · cases taken
    next request rest queue =>
    cases taken
    exact .forward ⟨receiver.client, request, key⟩ rest queue
  | serviceReceives =>
    simp only [step, serviceReceives] at taken
    split at taken
    · cases taken
    next request rest queue =>
    cases taken
    exact .serve request rest queue
  | mainTakesReply =>
    simp only [step, mainTakesReply] at taken
    split at taken
    · cases taken
    next reply rest queue =>
    split at taken
    case h_1 idle =>
      cases taken
      exact .take reply rest queue idle
    case h_2 callback found =>
      cases taken
      exact .run callback reply rest queue found
  | clientReceives c =>
    simp only [step, clientReceives] at taken
    split at taken
    · cases taken
    next reply rest queue =>
    rw [Option.ite_none_right_eq_some, Option.some.injEq] at taken
    obtain ⟨-, rfl⟩ := taken
    exact .receive c reply rest queue
  | closeClient c =>
    cases taken
    exact .closeClient c
  | clientDisconnect key =>
    simp only [step, clientDisconnect] at taken
    split at taken
    · cases taken
    next receiver found =>
    rw [Option.ite_none_left_eq_some, Option.some.injEq] at taken
    obtain ⟨-, rfl⟩ := taken
    exact .clientDisconnect key receiver found
  | closeService pipe =>
    simp only [step, Option.ite_none_right_eq_some, Option.some.injEq] at taken
    obtain ⟨-, rfl⟩ := taken
    exact .closeService pipe
  | serviceDisconnect key =>
    simp only [step, serviceDisconnect] at taken
    split at taken
    · cases taken
    next impl found =>
    rw [Option.ite_none_right_eq_some, Option.some.injEq] at taken
    obtain ⟨-, rfl⟩ := taken
    exact .serviceDisconnect key impl found

end ChromiumDemo.Broker
