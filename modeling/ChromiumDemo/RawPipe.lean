import ChromiumDemo.FifoChannels
import Mathlib.Tactic.IntervalCases

/-! The two processes of demo_mojo_multiple_process, in a build with DCHECKs. The
producer writes its messages without waiting, and what it has written arrives pipe by
pipe; the consumer reads in a fixed order and expects that each read finds something. -/

namespace ChromiumDemo.RawPipe
open TransitionSystem FifoChannels

abbrev Bytes := List UInt8

/-- The raw pipe, and the two pipes whose ends go over it. -/
inductive Pipe
  | main
  | data
  | client
deriving DecidableEq

inductive Handle
  | consumer
  | client
  | buffer
deriving DecidableEq

structure Message where
  payload : Bytes
  handle : Option Handle := none
deriving DecidableEq

inductive Op
  | write (pipe : Pipe) (message : Message)
  | store (byte : UInt8)
deriving DecidableEq

def text (s : String) : Bytes := s.toList.map fun c => c.toNat.toUInt8

def cstring (s : String) : Bytes := text s ++ [0]

def mojoProducer : List Op :=
  [.write .main ⟨cstring "hello", none⟩,
    .write .main ⟨cstring "HELLO", none⟩,
    .write .main ⟨cstring "DataPipe", some .consumer⟩,
    .write .data ⟨text "DataPipe", none⟩,
    .write .main ⟨cstring "MessagePipe", some .client⟩,
    .write .client ⟨cstring "MessagePipe", none⟩,
    .write .main ⟨cstring "SharedBuffer", some .buffer⟩] ++
  (cstring "SharedBuffer").map .store ++
  [.write .main ⟨cstring "SimplerWatcher", none⟩,
    .write .main ⟨cstring "SimplerWatcher2", none⟩]

inductive Task
  | await
  | read (pipe : Pipe) (indexesHandle : Bool)
  | mapBuffer
  | watch
deriving DecidableEq

/-- After the last task `PipeReader` reads whatever arrives. -/
def mojoConsumer : List Task :=
  [.await, .read .main false, .read .main false, .read .main true, .read .data false,
    .read .main true, .read .client false, .read .main true, .mapBuffer, .watch]

/-- `buffer` is what has been stored before the zeros, `shown` the texts read from it. -/
structure World where
  producer : List Op := mojoProducer
  flight : Pipe → List Message := fun _ => []
  arrived : Pipe → List Message := fun _ => []
  buffer : Bytes := []
  consumer : List Task := mojoConsumer
  read : List (Pipe × Message) := []
  shown : List Bytes := []
  failed : Bool := false

def take (pipe : Pipe) (message : Message) (rest : List Message) (w : World) : World :=
  { w with
    arrived := Function.update w.arrived pipe rest
    read := w.read ++ [(pipe, message)] }

/-- A read that finds nothing fails its `DCHECK_EQ`, and so would `handles[0]` of a
message without a handle. -/
def readMessage (pipe : Pipe) (indexesHandle : Bool) (w : World) : World :=
  match w.arrived pipe with
  | [] => { w with failed := true }
  | message :: rest =>
    if indexesHandle ∧ message.handle = none then { w with failed := true }
    else take pipe message rest w

def produce (w : World) : Option World :=
  match w.producer with
  | [] => none
  | .write pipe message :: rest => some { w with
      producer := rest
      flight := Function.update w.flight pipe (w.flight pipe ++ [message]) }
  | .store byte :: rest => some { w with producer := rest, buffer := w.buffer ++ [byte] }

def deliver (pipe : Pipe) (w : World) : Option World :=
  match w.flight pipe with
  | [] => none
  | message :: rest => some { w with
      flight := Function.update w.flight pipe rest
      arrived := Function.update w.arrived pipe (w.arrived pipe ++ [message]) }

/-- `Wait` blocks until there is a message, and a watcher is not called without one. -/
def consume (w : World) : Option World :=
  match w.consumer with
  | [] => none
  | .await :: rest => if w.arrived .main = [] then none else some { w with consumer := rest }
  | .read pipe indexesHandle :: rest =>
    some (readMessage pipe indexesHandle { w with consumer := rest })
  | .mapBuffer :: rest => some { w with
      consumer := rest
      shown := w.shown ++ [w.buffer.takeWhile (· != 0)] }
  | .watch :: _ => match w.arrived .main with
    | [] => none
    | message :: rest => some (take .main message rest w)

inductive Action
  | produce
  | deliver (pipe : Pipe)
  | consume
deriving DecidableEq

def step (w : World) : Action → Option World
  | .produce => produce w
  | .deliver pipe => deliver pipe w
  | .consume => consume w

def machine : Machine World Action := .haltOn World.failed step

def written : List Op → List (Pipe × Message)
  | [] => []
  | .write pipe message :: ops => (pipe, message) :: written ops
  | .store _ :: ops => written ops

def pipes (tasks : List Task) : List Pipe :=
  tasks.filterMap fun | .read pipe _ => some pipe | _ => none

def ideal : List (Pipe × Message) :=
  [(.main, ⟨cstring "hello", none⟩),
    (.main, ⟨cstring "HELLO", none⟩),
    (.main, ⟨cstring "DataPipe", some .consumer⟩),
    (.data, ⟨text "DataPipe", none⟩),
    (.main, ⟨cstring "MessagePipe", some .client⟩),
    (.client, ⟨cstring "MessagePipe", none⟩),
    (.main, ⟨cstring "SharedBuffer", some .buffer⟩),
    (.main, ⟨cstring "SimplerWatcher", none⟩),
    (.main, ⟨cstring "SimplerWatcher2", none⟩)]

theorem on_ideal (pipe : Pipe) : on pipe ideal = on pipe (written mojoProducer) := by
  cases pipe <;> decide

/-- What the consumer has done of its tasks, and how often `PipeReader` has read since. -/
structure Progress (consumer : List Task) (read : List (Pipe × Message)) (done : List Task)
    (more : Nat) : Prop where
  tasks : mojoConsumer = done ++ consumer
  pipes : read.map Prod.fst = pipes done ++ List.replicate more .main
  watching : 0 < more → consumer = [.watch]
  last : .watch ∈ consumer

def stored : List Op → Bytes
  | [] => []
  | .write _ _ :: ops => stored ops
  | .store byte :: ops => byte :: stored ops

structure Inv (w : World) : Prop where
  conserved : ∀ pipe, on pipe w.read ++ w.arrived pipe ++ w.flight pipe ++
    on pipe (written w.producer) = on pipe (written mojoProducer)
  left : w.producer <:+ mojoProducer
  buffer : w.buffer ++ stored w.producer = cstring "SharedBuffer"
  shown : ∀ t ∈ w.shown, t <+: text "SharedBuffer"
  progress : w.failed = false → ∃ done more, Progress w.consumer w.read done more

theorem takeWhile_prefix_takeWhile {α : Type*} (p : α → Bool) {l m : List α} (h : l <+: m) :
    l.takeWhile p <+: m.takeWhile p := by
  obtain ⟨rest, rfl⟩ := h
  induction l with
  | nil => exact List.nil_prefix
  | cons a l ih =>
    rw [List.cons_append, List.takeWhile_cons, List.takeWhile_cons]
    split
    · exact List.cons_prefix_cons.mpr ⟨rfl, ih⟩
    · exact List.prefix_rfl

theorem start_inv : Inv {} := by
  refine ⟨fun pipe => rfl, List.suffix_rfl, by decide, fun t member => ?_, fun _ => ?_⟩
  · cases member
  · exact ⟨[], 0, rfl, rfl, fun positive => absurd positive (Nat.lt_irrefl 0), by decide⟩

theorem produce_inv {w t : World} (h : Inv w) (moved : produce w = some t) : Inv t := by
  rw [produce] at moved
  split at moved
  · cases moved
  · rename_i pipe message rest todo
    obtain rfl := Option.some.inj moved
    have left := h.left
    have buffer := h.buffer
    rw [todo] at left buffer
    refine ⟨fun k => ?_, (List.suffix_cons _ _).trans left, buffer, h.shown, h.progress⟩
    have conserved := h.conserved k
    rw [todo, written] at conserved
    by_cases same : k = pipe
    · subst same
      rw [on_cons_self] at conserved
      simpa using conserved
    · rw [on_cons_of_ne _ _ (Ne.symm same)] at conserved
      simpa [same] using conserved
  · rename_i byte rest todo
    obtain rfl := Option.some.inj moved
    have left := h.left
    have buffer := h.buffer
    rw [todo] at left buffer
    refine ⟨fun k => ?_, (List.suffix_cons _ _).trans left, ?_, h.shown, h.progress⟩
    · have conserved := h.conserved k
      rwa [todo, written] at conserved
    · simpa [stored] using buffer

theorem deliver_inv {w t : World} {pipe : Pipe} (h : Inv w) (moved : deliver pipe w = some t) :
    Inv t := by
  rw [deliver] at moved
  split at moved
  · cases moved
  · rename_i message rest flying
    obtain rfl := Option.some.inj moved
    refine ⟨fun k => ?_, h.left, h.buffer, h.shown, h.progress⟩
    have conserved := h.conserved k
    by_cases same : k = pipe
    · subst same
      rw [flying] at conserved
      simpa using conserved
    · simpa [same] using conserved

theorem take_inv {w : World} {pipe : Pipe} {message : Message} {rest : List Message}
    (h : Inv w) (waiting : w.arrived pipe = message :: rest) (consumer : List Task)
    (progress : ∃ done more, Progress consumer (w.read ++ [(pipe, message)]) done more) :
    Inv (take pipe message rest { w with consumer }) := by
  refine ⟨fun k => ?_, h.left, h.buffer, h.shown, fun _ => progress⟩
  have conserved := h.conserved k
  by_cases same : k = pipe
  · subst same
    rw [waiting] at conserved
    simpa [take, on_singleton] using conserved
  · simpa [take, on_singleton, same, Ne.symm same] using conserved

theorem pipes_append (done rest : List Task) : pipes (done ++ rest) = pipes done ++ pipes rest :=
  List.filterMap_append

theorem pipes_read (pipe : Pipe) (indexed : Bool) (rest : List Task) :
    pipes (.read pipe indexed :: rest) = pipe :: pipes rest := rfl

def Starved (pipe : Pipe) (indexesHandle : Bool) (w : World) : Prop :=
  w.arrived pipe = [] ∨ ∃ message rest, w.arrived pipe = message :: rest ∧
    indexesHandle = true ∧ message.handle = none

theorem consume_cases {w t : World} (moved : consume w = some t) :
    (∃ rest, w.consumer = .await :: rest ∧ t = { w with consumer := rest }) ∨
    (∃ rest, w.consumer = .mapBuffer :: rest ∧ t = { w with
      consumer := rest
      shown := w.shown ++ [w.buffer.takeWhile (· != 0)] }) ∨
    (∃ pipe indexesHandle rest, w.consumer = .read pipe indexesHandle :: rest ∧
      Starved pipe indexesHandle w ∧ t = { w with consumer := rest, failed := true }) ∨
    (∃ pipe indexesHandle rest message others, w.consumer = .read pipe indexesHandle :: rest ∧
      w.arrived pipe = message :: others ∧
      t = take pipe message others { w with consumer := rest }) ∨
    ∃ rest message others, w.consumer = .watch :: rest ∧ w.arrived .main = message :: others ∧
      t = take .main message others w := by
  rw [consume] at moved
  split at moved
  · cases moved
  · rename_i rest todo
    obtain ⟨-, same⟩ := Option.ite_none_left_eq_some.mp moved
    exact .inl ⟨rest, todo, (Option.some.inj same).symm⟩
  · rename_i pipe indexesHandle rest todo
    right; right
    obtain rfl := Option.some.inj moved
    cases waiting : w.arrived pipe with
    | nil =>
      left
      refine ⟨pipe, indexesHandle, rest, todo, .inl waiting, ?_⟩
      simp [readMessage, waiting]
    | cons message others =>
      by_cases missing : indexesHandle = true ∧ message.handle = none
      · left
        refine ⟨pipe, indexesHandle, rest, todo, .inr ⟨message, others, waiting, missing⟩, ?_⟩
        simp [readMessage, waiting, missing]
      · right; left
        refine ⟨pipe, indexesHandle, rest, message, others, todo, waiting, ?_⟩
        simp [readMessage, waiting, missing]
  · rename_i rest todo
    exact .inr (.inl ⟨rest, todo, (Option.some.inj moved).symm⟩)
  · rename_i rest todo
    right; right; right; right
    split at moved
    · cases moved
    · rename_i message others waiting
      exact ⟨rest, message, others, todo, waiting, (Option.some.inj moved).symm⟩

theorem watch_last {done rest : List Task} (tasks : mojoConsumer = done ++ .watch :: rest) :
    rest = [] := by
  rcases List.eq_nil_or_concat' rest with none | ⟨front, last, rfl⟩
  · exact none
  · exfalso
    rw [← List.cons_append, ← List.append_assoc] at tasks
    have fixed : mojoConsumer = mojoConsumer.dropLast ++ [.watch] := by decide
    have earlier := (List.append_inj' (fixed.symm.trans tasks) rfl).1
    have member : Task.watch ∈ mojoConsumer.dropLast := by simp [earlier]
    exact absurd member (by decide)

/-- Before its last task the consumer has read what its tasks read. -/
theorem progress_reads {task : Task} {rest done : List Task} {consumer : List Task}
    {read : List (Pipe × Message)} {more : Nat} (h : Progress consumer read done more)
    (todo : consumer = task :: rest) (fixed : task ≠ .watch) : read.map Prod.fst = pipes done := by
  have none_more : more = 0 := by
    by_contra some_more
    have watching := h.watching (Nat.pos_of_ne_zero some_more)
    rw [todo] at watching
    exact fixed (List.cons.inj watching).1
  rw [h.pipes, none_more, List.replicate_zero, List.append_nil]

theorem progress_next {task : Task} {rest done : List Task} {read later : List (Pipe × Message)}
    {more : Nat} (h : Progress (task :: rest) read done more) (fixed : task ≠ .watch)
    (took : later.map Prod.fst = read.map Prod.fst ++ pipes [task]) :
    Progress rest later (done ++ [task]) 0 := by
  refine ⟨?_, ?_, fun positive => absurd positive (Nat.lt_irrefl 0), ?_⟩
  · rw [h.tasks, List.append_assoc, List.singleton_append]
  · rw [took, progress_reads h rfl fixed, pipes_append, List.replicate_zero, List.append_nil]
  · exact (List.mem_cons.mp h.last).resolve_left (Ne.symm fixed)

theorem progress_watch {rest done : List Task} {read : List (Pipe × Message)} {more : Nat}
    (h : Progress (.watch :: rest) read done more) (message : Message) :
    Progress (.watch :: rest) (read ++ [(.main, message)]) done (more + 1) := by
  obtain rfl := watch_last h.tasks
  refine ⟨h.tasks, ?_, fun _ => rfl, h.last⟩
  rw [List.map_append, h.pipes, List.replicate_succ', List.append_assoc]
  rfl

theorem consume_inv {w t : World} (h : Inv w) (alive : w.failed = false)
    (moved : consume w = some t) : Inv t := by
  obtain ⟨done, more, progress⟩ := h.progress alive
  obtain ⟨rest, todo, rfl⟩ | ⟨rest, todo, rfl⟩ | ⟨pipe, indexed, rest, todo, -, rfl⟩ |
    ⟨pipe, indexed, rest, message, others, todo, waiting, rfl⟩ |
    ⟨rest, message, others, todo, waiting, rfl⟩ := consume_cases moved
  · rw [todo] at progress
    refine ⟨h.conserved, h.left, h.buffer, h.shown, fun _ => ⟨done ++ [.await], 0, ?_⟩⟩
    exact progress_next progress (by decide) (List.append_nil _).symm
  · rw [todo] at progress
    refine ⟨h.conserved, h.left, h.buffer, ?_, fun _ => ⟨done ++ [.mapBuffer], 0, ?_⟩⟩
    · intro t member
      rcases List.mem_append.mp member with old | new
      · exact h.shown t old
      · rw [List.mem_singleton.mp new]
        have copied : w.buffer <+: cstring "SharedBuffer" := ⟨_, h.buffer⟩
        exact takeWhile_prefix_takeWhile _ copied
    · exact progress_next progress (by decide) (List.append_nil _).symm
  · refine ⟨h.conserved, h.left, h.buffer, h.shown, fun ok => ?_⟩
    cases ok
  · rw [todo] at progress
    refine take_inv h waiting rest ⟨done ++ [.read pipe indexed], 0, ?_⟩
    exact progress_next progress (by simp) List.map_append
  · have watching : (w.consumer : List Task) = .watch :: rest := todo
    have next : take .main message others w =
        take .main message others { w with consumer := w.consumer } := rfl
    rw [next]
    refine take_inv h waiting w.consumer ⟨done, more + 1, ?_⟩
    rw [todo] at progress ⊢
    exact progress_watch progress message

theorem step_inv (w : World) (a : Action) (t : World) (h : Inv w)
    (moved : machine.step w a = some t) : Inv t := by
  obtain ⟨alive, moved⟩ := Machine.step_of_haltOn moved
  cases a with
  | produce => exact produce_inv h moved
  | deliver pipe => exact deliver_inv h moved
  | consume => exact consume_inv h alive moved

theorem exec_inv (as : List Action) : Inv (machine.exec {} as) :=
  Machine.exec_invariant step_inv start_inv as

theorem pipes_consumer : pipes mojoConsumer = (ideal.take 7).map Prod.fst := by decide

theorem length_on {α β : Type*} [DecidableEq α] (k : α) (log : List (α × β)) :
    (on k log).length = (log.map Prod.fst).count k := by
  induction log with
  | nil => rfl
  | cons e log ih =>
    obtain ⟨j, m⟩ := e
    by_cases same : j = k
    · subst same
      rw [on_cons_self, List.length_cons, ih, List.map_cons, List.count_cons_self]
    · rw [on_cons_of_ne _ _ same, ih, List.map_cons, List.count_cons_of_ne same]

theorem read_on_ideal {w : World} (h : Inv w) (pipe : Pipe) :
    on pipe w.read <+: on pipe ideal := by
  rw [on_ideal, ← h.conserved pipe, List.append_assoc, List.append_assoc]
  exact List.prefix_append _ _

theorem read_prefix_ideal {w : World} (h : Inv w) (alive : w.failed = false) :
    w.read <+: ideal := by
  obtain ⟨done, more, progress⟩ := h.progress alive
  refine prefix_of_on (read_on_ideal h) ?_
  rw [progress.pipes]
  have whole : ideal.map Prod.fst = pipes mojoConsumer ++ [.main, .main] := by decide
  rw [whole]
  by_cases watching : 0 < more
  · have all := progress.tasks
    rw [progress.watching watching] at all
    have done_all : pipes done = pipes mojoConsumer := by
      rw [all, pipes_append]
      simp [pipes]
    have few : more ≤ 2 := by
      have bound := (read_on_ideal h .main).length_le
      rw [length_on, progress.pipes, done_all, List.count_append, List.count_replicate_self]
        at bound
      have main : (pipes mojoConsumer).count .main = 5 := by decide
      have total : (on Pipe.main ideal).length = 7 := by decide
      omega
    rw [done_all, List.prefix_append_right_inj]
    interval_cases more <;> decide
  · obtain rfl : more = 0 := by omega
    rw [List.replicate_zero, List.append_nil, progress.tasks]
    refine List.IsPrefix.trans ?_ (List.prefix_append _ _)
    rw [pipes_append]
    exact List.prefix_append _ _

theorem next_ideal {w : World} (h : Inv w) (alive : w.failed = false) {pipe : Pipe}
    {indexed : Bool} {rest : List Task} (todo : w.consumer = .read pipe indexed :: rest) :
    ∃ message later, ideal = w.read ++ (pipe, message) :: later := by
  obtain ⟨done, more, progress⟩ := h.progress alive
  obtain ⟨later, split⟩ := read_prefix_ideal h alive
  have reads := progress_reads progress todo (by simp)
  have tasks := congrArg pipes progress.tasks
  rw [todo, pipes_append, pipes_read] at tasks
  have whole : ideal.map Prod.fst = pipes mojoConsumer ++ [.main, .main] := by decide
  rw [tasks, ← split, List.map_append, reads, List.append_assoc] at whole
  have rests := List.append_cancel_left whole
  cases later with
  | nil => cases rests
  | cons e later =>
    obtain ⟨rfl, -⟩ := List.cons.inj rests
    exact ⟨e.2, later, split.symm⟩

def indexesHandle : Task → Bool
  | .read _ indexed => indexed
  | _ => false

theorem handles_ideal : ∀ n < 10, (mojoConsumer[n]?).any indexesHandle = true →
    ((ideal[(pipes (mojoConsumer.take n)).length]?).any fun e => e.2.handle.isSome) = true := by
  decide

theorem handle_of_indexed {w : World} (h : Inv w) (alive : w.failed = false) {pipe : Pipe}
    {rest : List Task} (todo : w.consumer = .read pipe true :: rest) {message : Message}
    {later : List (Pipe × Message)} (split : ideal = w.read ++ (pipe, message) :: later) :
    message.handle ≠ none := by
  obtain ⟨done, more, progress⟩ := h.progress alive
  have reads := congrArg List.length (progress_reads progress todo (by simp))
  rw [List.length_map] at reads
  have tasks := progress.tasks
  rw [todo] at tasks
  have bound : done.length < 10 := by
    have total := congrArg List.length tasks
    have ten : mojoConsumer.length = 10 := rfl
    rw [ten, List.length_append, List.length_cons] at total
    omega
  have done_take : mojoConsumer.take done.length = done := by
    rw [tasks, List.take_left]
  have here : mojoConsumer[done.length]? = some (.read pipe true) := by
    rw [tasks, List.getElem?_append_right (Nat.le_refl _), Nat.sub_self, List.getElem?_cons_zero]
  have there : ideal[w.read.length]? = some (pipe, message) := by
    rw [split, List.getElem?_append_right (Nat.le_refl _), Nat.sub_self, List.getElem?_cons_zero]
  have carried := handles_ideal done.length bound (by rw [here]; rfl)
  rw [done_take, ← reads, there] at carried
  intro missing
  simp [missing] at carried

structure Agrees (w : World) : Prop where
  inv : Inv w
  read : w.read <+: ideal
  early : w.failed = true → ∃ e later, ideal = w.read ++ e :: later ∧ w.arrived e.1 = []

theorem starved_early {w : World} (h : Inv w) (alive : w.failed = false) {pipe : Pipe}
    {indexed : Bool} {rest : List Task} (todo : w.consumer = .read pipe indexed :: rest)
    (starved : Starved pipe indexed w) : w.arrived pipe = [] := by
  rcases starved with none | ⟨message, others, waiting, rfl, missing⟩
  · exact none
  · obtain ⟨due, later, split⟩ := next_ideal h alive todo
    have order := congrArg (on pipe) split
    rw [on_append, on_cons_self, on_ideal, ← h.conserved pipe, waiting, List.append_assoc,
      List.append_assoc, List.cons_append] at order
    obtain ⟨rfl, -⟩ := List.cons.inj (List.append_cancel_left order)
    exact absurd missing (handle_of_indexed h alive todo split)

theorem agrees_of_alive {w : World} (h : Inv w) (alive : w.failed = false) : Agrees w := by
  refine ⟨h, read_prefix_ideal h alive, fun failed => ?_⟩
  rw [alive] at failed
  cases failed

/-- What neither the producer nor a delivery touches. -/
structure SameConsumer (w t : World) : Prop where
  consumer : t.consumer = w.consumer
  read : t.read = w.read
  shown : t.shown = w.shown
  failed : t.failed = w.failed

theorem produce_sameConsumer {w t : World} (moved : produce w = some t) : SameConsumer w t := by
  rw [produce] at moved
  split at moved
  · cases moved
  · rw [← Option.some.inj moved]
    exact ⟨rfl, rfl, rfl, rfl⟩
  · rw [← Option.some.inj moved]
    exact ⟨rfl, rfl, rfl, rfl⟩

theorem deliver_sameConsumer {w t : World} {pipe : Pipe} (moved : deliver pipe w = some t) :
    SameConsumer w t := by
  rw [deliver] at moved
  split at moved
  · cases moved
  · rw [← Option.some.inj moved]
    exact ⟨rfl, rfl, rfl, rfl⟩

theorem step_sameConsumer {w t : World} {a : Action} (other : a ≠ .consume)
    (moved : step w a = some t) : SameConsumer w t := by
  cases a with
  | produce => exact produce_sameConsumer moved
  | deliver pipe => exact deliver_sameConsumer moved
  | consume => exact absurd rfl other

theorem step_agrees (w : World) (a : Action) (t : World) (h : Agrees w)
    (moved : machine.step w a = some t) : Agrees t := by
  have inv := step_inv w a t h.inv moved
  obtain ⟨alive, moved⟩ := Machine.step_of_haltOn moved
  cases a with
  | produce => exact agrees_of_alive inv ((produce_sameConsumer moved).failed.trans alive)
  | deliver pipe => exact agrees_of_alive inv ((deliver_sameConsumer moved).failed.trans alive)
  | consume =>
    obtain ⟨rest, -, rfl⟩ | ⟨rest, -, rfl⟩ | ⟨pipe, indexed, rest, todo, starved, rfl⟩ |
      ⟨pipe, indexed, rest, message, others, -, -, rfl⟩ |
      ⟨rest, message, others, -, -, rfl⟩ := consume_cases moved
    · exact agrees_of_alive inv alive
    · exact agrees_of_alive inv alive
    · obtain ⟨message, later, split⟩ := next_ideal h.inv alive todo
      exact ⟨inv, h.read, fun _ => ⟨(pipe, message), later, split,
        starved_early h.inv alive todo starved⟩⟩
    · exact agrees_of_alive inv alive
    · exact agrees_of_alive inv alive

theorem exec_agrees (as : List Action) : Agrees (machine.exec {} as) :=
  Machine.exec_invariant step_agrees (agrees_of_alive start_inv rfl) as

/-- In every order of the steps the consumer reads the ideal messages, the buffer shows
a beginning of its text, and a read fails only if its message has not arrived. -/
theorem raw_pipe_reads (as : List Action) :
    (machine.exec {} as).read <+: ideal ∧
    (∀ t ∈ (machine.exec {} as).shown, t <+: text "SharedBuffer") ∧
    ((machine.exec {} as).failed = true → ∃ e later,
      ideal = (machine.exec {} as).read ++ e :: later ∧
        (machine.exec {} as).arrived e.1 = []) :=
  ⟨(exec_agrees as).read, (exec_agrees as).inv.shown, (exec_agrees as).early⟩

/-- All that the consumer itself reads is there, as it hopes for when it sleeps before
its first read. -/
structure Supplied (w : World) : Prop where
  inv : Inv w
  alive : w.failed = false
  arrived : ∀ pipe, on pipe (ideal.take 7) <+: on pipe w.read ++ w.arrived pipe
  buffer : w.buffer = cstring "SharedBuffer"
  shown : ∀ t ∈ w.shown, t = text "SharedBuffer"
  mapped : w.shown.length + w.consumer.count .mapBuffer = 1

theorem not_starved {w : World} (h : Supplied w) {pipe : Pipe} {indexed : Bool}
    {rest : List Task} (todo : w.consumer = .read pipe indexed :: rest) :
    ¬ Starved pipe indexed w := by
  intro starved
  obtain ⟨done, more, progress⟩ := h.inv.progress h.alive
  have reads := progress_reads progress todo (by simp)
  have bound := (h.arrived pipe).length_le
  rw [starved_early h.inv h.alive todo starved, List.append_nil, length_on, length_on,
    ← pipes_consumer, reads, progress.tasks, todo, pipes_append, pipes_read, List.count_append,
    List.count_cons_self] at bound
  omega

theorem take_supplied {w : World} {pipe : Pipe} {message : Message} {others : List Message}
    (arrived : ∀ k, on k (ideal.take 7) <+: on k w.read ++ w.arrived k)
    (waiting : w.arrived pipe = message :: others) (k : Pipe) :
    on k (ideal.take 7) <+: on k (w.read ++ [(pipe, message)]) ++
      Function.update w.arrived pipe others k := by
  have before := arrived k
  by_cases same : k = pipe
  · subst same
    rw [waiting] at before
    simpa [on_singleton] using before
  · simpa [on_singleton, same, Ne.symm same] using before

theorem step_supplied (w : World) (a : Action) (t : World) (h : Supplied w)
    (moved : machine.step w a = some t) : Supplied t := by
  have inv := step_inv w a t h.inv moved
  obtain ⟨-, moved⟩ := Machine.step_of_haltOn moved
  cases a with
  | produce =>
    change produce w = some t at moved
    rw [produce] at moved
    split at moved
    · cases moved
    · obtain rfl := Option.some.inj moved
      exact ⟨inv, h.alive, h.arrived, h.buffer, h.shown, h.mapped⟩
    · rename_i byte rest todo
      have copied := h.inv.buffer
      rw [h.buffer, todo, stored] at copied
      cases List.append_right_eq_self.mp copied
  | deliver pipe =>
    change deliver pipe w = some t at moved
    rw [deliver] at moved
    split at moved
    · cases moved
    · obtain rfl := Option.some.inj moved
      refine ⟨inv, h.alive, fun k => ?_, h.buffer, h.shown, h.mapped⟩
      refine (h.arrived k).trans ?_
      by_cases same : k = pipe
      · subst same
        simp
      · simp [same]
  | consume =>
    have mapped := h.mapped
    obtain ⟨rest, todo, rfl⟩ | ⟨rest, todo, rfl⟩ | ⟨pipe, indexed, rest, todo, starved, rfl⟩ |
      ⟨pipe, indexed, rest, message, others, todo, waiting, rfl⟩ |
      ⟨rest, message, others, -, waiting, rfl⟩ := consume_cases moved
    · rw [todo, List.count_cons_of_ne (by decide)] at mapped
      exact ⟨inv, h.alive, h.arrived, h.buffer, h.shown, mapped⟩
    · rw [todo, List.count_cons_self] at mapped
      refine ⟨inv, h.alive, h.arrived, h.buffer, fun t member => ?_, ?_⟩
      · rcases List.mem_append.mp member with old | new
        · exact h.shown t old
        · rw [List.mem_singleton.mp new, h.buffer]
          decide
      · rw [List.length_append, List.length_singleton, Nat.add_assoc, Nat.add_comm 1]
        exact mapped
    · exact absurd starved (not_starved h todo)
    · rw [todo, List.count_cons_of_ne (by simp)] at mapped
      exact ⟨inv, h.alive, fun k => take_supplied h.arrived waiting k, h.buffer, h.shown, mapped⟩
    · exact ⟨inv, h.alive, fun k => take_supplied h.arrived waiting k, h.buffer, h.shown, mapped⟩

theorem await_first {done rest : List Task} (tasks : mojoConsumer = done ++ .await :: rest) :
    done = [] := by
  cases done with
  | nil => rfl
  | cons task done =>
    have later := congrArg List.tail tasks
    have member : Task.await ∈ mojoConsumer.tail := by simp [later]
    exact absurd member (by decide)

theorem Supplied.watches {w : World} (h : Supplied w) (stuck : consume w = none) :
    w.consumer = [.watch] ∧ w.arrived .main = [] := by
  obtain ⟨done, more, progress⟩ := h.inv.progress h.alive
  rw [consume] at stuck
  split at stuck
  · rename_i todo
    have last := progress.last
    rw [todo] at last
    cases last
  · rename_i rest todo
    have nothing : w.arrived .main = [] := by
      by_contra some_there
      rw [if_neg some_there] at stuck
      cases stuck
    -- the first message is there, for nothing has been read yet
    have reads := progress_reads progress todo (by decide)
    have tasks := progress.tasks
    rw [todo] at tasks
    rw [await_first tasks] at reads
    have unread : w.read = [] := List.map_eq_nil_iff.mp reads
    have first := h.arrived .main
    rw [unread, nothing] at first
    exact absurd first (by decide)
  · cases stuck
  · cases stuck
  · rename_i rest todo
    have tasks := progress.tasks
    rw [todo] at tasks
    obtain rfl := watch_last tasks
    cases waiting : w.arrived .main with
    | nil => exact ⟨todo, rfl⟩
    | cons message others => simp [waiting] at stuck

theorem next_eq {w : World} (alive : w.failed = false) (a : Action) :
    machine.next w a = (step w a).getD w :=
  Machine.haltOn_next alive step a

theorem Supplied.next_consume {w : World} (h : Supplied w) :
    (machine.next w .consume).consumer.length ≤ max 1 (w.consumer.length - 1) := by
  rw [next_eq h.alive]
  change ((consume w).getD w).consumer.length ≤ _
  cases moved : consume w with
  | none =>
    have watching := (h.watches moved).1
    rw [Option.getD_none, watching]
    exact Nat.le_max_left _ _
  | some t =>
    rw [Option.getD_some]
    obtain ⟨rest, todo, rfl⟩ | ⟨rest, todo, rfl⟩ | ⟨pipe, indexed, rest, todo, -, rfl⟩ |
      ⟨pipe, indexed, rest, message, others, todo, -, rfl⟩ |
      ⟨rest, message, others, todo, -, rfl⟩ := consume_cases moved
    · simp [todo]
    · simp [todo]
    · simp [todo]
    · simp [todo, take]
    · obtain ⟨done, more, progress⟩ := h.inv.progress h.alive
      have tasks := progress.tasks
      rw [todo] at tasks
      simp [take, todo, watch_last tasks]

theorem Supplied.next_other {w : World} (h : Supplied w) {a : Action} (other : a ≠ .consume) :
    (machine.next w a).consumer = w.consumer := by
  rw [next_eq h.alive]
  cases moved : step w a with
  | none => rfl
  | some t => exact (step_sameConsumer other moved).consumer

theorem Supplied.exec_consumer {w : World} (h : Supplied w) (cs : List Action) :
    (machine.exec w cs).consumer.length ≤ max 1 (w.consumer.length - cs.count .consume) := by
  induction cs generalizing w with
  | nil => exact Nat.le_max_right _ _
  | cons a cs ih =>
    rw [Machine.exec_cons]
    have next : Supplied (machine.next w a) := Machine.exec_invariant step_supplied h [a]
    have rest := ih next
    by_cases own : a = .consume
    · subst own
      have fewer := h.next_consume
      rw [List.count_cons_self]
      omega
    · rw [h.next_other own] at rest
      rw [List.count_cons_of_ne own]
      exact rest

theorem Supplied.reads {w : World} (h : Supplied w) (watching : w.consumer = [.watch]) :
    ideal.take 7 <+: w.read ∧ w.shown = [text "SharedBuffer"] := by
  obtain ⟨done, more, progress⟩ := h.inv.progress h.alive
  constructor
  · have tasks := congrArg pipes progress.tasks
    rw [watching, pipes_append] at tasks
    have reads := congrArg List.length progress.pipes
    have seven : (pipes mojoConsumer).length = 7 := rfl
    have long : 7 ≤ w.read.length := by
      rw [List.length_map, List.length_append] at reads
      rw [tasks, List.length_append] at seven
      change (pipes done).length + 0 = 7 at seven
      omega
    obtain ⟨later, split⟩ := read_prefix_ideal h.inv h.alive
    rw [← split, List.take_append_of_le_length long]
    exact List.take_prefix _ _
  · have mapped := h.mapped
    rw [watching] at mapped
    exact List.eq_replicate_iff.mpr ⟨mapped, h.shown⟩

theorem Supplied.completes {w : World} (h : Supplied w) (rest : ∀ a, machine.step w a = none) :
    w.read = ideal ∧ w.shown = [text "SharedBuffer"] := by
  have still : ∀ a, step w a = none := fun a => by
    have none_left := rest a
    rwa [machine, Machine.haltOn_step h.alive] at none_left
  have produced : w.producer = [] := by
    have none_left : produce w = none := still .produce
    rw [produce] at none_left
    split at none_left
    · assumption
    · cases none_left
    · cases none_left
  have delivered : ∀ pipe, w.flight pipe = [] := fun pipe => by
    have none_left : deliver pipe w = none := still (.deliver pipe)
    rw [deliver] at none_left
    split at none_left
    · assumption
    · cases none_left
  obtain ⟨watching, drained⟩ := h.watches (still .consume)
  obtain ⟨itself, shown⟩ := h.reads watching
  refine ⟨?_, shown⟩
  obtain ⟨later, split⟩ := read_prefix_ideal h.inv h.alive
  obtain ⟨more, own⟩ := itself
  -- nothing that went over `pipe` is left, and the last two messages went over it
  have all := h.inv.conserved .main
  rw [drained, delivered, produced, ← on_ideal, List.append_nil, List.append_nil] at all
  change on .main w.read ++ [] = on .main ideal at all
  rw [List.append_nil, ← split, on_append] at all
  have unread : on Pipe.main later = [] := List.self_eq_append_right.mp all
  have whole : ideal = ideal.take 7 ++ [(.main, ⟨cstring "SimplerWatcher", none⟩),
    (.main, ⟨cstring "SimplerWatcher2", none⟩)] := by decide
  have rests : more ++ later = [(.main, ⟨cstring "SimplerWatcher", none⟩),
      (.main, ⟨cstring "SimplerWatcher2", none⟩)] := by
    rw [← own, List.append_assoc] at split
    exact List.append_cancel_left (split.trans whole)
  cases last : later.getLast? with
  | none => rw [← split, List.getLast?_eq_none_iff.mp last, List.append_nil]
  | some e =>
    have member : e ∈ later := List.mem_of_getLast? last
    have onMain : e.1 = .main := by
      have among : e ∈ more ++ later := List.mem_append_right _ member
      rw [rests] at among
      rcases List.mem_pair.mp among with rfl | rfl <;> rfl
    have found : e.2 ∈ on Pipe.main later := mem_on.mpr (by rw [← onMain]; exact member)
    rw [unread] at found
    cases found

structure Untouched (w : World) : Prop where
  consumer : w.consumer = mojoConsumer
  read : w.read = []
  shown : w.shown = []
  alive : w.failed = false

theorem step_untouched (w : World) (a : Action) (t : World) (h : Untouched w)
    (other : a ≠ .consume) (moved : machine.step w a = some t) : Untouched t := by
  obtain ⟨-, moved⟩ := Machine.step_of_haltOn moved
  have same := step_sameConsumer other moved
  exact ⟨same.consumer.trans h.consumer, same.read.trans h.read, same.shown.trans h.shown,
    same.failed.trans h.alive⟩

theorem exec_untouched {bs : List Action} (waits : .consume ∉ bs) :
    Untouched (machine.exec {} bs) := by
  refine Machine.exec_invariant_of_taken step_untouched ⟨rfl, rfl, rfl, rfl⟩ fun p member => ?_
  rintro same
  have present := Machine.action_mem_of_taken member
  rw [same] at present
  exact waits present

theorem producer_left {w : World} (h : Inv w) (written : w.producer.length ≤ 1) :
    w.producer = [] ∨ w.producer = [.write .main ⟨cstring "SimplerWatcher2", none⟩] := by
  have rest := List.suffix_iff_eq_drop.mp h.left
  rcases Nat.le_one_iff_eq_zero_or_eq_one.mp written with none | one
  · exact .inl (List.length_eq_zero_iff.mp none)
  · right
    rw [one] at rest
    rw [rest]
    decide

theorem supplied_of_delivered {w : World} (h : Inv w) (waits : Untouched w)
    (produced : w.producer.length ≤ 1) (delivered : ∀ pipe, w.flight pipe = []) :
    Supplied w := by
  have conserved : ∀ pipe, w.arrived pipe ++ on pipe (written w.producer) = on pipe ideal := by
    intro pipe
    have all := h.conserved pipe
    rwa [waits.read, delivered, on_nil, List.nil_append, List.append_nil, ← on_ideal] at all
  have shown : ∀ t ∈ w.shown, t = text "SharedBuffer" := by
    rw [waits.shown]
    intro t member
    cases member
  have copied := h.buffer
  have mapped : w.shown.length + w.consumer.count .mapBuffer = 1 := by
    rw [waits.shown, waits.consumer]
    decide
  rcases producer_left h produced with none | last
  · rw [none, stored, List.append_nil] at copied
    refine ⟨h, waits.alive, fun pipe => ?_, copied, shown, mapped⟩
    have all := conserved pipe
    rw [none, written, on_nil, List.append_nil] at all
    rw [waits.read, on_nil, List.nil_append, all]
    cases pipe <;> decide
  · rw [last] at copied
    change w.buffer ++ [] = cstring "SharedBuffer" at copied
    rw [List.append_nil] at copied
    refine ⟨h, waits.alive, fun pipe => ?_, copied, shown, mapped⟩
    have all := conserved pipe
    rw [last] at all
    rw [waits.read, on_nil, List.nil_append]
    cases pipe with
    | main =>
      have whole : on Pipe.main ideal =
          on .main (ideal.take 8) ++ [⟨cstring "SimplerWatcher2", none⟩] := by decide
      have arrived : w.arrived .main = on .main (ideal.take 8) :=
        List.append_cancel_right (all.trans whole)
      rw [arrived]
      decide
    | data =>
      change w.arrived .data ++ [] = _ at all
      rw [List.append_nil] at all
      rw [all]
      decide
    | client =>
      change w.arrived .client ++ [] = _ at all
      rw [List.append_nil] at all
      rw [all]
      decide

def amount (queues : Pipe → List Message) : Nat :=
  (queues .main).length + (queues .data).length + (queues .client).length

def work (w : World) : Nat :=
  3 * w.producer.length + 2 * amount w.flight + amount w.arrived + w.consumer.length

theorem amount_update (queues : Pipe → List Message) (pipe : Pipe) (queue : List Message) :
    amount (Function.update queues pipe queue) + (queues pipe).length =
      amount queues + queue.length := by
  cases pipe <;> simp [amount] <;> omega

theorem produce_work {w t : World} (moved : produce w = some t) : work t < work w := by
  rw [produce] at moved
  split at moved
  · cases moved
  · rename_i pipe message rest todo
    obtain rfl := Option.some.inj moved
    have more := amount_update w.flight pipe (w.flight pipe ++ [message])
    rw [List.length_append, List.length_singleton] at more
    simp only [work, todo, List.length_cons]
    omega
  · rename_i byte rest todo
    obtain rfl := Option.some.inj moved
    simp only [work, todo, List.length_cons]
    omega

theorem deliver_work {w t : World} {pipe : Pipe} (moved : deliver pipe w = some t) :
    work t < work w := by
  rw [deliver] at moved
  split at moved
  · cases moved
  · rename_i message rest flying
    obtain rfl := Option.some.inj moved
    have fewer := amount_update w.flight pipe rest
    have more := amount_update w.arrived pipe (w.arrived pipe ++ [message])
    rw [flying, List.length_cons] at fewer
    rw [List.length_append, List.length_singleton] at more
    simp only [work]
    omega

theorem take_amount {w : World} {pipe : Pipe} {message : Message} {others : List Message}
    (waiting : w.arrived pipe = message :: others) :
    amount (Function.update w.arrived pipe others) + 1 = amount w.arrived := by
  have fewer := amount_update w.arrived pipe others
  rw [waiting, List.length_cons] at fewer
  omega

theorem consume_work {w t : World} (moved : consume w = some t) : work t < work w := by
  obtain ⟨rest, todo, rfl⟩ | ⟨rest, todo, rfl⟩ | ⟨pipe, indexed, rest, todo, -, rfl⟩ |
    ⟨pipe, indexed, rest, message, others, todo, waiting, rfl⟩ |
    ⟨rest, message, others, -, waiting, rfl⟩ := consume_cases moved
  · simp [work, todo]
  · simp [work, todo]
  · simp [work, todo]
  · have fewer := take_amount waiting
    simp only [work, take, todo, List.length_cons]
    omega
  · have fewer := take_amount waiting
    simp only [work, take]
    omega

theorem taken_le_work (w : World) (as : List Action) : (machine.taken w as).length ≤ work w := by
  have less : ∀ s a t, True → True → machine.step s a = some t → True ∧ work t < work s := by
    intro s a t _ _ moved
    obtain ⟨-, moved⟩ := Machine.step_of_haltOn moved
    cases a with
    | produce => exact ⟨trivial, produce_work moved⟩
    | deliver pipe => exact ⟨trivial, deliver_work moved⟩
    | consume => exact ⟨trivial, consume_work moved⟩
  exact Machine.taken_length_le less trivial fun _ _ => trivial

/-- If all that `MojoProducer` writes has arrived before the consumer begins, no read fails.
Nine steps of the consumer are its tasks but the last one, whatever else happens meanwhile;
the run comes to rest after a bounded number of steps, and then all has been read. -/
theorem raw_pipe_completes (bs cs : List Action) (waits : .consume ∉ bs)
    (produced : (machine.exec {} bs).producer.length ≤ 1)
    (delivered : ∀ pipe, (machine.exec {} bs).flight pipe = []) :
    let w := machine.exec {} (bs ++ cs)
    w.failed = false ∧
    (∀ t ∈ w.shown, t = text "SharedBuffer") ∧
    (9 ≤ cs.count .consume → ideal.take 7 <+: w.read ∧ w.shown = [text "SharedBuffer"]) ∧
    (machine.taken (machine.exec {} bs) cs).length ≤ work (machine.exec {} bs) ∧
    ((∀ a, machine.step w a = none) → w.read = ideal ∧ w.shown = [text "SharedBuffer"]) := by
  intro w
  have untouched := exec_untouched waits
  have before := supplied_of_delivered (exec_inv bs) untouched produced delivered
  have supplied : Supplied w := by
    rw [show w = machine.exec (machine.exec {} bs) cs from Machine.exec_append _ _ _ _]
    exact Machine.exec_invariant step_supplied before cs
  refine ⟨supplied.alive, supplied.shown, fun enough => supplied.reads ?_, taken_le_work _ cs,
    supplied.completes⟩
  have short : w.consumer.length ≤ 1 := by
    have fewer := before.exec_consumer cs
    rw [untouched.consumer, ← Machine.exec_append] at fewer
    have ten : mojoConsumer.length = 10 := rfl
    have bound : w.consumer.length ≤ max 1 (mojoConsumer.length - cs.count .consume) := fewer
    omega
  obtain ⟨done, more, progress⟩ := supplied.inv.progress supplied.alive
  obtain ⟨task, one⟩ : ∃ task, w.consumer = [task] := by
    refine List.length_eq_one_iff.mp (Nat.le_antisymm short ?_)
    exact List.length_pos_of_mem progress.last
  have last := progress.last
  rw [one, List.mem_singleton] at last
  rw [one, last]

def sleeping : List Action :=
  List.replicate 22 .produce ++ List.replicate 7 (.deliver .main) ++
    [.deliver .data, .deliver .client]

theorem raw_pipe_completes_sleeping :
    let w := machine.exec {} (sleeping ++ List.replicate 11 .consume)
    w.failed = false ∧ w.read = ideal ∧ w.shown = [text "SharedBuffer"] := by
  obtain ⟨alive, -, -, -, completes⟩ := raw_pipe_completes sleeping (List.replicate 11 .consume)
    (by decide) (by decide) (fun pipe => by cases pipe <;> rfl)
  refine ⟨alive, completes fun a => ?_⟩
  cases a with
  | produce | consume => rfl
  | deliver pipe => cases pipe <;> rfl

end ChromiumDemo.RawPipe
