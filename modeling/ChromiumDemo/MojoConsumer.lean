import ChromiumDemo.SentinelText
import ChromiumDemo.TransitionSystem
import Mathlib.Data.Vector.Basic

/-! What the consumer of demo_mojo_multiple_process logs of the bytes of its peer. A
`char*` is read up to a NUL byte, wherever the first one stands: the bytes that follow
a payload in memory, and those that a buffer had before it was filled, are arbitrary. -/

namespace ChromiumDemo.MojoConsumer
open TransitionSystem SentinelText

abbrev Bytes := List UInt8

inductive MojoResult
  | ok
  | shouldWait
  | failedPrecondition
deriving DecidableEq

/-- A line of the log: the bytes that arrived, the text that was logged, and how many
places from `data[0]` on were read for it. -/
structure Line where
  bytes : Bytes
  text : Bytes
  examined : Nat

/-- `LOG(INFO) << reinterpret_cast<char*>(&data[0])`, where `beyond` follows the data. -/
def logChars (bytes beyond : Bytes) : Line :=
  ⟨bytes, upTo 0 (bytes ++ beyond), examined 0 (bytes ++ beyond)⟩

/-- `queue` are the messages that arrived at the watched pipe, `reading` says that
`OnReadable` is in its loop, and `dataPipe` holds what the producer has written. -/
structure World where
  queue : List Bytes := []
  reading : Bool := false
  dataPipe : Bytes := []
  arrived : List Bytes := []
  received : List Line := []
  data : List Line := []
  crashed : Bool := false

def onReadable (result : MojoResult) (w : World) : World :=
  if result = .ok then { w with reading := true } else w

/-- One turn of the loop. `ReadMessageRaw` fails when there is no message. -/
def readMessageRaw (beyond : Bytes) (w : World) : World :=
  match w.queue with
  | [] => { w with reading := false }
  | data :: queue => { w with queue, received := w.received ++ [logChars data beyond] }

def delivered (w : World) : Bytes := w.dataPipe.take 100

/-- The data pipe reader. `DCHECK_EQ(result, MOJO_RESULT_OK)` is there in builds with
`checks`, and without them an empty pipe leaves the buffer as it was. -/
def readData (checks : Bool) (buffer : List.Vector UInt8 100) (beyond : Bytes) (w : World) :
    World :=
  let bytes := delivered w
  if bytes = [] ∧ checks then { w with crashed := true }
  else { w with
    dataPipe := w.dataPipe.drop 100
    data := w.data ++ [logChars bytes (buffer.toList.drop bytes.length ++ beyond)] }

inductive Action
  | writeMessage (payload : Bytes)
  | onReadable (result : MojoResult)
  | readMessageRaw (beyond : Bytes)
  | writeData (bytes : Bytes)
  | readData (buffer : List.Vector UInt8 100) (beyond : Bytes)

def step (checks : Bool) (w : World) : Action → Option World
  | .writeMessage payload =>
    some { w with queue := w.queue ++ [payload], arrived := w.arrived ++ [payload] }
  | .onReadable result => if w.reading then none else some (onReadable result w)
  | .readMessageRaw beyond => if w.reading then some (readMessageRaw beyond w) else none
  | .writeData bytes => some { w with dataPipe := w.dataPipe ++ bytes }
  | .readData buffer beyond => some (readData checks buffer beyond w)

def machine (checks : Bool) : Machine World Action := .haltOn World.crashed (step checks)

/-- The text is that of the bytes alone, and nothing outside them was read for it. -/
structure Line.Decoded (line : Line) : Prop where
  text : line.text = upTo 0 line.bytes
  indexed : 0 < line.bytes.length
  inside : line.examined ≤ line.bytes.length

structure Safe (w : World) : Prop where
  order : w.arrived = w.received.map Line.bytes ++ w.queue
  received : ∀ line ∈ w.received, line.Decoded
  data : ∀ line ∈ w.data, line.Decoded

def Terminated (checks : Bool) (w : World) : Action → Prop
  | .readMessageRaw _ => ∀ payload ∈ w.queue.head?, 0 ∈ payload
  | .readData _ _ => if w.dataPipe = [] then checks = true else 0 ∈ delivered w
  | _ => True

theorem logChars_decoded_iff {bytes beyond : Bytes} :
    (logChars bytes beyond).Decoded ↔ 0 ∈ bytes := by
  constructor
  · intro decoded
    exact (examined_append_le_iff beyond).mp decoded.inside
  · intro terminated
    exact ⟨upTo_append_of_mem terminated beyond, List.length_pos_of_mem terminated,
      (examined_append_le_iff beyond).mpr terminated⟩

theorem delivered_eq_nil {w : World} : delivered w = [] ↔ w.dataPipe = [] := by
  simp [delivered]

section Steps
variable {checks : Bool} {w t : World} {beyond : Bytes}

theorem mem_concat_decoded {lines : List Line} (decoded : ∀ line ∈ lines, line.Decoded)
    {line : Line} (last : line.Decoded) : ∀ l ∈ lines ++ [line], l.Decoded := by
  intro l member
  rcases List.mem_append.mp member with old | new
  · exact decoded l old
  · rw [List.mem_singleton.mp new]
    exact last

theorem Safe.readMessageRaw (h : Safe w) (terminated : ∀ payload ∈ w.queue.head?, 0 ∈ payload) :
    Safe (readMessageRaw beyond w) := by
  rw [MojoConsumer.readMessageRaw]
  split
  · exact ⟨h.order, h.received, h.data⟩
  · rename_i data queue first
    have nul : 0 ∈ data := terminated data (by rw [first]; rfl)
    refine ⟨?_, mem_concat_decoded h.received (logChars_decoded_iff.mpr nul), h.data⟩
    have order := h.order
    rw [first] at order
    rw [order, List.map_append, List.append_assoc]
    rfl

theorem Safe.readData {buffer : List.Vector UInt8 100} (h : Safe w)
    (terminated : Terminated checks w (.readData buffer beyond)) :
    Safe (readData checks buffer beyond w) := by
  rw [Terminated] at terminated
  rw [MojoConsumer.readData]
  split
  · exact ⟨h.order, h.received, h.data⟩
  · rename_i runs
    split at terminated
    · rename_i empty
      exact absurd ⟨delivered_eq_nil.mpr empty, terminated⟩ runs
    · exact ⟨h.order, h.received, mem_concat_decoded h.data (logChars_decoded_iff.mpr terminated)⟩

theorem Safe.step {a : Action} (h : Safe w) (terminated : Terminated checks w a)
    (moved : (machine checks).step w a = some t) : Safe t := by
  obtain ⟨-, moved⟩ := Machine.step_of_haltOn moved
  cases a with
  | writeMessage payload =>
    obtain rfl := Option.some.inj moved
    refine ⟨?_, h.received, h.data⟩
    change w.arrived ++ [payload] = _
    rw [h.order, List.append_assoc]
  | onReadable result =>
    obtain ⟨-, same⟩ := Option.ite_none_left_eq_some.mp moved
    obtain rfl := Option.some.inj same
    rw [MojoConsumer.onReadable]
    split
    · exact ⟨h.order, h.received, h.data⟩
    · exact h
  | readMessageRaw beyond =>
    obtain ⟨-, same⟩ := Option.ite_none_right_eq_some.mp moved
    obtain rfl := Option.some.inj same
    exact h.readMessageRaw terminated
  | writeData bytes =>
    obtain rfl := Option.some.inj moved
    exact ⟨h.order, h.received, h.data⟩
  | readData buffer beyond =>
    obtain rfl := Option.some.inj moved
    exact h.readData terminated

theorem not_safe_of_step {a : Action} (open_ended : ¬ Terminated checks w a)
    (moved : (machine checks).step w a = some t) : ¬ Safe t := by
  obtain ⟨-, moved⟩ := Machine.step_of_haltOn moved
  intro safe
  cases a with
  | writeMessage | onReadable | writeData => exact open_ended trivial
  | readMessageRaw beyond =>
    obtain ⟨-, same⟩ := Option.ite_none_right_eq_some.mp moved
    obtain rfl := Option.some.inj same
    refine open_ended fun payload first => ?_
    obtain ⟨queue, split⟩ := List.head?_eq_some_iff.mp first
    have logged := safe.received (logChars payload beyond)
    rw [MojoConsumer.readMessageRaw, split] at logged
    exact logChars_decoded_iff.mp (logged (List.mem_append_right _ (List.mem_singleton_self _)))
  | readData buffer beyond =>
    obtain rfl := Option.some.inj moved
    refine open_ended ?_
    rw [Terminated]
    by_cases fails : delivered w = [] ∧ checks
    · rw [if_pos (delivered_eq_nil.mp fails.1)]
      exact fails.2
    · have logged := safe.data (logChars (delivered w)
        (buffer.toList.drop (delivered w).length ++ beyond))
      rw [MojoConsumer.readData, if_neg fails] at logged
      have nul := logChars_decoded_iff.mp
        (logged (List.mem_append_right _ (List.mem_singleton_self _)))
      rw [if_neg (fun empty => ?_)]
      · exact nul
      · rw [delivered_eq_nil.mpr empty] at nul
        cases nul

end Steps

theorem safe_init : Safe {} := ⟨rfl, by simp, by simp⟩

section Loop
variable {beyond : Bytes} {w : World}

theorem readMessageRaw_of_nil (empty : w.queue = []) :
    readMessageRaw beyond w = { w with reading := false } := by
  rw [readMessageRaw, empty]

theorem readMessageRaw_of_cons {data : Bytes} {queue : List Bytes}
    (first : w.queue = data :: queue) :
    readMessageRaw beyond w =
      { w with queue := queue, received := w.received ++ [logChars data beyond] } := by
  rw [readMessageRaw, first]

theorem readMessageRaw_reading (beyond : Bytes) (reading : w.reading = true) :
    (readMessageRaw beyond w).reading = false ↔ w.queue = [] := by
  cases first : w.queue with
  | nil =>
    rw [readMessageRaw_of_nil first]
    exact iff_of_true rfl rfl
  | cons data queue =>
    rw [readMessageRaw_of_cons first]
    exact iff_of_false (by simp [reading]) (List.cons_ne_nil data queue)

theorem turn_step (checks : Bool) (beyond : Bytes) (alive : w.crashed = false)
    (reading : w.reading = true) :
    (machine checks).step w (.readMessageRaw beyond) = some (readMessageRaw beyond w) := by
  rw [machine, Machine.haltOn_step alive, step, if_pos reading]

theorem loop_ends (checks : Bool) (beyond : Bytes) (alive : w.crashed = false)
    (reading : w.reading = true) :
    let t := (machine checks).exec w (List.replicate (w.queue.length + 1) (.readMessageRaw beyond))
    t.reading = false ∧ t.queue = [] := by
  obtain ⟨queue, same⟩ : ∃ queue, w.queue = queue := ⟨_, rfl⟩
  rw [same]
  induction queue generalizing w with
  | nil =>
    rw [List.length_nil, Nat.zero_add, List.replicate_one, Machine.exec_cons,
      Machine.next_of_some (turn_step checks beyond alive reading), Machine.exec_nil,
      readMessageRaw_of_nil same]
    exact ⟨rfl, same⟩
  | cons data queue ih =>
    rw [List.length_cons, List.replicate_succ, Machine.exec_cons,
      Machine.next_of_some (turn_step checks beyond alive reading), readMessageRaw_of_cons same]
    exact ih alive reading rfl

end Loop

def dataText (w : World) (buffer : List.Vector UInt8 100) (beyond : Bytes) : Bytes :=
  (logChars (delivered w) (buffer.toList.drop (delivered w).length ++ beyond)).text

theorem dataText_const_iff (w : World) :
    (∀ buffer buffer' beyond beyond', dataText w buffer beyond = dataText w buffer' beyond') ↔
      0 ∈ delivered w := by
  constructor
  · intro same
    by_contra open_ended
    have texts := same (List.Vector.replicate 100 0) (List.Vector.replicate 100 1) [0] [1]
    have filled : ∀ byte : UInt8, (List.Vector.replicate 100 byte).toList.drop
        (delivered w).length = List.replicate (100 - (delivered w).length) byte := by
      intro byte
      change (List.replicate 100 byte).drop (delivered w).length = _
      rw [List.drop_replicate]
    have ones : (0 : UInt8) ∉ List.replicate (100 - (delivered w).length) 1 ++ [1] := by
      simp
    rw [dataText, dataText, logChars, logChars, upTo_append_of_not_mem open_ended,
      upTo_append_of_not_mem open_ended, filled, filled, upTo_replicate_stop] at texts
    have longer := List.append_cancel_left texts
    rw [← List.append_nil (_ ++ [1]), upTo_append_of_not_mem ones] at longer
    simp at longer
  · intro terminated buffer buffer' beyond beyond'
    rw [dataText, dataText, logChars, logChars, upTo_append_of_mem terminated,
      upTo_append_of_mem terminated]

/-- The texts of a run are those of the bytes that arrived exactly if the consumer
decodes only bytes with a NUL byte among them. -/
theorem consumer_decodes_iff (checks : Bool) (as : List Action) :
    ((∀ w ∈ (machine checks).visited {} as, Safe w) ↔
        ∀ p ∈ (machine checks).taken {} as, Terminated checks p.1 p.2) ∧
      (∀ w : World, w.crashed = false → w.reading = true → ∀ beyond,
        ((readMessageRaw beyond w).reading = false ↔ w.queue = []) ∧
        let t := (machine checks).exec w
          (List.replicate (w.queue.length + 1) (.readMessageRaw beyond))
        t.reading = false ∧ t.queue = []) ∧
      ∀ w : World, (∀ buffer buffer' beyond beyond',
        dataText w buffer beyond = dataText w buffer' beyond') ↔ 0 ∈ delivered w := by
  refine ⟨?_, ?_, dataText_const_iff⟩
  · refine Machine.visited_iff_taken (fun _ safe => safe) ?_ ?_ safe_init as
    · intro w a t safe terminated moved
      exact safe.step terminated moved
    · intro w a t _ open_ended moved
      exact not_safe_of_step open_ended moved
  · intro w alive reading beyond
    exact ⟨readMessageRaw_reading beyond reading, loop_ends checks beyond alive reading⟩

theorem consumer_reads_both :
    let w : World := { queue := [[104, 105, 0], []], reading := true }
    let t := (machine true).exec w (List.replicate 3 (.readMessageRaw []))
    t.reading = false ∧ t.queue = [] :=
  ((consumer_decodes_iff true []).2.1 _ rfl rfl []).2

def dataPipeText : Bytes := "DataPipe".toList.map fun c => c.toNat.toUInt8

theorem data_pipe_unterminated : ¬ ∀ (checks : Bool) (as : List Action),
    ∀ w ∈ (machine checks).visited {} as, Safe w := by
  intro all
  have safe := all true
    [.writeData dataPipeText, .readData (List.Vector.replicate 100 120) [0]] _
    (Machine.exec_mem_visited _ _ _)
  have decoded := safe.data (logChars dataPipeText (List.replicate 92 120 ++ [0]))
    (List.mem_singleton_self _)
  have nul : (0 : UInt8) ∈ dataPipeText := logChars_decoded_iff.mp decoded
  exact absurd nul (by decide)

end ChromiumDemo.MojoConsumer
