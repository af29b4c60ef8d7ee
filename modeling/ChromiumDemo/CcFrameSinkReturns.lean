import ChromiumDemo.CcFrameSink
import Mathlib.Data.List.Perm.Basic

/-! Where the resources that viz returns to a bound cc frame sink end up. The
client is handed the lists of the acks, one posted task each, and nothing else,
so what comes with `OnBeginFrame` and `ReclaimResources` is lost. -/

namespace ChromiumDemo.CcFrameSink
open TransitionSystem

variable {κ R A T : Type*}

inductive Channel
  | ack
  | beginFrame
  | reclaim
deriving DecidableEq

def Callback.channel : Callback R A T → Channel
  | .didReceiveCompositorFrameAck _ => .ack
  | .onBeginFrame _ _ _ _ => .beginFrame
  | .reclaimResources _ => .reclaim

def Callback.resources : Callback R A T → List R
  | .didReceiveCompositorFrameAck resources => resources
  | .onBeginFrame _ _ _ resources => resources
  | .reclaimResources resources => resources

def callbacks (as : List (Input R A T)) : List (Callback R A T) :=
  as.filterMap fun
    | .callback m => some m
    | .runTask => none

def received (channel : Channel) (ms : List (Callback R A T)) : List (List R) :=
  (ms.filter fun m => m.channel = channel).map Callback.resources

theorem received_append (channel : Channel) (ms : List (Callback R A T)) (m : Callback R A T) :
    received channel (ms ++ [m]) =
      received channel ms ++ if m.channel = channel then [m.resources] else [] := by
  by_cases same : m.channel = channel <;> simp [received, same]

def Call.reclaimed : Call R A T → List R
  | .reclaimResources resources => resources
  | _ => []

def Call.isAck : Call R A T → Bool
  | .didReceiveCompositorFrameAck => true
  | _ => false

def handed (calls : List (Call R A T)) : List R := calls.flatMap Call.reclaimed

/-- Nothing lost or duplicated, each channel in order, and one ack call for each
ack, after the resources of that ack. -/
structure Forwarded (ms : List (Callback R A T)) (calls : List (Call R A T)) : Prop where
  conserved : (handed calls).Perm (ms.flatMap Callback.resources)
  ordered : ∀ channel, (received channel ms).flatten.Sublist (handed calls)
  acked : calls.countP Call.isAck = (received .ack ms).length
  after : ∀ pre post, calls = pre ++ .didReceiveCompositorFrameAck :: post →
    ((received .ack ms).take (pre.countP Call.isAck + 1)).flatten.Sublist (handed pre)

def boundTo (v : Version) (client : κ) : Process κ R A T :=
  (machine v).next {} (.bindToClient true client)

/-- The sink after these inputs and the tasks that are then still posted. -/
def settled (v : Version) (client : κ) (as : List (Input R A T)) : Process κ R A T :=
  let p := (machine v).exec (boundTo v client) (as.map .input)
  (machine v).exec p (List.replicate p.sink.tasks.length (.input .runTask))

def Call.isHandover : Call R A T → Bool
  | .reclaimResources _ => true
  | .didReceiveCompositorFrameAck => true
  | _ => false

def ackCalls (resources : List R) : List (Call R A T) :=
  [.reclaimResources resources, .didReceiveCompositorFrameAck]

theorem handed_handover (calls : List (Call R A T)) :
    handed (calls.filter Call.isHandover) = handed calls := by
  induction calls with
  | nil => rfl
  | cons call calls ih =>
    cases call <;> simpa [handed, List.filter_cons, Call.isHandover, Call.reclaimed] using ih

theorem countP_handover (calls : List (Call R A T)) :
    (calls.filter Call.isHandover).countP Call.isAck = calls.countP Call.isAck := by
  induction calls with
  | nil => rfl
  | cons call calls ih =>
    cases call <;> simpa [List.filter_cons, List.countP_cons, Call.isHandover, Call.isAck] using ih

theorem handed_ackCalls (acks : List (List R)) :
    handed (acks.flatMap ackCalls : List (Call R A T)) = acks.flatten := by
  induction acks with
  | nil => rfl
  | cons resources acks ih =>
    simpa [handed, ackCalls, Call.reclaimed] using ih

theorem countP_ackCalls (acks : List (List R)) :
    (acks.flatMap ackCalls : List (Call R A T)).countP Call.isAck = acks.length := by
  induction acks with
  | nil => rfl
  | cons resources acks ih =>
    simpa [ackCalls, List.countP_cons, Call.isAck] using ih

theorem handed_before_ack {acks : List (List R)} (pre post : List (Call R A T))
    (h : pre ++ .didReceiveCompositorFrameAck :: post = acks.flatMap ackCalls) :
    handed pre = (acks.take (pre.countP Call.isAck + 1)).flatten := by
  induction acks generalizing pre with
  | nil => simp at h
  | cons resources acks ih =>
    rw [List.flatMap_cons] at h
    match pre with
    | [] => simp [ackCalls] at h
    | [call] =>
      simp only [ackCalls, List.cons_append, List.nil_append, List.cons.injEq] at h
      simp [h.1, handed, Call.reclaimed, Call.isAck]
    | call :: last :: pre =>
      simp only [ackCalls, List.cons_append, List.nil_append, List.cons.injEq] at h
      obtain ⟨rfl, rfl, rest⟩ := h
      have before := ih pre rest
      simp only [handed] at before
      simp [handed, Call.reclaimed, List.countP_cons, Call.isAck, before]

structure Delivered (p : Process κ R A T) (ms : List (Callback R A T)) (done : List (List R)) :
    Prop where
  fault : p.fault = none
  bound : Bound p.sink true
  posted : done ++ p.sink.tasks = received .ack ms
  calls : p.sink.calls.filter Call.isHandover = done.flatMap ackCalls

theorem delivered_boundTo (v : Version) (client : κ) :
    Delivered (boundTo v client : Process κ R A T) [] [] := by
  rw [boundTo, next_of_alive rfl]
  exact ⟨rfl, ⟨rfl, rfl⟩, rfl, rfl⟩

theorem beginFrameCalls_handover (v : Version) (args : A) (timingDetails : List (Nat × T))
    (activated : Bool) :
    (beginFrameCalls v args timingDetails activated : List (Call R A T)).filter Call.isHandover =
      [] := by
  rw [List.filter_eq_nil_iff]
  intro call member
  simp only [beginFrameCalls, List.mem_append, List.mem_singleton] at member
  rcases member with (member | member) | rfl
  · split at member
    · obtain ⟨pair, -, rfl⟩ := List.mem_map.mp member
      simp [Call.isHandover]
    · cases member
  · split at member
    · cases member
    · simp [List.mem_singleton.mp member, Call.isHandover]
  · simp [Call.isHandover]

theorem delivered_callback {p : Process κ R A T} {ms : List (Callback R A T)}
    {done : List (List R)} (h : Delivered p ms done) (v : Version) (m : Callback R A T) :
    Delivered ((machine v).next p (.input (.callback m))) (ms ++ [m]) done := by
  rw [next_of_alive h.fault]
  have posted := h.posted
  cases m with
  | didReceiveCompositorFrameAck resources =>
    refine ⟨h.fault, ⟨h.bound.client, h.bound.externalBeginFrameSource⟩, ?_, h.calls⟩
    rw [received_append, ← posted, List.append_assoc]
    rfl
  | onBeginFrame args timingDetails activated resources =>
    simp only [stepAlive, stepInput, handle, onBeginFrame_of_bound h.bound]
    refine ⟨h.fault, ⟨h.bound.client, h.bound.externalBeginFrameSource⟩, ?_, ?_⟩
    · rw [received_append, ← posted]
      exact (List.append_nil _).symm
    · simp [Process.settle, beginFrameCalls_handover, h.calls]
  | reclaimResources resources =>
    refine ⟨h.fault, h.bound, ?_, h.calls⟩
    rw [received_append, ← posted]
    exact (List.append_nil _).symm

theorem delivered_runTask {p : Process κ R A T} {ms : List (Callback R A T)}
    {done : List (List R)} (h : Delivered p ms done) (v : Version) {resources : List R}
    {rest : List (List R)} (tasks : p.sink.tasks = resources :: rest) :
    Delivered ((machine v).next p (.input .runTask)) ms (done ++ [resources]) ∧
      ((machine v).next p (.input .runTask)).sink.tasks = rest := by
  have posted := h.posted
  rw [tasks] at posted
  rw [next_of_alive h.fault]
  simp only [stepAlive, stepInput, tasks]
  rw [ackInternal_of_bound (s := { p.sink with tasks := rest }) h.bound.client]
  refine ⟨⟨h.fault, ⟨h.bound.client, h.bound.externalBeginFrameSource⟩, ?_, ?_⟩, rfl⟩
  · simpa [Process.settle] using posted
  · simp [Process.settle, h.calls, Call.isHandover, ackCalls]

theorem delivered_exec (v : Version) (as : List (Input R A T)) {p : Process κ R A T}
    {ms : List (Callback R A T)} {done : List (List R)} (h : Delivered p ms done) :
    ∃ later, Delivered ((machine v).exec p (as.map .input)) (ms ++ callbacks as) later := by
  induction as generalizing p ms done with
  | nil => exact ⟨done, by simpa [callbacks] using h⟩
  | cons a as ih =>
    rw [List.map_cons, Machine.exec_cons]
    cases a with
    | callback m =>
      obtain ⟨later, all⟩ := ih (delivered_callback h v m)
      exact ⟨later, by simpa [callbacks] using all⟩
    | runTask =>
      have same : callbacks (.runTask :: as) = callbacks as := rfl
      rw [same]
      cases tasks : p.sink.tasks with
      | nil =>
        have idle : (machine v).next p (.input .runTask) = p := by
          rw [next_of_alive h.fault]
          simp [stepAlive, stepInput, tasks]
        rw [idle]
        exact ih h
      | cons resources rest => exact ih (delivered_runTask h v tasks).1

theorem delivered_drain (v : Version) (n : Nat) {p : Process κ R A T}
    {ms : List (Callback R A T)} {done : List (List R)} (h : Delivered p ms done)
    (length : p.sink.tasks.length = n) :
    Delivered ((machine v).exec p (List.replicate n (.input .runTask))) ms (received .ack ms) := by
  induction n generalizing p done with
  | zero =>
    have posted := h.posted
    rw [List.length_eq_zero_iff.mp length, List.append_nil] at posted
    rw [← posted]
    exact h
  | succ n ih =>
    obtain ⟨resources, rest, tasks⟩ := List.exists_cons_of_length_eq_add_one length
    obtain ⟨after, left⟩ := delivered_runTask h v tasks
    rw [List.replicate_succ, Machine.exec_cons]
    refine ih after ?_
    rw [left]
    rw [tasks, List.length_cons] at length
    omega

theorem settled_calls (v : Version) (client : κ) (as : List (Input R A T)) :
    (settled v client as).sink.calls.filter Call.isHandover =
      (received .ack (callbacks as)).flatMap ackCalls := by
  obtain ⟨done, delivered⟩ := delivered_exec v as (delivered_boundTo v client)
  exact (delivered_drain v _ delivered rfl).calls

theorem length_resources (ms : List (Callback R A T)) :
    (ms.flatMap Callback.resources).length =
      (received .ack ms).flatten.length +
        ((ms.filter fun m => m.channel ≠ .ack).flatMap Callback.resources).length := by
  induction ms with
  | nil => rfl
  | cons m ms ih =>
    by_cases ack : m.channel = .ack
    · simp [received, ack] at ih ⊢
      omega
    · simp [received, ack] at ih ⊢
      omega

theorem resources_of_acks {ms : List (Callback R A T)}
    (h : ∀ m ∈ ms, m.channel ≠ .ack → m.resources = []) :
    ms.flatMap Callback.resources = (received .ack ms).flatten := by
  induction ms with
  | nil => rfl
  | cons m ms ih =>
    obtain ⟨first, rest⟩ := List.forall_mem_cons.mp h
    rw [List.flatMap_cons, ih rest]
    by_cases ack : m.channel = .ack
    · simp [received, ack]
    · simp [received, ack, first ack]

theorem received_of_empty {ms : List (Callback R A T)}
    (h : ∀ m ∈ ms, m.channel ≠ .ack → m.resources = []) {channel : Channel}
    (other : channel ≠ .ack) : (received channel ms).flatten = [] := by
  rw [List.flatten_eq_nil_iff]
  intro resources member
  obtain ⟨m, kept, rfl⟩ := List.mem_map.mp member
  rw [List.mem_filter, decide_eq_true_eq] at kept
  exact h m kept.1 (by rw [kept.2]; exact other)

/-- Everything is forwarded exactly if viz returns resources with its acks alone. -/
theorem forwarded_iff (v : Version) (client : κ) (as : List (Input R A T)) :
    Forwarded (callbacks as) (settled v client as).sink.calls ↔
      ∀ m ∈ callbacks as, m.channel ≠ .ack → m.resources = [] := by
  have calls := settled_calls v client as
  have total :
      handed (settled v client as).sink.calls = (received .ack (callbacks as)).flatten := by
    rw [← handed_handover, calls, handed_ackCalls]
  constructor
  · intro forwarded m member other
    have lengths := forwarded.conserved.length_eq
    rw [total, length_resources] at lengths
    have none_lost : ((callbacks as).filter fun m => m.channel ≠ .ack).flatMap
        Callback.resources = [] := List.length_eq_zero_iff.mp (by omega)
    rw [List.flatMap_eq_nil_iff] at none_lost
    exact none_lost m (List.mem_filter.mpr ⟨member, by simpa using other⟩)
  · intro empty
    refine ⟨?_, fun channel => ?_, ?_, fun pre post split => ?_⟩
    · rw [total, resources_of_acks empty]
    · by_cases ack : channel = .ack
      · rw [ack, total]
      · rw [received_of_empty empty ack]
        exact List.nil_sublist _
    · rw [← countP_handover, calls, countP_ackCalls]
    · rw [split, List.filter_append] at calls
      have before := handed_before_ack (pre.filter Call.isHandover)
        (post.filter Call.isHandover) calls
      rw [handed_handover, countP_handover] at before
      rw [before]

theorem reclaimed_lost :
    ¬ Forwarded (callbacks [.callback (.reclaimResources [7]), .runTask])
        (settled (R := Nat) (A := Nat) (T := Nat) demo ()
          [.callback (.reclaimResources [7]), .runTask]).sink.calls := by
  intro forwarded
  exact absurd forwarded.conserved.length_eq (by decide)

end ChromiumDemo.CcFrameSink
