import ChromiumDemo.GpuServiceStartup
import ChromiumDemo.TaskThreadsIdle

/-! The start-up of `GpuService` comes to an end in a build that evaluates its checks:
no thread crashes, the threads become idle once nothing comes from outside, and all
that the start-up has to set is set by then. -/

namespace ChromiumDemo.GpuServiceCompletion
open TransitionSystem TaskThreads GpuServiceStartup

theorem mem_threads (t : Thread) :
    t ∈ ({.hostMain, .hostIo, .gpuIo, .gpuMain} : Finset Thread) := by
  cases t <;> decide

instance : Fintype Thread := ⟨{.hostMain, .hostIo, .gpuIo, .gpuMain}, mem_threads⟩

/-- Every read is watched, those of the threads too: `gpu_main_thread_` runs before any
other task is posted. -/
def strict (demo : Demo) : Contract Thread Field Task where
  watched _ := true
  pre
    | .initializeDemo => []
    | k => .flag .gpuMainThread :: (contract demo).pre k
  means
    | .vizMainRequested => .flag .gpuMainThread :: (contract demo).means .vizMainRequested
    | .gpuChannelRequested => .flag .gpuMainThread :: (contract demo).means .gpuChannelRequested
    | .gpuMemoryBufferManager =>
      .flag .gpuMainThread :: (contract demo).means .gpuMemoryBufferManager
    | _ => []

theorem strict_sound (demo : Demo) : (strict demo).Sound (program demo true) where
  bodies t k := by
    cases demo <;> cases t <;> cases k with
    | onAssociatedInterfaceRequest b | bindVizMain b | onEstablishedOnIo b =>
      cases b <;> decide
    | _ => decide
  events := by cases demo <;> decide

theorem strict_inv (demo : Demo) : (strict demo).Inv (program demo true) initial where
  safe _ _ h := by cases h
  meaning _ h := by cases h
  running _ _ := ⟨[], by simp, rfl⟩
  current _ _ h := by cases h
  queued t := by cases t <;> simp [initial, Contract.QueueOk, strict, contract]
  delayed _ _ h := by cases h

theorem alive_of_inv {demo : Demo} {s : State Thread Field Task}
    (inv : (strict demo).Inv (program demo true) s) : s.crashed = none := by
  cases crashed : s.crashed with
  | none => rfl
  | some f => exact absurd crashed (inv.safe f rfl)

def cost : Thread → Task → Nat
  | _, .initializeDemo => 60
  | _, .initIPCServer => 9
  | _, .initIPCClient => 4
  | _, .initVizHost => 8
  | _, .initVizMain => 3
  | .gpuMain, .onAssociatedInterfaceRequest _ => 5
  | _, .onAssociatedInterfaceRequest _ => 8
  | _, .bindVizMain _ => 2
  | _, .onEstablishedOnIo _ => 10
  | _, .onEstablishedOnMain => 5
  | _, .getGpuService => 3

theorem cost_bounds (demo : Demo) : Bounds cost (program demo true) := by
  intro t k
  cases demo <;> cases t <;> cases k with
  | onAssociatedInterfaceRequest b | bindVizMain b | onEstablishedOnIo b =>
    cases b <;> decide
  | _ => decide

/-- What the start-up sets without an answer from outside. Only demo_viz_layer has a
thread for the I/O of its host. -/
def initialised (demo : Demo) : List Field :=
  (match demo with
    | .vizLayer => [.hostIoThread]
    | .vizGuiGpu => []) ++
  [.rootClient, .childClient, .gpuIoThread, .gpuMainThread, .hostMainThreadRunner,
    .serverChannel, .clientChannel, .clientChannelInit, .vizMainRequested, .gpuHost,
    .gpuChannelRequested, .vizMain]

theorem initialised_owed (demo : Demo) :
    ∀ f ∈ initialised demo, Owed (program demo true) f initial := by
  intro f member
  have posted : f ∈ settles (program demo true) 3
      ((program demo true).body .hostMain .initializeDemo) := by
    revert f
    cases demo <;> decide
  exact .inr (.inr (.inl ⟨.hostMain, .initializeDemo, List.mem_singleton_self _,
    brings_of_settles 3 posted⟩))

/-- Whatever the threads and the outside have done, no thread has crashed, the threads
can come to rest, and wherever they rest the start-up is complete. -/
theorem startup_completes (demo : Demo) (as : List (TaskThreads.Action Thread)) :
    ((program demo true).machine.exec initial as).crashed = none ∧
    (∃ bs, (∀ b ∈ bs, b.inside = true) ∧
      Idle ((program demo true).machine.exec initial (as ++ bs))) ∧
    (Idle ((program demo true).machine.exec initial as) → ∀ f ∈ initialised demo,
      ((program demo true).machine.exec initial as).flags f = true) := by
  have inv := (strict_inv demo).exec (strict_sound demo) as
  refine ⟨alive_of_inv inv, ?_, fun idle f member => ?_⟩
  · have keeps : ∀ s a s', (strict demo).Inv (program demo true) s →
        (program demo true).machine.step s a = some s' →
        (strict demo).Inv (program demo true) s' :=
      fun s a s' inv moved => inv.step (strict_sound demo) moved
    obtain ⟨bs, inside, idle⟩ := exists_idle keeps (fun s inv => alive_of_inv inv)
      (cost_bounds demo) _ inv
    refine ⟨bs, inside, ?_⟩
    rw [Machine.exec_append]
    exact idle
  · exact (owed_exec (initialised_owed demo f member) as).flag_of_idle idle

end ChromiumDemo.GpuServiceCompletion
