import ChromiumDemo.AssocMap
import ChromiumDemo.TransitionSystem
import Mathlib.Data.List.Nodup

/-! The download manager delegate of demo_shell. A request crosses to the thread
pool and back, its last hop bound to a weak pointer, which knows the generation of
its factory and is good as long as that is the current one. Paths and the calls on
them are a parameter. -/

namespace ChromiumDemo.DownloadDelegate
open TransitionSystem AssocMap

variable {Path : Type}

/-- The calls of base and net; `downloads` is the path of the browser context with
"Downloads" appended. -/
structure Files (Path : Type) where
  empty : Path
  isEmpty : Path → Bool
  downloads : Path
  append : Path → String → Path
  addExtension : Path → String → Path
  generateFileName : (url contentDisposition suggestedFilename mimeType : String) → String

structure Download (Path : Type) where
  id : Nat
  forcedFilePath : Path
  url : String
  contentDisposition : String
  suggestedFilename : String
  mimeType : String

inductive ItemState
  | inProgress
  | complete
  | cancelled
  | interrupted
deriving DecidableEq

inductive Disposition
  | overwrite
  | prompt
deriving DecidableEq

structure Target (Path : Type) where
  path : Path
  disposition : Disposition
  intermediatePath : Path

/-- `OnDownloadPathGenerated` bound to a weak pointer of this generation. -/
structure FilenameDetermined where
  weak : Nat
  downloadId : Nat
  callback : Nat

structure Generation (Path : Type) where
  download : Download Path
  suggestedDirectory : Path
  determined : FilenameDetermined

structure Completion (Path : Type) where
  determined : FilenameDetermined
  suggestedPath : Path

structure Run (Path : Type) where
  callback : Nat
  target : Target Path
  afterShutdown : Bool

structure Arrival where
  callback : Nat
  afterShutdown : Bool
  destroyed : Bool
  suppressPrompting : Bool
  item : Option ItemState
deriving DecidableEq

/-- `downloadManager` says that the pointer is not null, `managerDelegate` that the
manager still has the delegate. -/
structure World (Path : Type) where
  downloadManager : Bool
  managerDelegate : Bool := true
  defaultDownloadPath : Path
  suppressPrompting : Bool
  weakPtrFactory : Nat := 0
  shutDown : Bool := false
  destroyed : Bool := false
  items : Map Nat ItemState := fun _ => none
  pool : Map Nat (Generation Path) := fun _ => none
  ui : List (Completion Path) := []
  callbacks : Nat := 0
  runs : List (Run Path) := []
  forced : List Nat := []
  arrivals : List Arrival := []
  fault : Bool := false

namespace World

def run (callback : Nat) (target : Target Path) (w : World Path) : World Path :=
  { w with runs := w.runs ++ [⟨callback, target, w.shutDown⟩] }

/-- The manager asks for a target, with the next callback. -/
def request (files : Files Path) (download : Download Path) (w : World Path) : World Path :=
  { w with
    callbacks := w.callbacks + 1
    forced :=
      if files.isEmpty download.forcedFilePath then w.forced else w.forced ++ [w.callbacks] }

def setDefaultPath (files : Files Path) (w : World Path) : World Path :=
  { w with
    defaultDownloadPath :=
      if files.isEmpty w.defaultDownloadPath then files.downloads else w.defaultDownloadPath }

def post (download : Download Path) (directory : Path) (callback : Nat) (w : World Path) :
    World Path :=
  let task : Generation Path :=
    ⟨download, directory, ⟨w.weakPtrFactory, download.id, callback⟩⟩
  { w with pool := Function.update w.pool callback (some task) }

def generated (files : Files Path) (callback : Nat) (task : Generation Path) (w : World Path) :
    World Path :=
  let d := task.download
  let name := files.generateFileName d.url d.contentDisposition d.suggestedFilename d.mimeType
  { w with
    pool := erase w.pool callback
    ui := w.ui ++ [⟨task.determined, files.append task.suggestedDirectory name⟩] }

def arrive (task : Completion Path) (rest : List (Completion Path)) (w : World Path) :
    World Path :=
  { w with
    ui := rest
    arrivals := w.arrivals ++ [⟨task.determined.callback, w.shutDown, w.destroyed,
      w.suppressPrompting, w.items task.determined.downloadId⟩] }

end World

def determineDownloadTarget (files : Files Path) (download : Download Path) (callback : Nat)
    (w : World Path) : World Path :=
  if files.isEmpty w.defaultDownloadPath ∧ ¬ w.downloadManager then { w with fault := true }
  else
    let w := w.setDefaultPath files
    if files.isEmpty download.forcedFilePath then
      w.post download w.defaultDownloadPath callback
    else w.run callback ⟨download.forcedFilePath, .overwrite, download.forcedFilePath⟩

def generateFilename (files : Files Path) (callback : Nat) (w : World Path) :
    Option (World Path) :=
  (w.pool callback).map fun task => w.generated files callback task

def chooseDownloadPath (files : Files Path) (downloadId callback : Nat) (w : World Path) :
    World Path :=
  if ¬ w.downloadManager then { w with fault := true }
  else if w.items downloadId = some .inProgress then
    w.run callback ⟨files.empty, .prompt, files.empty⟩
  else w

def onDownloadPathGenerated (files : Files Path) (task : Completion Path) (w : World Path) :
    World Path :=
  if w.suppressPrompting then
    w.run task.determined.callback ⟨task.suggestedPath, .overwrite,
      files.addExtension task.suggestedPath ".crdownload"⟩
  else chooseDownloadPath files task.determined.downloadId task.determined.callback w

def runUiTask (files : Files Path) (w : World Path) : Option (World Path) :=
  match w.ui with
  | [] => none
  | task :: rest =>
    let arrived := w.arrive task rest
    if task.determined.weak = w.weakPtrFactory then
      some (onDownloadPathGenerated files task arrived)
    else some arrived

def shutdown (w : World Path) : World Path :=
  { w with weakPtrFactory := w.weakPtrFactory + 1, downloadManager := false, shutDown := true }

def destroy (w : World Path) : World Path :=
  { w with
    managerDelegate := w.managerDelegate && !w.downloadManager
    downloadManager := false
    weakPtrFactory := w.weakPtrFactory + 1
    destroyed := true }

inductive Action (Path : Type)
  | determineDownloadTarget (download : Download Path)
  | generateFilename (callback : Nat)
  | runUiTask
  | setItem (id : Nat) (state : Option ItemState)
  | shutdown
  | destroy

def step (files : Files Path) (w : World Path) : Action Path → Option (World Path)
  | .determineDownloadTarget download =>
    if w.managerDelegate ∧ ¬ w.shutDown then
      some (determineDownloadTarget files download w.callbacks (w.request files download))
    else none
  | .generateFilename callback => generateFilename files callback w
  | .runUiTask => runUiTask files w
  | .setItem id state => some { w with items := Function.update w.items id state }
  | .shutdown => if w.destroyed then none else some (shutdown w)
  | .destroy => if w.destroyed then none else some (destroy w)

def machine (files : Files Path) : Machine (World Path) (Action Path) :=
  .haltOn World.fault (step files)

def start (path : Path) (suppressPrompting : Bool) : World Path :=
  { downloadManager := true, defaultDownloadPath := path, suppressPrompting := suppressPrompting }

def World.spent (w : World Path) : List Nat :=
  w.ui.map (fun task => task.determined.callback) ++ w.runs.map Run.callback

/-- A weak pointer of this generation is good exactly until the manager is gone. -/
def World.Binds (w : World Path) (weak : Nat) : Prop :=
  if w.downloadManager then weak = w.weakPtrFactory else weak < w.weakPtrFactory

def Arrival.Due (a : Arrival) : Prop :=
  a.afterShutdown = false ∧ a.destroyed = false ∧
    (a.suppressPrompting ∨ a.item = some .inProgress)

structure Inv (w : World Path) : Prop where
  manager : w.downloadManager = (!w.shutDown && !w.destroyed)
  delegate : w.managerDelegate = (w.downloadManager || w.shutDown)
  nodup : w.spent.Nodup
  known : ∀ c ∈ w.spent, c < w.callbacks
  waiting : ∀ c task, w.pool c = some task →
    c < w.callbacks ∧ c ∉ w.spent ∧ task.determined.callback = c ∧ w.Binds task.determined.weak
  bound : ∀ task ∈ w.ui, w.Binds task.determined.weak
  forced : ∀ c ∈ w.forced, c ∈ w.runs.map Run.callback
  due : ∀ a ∈ w.arrivals, a.Due → a.callback ∈ w.runs.map Run.callback
  quiet : ∀ r ∈ w.runs, r.afterShutdown = false
  alive : w.fault = false

theorem start_inv (path : Path) (suppressPrompting : Bool) :
    Inv (start path suppressPrompting) where
  manager := rfl
  delegate := rfl
  nodup := List.nodup_nil
  known _ member := nomatch member
  waiting _ _ found := nomatch found
  bound _ member := nomatch member
  forced _ member := nomatch member
  due _ member := nomatch member
  quiet _ member := nomatch member
  alive := rfl

theorem Inv.pending {w : World Path} (h : Inv w) (path : Path) :
    Inv { w with defaultDownloadPath := path, callbacks := w.callbacks + 1 } where
  manager := h.manager
  delegate := h.delegate
  nodup := h.nodup
  known c member := Nat.lt_succ_of_lt (h.known c member)
  waiting c task found := by
    have old := h.waiting c task found
    exact ⟨Nat.lt_succ_of_lt old.1, old.2⟩
  bound := h.bound
  forced := h.forced
  due := h.due
  quiet := h.quiet
  alive := h.alive

theorem spent_run (callback : Nat) (target : Target Path) (w : World Path) :
    (w.run callback target).spent = w.spent ++ [callback] := by
  simp [World.spent, World.run]

theorem Inv.run {w : World Path} (h : Inv w) {callback : Nat} (target : Target Path)
    (fresh : callback ∉ w.spent) (lt : callback < w.callbacks) (free : w.pool callback = none)
    (open_ : w.shutDown = false) : Inv (w.run callback target) where
  manager := h.manager
  delegate := h.delegate
  nodup := by
    rw [spent_run]
    exact h.nodup.append (List.nodup_singleton _) (by simpa using fresh)
  known c member := by
    rw [spent_run, List.mem_append, List.mem_singleton] at member
    rcases member with old | rfl
    · exact h.known c old
    · exact lt
  waiting c task found := by
    have old := h.waiting c task found
    refine ⟨old.1, ?_, old.2.2⟩
    rw [spent_run, List.mem_append, List.mem_singleton]
    rintro (spent | rfl)
    · exact old.2.1 spent
    · have clash := free.symm.trans found
      cases clash
  bound := h.bound
  forced c member := by
    simp only [World.run, List.map_append, List.mem_append]
    exact .inl (h.forced c member)
  due a member due := by
    simp only [World.run, List.map_append, List.mem_append]
    exact .inl (h.due a member due)
  quiet r member := by
    rcases List.mem_append.mp member with old | new
    · exact h.quiet r old
    · rw [List.mem_singleton.mp new]
      exact open_
  alive := h.alive

theorem Inv.post {w : World Path} (h : Inv w) (download : Download Path) (directory : Path)
    {callback : Nat} (fresh : callback ∉ w.spent) (lt : callback < w.callbacks)
    (manager : w.downloadManager) : Inv (w.post download directory callback) where
  manager := h.manager
  delegate := h.delegate
  nodup := h.nodup
  known := h.known
  waiting c task found := by
    simp only [World.post, Function.update_apply] at found
    split at found
    case isTrue same =>
      obtain rfl := Option.some.inj found
      rw [same]
      exact ⟨lt, fresh, rfl, by simp [World.Binds, World.post, manager]⟩
    case isFalse => exact h.waiting c task found
  bound := h.bound
  forced := h.forced
  due := h.due
  quiet := h.quiet
  alive := h.alive

theorem Inv.force {w : World Path} (h : Inv w) {callback : Nat}
    (run : callback ∈ w.runs.map Run.callback) (forced : List Nat)
    (same : forced = w.forced ++ [callback]) : Inv { w with forced := forced } where
  manager := h.manager
  delegate := h.delegate
  nodup := h.nodup
  known := h.known
  waiting := h.waiting
  bound := h.bound
  forced c member := by
    rw [same, List.mem_append, List.mem_singleton] at member
    rcases member with old | rfl
    · exact h.forced c old
    · exact run
  due := h.due
  quiet := h.quiet
  alive := h.alive

theorem Inv.determineDownloadTarget {w : World Path} (h : Inv w) (files : Files Path)
    (download : Download Path) (delegate : w.managerDelegate) (open_ : ¬ w.shutDown) :
    Inv (determineDownloadTarget files download w.callbacks (w.request files download)) := by
  have closed : w.shutDown = false := by simpa using open_
  have manager : w.downloadManager = true := by
    have known := h.delegate
    rw [delegate, closed, Bool.or_false] at known
    exact known.symm
  have fresh : w.callbacks ∉ w.spent := fun member => Nat.lt_irrefl _ (h.known _ member)
  have free : w.pool w.callbacks = none := by
    apply Option.eq_none_iff_forall_ne_some.mpr
    intro task found
    exact Nat.lt_irrefl _ (h.waiting _ task found).1
  have asked := h.pending
    (if files.isEmpty w.defaultDownloadPath then files.downloads else w.defaultDownloadPath)
  unfold DownloadDelegate.determineDownloadTarget
  rw [if_neg (by simp [World.request, manager])]
  by_cases unforced : files.isEmpty download.forcedFilePath = true
  · rw [if_pos unforced, World.request, if_pos unforced]
    exact asked.post download _ fresh (Nat.lt_succ_self _) manager
  · rw [if_neg unforced, World.request, if_neg unforced]
    have ran := asked.run ⟨download.forcedFilePath, .overwrite, download.forcedFilePath⟩ fresh
      (Nat.lt_succ_self _) free closed
    exact ran.force (by simp [World.run]) _ rfl

theorem Inv.generated {w : World Path} (h : Inv w) (files : Files Path) {callback : Nat}
    {task : Generation Path} (found : w.pool callback = some task) :
    Inv (w.generated files callback task) := by
  obtain ⟨lt, fresh, same, binds⟩ := h.waiting callback task found
  have spent : (w.generated files callback task).spent.Perm (callback :: w.spent) := by
    simp only [World.spent, World.generated, List.map_append, List.map_cons, List.map_nil, same]
    rw [List.append_assoc, List.singleton_append]
    exact List.perm_middle
  constructor
  case manager => exact h.manager
  case delegate => exact h.delegate
  case nodup => exact spent.nodup_iff.mpr (List.nodup_cons.mpr ⟨fresh, h.nodup⟩)
  case known =>
    intro c member
    rcases List.mem_cons.mp (spent.mem_iff.mp member) with rfl | old
    · exact lt
    · exact h.known c old
  case waiting =>
    intro c other kept
    obtain ⟨differ, old⟩ := erase_eq_some.mp kept
    have known := h.waiting c other old
    refine ⟨known.1, fun member => ?_, known.2.2⟩
    rcases List.mem_cons.mp (spent.mem_iff.mp member) with here | there
    · exact differ here
    · exact known.2.1 there
  case bound =>
    intro completion member
    rcases List.mem_append.mp member with old | new
    · exact h.bound completion old
    · rw [List.mem_singleton.mp new]
      exact binds
  case forced => exact h.forced
  case due => exact h.due
  case quiet => exact h.quiet
  case alive => exact h.alive

theorem Inv.pop {w : World Path} (h : Inv w) {task : Completion Path}
    {rest : List (Completion Path)} (queue : w.ui = task :: rest) :
    Inv { w with ui := rest } ∧
      task.determined.callback ∉ ({ w with ui := rest } : World Path).spent ∧
      task.determined.callback < w.callbacks ∧ w.pool task.determined.callback = none := by
  have spent :
      w.spent = task.determined.callback :: ({ w with ui := rest } : World Path).spent := by
    simp [World.spent, queue]
  have nodup := h.nodup
  rw [spent, List.nodup_cons] at nodup
  have here : task.determined.callback ∈ w.spent := by
    rw [spent]
    exact List.mem_cons_self
  refine ⟨⟨h.manager, h.delegate, nodup.2, fun c member => ?_, fun c other found => ?_,
    fun other member => ?_, h.forced, h.due, h.quiet, h.alive⟩, nodup.1, h.known _ here, ?_⟩
  · apply h.known
    rw [spent]
    exact List.mem_cons_of_mem _ member
  · have old := h.waiting c other found
    refine ⟨old.1, fun member => old.2.1 ?_, old.2.2⟩
    rw [spent]
    exact List.mem_cons_of_mem _ member
  · apply h.bound
    rw [queue]
    exact List.mem_cons_of_mem _ member
  · apply Option.eq_none_iff_forall_ne_some.mpr
    intro other found
    exact (h.waiting _ other found).2.1 here

theorem Inv.land {w : World Path} (h : Inv w) {a : Arrival}
    (due : a.Due → a.callback ∈ w.runs.map Run.callback) (arrivals : List Arrival)
    (same : arrivals = w.arrivals ++ [a]) : Inv { w with arrivals := arrivals } where
  manager := h.manager
  delegate := h.delegate
  nodup := h.nodup
  known := h.known
  waiting := h.waiting
  bound := h.bound
  forced := h.forced
  due b member := by
    rw [same, List.mem_append, List.mem_singleton] at member
    rcases member with old | rfl
    · exact h.due b old
    · exact due
  quiet := h.quiet
  alive := h.alive

theorem Inv.arrive_run {w : World Path} (h : Inv w) {task : Completion Path}
    {rest : List (Completion Path)} (queue : w.ui = task :: rest) (target : Target Path)
    (open_ : w.shutDown = false) :
    Inv ((w.arrive task rest).run task.determined.callback target) := by
  obtain ⟨popped, fresh, lt, free⟩ := h.pop queue
  have ran := popped.run target fresh lt free open_
  exact ran.land (fun _ => by simp [World.run]) _ rfl

theorem Inv.arrive_drop {w : World Path} (h : Inv w) {task : Completion Path}
    {rest : List (Completion Path)} (queue : w.ui = task :: rest)
    (undue : w.downloadManager = true → w.suppressPrompting = false ∧
      w.items task.determined.downloadId ≠ some .inProgress) : Inv (w.arrive task rest) := by
  refine (h.pop queue).1.land (fun due => ?_) _ rfl
  obtain ⟨closed, kept, asked⟩ := due
  simp only at closed kept asked
  have manager := h.manager
  rw [closed, kept] at manager
  obtain ⟨quiet, gone⟩ := undue manager
  rcases asked with suppressed | progress
  · rw [quiet] at suppressed
    cases suppressed
  · exact absurd progress gone

theorem Inv.onDownloadPathGenerated {w : World Path} (h : Inv w) (files : Files Path)
    {task : Completion Path} {rest : List (Completion Path)} (queue : w.ui = task :: rest)
    (manager : w.downloadManager = true) :
    Inv (onDownloadPathGenerated files task (w.arrive task rest)) := by
  have closed : w.shutDown = false := by
    have known := h.manager
    rw [manager] at known
    simpa using (Bool.and_eq_true_iff.mp known.symm).1
  unfold DownloadDelegate.onDownloadPathGenerated
  by_cases suppress : (w.arrive task rest).suppressPrompting
  · rw [if_pos suppress]
    exact h.arrive_run queue _ closed
  · rw [if_neg suppress]
    unfold chooseDownloadPath
    rw [if_neg (by simp [World.arrive, manager])]
    by_cases progress :
        (w.arrive task rest).items task.determined.downloadId = some .inProgress
    · rw [if_pos progress]
      exact h.arrive_run queue _ closed
    · rw [if_neg progress]
      exact h.arrive_drop queue fun _ => ⟨Bool.eq_false_iff.mpr suppress, progress⟩

theorem Inv.runUiTask {w d : World Path} (h : Inv w) (files : Files Path)
    (taken : runUiTask files w = some d) : Inv d := by
  unfold DownloadDelegate.runUiTask at taken
  split at taken
  · cases taken
  next task rest queue =>
  have binds := h.bound task (by rw [queue]; exact List.mem_cons_self)
  unfold World.Binds at binds
  cases manager : w.downloadManager with
  | true =>
    rw [manager, if_pos rfl] at binds
    rw [if_pos binds] at taken
    cases taken
    exact h.onDownloadPathGenerated files queue manager
  | false =>
    rw [manager, if_neg (by decide)] at binds
    rw [if_neg (Nat.ne_of_lt binds)] at taken
    cases taken
    exact h.arrive_drop queue fun absurd => by
      rw [manager] at absurd
      cases absurd

theorem binds_invalidated {w : World Path} {weak : Nat} (h : w.Binds weak) :
    weak < w.weakPtrFactory + 1 := by
  unfold World.Binds at h
  split at h <;> omega

theorem Inv.revoke {w : World Path} (h : Inv w) {managerDelegate shutDown destroyed : Bool}
    (manager : (!shutDown && !destroyed) = false) (delegate : managerDelegate = shutDown) :
    Inv { w with
      managerDelegate := managerDelegate
      downloadManager := false
      weakPtrFactory := w.weakPtrFactory + 1
      shutDown := shutDown
      destroyed := destroyed } where
  manager := manager.symm
  delegate := by simp [delegate]
  nodup := h.nodup
  known := h.known
  waiting c task found := by
    have old := h.waiting c task found
    exact ⟨old.1, old.2.1, old.2.2.1, binds_invalidated old.2.2.2⟩
  bound task member := binds_invalidated (h.bound task member)
  forced := h.forced
  due := h.due
  quiet := h.quiet
  alive := h.alive

theorem Inv.delegate_of_present {w : World Path} (h : Inv w) (present : w.destroyed = false) :
    w.managerDelegate = true ∧ w.downloadManager = !w.shutDown := by
  have manager := h.manager
  rw [present, Bool.not_false, Bool.and_true] at manager
  refine ⟨?_, manager⟩
  rw [h.delegate, manager]
  exact Bool.not_or_self _

theorem Inv.shutdown {w : World Path} (h : Inv w) (present : w.destroyed = false) :
    Inv (shutdown w) := by
  have delegate := (h.delegate_of_present present).1
  exact h.revoke rfl delegate

theorem Inv.destroy {w : World Path} (h : Inv w) (present : w.destroyed = false) :
    Inv (destroy w) := by
  obtain ⟨delegate, manager⟩ := h.delegate_of_present present
  exact h.revoke (by simp) (by simp [delegate, manager])

theorem inv_step (files : Files Path) (w : World Path) (a : Action Path) (d : World Path)
    (h : Inv w) (taken : (machine files).step w a = some d) : Inv d := by
  obtain ⟨-, taken⟩ := Machine.step_of_haltOn taken
  cases a with
  | determineDownloadTarget download =>
    simp only [step, Option.ite_none_right_eq_some, Option.some.injEq] at taken
    obtain ⟨⟨delegate, open_⟩, rfl⟩ := taken
    exact h.determineDownloadTarget files download delegate open_
  | generateFilename callback =>
    obtain ⟨task, found, rfl⟩ := Option.map_eq_some_iff.mp taken
    exact h.generated files found
  | runUiTask => exact h.runUiTask files taken
  | setItem id state =>
    cases taken
    exact ⟨h.manager, h.delegate, h.nodup, h.known, h.waiting, h.bound, h.forced, h.due, h.quiet,
      h.alive⟩
  | shutdown =>
    simp only [step, Option.ite_none_left_eq_some, Option.some.injEq] at taken
    obtain ⟨present, rfl⟩ := taken
    exact h.shutdown (Bool.eq_false_iff.mpr present)
  | destroy =>
    simp only [step, Option.ite_none_left_eq_some, Option.some.injEq] at taken
    obtain ⟨present, rfl⟩ := taken
    exact h.destroy (Bool.eq_false_iff.mpr present)

def World.count (c : Nat) (w : World Path) : Nat := (w.runs.map Run.callback).count c

structure Delivered (w : World Path) : Prop where
  atMostOnce : ∀ c, w.count c ≤ 1
  forced : ∀ c ∈ w.forced, w.count c = 1
  due : ∀ a ∈ w.arrivals, a.Due → w.count a.callback = 1
  quiet : ∀ r ∈ w.runs, r.afterShutdown = false
  alive : w.fault = false

theorem Inv.delivered {w : World Path} (h : Inv w) : Delivered w := by
  have nodup : (w.runs.map Run.callback).Nodup := h.nodup.of_append_right
  have once : ∀ c, c ∈ w.runs.map Run.callback → w.count c = 1 := fun c member =>
    List.count_eq_one_of_mem nodup member
  exact ⟨List.nodup_iff_count_le_one.mp nodup, fun c member => once c (h.forced c member),
    fun a member due => once _ (h.due a member due), h.quiet, h.alive⟩

/-- In every reachable state the callbacks have been run as often as they should. -/
theorem exec_delivered (files : Files Path) (path : Path) (suppressPrompting : Bool)
    (as : List (Action Path)) :
    Delivered ((machine files).exec (start path suppressPrompting) as) := by
  have inv := Machine.exec_invariant (inv_step files) (start_inv path suppressPrompting) as
  exact inv.delivered

def componentFiles : Files (List String) where
  empty := []
  isEmpty := List.isEmpty
  downloads := ["Downloads"]
  append path name := path ++ [name]
  addExtension path extension := path.dropLast ++ (path.getLast?.map (· ++ extension)).toList
  generateFileName _ _ suggestedFilename _ := suggestedFilename

def droppedRun : List (Action (List String)) :=
  [.setItem 1 (some .inProgress), .determineDownloadTarget ⟨1, [], "u", "", "f", ""⟩, .destroy,
    .generateFilename 0, .runUiTask]

theorem dropped_after_destruction :
    ¬ ∀ a ∈ ((machine componentFiles).exec (start [] false) droppedRun).arrivals,
      a.afterShutdown = false → (a.suppressPrompting ∨ a.item = some .inProgress) →
      ((machine componentFiles).exec (start [] false) droppedRun).count a.callback = 1 := by
  intro claimed
  have once := claimed ⟨0, false, true, false, some .inProgress⟩ (by decide) rfl (.inr rfl)
  exact absurd once (by decide)

end ChromiumDemo.DownloadDelegate
