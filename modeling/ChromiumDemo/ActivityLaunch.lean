import ChromiumDemo.TransitionSystem
import Mathlib.Data.List.Nodup
import Mathlib.Data.List.Range

/-! `DemoShellActivity` from launch to launch. The process outlives its activities and
starts the browser once for all of them, and native code puts a new shell into the
`ShellManager` that was inflated last, whichever activity has asked for it. -/

namespace ChromiumDemo.ActivityLaunch
open TransitionSystem

def defaultShellUrl : String := "http://www.baidu.com"

def sanitizeUrl (url : String) : String :=
  if url.startsWith "www." || !url.contains ':' then "http://" ++ url else url

inductive Request
  | load (url : String)
  | reload
deriving DecidableEq

/-- A shell with what it has asked its navigation controller for. That with no launcher
is the one the browser opens when it starts. Closing a shell does nothing on Android. -/
structure Shell where
  launchedBy : Option Nat
  requests : List Request
  lastCommittedUrl : String := ""
deriving DecidableEq

/-- An activity with its `ShellManager`. `bundle` is the state saved last, in which there
is a url if a shell was active. An intent without a url counts as one with an empty url. -/
structure Activity where
  startupUrl : String
  savedUrl : Option String := none
  activeShell : Option Nat := none
  destroyed : Bool := false
  bundle : Option (Option String) := none
deriving DecidableEq

inductive Startup
  | pending | succeeded | failed
deriving DecidableEq

/-- `callbacks` are those that wait for the browser or have been posted, each by the
number of its activity. -/
structure Process where
  activities : List Activity := []
  shells : List Shell := []
  startup : Startup := .pending
  callbacks : List Nat := []
deriving DecidableEq

def Process.current (p : Process) : Nat := p.activities.length - 1

def Process.setActivity (k : Nat) (f : Activity → Activity) (p : Process) : Process :=
  { p with activities := p.activities.modify k f }

def Activity.shellUrl (a : Activity) : String :=
  a.savedUrl.getD (if a.startupUrl = "" then defaultShellUrl else a.startupUrl)

section Spec
variable (spec : String → String)

def opening (url : String) : List Request :=
  if spec url = "" then [] else [.load (spec url)]

/-- `CreateNewWindow`, with the `createShell` that it leads to. -/
def createNewWindow (launchedBy : Option Nat) (url : String) (p : Process) : Process :=
  let created : Process :=
    { p with shells := p.shells ++ [{ launchedBy, requests := opening spec url }] }
  created.setActivity p.current fun a => { a with activeShell := some p.shells.length }

def finishInitialization (k : Nat) (p : Process) : Process :=
  match p.activities[k]? with
  | none => p
  | some a => createNewWindow spec (some k) a.shellUrl p

def complete (success : Bool) (p : Process) (k : Nat) : Process :=
  if success then finishInitialization spec k p else p

theorem complete_startup (success : Bool) (p : Process) (k : Nat) :
    (complete spec success p k).startup = p.startup := by
  unfold complete finishInitialization
  cases success <;> cases p.activities[k]? <;> rfl

/-- The callbacks follow on `InitializeMessageLoopContext`. -/
def startBrowser (success : Bool) (p : Process) : Process :=
  let started : Process :=
    if success then createNewWindow spec none defaultShellUrl { p with startup := .succeeded }
    else { p with startup := .failed }
  { p.callbacks.foldl (complete spec success) started with callbacks := [] }

def onCreate (a : Activity) (p : Process) : Process :=
  { p with
    activities := p.activities ++ [a]
    callbacks := p.callbacks ++ [p.activities.length] }

def Shell.loadUrl (url : String) (s : Shell) : Shell :=
  { s with
    requests := s.requests ++
      [if url = s.lastCommittedUrl then .reload else .load (sanitizeUrl url)] }

def onNewIntent (a : Activity) (url : String) (p : Process) : Process :=
  if url = "" then p
  else match a.activeShell with
    | none => p
    | some s => { p with shells := p.shells.modify s (Shell.loadUrl url) }

def onSaveInstanceState (shells : List Shell) (a : Activity) : Activity :=
  { a with bundle := some (a.activeShell.bind fun s => shells[s]?.map Shell.lastCommittedUrl) }

def onDestroy (a : Activity) : Activity := { a with activeShell := none, destroyed := true }

inductive Action
  | create (url : String)
  | restore (k : Nat)
  | startup (success : Bool)
  | runTask
  | newIntent (k : Nat) (url : String)
  | commit (s : Nat) (url : String)
  | saveInstanceState (k : Nat)
  | destroy (k : Nat)

def Process.live (p : Process) (k : Nat) : Option Activity :=
  p.activities[k]?.filter fun a => !a.destroyed

def step (p : Process) : Action → Option Process
  | .create url => some (onCreate { startupUrl := url } p)
  | .restore k => match p.activities[k]? with
    | none => none
    | some a => if a.destroyed then
        a.bundle.map fun savedUrl => onCreate { startupUrl := a.startupUrl, savedUrl } p
      else none
  | .startup success =>
    if p.startup = .pending ∧ p.callbacks ≠ [] then some (startBrowser spec success p) else none
  | .runTask => match p.startup, p.callbacks with
    | .pending, _ | _, [] => none
    | startup, k :: callbacks =>
      some { complete spec (startup = .succeeded) p k with callbacks }
  | .newIntent k url => (p.live k).map fun a => onNewIntent a url p
  | .commit s url =>
    if s < p.shells.length then
      some { p with
        shells := p.shells.modify s fun shell => { shell with lastCommittedUrl := url } }
    else none
  | .saveInstanceState k =>
    (p.live k).map fun _ => p.setActivity k (onSaveInstanceState p.shells)
  | .destroy k => (p.live k).map fun _ => p.setActivity k onDestroy

def machine : Machine Process Action := ⟨step spec⟩

/-- Once the callbacks have run, the activity that was made last shows the shell that it
has launched itself. No activity shows one that a later activity has launched. -/
structure ShowsOwnPage (p : Process) : Prop where
  own : p.startup = .succeeded → p.callbacks = [] → ∀ a, p.live p.current = some a →
    ∃ (s : Nat) (shell : Shell) (rest : List Request), a.activeShell = some s ∧
      p.shells[s]? = some shell ∧ shell.launchedBy = some p.current ∧
      shell.requests = opening spec a.shellUrl ++ rest
  earlier : ∀ (k : Nat) (a : Activity) (s : Nat), p.activities[k]? = some a →
    a.activeShell = some s →
    ∃ shell : Shell, p.shells[s]? = some shell ∧ ∀ j ∈ shell.launchedBy, j ≤ k
  once : (p.shells.map Shell.launchedBy).Nodup

def launcher : Nat → Option Nat
  | 0 => none
  | k + 1 => some k

structure Inv (p : Process) : Prop where
  waiting : p.startup = .pending → p.callbacks = List.range p.activities.length
  unlaunched : p.startup ≠ .succeeded → p.shells = []
  numbered : p.shells.map Shell.launchedBy = (List.range p.shells.length).map launcher
  order : p.startup = .succeeded → ∃ n, p.shells.length = n + 1 ∧
    List.range n ++ p.callbacks = List.range p.activities.length
  opened : ∀ (k : Nat) (shell : Shell), shell ∈ p.shells → shell.launchedBy = some k →
    ∃ (url : String) (rest : List Request),
      p.activities[k]?.map Activity.shellUrl = some url ∧
        shell.requests = opening spec url ++ rest
  newest : p.startup = .succeeded → p.callbacks = [] → ∀ a, p.live p.current = some a →
    a.activeShell = some (p.shells.length - 1)
  earlier : ∀ (k : Nat) (a : Activity) (s : Nat), p.activities[k]? = some a →
    a.activeShell = some s → s ≤ k + 1 ∧ s < p.shells.length

theorem launcher_injective : Function.Injective launcher := by
  intro s t same
  cases s <;> cases t <;> simp_all [launcher]

theorem live_eq_some {p : Process} {k : Nat} {a : Activity} :
    p.live k = some a ↔ p.activities[k]? = some a ∧ a.destroyed = false := by
  simp [Process.live, Option.filter_eq_some_iff]

variable {spec}

theorem Inv.launchedBy {p : Process} (inv : Inv spec p) {s : Nat} {shell : Shell}
    (here : p.shells[s]? = some shell) : shell.launchedBy = launcher s := by
  have within := (List.getElem?_eq_some_iff.mp here).1
  have read := congrArg (fun l => l[s]?) inv.numbered
  simpa [here, List.getElem?_range within] using read

theorem Inv.shows {p : Process} (inv : Inv spec p) : ShowsOwnPage spec p where
  own := by
    intro started settled a live
    obtain ⟨n, count, order⟩ := inv.order started
    rw [settled, List.append_nil] at order
    have all : n = p.activities.length := by simpa using congrArg List.length order
    have here := (live_eq_some.mp live).1
    have within := (List.getElem?_eq_some_iff.mp here).1
    have number : p.shells.length - 1 = p.current + 1 := by
      unfold Process.current at within ⊢
      omega
    have active := inv.newest started settled a live
    rw [number] at active
    have last : p.current + 1 < p.shells.length := by omega
    have shell := List.getElem?_eq_getElem last
    have launcher := inv.launchedBy shell
    obtain ⟨url, rest, there, requests⟩ := inv.opened _ _ (List.getElem_mem last) launcher
    rw [here] at there
    obtain rfl := Option.some.inj there
    exact ⟨_, _, rest, active, shell, launcher, requests⟩
  earlier := by
    intro k a s here active
    obtain ⟨le, lt⟩ := inv.earlier k a s here active
    have shell := List.getElem?_eq_getElem lt
    refine ⟨_, shell, fun j launched => ?_⟩
    rw [inv.launchedBy shell] at launched
    cases s with
    | zero => cases launched
    | succ s =>
      cases launched
      omega
  once := by
    rw [inv.numbered]
    exact List.nodup_range.map launcher_injective

theorem start_inv : Inv spec {} where
  waiting _ := rfl
  unlaunched _ := rfl
  numbered := rfl
  order := by
    intro started
    cases started
  opened := by simp
  newest := by
    intro started
    cases started
  earlier := by simp

theorem setActivity_shellUrl {f : Activity → Activity}
    (url : ∀ a, (f a).shellUrl = a.shellUrl) (p : Process) (k j : Nat) :
    (p.setActivity k f).activities[j]?.map Activity.shellUrl =
      p.activities[j]?.map Activity.shellUrl := by
  simp only [Process.setActivity, List.getElem?_modify]
  split <;> cases p.activities[j]? <;> simp [url]

theorem setActivity_current (p : Process) (k : Nat) (f : Activity → Activity) :
    (p.setActivity k f).current = p.current := by
  simp [Process.current, Process.setActivity]

theorem Inv.setActivity {p : Process} (inv : Inv spec p) (k : Nat) {f : Activity → Activity}
    (url : ∀ a, (f a).shellUrl = a.shellUrl)
    (live : ∀ a, (f a).destroyed = false →
      a.destroyed = false ∧ (f a).activeShell = a.activeShell)
    (shown : ∀ a s, (f a).activeShell = some s → a.activeShell = some s) :
    Inv spec (p.setActivity k f) where
  waiting := by
    simpa [Process.setActivity] using inv.waiting
  unlaunched := inv.unlaunched
  numbered := inv.numbered
  order := by
    simpa [Process.setActivity] using inv.order
  opened := by
    intro j shell there launched
    rw [setActivity_shellUrl url]
    exact inv.opened j shell there launched
  newest := by
    intro started settled a alive
    rw [setActivity_current, live_eq_some] at alive
    obtain ⟨here, alive⟩ := alive
    simp only [Process.setActivity, List.getElem?_modify] at here
    split at here
    · obtain ⟨b, old, rfl⟩ := Option.map_eq_some_iff.mp here
      obtain ⟨alive, same⟩ := live b alive
      rw [same]
      exact inv.newest started settled b (live_eq_some.mpr ⟨old, alive⟩)
    · exact inv.newest started settled a (live_eq_some.mpr ⟨by simpa using here, alive⟩)
  earlier := by
    intro j a s here active
    simp only [Process.setActivity, List.getElem?_modify] at here
    split at here
    · obtain ⟨b, old, rfl⟩ := Option.map_eq_some_iff.mp here
      exact inv.earlier j b s old (shown b s active)
    · exact inv.earlier j a s (by simpa using here) active

theorem mem_modify {α : Type} {l : List α} {s : Nat} {f : α → α} {y : α}
    (mem : y ∈ l.modify s f) : ∃ x ∈ l, y = x ∨ y = f x := by
  obtain ⟨i, here⟩ := List.mem_iff_getElem?.mp mem
  rw [List.getElem?_modify] at here
  obtain ⟨x, old, rfl⟩ := Option.map_eq_some_iff.mp here
  refine ⟨x, List.mem_of_getElem? old, ?_⟩
  split
  · exact .inr rfl
  · exact .inl rfl

theorem map_modify_of_eq {α β : Type} {f : α → α} {g : α → β} (same : ∀ x, g (f x) = g x)
    (l : List α) (s : Nat) : (l.modify s f).map g = l.map g := by
  refine List.ext_getElem? fun i => ?_
  rw [List.getElem?_map, List.getElem?_modify, List.getElem?_map]
  split <;> cases l[i]? <;> simp [same]

theorem Inv.modifyShell {p : Process} (inv : Inv spec p) (s : Nat) {f : Shell → Shell}
    (launcher : ∀ shell, (f shell).launchedBy = shell.launchedBy)
    (requests : ∀ shell, ∃ more, (f shell).requests = shell.requests ++ more) :
    Inv spec { p with shells := p.shells.modify s f } where
  waiting := inv.waiting
  unlaunched := by
    intro waits
    simp [inv.unlaunched waits]
  numbered := by
    simpa [map_modify_of_eq launcher] using inv.numbered
  order := by
    simpa using inv.order
  opened := by
    intro k shell there launched
    obtain ⟨old, mem, rfl | rfl⟩ := mem_modify there
    · exact inv.opened k _ mem launched
    · rw [launcher] at launched
      obtain ⟨url, rest, page, eq⟩ := inv.opened k old mem launched
      obtain ⟨more, grown⟩ := requests old
      exact ⟨url, rest ++ more, page, by rw [grown, eq, List.append_assoc]⟩
  newest := by
    simpa [Process.live, Process.current] using inv.newest
  earlier := by
    simpa using inv.earlier

theorem Inv.onCreate {p : Process} (inv : Inv spec p) {a : Activity}
    (fresh : a.activeShell = none) : Inv spec (onCreate a p) where
  waiting := by
    intro waits
    simp [ActivityLaunch.onCreate, inv.waiting waits, List.range_succ]
  unlaunched := inv.unlaunched
  numbered := inv.numbered
  order := by
    intro started
    obtain ⟨n, count, order⟩ := inv.order started
    refine ⟨n, count, ?_⟩
    simp [ActivityLaunch.onCreate, ← List.append_assoc, order, List.range_succ]
  opened := by
    intro k shell there launched
    obtain ⟨url, rest, page, eq⟩ := inv.opened k shell there launched
    obtain ⟨b, here, -⟩ := Option.map_eq_some_iff.mp page
    have within := (List.getElem?_eq_some_iff.mp here).1
    refine ⟨url, rest, ?_, eq⟩
    simpa [ActivityLaunch.onCreate, List.getElem?_append_left within] using page
  newest := by
    intro _ settled
    simp [ActivityLaunch.onCreate] at settled
  earlier := by
    intro k b s here active
    simp only [ActivityLaunch.onCreate, List.getElem?_append] at here
    split at here
    · exact inv.earlier k b s here active
    · have made : b = a := by simpa using (List.mem_of_getElem? here)
      rw [made, fresh] at active
      cases active

theorem Inv.createNewWindow {p : Process} (inv : Inv spec p) {launchedBy : Option Nat}
    {url : String} {callbacks : List Nat} (number : launchedBy = launcher p.shells.length)
    (page : ∀ k, launchedBy = some k → p.activities[k]?.map Activity.shellUrl = some url)
    (order : List.range p.shells.length ++ callbacks = List.range p.activities.length) :
    Inv spec { createNewWindow spec launchedBy url p with startup := .succeeded, callbacks } where
  waiting := by
    intro waits
    cases waits
  unlaunched := by
    intro waits
    exact absurd rfl waits
  numbered := by
    simp [ActivityLaunch.createNewWindow, Process.setActivity, inv.numbered, number,
      List.range_succ]
  order := by
    intro _
    refine ⟨p.shells.length, ?_, ?_⟩
    · simp [ActivityLaunch.createNewWindow, Process.setActivity]
    · simpa [ActivityLaunch.createNewWindow, Process.setActivity] using order
  opened := by
    intro k shell there launched
    have pages : ∀ j, (ActivityLaunch.createNewWindow spec launchedBy url p).activities[j]?.map
        Activity.shellUrl = p.activities[j]?.map Activity.shellUrl :=
      fun j => setActivity_shellUrl (f := fun a => { a with activeShell := some p.shells.length })
        (fun _ => rfl) _ p.current j
    rw [pages]
    simp only [ActivityLaunch.createNewWindow, Process.setActivity, List.mem_append,
      List.mem_singleton] at there
    rcases there with old | rfl
    · exact inv.opened k shell old launched
    · exact ⟨url, [], page k launched, by simp⟩
  newest := by
    intro _ _ a alive
    obtain ⟨here, -⟩ := live_eq_some.mp alive
    have current : Process.current
        { ActivityLaunch.createNewWindow spec launchedBy url p with
          startup := .succeeded, callbacks } = p.current := by
      simp [Process.current, ActivityLaunch.createNewWindow, Process.setActivity]
    rw [current] at here
    simp only [ActivityLaunch.createNewWindow, Process.setActivity, Process.current,
      List.getElem?_modify_eq] at here
    obtain ⟨b, -, rfl⟩ := Option.map_eq_some_iff.mp here
    simp [ActivityLaunch.createNewWindow, Process.setActivity]
  earlier := by
    intro k a s here active
    have most : p.shells.length ≤ p.current + 1 := by
      have count := congrArg List.length order
      simp only [List.length_append, List.length_range] at count
      unfold Process.current
      omega
    simp only [ActivityLaunch.createNewWindow, Process.setActivity, List.getElem?_modify,
      List.length_append, List.length_singleton] at here ⊢
    obtain ⟨b, old, rfl⟩ := Option.map_eq_some_iff.mp here
    split at active
    next same =>
      have newest : s = p.shells.length := by simpa using active.symm
      unfold Process.current at same most
      omega
    next =>
      have := inv.earlier k b s old active
      omega

theorem Inv.fail {p : Process} (inv : Inv spec p) (unlaunched : p.shells = [])
    (callbacks : List Nat) : Inv spec { p with startup := .failed, callbacks } where
  waiting := by
    intro waits
    cases waits
  unlaunched _ := unlaunched
  numbered := inv.numbered
  order := by
    intro started
    cases started
  opened := inv.opened
  newest := by
    intro started
    cases started
  earlier := inv.earlier

theorem Inv.complete {p : Process} {k : Nat} {callbacks : List Nat}
    (inv : Inv spec { p with callbacks := k :: callbacks }) (begun : p.startup ≠ .pending) :
    Inv spec { complete spec (p.startup = .succeeded) p k with callbacks } := by
  obtain ⟨activities, shells, startup, old⟩ := p
  cases startup with
  | pending => cases begun rfl
  | succeeded =>
    obtain ⟨n, count, order⟩ := inv.order rfl
    have least : k = n := by
      have within : n < activities.length := by
        have lengths := congrArg List.length order
        simp only [List.length_append, List.length_cons, List.length_range] at lengths
        omega
      have read := congrArg (fun l => l[n]?) order
      simpa [List.getElem?_append_right, List.getElem?_range within] using read
    subst least
    have next : List.range (k + 1) ++ callbacks = List.range activities.length := by
      rw [List.range_succ, List.append_assoc]
      exact order
    have within : k < activities.length := by
      have lengths := congrArg List.length next
      simp only [List.length_append, List.length_range] at lengths
      omega
    have here := List.getElem?_eq_getElem within
    have launches : ActivityLaunch.complete spec true ⟨activities, shells, .succeeded, old⟩ k =
        ActivityLaunch.createNewWindow spec (some k) activities[k].shellUrl
          ⟨activities, shells, .succeeded, old⟩ := by
      simp [ActivityLaunch.complete, finishInitialization, here]
    rw [decide_eq_true rfl, launches]
    refine inv.createNewWindow ?_ ?_ ?_
    · change some k = launcher shells.length
      rw [show shells.length = k + 1 from count]
      rfl
    · rintro j ⟨⟩
      simp [here]
    · rw [← next, ← show shells.length = k + 1 from count]
  | failed =>
    exact inv.fail (inv.unlaunched (by simp)) callbacks

theorem Inv.complete_all (callbacks : List Nat) {p : Process}
    (inv : Inv spec { p with callbacks }) (begun : p.startup ≠ .pending) :
    Inv spec { callbacks.foldl (ActivityLaunch.complete spec (p.startup = .succeeded)) p with
      callbacks := [] } := by
  induction callbacks generalizing p with
  | nil => exact inv
  | cons k callbacks ih =>
    have same := complete_startup spec (p.startup = .succeeded) p k
    have rest := ih (inv.complete begun) (by rw [same]; exact begun)
    rw [same] at rest
    exact rest

theorem Inv.startBrowser {p : Process} (inv : Inv spec p) (pending : p.startup = .pending)
    (success : Bool) : Inv spec (startBrowser spec success p) := by
  obtain ⟨activities, shells, startup, callbacks⟩ := p
  obtain rfl : startup = .pending := pending
  obtain rfl : shells = [] := inv.unlaunched (by simp)
  obtain rfl : callbacks = List.range activities.length := inv.waiting rfl
  cases success with
  | true =>
    have first : Inv spec { ActivityLaunch.createNewWindow spec none defaultShellUrl
        ⟨activities, [], .pending, List.range activities.length⟩ with
          startup := .succeeded, callbacks := List.range activities.length } :=
      inv.createNewWindow rfl (by simp) (by simp)
    exact Inv.complete_all _ (p := ActivityLaunch.createNewWindow spec none defaultShellUrl
      ⟨activities, [], .succeeded, List.range activities.length⟩) first (by cases ·)
  | false =>
    exact Inv.complete_all _ (p := ⟨activities, [], .failed, List.range activities.length⟩)
      (inv.fail rfl _) (by cases ·)

theorem Inv.step {p p' : Process} {action : Action} (inv : Inv spec p)
    (stepped : step spec p action = some p') : Inv spec p' := by
  cases action with
  | create url =>
    cases stepped
    exact inv.onCreate rfl
  | restore k =>
    simp only [ActivityLaunch.step] at stepped
    split at stepped
    · cases stepped
    · next a here =>
      split at stepped
      · obtain ⟨savedUrl, -, rfl⟩ := Option.map_eq_some_iff.mp stepped
        exact inv.onCreate rfl
      · cases stepped
  | startup success =>
    simp only [ActivityLaunch.step] at stepped
    split at stepped
    next guard =>
      cases stepped
      exact inv.startBrowser guard.1 success
    next => cases stepped
  | runTask =>
    simp only [ActivityLaunch.step] at stepped
    split at stepped
    · cases stepped
    · cases stepped
    next k callbacks waiting begun =>
      cases stepped
      have head : Inv spec { p with callbacks := k :: callbacks } := by
        rw [← waiting]
        exact inv
      exact head.complete begun
  | newIntent k url =>
    obtain ⟨a, -, rfl⟩ := Option.map_eq_some_iff.mp stepped
    unfold onNewIntent
    split
    · exact inv
    split
    · exact inv
    · exact inv.modifyShell _ (fun _ => rfl) (fun _ => ⟨_, rfl⟩)
  | commit s url =>
    simp only [ActivityLaunch.step] at stepped
    split at stepped
    · cases stepped
      exact inv.modifyShell s (fun _ => rfl) (fun _ => ⟨[], (List.append_nil _).symm⟩)
    · cases stepped
  | saveInstanceState k =>
    obtain ⟨a, -, rfl⟩ := Option.map_eq_some_iff.mp stepped
    exact inv.setActivity k (fun _ => rfl) (fun _ alive => ⟨alive, rfl⟩) (fun _ _ shown => shown)
  | destroy k =>
    obtain ⟨a, -, rfl⟩ := Option.map_eq_some_iff.mp stepped
    refine inv.setActivity k (fun _ => rfl) (fun _ alive => ?_) (fun _ _ shown => ?_)
    · cases alive
    · cases shown

/-- However activities are made, destroyed and made again from their saved state, the one
made last ends up with its own shell, and each of them launches one shell only. -/
theorem current_shows_own_page (actions : List Action) :
    ShowsOwnPage spec ((machine spec).exec {} actions) :=
  Inv.shows (Machine.exec_invariant (fun _ _ _ inv => inv.step) start_inv actions)

end Spec

end ChromiumDemo.ActivityLaunch
