import ChromiumDemo.ShellHierarchy
import Mathlib.Data.List.Range

/-! Launching shells on Android. `launchShell` goes to the native side, which makes
a `DemoShell` and has the `ShellManager` create its view, and then closes the shell
that was active. The native end of that close does nothing, so every native shell
ever made stays alive. -/

namespace ChromiumDemo.ShellLaunch
open TransitionSystem ViewHierarchy Hierarchy ShellManager

structure DemoShell where
  address : Int
  javaObject : Nat
  webContents : Nat
  loaded : Option String

/-- Addresses and web contents are numbered as they are made. -/
structure Process where
  java : World := {}
  alive : List DemoShell := []
  made : Nat := 0

def initFromNativeTabContents (s webContents : Nat) (w : World) : Option World := do
  let set := w.setShell s { w.shells s with webContents := some webContents }
  let views ← set.views.addView (.holder s) (.contentView webContents)
  let view ← (set.shells s).contentViewRenderView
  some (setCurrentWebContents view webContents { set with views := views })

def Process.add (url : String) (java : World) (p : Process) : Process :=
  let shell : DemoShell :=
    ⟨p.made + 1, p.java.shellCount, p.made, if url = "" then none else some url⟩
  { java := java, alive := p.alive ++ [shell], made := p.made + 1 }

/-- `CreateShell` with the two platform calls in it, then the load. -/
def createNewWindow (url : String) (p : Process) : Option Process := do
  let created ← createShell (p.made + 1) p.java
  let java ← initFromNativeTabContents p.java.shellCount p.made created
  some (p.add url java)

def closeShell (_shellPtr : Int) (p : Process) : Process := p

def Shell.close (s : Nat) (p : Process) : Process :=
  if (p.java.shells s).nativeShell = 0 then p else closeShell (p.java.shells s).nativeShell p

def launchShell (url : String) (p : Process) : Option Process :=
  (createNewWindow url p).map fun launched =>
    match p.java.activeShell with
    | none => launched
    | some previous => Shell.close previous launched

def isDestroyed (s : Nat) (w : World) : Prop := (w.shells s).nativeShell = 0

inductive Action
  | createNewWindow (url : String)
  | launchShell (url : String)

def Process.threw (p : Process) : Bool := p.java.threw

def Process.throw (p : Process) : Process := { p with java := { p.java with threw := true } }

def step (p : Process) : Action → Option Process
  | .createNewWindow url => some ((createNewWindow url p).getD p.throw)
  | .launchShell url => some ((launchShell url p).getD p.throw)

def machine : Machine Process Action := .haltOn Process.threw step

def start (window : Nat) : Process := { java := setWindow window {} }

/-- One native shell is alive, the peer of the active shell, and every other shell
has been closed. -/
def SingleShell (p : Process) : Prop :=
  (∃ d s, p.alive = [d] ∧ p.java.activeShell = some s ∧ d.javaObject = s ∧
    (p.java.shells s).nativeShell = d.address) ∧
  ∀ s < p.java.shellCount, p.java.activeShell ≠ some s →
    (∀ d ∈ p.alive, d.javaObject ≠ s) ∧ isDestroyed s p.java

structure Grown (p : Process) : Prop where
  joined : Joined p.java
  shells : p.java.shellCount = p.made
  alive : p.alive.length = p.made
  peers : ∀ d ∈ p.alive, d.javaObject < p.made ∧ d.address = d.javaObject + 1
  native : ∀ s < p.made, (p.java.shells s).nativeShell = s + 1
  active : ∀ n, p.made = n + 1 → p.java.activeShell = some n
  free : ∀ c, p.made ≤ c → p.java.views.parent (.contentView c) = none

theorem start_grown (window : Nat) : Grown (start window) where
  joined := start_joined.setWindow window
  shells := rfl
  alive := rfl
  peers _ member := nomatch member
  native _ lt := nomatch lt
  active _ absurd := nomatch absurd
  free _ _ := rfl

def filled (s webContents view : Nat) (w : World)
    (free : w.views.parent (.contentView webContents) = none) : World :=
  setCurrentWebContents view webContents
    { w.setShell s { w.shells s with webContents := some webContents } with
      views := w.views.link (.holder s) (.contentView webContents) free }

theorem initFromNativeTabContents_eq {w : World} {s webContents view : Nat}
    (held : (w.shells s).contentViewRenderView = some view)
    (free : w.views.parent (.contentView webContents) = none) :
    initFromNativeTabContents s webContents w = some (filled s webContents view w free) := by
  simp [initFromNativeTabContents, World.setShell, addView_of_free free, held, filled]

theorem filled_shells (s webContents view : Nat) {w : World}
    (free : w.views.parent (.contentView webContents) = none) (t : Nat) :
    ((filled s webContents view w free).shells t).nativeShell = (w.shells t).nativeShell ∧
      ((filled s webContents view w free).shells t).contentViewRenderView =
        (w.shells t).contentViewRenderView := by
  simp only [filled, setCurrentWebContents, World.setShell, Function.update_apply]
  split
  case isTrue same => rw [same]; exact ⟨rfl, rfl⟩
  case isFalse => exact ⟨rfl, rfl⟩

theorem filled_destroyed (s webContents view : Nat) {w : World}
    (free : w.views.parent (.contentView webContents) = none) (v : Nat) :
    ((filled s webContents view w free).renderViews v).destroyed =
      (w.renderViews v).destroyed := by
  simp only [filled, setCurrentWebContents, World.setShell, Function.update_apply]
  split
  case isTrue same => rw [same]
  case isFalse => rfl

theorem filled_parent (s webContents view : Nat) {w : World}
    (free : w.views.parent (.contentView webContents) = none) (c : View) :
    (filled s webContents view w free).views.parent c =
      if c = .contentView webContents then some (.holder s) else w.views.parent c :=
  link_parent _ _ _ _ free

theorem joined_filled {w : World} (h : Joined w) (s webContents view : Nat)
    (free : w.views.parent (.contentView webContents) = none) :
    Joined (filled s webContents view w free) where
  legal := h.legal
  shells t := by
    rw [filled_parent, if_neg (by simp)]
    exact h.shells t
  holders t := by
    rw [filled_parent, if_neg (by simp)]
    exact h.holders t
  renderViews v := by
    rw [filled_parent, if_neg (by simp), h.renderViews]
    simp only [World.holderOf, filled_shells]
    rfl
  inactive t other := by
    rw [(filled_shells ..).2]
    exact h.inactive t other
  showing t active := by
    rw [(filled_shells ..).2]
    exact h.showing t active
  alive t v held := by
    rw [(filled_shells ..).2] at held
    rw [filled_destroyed]
    exact h.alive t v held
  current v target := by
    rw [filled_destroyed]
    exact h.current v target

theorem Grown.add {p : Process} (h : Grown p) (url : String) {d : World} {view : Nat}
    (made : Made (p.made + 1) p.java d) (active : d.activeShell = some p.java.shellCount)
    (free : d.views.parent (.contentView p.made) = none) :
    Grown (p.add url (filled p.java.shellCount p.made view d free)) where
  joined := joined_filled made.joined _ _ _ free
  shells := made.shellCount.trans (by rw [h.shells]; rfl)
  alive := by simp [Process.add, h.alive]
  peers shell member := by
    rcases List.mem_append.mp member with old | new
    · have known := h.peers shell old
      exact ⟨Nat.lt_succ_of_lt known.1, known.2⟩
    · rw [List.mem_singleton.mp new, h.shells]
      exact ⟨Nat.lt_succ_self _, rfl⟩
  native s lt := by
    simp only [Process.add, filled_shells, made.nativeShell, h.shells]
    split
    case isTrue same => rw [same]
    case isFalse other =>
      apply h.native
      simp only [Process.add] at lt
      omega
  active n same := by
    obtain rfl : p.made = n := Nat.succ.inj same
    exact active.trans (by rw [h.shells])
  free c le := by
    simp only [Process.add] at le
    simp only [Process.add, filled_parent, made.contentViews]
    rw [if_neg (by simp; omega)]
    exact h.free c (by omega)

structure Opened (p q : Process) : Prop where
  grown : Grown q
  made : q.made = p.made + 1

theorem Grown.createNewWindow {p : Process} (h : Grown p) (url : String) :
    ∃ q, createNewWindow url p = some q ∧ Opened p q := by
  obtain ⟨d, created, made, active⟩ := h.joined.createShell (p.made + 1 : Int)
  have free : d.views.parent (.contentView p.made) = none := by
    rw [made.contentViews]
    exact h.free p.made (Nat.le_refl _)
  obtain ⟨view, held⟩ := (made.joined.showing _ active.1).2
  refine ⟨p.add url (filled p.java.shellCount p.made view d free), ?_,
    h.add url made active.1 free, rfl⟩
  simp [ShellLaunch.createNewWindow, created, initFromNativeTabContents_eq held free]

theorem close_eq (s : Nat) (p : Process) : Shell.close s p = p := by
  unfold Shell.close closeShell
  split <;> rfl

theorem Grown.launchShell {p : Process} (h : Grown p) (url : String) :
    ∃ q, launchShell url p = some q ∧ Opened p q := by
  obtain ⟨q, opened, known⟩ := h.createNewWindow url
  refine ⟨q, ?_, known⟩
  rw [ShellLaunch.launchShell, opened, Option.map_some]
  split
  · rfl
  · rw [close_eq]

theorem next_opened {p : Process} (h : Grown p) (a : Action) : Opened p (machine.next p a) := by
  have alive : p.threw = false := h.joined.legal
  have next : machine.next p a = (step p a).getD p := Machine.haltOn_next alive step a
  rw [next]
  cases a with
  | createNewWindow url =>
    obtain ⟨q, opened, known⟩ := h.createNewWindow url
    simpa only [step, opened, Option.getD_some] using known
  | launchShell url =>
    obtain ⟨q, opened, known⟩ := h.launchShell url
    simpa only [step, opened, Option.getD_some] using known

theorem exec_grown {p : Process} (h : Grown p) (as : List Action) :
    Grown (machine.exec p as) ∧ (machine.exec p as).made = p.made + as.length := by
  induction as generalizing p with
  | nil => exact ⟨h, rfl⟩
  | cons a as ih =>
    have opened := next_opened h a
    have rest := ih opened.grown
    rw [opened.made] at rest
    rw [Machine.exec_cons, List.length_cons]
    exact ⟨rest.1, by omega⟩

theorem Grown.single_iff {p : Process} (h : Grown p) : SingleShell p ↔ p.made = 1 := by
  constructor
  · rintro ⟨⟨d, s, alive, -⟩, -⟩
    rw [← h.alive, alive, List.length_singleton]
  · intro one
    have active := h.active 0 one
    obtain ⟨d, alive⟩ := List.length_eq_one_iff.mp (h.alive.trans one)
    have peer := h.peers d (by rw [alive]; exact List.mem_singleton_self d)
    have object : d.javaObject = 0 := by omega
    refine ⟨⟨d, 0, alive, active, object, ?_⟩, fun s lt other => ?_⟩
    · rw [h.native 0 (by omega), peer.2, object]
    · rw [h.shells, one] at lt
      have zero : s = 0 := by omega
      exact absurd (zero ▸ active) other

/-- With the windows `opened` made by the browser before the first launch. -/
theorem singleShell_iff (window : Nat) (opened : List String) (url : String)
    (urls : List String) :
    SingleShell (machine.exec (start window)
      (opened.map .createNewWindow ++ (url :: urls).map .launchShell)) ↔
      opened = [] ∧ urls = [] := by
  have grown := exec_grown (start_grown window)
    (opened.map .createNewWindow ++ (url :: urls).map .launchShell)
  rw [grown.1.single_iff, grown.2]
  have none_made : (start window).made = 0 := rfl
  simp only [List.length_append, List.length_map, List.length_cons, none_made,
    ← List.length_eq_zero_iff]
  omega

theorem first_shell_survives : ¬ SingleShell (machine.exec (start 0)
    [.launchShell "a:", .launchShell "b:"]) := by
  have grown := exec_grown (start_grown 0) [.launchShell "a:", .launchShell "b:"]
  rw [grown.1.single_iff, grown.2]
  decide

end ChromiumDemo.ShellLaunch
