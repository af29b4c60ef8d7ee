import ChromiumDemo.TransitionSystem
import ChromiumDemo.ViewHierarchy

/-! The `ShellManager` view of demo_shell for Android and its `Shell` views. The
manager and every shell keep a `ContentViewRenderView` of their own, a shell that is
shown keeps it in its holder as well, and Android throws when a view that has a
parent is added to a group. -/

namespace ChromiumDemo.ShellManager
open TransitionSystem ViewHierarchy

inductive View
  | manager
  | shell (id : Nat)
  | holder (shell : Nat)
  | renderView (id : Nat)
  | contentView (webContents : Nat)
deriving DecidableEq

structure Shell where
  nativeShell : Int := 0
  window : Option Nat := none
  webContents : Option Nat := none
  contentViewRenderView : Option Nat := none

structure ContentViewRenderView where
  window : Option Nat := none
  webContents : Option Nat := none
  destroyed : Bool := false

/-- The first three fields are those of the manager. -/
structure World where
  window : Option Nat := none
  activeShell : Option Nat := none
  contentViewRenderView : Option Nat := none
  shells : Nat → Shell := fun _ => {}
  shellCount : Nat := 0
  renderViews : Nat → ContentViewRenderView := fun _ => {}
  renderViewCount : Nat := 0
  views : Hierarchy View := .apart
  threw : Bool := false

def World.setShell (s : Nat) (shell : Shell) (w : World) : World :=
  { w with shells := Function.update w.shells s shell }

def newContentViewRenderView (w : World) : World :=
  { w with
    contentViewRenderView := some w.renderViewCount
    renderViews := Function.update w.renderViews w.renderViewCount { window := w.window }
    renderViewCount := w.renderViewCount + 1 }

def needContentViewRenderView (w : World) : World :=
  if w.contentViewRenderView = none then newContentViewRenderView w else w

def setWindow (window : Nat) (w : World) : World :=
  newContentViewRenderView { w with window := some window }

def setCurrentWebContents (view webContents : Nat) (w : World) : World :=
  let old := w.renderViews view
  { w with renderViews :=
      Function.update w.renderViews view { old with webContents := some webContents } }

def removeRenderView (s : Nat) (w : World) : World :=
  let shell := w.shells s
  let views := match shell.contentViewRenderView with
    | none => w.views
    | some view => w.views.removeView (.holder s) (.renderView view)
  { w with views := views }.setShell s { shell with contentViewRenderView := none }

def addRenderView (s view : Nat) (w : World) : Option World :=
  (w.views.addView (.holder s) (.renderView view)).map fun views =>
    { w with views := views }.setShell s { w.shells s with contentViewRenderView := some view }

def setContentViewRenderView (s : Nat) : Option Nat → World → Option World
  | none, w => some (removeRenderView s w)
  | some view, w => addRenderView s view w

/-- The call `setContentViewRenderView(null)` in it never throws. -/
def removeShell (s : Nat) (w : World) : World :=
  let left := if w.activeShell = some s then { w with activeShell := none } else w
  if left.views.parent (.shell s) = none then left
  else
    let emptied := removeRenderView s left
    { emptied with views := emptied.views.removeView .manager (.shell s) }

def removeActiveShell (w : World) : World :=
  match w.activeShell with
  | none => w
  | some active => removeShell active w

def inflate (w : World) : Option World :=
  (w.views.addView (.shell w.shellCount) (.holder w.shellCount)).map fun views =>
    { w with views := views, shellCount := w.shellCount + 1 }.setShell w.shellCount {}

def initializeShell (s : Nat) (nativeShell : Int) (w : World) : World :=
  w.setShell s { w.shells s with nativeShell := nativeShell, window := w.window }

def showShell (s : Nat) (w : World) : Option World := do
  let held ← setContentViewRenderView s w.contentViewRenderView w
  let views ← held.views.addView .manager (.shell s)
  let shown := { held with views := views, activeShell := some s }
  match (shown.shells s).webContents with
  | none => some shown
  | some webContents =>
    shown.contentViewRenderView.map fun view => setCurrentWebContents view webContents shown

def createShell (nativeShellPtr : Int) (w : World) : Option World := do
  let inflated ← inflate (needContentViewRenderView w)
  let made := initializeShell w.shellCount nativeShellPtr inflated
  showShell w.shellCount (removeActiveShell made)

def destroy (w : World) : World :=
  let alone := removeActiveShell w
  match alone.contentViewRenderView with
  | none => alone
  | some view => { alone with
      contentViewRenderView := none
      renderViews := Function.update alone.renderViews view
        { alone.renderViews view with destroyed := true } }

inductive Action
  | setWindow (window : Nat)
  | createShell (nativeShellPtr : Int)
  | removeShell (shell : Nat)
  | destroy

def step (w : World) : Action → Option World
  | .setWindow window => some (setWindow window w)
  | .createShell ptr => some ((createShell ptr w).getD { w with threw := true })
  | .removeShell s => if s < w.shellCount then some (removeShell s w) else none
  | .destroy => some (destroy w)

def machine : Machine World Action := .haltOn World.threw step

end ChromiumDemo.ShellManager
