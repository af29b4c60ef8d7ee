import ChromiumDemo.ShellManager

/-! What holds of the views under every order of the manager's calls. The active
shell is the only child of the manager and the only one with a render view, in its
field and in its holder alike, and no render view outside of it has a parent, so
each `addView` meets a view that is free. -/

namespace ChromiumDemo.ShellManager
open TransitionSystem ViewHierarchy Hierarchy

def World.holderOf (view : Nat) (w : World) : Option View :=
  w.activeShell.bind fun s =>
    if (w.shells s).contentViewRenderView = some view then some (.holder s) else none

structure Joined (w : World) : Prop where
  legal : w.threw = false
  shells : ∀ s, w.views.parent (.shell s) =
    if w.activeShell = some s then some .manager else none
  holders : ∀ s, w.views.parent (.holder s) = if s < w.shellCount then some (.shell s) else none
  renderViews : ∀ view, w.views.parent (.renderView view) = w.holderOf view
  inactive : ∀ s, w.activeShell ≠ some s → (w.shells s).contentViewRenderView = none
  showing : ∀ s, w.activeShell = some s →
    s < w.shellCount ∧ ∃ view, (w.shells s).contentViewRenderView = some view
  alive : ∀ s view, (w.shells s).contentViewRenderView = some view →
    view < w.renderViewCount ∧ (w.renderViews view).destroyed = false
  current : ∀ view, w.contentViewRenderView = some view →
    view < w.renderViewCount ∧ (w.renderViews view).destroyed = false

theorem start_joined : Joined {} where
  legal := rfl
  shells _ := rfl
  holders _ := rfl
  renderViews _ := rfl
  inactive _ _ := rfl
  showing _ h := nomatch h
  alive _ _ h := nomatch h
  current _ h := nomatch h

theorem Joined.newContentViewRenderView {w : World} (h : Joined w) :
    Joined (newContentViewRenderView w) where
  legal := h.legal
  shells := h.shells
  holders := h.holders
  renderViews := h.renderViews
  inactive := h.inactive
  showing := h.showing
  alive s view held := by
    have old := h.alive s view held
    have other : view ≠ w.renderViewCount := by omega
    simp only [ShellManager.newContentViewRenderView, Function.update_of_ne other]
    exact ⟨by omega, old.2⟩
  current view same := by
    obtain rfl : w.renderViewCount = view := Option.some.inj same
    simp [ShellManager.newContentViewRenderView]

theorem Joined.setWindow {w : World} (h : Joined w) (window : Nat) :
    Joined (setWindow window w) := by
  have set : Joined { w with window := some window } := { h with }
  exact set.newContentViewRenderView

def World.detach (s view : Nat) (w : World) : World :=
  { w with
    activeShell := none
    views := (w.views.removeView (.holder s) (.renderView view)).removeView .manager (.shell s)
    shells := Function.update w.shells s { w.shells s with contentViewRenderView := none } }

theorem Joined.removeShell_inactive {w : World} (h : Joined w) {s : Nat}
    (other : w.activeShell ≠ some s) : removeShell s w = w := by
  have free : w.views.parent (.shell s) = none := by rw [h.shells, if_neg other]
  simp only [removeShell, if_neg other, free, if_true]

theorem Joined.removeShell_active {w : World} (h : Joined w) {s : Nat}
    (active : w.activeShell = some s) : ∃ view,
    (w.shells s).contentViewRenderView = some view ∧ removeShell s w = w.detach s view := by
  have attached : w.views.parent (.shell s) = some .manager := by rw [h.shells, if_pos active]
  obtain ⟨-, view, held⟩ := h.showing s active
  refine ⟨view, held, ?_⟩
  simp [removeShell, active, attached, removeRenderView, held, World.setShell, World.detach]

theorem Joined.detach {w : World} (h : Joined w) {s view : Nat} (active : w.activeShell = some s)
    (held : (w.shells s).contentViewRenderView = some view) : Joined (w.detach s view) where
  legal := h.legal
  shells t := by
    simp only [World.detach, removeView_parent, h.shells, active]
    by_cases same : t = s
    · simp [same]
    · simp [same, Ne.symm same]
  holders t := by
    simp only [World.detach, removeView_parent, reduceCtorEq, false_and, if_false]
    exact h.holders t
  renderViews v := by
    have old := h.renderViews v
    simp only [World.holderOf, active, Option.bind_some, held, Option.some.injEq] at old
    simp only [World.detach, removeView_parent, World.holderOf, Option.bind_none]
    by_cases same : v = view
    · rw [same, if_pos rfl] at old
      simp [same, old]
    · simpa [same, Ne.symm same] using old
  inactive t _ := by
    simp only [World.detach, Function.update_apply]
    split
    case isTrue => rfl
    case isFalse other =>
      apply h.inactive
      rw [active]
      simpa [eq_comm] using other
  showing _ none := nomatch none
  alive t v found := by
    simp only [World.detach, Function.update_apply] at found
    split at found
    case isTrue => cases found
    case isFalse => exact h.alive t v found
  current := h.current

theorem Joined.removeShell {w : World} (h : Joined w) (s : Nat) : Joined (removeShell s w) := by
  by_cases active : w.activeShell = some s
  · obtain ⟨view, held, same⟩ := h.removeShell_active active
    rw [same]
    exact h.detach active held
  · rw [h.removeShell_inactive active]
    exact h

def World.inflated (w : World)
    (free : w.views.parent (.holder w.shellCount) = none) : World :=
  { w with
    views := w.views.link (.shell w.shellCount) (.holder w.shellCount) free
    shellCount := w.shellCount + 1
    shells := Function.update w.shells w.shellCount {} }

theorem inflate_of_free {w : World} (free : w.views.parent (.holder w.shellCount) = none) :
    inflate w = some (w.inflated free) := by
  simp [inflate, addView_of_free free, World.setShell, World.inflated]

theorem Joined.holder_free {w : World} (h : Joined w) :
    w.views.parent (.holder w.shellCount) = none := by
  rw [h.holders, if_neg (Nat.lt_irrefl _)]

theorem Joined.active_lt {w : World} (h : Joined w) {s : Nat} (active : w.activeShell = some s) :
    s < w.shellCount :=
  (h.showing s active).1

theorem Joined.inflated {w : World} (h : Joined w) : Joined (w.inflated h.holder_free) where
  legal := h.legal
  shells s := by
    simp only [World.inflated, link_parent, reduceCtorEq, if_false]
    exact h.shells s
  holders s := by
    simp only [World.inflated, link_parent, View.holder.injEq, h.holders]
    by_cases same : s = w.shellCount
    · simp [same]
    · have le : s < w.shellCount + 1 ↔ s < w.shellCount := by omega
      simp [same, le]
  renderViews view := by
    have old := h.renderViews view
    simp only [World.inflated, link_parent, reduceCtorEq, if_false, World.holderOf] at old ⊢
    rw [old]
    cases active : w.activeShell with
    | none => rfl
    | some s =>
      have other : s ≠ w.shellCount := Nat.ne_of_lt (h.active_lt active)
      simp [Function.update_of_ne other]
  inactive s other := by
    simp only [World.inflated, Function.update_apply]
    split
    · rfl
    · exact h.inactive s other
  showing s active := by
    have old := h.showing s active
    have other : s ≠ w.shellCount := Nat.ne_of_lt old.1
    simp only [World.inflated, Function.update_of_ne other]
    exact ⟨by omega, old.2⟩
  alive s view found := by
    simp only [World.inflated, Function.update_apply] at found
    split at found
    · cases found
    · exact h.alive s view found
  current := h.current

theorem Joined.initializeShell {w : World} (h : Joined w) (s : Nat) (nativeShell : Int) :
    Joined (initializeShell s nativeShell w) := by
  have same : ∀ t, ((ShellManager.initializeShell s nativeShell w).shells t).contentViewRenderView =
      (w.shells t).contentViewRenderView := by
    intro t
    simp only [ShellManager.initializeShell, World.setShell, Function.update_apply]
    split
    case isTrue here => rw [here]
    case isFalse => rfl
  constructor
  case legal => exact h.legal
  case shells => exact h.shells
  case holders => exact h.holders
  case renderViews =>
    intro view
    have old := h.renderViews view
    simp only [World.holderOf, same] at old ⊢
    exact old
  case inactive =>
    simp only [same]
    exact h.inactive
  case showing =>
    simp only [same]
    exact h.showing
  case alive =>
    simp only [same]
    exact h.alive
  case current => exact h.current

/-- `showShell` of a shell without web contents, on the views that this leads to. -/
def World.shown (s view : Nat) (views : Hierarchy View) (w : World) : World :=
  { w with
    activeShell := some s
    views := views
    shells := Function.update w.shells s
      { w.shells s with contentViewRenderView := some view } }

def Shows (s view : Nat) (views old : Hierarchy View) : Prop :=
  ∀ c, views.parent c = if c = .shell s then some .manager
    else if c = .renderView view then some (.holder s) else old.parent c

theorem Joined.showShell {w : World} (h : Joined w) {s view : Nat}
    (none_active : w.activeShell = none)
    (target : w.contentViewRenderView = some view) (bare : (w.shells s).webContents = none) :
    ∃ views, showShell s w = some (w.shown s view views) ∧ Shows s view views w.views := by
  have view_free : w.views.parent (.renderView view) = none := by
    rw [h.renderViews, World.holderOf, none_active, Option.bind_none]
  have shell_free : (w.views.link (.holder s) (.renderView view) view_free).parent (.shell s) =
      none := by
    rw [link_parent, if_neg (by simp), h.shells, none_active]
    rfl
  refine ⟨link .manager (.shell s) _ shell_free, ?_, fun c => ?_⟩
  · simp [ShellManager.showShell, target, setContentViewRenderView, addRenderView,
      addView_of_free view_free, addView_of_free shell_free, World.setShell, bare, World.shown]
  · rw [link_parent, link_parent]

theorem Joined.shown {w : World} (h : Joined w) {s view : Nat} {views : Hierarchy View}
    (none_active : w.activeShell = none) (target : w.contentViewRenderView = some view)
    (made : s < w.shellCount) (shows : Shows s view views w.views) :
    Joined (w.shown s view views) where
  legal := h.legal
  shells t := by
    have parent := shows (.shell t)
    simp only [View.shell.injEq, reduceCtorEq, if_false, h.shells, none_active] at parent
    simp only [World.shown, parent, Option.some.injEq, eq_comm]
  holders t := by
    have parent := shows (.holder t)
    simp only [reduceCtorEq, if_false] at parent
    exact parent.trans (h.holders t)
  renderViews v := by
    have old := h.renderViews v
    have parent := shows (.renderView v)
    simp only [World.holderOf, none_active, Option.bind_none] at old
    simp only [reduceCtorEq, if_false, View.renderView.injEq, old] at parent
    simp only [World.shown, parent, World.holderOf, Option.bind_some, Function.update_self,
      Option.some.injEq, eq_comm]
  inactive t other := by
    have apart : t ≠ s := fun same => other (by rw [same]; rfl)
    simp only [World.shown, Function.update_of_ne apart]
    apply h.inactive
    simp [none_active]
  showing t active := by
    obtain rfl : s = t := Option.some.inj active
    simp only [World.shown, Function.update_self]
    exact ⟨made, view, rfl⟩
  alive t v found := by
    simp only [World.shown, Function.update_apply] at found
    split at found
    · obtain rfl : view = v := Option.some.inj found
      exact h.current view target
    · exact h.alive t v found
  current := h.current

/-- What the calls on the views leave alone. -/
structure Frame (w d : World) : Prop where
  shellCount : d.shellCount = w.shellCount
  nativeShell : ∀ s, (d.shells s).nativeShell = (w.shells s).nativeShell
  webContents : ∀ s, (d.shells s).webContents = (w.shells s).webContents
  contentViews : ∀ c, d.views.parent (.contentView c) = w.views.parent (.contentView c)

theorem Frame.refl (w : World) : Frame w w := ⟨rfl, fun _ => rfl, fun _ => rfl, fun _ => rfl⟩

theorem detach_frame (s view : Nat) (w : World) : Frame w (w.detach s view) := by
  have shell : ∀ t, ((w.detach s view).shells t).nativeShell = (w.shells t).nativeShell ∧
      ((w.detach s view).shells t).webContents = (w.shells t).webContents := by
    intro t
    simp only [World.detach, Function.update_apply]
    split
    case isTrue here => rw [here]; exact ⟨rfl, rfl⟩
    case isFalse => exact ⟨rfl, rfl⟩
  exact ⟨rfl, fun t => (shell t).1, fun t => (shell t).2, fun c => by simp [World.detach]⟩

structure Cleared (w d : World) : Prop where
  joined : Joined d
  frame : Frame w d
  active : d.activeShell = none
  target : d.contentViewRenderView = w.contentViewRenderView

theorem Joined.removeActiveShell {w : World} (h : Joined w) : Cleared w (removeActiveShell w) := by
  unfold ShellManager.removeActiveShell
  cases active : w.activeShell with
  | none => exact ⟨h, .refl w, active, rfl⟩
  | some s =>
    obtain ⟨view, held, same⟩ := h.removeShell_active active
    simp only [same]
    exact ⟨h.detach active held, detach_frame s view w, rfl, rfl⟩

theorem Joined.needContentViewRenderView {w : World} (h : Joined w) :
    Joined (needContentViewRenderView w) ∧ Frame w (needContentViewRenderView w) ∧
      ∃ view, (needContentViewRenderView w).contentViewRenderView = some view := by
  unfold ShellManager.needContentViewRenderView
  split
  case isTrue =>
    exact ⟨h.newContentViewRenderView, ⟨rfl, fun _ => rfl, fun _ => rfl, fun _ => rfl⟩,
      w.renderViewCount, rfl⟩
  case isFalse found => exact ⟨h, .refl w, Option.ne_none_iff_exists'.mp found⟩

structure Made (nativeShellPtr : Int) (w d : World) : Prop where
  joined : Joined d
  shellCount : d.shellCount = w.shellCount + 1
  nativeShell : ∀ s, (d.shells s).nativeShell =
    if s = w.shellCount then nativeShellPtr else (w.shells s).nativeShell
  webContents : (d.shells w.shellCount).webContents = none
  contentViews : ∀ c, d.views.parent (.contentView c) = w.views.parent (.contentView c)

theorem Joined.make {w : World} (h : Joined w) (nativeShellPtr : Int) :
    Made nativeShellPtr w
      (ShellManager.initializeShell w.shellCount nativeShellPtr (w.inflated h.holder_free)) where
  joined := h.inflated.initializeShell w.shellCount nativeShellPtr
  shellCount := rfl
  nativeShell s := by
    by_cases same : s = w.shellCount
    · simp [same, ShellManager.initializeShell, World.setShell]
    · simp [same, ShellManager.initializeShell, World.setShell, World.inflated]
  webContents := by simp [ShellManager.initializeShell, World.setShell, World.inflated]
  contentViews c := by simp [ShellManager.initializeShell, World.setShell, World.inflated]

theorem Frame.made {nativeShellPtr : Int} {w v d : World} (frame : Frame w v)
    (made : Made nativeShellPtr v d) : Made nativeShellPtr w d where
  joined := made.joined
  shellCount := by rw [made.shellCount, frame.shellCount]
  nativeShell s := by rw [made.nativeShell, frame.shellCount, frame.nativeShell]
  webContents := by rw [← frame.shellCount, made.webContents]
  contentViews c := by rw [made.contentViews, frame.contentViews]

theorem Made.frame {nativeShellPtr : Int} {w d e : World} (made : Made nativeShellPtr w d)
    (joined : Joined e) (frame : Frame d e) : Made nativeShellPtr w e where
  joined := joined
  shellCount := by rw [frame.shellCount, made.shellCount]
  nativeShell s := by rw [frame.nativeShell, made.nativeShell]
  webContents := by rw [frame.webContents, made.webContents]
  contentViews c := by rw [frame.contentViews, made.contentViews]

theorem shown_frame (s view : Nat) {views : Hierarchy View} {w : World}
    (shows : Shows s view views w.views) : Frame w (w.shown s view views) where
  shellCount := rfl
  nativeShell t := by
    simp only [World.shown, Function.update_apply]
    split
    case isTrue here => rw [here]
    case isFalse => rfl
  webContents t := by
    simp only [World.shown, Function.update_apply]
    split
    case isTrue here => rw [here]
    case isFalse => rfl
  contentViews c := by
    have parent := shows (.contentView c)
    simp only [reduceCtorEq, if_false] at parent
    exact parent

theorem Joined.createShell {w : World} (h : Joined w) (nativeShellPtr : Int) :
    ∃ d, createShell nativeShellPtr w = some d ∧ Made nativeShellPtr w d ∧
      d.activeShell = some w.shellCount ∧
      (d.shells w.shellCount).contentViewRenderView = d.contentViewRenderView := by
  obtain ⟨ready, frame, view, target⟩ := h.needContentViewRenderView
  have made := frame.made (ready.make nativeShellPtr)
  rw [frame.shellCount] at made
  have clear := made.joined.removeActiveShell
  have alone := made.frame clear.joined clear.frame
  have next : w.shellCount < (ShellManager.removeActiveShell (ShellManager.initializeShell
      w.shellCount nativeShellPtr (World.inflated _ ready.holder_free))).shellCount := by
    rw [alone.shellCount]
    exact Nat.lt_succ_self _
  have aim := clear.target.trans target
  obtain ⟨views, shown, shows⟩ := clear.joined.showShell clear.active aim alone.webContents
  refine ⟨_, ?_, alone.frame (clear.joined.shown clear.active aim next shows)
    (shown_frame _ _ shows), rfl, ?_⟩
  · rw [ShellManager.createShell, inflate_of_free ready.holder_free]
    exact shown
  · simp only [World.shown, Function.update_self]
    exact aim.symm

theorem destroy_of_empty {w : World} (no_shell : w.activeShell = none)
    (no_view : w.contentViewRenderView = none) : destroy w = w := by
  simp only [destroy, removeActiveShell, no_shell, no_view]

theorem Joined.destroy {w : World} (h : Joined w) :
    Joined (destroy w) ∧ (ShellManager.destroy w).activeShell = none ∧
      (ShellManager.destroy w).contentViewRenderView = none := by
  have clear := h.removeActiveShell
  unfold ShellManager.destroy
  cases target : (ShellManager.removeActiveShell w).contentViewRenderView with
  | none =>
    simp only [target, and_true]
    exact ⟨clear.joined, clear.active⟩
  | some view =>
    simp only [target, and_true]
    have joined := clear.joined
    refine ⟨⟨joined.legal, joined.shells, joined.holders, joined.renderViews, joined.inactive,
      joined.showing, fun s v held => ?_, fun _ current => nomatch current⟩, clear.active⟩
    have empty := joined.inactive s (by rw [clear.active]; exact nofun)
    rw [empty] at held
    cases held

theorem joined_step (w : World) (a : Action) (d : World) (h : Joined w)
    (taken : machine.step w a = some d) : Joined d := by
  obtain ⟨-, taken⟩ := Machine.step_of_haltOn taken
  cases a with
  | setWindow window =>
    cases taken
    exact h.setWindow window
  | createShell ptr =>
    obtain ⟨e, created, made, -⟩ := h.createShell ptr
    simp only [step, created, Option.getD_some] at taken
    cases taken
    exact made.joined
  | removeShell s =>
    simp only [step, Option.ite_none_right_eq_some, Option.some.injEq] at taken
    obtain ⟨-, rfl⟩ := taken
    exact h.removeShell s
  | destroy =>
    cases taken
    exact h.destroy.1

theorem exec_joined (as : List Action) : Joined (machine.exec {} as) :=
  Machine.exec_invariant joined_step start_joined as

structure Attached (w : World) : Prop where
  active : ∀ s, .shell s ∈ w.views.children .manager ↔ w.activeShell = some s
  once : ∀ p, (w.views.children p).Nodup
  holder : ∀ s, (∃ view, .renderView view ∈ w.views.children (.holder s)) ↔
    .shell s ∈ w.views.children .manager
  field : ∀ s view, (w.shells s).contentViewRenderView = some view ↔
    .renderView view ∈ w.views.children (.holder s)
  oneParent : ∀ view p q, .renderView view ∈ w.views.children p →
    .renderView view ∈ w.views.children q → p = q
  legal : w.threw = false
  destroyed : ∀ view, (w.renderViews view).destroyed →
    (∀ p, .renderView view ∉ w.views.children p) ∧ w.contentViewRenderView ≠ some view ∧
      ∀ s, (w.shells s).contentViewRenderView ≠ some view

theorem Joined.field {w : World} (h : Joined w) (s view : Nat) :
    (w.shells s).contentViewRenderView = some view ↔
      .renderView view ∈ w.views.children (.holder s) := by
  rw [w.views.linked, h.renderViews, World.holderOf]
  cases active : w.activeShell with
  | none => simp [h.inactive s (by rw [active]; exact nofun)]
  | some t =>
    by_cases same : s = t
    · simp [same]
    · have empty := h.inactive s (by rw [active]; simpa [eq_comm] using same)
      simp [empty, Ne.symm same]

theorem Joined.attached {w : World} (h : Joined w) : Attached w where
  active s := by
    rw [w.views.linked, h.shells]
    simp
  once := w.views.nodup
  holder s := by
    rw [w.views.linked, h.shells]
    simp only [← h.field]
    by_cases active : w.activeShell = some s
    · simp [active, (h.showing s active).2]
    · simp [active, h.inactive s active]
  field := h.field
  oneParent _ _ _ := w.views.parent_unique
  legal := h.legal
  destroyed view gone := by
    have held : ∀ s, (w.shells s).contentViewRenderView ≠ some view := by
      intro s found
      rw [(h.alive s view found).2] at gone
      cases gone
    refine ⟨fun p member => ?_, fun target => ?_, held⟩
    · rw [w.views.linked, h.renderViews] at member
      obtain ⟨s, -, inside⟩ := Option.bind_eq_some_iff.mp member
      rw [if_neg (held s)] at inside
      cases inside
    · rw [(h.current view target).2] at gone
      cases gone

/-- In every reachable state the views are as they should be, and a second
`destroy` in a row changes nothing. -/
theorem hierarchy_safe (as : List Action) :
    Attached (machine.exec {} as) ∧
      machine.exec {} (as ++ [.destroy, .destroy]) = machine.exec {} (as ++ [.destroy]) := by
  have joined := exec_joined as
  refine ⟨joined.attached, ?_⟩
  have once : machine.exec {} (as ++ [.destroy]) = destroy (machine.exec {} as) := by
    rw [Machine.exec_append]
    exact Machine.haltOn_next joined.legal step .destroy
  obtain ⟨after, no_shell, no_view⟩ := joined.destroy
  calc machine.exec {} (as ++ [.destroy, .destroy])
      = machine.next (machine.exec {} (as ++ [.destroy])) .destroy := by
        simp only [Machine.exec_append, Machine.exec_cons, Machine.exec_nil]
    _ = destroy (destroy (machine.exec {} as)) := by
        rw [once]
        exact Machine.haltOn_next after.legal step .destroy
    _ = machine.exec {} (as ++ [.destroy]) := by rw [destroy_of_empty no_shell no_view, once]

end ChromiumDemo.ShellManager
