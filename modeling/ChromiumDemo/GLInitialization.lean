import ChromiumDemo.CanvasBuilds
import ChromiumDemo.ProgramLogic
import ChromiumDemo.TransitionSystem

/-! What `InitializeOnRenderThread` of the GL canvas of demo_skia has made when it comes
to its end, for all answers of EGL: which config the surface and the context are of, and
what the members say about it. -/

namespace ChromiumDemo.GLInitialization
open CheckedProgram CanvasBuilds TransitionSystem

variable {ρ : Type}

abbrev State (ρ : Type) := World (Members ρ) Call

abbrev Answers := List Call → Call → Answer

structure GLState where
  surface : Int
  context : Int
  colorFormat : ColorFormat
  stencilBits : Option Int
  sampleCount : Option Int
  grGLInterface : Int
  grContext : Int

def glState (m : Members ρ) : GLState :=
  ⟨m.surface, m.context, m.colorFormat, m.stencilBits, m.sampleCount, m.grGLInterface, m.grContext⟩

def configOf : Call → Option (Option EGLConfig)
  | .eglGetConfigAttrib config _ _ | .eglCreateWindowSurface config | .eglCreateContext config =>
    some config
  | _ => none

def isChoose : Call → Bool
  | .eglChooseConfig _ _ => true
  | _ => false

def IsPlain (c : Call) : Prop := configOf c = none ∧ isChoose c = false

instance (c : Call) : Decidable (IsPlain c) := inferInstanceAs (Decidable (_ ∧ _))

def Answered (answers : Answers) (calls : List Call) (c : Call) (a : Answer) : Prop :=
  ∃ before after, calls = before ++ c :: after ∧ answers before c = a

/-- The config is one that a successful `eglChooseConfig` with these sizes has written. -/
def Returned (answers : Answers) (calls : List Call) (config : EGLConfig) (sizes : ChannelSizes) :
    Prop :=
  ∃ before configSize after, calls = before ++ .eglChooseConfig sizes configSize :: after ∧
    before.countP isChoose = config.1 ∧
    (answers before (.eglChooseConfig sizes configSize)).result ≠ 0 ∧
    config.2 < min (answers before (.eglChooseConfig sizes configSize)).count configSize

def UsesReturned (answers : Answers) (before : List Call) (c : Call) : Prop :=
  ∀ config ∈ configOf c, ∃ chosen sizes, config = some chosen ∧
    Returned answers before chosen sizes

def Safe (answers : Answers) (w : State ρ) : Prop := History (UsesReturned answers) w.calls

structure Made (answers : Answers) (calls : List Call) (g : GLState) (config : EGLConfig)
    (sizes : ChannelSizes) : Prop where
  returned : Returned answers calls config sizes
  surface : ∃ a, Answered answers calls (.eglCreateWindowSurface (some config)) a ∧
    a.result = g.surface ∧ g.surface ≠ 0
  context : ∃ a, Answered answers calls (.eglCreateContext (some config)) a ∧
    a.result = g.context ∧ g.context ≠ 0
  colorFormat : g.colorFormat = .rgba8 ↔ sizes = eightBits

/-- The other members are what EGL says of that config. -/
structure Described (answers : Answers) (calls : List Call) (g : GLState) (config : EGLConfig)
    (sizes : ChannelSizes) : Prop extends Made answers calls g config sizes where
  stencilBits : ∃ a,
    Answered answers calls (.eglGetConfigAttrib (some config) .stencilSize .stencilBits) a ∧
      a.result ≠ 0 ∧ g.stencilBits = some (a.count : Int)
  sampleCount : ∃ a,
    Answered answers calls (.eglGetConfigAttrib (some config) .samples .sampleCount) a ∧
      a.result ≠ 0 ∧ g.sampleCount = some (max (a.count : Int) 1)

structure Built (answers : Answers) (calls : List Call) (g : GLState) (config : EGLConfig)
    (sizes : ChannelSizes) : Prop extends Described answers calls g config sizes where
  grGLInterface : g.grGLInterface ≠ 0
  grContext : g.grContext ≠ 0

def Consistent (answers : Answers) (w : State ρ) : Prop :=
  ∃ config sizes, Built answers w.calls (glState w.state) config sizes

def tells : Call → Bool
  | .eglGetConfigAttrib _ _ value => value != .newFormat
  | _ => false

/-- EGL has answered all of them. -/
def Told (answers : Answers) (calls : List Call) : Prop :=
  History (fun before c => tells c = true → (answers before c).result ≠ 0) calls

/-- A count that EGL was asked for and has not written. -/
def Unset (w : State ρ) : Prop := w.state.stencilBits = none ∨ w.state.sampleCount = none

structure Untold (answers : Answers) (w : State ρ) : Prop where
  told : Told answers w.calls
  stencilBits : w.state.stencilBits = none
  sampleCount : w.state.sampleCount = none

structure Unasked (w v : State ρ) : Prop where
  stencilBits : v.state.stencilBits = w.state.stencilBits
  sampleCount : v.state.sampleCount = w.state.sampleCount
  calls : ∃ more, v.calls = w.calls ++ more ∧ ∀ c ∈ more, tells c = false

instance : IsPreorder (State ρ) Unasked where
  refl w := ⟨rfl, rfl, [], (List.append_nil _).symm, by simp⟩
  trans := by
    intro w v u first second
    obtain ⟨more, calls, own⟩ := first.calls
    obtain ⟨rest, later, again⟩ := second.calls
    refine ⟨second.stencilBits.trans first.stencilBits,
      second.sampleCount.trans first.sampleCount, more ++ rest, ?_, ?_⟩
    · rw [later, calls, List.append_assoc]
    · intro c member
      exact (List.mem_append.mp member).elim (own c) (again c)

structure Apart (w v : State ρ) : Prop where
  glState : glState v.state = glState w.state
  calls : ∃ more, v.calls = w.calls ++ more ∧ ∀ c ∈ more, IsPlain c

instance : IsPreorder (State ρ) Apart where
  refl w := ⟨rfl, [], (List.append_nil _).symm, by simp⟩
  trans := by
    intro w v u first second
    obtain ⟨more, calls, plain⟩ := first.calls
    obtain ⟨rest, later, again⟩ := second.calls
    refine ⟨second.glState.trans first.glState, more ++ rest, ?_, ?_⟩
    · rw [later, calls, List.append_assoc]
    · intro c member
      exact (List.mem_append.mp member).elim (plain c) (again c)

structure Uses (config : Option EGLConfig) (w v : State ρ) : Prop where
  state : v.state = w.state
  calls : ∃ more, v.calls = w.calls ++ more ∧ ∀ c ∈ more, configOf c = some config

instance (config : Option EGLConfig) : IsPreorder (State ρ) (Uses config) where
  refl w := ⟨rfl, [], (List.append_nil _).symm, by simp⟩
  trans := by
    intro w v u first second
    obtain ⟨more, calls, own⟩ := first.calls
    obtain ⟨rest, later, again⟩ := second.calls
    refine ⟨second.state.trans first.state, more ++ rest, ?_, ?_⟩
    · rw [later, calls, List.append_assoc]
    · intro c member
      exact (List.mem_append.mp member).elim (own c) (again c)

section Histories
variable {answers : Answers} {calls more : List Call} {c : Call} {a : Answer}
  {config : EGLConfig} {sizes : ChannelSizes} {g : GLState} {w v : State ρ}

theorem Answered.append (h : Answered answers calls c a) (more : List Call) :
    Answered answers (calls ++ more) c a := by
  obtain ⟨before, after, split, answer⟩ := h
  exact ⟨before, after ++ more, by rw [split, List.append_assoc, List.cons_append], answer⟩

theorem answered_concat (answers : Answers) (calls : List Call) (c : Call) :
    Answered answers (calls ++ [c]) c (answers calls c) :=
  ⟨calls, [], rfl, rfl⟩

theorem Returned.append (h : Returned answers calls config sizes) (more : List Call) :
    Returned answers (calls ++ more) config sizes := by
  obtain ⟨before, configSize, after, split, rest⟩ := h
  exact ⟨before, configSize, after ++ more,
    by rw [split, List.append_assoc, List.cons_append], rest⟩

theorem Made.append (h : Made answers calls g config sizes) (more : List Call) :
    Made answers (calls ++ more) g config sizes where
  returned := h.returned.append more
  surface := h.surface.imp fun _ made => ⟨made.1.append more, made.2⟩
  context := h.context.imp fun _ made => ⟨made.1.append more, made.2⟩
  colorFormat := h.colorFormat

theorem Described.append (h : Described answers calls g config sizes) (more : List Call) :
    Described answers (calls ++ more) g config sizes where
  toMade := h.toMade.append more
  stencilBits := h.stencilBits.imp fun _ told => ⟨told.1.append more, told.2⟩
  sampleCount := h.sampleCount.imp fun _ told => ⟨told.1.append more, told.2⟩

theorem Built.append (h : Built answers calls g config sizes) (more : List Call) :
    Built answers (calls ++ more) g config sizes where
  toDescribed := h.toDescribed.append more
  grGLInterface := h.grGLInterface
  grContext := h.grContext

theorem usesReturned_of_plain (plain : IsPlain c) : UsesReturned answers calls c := by
  intro config member
  rw [plain.1] at member
  cases member

theorem Safe.apart (safe : Safe answers w) (apart : Apart w v) : Safe answers v := by
  obtain ⟨more, calls, plain⟩ := apart.calls
  rw [Safe, calls]
  exact history_append safe fun c member _ => usesReturned_of_plain (plain c member)

theorem Safe.uses (safe : Safe answers w) (uses : Uses (some config) w v)
    (returned : Returned answers w.calls config sizes) : Safe answers v := by
  obtain ⟨more, calls, own⟩ := uses.calls
  rw [Safe, calls]
  refine history_append safe fun c member middle used given => ?_
  rw [own c member] at given
  exact ⟨config, sizes, (Option.some.inj given).symm, returned.append middle⟩

theorem Consistent.apart (h : Consistent answers w) (apart : Apart w v) : Consistent answers v := by
  obtain ⟨config, sizes, built⟩ := h
  obtain ⟨more, calls, -⟩ := apart.calls
  refine ⟨config, sizes, ?_⟩
  rw [apart.glState, calls]
  exact built.append more

theorem told_append (silent : ∀ c ∈ more, tells c = false) :
    Told answers (calls ++ more) ↔ Told answers calls := by
  constructor
  · intro told before c after split
    refine told before c (after ++ more) ?_
    rw [split, List.append_assoc, List.cons_append]
  · intro told
    refine history_append told fun c member _ asks => ?_
    rw [silent c member] at asks
    cases asks

theorem tells_of_plain (plain : IsPlain c) : tells c = false := by
  cases c with
  | eglGetConfigAttrib => cases plain.1
  | _ => rfl

theorem Apart.unasked (apart : Apart w v) : Unasked w v := by
  obtain ⟨more, calls, plain⟩ := apart.calls
  exact ⟨congrArg GLState.stencilBits apart.glState, congrArg GLState.sampleCount apart.glState,
    more, calls, fun c member => tells_of_plain (plain c member)⟩

theorem Unasked.told_iff (h : Unasked w v) : Told answers v.calls ↔ Told answers w.calls := by
  obtain ⟨more, calls, silent⟩ := h.calls
  rw [calls]
  exact told_append silent

theorem Unasked.unset_iff (h : Unasked w v) : Unset v ↔ Unset w := by
  rw [Unset, h.stencilBits, h.sampleCount, Unset]

theorem Untold.unasked (h : Untold answers w) (unasked : Unasked w v) : Untold answers v :=
  ⟨unasked.told_iff.mpr h.told, unasked.stencilBits.trans h.stencilBits,
    unasked.sampleCount.trans h.sampleCount⟩

theorem Unset.not_consistent (h : Unset w) : ¬ Consistent answers w := by
  rintro ⟨config, sizes, built⟩
  obtain ⟨_, -, -, stencilBits⟩ := built.stencilBits
  obtain ⟨_, -, -, sampleCount⟩ := built.sampleCount
  rcases h with unset | unset
  · exact Option.some_ne_none _ (stencilBits.symm.trans unset)
  · exact Option.some_ne_none _ (sampleCount.symm.trans unset)

theorem Apart.countP (apart : Apart w v) : v.calls.countP isChoose = w.calls.countP isChoose := by
  obtain ⟨more, calls, plain⟩ := apart.calls
  have none_chooses : more.countP isChoose = 0 :=
    List.countP_eq_zero.mpr fun c member => by simp [(plain c member).2]
  rw [calls, List.countP_append, none_chooses, Nat.add_zero]

end Histories

section Parts

theorem keeps_ask {c : Call} (plain : IsPlain c) :
    Keeps Apart (ask c : Code ρ Answer) := by
  intro checks answers w
  refine ⟨rfl, [c], rfl, ?_⟩
  intro d member
  rw [List.mem_singleton.mp member]
  exact plain

theorem keeps_call {c : Call} (plain : IsPlain c) : Keeps Apart (call c : Code ρ Int) :=
  .bind (keeps_ask plain) fun _ => .done _

theorem keeps_modify {f : Members ρ → Members ρ} (same : ∀ m, glState (f m) = glState m) :
    Keeps Apart (modify f : Code ρ Unit) :=
  fun _ _ w => ⟨same w.state, [], (List.append_nil _).symm, by simp⟩

theorem uses_ask {c : Call} {config : Option EGLConfig} (own : configOf c = some config) :
    Keeps (Uses config) (ask c : Code ρ Answer) := by
  intro checks answers w
  refine ⟨rfl, [c], rfl, ?_⟩
  intro d member
  rw [List.mem_singleton.mp member]
  exact own

theorem uses_printEGLConfig (config : Option EGLConfig) :
    Keeps (Uses config) (printEGLConfig config : Code ρ Unit) :=
  .forM (fun _ => .bind (.bind (uses_ask rfl) fun _ => .done _) fun _ => .done _) _

theorem keeps_bindAPI : Keeps Apart (bindAPI : Code ρ Unit) :=
  .bind (keeps_call (by decide)) fun _ => .bind (keeps_modify fun _ => rfl) fun _ =>
    .bind (keeps_call (by decide)) fun _ => .check (.bind (keeps_call (by decide)) fun _ => .done _)

end Parts

def listConfigs : Code ρ Int := do
  bindAPI
  let _ ← call .eglQueryString
  let _ ← call .eglQueryString
  let configCount ← checkOut 0 (do
    let answer ← ask (.eglGetConfigs 0)
    pure (answer.result != 0, answer.count))
  call (.eglGetConfigs configCount)

def makeSurface : Code ρ (Option EGLConfig) := do
  modify fun m => { m with colorFormat := .rgba8 }
  let choice ← chooseRound 0 { surfaceConfigs := List.replicate 5 none }
  let choice ← chooseRound 1 choice
  check (.done (0 < choice.numConfigs))
  createSurface (choice.surfaceConfigs.take choice.numConfigs) none

def setUp : Code ρ Unit := do
  let surfaceConfig ← makeSurface
  checkMembers fun m => m.surface != 0
  createContext surfaceConfig
  makeCurrent surfaceConfig true

theorem initializeDesktopGL_eq : (initializeDesktopGL : Code ρ Unit) =
    listConfigs >>= fun configs => if configs = 0 then pure () else setUp := by
  simp only [initializeDesktopGL, listConfigs, setUp, makeSurface, bind_assoc]

theorem keeps_listConfigs : Keeps Apart (listConfigs : Code ρ Int) :=
  .bind keeps_bindAPI fun _ => .bind (keeps_call ⟨rfl, rfl⟩) fun _ =>
    .bind (keeps_call ⟨rfl, rfl⟩) fun _ =>
      .bind (.checkOut (.bind (keeps_ask ⟨rfl, rfl⟩) fun _ => .done _)) fun _ =>
        keeps_call ⟨rfl, rfl⟩

section Rounds
variable {answers : Answers} {w : State ρ}

theorem wp_call {checks : Bool} {E : State ρ → Prop} {c : Call} {Q : Int → State ρ → Prop} :
    wp checks answers E (call c) Q w ↔
      Q (answers w.calls c).result { w with calls := w.calls ++ [c] } := Iff.rfl

structure Offers (answers : Answers) (attempt : Nat) (choice : Choice) (w : State ρ) : Prop where
  safe : Safe answers w
  attempts : w.calls.countP isChoose = attempt
  length : choice.surfaceConfigs.length = 5
  format : w.state.colorFormat = .rgba8 ↔ choice.sizes = eightBits
  returned : ∀ config ∈ choice.surfaceConfigs.take choice.numConfigs,
    ∃ c, config = some c ∧ Returned answers w.calls c choice.sizes

theorem take_chosen {attempt n : Nat} (configs : List (Option EGLConfig)) :
    (chosen attempt n configs).take n = (List.range n).map fun i => some (attempt, i) := by
  rw [chosen, List.take_append_of_le_length (by simp), List.take_of_length_le (by simp)]

theorem length_chosen {attempt n : Nat} {configs : List (Option EGLConfig)}
    (le : n ≤ configs.length) : (chosen attempt n configs).length = configs.length := by
  simp [chosen]
  omega

theorem Offers.chooseConfig {attempt : Nat} {choice : Choice}
    (h : Offers answers attempt choice w) :
    wp true answers (Safe answers) (chooseConfig attempt choice) (Offers answers (attempt + 1))
      w := by
  let asked := Call.eglChooseConfig choice.sizes choice.surfaceConfigs.length
  let n := min (answers w.calls asked).count choice.surfaceConfigs.length
  have safe : History (UsesReturned answers) (w.calls ++ [asked]) :=
    history_concat.mpr ⟨h.safe, fun config member => by cases member⟩
  have attempts : (w.calls ++ [asked]).countP isChoose = attempt + 1 := by
    rw [List.countP_append, h.attempts]
    rfl
  rw [CanvasBuilds.chooseConfig, wp_checkOut, if_pos rfl, wp_bind, wp_ask, wp_pure]
  split
  · rename_i succeeded
    refine ⟨safe, attempts, ?_, h.format, ?_⟩
    · exact (length_chosen (Nat.min_le_right _ _)).trans h.length
    · change ∀ config ∈ (chosen attempt n choice.surfaceConfigs).take n, _
      rw [take_chosen]
      intro config member
      obtain ⟨place, lt, rfl⟩ := List.mem_map.mp member
      exact ⟨(attempt, place), rfl, w.calls, choice.surfaceConfigs.length, [], rfl, h.attempts,
        bne_iff_ne.mp succeeded, List.mem_range.mp lt⟩
  · exact safe

theorem Offers.chooseRound {attempt : Nat} {choice : Choice}
    (h : Offers answers attempt choice w) :
    wp true answers (Safe answers) (chooseRound attempt choice) (Offers answers (attempt + 1))
      w := by
  refine wp_seq h.chooseConfig fun next v offers => ?_
  rw [wp_ite, wp_bind, wp_modify, wp_pure, wp_pure]
  split
  · rename_i none_returned
    refine ⟨offers.safe, offers.attempts, offers.length, ?_, ?_⟩
    · exact iff_of_false (fun same => by cases same) fun same => by cases same
    · change ∀ config ∈ next.surfaceConfigs.take next.numConfigs, _
      rw [Nat.lt_one_iff.mp none_returned, List.take_zero]
      intro config member
      cases member
  · exact offers

structure Surfaced (answers : Answers) (sizes : ChannelSizes) (surfaceConfig : Option EGLConfig)
    (w : State ρ) : Prop where
  safe : Safe answers w
  format : w.state.colorFormat = .rgba8 ↔ sizes = eightBits
  made : w.state.surface ≠ 0 → ∃ config a, surfaceConfig = some config ∧
    Returned answers w.calls config sizes ∧
    Answered answers w.calls (.eglCreateWindowSurface (some config)) a ∧
    a.result = w.state.surface

theorem createSurface_surfaced {sizes : ChannelSizes} (configs : List (Option EGLConfig))
    (surfaceConfig : Option EGLConfig) (checks : Bool) (safe : Safe answers w)
    (format : w.state.colorFormat = .rgba8 ↔ sizes = eightBits)
    (returned : ∀ config ∈ configs, ∃ c, config = some c ∧ Returned answers w.calls c sizes)
    (some_config : configs = [] → w.state.surface = 0) :
    wp checks answers (Safe answers) (createSurface configs surfaceConfig)
      (Surfaced answers sizes) w := by
  induction configs generalizing surfaceConfig w with
  | nil => exact ⟨safe, format, fun made => absurd (some_config rfl) made⟩
  | cons first rest ih =>
    obtain ⟨config, rfl, own⟩ := returned first List.mem_cons_self
    rw [createSurface]
    refine wp_seq ((uses_printEGLConfig _).wp fun v uses => safe.uses uses own) fun _ v uses => ?_
    obtain ⟨printed, calls, -⟩ := uses.calls
    have own' : Returned answers v.calls config sizes := calls ▸ own.append printed
    have asked : History (UsesReturned answers)
        (v.calls ++ [.eglCreateWindowSurface (some config)]) := by
      refine history_concat.mpr ⟨safe.uses uses own, fun used given => ?_⟩
      exact ⟨config, sizes, (Option.some.inj given).symm, own'⟩
    rw [wp_bind, wp_call, wp_bind, wp_modify, wp_ite]
    split
    · refine wp_pure.mpr ⟨asked, ?_, fun _ => ?_⟩
      · rw [← format, ← uses.state]
      · exact ⟨config, _, rfl, own'.append _, answered_concat answers v.calls _, rfl⟩
    · rename_i failed
      refine ih (some config) asked ?_ ?_ fun _ => not_not.mp failed
      · rw [← format, ← uses.state]
      · intro other member
        obtain ⟨c, same, chosen⟩ := returned other (List.mem_cons_of_mem _ member)
        refine ⟨c, same, ?_⟩
        change Returned answers (v.calls ++ _) c sizes
        rw [calls, List.append_assoc]
        exact chosen.append _

end Rounds

def clear (getFloats : Bool) (m : Members ρ) : Code ρ Unit := do
  check (do
    let current ← call (.eglMakeCurrent m.surface m.context)
    pure (current != 0))
  let _ ← call .glClearStencil
  let _ ← call .glClearColor
  let _ ← call .glClear
  onlyIf getFloats (do
    let _ ← call .glGetFloatv)

def readAttribs (surfaceConfig : Option EGLConfig) : Code ρ Unit := do
  let stencil ← ask (.eglGetConfigAttrib surfaceConfig .stencilSize .stencilBits)
  modify fun m => { m with stencilBits := stencil.written m.stencilBits }
  let samples ← ask (.eglGetConfigAttrib surfaceConfig .samples .sampleCount)
  modify fun m => { m with sampleCount := (samples.written m.sampleCount).map (max · 1) }

def swapOnce (m : Members ρ) : Code ρ Unit := do
  let _ ← call .eglSwapInterval
  let _ ← call (.eglSwapBuffers m.surface)

def makeGr : Code ρ Unit := do
  let grGLInterface ← call .grGLMakeNativeInterface
  modify fun m => { m with grGLInterface := grGLInterface }
  checkMembers fun m => m.grGLInterface != 0
  let grContext ← call .makeGL
  modify fun m => { m with grContext := grContext }
  checkMembers fun m => m.grContext != 0

theorem makeCurrent_eq (surfaceConfig : Option EGLConfig) (getFloats : Bool) :
    (makeCurrent surfaceConfig getFloats : Code ρ Unit) = (do
      let m ← get
      clear getFloats m
      readAttribs surfaceConfig
      swapOnce m
      makeGr) := by
  simp only [makeCurrent, clear, readAttribs, swapOnce, makeGr, bind_assoc, pure_bind]

theorem keeps_clear (getFloats : Bool) (m : Members ρ) : Keeps Apart (clear getFloats m) :=
  .bind (.check (.bind (keeps_call ⟨rfl, rfl⟩) fun _ => .done _)) fun _ =>
    .bind (keeps_call ⟨rfl, rfl⟩) fun _ => .bind (keeps_call ⟨rfl, rfl⟩) fun _ =>
      .bind (keeps_call ⟨rfl, rfl⟩) fun _ =>
        .onlyIf (.bind (keeps_call ⟨rfl, rfl⟩) fun _ => .done _)

theorem keeps_swapOnce (m : Members ρ) : Keeps Apart (swapOnce m) :=
  .bind (keeps_call ⟨rfl, rfl⟩) fun _ => .bind (keeps_call ⟨rfl, rfl⟩) fun _ => .done _

section Contexts
variable {answers : Answers} {w : State ρ} {config : EGLConfig} {sizes : ChannelSizes}

theorem wp_checkMembers {E : State ρ → Prop} {condition : Members ρ → Bool}
    {Q : Unit → State ρ → Prop} : wp true answers E (checkMembers condition) Q w ↔
      if condition w.state then Q () w else E w := by
  rw [checkMembers, wp_check, if_pos rfl]
  rfl

theorem Safe.ask (safe : Safe answers w) {c : Call} (uses : UsesReturned answers w.calls c) :
    Safe answers { w with calls := w.calls ++ [c] } :=
  history_concat.mpr ⟨safe, uses⟩

theorem Returned.uses {calls : List Call} {c : Call} (h : Returned answers calls config sizes)
    (own : configOf c = some (some config)) : UsesReturned answers calls c := by
  intro used given
  rw [own] at given
  exact ⟨config, sizes, (Option.some.inj given).symm, h⟩

theorem makeSurface_surfaced (safe : Safe answers w) (unchosen : w.calls.countP isChoose = 0) :
    wp true answers (Safe answers) (makeSurface : Code ρ _)
      (fun surfaceConfig v => ∃ sizes, Surfaced answers sizes surfaceConfig v) w := by
  have start : Offers answers 0 { surfaceConfigs := List.replicate 5 none }
      { w with state := { w.state with colorFormat := .rgba8 } } :=
    ⟨safe, unchosen, rfl, iff_of_true rfl rfl, by simp⟩
  rw [makeSurface, wp_bind, wp_modify]
  refine wp_seq start.chooseRound fun first v offers => ?_
  refine wp_seq offers.chooseRound fun choice u offers => ?_
  rw [wp_bind, wp_check, if_pos rfl]
  change if decide (0 < choice.numConfigs) then _ else _
  split
  · rename_i some_returned
    refine wp_mono (createSurface_surfaced _ none true offers.safe offers.format offers.returned
      fun empty => ?_) fun surfaceConfig t surfaced => ⟨choice.sizes, surfaced⟩
    have length := congrArg List.length empty
    rw [List.length_take, offers.length] at length
    have positive := of_decide_eq_true some_returned
    simp at length
    omega
  · exact offers.safe

theorem createContext_made {surfaceConfig : Option EGLConfig}
    (surfaced : Surfaced answers sizes surfaceConfig w) (surface : w.state.surface ≠ 0) :
    wp true answers (Safe answers) (createContext surfaceConfig)
      (fun _ v => ∃ config, surfaceConfig = some config ∧ Safe answers v ∧
        Made answers v.calls (glState v.state) config sizes) w := by
  obtain ⟨config, a, rfl, returned, asked, answer⟩ := surfaced.made surface
  have safe := surfaced.safe.ask (returned.uses (c := .eglCreateContext (some config)) rfl)
  rw [createContext, wp_bind, wp_call, wp_bind, wp_modify, wp_checkMembers]
  split
  · rename_i context
    refine ⟨config, rfl, safe, ⟨returned.append _, ⟨a, asked.append _, answer, surface⟩,
      ⟨_, answered_concat answers w.calls _, rfl, bne_iff_ne.mp context⟩, surfaced.format⟩⟩
  · exact safe

structure Read (answers : Answers) (config : EGLConfig) (sizes : ChannelSizes) (w : State ρ) :
    Prop where
  safe : Safe answers w
  described : Told answers w.calls → Described answers w.calls (glState w.state) config sizes
  unset : ¬ Told answers w.calls → Unset w

theorem Read.apart {v : State ρ} (h : Read answers config sizes w) (apart : Apart w v) :
    Read answers config sizes v := by
  obtain ⟨more, calls, -⟩ := apart.calls
  refine ⟨h.safe.apart apart, fun told => ?_, fun untold => ?_⟩
  · rw [apart.glState, calls]
    exact (h.described (apart.unasked.told_iff.mp told)).append more
  · exact apart.unasked.unset_iff.mpr (h.unset fun told =>
      untold (apart.unasked.told_iff.mpr told))

theorem told_concat {calls : List Call} (told : Told answers calls) (c : Call) :
    Told answers (calls ++ [c]) ↔ (tells c = true → (answers calls c).result ≠ 0) :=
  history_concat.trans (and_iff_right told)

theorem readAttribs_read (checks : Bool) (safe : Safe answers w) (untold : Untold answers w)
    (made : Made answers w.calls (glState w.state) config sizes) :
    wp checks answers (Safe answers) (readAttribs (some config))
      (fun _ v => Read answers config sizes v) w := by
  let stencilCall := Call.eglGetConfigAttrib (some config) .stencilSize .stencilBits
  let samplesCall := Call.eglGetConfigAttrib (some config) .samples .sampleCount
  have stencil := safe.ask (made.returned.uses (c := stencilCall) rfl)
  have samples := stencil.ask ((made.returned.append [_]).uses (c := samplesCall) rfl)
  have later := (made.append [stencilCall]).append [samplesCall]
  rw [readAttribs, wp_bind, wp_ask, wp_bind, wp_modify, wp_bind, wp_ask, wp_modify]
  by_cases first : (answers w.calls stencilCall).result ≠ 0
  · have told := (told_concat untold.told stencilCall).mpr fun _ => first
    by_cases second : (answers (w.calls ++ [stencilCall]) samplesCall).result ≠ 0
    · refine ⟨samples, fun _ => ⟨⟨later.returned, later.surface, later.context,
        later.colorFormat⟩, ?_, ?_⟩, fun refused => ?_⟩
      · exact ⟨_, (answered_concat answers w.calls stencilCall).append _, first,
          if_pos first⟩
      · refine ⟨_, answered_concat answers _ samplesCall, second, ?_⟩
        change (Answer.written _ _).map _ = _
        rw [Answer.written, if_pos second]
        rfl
      · exact absurd ((told_concat told samplesCall).mpr fun _ => second) refused
    · refine ⟨samples, fun all => absurd ((told_concat told samplesCall).mp all rfl) second,
        fun _ => .inr ?_⟩
      change (Answer.written _ w.state.sampleCount).map _ = _
      rw [Answer.written, if_neg second, untold.sampleCount]
      rfl
  · refine ⟨samples, fun all => ?_, fun _ => .inl ?_⟩
    · refine absurd (all w.calls stencilCall [samplesCall] ?_ rfl) first
      exact List.append_assoc _ _ _
    · change Answer.written _ w.state.stencilBits = _
      rw [Answer.written, if_neg first, untold.stencilBits]

/-- The end of the task is consistent exactly if EGL has told both counts. -/
structure Ended (answers : Answers) (w : State ρ) : Prop where
  safe : Safe answers w
  consistent : Told answers w.calls → Consistent answers w
  unset : ¬ Told answers w.calls → Unset w

theorem Ended.apart {v : State ρ} (h : Ended answers w) (apart : Apart w v) : Ended answers v where
  safe := h.safe.apart apart
  consistent told := (h.consistent (apart.unasked.told_iff.mp told)).apart apart
  unset untold := apart.unasked.unset_iff.mpr (h.unset fun told =>
    untold (apart.unasked.told_iff.mpr told))

theorem makeGr_ended (read : Read answers config sizes w) :
    wp true answers (Safe answers) (makeGr : Code ρ Unit) (fun _ v => Ended answers v) w := by
  have first := read.safe.ask (usesReturned_of_plain (c := .grGLMakeNativeInterface) ⟨rfl, rfl⟩)
  have second := first.ask (usesReturned_of_plain (c := .makeGL) ⟨rfl, rfl⟩)
  have silent : Told answers (w.calls ++ [.grGLMakeNativeInterface] ++ [.makeGL]) ↔
      Told answers w.calls := by
    rw [List.append_assoc]
    exact told_append (by decide)
  rw [makeGr, wp_bind, wp_call, wp_bind, wp_modify, wp_bind, wp_checkMembers]
  split
  · rename_i grGLInterface
    rw [wp_bind, wp_call, wp_bind, wp_modify, wp_checkMembers]
    split
    · rename_i grContext
      refine ⟨second, fun told => ⟨config, sizes, ?_⟩, fun untold => ?_⟩
      · have later := ((read.described (silent.mp told)).append
          [.grGLMakeNativeInterface]).append [.makeGL]
        exact ⟨⟨⟨later.returned, later.surface, later.context, later.colorFormat⟩,
          later.stencilBits, later.sampleCount⟩, bne_iff_ne.mp grGLInterface,
          bne_iff_ne.mp grContext⟩
      · exact read.unset fun told => untold (silent.mpr told)
    · exact second
  · exact first

theorem makeCurrent_ended (safe : Safe answers w) (untold : Untold answers w)
    (made : Made answers w.calls (glState w.state) config sizes) :
    wp true answers (Safe answers) (makeCurrent (some config) true)
      (fun _ v => Ended answers v) w := by
  rw [makeCurrent_eq, wp_bind, wp_get]
  refine wp_seq ((keeps_clear true _).wp fun v apart => safe.apart apart) fun _ v apart => ?_
  obtain ⟨cleared, calls, -⟩ := apart.calls
  have made : Made answers v.calls (glState v.state) config sizes := by
    rw [apart.glState, calls]
    exact made.append cleared
  have untold := untold.unasked apart.unasked
  refine wp_seq (readAttribs_read true (safe.apart apart) untold made) fun _ u read => ?_
  refine wp_seq ((keeps_swapOnce _).wp fun t apart => read.safe.apart apart) fun _ t apart => ?_
  exact makeGr_ended (read.apart apart)

section Unasked

theorem unasked_ask {c : Call} (silent : tells c = false) :
    Keeps Unasked (ask c : Code ρ Answer) := by
  intro checks answers w
  refine ⟨rfl, rfl, [c], rfl, ?_⟩
  intro d member
  rw [List.mem_singleton.mp member]
  exact silent

theorem unasked_call {c : Call} (silent : tells c = false) : Keeps Unasked (call c : Code ρ Int) :=
  .bind (unasked_ask silent) fun _ => .done _

theorem unasked_modify {f : Members ρ → Members ρ}
    (stencilBits : ∀ m, (f m).stencilBits = m.stencilBits)
    (sampleCount : ∀ m, (f m).sampleCount = m.sampleCount) :
    Keeps Unasked (modify f : Code ρ Unit) :=
  fun _ _ w => ⟨stencilBits w.state, sampleCount w.state, [], (List.append_nil _).symm, by simp⟩

theorem unasked_chooseRound (attempt : Nat) (choice : Choice) :
    Keeps Unasked (chooseRound attempt choice : Code ρ Choice) :=
  .bind (.checkOut (.bind (unasked_ask rfl) fun _ => .done _)) fun _ =>
    .ite (.bind (unasked_modify (fun _ => rfl) fun _ => rfl) fun _ => .done _) (.done _)

theorem unasked_createSurface (configs : List (Option EGLConfig))
    (surfaceConfig : Option EGLConfig) :
    Keeps Unasked (createSurface configs surfaceConfig : Code ρ (Option EGLConfig)) := by
  induction configs generalizing surfaceConfig with
  | nil => exact .done surfaceConfig
  | cons first rest ih =>
    refine .bind (.forM (fun _ => .bind (unasked_call rfl) fun _ => .done _) _) fun _ => ?_
    refine .bind (unasked_call rfl) fun surface => ?_
    refine .bind (unasked_modify (fun _ => rfl) fun _ => rfl) fun _ => ?_
    exact .ite (.done _) (ih _)

theorem unasked_makeSurface : Keeps Unasked (makeSurface : Code ρ (Option EGLConfig)) := by
  refine .bind (unasked_modify (fun _ => rfl) fun _ => rfl) fun _ => ?_
  refine .bind (unasked_chooseRound _ _) fun _ => .bind (unasked_chooseRound _ _) fun _ => ?_
  exact .bind (.check (.done _)) fun _ => unasked_createSurface _ _

theorem unasked_createContext (surfaceConfig : Option EGLConfig) :
    Keeps Unasked (createContext surfaceConfig : Code ρ Unit) := by
  refine .bind (unasked_call rfl) fun _ => ?_
  refine .bind (unasked_modify (fun _ => rfl) fun _ => rfl) fun _ => ?_
  exact .check (.bind .get fun _ => .done _)

end Unasked

theorem setUp_ended (safe : Safe answers w) (untold : Untold answers w)
    (unchosen : w.calls.countP isChoose = 0) :
    wp true answers (Safe answers) (setUp : Code ρ Unit) (fun _ v => Ended answers v) w := by
  refine wp_seq (unasked_makeSurface.wp_and (makeSurface_surfaced safe unchosen)
    fun v safe _ => safe) fun surfaceConfig v found => ?_
  obtain ⟨⟨sizes, surfaced⟩, unasked⟩ := found
  have untold := untold.unasked unasked
  rw [wp_bind, wp_checkMembers]
  split
  · rename_i surface
    refine wp_seq ((unasked_createContext _).wp_and
      (createContext_made surfaced (bne_iff_ne.mp surface)) fun v safe _ => safe)
      fun _ u found => ?_
    obtain ⟨⟨config, rfl, safe, made⟩, unasked⟩ := found
    exact makeCurrent_ended safe (untold.unasked unasked) made
  · exact surfaced.safe

end Contexts

def listHistory (checks : Bool) : List Call :=
  [.threadStart, .eglGetDisplay, .eglInitialize] ++ (if checks then [.eglBindAPI] else []) ++
    [.eglQueryString, .eglQueryString]

/-- What the second `eglGetConfigs` returns; the first one is an operand of a `DCHECK`. -/
def listed (checks : Bool) (answers : Answers) : Bool :=
  let first := answers (listHistory checks) (.eglGetConfigs 0)
  let second :=
    if checks then answers (listHistory checks ++ [.eglGetConfigs 0]) (.eglGetConfigs first.count)
    else answers (listHistory checks) (.eglGetConfigs 0)
  second.result != 0

section Task
variable {checks : Bool} {answers : Answers} {w : State ρ}

theorem listConfigs_result (first : w.calls = [.threadStart]) :
    wp checks answers (fun _ => True) (listConfigs : Code ρ Int)
      (fun configs _ => listed checks answers = (configs != 0)) w := by
  obtain ⟨m, calls⟩ := w
  obtain rfl : calls = [.threadStart] := first
  cases checks with
  | false => rfl
  | true =>
    rw [listConfigs, bindAPI, wp_bind, wp_bind, wp_call, wp_bind, wp_modify, wp_bind, wp_call,
      wp_check, if_pos rfl, wp_bind, wp_call, wp_pure]
    split
    · rw [wp_bind, wp_call, wp_bind, wp_call, wp_bind, wp_checkOut, if_pos rfl, wp_bind, wp_ask,
        wp_pure]
      split
      · rfl
      · trivial
    · trivial

theorem safe_of_started (first : w.calls = [.threadStart]) : Safe answers w := by
  rw [Safe, first, ← List.nil_append [Call.threadStart]]
  exact history_concat.mpr ⟨history_nil _, usesReturned_of_plain ⟨rfl, rfl⟩⟩

theorem initializeDesktopGL_spec (first : w.calls = [.threadStart])
    (stencilBits : w.state.stencilBits = none) (sampleCount : w.state.sampleCount = none)
    (checked : listed checks answers = true → checks = true) :
    wp checks answers (Safe answers) (initializeDesktopGL : Code ρ Unit)
      (fun _ v => Safe answers v ∧ (listed checks answers = true → Ended answers v) ∧
        (listed checks answers = false → v.state.grGLInterface = w.state.grGLInterface)) w := by
  have safe : Safe answers w := safe_of_started first
  have untold : Untold answers w := by
    refine ⟨?_, stencilBits, sampleCount⟩
    rw [first, ← List.nil_append [Call.threadStart]]
    exact (told_append (by decide)).mpr (history_nil _)
  rw [initializeDesktopGL_eq]
  refine wp_seq (keeps_listConfigs.wp_and (listConfigs_result first)
    fun v _ apart => safe.apart apart) fun configs v found => ?_
  obtain ⟨result, apart⟩ := found
  rw [wp_ite]
  split
  · rename_i failed
    have unlisted : listed checks answers = false := by rw [result, failed]; rfl
    refine ⟨safe.apart apart, fun on => ?_, fun _ => congrArg GLState.grGLInterface apart.glState⟩
    exact Bool.noConfusion (unlisted.symm.trans on)
  · rename_i succeeded
    have on : listed checks answers = true := result.trans (bne_iff_ne.mpr succeeded)
    obtain rfl := checked on
    have unchosen : v.calls.countP isChoose = 0 := by
      rw [apart.countP, first]
      rfl
    refine wp_mono (setUp_ended (safe.apart apart) (untold.unasked apart.unasked) unchosen)
      fun _ u ended => ?_
    refine ⟨ended.safe, fun _ => ended, fun off => ?_⟩
    exact Bool.noConfusion (off.symm.trans on)

theorem asked_mem {α : Type} (c : Call) (f : Int → Code ρ α) (w : State ρ) :
    c ∈ ((call c >>= f).run checks answers w).2.calls :=
  (calls_bind (call c) f w).subset (List.mem_append_right _ (List.mem_singleton_self _))

/-- Without `DCHECK`s no config is chosen, and the context is made with none. -/
theorem initializeDesktopGL_unchecked (first : w.calls = [.threadStart])
    (on : listed false answers = true) :
    .eglCreateContext none ∈
      ((initializeDesktopGL : Code ρ Unit).run false answers w).2.calls := by
  let E (v : State ρ) : Prop := .eglCreateContext none ∈ v.calls
  have result : wp false answers E (listConfigs : Code ρ Int)
      (fun configs _ => listed false answers = (configs != 0)) w := by
    obtain ⟨m, calls⟩ := w
    obtain rfl : calls = [.threadStart] := first
    rfl
  have unset : ∀ v, wp false answers E (makeSurface : Code ρ _)
      (fun surfaceConfig _ => surfaceConfig = none) v := fun v => rfl
  show E ((initializeDesktopGL : Code ρ Unit).run false answers w).2
  refine wp_world.mp ?_
  rw [initializeDesktopGL_eq]
  refine wp_seq result fun configs v result => ?_
  have succeeded : configs ≠ 0 := bne_iff_ne.mp (result.symm.trans on)
  rw [if_neg succeeded, setUp]
  refine wp_seq (unset v) fun surfaceConfig u none_set => ?_
  obtain rfl := none_set
  rw [wp_bind, checkMembers, wp_check, if_neg Bool.false_ne_true, createContext, bind_assoc]
  exact wp_world.mpr (asked_mem _ _ u)

def SameCanvas (w v : State ρ) : Prop := v.state.canvas = w.state.canvas

instance : IsPreorder (State ρ) SameCanvas where
  refl _ := rfl
  trans _ _ _ first second := Eq.trans second first

theorem sameCanvas_ask (c : Call) : Keeps SameCanvas (ask c : Code ρ Answer) :=
  fun _ _ _ => rfl

theorem sameCanvas_call (c : Call) : Keeps SameCanvas (call c : Code ρ Int) :=
  .bind (sameCanvas_ask c) fun _ => .done _

theorem sameCanvas_modify {f : Members ρ → Members ρ} (same : ∀ m, (f m).canvas = m.canvas) :
    Keeps SameCanvas (modify f : Code ρ Unit) :=
  fun _ _ w => same w.state

theorem sameCanvas_checkMembers (condition : Members ρ → Bool) :
    Keeps SameCanvas (checkMembers condition) :=
  .check (.bind .get fun _ => .done _)

theorem sameCanvas_chooseRound (attempt : Nat) (choice : Choice) :
    Keeps SameCanvas (chooseRound attempt choice : Code ρ Choice) :=
  .bind (.checkOut (.bind (sameCanvas_ask _) fun _ => .done _)) fun _ =>
    .ite (.bind (sameCanvas_modify fun _ => rfl) fun _ => .done _) (.done _)

theorem sameCanvas_createSurface (configs : List (Option EGLConfig))
    (surfaceConfig : Option EGLConfig) :
    Keeps SameCanvas (createSurface configs surfaceConfig : Code ρ (Option EGLConfig)) := by
  induction configs generalizing surfaceConfig with
  | nil => exact .done surfaceConfig
  | cons first rest ih =>
    refine .bind (.forM (fun _ => .bind (sameCanvas_call _) fun _ => .done _) _) fun _ => ?_
    refine .bind (sameCanvas_call _) fun _ => .bind (sameCanvas_modify fun _ => rfl) fun _ => ?_
    exact .ite (.done _) (ih _)

theorem sameCanvas_listConfigs : Keeps SameCanvas (listConfigs : Code ρ Int) := by
  have bound : Keeps SameCanvas (bindAPI : Code ρ Unit) :=
    .bind (sameCanvas_call _) fun _ => .bind (sameCanvas_modify fun _ => rfl) fun _ =>
      .bind (sameCanvas_call _) fun _ => .check (.bind (sameCanvas_call _) fun _ => .done _)
  exact .bind bound fun _ => .bind (sameCanvas_call _) fun _ => .bind (sameCanvas_call _) fun _ =>
    .bind (.checkOut (.bind (sameCanvas_ask _) fun _ => .done _)) fun _ => sameCanvas_call _

theorem sameCanvas_makeSurface : Keeps SameCanvas (makeSurface : Code ρ (Option EGLConfig)) :=
  .bind (sameCanvas_modify fun _ => rfl) fun _ => .bind (sameCanvas_chooseRound _ _) fun _ =>
    .bind (sameCanvas_chooseRound _ _) fun _ => .bind (.check (.done _)) fun _ =>
      sameCanvas_createSurface _ _

theorem sameCanvas_makeCurrent (surfaceConfig : Option EGLConfig) :
    Keeps SameCanvas (makeCurrent surfaceConfig true : Code ρ Unit) := by
  have cleared (m : Members ρ) : Keeps SameCanvas (clear true m) :=
    .bind (.check (.bind (sameCanvas_call _) fun _ => .done _)) fun _ =>
      .bind (sameCanvas_call _) fun _ => .bind (sameCanvas_call _) fun _ =>
        .bind (sameCanvas_call _) fun _ => .onlyIf (.bind (sameCanvas_call _) fun _ => .done _)
  have attribs : Keeps SameCanvas (readAttribs surfaceConfig : Code ρ Unit) :=
    .bind (sameCanvas_ask _) fun _ => .bind (sameCanvas_modify fun _ => rfl) fun _ =>
      .bind (sameCanvas_ask _) fun _ => sameCanvas_modify fun _ => rfl
  have swapped (m : Members ρ) : Keeps SameCanvas (swapOnce m) :=
    .bind (sameCanvas_call _) fun _ => .bind (sameCanvas_call _) fun _ => .done _
  have gr : Keeps SameCanvas (makeGr : Code ρ Unit) :=
    .bind (sameCanvas_call _) fun _ => .bind (sameCanvas_modify fun _ => rfl) fun _ =>
      .bind (sameCanvas_checkMembers _) fun _ => .bind (sameCanvas_call _) fun _ =>
        .bind (sameCanvas_modify fun _ => rfl) fun _ => sameCanvas_checkMembers _
  rw [makeCurrent_eq]
  exact .bind .get fun m => .bind (cleared m) fun _ => .bind attribs fun _ =>
    .bind (swapped m) fun _ => gr

theorem sameCanvas_initializeDesktopGL :
    Keeps SameCanvas (initializeDesktopGL : Code ρ Unit) := by
  have context (surfaceConfig : Option EGLConfig) :
      Keeps SameCanvas (createContext surfaceConfig : Code ρ Unit) :=
    .bind (sameCanvas_call _) fun _ => .bind (sameCanvas_modify fun _ => rfl) fun _ =>
      sameCanvas_checkMembers _
  rw [initializeDesktopGL_eq]
  exact .bind sameCanvas_listConfigs fun _ => .ite (.done _) <|
    .bind sameCanvas_makeSurface fun surfaceConfig =>
      .bind (sameCanvas_checkMembers _) fun _ => .bind (context surfaceConfig) fun _ =>
        sameCanvas_makeCurrent surfaceConfig

end Task

end ChromiumDemo.GLInitialization
