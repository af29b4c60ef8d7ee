import ChromiumDemo.TransitionSystem
import Mathlib.Data.List.Induction

/-! The event loops of demo_x11_egl and demo_x11_glx. The inner loop takes what
`XPending` reports and notes in two flags what has to be done; the outer loop then
paints at most one frame and looks whether it is to end. The server may deliver an
event at any moment. -/

namespace ChromiumDemo.X11EventLoop
open TransitionSystem

inductive Program
  | egl | glx
deriving DecidableEq

/-- `deleteWindow` says that the two atoms of a client message are `WM_PROTOCOLS` and
`WM_DELETE_WINDOW`, `escape` that `XLookupKeysym` finds `XK_Escape` in the event. It also
looks into a client message when that is handed to it. -/
inductive XEvent
  | clientMessage (deleteWindow escape : Bool)
  | keyPress (escape : Bool)
  | expose
  | other
deriving DecidableEq

inductive Entry
  | nextEvent (e : XEvent)
  | clearWindow
  | swapBuffers
  | drawString
  | destroyWindow
deriving DecidableEq

/-- Before the test of the outer loop, before the one of the inner loop, behind the inner
loop, and after the outer one. -/
inductive Place
  | outer | inner | drained | ended
deriving DecidableEq

structure State where
  place : Place := .outer
  isRedraw : Bool := false
  isUserWantsWindowToClose : Bool := false
  queue : List XEvent := []
  log : List Entry := []

def keyPress (escape : Bool) (s : State) : State :=
  if escape then { s with isUserWantsWindowToClose := true } else s

/-- The `switch`. The first case of demo_x11_egl has no `break`. -/
def handle (p : Program) (e : XEvent) (s : State) : State :=
  match e with
  | .clientMessage deleteWindow escape =>
    let s := if deleteWindow then { s with isUserWantsWindowToClose := true } else s
    match p with
    | .egl => keyPress escape s
    | .glx => s
  | .keyPress escape => keyPress escape s
  | .expose => match p with
    | .egl => { s with isRedraw := true }
    | .glx => { s with isRedraw := true, log := s.log ++ [.clearWindow] }
  | .other => s

def draw : List Entry := [.swapBuffers, .drawString]

inductive Action
  | deliver (e : XEvent)
  | run

def step (p : Program) (s : State) : Action → Option State
  | .deliver e => some { s with queue := s.queue ++ [e] }
  | .run => match s.place with
    | .outer =>
      if s.isUserWantsWindowToClose then
        some { s with place := .ended, log := s.log ++ [.destroyWindow] }
      else some { s with place := .inner, isRedraw := false }
    | .inner => match s.queue with
      | [] => some { s with place := .drained }
      | e :: queue => some (handle p e { s with queue := queue, log := s.log ++ [.nextEvent e] })
    | .drained => some { s with
        place := .outer
        log := if s.isRedraw then s.log ++ draw else s.log }
    | .ended => none

def machine (p : Program) : Machine State Action where
  step := step p

def XEvent.exposes : XEvent → Bool
  | .expose => true
  | _ => false

/-- The events that end the program. The missing `break` makes some messages of others
keys. -/
def closes : Program → XEvent → Bool
  | .egl, .clientMessage deleteWindow escape => deleteWindow || escape
  | .glx, .clientMessage deleteWindow _ => deleteWindow
  | _, .keyPress escape => escape
  | _, _ => false

def echo : Program → XEvent → List Entry
  | .glx, .expose => [.clearWindow]
  | _, _ => []

def events (p : Program) (es : List XEvent) : List Entry :=
  es.flatMap fun e => .nextEvent e :: echo p e

def turn (p : Program) (es : List XEvent) : List Entry :=
  events p es ++ if es.any XEvent.exposes then draw else []

def Open (p : Program) (turns : List (List XEvent)) : Prop :=
  ∀ es ∈ turns, es.any (closes p) = false

/-- The logs of whole turns that do not close, followed by a part of a turn, or by one more
turn and the end of the program if that turn closes. -/
inductive Turns (p : Program) : List Entry → Prop
  | within {turns} (opened : Open p turns) (es : List XEvent) :
    Turns p (turns.flatMap (turn p) ++ events p es)
  | complete {turns} (opened : Open p turns) (es : List XEvent) :
    Turns p (turns.flatMap (turn p) ++ turn p es)
  | ended {turns} (opened : Open p turns) {es : List XEvent} (close : es.any (closes p) = true) :
    Turns p (turns.flatMap (turn p) ++ turn p es ++ [.destroyWindow])

@[simp] theorem events_nil (p : Program) : events p [] = [] := rfl

@[simp] theorem events_cons (p : Program) (e : XEvent) (es : List XEvent) :
    events p (e :: es) = .nextEvent e :: (echo p e ++ events p es) := by
  simp [events]

@[simp] theorem events_append (p : Program) (es fs : List XEvent) :
    events p (es ++ fs) = events p es ++ events p fs := by
  simp [events]

theorem handle_eq (p : Program) (e : XEvent) (s : State) :
    handle p e s = { s with
      isRedraw := s.isRedraw || e.exposes
      isUserWantsWindowToClose := s.isUserWantsWindowToClose || closes p e
      log := s.log ++ echo p e } := by
  cases e with
  | clientMessage deleteWindow escape =>
    cases p <;> cases deleteWindow <;> cases escape <;>
      simp [handle, keyPress, closes, echo, XEvent.exposes]
  | keyPress escape =>
    cases p <;> cases escape <;> simp [handle, keyPress, closes, echo, XEvent.exposes]
  | expose => cases p <;> simp [handle, closes, echo, XEvent.exposes]
  | other => cases p <;> simp [handle, closes, echo, XEvent.exposes]

structure During (p : Program) (s : State) (turns : List (List XEvent)) (es : List XEvent) :
    Prop where
  opened : Open p turns
  close : s.isUserWantsWindowToClose = es.any (closes p)
  redraw : s.place = .inner ∨ s.place = .drained → s.isRedraw = es.any XEvent.exposes
  log : s.log = turns.flatMap (turn p) ++ match s.place with
    | .outer => turn p es
    | .inner | .drained => events p es
    | .ended => turn p es ++ [.destroyWindow]
  finished : s.place = .ended → es.any (closes p) = true

def Inv (p : Program) (s : State) : Prop := ∃ turns es, During p s turns es

theorem start_inv (p : Program) : Inv p {} := by
  refine ⟨[], [], ?_, rfl, ?_, rfl, ?_⟩
  · intro es member
    cases member
  · intro place
    cases place with
    | inl h | inr h => cases h
  · intro place
    cases place

theorem open_concat {p : Program} {turns : List (List XEvent)} {es : List XEvent}
    (opened : Open p turns) (still : es.any (closes p) = false) : Open p (turns ++ [es]) := by
  intro fs member
  rcases List.mem_append.mp member with old | new
  · exact opened fs old
  · rw [List.mem_singleton.mp new]
    exact still

theorem run_inv {p : Program} {s t : State} (inv : Inv p s) (moved : step p s .run = some t) :
    Inv p t := by
  obtain ⟨turns, es, opened, close, redraw, log, finished⟩ := inv
  cases place : s.place with
  | outer =>
    simp only [place] at log
    cases closing : s.isUserWantsWindowToClose with
    | true =>
      simp only [step, place, closing, if_true, Option.some.injEq] at moved
      subst moved
      rw [closing] at close
      refine ⟨turns, es, opened, close, ?_, ?_, fun _ => close.symm⟩
      · rintro (h | h) <;> cases h
      · simp [log]
    | false =>
      simp only [step, place, closing, Bool.false_eq_true, if_false, Option.some.injEq] at moved
      subst moved
      rw [closing] at close
      refine ⟨turns ++ [es], [], open_concat opened close.symm, rfl, fun _ => rfl, ?_, ?_⟩
      · simp [log]
      · intro h
        cases h
  | inner =>
    simp only [place] at log
    have asked := redraw (.inl place)
    cases waiting : s.queue with
    | nil =>
      simp only [step, place, waiting, Option.some.injEq] at moved
      subst moved
      refine ⟨turns, es, opened, close, fun _ => asked, log, ?_⟩
      intro h
      cases h
    | cons e queue =>
      simp only [step, place, waiting, Option.some.injEq, handle_eq] at moved
      subst moved
      refine ⟨turns, es ++ [e], opened, ?_, ?_, ?_, ?_⟩
      · simp [close]
      · intro _
        simp [asked]
      · simp [log]
      · intro h
        cases h
  | drained =>
    simp only [place] at log
    have asked := redraw (.inr place)
    simp only [step, place, Option.some.injEq] at moved
    subst moved
    refine ⟨turns, es, opened, close, ?_, ?_, ?_⟩
    · rintro (h | h) <;> cases h
    · simp only [turn, ← asked, log]
      split <;> simp
    · intro h
      cases h
  | ended =>
    simp [step, place] at moved

theorem step_inv (p : Program) (s : State) (a : Action) (t : State) (inv : Inv p s)
    (moved : (machine p).step s a = some t) : Inv p t := by
  cases a with
  | deliver e =>
    obtain rfl := Option.some.inj moved
    obtain ⟨turns, es, opened, close, redraw, log, finished⟩ := inv
    exact ⟨turns, es, opened, close, redraw, log, finished⟩
  | run => exact run_inv inv moved

theorem exec_inv (p : Program) (as : List Action) : Inv p ((machine p).exec {} as) :=
  Machine.exec_invariant (step_inv p) (start_inv p) as

theorem turns_of_inv {p : Program} {s : State} (inv : Inv p s) : Turns p s.log := by
  obtain ⟨turns, es, opened, close, redraw, log, finished⟩ := inv
  cases place : s.place with
  | outer =>
    simp only [place] at log
    rw [log]
    exact .complete opened es
  | inner | drained =>
    simp only [place] at log
    rw [log]
    exact .within opened es
  | ended =>
    simp only [place] at log
    rw [log, ← List.append_assoc]
    exact .ended opened (finished place)

def deliver (es : List XEvent) : List Action := es.map .deliver

def runs (n : Nat) : List Action := List.replicate n .run

theorem exec_deliver (p : Program) (es : List XEvent) (s : State) :
    (machine p).exec s (deliver es) = { s with queue := s.queue ++ es } := by
  induction es generalizing s with
  | nil => simp [deliver]
  | cons e es ih =>
    have moved : (machine p).next s (.deliver e) = { s with queue := s.queue ++ [e] } := rfl
    rw [deliver, List.map_cons, Machine.exec_cons, moved]
    apply Eq.trans (ih _)
    simp

theorem exec_inner (p : Program) (es : List XEvent) (s : State) (place : s.place = .inner)
    (queue : s.queue = es) : (machine p).exec s (runs es.length) = { s with
      isRedraw := s.isRedraw || es.any XEvent.exposes
      isUserWantsWindowToClose := s.isUserWantsWindowToClose || es.any (closes p)
      queue := []
      log := s.log ++ events p es } := by
  induction es generalizing s with
  | nil =>
    cases s
    simp_all [runs]
  | cons e es ih =>
    have moved : (machine p).step s .run =
        some (handle p e { s with queue := es, log := s.log ++ [.nextEvent e] }) := by
      simp [machine, step, place, queue]
    rw [List.length_cons, runs, List.replicate_succ, Machine.exec_cons,
      Machine.next_of_some moved, handle_eq, ← runs, ih]
    · simp [Bool.or_assoc]
    · exact place
    · rfl

def gather (es : List XEvent) : List Action := deliver es ++ .run :: runs es.length

theorem exec_gather (p : Program) (es : List XEvent) {s : State} (place : s.place = .outer)
    (opened : s.isUserWantsWindowToClose = false) (empty : s.queue = []) :
    (machine p).exec s (gather es) = { s with
      place := .inner
      isRedraw := es.any XEvent.exposes
      isUserWantsWindowToClose := es.any (closes p)
      log := s.log ++ events p es } := by
  have enter : (machine p).next { s with queue := es } .run =
      { s with queue := es, place := .inner, isRedraw := false } :=
    Machine.next_of_some (by simp [machine, step, place, opened])
  rw [gather, Machine.exec_append, exec_deliver, empty, List.nil_append, Machine.exec_cons, enter,
    exec_inner p es _ rfl rfl]
  simp [opened]

theorem exec_turn (p : Program) (es : List XEvent) {s : State} (place : s.place = .outer)
    (opened : s.isUserWantsWindowToClose = false) (empty : s.queue = []) :
    (machine p).exec s (gather es ++ runs 2) = { s with
      isRedraw := es.any XEvent.exposes
      isUserWantsWindowToClose := es.any (closes p)
      log := s.log ++ turn p es } := by
  rw [Machine.exec_append, exec_gather p es place opened empty]
  cases asked : es.any XEvent.exposes <;>
    simp [runs, Machine.next, machine, step, empty, place, turn, asked]

theorem exec_turns {p : Program} {turns : List (List XEvent)} (opened : Open p turns) :
    ∃ as, ∃ s, (machine p).exec {} as = s ∧ s.place = .outer ∧
      s.isUserWantsWindowToClose = false ∧ s.queue = [] ∧ s.log = turns.flatMap (turn p) := by
  induction turns using List.reverseRecOn with
  | nil => exact ⟨[], {}, rfl, rfl, rfl, rfl, rfl⟩
  | append_singleton turns es ih =>
    have before : Open p turns := fun fs member => opened fs (List.mem_append_left _ member)
    have last : es.any (closes p) = false :=
      opened es (List.mem_append_right _ (List.mem_singleton_self es))
    obtain ⟨as, s, ran, place, still, empty, log⟩ := ih before
    refine ⟨as ++ (gather es ++ runs 2), _, rfl, ?_⟩
    rw [Machine.exec_append, ran, exec_turn p es place still empty]
    refine ⟨place, last, empty, ?_⟩
    simp [log]

/-- The runs of both programs, for events that come at any moment, are the sequences of
turns: a batch of events in their order, one frame behind it if the batch has an `Expose`,
and the end behind the first batch that asks for it. -/
theorem event_loop_iff (p : Program) (log : List Entry) :
    (∃ as, ((machine p).exec {} as).log = log) ↔ Turns p log := by
  constructor
  · rintro ⟨as, rfl⟩
    exact turns_of_inv (exec_inv p as)
  · intro h
    cases h with
    | @within turns opened es =>
      obtain ⟨as, s, ran, place, still, empty, before⟩ := exec_turns opened
      refine ⟨as ++ gather es, ?_⟩
      rw [Machine.exec_append, ran, exec_gather p es place still empty, before]
    | @complete turns opened es =>
      obtain ⟨as, s, ran, place, still, empty, before⟩ := exec_turns opened
      refine ⟨as ++ (gather es ++ runs 2), ?_⟩
      rw [Machine.exec_append, ran, exec_turn p es place still empty, before]
    | @ended turns opened es close =>
      obtain ⟨as, s, ran, place, still, empty, before⟩ := exec_turns opened
      refine ⟨as ++ (gather es ++ runs 2) ++ runs 1, ?_⟩
      rw [Machine.exec_append, Machine.exec_append, ran, exec_turn p es place still empty]
      simp [runs, Machine.next, machine, step, place, close, before]

/-- A frame has an `Expose` before it that no other frame has answered. -/
def Owed (before : List Entry) (entry : Entry) : Prop :=
  entry = .swapBuffers → ∃ earlier since,
    before = earlier ++ .nextEvent .expose :: since ∧ .swapBuffers ∉ since

def Answered (log : List Entry) : Prop :=
  ∀ before after, log = before ++ .nextEvent .expose :: after → .swapBuffers ∈ after

theorem mem_events {p : Program} {es : List XEvent} {e : XEvent} :
    .nextEvent e ∈ events p es ↔ e ∈ es := by
  induction es with
  | nil => simp
  | cons f es ih =>
    have unechoed : .nextEvent e ∉ echo p f := by
      cases p <;> cases f <;> simp [echo]
    simp [ih, unechoed]

theorem swapBuffers_not_mem_events (p : Program) (es : List XEvent) :
    .swapBuffers ∉ events p es := by
  induction es with
  | nil => simp
  | cons f es ih =>
    have unechoed : .swapBuffers ∉ echo p f := by
      cases p <;> cases f <;> simp [echo]
    simp [ih, unechoed]

theorem any_exposes {es : List XEvent} : es.any XEvent.exposes = true ↔ .expose ∈ es := by
  induction es with
  | nil => simp
  | cons e es ih => cases e <;> simp [XEvent.exposes, ih]

theorem owed_shift (more before : List Entry) (entry : Entry) (h : Owed before entry) :
    Owed (more ++ before) entry := by
  intro frame
  obtain ⟨earlier, since, rfl, unanswered⟩ := h frame
  exact ⟨more ++ earlier, since, by simp, unanswered⟩

theorem owed_of_not_mem {log : List Entry} (none : .swapBuffers ∉ log) : History Owed log := by
  intro before entry after split frame
  subst frame split
  apply absurd _ none
  simp

theorem turn_owed (p : Program) (es : List XEvent) : History Owed (turn p es) := by
  have drawn := owed_of_not_mem (swapBuffers_not_mem_events p es)
  rw [turn]
  split
  case isFalse =>
    rw [List.append_nil]
    exact drawn
  case isTrue asked =>
    have taken : .nextEvent .expose ∈ events p es := mem_events.mpr (any_exposes.mp asked)
    obtain ⟨earlier, since, cut⟩ := List.append_of_mem taken
    have swapped : History Owed (events p es ++ [.swapBuffers]) := by
      refine history_concat.mpr ⟨drawn, fun _ => ⟨earlier, since, cut, ?_⟩⟩
      intro member
      apply swapBuffers_not_mem_events p es
      simp [cut, member]
    have named : Owed (events p es ++ [.swapBuffers]) .drawString := by
      intro frame
      cases frame
    have whole := history_concat.mpr ⟨swapped, named⟩
    rwa [List.append_assoc] at whole

theorem turns_owed (p : Program) (turns : List (List XEvent)) :
    History Owed (turns.flatMap (turn p)) := by
  induction turns with
  | nil => exact history_nil _
  | cons es turns ih => exact history_append_of_shift owed_shift (turn_owed p es) ih

theorem owed_of_turns {p : Program} {log : List Entry} (h : Turns p log) : History Owed log := by
  cases h with
  | @within turns opened es =>
    have last := owed_of_not_mem (swapBuffers_not_mem_events p es)
    exact history_append_of_shift owed_shift (turns_owed p turns) last
  | @complete turns opened es =>
    exact history_append_of_shift owed_shift (turns_owed p turns) (turn_owed p es)
  | @ended turns opened es close =>
    have whole := history_append_of_shift owed_shift (turns_owed p turns) (turn_owed p es)
    refine history_concat.mpr ⟨whole, ?_⟩
    intro frame
    cases frame

theorem answered_append {log more : List Entry} (first : Answered log) (second : Answered more) :
    Answered (log ++ more) := by
  intro before after split
  rcases List.append_eq_append_iff.mp split with ⟨front, rfl, rest⟩ | ⟨back, whole, rest⟩
  · exact second front after rest
  · cases back with
    | nil => exact second [] after rest.symm
    | cons e back =>
      obtain ⟨rfl, rfl⟩ := List.cons.inj rest
      exact List.mem_append_left _ (first before back whole)

theorem answered_of_not_mem {log : List Entry} (none : .nextEvent .expose ∉ log) :
    Answered log := by
  intro before after split
  subst split
  apply absurd _ none
  simp

theorem answered_draw (log : List Entry) : Answered (log ++ draw) := by
  intro before after split
  rcases List.append_eq_append_iff.mp split with ⟨front, rfl, rest⟩ | ⟨back, whole, rest⟩
  · have member : .nextEvent .expose ∈ draw := by
      rw [rest]
      simp
    simp [draw] at member
  · cases back with
    | nil => simp [draw] at rest
    | cons e back =>
      obtain ⟨rfl, rfl⟩ := List.cons.inj rest
      simp [draw]

theorem turn_answered (p : Program) (es : List XEvent) : Answered (turn p es) := by
  rw [turn]
  split
  case isTrue => exact answered_draw _
  case isFalse asked =>
    rw [List.append_nil]
    apply answered_of_not_mem
    rw [mem_events, ← any_exposes]
    exact asked

theorem turns_answered (p : Program) (turns : List (List XEvent)) :
    Answered (turns.flatMap (turn p)) := by
  induction turns with
  | nil => exact answered_of_not_mem List.not_mem_nil
  | cons es turns ih => exact answered_append (turn_answered p es) ih

def Rested (s : State) : Prop := s.place = .ended ∨ s.place = .outer ∧ s.queue = []

theorem answered_of_rested {p : Program} {s : State} (inv : Inv p s) (rested : Rested s) :
    Answered s.log := by
  obtain ⟨turns, es, opened, close, redraw, log, finished⟩ := inv
  have whole := answered_append (turns_answered p turns) (turn_answered p es)
  rcases rested with place | ⟨place, -⟩
  · simp only [place] at log
    rw [log, ← List.append_assoc]
    apply answered_append whole
    apply answered_of_not_mem
    simp
  · simp only [place] at log
    rw [log]
    exact whole

theorem rested_of_inner (p : Program) (s : State) (place : s.place = .inner) :
    Rested ((machine p).exec s (runs (s.queue.length + 2))) := by
  have steps : runs (s.queue.length + 2) = runs s.queue.length ++ runs 2 := by
    simp [runs, List.replicate_add]
  rw [steps, Machine.exec_append, exec_inner p s.queue s place rfl]
  right
  constructor <;> simp [runs, Machine.next, machine, step, place]

theorem rested_of_outer (p : Program) (s : State) (place : s.place = .outer) :
    ∃ n ≤ s.queue.length + 3, Rested ((machine p).exec s (runs n)) := by
  cases closing : s.isUserWantsWindowToClose with
  | true =>
    refine ⟨1, by omega, .inl ?_⟩
    simp [runs, Machine.next, machine, step, place, closing]
  | false =>
    have enter : (machine p).next s .run = { s with place := .inner, isRedraw := false } :=
      Machine.next_of_some (by simp [machine, step, place, closing])
    refine ⟨s.queue.length + 3, Nat.le_refl _, ?_⟩
    rw [runs, List.replicate_succ, Machine.exec_cons, enter]
    exact rested_of_inner p _ rfl

theorem exists_rested (p : Program) (s : State) :
    ∃ n ≤ s.queue.length + 4, Rested ((machine p).exec s (runs n)) := by
  cases place : s.place with
  | outer =>
    obtain ⟨n, bound, rested⟩ := rested_of_outer p s place
    exact ⟨n, by omega, rested⟩
  | inner => exact ⟨s.queue.length + 2, by omega, rested_of_inner p s place⟩
  | drained =>
    let t : State :=
      { s with place := .outer, log := if s.isRedraw then s.log ++ draw else s.log }
    have painted : (machine p).next s .run = t :=
      Machine.next_of_some (by simp [machine, step, place, t])
    obtain ⟨n, bound, rested⟩ := rested_of_outer p t rfl
    refine ⟨n + 1, Nat.succ_le_succ bound, ?_⟩
    rw [runs, List.replicate_succ, Machine.exec_cons, painted]
    exact rested
  | ended => exact ⟨0, Nat.zero_le _, .inl place⟩

def Entry.event? : Entry → Option XEvent
  | .nextEvent e => some e
  | _ => none

def Action.event? : Action → Option XEvent
  | .deliver e => some e
  | .run => none

theorem echo_events (p : Program) (e : XEvent) : (echo p e).filterMap Entry.event? = [] := by
  cases p <;> cases e <;> rfl

theorem taken_step {p : Program} {s t : State} {a : Action}
    (moved : (machine p).step s a = some t) : t.log.filterMap Entry.event? ++ t.queue =
      s.log.filterMap Entry.event? ++ s.queue ++ a.event?.toList := by
  cases a with
  | deliver e =>
    obtain rfl := Option.some.inj moved
    simp [Action.event?]
  | run =>
    simp only [machine, step] at moved
    split at moved
    · split at moved <;> obtain rfl := Option.some.inj moved <;>
        simp [Action.event?, Entry.event?]
    · split at moved
      next waiting =>
        obtain rfl := Option.some.inj moved
        simp [Action.event?, waiting]
      next e queue waiting =>
        obtain rfl := Option.some.inj moved
        simp [Action.event?, Entry.event?, handle_eq, waiting, echo_events]
    · obtain rfl := Option.some.inj moved
      split <;> simp [Action.event?, Entry.event?, draw]
    · cases moved

theorem taken_exec (p : Program) (as : List Action) (s : State) :
    ((machine p).exec s as).log.filterMap Entry.event? ++ ((machine p).exec s as).queue =
      s.log.filterMap Entry.event? ++ s.queue ++ as.filterMap Action.event? := by
  induction as generalizing s with
  | nil => simp
  | cons a as ih =>
    rw [Machine.exec_cons, ih]
    cases moved : (machine p).step s a with
    | none =>
      cases a with
      | deliver e => cases moved
      | run => rw [Machine.next_of_none moved, List.filterMap_cons_none rfl]
    | some t =>
      rw [Machine.next_of_some moved, taken_step moved]
      cases a with
      | deliver e => simp [Action.event?]
      | run =>
        rw [List.filterMap_cons_none rfl]
        simp [Action.event?]

/-- In every run the events are taken in the order in which they were delivered, each frame
answers an `Expose` that no other frame has answered, and if no event arrives meanwhile, the
program needs few steps of its own until every `Expose` that it took has a frame behind it. -/
theorem every_expose_is_answered (p : Program) (as : List Action) :
    let s := (machine p).exec {} as
    s.log.filterMap Entry.event? ++ s.queue = as.filterMap Action.event? ∧
    History Owed s.log ∧
    ∃ n ≤ s.queue.length + 4, Rested ((machine p).exec s (runs n)) ∧
      Answered ((machine p).exec s (runs n)).log := by
  intro s
  have inv : Inv p s := exec_inv p as
  obtain ⟨n, bound, rested⟩ := exists_rested p s
  have later : Inv p ((machine p).exec s (runs n)) :=
    Machine.exec_invariant (step_inv p) inv (runs n)
  exact ⟨taken_exec p as {}, owed_of_turns (turns_of_inv inv), n, bound, rested,
    answered_of_rested later rested⟩

end ChromiumDemo.X11EventLoop
