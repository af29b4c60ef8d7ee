import ChromiumDemo.TransitionSystem
import Mathlib.Logic.Function.Basic

/-! Threads that each run a FIFO queue of tasks, one instruction at a time, with
no lock and no event between them. The only synchronisation is posting: a task
posted happens before it runs, and after every task posted earlier to that
thread. Fields go from null to non-null and never back.

A contract says what must be known when a task is posted, what a set field
tells about the rest, and which reads it watches. Facts are either "the field
is set" or "this thread will have set it before anything posted to it from now
on"; both stay true for ever, which is what makes a check of each task body on
its own sound for every interleaving. -/

namespace TaskThreads
open TransitionSystem

variable {θ φ τ : Type*}

/-- `capture f t k` binds the present value of `f` into a task for thread `t`, and
`null f` uses a null pointer that was bound so. -/
inductive Instr (θ φ τ : Type*)
  | set (f : φ)
  | use (f : φ)
  | null (f : φ)
  | post (t : θ) (k : τ)
  | postDelayed (t : θ) (k : τ)
  | capture (f : φ) (t : θ) (k : Bool → τ)

def Instr.reads : Instr θ φ τ → Option φ
  | .use f => some f
  | .capture f _ _ => some f
  | _ => none

/-- `events` are the posts of outside parties, possible once the listed fields are set. -/
structure Program (θ φ τ : Type*) where
  body : θ → τ → List (Instr θ φ τ)
  events : List (List φ × θ × τ)

/-- `crashed` is the null field whose use ended the process. -/
structure State (θ φ τ : Type*) where
  flags : φ → Bool
  current : θ → Option τ
  running : θ → List (Instr θ φ τ)
  queue : θ → List τ
  delayed : List (θ × τ)
  crashed : Option φ

inductive Action (θ : Type*)
  | run (t : θ)
  | timer (n : Nat)
  | event (n : Nat)

/-- `never` is the fact of a task that is never posted. -/
inductive Fact (θ φ : Type*)
  | flag (f : φ)
  | promise (t : θ) (f : φ)
  | never
deriving DecidableEq

def sets (is : List (Instr θ φ τ)) : List φ :=
  is.filterMap fun
    | .set f => some f
    | _ => none

@[simp] theorem sets_append (is js : List (Instr θ φ τ)) :
    sets (is ++ js) = sets is ++ sets js := List.filterMap_append

section Semantics
variable [DecidableEq θ] [DecidableEq φ]

def State.push (s : State θ φ τ) (t : θ) (k : τ) : State θ φ τ :=
  { s with queue := Function.update s.queue t (s.queue t ++ [k]) }

def perform (i : Instr θ φ τ) (s : State θ φ τ) : State θ φ τ :=
  match i with
  | .set f => { s with flags := Function.update s.flags f true }
  | .use f => if s.flags f then s else { s with crashed := some f }
  | .null f => { s with crashed := some f }
  | .post t k => s.push t k
  | .postDelayed t k => { s with delayed := s.delayed ++ [(t, k)] }
  | .capture f t k => s.push t (k (s.flags f))

def Program.step (p : Program θ φ τ) (s : State θ φ τ) (a : Action θ) : Option (State θ φ τ) :=
  match a with
  | .run t => match s.running t with
    | i :: is => some (perform i { s with running := Function.update s.running t is })
    | [] => match s.queue t with
      | k :: ks => some { s with
          current := Function.update s.current t (some k)
          running := Function.update s.running t (p.body t k)
          queue := Function.update s.queue t ks }
      | [] => none
  | .timer n => match s.delayed[n]? with
    | some (t, k) => some ({ s with delayed := s.delayed.eraseIdx n }.push t k)
    | none => none
  | .event n => match p.events[n]? with
    | some (guard, t, k) => if guard.all s.flags then some (s.push t k) else none
    | none => none

def Program.machine (p : Program θ φ τ) : Machine (State θ φ τ) (Action θ) :=
  .haltOn (fun s => s.crashed.isSome) p.step

def Program.remaining (p : Program θ φ τ) (s : State θ φ τ) (t : θ) : List (Instr θ φ τ) :=
  s.running t ++ (s.queue t).flatMap (p.body t)

def Fact.Holds (p : Program θ φ τ) (s : State θ φ τ) : Fact θ φ → Prop
  | .flag f => s.flags f = true
  | .promise t f => s.flags f = true ∨ f ∈ sets (p.remaining s t)
  | .never => False

def Fact.HoldsAfter (p : Program θ φ τ) (s : State θ φ τ) (t : θ)
    (acc : List (Instr θ φ τ)) : Fact θ φ → Prop
  | .flag f => s.flags f = true
  | .promise u f => s.flags f = true ∨ f ∈ sets (if u = t then acc else p.remaining s u)
  | .never => False

end Semantics

/-- `pre k` is due when `k` is posted; `means f` is due when `f` is set. -/
structure Contract (θ φ τ : Type*) where
  watched : φ → Bool
  pre : τ → List (Fact θ φ)
  means : φ → List (Fact θ φ)

section Checking
variable [DecidableEq θ] [DecidableEq φ]

def entails (facts : List (Fact θ φ)) (x : Fact θ φ) : Bool :=
  decide (x ∈ facts) || match x with
    | .flag _ | .never => false
    | .promise _ f => decide (Fact.flag f ∈ facts)

def Contract.check (c : Contract θ φ τ) (p : Program θ φ τ) :
    List (Fact θ φ) → List (Instr θ φ τ) → Bool
  | _, [] => true
  | facts, .set f :: is => (c.means f).all (entails facts) && c.check p (.flag f :: facts) is
  | facts, .use f :: is =>
    (!c.watched f || entails facts (.flag f)) && c.check p (.flag f :: facts) is
  | facts, .null f :: _ => !c.watched f || entails facts .never
  | facts, .post t k :: is =>
    (c.pre k).all (entails facts) && c.check p ((sets (p.body t k)).map (.promise t) ++ facts) is
  | facts, .postDelayed _ k :: is => (c.pre k).all (entails facts) && c.check p facts is
  | facts, .capture f _ k :: is =>
    entails facts (.flag f) && (c.pre (k true)).all (entails facts) && c.check p facts is

def kept (t : θ) : Fact θ φ → Fact θ φ
  | .promise u f => if u = t then .flag f else .promise u f
  | x => x

def Contract.start (c : Contract θ φ τ) (t : θ) (k : τ) : List (Fact θ φ) :=
  (c.pre k).map (kept t)

structure Contract.Sound (c : Contract θ φ τ) (p : Program θ φ τ) : Prop where
  bodies : ∀ t k, c.check p (c.start t k) (p.body t k) = true
  events : ∀ e ∈ p.events,
    (c.pre e.2.2).all (entails (e.1.flatMap fun g => .flag g :: c.means g)) = true

def Contract.QueueOk (c : Contract θ φ τ) (p : Program θ φ τ) (s : State θ φ τ) (t : θ) :
    List (Instr θ φ τ) → List τ → Prop
  | _, [] => True
  | acc, k :: ks =>
    (∀ x ∈ c.pre k, x.HoldsAfter p s t acc) ∧ c.QueueOk p s t (acc ++ p.body t k) ks

structure Contract.Inv (c : Contract θ φ τ) (p : Program θ φ τ) (s : State θ φ τ) : Prop where
  safe : ∀ f, c.watched f = true → s.crashed ≠ some f
  meaning : ∀ f, s.flags f = true → ∀ x ∈ c.means f, x.Holds p s
  running : s.crashed = none →
    ∀ t, ∃ facts, (∀ x ∈ facts, Fact.Holds p s x) ∧ c.check p facts (s.running t) = true
  current : ∀ t k, s.current t = some k → ∀ x ∈ c.start t k, x.Holds p s
  queued : ∀ t, c.QueueOk p s t (s.running t) (s.queue t)
  delayed : ∀ t k, (t, k) ∈ s.delayed → ∀ x ∈ c.pre k, x.Holds p s

end Checking

section Soundness
variable {p : Program θ φ τ} {c : Contract θ φ τ} {s s' : State θ φ τ} {t : θ}

/-- Nothing known is ever lost: set fields stay set, and what a thread was to
set is set or still to come on that thread. -/
structure Extends (p : Program θ φ τ) (s s' : State θ φ τ) : Prop where
  flags : ∀ f, s.flags f = true → s'.flags f = true
  remaining : ∀ t, ∀ f ∈ sets (p.remaining s t),
    s'.flags f = true ∨ f ∈ sets (p.remaining s' t)

theorem Fact.Holds.mono (h : Extends p s s') {x : Fact θ φ} (hx : x.Holds p s) :
    x.Holds p s' := by
  cases x with
  | flag f => exact h.flags f hx
  | promise t f => exact hx.elim (fun hf => Or.inl (h.flags f hf)) (h.remaining t f)
  | never => exact hx

theorem Extends.crash (h : Extends p s s') (f : φ) : Extends p s { s' with crashed := some f } :=
  ⟨h.flags, h.remaining⟩

theorem extends_delayed (s : State θ φ τ) (ds : List (θ × τ)) :
    Extends p s { s with delayed := ds } :=
  ⟨fun _ h => h, fun _ _ h => Or.inr h⟩

theorem extends_setFlag [DecidableEq φ] (s : State θ φ τ) (f : φ) :
    Extends p s { s with flags := Function.update s.flags f true } where
  flags g hg := by by_cases same : g = f <;> simp [same, hg]
  remaining _ _ hg := Or.inr hg

variable [DecidableEq θ]

theorem Contract.QueueOk.mono (h : Extends p s s') {acc acc' : List (Instr θ φ τ)}
    (hacc : ∀ f ∈ sets acc, s'.flags f = true ∨ f ∈ sets acc') {ks : List τ}
    (ok : c.QueueOk p s t acc ks) : c.QueueOk p s' t acc' ks := by
  induction ks generalizing acc acc' with
  | nil => trivial
  | cons k ks ih =>
    refine ⟨fun x hx => ?_, ih (fun f hf => ?_) ok.2⟩
    · have old := ok.1 x hx
      cases x with
      | flag f => exact h.flags f old
      | promise u f =>
        rcases old with old | old
        · exact Or.inl (h.flags f old)
        · by_cases same : u = t
          · simpa [Fact.HoldsAfter, same] using hacc f (by simpa [same] using old)
          · simpa [Fact.HoldsAfter, same] using h.remaining u f (by simpa [same] using old)
      | never => exact old
    · rw [sets_append, List.mem_append] at hf ⊢
      rcases hf with hf | hf
      · exact (hacc f hf).imp_right Or.inl
      · exact Or.inr (Or.inr hf)

theorem Contract.QueueOk.snoc {acc : List (Instr θ φ τ)} {ks : List τ} {k : τ}
    (ok : c.QueueOk p s t acc ks)
    (last : ∀ x ∈ c.pre k, x.HoldsAfter p s t (acc ++ ks.flatMap (p.body t))) :
    c.QueueOk p s t acc (ks ++ [k]) := by
  induction ks generalizing acc with
  | nil => exact ⟨by simpa using last, trivial⟩
  | cons j ks ih =>
    refine ⟨ok.1, ih ok.2 ?_⟩
    simpa [List.append_assoc] using last

theorem Contract.QueueOk.flag {acc : List (Instr θ φ τ)} {ks : List τ} {k : τ} {f : φ}
    (ok : c.QueueOk p s t acc ks) (hk : k ∈ ks) (hf : .flag f ∈ c.pre k) :
    s.flags f = true := by
  induction ks generalizing acc with
  | nil => simp at hk
  | cons j ks ih =>
    rcases List.mem_cons.mp hk with rfl | hk
    · exact ok.1 _ hf
    · exact ih ok.2 hk

theorem holdsAfter_remaining (t : θ) {x : Fact θ φ} (h : x.Holds p s) :
    x.HoldsAfter p s t (p.remaining s t) := by
  cases x with
  | flag f => exact h
  | promise u f =>
    refine h.imp_right fun hf => ?_
    by_cases same : u = t
    · subst same; simpa using hf
    · simpa [same] using hf
  | never => exact h

theorem remaining_push (s : State θ φ τ) (t u : θ) (k : τ) :
    p.remaining (s.push t k) u =
      p.remaining s u ++ if u = t then p.body t k else [] := by
  by_cases same : u = t
  · subst same; simp [Program.remaining, State.push]
  · simp [Program.remaining, State.push, same]

theorem extends_push (s : State θ φ τ) (t : θ) (k : τ) : Extends p s (s.push t k) where
  flags _ h := h
  remaining u f hf := by
    rw [remaining_push, sets_append]
    exact Or.inr (List.mem_append_left _ hf)

theorem extends_advance {i : Instr θ φ τ} {is : List (Instr θ φ τ)}
    (h : s.running t = i :: is) (done : ∀ f ∈ sets [i], s.flags f = true) :
    Extends p s { s with running := Function.update s.running t is } where
  flags _ hf := hf
  remaining u f hf := by
    by_cases same : u = t
    · subst same
      rw [Program.remaining, h, List.cons_append, ← List.singleton_append, sets_append,
        List.mem_append] at hf
      simpa [Program.remaining] using hf.imp_left (done f)
    · simpa [Program.remaining, same] using Or.inr hf

theorem advance_sets {i : Instr θ φ τ} {is : List (Instr θ φ τ)}
    (h : s.running t = i :: is) (done : ∀ f ∈ sets [i], s.flags f = true) (u : θ) :
    ∀ f ∈ sets (s.running u),
      s.flags f = true ∨ f ∈ sets (Function.update s.running t is u) := by
  intro f hf
  by_cases same : u = t
  · subst same
    rw [h, ← List.singleton_append, sets_append, List.mem_append] at hf
    simpa using hf.imp_left (done f)
  · simpa [same] using Or.inr hf

variable [DecidableEq φ]

theorem entails_sound {facts : List (Fact θ φ)} (hold : ∀ x ∈ facts, Fact.Holds p s x)
    {x : Fact θ φ} (h : entails facts x = true) : x.Holds p s := by
  cases x with
  | flag f => exact hold _ (by simpa [entails] using h)
  | promise t f =>
    have mem : Fact.promise t f ∈ facts ∨ Fact.flag f ∈ facts := by simpa [entails] using h
    exact mem.elim (hold _) fun hf => Or.inl (hold _ hf)
  | never => exact hold _ (by simpa [entails] using h)

theorem all_entails_sound {facts xs : List (Fact θ φ)} (hold : ∀ x ∈ facts, Fact.Holds p s x)
    (h : xs.all (entails facts) = true) : ∀ x ∈ xs, x.Holds p s := by
  intro x hx
  exact entails_sound hold (List.all_eq_true.mp h x hx)

namespace Contract.Inv

theorem push (inv : c.Inv p s) {k : τ} (pre : ∀ x ∈ c.pre k, x.Holds p s) :
    c.Inv p (s.push t k) where
  safe := inv.safe
  meaning f hf x hx := (inv.meaning f hf x hx).mono (extends_push s t k)
  running alive u := by
    obtain ⟨facts, hold, ok⟩ := inv.running alive u
    exact ⟨facts, fun x hx => (hold x hx).mono (extends_push s t k), ok⟩
  current u j hj x hx := (inv.current u j hj x hx).mono (extends_push s t k)
  queued u := by
    have old : c.QueueOk p (s.push t k) u (s.running u) (s.queue u) :=
      (inv.queued u).mono (extends_push s t k) fun f hf => Or.inr hf
    by_cases same : u = t
    · subst same
      have last := old.snoc (k := k) fun x hx => by
        have now := holdsAfter_remaining u (pre x hx)
        cases x with
        | flag f => exact now
        | promise v f =>
          refine now.imp_right fun hf => ?_
          by_cases own : v = u
          · simpa [own, Program.remaining] using hf
          · simpa [own, remaining_push] using hf
        | never => exact now
      simpa [State.push] using last
    · simpa [State.push, same] using old
  delayed u j hj x hx := (inv.delayed u j hj x hx).mono (extends_push s t k)

theorem advance (inv : c.Inv p s) {i : Instr θ φ τ} {is : List (Instr θ φ τ)}
    (h : s.running t = i :: is) (done : ∀ f ∈ sets [i], s.flags f = true)
    (facts : List (Fact θ φ)) (hold : ∀ x ∈ facts, Fact.Holds p s x)
    (ok : c.check p facts is = true) :
    c.Inv p { s with running := Function.update s.running t is } := by
  have ext := extends_advance (p := p) h done
  refine ⟨inv.safe, fun f hf x hx => (inv.meaning f hf x hx).mono ext, fun alive u => ?_,
    fun u k hk x hx => (inv.current u k hk x hx).mono ext, fun u => ?_,
    fun u k hk x hx => (inv.delayed u k hk x hx).mono ext⟩
  · by_cases same : u = t
    · subst same
      exact ⟨facts, fun x hx => (hold x hx).mono ext, by simpa using ok⟩
    · obtain ⟨known, holds, okay⟩ := inv.running alive u
      exact ⟨known, fun x hx => (holds x hx).mono ext, by simpa [same] using okay⟩
  · exact (inv.queued u).mono ext (advance_sets h done u)

theorem setFlag (inv : c.Inv p s) {f : φ} (means : ∀ x ∈ c.means f, x.Holds p s) :
    c.Inv p { s with flags := Function.update s.flags f true } := by
  have ext := extends_setFlag (p := p) s f
  refine ⟨inv.safe, fun g hg x hx => ?_, fun alive u => ?_,
    fun u k hk x hx => (inv.current u k hk x hx).mono ext,
    fun u => (inv.queued u).mono ext fun g hg => Or.inr hg,
    fun u k hk x hx => (inv.delayed u k hk x hx).mono ext⟩
  · by_cases same : g = f
    · exact (means x (same ▸ hx)).mono ext
    · exact (inv.meaning g (by simpa [same] using hg) x hx).mono ext
  · obtain ⟨facts, hold, ok⟩ := inv.running alive u
    exact ⟨facts, fun x hx => (hold x hx).mono ext, ok⟩

theorem setDelayed (inv : c.Inv p s) (ds : List (θ × τ))
    (pre : ∀ t k, (t, k) ∈ ds → ∀ x ∈ c.pre k, x.Holds p s) :
    c.Inv p { s with delayed := ds } where
  safe := inv.safe
  meaning := inv.meaning
  running := inv.running
  current := inv.current
  queued t := (inv.queued t).mono (extends_delayed s ds) fun _ hf => Or.inr hf
  delayed := pre

theorem read_set (inv : c.Inv p s) (alive : s.crashed = none) {i : Instr θ φ τ}
    {is : List (Instr θ φ τ)} (h : s.running t = i :: is) {f : φ} (hf : i.reads = some f)
    (watched : c.watched f = true) : s.flags f = true := by
  obtain ⟨facts, hold, ok⟩ := inv.running alive t
  rw [h] at ok
  have known : entails facts (.flag f) = true := by
    cases i with
    | use g =>
      obtain rfl : g = f := Option.some.inj hf
      simpa [Contract.check, watched] using (Bool.and_eq_true_iff.mp ok).1
    | capture g u k =>
      obtain rfl : g = f := Option.some.inj hf
      exact (Bool.and_eq_true_iff.mp (Bool.and_eq_true_iff.mp ok).1).1
    | set _ | null _ | post _ _ | postDelayed _ _ => cases hf
  exact entails_sound hold known

theorem crash (inv : c.Inv p s) {i : Instr θ φ τ} {is : List (Instr θ φ τ)}
    (h : s.running t = i :: is) (none_set : sets [i] = []) {f : φ}
    (unwatched : c.watched f = false) : c.Inv p { s with
      running := Function.update s.running t is
      crashed := some f } := by
  have done : ∀ g ∈ sets [i], s.flags g = true := by simp [none_set]
  have ext := (extends_advance (p := p) h done).crash f
  refine ⟨fun g hg same => ?_, fun g hg x hx => (inv.meaning g hg x hx).mono ext,
    fun dead => by simp at dead, fun u k hk x hx => (inv.current u k hk x hx).mono ext,
    fun u => ?_, fun u k hk x hx => (inv.delayed u k hk x hx).mono ext⟩
  · obtain rfl : f = g := Option.some.inj same
    simp [unwatched] at hg
  · exact (inv.queued u).mono ext (advance_sets h done u)

theorem perform (inv : c.Inv p s) (alive : s.crashed = none) {i : Instr θ φ τ}
    {is : List (Instr θ φ τ)} (h : s.running t = i :: is) :
    c.Inv p (TaskThreads.perform i { s with running := Function.update s.running t is }) := by
  obtain ⟨facts, hold, ok⟩ := inv.running alive t
  rw [h] at ok
  cases i with
  | set f =>
    obtain ⟨means, ok⟩ := Bool.and_eq_true_iff.mp ok
    have set := inv.setFlag (all_entails_sound hold means)
    refine set.advance h (by simp [sets]) (.flag f :: facts) ?_ ok
    rintro x (_ | ⟨_, hx⟩)
    · simp [Fact.Holds]
    · exact (hold x hx).mono (extends_setFlag s f)
  | use f =>
    obtain ⟨known, ok⟩ := Bool.and_eq_true_iff.mp ok
    cases null : s.flags f with
    | true =>
      simp only [TaskThreads.perform, null, if_true]
      refine inv.advance h (by simp [sets]) (.flag f :: facts) ?_ ok
      rintro x (_ | ⟨_, hx⟩)
      · exact null
      · exact hold x hx
    | false =>
      -- the process ends here; a watched field would have been known to be set
      have unwatched : c.watched f = false := by
        by_contra watched
        have set := inv.read_set alive h rfl (Bool.of_not_eq_false watched)
        simp [null] at set
      simp only [TaskThreads.perform, null, Bool.false_eq_true, if_false]
      exact inv.crash h rfl unwatched
  | null f =>
    have impossible : ¬ entails facts .never = true := fun known => entails_sound hold known
    have unwatched : c.watched f = false := by
      simpa [Contract.check, impossible] using ok
    exact inv.crash h rfl unwatched
  | post u k =>
    obtain ⟨pre, ok⟩ := Bool.and_eq_true_iff.mp ok
    have posted := inv.push (t := u) (all_entails_sound hold pre)
    refine posted.advance h (by simp [sets])
      ((sets (p.body u k)).map (.promise u) ++ facts) (fun x hx => ?_) ok
    rcases List.mem_append.mp hx with hx | hx
    · obtain ⟨f, hf, rfl⟩ := List.mem_map.mp hx
      exact Or.inr (by simp [remaining_push, hf])
    · exact (hold x hx).mono (extends_push s u k)
  | postDelayed u k =>
    obtain ⟨pre, ok⟩ := Bool.and_eq_true_iff.mp ok
    have later := inv.setDelayed (s.delayed ++ [(u, k)]) fun v j hj => by
      rcases List.mem_append.mp hj with hj | hj
      · exact inv.delayed v j hj
      · obtain ⟨rfl, rfl⟩ := Prod.mk.inj (List.mem_singleton.mp hj)
        exact all_entails_sound hold pre
    exact later.advance h (by simp [sets]) facts hold ok
  | capture f u k =>
    obtain ⟨known, ok⟩ := Bool.and_eq_true_iff.mp ok
    obtain ⟨known, pre⟩ := Bool.and_eq_true_iff.mp known
    have set : s.flags f = true := entails_sound hold known
    have posted := inv.push (t := u) (all_entails_sound hold pre)
    simp only [TaskThreads.perform, set]
    exact posted.advance h (by simp [sets]) facts
      (fun x hx => (hold x hx).mono (extends_push s u (k true))) ok

theorem begin (sound : c.Sound p) (inv : c.Inv p s) {k : τ} {ks : List τ}
    (idle : s.running t = []) (h : s.queue t = k :: ks) :
    c.Inv p { s with
      current := Function.update s.current t (some k)
      running := Function.update s.running t (p.body t k)
      queue := Function.update s.queue t ks } := by
  have head := inv.queued t
  rw [idle, h] at head
  have ext : Extends p s { s with
      current := Function.update s.current t (some k)
      running := Function.update s.running t (p.body t k)
      queue := Function.update s.queue t ks } := by
    refine ⟨fun _ hf => hf, fun u f hf => Or.inr ?_⟩
    by_cases same : u = t
    · subst same
      simpa [Program.remaining, idle, h] using hf
    · simpa [Program.remaining, same] using hf
  have started : ∀ x ∈ c.start t k, x.Holds p s := by
    intro x hx
    obtain ⟨y, hy, rfl⟩ := List.mem_map.mp hx
    have before := head.1 y hy
    cases y with
    | flag f => exact before
    | promise u f =>
      by_cases own : u = t
      · subst own
        simpa [kept, Fact.HoldsAfter, Fact.Holds, sets] using before
      · simpa [kept, Fact.HoldsAfter, Fact.Holds, own] using before
    | never => exact before
  refine ⟨inv.safe, fun f hf x hx => (inv.meaning f hf x hx).mono ext, fun alive u => ?_,
    fun u j hj x hx => ?_, fun u => ?_, fun u j hj x hx => (inv.delayed u j hj x hx).mono ext⟩
  · by_cases same : u = t
    · subst same
      exact ⟨c.start u k, fun x hx => (started x hx).mono ext, by simpa using sound.bodies u k⟩
    · obtain ⟨facts, hold, ok⟩ := inv.running alive u
      exact ⟨facts, fun x hx => (hold x hx).mono ext, by simpa [same] using ok⟩
  · by_cases same : u = t
    · subst same
      obtain rfl : k = j := by simpa using hj
      exact (started x hx).mono ext
    · exact (inv.current u j (by simpa [same] using hj) x hx).mono ext
  · by_cases same : u = t
    · subst same
      simpa using head.2.mono ext fun f hf => Or.inr hf
    · simpa [same] using (inv.queued u).mono ext fun f hf => Or.inr hf

theorem step (sound : c.Sound p) {a : Action θ} (inv : c.Inv p s)
    (taken : p.machine.step s a = some s') : c.Inv p s' := by
  obtain ⟨alive, h⟩ := Machine.step_of_haltOn taken
  have alive : s.crashed = none := by simpa using alive
  unfold Program.step at h
  cases a with
  | run t =>
    cases running : s.running t with
    | nil =>
      cases queue : s.queue t with
      | nil => simp [running, queue] at h
      | cons k ks =>
        obtain rfl := by simpa [running, queue] using h
        exact inv.begin sound running queue
    | cons i is =>
      obtain rfl := by simpa [running] using h
      exact inv.perform alive running
  | timer n =>
    cases found : s.delayed[n]? with
    | none => simp [found] at h
    | some e =>
      obtain ⟨u, k⟩ := e
      obtain rfl := by simpa [found] using h
      have erased := inv.setDelayed (s.delayed.eraseIdx n)
        fun v j hj => inv.delayed v j (List.mem_of_mem_eraseIdx hj)
      exact erased.push (inv.delayed u k (List.mem_of_getElem? found))
  | event n =>
    cases found : p.events[n]? with
    | none => simp [found] at h
    | some e =>
      obtain ⟨guard, u, k⟩ := e
      simp only [found] at h
      split at h
      · rename_i ready
        obtain rfl := Option.some.inj h
        refine inv.push (all_entails_sound (fun x hx => ?_)
          (sound.events _ (List.mem_of_getElem? found)))
        obtain ⟨g, hg, hx⟩ := List.mem_flatMap.mp hx
        have set : s.flags g = true := List.all_eq_true.mp ready g hg
        rcases List.mem_cons.mp hx with rfl | hx
        · exact set
        · exact inv.meaning g set x hx
      · cases h

/-- One check of the bodies covers every interleaving of the threads. -/
theorem exec (sound : c.Sound p) (inv : c.Inv p s) (as : List (Action θ)) :
    c.Inv p (p.machine.exec s as) :=
  Machine.exec_invariant (fun _ _ _ hs h => hs.step sound h) inv as

theorem flag_of_queued (inv : c.Inv p s) {k : τ} (hk : k ∈ s.queue t) {f : φ}
    (hf : .flag f ∈ c.pre k) : s.flags f = true := (inv.queued t).flag hk hf

theorem flag_of_current (inv : c.Inv p s) {k : τ} (hk : s.current t = some k) {f : φ}
    (hf : .flag f ∈ c.pre k) : s.flags f = true :=
  inv.current t k hk _ (List.mem_map.mpr ⟨.flag f, hf, rfl⟩)

end Contract.Inv

end Soundness

end TaskThreads
