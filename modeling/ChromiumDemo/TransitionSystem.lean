import Mathlib.Data.List.Basic

/-! Partial labelled transition systems driven by arbitrary schedules. An action
that is not enabled leaves the state alone, so a schedule is any finite list of
actions and every interleaving of the parties is one of them. `exec` is the state
after a schedule, `visited` every state on the way, `taken` the enabled steps. -/

namespace TransitionSystem

variable {σ α τ β ε : Type*}

/-- `step s a = none` says that the action `a` is not enabled in `s`. -/
structure Machine (σ α : Type*) where
  step : σ → α → Option σ

/-- A monitor sees the schedule alone and says which actions it allows. -/
structure Monitor (τ β : Type*) where
  allows : τ → β → Prop
  next : τ → β → τ

def Monitor.Accepts (w : Monitor τ β) : τ → List β → Prop
  | _, [] => True
  | u, b :: bs => w.allows u b ∧ w.Accepts (w.next u b) bs

theorem Monitor.accepts_append (w : Monitor τ β) {u : τ} {bs more : List β} :
    w.Accepts u (bs ++ more) ↔ w.Accepts u bs ∧ w.Accepts (bs.foldl w.next u) more := by
  induction bs generalizing u with
  | nil => simp [Monitor.Accepts]
  | cons b bs ih => simp only [List.cons_append, Monitor.Accepts, ih, List.foldl_cons, and_assoc]

/-- `P` holds of every entry of a log after those before it. -/
def History (P : List ε → ε → Prop) (log : List ε) : Prop :=
  ∀ before entry after, log = before ++ entry :: after → P before entry

theorem history_nil (P : List ε → ε → Prop) : History P [] := by
  intro before entry after split
  simp at split

theorem history_concat {P : List ε → ε → Prop} {log : List ε} {entry : ε} :
    History P (log ++ [entry]) ↔ History P log ∧ P log entry := by
  constructor
  · intro all
    refine ⟨fun before old after split => all before old (after ++ [entry]) ?_,
      all log entry [] rfl⟩
    rw [split, List.append_assoc, List.cons_append]
  · rintro ⟨old, last⟩ before e after split
    rcases List.eq_nil_or_concat' after with rfl | ⟨front, back, rfl⟩
    · obtain ⟨rfl, same⟩ := List.append_inj' split rfl
      obtain rfl := (List.cons.inj same).1
      exact last
    · rw [← List.cons_append, ← List.append_assoc] at split
      exact old before e front (List.append_inj' split rfl).1

theorem history_append {P : List ε → ε → Prop} {log more : List ε} (old : History P log)
    (new : ∀ entry ∈ more, ∀ middle, P (log ++ middle) entry) : History P (log ++ more) := by
  induction more generalizing log with
  | nil =>
    rw [List.append_nil]
    exact old
  | cons entry more ih =>
    rw [List.append_cons]
    have first := new entry List.mem_cons_self []
    rw [List.append_nil] at first
    refine ih (history_concat.mpr ⟨old, first⟩) fun e member middle => ?_
    rw [List.append_assoc]
    exact new e (List.mem_cons_of_mem _ member) ([entry] ++ middle)

theorem history_append_of_shift {P : List ε → ε → Prop}
    (shift : ∀ more before entry, P before entry → P (more ++ before) entry) {log more : List ε}
    (first : History P log) (second : History P more) : History P (log ++ more) := by
  intro before entry after split
  rcases List.append_eq_append_iff.mp split with ⟨front, rfl, rest⟩ | ⟨back, whole, rest⟩
  · exact shift log front entry (second front entry after rest)
  · cases back with
    | nil =>
      rw [List.append_nil] at whole
      have here := shift log [] entry (second [] entry after rest.symm)
      rwa [List.append_nil, whole] at here
    | cons e back =>
      obtain ⟨rfl, -⟩ := List.cons.inj rest
      exact first before entry back whole

theorem history_map {P : List τ → τ → Prop} {f : ε → τ} {log : List ε} :
    History P (log.map f) ↔ History (fun before entry => P (before.map f) (f entry)) log := by
  constructor
  · intro all before entry after split
    refine all (before.map f) (f entry) (after.map f) ?_
    rw [split, List.map_append, List.map_cons]
  · intro all before entry after split
    obtain ⟨front, rest, rfl, rfl, tail⟩ := List.map_eq_append_iff.mp split
    obtain ⟨e, back, rfl, rfl, rfl⟩ := List.map_eq_cons_iff.mp tail
    exact all front e back rfl

theorem history_congr {P Q : List ε → ε → Prop}
    (same : ∀ before entry, P before entry ↔ Q before entry) (log : List ε) :
    History P log ↔ History Q log := by
  constructor
  · intro all before entry after split
    exact (same before entry).mp (all before entry after split)
  · intro all before entry after split
    exact (same before entry).mpr (all before entry after split)

theorem lt_of_mem_concat {numbers : List Nat} {n : Nat} (below : ∀ m ∈ numbers, m < n) :
    ∀ m ∈ numbers ++ [n], m < n + 1 := by
  intro m member
  rcases List.mem_append.mp member with old | new
  · exact Nat.lt_succ_of_lt (below m old)
  · rw [List.mem_singleton.mp new]
    exact Nat.lt_succ_self n

theorem nodup_concat {numbers : List Nat} {n : Nat} (distinct : numbers.Nodup)
    (below : ∀ m ∈ numbers, m < n) : (numbers ++ [n]).Nodup := by
  have unused : n ∉ numbers := fun member => Nat.lt_irrefl n (below n member)
  exact (List.perm_append_singleton n numbers).nodup_iff.mpr
    (List.nodup_cons.mpr ⟨unused, distinct⟩)

namespace Machine

def haltOn (halted : σ → Bool) (step : σ → α → Option σ) : Machine σ α where
  step s a := if halted s then none else step s a

def recording (m : Machine σ α) (note : σ → α → σ → List ε) : Machine (σ × List ε) α where
  step s a := (m.step s.1 a).map fun t => (t, s.2 ++ note s.1 a t)

def next (m : Machine σ α) (s : σ) (a : α) : σ := (m.step s a).getD s

def exec (m : Machine σ α) (s : σ) (as : List α) : σ := as.foldl m.next s

def visited (m : Machine σ α) (s : σ) (as : List α) : List σ := as.scanl m.next s

def taken (m : Machine σ α) : σ → List α → List (σ × α)
  | _, [] => []
  | s, a :: as => match m.step s a with
    | some t => (s, a) :: m.taken t as
    | none => m.taken s as

theorem next_of_some {m : Machine σ α} {s t : σ} {a : α} (h : m.step s a = some t) :
    m.next s a = t := by
  rw [next, h, Option.getD_some]

theorem next_of_none {m : Machine σ α} {s : σ} {a : α} (h : m.step s a = none) :
    m.next s a = s := by
  rw [next, h, Option.getD_none]

theorem step_of_haltOn {halted : σ → Bool} {step : σ → α → Option σ} {s t : σ} {a : α}
    (h : (haltOn halted step).step s a = some t) : halted s = false ∧ step s a = some t := by
  simpa [haltOn] using h

theorem haltOn_step {halted : σ → Bool} {s : σ} (alive : halted s = false)
    (step : σ → α → Option σ) (a : α) : (haltOn halted step).step s a = step s a := by
  simp [haltOn, alive]

theorem haltOn_next {halted : σ → Bool} {s : σ} (alive : halted s = false)
    (step : σ → α → Option σ) (a : α) : (haltOn halted step).next s a = (step s a).getD s := by
  simp [next, haltOn, alive]

theorem haltOn_next_of_halted {halted : σ → Bool} {s : σ} (dead : halted s = true)
    (step : σ → α → Option σ) (a : α) : (haltOn halted step).next s a = s := by
  simp [next, haltOn, dead]

@[simp] theorem exec_nil (m : Machine σ α) (s : σ) : m.exec s [] = s := rfl

@[simp] theorem exec_cons (m : Machine σ α) (s : σ) (a : α) (as : List α) :
    m.exec s (a :: as) = m.exec (m.next s a) as := rfl

theorem exec_append (m : Machine σ α) (s : σ) (as bs : List α) :
    m.exec s (as ++ bs) = m.exec (m.exec s as) bs :=
  List.foldl_append

theorem step_of_recording {m : Machine σ α} {note : σ → α → σ → List ε} {s t : σ × List ε} {a : α}
    (h : (m.recording note).step s a = some t) :
    m.step s.1 a = some t.1 ∧ t.2 = s.2 ++ note s.1 a t.1 := by
  obtain ⟨d, moved, rfl⟩ := Option.map_eq_some_iff.mp h
  exact ⟨moved, rfl⟩

theorem recording_exec (m : Machine σ α) (note : σ → α → σ → List ε) (s : σ × List ε)
    (as : List α) : ((m.recording note).exec s as).1 = m.exec s.1 as := by
  induction as generalizing s with
  | nil => rfl
  | cons a as ih =>
    rw [exec_cons, exec_cons, ih]
    cases h : m.step s.1 a with
    | none => rw [next_of_none h, next_of_none (by simp [recording, h])]
    | some t => rw [next_of_some h, next_of_some (by simp only [recording, h]; rfl)]

@[simp] theorem visited_nil (m : Machine σ α) (s : σ) : m.visited s [] = [s] := rfl

@[simp] theorem visited_cons (m : Machine σ α) (s : σ) (a : α) (as : List α) :
    m.visited s (a :: as) = s :: m.visited (m.next s a) as := by
  simp [visited]

@[simp] theorem taken_nil (m : Machine σ α) (s : σ) : m.taken s [] = [] := rfl

theorem taken_cons_of_some {m : Machine σ α} {s t : σ} {a : α} (h : m.step s a = some t)
    (as : List α) : m.taken s (a :: as) = (s, a) :: m.taken t as := by
  rw [taken, h]

theorem taken_cons_of_none {m : Machine σ α} {s : σ} {a : α} (h : m.step s a = none)
    (as : List α) : m.taken s (a :: as) = m.taken s as := by
  rw [taken, h]

theorem mem_visited_self (m : Machine σ α) (s : σ) (as : List α) : s ∈ m.visited s as := by
  cases as <;> simp

theorem exec_mem_visited (m : Machine σ α) (s : σ) (as : List α) :
    m.exec s as ∈ m.visited s as := by
  induction as generalizing s with
  | nil => simp
  | cons a as ih => simpa using Or.inr (ih (m.next s a))

theorem visited_invariant {m : Machine σ α} {Inv : σ → Prop}
    (preserves : ∀ s a t, Inv s → m.step s a = some t → Inv t)
    {s : σ} (init : Inv s) (as : List α) : ∀ t ∈ m.visited s as, Inv t := by
  induction as generalizing s with
  | nil => simpa using init
  | cons a as ih =>
    rw [visited_cons, List.forall_mem_cons]
    refine ⟨init, ?_⟩
    cases h : m.step s a with
    | none => rw [next_of_none h]; exact ih init
    | some t => rw [next_of_some h]; exact ih (preserves s a t init h)

theorem exec_invariant {m : Machine σ α} {Inv : σ → Prop}
    (preserves : ∀ s a t, Inv s → m.step s a = some t → Inv t)
    {s : σ} (init : Inv s) (as : List α) : Inv (m.exec s as) :=
  visited_invariant preserves init as _ (m.exec_mem_visited s as)

theorem taken_invariant {m : Machine σ α} {Inv : σ → Prop}
    (preserves : ∀ s a t, Inv s → m.step s a = some t → Inv t)
    {s : σ} (init : Inv s) (as : List α) : ∀ p ∈ m.taken s as, Inv p.1 := by
  induction as generalizing s with
  | nil => simp
  | cons a as ih =>
    cases h : m.step s a with
    | none => rw [taken_cons_of_none h]; exact ih init
    | some t =>
      rw [taken_cons_of_some h, List.forall_mem_cons]
      exact ⟨init, ih (preserves s a t init h)⟩

theorem action_mem_of_taken {m : Machine σ α} {s : σ} {as : List α} {p : σ × α}
    (h : p ∈ m.taken s as) : p.2 ∈ as := by
  induction as generalizing s with
  | nil => cases h
  | cons a as ih =>
    cases moved : m.step s a with
    | none =>
      rw [taken_cons_of_none moved] at h
      exact List.mem_cons_of_mem _ (ih h)
    | some t =>
      rw [taken_cons_of_some moved, List.mem_cons] at h
      rcases h with rfl | later
      · exact List.mem_cons_self
      · exact List.mem_cons_of_mem _ (ih later)

theorem exec_invariant_of_taken {m : Machine σ α} {Inv : σ → Prop} {Good : σ → α → Prop}
    (preserves : ∀ s a t, Inv s → Good s a → m.step s a = some t → Inv t)
    {s : σ} (init : Inv s) {as : List α} (good : ∀ p ∈ m.taken s as, Good p.1 p.2) :
    Inv (m.exec s as) := by
  induction as generalizing s with
  | nil => exact init
  | cons a as ih =>
    rw [exec_cons]
    cases h : m.step s a with
    | none =>
      rw [taken_cons_of_none h] at good
      rw [next_of_none h]
      exact ih init good
    | some t =>
      rw [taken_cons_of_some h] at good
      rw [next_of_some h]
      exact ih (preserves s a t init (good (s, a) List.mem_cons_self) h)
        fun p hp => good p (List.mem_cons_of_mem _ hp)

/-- When good steps keep an invariant that implies `P`, and a step that is not
good leads to a state without `P`, a run has `P` throughout exactly if all its
steps are good. -/
theorem visited_iff_taken {m : Machine σ α} {Inv P : σ → Prop} {Good : σ → α → Prop}
    (sound : ∀ s, Inv s → P s)
    (keeps : ∀ s a t, Inv s → Good s a → m.step s a = some t → Inv t)
    (breaks : ∀ s a t, Inv s → ¬ Good s a → m.step s a = some t → ¬ P t)
    {s : σ} (init : Inv s) (as : List α) :
    (∀ t ∈ m.visited s as, P t) ↔ ∀ p ∈ m.taken s as, Good p.1 p.2 := by
  induction as generalizing s with
  | nil => simpa using sound s init
  | cons a as ih =>
    rw [visited_cons, List.forall_mem_cons]
    cases h : m.step s a with
    | none =>
      rw [next_of_none h, taken_cons_of_none h, ih init]
      exact and_iff_right (sound s init)
    | some t =>
      rw [next_of_some h, taken_cons_of_some h, List.forall_mem_cons]
      by_cases good : Good s a
      · rw [ih (keeps s a t init good h)]
        exact and_congr (iff_of_true (sound s init) good) Iff.rfl
      · refine iff_of_false (fun all => ?_) (fun all => good all.1)
        exact breaks s a t init good h (all.2 t (m.mem_visited_self t as))

/-- A run has `P` throughout exactly if its schedule is accepted by a monitor
that the states follow and whose refusals break `P`. -/
theorem visited_iff_accepts {m : Machine σ α} {w : Monitor τ α} {R : σ → τ → Prop} {P : σ → Prop}
    (sound : ∀ s u, R s u → P s)
    (keeps : ∀ s u a, R s u → w.allows u a → R (m.next s a) (w.next u a))
    (breaks : ∀ s u a, R s u → ¬ w.allows u a → ¬ P (m.next s a))
    {s : σ} {u : τ} (init : R s u) (as : List α) :
    (∀ t ∈ m.visited s as, P t) ↔ w.Accepts u as := by
  induction as generalizing s u with
  | nil => simpa [Monitor.Accepts] using sound s u init
  | cons a as ih =>
    rw [visited_cons, List.forall_mem_cons, and_iff_right (sound s u init), Monitor.Accepts]
    by_cases allowed : w.allows u a
    · rw [ih (keeps s u a init allowed), and_iff_right allowed]
    · refine iff_of_false (fun all => ?_) (fun all => allowed all.1)
      exact breaks s u a init allowed (all _ (m.mem_visited_self _ as))

section Settling
variable {m : Machine σ α} {Inv : σ → Prop} {inside : α → Prop} {left : σ → Nat}

theorem taken_length_le
    (less : ∀ s a t, Inv s → inside a → m.step s a = some t → Inv t ∧ left t < left s)
    {s : σ} (init : Inv s) {as : List α} (insides : ∀ a ∈ as, inside a) :
    (m.taken s as).length ≤ left s := by
  induction as generalizing s with
  | nil => exact Nat.zero_le _
  | cons a as ih =>
    have later : ∀ b ∈ as, inside b := fun b member => insides b (List.mem_cons_of_mem _ member)
    cases moved : m.step s a with
    | none =>
      rw [taken_cons_of_none moved]
      exact ih init later
    | some t =>
      obtain ⟨inv, fewer⟩ := less s a t init (insides a List.mem_cons_self) moved
      rw [taken_cons_of_some moved]
      exact Nat.lt_of_le_of_lt (ih inv later) fewer

theorem exists_rest
    (less : ∀ s a t, Inv s → inside a → m.step s a = some t → Inv t ∧ left t < left s)
    {Rest : σ → Prop} (goes : ∀ s, Inv s → ¬ Rest s → ∃ a t, inside a ∧ m.step s a = some t)
    {s : σ} (init : Inv s) : ∃ as, (∀ a ∈ as, inside a) ∧ Rest (m.exec s as) := by
  induction amount : left s using Nat.strongRecOn generalizing s with
  | ind n ih =>
    by_cases rest : Rest s
    · exact ⟨[], by simp, rest⟩
    · obtain ⟨a, t, own, moved⟩ := goes s init rest
      obtain ⟨inv, fewer⟩ := less s a t init own moved
      rw [amount] at fewer
      obtain ⟨as, insides, reached⟩ := ih _ fewer inv rfl
      refine ⟨a :: as, ?_, ?_⟩
      · rw [List.forall_mem_cons]
        exact ⟨own, insides⟩
      · rw [exec_cons, next_of_some moved]
        exact reached

end Settling

def family (m : Machine σ α) (spawn : β → Option σ) : Machine (List σ) (β ⊕ Nat × α) where
  step ss
    | .inl b => (spawn b).map fun s => ss ++ [s]
    | .inr (i, a) => match ss[i]? with
      | none => none
      | some s => (m.step s a).map fun t => ss.set i t

theorem family_invariant {m : Machine σ α} {spawn : β → Option σ} {Inv : σ → Prop}
    (init : ∀ b s, spawn b = some s → Inv s)
    (preserves : ∀ s a t, Inv s → m.step s a = some t → Inv t) (as : List (β ⊕ Nat × α)) :
    ∀ s ∈ (m.family spawn).exec [] as, Inv s := by
  have start : ∀ s ∈ ([] : List σ), Inv s := fun s member => absurd member List.not_mem_nil
  suffices step : ∀ ss a ts, (∀ s ∈ ss, Inv s) → (m.family spawn).step ss a = some ts →
      ∀ s ∈ ts, Inv s from exec_invariant step start as
  intro ss a ts all h
  cases a with
  | inl b =>
    obtain ⟨s, made, rfl⟩ := Option.map_eq_some_iff.mp h
    intro t member
    rcases List.mem_append.mp member with old | new
    · exact all t old
    · rw [List.mem_singleton.mp new]
      exact init b s made
  | inr p =>
    obtain ⟨i, a⟩ := p
    cases found : ss[i]? with
    | none => simp [family, found] at h
    | some s =>
      simp only [family, found] at h
      obtain ⟨t, moved, rfl⟩ := Option.map_eq_some_iff.mp h
      intro u member
      rcases List.mem_or_eq_of_mem_set member with old | rfl
      · exact all u old
      · exact preserves s a _ (all s (List.mem_of_getElem? found)) moved

theorem exec_of_simulates_of_inv {m : Machine σ α} {n : Machine τ β} {f : σ → τ} {Inv : σ → Prop}
    (preserves : ∀ s a t, Inv s → m.step s a = some t → Inv t)
    (simulates : ∀ s a t, Inv s → m.step s a = some t →
      f t = f s ∨ ∃ b, n.step (f s) b = some (f t))
    {s : σ} (init : Inv s) (as : List α) : ∃ bs, n.exec (f s) bs = f (m.exec s as) := by
  induction as generalizing s with
  | nil => exact ⟨[], rfl⟩
  | cons a as ih =>
    rw [exec_cons]
    cases h : m.step s a with
    | none =>
      rw [next_of_none h]
      exact ih init
    | some t =>
      rw [next_of_some h]
      obtain ⟨bs, reached⟩ := ih (preserves s a t init h)
      rcases simulates s a t init h with same | ⟨b, moved⟩
      · rw [same] at reached
        exact ⟨bs, reached⟩
      · refine ⟨b :: bs, ?_⟩
        rw [exec_cons, next_of_some moved, reached]

theorem exec_of_simulates {m : Machine σ α} {n : Machine τ β} {f : σ → τ}
    (simulates : ∀ s a t, m.step s a = some t → f t = f s ∨ ∃ b, n.step (f s) b = some (f t))
    (s : σ) (as : List α) : ∃ bs, n.exec (f s) bs = f (m.exec s as) := by
  have keeps : ∀ s a t, True → m.step s a = some t → True := fun _ _ _ _ _ => trivial
  exact exec_of_simulates_of_inv keeps (fun s a t _ => simulates s a t) trivial as

theorem exec_of_simulated_by_runs {m : Machine σ α} {n : Machine τ β} {f : σ → τ}
    (simulated : ∀ s b u, n.step (f s) b = some u → ∃ as, f (m.exec s as) = u)
    (s : σ) (bs : List β) : ∃ as, f (m.exec s as) = n.exec (f s) bs := by
  induction bs generalizing s with
  | nil => exact ⟨[], rfl⟩
  | cons b bs ih =>
    rw [exec_cons]
    cases h : n.step (f s) b with
    | none =>
      rw [next_of_none h]
      exact ih s
    | some u =>
      obtain ⟨first, rfl⟩ := simulated s b u h
      obtain ⟨rest, reached⟩ := ih (m.exec s first)
      refine ⟨first ++ rest, ?_⟩
      rw [exec_append, next_of_some h, reached]

section Logging
variable {m : Machine σ α} {w : Monitor τ ε} {log : σ → List ε}

theorem log_accepted {R : σ → τ → Prop}
    (steps : ∀ s u a t, R s u → m.step s a = some t →
      ∃ es, log t = log s ++ es ∧ w.Accepts u es ∧ R t (es.foldl w.next u))
    {s : σ} {u : τ} (init : R s u) (as : List α) :
    ∃ es, log (m.exec s as) = log s ++ es ∧ w.Accepts u es ∧
      R (m.exec s as) (es.foldl w.next u) := by
  induction as generalizing s u with
  | nil => exact ⟨[], (List.append_nil _).symm, trivial, init⟩
  | cons a as ih =>
    rw [exec_cons]
    cases h : m.step s a with
    | none =>
      rw [next_of_none h]
      exact ih init
    | some t =>
      rw [next_of_some h]
      obtain ⟨es, written, accepted, related⟩ := steps s u a t init h
      obtain ⟨more, wrote, accepts, relates⟩ := ih related
      refine ⟨es ++ more, ?_, w.accepts_append.mpr ⟨accepted, accepts⟩, ?_⟩
      · rw [wrote, written, List.append_assoc]
      · rw [List.foldl_append]
        exact relates

theorem log_reached {R : σ → τ → Prop}
    (runs : ∀ s u e, R s u → w.allows u e →
      ∃ as, log (m.exec s as) = log s ++ [e] ∧ R (m.exec s as) (w.next u e))
    {s : σ} {u : τ} (init : R s u) {es : List ε} (accepted : w.Accepts u es) :
    ∃ as, log (m.exec s as) = log s ++ es := by
  induction es generalizing s u with
  | nil => exact ⟨[], (List.append_nil _).symm⟩
  | cons e es ih =>
    obtain ⟨as, written, related⟩ := runs s u e init accepted.1
    obtain ⟨more, wrote⟩ := ih related accepted.2
    refine ⟨as ++ more, ?_⟩
    rw [exec_append, wrote, written, List.append_assoc, List.singleton_append]

end Logging

end Machine

end TransitionSystem
