import ChromiumDemo.TaskThreads
import Mathlib

/-! When the threads of a program come to rest. A cost of tasks that is above the cost
of what their bodies do and post bounds the work that is left, so without events from
outside the threads become idle. A field that some pending code brings about, itself
or through the tasks it posts, is set by then. -/

namespace TaskThreads
open TransitionSystem

variable {θ φ τ : Type*}

structure Idle (s : State θ φ τ) : Prop where
  running : ∀ t, s.running t = []
  queue : ∀ t, s.queue t = []
  delayed : s.delayed = []

inductive Brings (p : Program θ φ τ) (f : φ) : List (Instr θ φ τ) → Prop
  | set {is} (h : .set f ∈ is) : Brings p f is
  | post {t k is} (h : .post t k ∈ is) (body : Brings p f (p.body t k)) : Brings p f is
  | delayed {t k is} (h : .postDelayed t k ∈ is) (body : Brings p f (p.body t k)) : Brings p f is

def settles (p : Program θ φ τ) : Nat → List (Instr θ φ τ) → List φ
  | 0, is => sets is
  | n + 1, is => sets is ++ is.flatMap fun
    | .post t k => settles p n (p.body t k)
    | .postDelayed t k => settles p n (p.body t k)
    | _ => []

theorem mem_sets {f : φ} {is : List (Instr θ φ τ)} : f ∈ sets is ↔ .set f ∈ is := by
  rw [sets, List.mem_filterMap]
  constructor
  · rintro ⟨i, member, same⟩
    cases i with
    | set g =>
      obtain rfl := Option.some.inj same
      exact member
    | use _ | null _ | post _ _ | postDelayed _ _ | capture _ _ _ => cases same
  · intro member
    exact ⟨.set f, member, rfl⟩

theorem brings_of_settles {p : Program θ φ τ} {f : φ} (n : Nat) {is : List (Instr θ φ τ)}
    (h : f ∈ settles p n is) : Brings p f is := by
  induction n generalizing is with
  | zero => exact .set (mem_sets.mp h)
  | succ n ih =>
    rcases List.mem_append.mp h with own | posted
    · exact .set (mem_sets.mp own)
    · obtain ⟨i, member, brought⟩ := List.mem_flatMap.mp posted
      cases i with
      | post t k => exact .post member (ih brought)
      | postDelayed t k => exact .delayed member (ih brought)
      | set _ | use _ | null _ | capture _ _ _ => cases brought

theorem Brings.mono {p : Program θ φ τ} {f : φ} {is js : List (Instr θ φ τ)}
    (h : Brings p f is) (sub : ∀ i ∈ is, i ∈ js) : Brings p f js := by
  cases h with
  | set member => exact .set (sub _ member)
  | post member body => exact .post (sub _ member) body
  | delayed member body => exact .delayed (sub _ member) body

/-- The field is set, or some code that is still to run brings it about. -/
def Owed (p : Program θ φ τ) (f : φ) (s : State θ φ τ) : Prop :=
  s.flags f = true ∨ (∃ t, Brings p f (s.running t)) ∨
    (∃ t, ∃ k ∈ s.queue t, Brings p f (p.body t k)) ∨
    ∃ e ∈ s.delayed, Brings p f (p.body e.1 e.2)

theorem Owed.flag_of_idle {p : Program θ φ τ} {f : φ} {s : State θ φ τ} (h : Owed p f s)
    (idle : Idle s) : s.flags f = true := by
  rcases h with set | ⟨t, brings⟩ | ⟨t, k, member, -⟩ | ⟨e, member, -⟩
  · exact set
  · rw [idle.running] at brings
    cases brings with
    | set h | post h | delayed h => cases h
  · rw [idle.queue] at member
    cases member
  · rw [idle.delayed] at member
    cases member

section Steps
variable [DecidableEq θ] {p : Program θ φ τ} {f : φ} {s s' : State θ φ τ}

theorem owed_push {t : θ} {k : τ} (h : Owed p f s) : Owed p f (s.push t k) := by
  rcases h with set | running | ⟨u, j, member, brings⟩ | delayed
  · exact .inl set
  · exact .inr (.inl running)
  · refine .inr (.inr (.inl ⟨u, j, ?_, brings⟩))
    by_cases same : u = t
    · subst same
      simp [State.push, member]
    · simpa [State.push, same] using member
  · exact .inr (.inr (.inr delayed))

theorem owed_of_pushed {t : θ} {k : τ} (s : State θ φ τ) (h : Brings p f (p.body t k)) :
    Owed p f (s.push t k) := by
  refine .inr (.inr (.inl ⟨t, k, ?_, h⟩))
  simp [State.push]

theorem owed_advance {t : θ} {i : Instr θ φ τ} {is : List (Instr θ φ τ)}
    (running : s.running t = i :: is) (h : Owed p f s) :
    Brings p f [i] ∨ Owed p f { s with running := Function.update s.running t is } := by
  rcases h with set | ⟨u, brings⟩ | queued | delayed
  · exact .inr (.inl set)
  · by_cases same : u = t
    · subst same
      rw [running] at brings
      have later : Brings p f is → Owed p f { s with
          running := Function.update s.running u is } := by
        intro brings
        exact .inr (.inl ⟨u, by simpa using brings⟩)
      cases brings with
      | set member =>
        rcases List.mem_cons.mp member with rfl | member
        · exact .inl (.set List.mem_cons_self)
        · exact .inr (later (.set member))
      | post member body =>
        rcases List.mem_cons.mp member with rfl | member
        · exact .inl (.post List.mem_cons_self body)
        · exact .inr (later (.post member body))
      | delayed member body =>
        rcases List.mem_cons.mp member with rfl | member
        · exact .inl (.delayed List.mem_cons_self body)
        · exact .inr (later (.delayed member body))
    · exact .inr (.inr (.inl ⟨u, by simpa [same] using brings⟩))
  · exact .inr (.inr (.inr (.inl queued)))
  · exact .inr (.inr (.inr (.inr delayed)))

theorem owed_begin {t : θ} {k : τ} {ks : List τ} (idle : s.running t = [])
    (waiting : s.queue t = k :: ks) (h : Owed p f s) :
    Owed p f { s with
      current := Function.update s.current t (some k)
      running := Function.update s.running t (p.body t k)
      queue := Function.update s.queue t ks } := by
  rcases h with set | ⟨u, brings⟩ | ⟨u, j, member, brings⟩ | delayed
  · exact .inl set
  · by_cases same : u = t
    · subst same
      rw [idle] at brings
      cases brings with
      | set h | post h | delayed h => cases h
    · exact .inr (.inl ⟨u, by simpa [same] using brings⟩)
  · by_cases same : u = t
    · subst same
      rw [waiting, List.mem_cons] at member
      rcases member with rfl | later
      · exact .inr (.inl ⟨u, by simpa using brings⟩)
      · exact .inr (.inr (.inl ⟨u, j, by simpa using later, brings⟩))
    · exact .inr (.inr (.inl ⟨u, j, by simpa [same] using member, brings⟩))
  · exact .inr (.inr (.inr delayed))

theorem owed_timer {n : Nat} {t : θ} {k : τ} (found : s.delayed[n]? = some (t, k))
    (h : Owed p f s) : Owed p f ({ s with delayed := s.delayed.eraseIdx n }.push t k) := by
  rcases h with set | running | queued | ⟨e, member, brings⟩
  · exact owed_push (.inl set)
  · exact owed_push (.inr (.inl running))
  · exact owed_push (.inr (.inr (.inl queued)))
  · by_cases due : e = (t, k)
    · subst due
      exact owed_of_pushed _ brings
    · refine owed_push (.inr (.inr (.inr ⟨e, ?_, brings⟩)))
      obtain ⟨m, at_m⟩ := List.getElem?_of_mem member
      refine List.mem_eraseIdx_iff_getElem?.mpr ⟨m, ?_, at_m⟩
      rintro rfl
      rw [found] at at_m
      exact due (Option.some.inj at_m).symm

variable [DecidableEq φ]

theorem owed_perform {i : Instr θ φ τ} (h : Brings p f [i] ∨ Owed p f s) :
    Owed p f (perform i s) := by
  cases i with
  | set g =>
    rw [perform]
    rcases h with own | rest
    · cases own with
      | set member =>
        obtain rfl := Instr.set.inj (List.mem_singleton.mp member)
        exact .inl (Function.update_self ..)
      | post member | delayed member => cases List.mem_singleton.mp member
    · refine rest.imp_left fun set => ?_
      by_cases same : f = g
      · subst same
        exact Function.update_self ..
      · simpa [same] using set
  | use g =>
    rcases h with own | rest
    · cases own with
      | set member | post member | delayed member => cases List.mem_singleton.mp member
    · rw [perform]
      split
      · exact rest
      · exact rest
  | null g =>
    rcases h with own | rest
    · cases own with
      | set member | post member | delayed member => cases List.mem_singleton.mp member
    · exact rest
  | post t k =>
    rcases h with own | rest
    · cases own with
      | post member body =>
        obtain ⟨rfl, rfl⟩ := Instr.post.inj (List.mem_singleton.mp member)
        exact owed_of_pushed s body
      | set member | delayed member => cases List.mem_singleton.mp member
    · exact owed_push rest
  | postDelayed t k =>
    rw [perform]
    rcases h with own | rest
    · cases own with
      | delayed member body =>
        obtain ⟨rfl, rfl⟩ := Instr.postDelayed.inj (List.mem_singleton.mp member)
        exact .inr (.inr (.inr ⟨_, List.mem_append_right _ (List.mem_singleton_self _), body⟩))
      | set member | post member => cases List.mem_singleton.mp member
    · rcases rest with set | running | queued | ⟨e, member, brings⟩
      · exact .inl set
      · exact .inr (.inl running)
      · exact .inr (.inr (.inl queued))
      · exact .inr (.inr (.inr ⟨e, List.mem_append_left _ member, brings⟩))
  | capture g t k =>
    rcases h with own | rest
    · cases own with
      | set member | post member | delayed member => cases List.mem_singleton.mp member
    · exact owed_push rest

theorem step_cases {a : Action θ} (h : p.machine.step s a = some s') :
    (∃ t i is, a = .run t ∧ s.running t = i :: is ∧
      s' = perform i { s with running := Function.update s.running t is }) ∨
    (∃ t k ks, a = .run t ∧ s.running t = [] ∧ s.queue t = k :: ks ∧ s' = { s with
      current := Function.update s.current t (some k)
      running := Function.update s.running t (p.body t k)
      queue := Function.update s.queue t ks }) ∨
    (∃ n t k, a = .timer n ∧ s.delayed[n]? = some (t, k) ∧
      s' = { s with delayed := s.delayed.eraseIdx n }.push t k) ∨
    ∃ n t k, a = .event n ∧ s' = s.push t k := by
  obtain ⟨-, h⟩ := Machine.step_of_haltOn h
  cases a with
  | run t =>
    cases running : s.running t with
    | cons i is =>
      simp only [Program.step, running, Option.some.injEq] at h
      exact .inl ⟨t, i, is, rfl, running, h.symm⟩
    | nil =>
      cases waiting : s.queue t with
      | nil => simp [Program.step, running, waiting] at h
      | cons k ks =>
        simp only [Program.step, running, waiting, Option.some.injEq] at h
        exact .inr (.inl ⟨t, k, ks, rfl, running, waiting, h.symm⟩)
  | timer n =>
    cases found : s.delayed[n]? with
    | none => simp [Program.step, found] at h
    | some e =>
      simp only [Program.step, found, Option.some.injEq] at h
      exact .inr (.inr (.inl ⟨n, e.1, e.2, rfl, found, h.symm⟩))
  | event n =>
    cases found : p.events[n]? with
    | none => simp [Program.step, found] at h
    | some e =>
      simp only [Program.step, found] at h
      obtain ⟨-, same⟩ := Option.ite_none_right_eq_some.mp h
      exact .inr (.inr (.inr ⟨n, e.2.1, e.2.2, rfl, (Option.some.inj same).symm⟩))

theorem owed_step (s : State θ φ τ) (a : Action θ) (s' : State θ φ τ) (h : Owed p f s)
    (moved : p.machine.step s a = some s') : Owed p f s' := by
  obtain ⟨t, i, is, -, running, rfl⟩ | ⟨t, k, ks, -, running, waiting, rfl⟩ |
    ⟨n, t, k, -, found, rfl⟩ | ⟨n, t, k, -, rfl⟩ := step_cases moved
  · exact owed_perform (owed_advance running h)
  · exact owed_begin running waiting h
  · exact owed_timer found h
  · exact owed_push h

theorem owed_exec (h : Owed p f s) (as : List (Action θ)) : Owed p f (p.machine.exec s as) :=
  Machine.exec_invariant owed_step h as

def Action.inside : Action θ → Bool
  | .event _ => false
  | _ => true

theorem step_of_busy (alive : s.crashed = none)
    (busy : ¬ Idle s) : ∃ a s', a.inside = true ∧ p.machine.step s a = some s' := by
  suffices enabled : ∃ a : Action θ, a.inside = true ∧ (p.step s a).isSome by
    obtain ⟨a, inside, moves⟩ := enabled
    obtain ⟨s', moved⟩ := Option.isSome_iff_exists.mp moves
    have still : s.crashed.isSome = false := by simp [alive]
    exact ⟨a, s', inside, by simp [Program.machine, Machine.haltOn, still, moved]⟩
  by_contra stuck
  have blocked : ∀ a : Action θ, a.inside = true → (p.step s a).isSome = false := by
    intro a inside
    by_contra moves
    exact stuck ⟨a, inside, (Bool.not_eq_false _).mp moves⟩
  have unrun : ∀ t, s.running t = [] := by
    intro t
    cases running : s.running t with
    | nil => rfl
    | cons i is =>
      have none := blocked (.run t) rfl
      simp [Program.step, running] at none
  refine busy ⟨unrun, fun t => ?_, ?_⟩
  · cases waiting : s.queue t with
    | nil => rfl
    | cons k ks =>
      have none := blocked (.run t) rfl
      simp [Program.step, unrun t, waiting] at none
  · cases later : s.delayed with
    | nil => rfl
    | cons e es =>
      have none := blocked (.timer 0) rfl
      simp [Program.step, later] at none

end Steps

section Cost
variable (cost : θ → τ → Nat)

def instrCost : Instr θ φ τ → Nat
  | .post t k => cost t k + 1
  | .postDelayed t k => cost t k + 2
  | .capture _ t k => max (cost t (k true)) (cost t (k false)) + 1
  | _ => 1

def codeCost (is : List (Instr θ φ τ)) : Nat := (is.map (instrCost cost)).sum

def queueCost (t : θ) (ks : List τ) : Nat := (ks.map (cost t)).sum

def delayedCost (es : List (θ × τ)) : Nat := (es.map fun e => cost e.1 e.2 + 1).sum

/-- A task costs more than its body, with all that the body posts. -/
def Bounds (p : Program θ φ τ) : Prop := ∀ t k, codeCost cost (p.body t k) < cost t k

def load (s : State θ φ τ) (t : θ) : Nat :=
  codeCost cost (s.running t) + queueCost cost t (s.queue t)

def work [Fintype θ] (s : State θ φ τ) : Nat :=
  ∑ t, load cost s t + delayedCost cost s.delayed

variable [Fintype θ] [DecidableEq θ] {cost} {s : State θ φ τ}

theorem sum_change {g h : θ → Nat} {t : θ} (other : ∀ u, u ≠ t → g u = h u) :
    ∑ u, g u + h t = ∑ u, h u + g t := by
  rw [Fintype.sum_eq_add_sum_compl t g, Fintype.sum_eq_add_sum_compl t h]
  have rest : ∑ u ∈ {t}ᶜ, g u = ∑ u ∈ {t}ᶜ, h u := by
    refine Finset.sum_congr rfl fun u member => other u ?_
    simpa using member
  omega

theorem work_push (t : θ) (k : τ) : work cost (s.push t k) = work cost s + cost t k := by
  have other : ∀ u, u ≠ t → load cost (s.push t k) u = load cost s u := by
    intro u other
    simp [load, State.push, other]
  have here : load cost (s.push t k) t = load cost s t + cost t k := by
    simp [load, queueCost, State.push, Nat.add_assoc]
  have delayed : (s.push t k).delayed = s.delayed := rfl
  have change := sum_change other
  rw [work, work, delayed]
  omega

theorem work_advance {t : θ} {i : Instr θ φ τ} {is : List (Instr θ φ τ)}
    (running : s.running t = i :: is) :
    work cost { s with running := Function.update s.running t is } + instrCost cost i =
      work cost s := by
  let s' : State θ φ τ := { s with running := Function.update s.running t is }
  have other : ∀ u, u ≠ t → load cost s' u = load cost s u := by
    intro u other
    simp [load, s', other]
  have here : load cost s' t + instrCost cost i = load cost s t := by
    simp only [load, s', running, codeCost, Function.update_self, List.map_cons, List.sum_cons]
    omega
  have change := sum_change other
  change ∑ u, load cost s' u + delayedCost cost s.delayed + _ =
    ∑ u, load cost s u + delayedCost cost s.delayed
  omega

theorem work_begin {p : Program θ φ τ} (bounds : Bounds cost p) {t : θ} {k : τ} {ks : List τ}
    (idle : s.running t = []) (waiting : s.queue t = k :: ks) :
    work cost { s with
      current := Function.update s.current t (some k)
      running := Function.update s.running t (p.body t k)
      queue := Function.update s.queue t ks } < work cost s := by
  let s' : State θ φ τ := { s with
    current := Function.update s.current t (some k)
    running := Function.update s.running t (p.body t k)
    queue := Function.update s.queue t ks }
  have other : ∀ u, u ≠ t → load cost s' u = load cost s u := by
    intro u other
    simp [load, s', other]
  have here : load cost s' t < load cost s t := by
    have less := bounds t k
    simp only [load, s', idle, waiting, codeCost, queueCost, Function.update_self, List.map_cons,
      List.sum_cons, List.map_nil, List.sum_nil] at less ⊢
    omega
  have change := sum_change other
  change ∑ u, load cost s' u + delayedCost cost s.delayed <
    ∑ u, load cost s u + delayedCost cost s.delayed
  omega

theorem work_timer {n : Nat} {t : θ} {k : τ} (found : s.delayed[n]? = some (t, k)) :
    work cost ({ s with delayed := s.delayed.eraseIdx n }.push t k) < work cost s := by
  obtain ⟨bound, here⟩ := List.getElem?_eq_some_iff.mp found
  have perm := List.getElem_cons_eraseIdx_perm bound
  have total : delayedCost cost s.delayed =
      cost t k + 1 + delayedCost cost (s.delayed.eraseIdx n) := by
    have sums := (perm.map fun e => cost e.1 e.2 + 1).sum_eq
    rw [here, List.map_cons, List.sum_cons] at sums
    exact sums.symm
  rw [work_push]
  change ∑ u, load cost s u + delayedCost cost (s.delayed.eraseIdx n) + cost t k <
    ∑ u, load cost s u + delayedCost cost s.delayed
  omega

variable [DecidableEq φ]

theorem work_perform (i : Instr θ φ τ) (s : State θ φ τ) :
    work cost (perform i s) < work cost s + instrCost cost i := by
  cases i with
  | set g | null g => exact Nat.lt_succ_self _
  | use g =>
    rw [perform]
    split
    · exact Nat.lt_succ_self _
    · exact Nat.lt_succ_self _
  | post t k =>
    rw [perform, work_push, instrCost]
    omega
  | postDelayed t k =>
    have total : delayedCost cost (s.delayed ++ [(t, k)]) =
        delayedCost cost s.delayed + (cost t k + 1) := by
      simp [delayedCost]
    change ∑ u, load cost s u + delayedCost cost (s.delayed ++ [(t, k)]) <
      ∑ u, load cost s u + delayedCost cost s.delayed + (cost t k + 2)
    omega
  | capture g t k =>
    rw [perform, work_push, instrCost]
    have most : cost t (k (s.flags g)) ≤ max (cost t (k true)) (cost t (k false)) := by
      cases s.flags g
      · exact Nat.le_max_right _ _
      · exact Nat.le_max_left _ _
    omega

theorem work_step {p : Program θ φ τ} (bounds : Bounds cost p) {s s' : State θ φ τ}
    {a : Action θ} (inside : a.inside = true) (moved : p.machine.step s a = some s') :
    work cost s' < work cost s := by
  obtain ⟨t, i, is, -, running, rfl⟩ | ⟨t, k, ks, -, running, waiting, rfl⟩ |
    ⟨n, t, k, -, found, rfl⟩ | ⟨n, t, k, rfl, rfl⟩ := step_cases moved
  · let advanced : State θ φ τ := { s with running := Function.update s.running t is }
    have less : work cost (perform i advanced) < work cost advanced + instrCost cost i :=
      work_perform i advanced
    rwa [work_advance running] at less
  · exact work_begin bounds running waiting
  · exact work_timer found
  · cases inside

/-- Where an invariant excludes crashes, the threads come to rest once the outside does. -/
theorem exists_idle {p : Program θ φ τ} {Inv : State θ φ τ → Prop}
    (keeps : ∀ s a s', Inv s → p.machine.step s a = some s' → Inv s')
    (alive : ∀ s, Inv s → s.crashed = none) (bounds : Bounds cost p) (s : State θ φ τ)
    (inv : Inv s) : ∃ as, (∀ a ∈ as, a.inside = true) ∧ Idle (p.machine.exec s as) := by
  have less : ∀ s (a : Action θ) s', Inv s → a.inside = true → p.machine.step s a = some s' →
      Inv s' ∧ work cost s' < work cost s :=
    fun s a s' inv inside moved => ⟨keeps s a s' inv moved, work_step bounds inside moved⟩
  exact Machine.exists_rest less (fun s inv busy => step_of_busy (alive s inv) busy) inv

end Cost

end TaskThreads
