import Mathlib.Data.List.Infix

/-! Programs with checks, as trees of what they ask of their surroundings. The operand
of a check is a program of its own that a build without checks leaves out, with
whatever it would have done. The surroundings may answer a call by the calls before it. -/

namespace CheckedProgram

variable {σ κ ω α β : Type}

/-- `build` is where the two builds differ; `failed` is a check whose condition does not
hold, `crash` anything else that ends the process. -/
inductive Program (σ κ ω α : Type)
  | done (a : α)
  | call (c : κ) (next : ω → Program σ κ ω α)
  | read (next : σ → Program σ κ ω α)
  | write (s : σ) (next : Program σ κ ω α)
  | build (checked unchecked : Program σ κ ω α)
  | crash
  | failed

inductive Stop
  | crashed
  | failed
deriving DecidableEq

structure World (σ κ : Type) where
  state : σ
  calls : List κ := []

namespace Program

def bind : Program σ κ ω α → (α → Program σ κ ω β) → Program σ κ ω β
  | .done a, f => f a
  | .call c next, f => .call c fun answer => (next answer).bind f
  | .read next, f => .read fun s => (next s).bind f
  | .write s next, f => .write s (next.bind f)
  | .build checked unchecked, f => .build (checked.bind f) (unchecked.bind f)
  | .crash, _ => .crash
  | .failed, _ => .failed

instance : Monad (Program σ κ ω) where
  pure := .done
  bind := bind

def run (checks : Bool) (answers : List κ → κ → ω) :
    Program σ κ ω α → World σ κ → Except Stop α × World σ κ
  | .done a, w => (.ok a, w)
  | .call c next, w =>
    (next (answers w.calls c)).run checks answers { w with calls := w.calls ++ [c] }
  | .read next, w => (next w.state).run checks answers w
  | .write s next, w => next.run checks answers { w with state := s }
  | .build checked unchecked, w =>
    if checks then checked.run checks answers w else unchecked.run checks answers w
  | .crash, w => (.error .crashed, w)
  | .failed, w => (.error .failed, w)

end Program

def ask (c : κ) : Program σ κ ω ω := .call c .done

def get : Program σ κ ω σ := .read .done

def modify (f : σ → σ) : Program σ κ ω Unit := .read fun s => .write (f s) (.done ())

def onlyIf (c : Prop) [Decidable c] (p : Program σ κ ω Unit) : Program σ κ ω Unit :=
  if c then p else .done ()

/-- A check whose operand also writes locals, which are `before` where it is left out. -/
def checkOut (before : β) (operand : Program σ κ ω (Bool × β)) : Program σ κ ω β :=
  .build (operand.bind fun p => if p.1 then .done p.2 else .failed) (.done before)

def check (operand : Program σ κ ω Bool) : Program σ κ ω Unit :=
  checkOut () (operand.bind fun ok => .done (ok, ()))

section Runs
variable {checks : Bool} {answers : List κ → κ → ω} {p : Program σ κ ω α}

theorem run_bind (p : Program σ κ ω α) (f : α → Program σ κ ω β) (w : World σ κ) :
    (p >>= f).run checks answers w = match p.run checks answers w with
      | (.ok a, v) => (f a).run checks answers v
      | (.error stop, v) => (.error stop, v) := by
  show (p.bind f).run checks answers w = _
  induction p generalizing w with
  | done a => rfl
  | call c next ih => exact ih _ _
  | read next ih => exact ih _ _
  | write s next ih => exact ih _
  | build checked unchecked checked_ih unchecked_ih =>
    simp only [Program.bind, Program.run]
    cases checks with
    | true => exact checked_ih w
    | false => exact unchecked_ih w
  | crash => rfl
  | failed => rfl

theorem calls_prefix (p : Program σ κ ω α) (w : World σ κ) :
    w.calls <+: (p.run checks answers w).2.calls := by
  induction p generalizing w with
  | done a => exact List.prefix_rfl
  | call c next ih =>
    exact (List.prefix_append w.calls [c]).trans
      (ih (answers w.calls c) { w with calls := w.calls ++ [c] })
  | read next ih => exact ih w.state w
  | write s next ih => exact ih { w with state := s }
  | build checked unchecked checked_ih unchecked_ih =>
    rw [Program.run]
    split
    · exact checked_ih w
    · exact unchecked_ih w
  | crash => exact List.prefix_rfl
  | failed => exact List.prefix_rfl

theorem calls_bind (p : Program σ κ ω α) (f : α → Program σ κ ω β) (w : World σ κ) :
    (p.run checks answers w).2.calls <+: ((p >>= f).run checks answers w).2.calls := by
  rw [run_bind]
  split
  · next a u ran =>
    rw [ran]
    exact calls_prefix (f a) u
  · next stop u ran =>
    rw [ran]

theorem holds_of_bind {f : α → Program σ κ ω β} {w : World σ κ}
    (met : ((p >>= f).run checks answers w).1 ≠ .error .failed) :
    (p.run checks answers w).1 ≠ .error .failed := by
  intro failed
  have ran : p.run checks answers w = (.error .failed, (p.run checks answers w).2) :=
    Prod.ext failed rfl
  exact met (by rw [run_bind, ran])

theorem ok_of_bind {f : α → Program σ κ ω β} {w v : World σ κ} {b : β}
    (ran : (p >>= f).run checks answers w = (.ok b, v)) :
    ∃ a u, p.run checks answers w = (.ok a, u) ∧ (f a).run checks answers u = (.ok b, v) := by
  rw [run_bind] at ran
  split at ran
  · next a u first => exact ⟨a, u, first, ran⟩
  · cases ran

end Runs

def Crashless (p : Program σ κ ω α) : Prop :=
  ∀ checks answers w, (p.run checks answers w).1 ≠ .error .crashed

namespace Crashless

theorem done (a : α) : Crashless (pure a : Program σ κ ω α) :=
  fun _ _ _ => nofun

theorem ask (c : κ) : Crashless (ask c : Program σ κ ω ω) :=
  fun _ _ _ => nofun

theorem get : Crashless (get : Program σ κ ω σ) :=
  fun _ _ _ => nofun

theorem modify (f : σ → σ) : Crashless (modify f : Program σ κ ω Unit) :=
  fun _ _ _ => nofun

theorem bind {p : Program σ κ ω α} {f : α → Program σ κ ω β} (first : Crashless p)
    (next : ∀ a, Crashless (f a)) : Crashless (p >>= f) := by
  intro checks answers w
  rw [run_bind]
  split
  · next a u ran => exact next a checks answers u
  · next stop u ran =>
    intro crashed
    refine first checks answers w ?_
    rw [ran]
    exact Except.error.inj crashed ▸ rfl

theorem onlyIf {c : Prop} [Decidable c] {p : Program σ κ ω Unit} (part : Crashless p) :
    Crashless (onlyIf c p) := by
  rw [CheckedProgram.onlyIf]
  split
  · exact part
  · exact done ()

theorem check {operand : Program σ κ ω Bool} (part : Crashless operand) :
    Crashless (check operand) := by
  have decided (p : Bool × Unit) :
      Crashless (if p.1 then .done p.2 else .failed : Program σ κ ω Unit) := by
    intro checks answers w
    split <;> nofun
  intro checks answers w
  cases checks with
  | false => nofun
  | true => exact bind (bind part fun ok => done (ok, ())) decided true answers w

theorem next {p : Program σ κ ω α} (h : Crashless p) {f : α → Program σ κ ω β}
    {checks : Bool} {answers : List κ → κ → ω} {w : World σ κ}
    (met : ((p >>= f).run checks answers w).1 ≠ .error .failed) :
    ∃ a u, p.run checks answers w = (.ok a, u) ∧
      (p >>= f).run checks answers w = (f a).run checks answers u := by
  rw [run_bind] at met ⊢
  split at met
  · next a u ran => exact ⟨a, u, ran, rfl⟩
  · next stop u ran =>
    cases stop with
    | failed => exact absurd rfl met
    | crashed => exact absurd (by rw [ran]) (h checks answers w)

end Crashless

/-- What goes well with the checks goes the same way without them. -/
def Alike (p : Program σ κ ω α) : Prop :=
  ∀ answers w a v, p.run true answers w = (.ok a, v) → p.run false answers w = (.ok a, v)

namespace Alike

theorem run_eq {p : Program σ κ ω α} (h : Alike p) {answers : List κ → κ → ω} {w : World σ κ}
    {a : α} (ok : (p.run true answers w).1 = .ok a) :
    p.run false answers w = p.run true answers w := by
  have checked : p.run true answers w = (.ok a, (p.run true answers w).2) := Prod.ext ok rfl
  rw [h answers w a _ checked, ← checked]

theorem done (a : α) : Alike (pure a : Program σ κ ω α) :=
  fun _ _ _ _ ran => ran

theorem ask (c : κ) : Alike (ask c : Program σ κ ω ω) :=
  fun _ _ _ _ ran => ran

theorem get : Alike (get : Program σ κ ω σ) :=
  fun _ _ _ _ ran => ran

theorem modify (f : σ → σ) : Alike (modify f : Program σ κ ω Unit) :=
  fun _ _ _ _ ran => ran

theorem crash : Alike (.crash : Program σ κ ω α) :=
  fun _ _ _ _ ran => ran

theorem bind {p : Program σ κ ω α} {f : α → Program σ κ ω β} (first : Alike p)
    (next : ∀ a, Alike (f a)) : Alike (p >>= f) := by
  intro answers w b v ran
  obtain ⟨a, u, head, tail⟩ := ok_of_bind ran
  rw [run_bind, first answers w a u head]
  exact next a answers u b v tail

theorem ite {c : Prop} [Decidable c] {p q : Program σ κ ω α} (yes : Alike p) (no : Alike q) :
    Alike (if c then p else q) := by
  split
  · exact yes
  · exact no

theorem onlyIf {c : Prop} [Decidable c] {p : Program σ κ ω Unit} (part : Alike p) :
    Alike (onlyIf c p) :=
  ite part (done ())

theorem forM {f : β → Program σ κ ω PUnit} (each : ∀ b, Alike (f b)) (bs : List β) :
    Alike (bs.forM f) := by
  induction bs with
  | nil => exact done PUnit.unit
  | cons b bs ih => exact bind (each b) fun _ => ih

theorem checkOut_iff (before : β) (operand : Program σ κ ω (Bool × β)) :
    Alike (checkOut before operand) ↔ ∀ answers w after v,
      operand.run true answers w = (.ok (true, after), v) → after = before ∧ v = w := by
  have unchecked (answers : List κ → κ → ω) (w : World σ κ) :
      (checkOut before operand).run false answers w = (.ok before, w) := rfl
  have checked (answers : List κ → κ → ω) (w v : World σ κ) (after : β) :
      (checkOut before operand).run true answers w = (.ok after, v) ↔
        operand.run true answers w = (.ok (true, after), v) := by
    show (operand >>= fun p => if p.1 then .done p.2 else .failed).run true answers w = _ ↔ _
    rw [run_bind]
    split
    · next p u ran =>
      rw [ran]
      obtain ⟨ok, out⟩ := p
      cases ok <;> simp [Program.run]
    · next stop u ran =>
      rw [ran]
      simp
  constructor
  · intro alike answers w after v ran
    have same := alike answers w after v ((checked answers w v after).mpr ran)
    rw [unchecked] at same
    obtain ⟨ok, world⟩ := Prod.mk.inj same
    exact ⟨(Except.ok.inj ok).symm, world.symm⟩
  · intro silent answers w after v ran
    obtain ⟨rfl, rfl⟩ := silent answers w after v ((checked answers w v after).mp ran)
    exact unchecked answers v

theorem check (condition : σ → Bool) :
    Alike (check (.read fun s => .done (condition s)) : Program σ κ ω Unit) := by
  refine (checkOut_iff _ _).mpr fun answers w after v ran => ?_
  obtain ⟨-, same⟩ := Prod.mk.inj ran
  exact ⟨rfl, same.symm⟩

end Alike

end CheckedProgram
