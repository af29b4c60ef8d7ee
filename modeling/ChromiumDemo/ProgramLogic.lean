import ChromiumDemo.CheckedProgram

/-! Weakest preconditions for programs with checks, and relations that a program keeps
between the world before it and the world in which it ends or stops. -/

namespace CheckedProgram

variable {σ κ ω τ α β γ : Type}

/-- The program ends with `Q`, or stops in a world with `E`. -/
def wp (checks : Bool) (answers : List κ → κ → ω) (E : World σ κ → Prop) (p : Program σ κ ω α)
    (Q : α → World σ κ → Prop) (w : World σ κ) : Prop :=
  match p.run checks answers w with
  | (.ok a, v) => Q a v
  | (.error _, v) => E v

theorem bind_assoc (p : Program σ κ ω α) (f : α → Program σ κ ω β) (g : β → Program σ κ ω γ) :
    p >>= f >>= g = p >>= fun a => f a >>= g := by
  show (p.bind f).bind g = p.bind fun a => (f a).bind g
  induction p with
  | done a => rfl
  | call c next ih => exact congrArg (Program.call c) (funext ih)
  | read next ih => exact congrArg Program.read (funext ih)
  | write s next ih => exact congrArg (Program.write s) ih
  | build checked unchecked checked_ih unchecked_ih =>
    exact congrArg₂ Program.build checked_ih unchecked_ih
  | crash => rfl
  | failed => rfl

theorem pure_bind (a : α) (f : α → Program σ κ ω β) : pure a >>= f = f a := rfl

theorem bind_pure (p : Program σ κ ω α) : p >>= pure = p := by
  show p.bind .done = p
  induction p with
  | done a => rfl
  | call c next ih => exact congrArg (Program.call c) (funext ih)
  | read next ih => exact congrArg Program.read (funext ih)
  | write s next ih => exact congrArg (Program.write s) ih
  | build checked unchecked checked_ih unchecked_ih =>
    exact congrArg₂ Program.build checked_ih unchecked_ih
  | crash => rfl
  | failed => rfl

theorem bind_unit (p : Program σ κ ω Unit) : (p >>= fun _ => pure ()) = p := bind_pure p

theorem onlyIf_pure (c : Prop) [Decidable c] :
    onlyIf c (pure () : Program σ κ ω Unit) = pure () := by
  rw [onlyIf]
  split <;> rfl

section Rules
variable {checks : Bool} {answers : List κ → κ → ω} {E : World σ κ → Prop}
  {p : Program σ κ ω α} {w : World σ κ}

theorem wp_pure {a : α} {Q : α → World σ κ → Prop} :
    wp checks answers E (pure a) Q w ↔ Q a w := Iff.rfl

theorem wp_ask {c : κ} {Q : ω → World σ κ → Prop} : wp checks answers E (ask c) Q w ↔
    Q (answers w.calls c) { w with calls := w.calls ++ [c] } := Iff.rfl

theorem wp_get {Q : σ → World σ κ → Prop} : wp checks answers E get Q w ↔ Q w.state w := Iff.rfl

theorem wp_modify {f : σ → σ} {Q : Unit → World σ κ → Prop} :
    wp checks answers E (modify f) Q w ↔ Q () { w with state := f w.state } := Iff.rfl

theorem wp_crash {Q : α → World σ κ → Prop} :
    wp checks answers E (.crash : Program σ κ ω α) Q w ↔ E w := Iff.rfl

theorem wp_bind {f : α → Program σ κ ω β} {Q : β → World σ κ → Prop} :
    wp checks answers E (p >>= f) Q w ↔
      wp checks answers E p (fun a v => wp checks answers E (f a) Q v) w := by
  rw [wp, run_bind, wp]
  obtain ⟨result, v⟩ := p.run checks answers w
  cases result <;> rfl

theorem wp_mono {Q R : α → World σ κ → Prop} (h : wp checks answers E p Q w)
    (weaker : ∀ a v, Q a v → R a v) : wp checks answers E p R w := by
  rw [wp] at h ⊢
  split at h
  · exact weaker _ _ h
  · exact h

theorem wp_imp {F : World σ κ → Prop} {Q R : α → World σ κ → Prop}
    (h : wp checks answers E p Q w) (stops : ∀ v, E v → F v) (ends : ∀ a v, Q a v → R a v) :
    wp checks answers F p R w := by
  rw [wp] at h ⊢
  split at h
  · exact ends _ _ h
  · exact stops _ h

theorem wp_seq {f : α → Program σ κ ω β} {Q : α → World σ κ → Prop}
    {R : β → World σ κ → Prop} (first : wp checks answers E p Q w)
    (next : ∀ a v, Q a v → wp checks answers E (f a) R v) :
    wp checks answers E (p >>= f) R w :=
  wp_bind.mpr (wp_mono first next)

theorem wp_ite {c : Prop} [Decidable c] {q : Program σ κ ω α} {Q : α → World σ κ → Prop} :
    wp checks answers E (if c then p else q) Q w ↔
      if c then wp checks answers E p Q w else wp checks answers E q Q w := by
  split <;> rfl

theorem wp_checkOut {before : β} {operand : Program σ κ ω (Bool × β)}
    {Q : β → World σ κ → Prop} : wp checks answers E (checkOut before operand) Q w ↔
      if checks then
        wp checks answers E operand (fun out v => if out.1 then Q out.2 v else E v) w
      else Q before w := by
  have verdict : ∀ (out : Bool × β) (v : World σ κ),
      wp true answers E (if out.1 then .done out.2 else .failed) Q v ↔
        if out.1 then Q out.2 v else E v := by
    intro out v
    split <;> rfl
  cases checks with
  | false => rfl
  | true =>
    show wp true answers E (operand >>= fun out => if out.1 then .done out.2 else .failed) Q w ↔ _
    rw [wp_bind, if_pos rfl]
    exact ⟨fun h => wp_mono h fun out v => (verdict out v).mp,
      fun h => wp_mono h fun out v => (verdict out v).mpr⟩

theorem wp_check {operand : Program σ κ ω Bool} {Q : Unit → World σ κ → Prop} :
    wp checks answers E (check operand) Q w ↔
      if checks then
        wp checks answers E operand (fun ok v => if ok then Q () v else E v) w
      else Q () w := by
  rw [check, wp_checkOut]
  cases checks with
  | false => rfl
  | true => exact wp_bind (f := fun ok => .done (ok, ()))

theorem wp_world : wp checks answers E p (fun _ => E) w ↔ E (p.run checks answers w).2 := by
  rw [wp]
  split
  · next a v ran => rw [ran]
  · next stop v ran => rw [ran]

theorem of_wp {Q : α → World σ κ → Prop} (h : wp checks answers E p Q w) {a : α} {v : World σ κ}
    (ran : p.run checks answers w = (.ok a, v)) : Q a v := by
  rw [wp, ran] at h
  exact h

end Rules

/-- `R` relates the world before the program to the one in which it ends or stops. -/
def Keeps (R : World σ κ → World σ κ → Prop) (p : Program σ κ ω α) : Prop :=
  ∀ checks answers w, R w (p.run checks answers w).2

namespace Keeps

variable {R : World σ κ → World σ κ → Prop}

theorem ite {c : Prop} [Decidable c] {p q : Program σ κ ω α} (yes : Keeps R p) (no : Keeps R q) :
    Keeps R (if c then p else q) := by
  split
  · exact yes
  · exact no

theorem wp_and {p : Program σ κ ω α} (h : Keeps R p) {checks : Bool}
    {answers : List κ → κ → ω} {E F : World σ κ → Prop} {w : World σ κ}
    {Q : α → World σ κ → Prop} (ends : CheckedProgram.wp checks answers F p Q w)
    (stops : ∀ v, F v → R w v → E v) :
    CheckedProgram.wp checks answers E p (fun a v => Q a v ∧ R w v) w := by
  have related := h checks answers w
  rw [CheckedProgram.wp] at ends ⊢
  generalize p.run checks answers w = out at related ends ⊢
  obtain ⟨result, v⟩ := out
  cases result with
  | ok a => exact ⟨ends, related⟩
  | error stop => exact stops v ends related

theorem wp {p : Program σ κ ω α} (h : Keeps R p) {checks : Bool} {answers : List κ → κ → ω}
    {E : World σ κ → Prop} {w : World σ κ} (stops : ∀ v, R w v → E v) :
    CheckedProgram.wp checks answers E p (fun _ v => R w v) w := by
  have ends : CheckedProgram.wp checks answers (fun _ => True) p (fun _ _ => True) w :=
    wp_world.mpr trivial
  exact wp_mono (h.wp_and ends fun v _ => stops v) fun _ _ both => both.2

variable [IsPreorder (World σ κ) R]

theorem done (a : α) : Keeps R (pure a : Program σ κ ω α) :=
  fun _ _ w => refl_of R w

theorem crash : Keeps R (.crash : Program σ κ ω α) :=
  fun _ _ w => refl_of R w

theorem get : Keeps R (get : Program σ κ ω σ) :=
  fun _ _ w => refl_of R w

theorem bind {p : Program σ κ ω α} {f : α → Program σ κ ω β} (first : Keeps R p)
    (next : ∀ a, Keeps R (f a)) : Keeps R (p >>= f) := by
  intro checks answers w
  have related := first checks answers w
  rw [run_bind]
  split
  · next a u ran =>
    rw [ran] at related
    exact trans_of R related (next a checks answers u)
  · next stop u ran =>
    rw [ran] at related
    exact related

theorem onlyIf {c : Prop} [Decidable c] {p : Program σ κ ω Unit} (part : Keeps R p) :
    Keeps R (onlyIf c p) :=
  ite part (done ())

theorem forM {f : β → Program σ κ ω PUnit} (each : ∀ b, Keeps R (f b)) (bs : List β) :
    Keeps R (bs.forM f) := by
  induction bs with
  | nil => exact done PUnit.unit
  | cons b bs ih => exact bind (each b) fun _ => ih

theorem checkOut {before : β} {operand : Program σ κ ω (Bool × β)} (part : Keeps R operand) :
    Keeps R (checkOut before operand) := by
  have verdict : ∀ out : Bool × β,
      Keeps R (if out.1 then .done out.2 else .failed : Program σ κ ω β) := by
    intro out checks answers w
    split <;> exact refl_of R w
  intro checks answers w
  cases checks with
  | false => exact refl_of R w
  | true => exact bind part verdict true answers w

theorem check {operand : Program σ κ ω Bool} (part : Keeps R operand) : Keeps R (check operand) :=
  checkOut (bind part fun ok => done (ok, ()))

end Keeps

/-- From `w` to `v` there are `lo` to `hi` calls in `f`, and `g` reads the same. -/
structure Made (f : κ → Bool) (g : σ → τ) (lo hi : Nat) (w v : World σ κ) : Prop where
  state : g v.state = g w.state
  least : w.calls.countP f + lo ≤ v.calls.countP f
  most : v.calls.countP f ≤ w.calls.countP f + hi

def Makes (f : κ → Bool) (g : σ → τ) (lo hi : Nat) (p : Program σ κ ω α) : Prop :=
  ∀ checks answers w, wp checks answers (Made f g 0 hi w) p (fun _ v => Made f g lo hi w v) w

namespace Makes

variable {f : κ → Bool} {g : σ → τ} {lo hi m n : Nat} {p : Program σ κ ω α}

theorem same (w : World σ κ) : Made f g 0 0 w w := ⟨rfl, le_rfl, le_rfl⟩

theorem weaken (h : Makes f g lo hi p) (least : m ≤ lo) (most : hi ≤ n) : Makes f g m n p := by
  intro checks answers w
  refine wp_imp (h checks answers w) (fun v made => ?_) (fun _ v made => ?_)
  · exact ⟨made.state, made.least, made.most.trans (Nat.add_le_add_left most _)⟩
  · exact ⟨made.state, (Nat.add_le_add_left least _).trans made.least,
      made.most.trans (Nat.add_le_add_left most _)⟩

theorem done (a : α) : Makes f g 0 0 (pure a : Program σ κ ω α) := fun _ _ w => same w

theorem crash : Makes f g lo hi (.crash : Program σ κ ω α) := by
  intro checks answers w
  exact wp_crash.mpr ⟨rfl, le_rfl, Nat.le_add_right _ _⟩

theorem failed : Makes f g lo hi (.failed : Program σ κ ω α) := by
  intro checks answers w
  exact ⟨rfl, le_rfl, Nat.le_add_right _ _⟩

theorem get : Makes f g 0 0 (get : Program σ κ ω σ) := fun _ _ w => same w

theorem modify {h : σ → σ} (keeps : ∀ s, g (h s) = g s) :
    Makes f g 0 0 (modify h : Program σ κ ω Unit) :=
  fun _ _ w => ⟨keeps w.state, le_rfl, le_rfl⟩

theorem ask_other {c : κ} (other : f c = false) : Makes f g 0 0 (ask c : Program σ κ ω ω) := by
  intro checks answers w
  have count : (w.calls ++ [c]).countP f = w.calls.countP f := by simp [other]
  exact wp_ask.mpr ⟨rfl, count.ge, count.le⟩

theorem ask {c : κ} (counts : f c = true) : Makes f g 1 1 (ask c : Program σ κ ω ω) := by
  intro checks answers w
  have count : (w.calls ++ [c]).countP f = w.calls.countP f + 1 := by simp [counts]
  exact wp_ask.mpr ⟨rfl, count.ge, count.le⟩

theorem bind {q : α → Program σ κ ω β} (first : Makes f g lo hi p)
    (next : ∀ a, Makes f g m n (q a)) : Makes f g (lo + m) (hi + n) (p >>= q) := by
  intro checks answers w
  have before := wp_imp (first checks answers w)
    (fun v made => ⟨made.state, made.least, made.most.trans (by omega)⟩ :
      ∀ v, Made f g 0 hi w v → Made f g 0 (hi + n) w v) fun _ _ made => made
  refine wp_seq before fun a u made => ?_
  refine wp_imp (next a checks answers u) (fun v more => ?_) (fun _ v more => ?_)
  · have := made.least
    have := made.most
    have := more.least
    have := more.most
    exact ⟨more.state.trans made.state, by omega, by omega⟩
  · have := made.least
    have := made.most
    have := more.least
    have := more.most
    exact ⟨more.state.trans made.state, by omega, by omega⟩

theorem after {q : α → Program σ κ ω β} (first : Makes f g 0 0 p)
    (next : ∀ a, Makes f g lo hi (q a)) : Makes f g lo hi (p >>= q) := by
  simpa using first.bind next

theorem before {q : α → Program σ κ ω β} (first : Makes f g lo hi p)
    (next : ∀ a, Makes f g 0 0 (q a)) : Makes f g lo hi (p >>= q) :=
  first.bind next

theorem ite {c : Prop} [Decidable c] {q : Program σ κ ω α} (yes : Makes f g lo hi p)
    (no : Makes f g lo hi q) : Makes f g lo hi (if c then p else q) := by
  split
  · exact yes
  · exact no

theorem onlyIf {c : Prop} [Decidable c] {p : Program σ κ ω Unit} (part : Makes f g 0 hi p) :
    Makes f g 0 hi (onlyIf c p) :=
  ite part ((done ()).weaken le_rfl (Nat.zero_le hi))

theorem forM {q : β → Program σ κ ω PUnit} (each : ∀ b, Makes f g 0 0 (q b)) (bs : List β) :
    Makes f g 0 0 (bs.forM q) := by
  induction bs with
  | nil => exact done PUnit.unit
  | cons b bs ih => exact after (each b) fun _ => ih

theorem checkOut {before : β} {operand : Program σ κ ω (Bool × β)}
    (part : Makes f g 0 0 operand) : Makes f g 0 0 (checkOut before operand) := by
  intro checks answers w
  cases checks with
  | false => exact same w
  | true => exact part.after (fun _ => .ite (done _) .failed) true answers w

theorem check {operand : Program σ κ ω Bool} (part : Makes f g 0 0 operand) :
    Makes f g 0 0 (check operand) :=
  checkOut (part.after fun ok => done (ok, ()))

end Makes

end CheckedProgram
