import Mathlib.Logic.Function.Basic

/-! Ordered or flat associative containers as partial functions. `emplace` keeps
an entry that is already there and says whether the new one went in. -/

namespace AssocMap

variable {κ ν : Type*} [DecidableEq κ]

abbrev Map (κ ν : Type*) := κ → Option ν

def emplace (m : Map κ ν) (key : κ) (value : ν) : Map κ ν × Bool :=
  if (m key).isSome then (m, false) else (Function.update m key (some value), true)

def erase (m : Map κ ν) (key : κ) : Map κ ν := Function.update m key none

theorem emplace_of_none {m : Map κ ν} {key : κ} (free : m key = none) (value : ν) :
    emplace m key value = (Function.update m key (some value), true) := by
  rw [emplace, free]
  rfl

theorem emplace_apply (m : Map κ ν) (key other : κ) (value : ν) :
    (emplace m key value).1 other =
      if other = key then some ((m key).getD value) else m other := by
  unfold emplace
  by_cases same : other = key
  · subst same
    cases h : m other <;> simp [h]
  · cases h : m key <;> simp [same]

theorem erase_eq_some {m : Map κ ν} {key other : κ} {value : ν} :
    erase m key other = some value ↔ other ≠ key ∧ m other = some value := by
  rw [erase, Function.update_apply]
  split
  case isTrue same => simp [same]
  case isFalse differ => simp [differ]

end AssocMap
