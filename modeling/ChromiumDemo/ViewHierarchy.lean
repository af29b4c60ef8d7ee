import Mathlib.Data.List.Nodup
import Mathlib.Logic.Function.Basic

/-! Views and their groups. A group keeps the list of its children and a view
keeps its parent, and the two always say the same. Adding a view that has a parent
is an error, and removing one that is not a child does nothing. -/

namespace ViewHierarchy

variable {V : Type*}

structure Hierarchy (V : Type*) where
  children : V → List V
  parent : V → Option V
  linked : ∀ p c, c ∈ children p ↔ parent c = some p
  nodup : ∀ p, (children p).Nodup

namespace Hierarchy

def apart : Hierarchy V where
  children _ := []
  parent _ := none
  linked _ _ := by simp
  nodup _ := List.nodup_nil

@[simp] theorem apart_parent (c : V) : (apart : Hierarchy V).parent c = none := rfl

theorem parent_unique (h : Hierarchy V) {p q c : V} (left : c ∈ h.children p)
    (right : c ∈ h.children q) : p = q := by
  rw [h.linked] at left right
  exact Option.some.inj (left.symm.trans right)

variable [DecidableEq V]

def link (p c : V) (h : Hierarchy V) (free : h.parent c = none) : Hierarchy V where
  children := Function.update h.children p (h.children p ++ [c])
  parent := Function.update h.parent c (some p)
  linked q d := by
    have old := h.linked q d
    simp only [Function.update_apply]
    by_cases same : d = c
    · rw [same, free] at old
      rw [same]
      by_cases at_p : q = p
      · simp [at_p]
      · simpa [at_p, Ne.symm at_p] using old
    · by_cases at_p : q = p
      · rw [at_p] at old
        simpa [at_p, same] using old
      · simpa [at_p, same] using old
  nodup q := by
    have outside : c ∉ h.children p := by
      rw [h.linked, free]
      exact fun absurd => nomatch absurd
    simp only [Function.update_apply]
    split
    · exact List.Nodup.append (h.nodup p) (List.nodup_singleton c) (by simpa using outside)
    · exact h.nodup q

/-- `none` when the child already has a parent. -/
def addView (p c : V) (h : Hierarchy V) : Option (Hierarchy V) :=
  if free : h.parent c = none then some (h.link p c free) else none

def removeView (p c : V) (h : Hierarchy V) : Hierarchy V where
  children := Function.update h.children p ((h.children p).erase c)
  parent := if h.parent c = some p then Function.update h.parent c none else h.parent
  linked q d := by
    have old := h.linked q d
    have here := h.linked p c
    simp only [Function.update_apply]
    by_cases child : h.parent c = some p
    · rw [if_pos child, Function.update_apply]
      by_cases at_p : q = p
      · rw [at_p] at old
        rw [if_pos at_p, (h.nodup p).mem_erase_iff, old, at_p]
        by_cases same : d = c
        · simp [same]
        · simp [same]
      · rw [if_neg at_p, old]
        by_cases same : d = c
        · simp [same, child, Ne.symm at_p]
        · simp [same]
    · rw [if_neg child]
      by_cases at_p : q = p
      · rw [if_pos at_p, List.erase_of_not_mem (fun member => child (here.mp member)), at_p]
        exact h.linked p d
      · rw [if_neg at_p]
        exact old
  nodup q := by
    simp only [Function.update_apply]
    split
    · exact (h.nodup p).erase c
    · exact h.nodup q

theorem addView_of_free {p c : V} {h : Hierarchy V} (free : h.parent c = none) :
    h.addView p c = some (h.link p c free) := by
  rw [addView, dif_pos free]

@[simp] theorem link_parent (p c d : V) (h : Hierarchy V) (free : h.parent c = none) :
    (h.link p c free).parent d = if d = c then some p else h.parent d :=
  Function.update_apply ..

@[simp] theorem removeView_parent (p c d : V) (h : Hierarchy V) :
    (h.removeView p c).parent d = if d = c ∧ h.parent c = some p then none else h.parent d := by
  simp only [removeView]
  by_cases child : h.parent c = some p
  · simp [child, Function.update_apply]
  · simp [child]

end Hierarchy

end ViewHierarchy
