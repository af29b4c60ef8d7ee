import Mathlib.Data.List.Nodup
import Mathlib.Logic.Function.Basic

/-! What lending is for, whoever keeps the books: `out` are the leases in force
and `settled` what has come back, in order. A lease is in one of the two places
and, when the things lent are told apart by a key, comes back once. -/

namespace LeaseLedger

variable {β : Type*}

structure Ledger (β : Type*) where
  out : Nat → Option β := fun _ => none
  settled : List β := []

namespace Ledger

def lend (id : Nat) (b : β) (l : Ledger β) : Ledger β :=
  { l with out := Function.update l.out id (some b) }

def settle (l : Ledger β) (id : Nat) : Ledger β where
  out := Function.update l.out id none
  settled := l.settled ++ (l.out id).toList

theorem lend_out (id : Nat) (b : β) (l : Ledger β) (other : Nat) :
    (l.lend id b).out other = if other = id then some b else l.out other :=
  Function.update_apply ..

theorem settle_out (l : Ledger β) (id other : Nat) :
    (l.settle id).out other = if other = id then none else l.out other :=
  Function.update_apply ..

theorem settle_settled (l : Ledger β) (id : Nat) :
    (l.settle id).settled = l.settled ++ (l.out id).toList := rfl

def settleAll (ids : List Nat) (l : Ledger β) : Ledger β := ids.foldl settle l

@[simp] theorem settleAll_nil (l : Ledger β) : l.settleAll [] = l := rfl

@[simp] theorem settleAll_cons (id : Nat) (ids : List Nat) (l : Ledger β) :
    l.settleAll (id :: ids) = (l.settle id).settleAll ids := rfl

theorem settleAll_out (ids : List Nat) (l : Ledger β) (id : Nat) :
    (l.settleAll ids).out id = if id ∈ ids then none else l.out id := by
  induction ids generalizing l with
  | nil => simp
  | cons other ids ih =>
    rw [settleAll_cons, ih]
    by_cases same : id = other
    · simp [settle_out, same]
    · simp [settle_out, same]

theorem settleAll_settled {ids : List Nat} (distinct : ids.Nodup) (l : Ledger β) :
    (l.settleAll ids).settled = l.settled ++ ids.filterMap l.out := by
  induction ids generalizing l with
  | nil => simp
  | cons id ids ih =>
    obtain ⟨new, distinct⟩ := List.nodup_cons.mp distinct
    have rest : ids.filterMap (l.settle id).out = ids.filterMap l.out := by
      refine List.filterMap_congr fun other member => ?_
      have differ : other ≠ id := fun same => new (same ▸ member)
      rw [settle_out, if_neg differ]
    rw [settleAll_cons, ih distinct, rest, settle_settled]
    cases lease : l.out id <;> simp [lease]

/-- Nothing is in two places: keys below `bound`, each of one lease at most. -/
structure Unique (key : β → Nat) (bound : Nat) (l : Ledger β) : Prop where
  out_lt : ∀ id b, l.out id = some b → key b < bound
  settled_lt : ∀ b ∈ l.settled, key b < bound
  apart : ∀ id b, l.out id = some b → key b ∉ l.settled.map key
  injective : ∀ id other b c, l.out id = some b → l.out other = some c → key b = key c → id = other
  once : (l.settled.map key).Nodup

theorem unique_empty (key : β → Nat) (bound : Nat) : Unique key bound ({} : Ledger β) where
  out_lt id b h := by cases h
  settled_lt b h := by cases h
  apart id b h := by cases h
  injective id other b c h := by cases h
  once := List.nodup_nil

theorem Unique.lend {key : β → Nat} {bound : Nat} {l : Ledger β} (h : Unique key bound l)
    (id : Nat) {b : β} (fresh : key b = bound) : Unique key (bound + 1) (l.lend id b) := by
  have lease : ∀ other c, (l.lend id b).out other = some c →
      (other = id ∧ c = b) ∨ (other ≠ id ∧ l.out other = some c) := by
    intro other c out
    rw [lend_out] at out
    split at out
    case isTrue same => exact .inl ⟨same, (Option.some.inj out).symm⟩
    case isFalse differ => exact .inr ⟨differ, out⟩
  have settled : ∀ c ∈ l.settled, key c < bound := h.settled_lt
  refine ⟨?_, ?_, ?_, ?_, h.once⟩
  · intro other c out
    obtain ⟨-, rfl⟩ | ⟨-, out⟩ := lease other c out
    · omega
    · have := h.out_lt other c out
      omega
  · intro c member
    have := settled c member
    omega
  · intro other c out
    obtain ⟨-, rfl⟩ | ⟨-, out⟩ := lease other c out
    · intro member
      obtain ⟨d, member, same⟩ := List.mem_map.mp member
      have := settled d member
      omega
    · exact h.apart other c out
  · intro i j c d left right same
    obtain ⟨hi, rfl⟩ | ⟨-, outI⟩ := lease i c left <;>
      obtain ⟨hj, rfl⟩ | ⟨-, outJ⟩ := lease j d right
    · exact hi.trans hj.symm
    · have := h.out_lt j d outJ
      omega
    · have := h.out_lt i c outI
      omega
    · exact h.injective i j c d outI outJ same

theorem Unique.settle {key : β → Nat} {bound : Nat} {l : Ledger β} (h : Unique key bound l)
    (id : Nat) : Unique key bound (l.settle id) := by
  have kept : ∀ other c, (l.settle id).out other = some c → other ≠ id ∧ l.out other = some c := by
    intro other c out
    rw [settle_out] at out
    split at out
    case isTrue => cases out
    case isFalse differ => exact ⟨differ, out⟩
  refine ⟨fun other c out => h.out_lt other c (kept other c out).2, ?_, ?_, ?_, ?_⟩
  · intro c member
    rw [settle_settled, List.mem_append, Option.mem_toList] at member
    exact member.elim (h.settled_lt c) (h.out_lt id c)
  · intro other c out member
    obtain ⟨differ, out⟩ := kept other c out
    rw [settle_settled, List.map_append, List.mem_append] at member
    refine member.elim (h.apart other c out) fun member => ?_
    obtain ⟨d, member, same⟩ := List.mem_map.mp member
    exact differ (h.injective id other d c (Option.mem_toList.mp member) out same).symm
  · intro i j c d left right
    exact h.injective i j c d (kept i c left).2 (kept j d right).2
  · rw [settle_settled, List.map_append]
    cases lease : l.out id with
    | none => simpa using h.once
    | some b =>
      have new := h.apart id b lease
      simp only [Option.toList_some, List.map_cons, List.map_nil]
      exact List.concat_eq_append ▸ h.once.concat new

theorem Unique.settleAll {key : β → Nat} {bound : Nat} {l : Ledger β} (h : Unique key bound l)
    (ids : List Nat) : Unique key bound (l.settleAll ids) := by
  induction ids generalizing l with
  | nil => exact h
  | cons id ids ih => exact ih (h.settle id)

end Ledger

end LeaseLedger
