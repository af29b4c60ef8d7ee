import Mathlib.Data.List.TakeWhile

/-! Texts that end at a sentinel, such as C strings. A scan looks at one place after
another until it has found the sentinel, also at those behind the text. -/

namespace SentinelText

variable {α : Type*} [DecidableEq α] (stop : α)

/-- What stands before the first sentinel, or all if there is none. -/
def upTo (memory : List α) : List α := memory.takeWhile (· != stop)

/-- The places that the scan looks at: the text and the sentinel behind it. -/
def examined (memory : List α) : Nat := (upTo stop memory).length + 1

variable {stop} {xs : List α}

theorem upTo_append_of_mem (terminated : stop ∈ xs) (rest : List α) :
    upTo stop (xs ++ rest) = upTo stop xs := by
  induction xs with
  | nil => cases terminated
  | cons x xs ih =>
    rw [List.cons_append, upTo, upTo, List.takeWhile_cons, List.takeWhile_cons]
    by_cases here : x = stop
    · simp [here]
    · have later := (List.mem_cons.mp terminated).resolve_left (Ne.symm here)
      have same := ih later
      rw [upTo, upTo] at same
      rw [same]

theorem upTo_append_of_not_mem (open_ended : stop ∉ xs) (rest : List α) :
    upTo stop (xs ++ rest) = xs ++ upTo stop rest := by
  refine List.takeWhile_append_of_pos fun x member => bne_iff_ne.mpr ?_
  rintro rfl
  exact open_ended member

theorem length_upTo_lt (terminated : stop ∈ xs) : (upTo stop xs).length < xs.length := by
  refine Nat.lt_of_le_of_ne (List.takeWhile_prefix _).length_le fun same => ?_
  have whole := (List.takeWhile_prefix (· != stop)).eq_of_length same
  have differs := List.takeWhile_eq_self_iff.mp whole stop terminated
  exact bne_iff_ne.mp differs rfl

theorem examined_append_le_iff (rest : List α) :
    examined stop (xs ++ rest) ≤ xs.length ↔ stop ∈ xs := by
  constructor
  · intro inside
    by_contra open_ended
    rw [examined, upTo_append_of_not_mem open_ended, List.length_append] at inside
    omega
  · intro terminated
    rw [examined, upTo_append_of_mem terminated]
    exact length_upTo_lt terminated

@[simp] theorem upTo_replicate_stop (n : Nat) (rest : List α) :
    upTo stop (List.replicate n stop ++ stop :: rest) = [] := by
  cases n with
  | zero => simp [upTo]
  | succ n => simp [upTo, List.replicate_succ]

end SentinelText
