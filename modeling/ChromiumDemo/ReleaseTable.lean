import ChromiumDemo.LeaseLedger

/-! Tables of imported resources that are lent to another party. An entry counts
its exports and may be marked for removal; it is released, and its payload handed
back, when it is marked and its count is zero. `ReleaseTable` is any implementation
that behaves so, `counting` the obvious one. A table whose entries are exported
once each keeps a ledger, and the ledger settles in either order of the two steps
that release: removal before return or return before removal. -/

namespace ReleaseTable
open LeaseLedger

structure Entry (β : Type*) where
  payload : β
  exported : Nat := 0
  marked : Bool := false

structure Returned where
  id : Nat
  count : Nat
deriving DecidableEq

abbrev Entries (β : Type*) := Nat → Option (Entry β)

variable {β : Type*}

def Entry.kept (e : Entry β) : Option (Entry β) :=
  if e.marked && e.exported == 0 then none else some e

def Entry.released (e : Entry β) : List β :=
  if e.marked && e.exported == 0 then [e.payload] else []

/-- `prepareSend` answers `none` where it refuses an id that is not imported. The returns
of a batch may be taken in any order. -/
structure Implementation (β : Type*) where
  Table : Type
  new : Table
  importResource : β → Table → Nat × Table
  prepareSend : Nat → Table → Option (β × Table)
  receiveReturns : List Returned → Table → Table × List β
  removeImported : Nat → Table → Table × List β
  entries : Table → Entries β
  entries_new : entries new = fun _ => none
  import_valid : ∀ b t, (importResource b t).1 ≠ 0
  import_fresh : ∀ b t, entries t (importResource b t).1 = none
  entries_import : ∀ b t, entries (importResource b t).2 =
    Function.update (entries t) (importResource b t).1 (some { payload := b })
  send_refused : ∀ id t, entries t id = none → prepareSend id t = none
  entries_send : ∀ id t e, entries t id = some e → ∃ t', prepareSend id t = some (e.payload, t') ∧
    entries t' = Function.update (entries t) id (some { e with exported := e.exported + 1 })
  receive_nil : ∀ t, receiveReturns [] t = (t, [])
  receive_cons : ∀ r rs t,
    entries (receiveReturns (r :: rs) t).1 =
        entries (receiveReturns rs (receiveReturns [r] t).1).1 ∧
      (receiveReturns (r :: rs) t).2.Perm
        ((receiveReturns [r] t).2 ++ (receiveReturns rs (receiveReturns [r] t).1).2)
  entries_receive : ∀ r t e, entries t r.id = some e → r.count ≤ e.exported →
    entries (receiveReturns [r] t).1 = Function.update (entries t) r.id
        { e with exported := e.exported - r.count }.kept ∧
      (receiveReturns [r] t).2 = { e with exported := e.exported - r.count }.released
  entries_remove : ∀ id t e, entries t id = some e →
    entries (removeImported id t).1 =
        Function.update (entries t) id { e with marked := true }.kept ∧
      (removeImported id t).2 = { e with marked := true }.released

namespace Implementation
variable (T : Implementation β)

def removeEach : List Nat → T.Table → T.Table × List β
  | [], t => (t, [])
  | id :: ids, t => ((removeEach ids (T.removeImported id t).1).1,
    (T.removeImported id t).2 ++ (removeEach ids (T.removeImported id t).1).2)

/-- The table behind a ledger, some ids of which have come back and some of which
are marked. -/
def Holds (t : T.Table) (l : Ledger β) (back marked : List Nat) : Prop :=
  T.entries t = fun id => (l.out id).map fun b =>
    ⟨b, if id ∈ back then 0 else 1, decide (id ∈ marked)⟩

/-- Exactly the leases in force, each exported once and not marked. -/
def Lent (t : T.Table) (l : Ledger β) : Prop := T.Holds t l [] []

def imported (table : Option T.Table) (id : Nat) : Bool :=
  match table with
  | none => false
  | some t => (T.entries t id).isSome

variable {T}

theorem Holds.entry {t : T.Table} {l : Ledger β} {back marked : List Nat}
    (h : T.Holds t l back marked) {id : Nat} {b : β} (out : l.out id = some b) :
    T.entries t id = some ⟨b, if id ∈ back then 0 else 1, decide (id ∈ marked)⟩ := by
  rw [h]
  simp only [out, Option.map_some]

theorem Lent.imported {t : T.Table} {l : Ledger β} (h : T.Lent t l) (id : Nat) :
    T.imported (some t) id = (l.out id).isSome := by
  rw [Implementation.imported, h]
  exact Option.isSome_map ..

theorem Lent.payload {t : T.Table} {l : Ledger β} (h : T.Lent t l) (id : Nat) :
    (T.entries t id).map Entry.payload = l.out id := by
  rw [h]
  show ((l.out id).map _).map Entry.payload = l.out id
  rw [Option.map_map]
  exact Option.map_id'

theorem lent_new : T.Lent T.new {} := by
  rw [Lent, Holds, T.entries_new]
  rfl

theorem Lent.not_out {t : T.Table} {l : Ledger β} (h : T.Lent t l) (b : β) :
    l.out (T.importResource b t).1 = none := by
  have fresh := T.import_fresh b t
  rw [h] at fresh
  exact Option.map_eq_none_iff.mp fresh

theorem Lent.export {t : T.Table} {l : Ledger β} (h : T.Lent t l) (b : β) :
    ∃ t', T.prepareSend (T.importResource b t).1 (T.importResource b t).2 = some (b, t') ∧
      T.Lent t' (l.lend (T.importResource b t).1 b) := by
  have imported : T.entries (T.importResource b t).2 (T.importResource b t).1 =
      some { payload := b } := by
    rw [T.entries_import, Function.update_self]
  obtain ⟨t', sent, entries⟩ := T.entries_send _ _ _ imported
  refine ⟨t', sent, ?_⟩
  rw [Lent, Holds, entries, T.entries_import, Function.update_idem]
  funext other
  by_cases same : other = (T.importResource b t).1
  · rw [same, Function.update_self, Ledger.lend_out, if_pos rfl]
    rfl
  · rw [Function.update_of_ne same, Ledger.lend_out, if_neg same, h]

theorem Holds.settle {t : T.Table} {l : Ledger β} {back marked : List Nat}
    (h : T.Holds t l back marked) {t' : T.Table} {id : Nat}
    (gone : T.entries t' = Function.update (T.entries t) id none) :
    T.Holds t' (l.settle id) back marked := by
  rw [Holds, gone]
  funext other
  rw [Function.update_apply, Ledger.settle_out, h]
  split <;> rfl

theorem Holds.mark {t : T.Table} {l : Ledger β} {marked : List Nat}
    (h : T.Holds t l [] marked) {id : Nat} {b : β} (out : l.out id = some b) :
    T.Holds (T.removeImported id t).1 l [] (id :: marked) ∧ (T.removeImported id t).2 = [] := by
  obtain ⟨entries, released⟩ := T.entries_remove id t _ (h.entry out)
  refine ⟨?_, released⟩
  rw [Holds, entries]
  funext other
  rw [Function.update_apply, h]
  split
  case isTrue same =>
    subst same
    simp [out, Entry.kept]
  case isFalse differ => simp [differ]

theorem Holds.receiveMarked {t : T.Table} {l : Ledger β} {marked : List Nat}
    (h : T.Holds t l [] marked) {r : Returned} (whole : r.count = 1) {b : β}
    (out : l.out r.id = some b) (member : r.id ∈ marked) :
    T.Holds (T.receiveReturns [r] t).1 (l.settle r.id) [] marked ∧
      (T.receiveReturns [r] t).2 = [b] := by
  obtain ⟨entries, released⟩ := T.entries_receive r t _ (h.entry out) (by simp [whole])
  rw [released]
  simp only [whole, member, Entry.kept, Entry.released, List.not_mem_nil, if_false, decide_true,
    Nat.sub_self, BEq.rfl, Bool.and_self, if_true] at entries ⊢
  exact ⟨h.settle entries, trivial⟩

theorem Holds.receive {t : T.Table} {l : Ledger β} {back : List Nat}
    (h : T.Holds t l back []) {r : Returned} (whole : r.count = 1) {b : β}
    (out : l.out r.id = some b) (new : r.id ∉ back) :
    T.Holds (T.receiveReturns [r] t).1 l (r.id :: back) [] ∧ (T.receiveReturns [r] t).2 = [] := by
  obtain ⟨entries, released⟩ := T.entries_receive r t _ (h.entry out) (by simp [whole, new])
  refine ⟨?_, released⟩
  rw [Holds, entries]
  funext other
  rw [Function.update_apply, h]
  split
  case isTrue same =>
    subst same
    simp [out, Entry.kept, whole, new]
  case isFalse differ => simp [differ]

theorem Holds.removeBack {t : T.Table} {l : Ledger β} {back : List Nat}
    (h : T.Holds t l back []) {id : Nat} {b : β} (out : l.out id = some b) (member : id ∈ back) :
    T.Holds (T.removeImported id t).1 (l.settle id) back [] ∧ (T.removeImported id t).2 = [b] := by
  obtain ⟨entries, released⟩ := T.entries_remove id t _ (h.entry out)
  rw [released]
  simp only [member, Entry.kept, Entry.released, if_true, BEq.rfl, Bool.and_self] at entries ⊢
  exact ⟨h.settle entries, trivial⟩

end Implementation

def ids (rs : List Returned) : List Nat := rs.map Returned.id

/-- Returns that a ledger can take: whole exports of distinct leases in force. -/
structure Takes (l : Ledger β) (rs : List Returned) : Prop where
  distinct : (ids rs).Nodup
  out : ∀ r ∈ rs, (l.out r.id).isSome
  whole : ∀ r ∈ rs, r.count = 1

instance (l : Ledger β) (rs : List Returned) : Decidable (Takes l rs) :=
  decidable_of_iff ((ids rs).Nodup ∧ (∀ r ∈ rs, (l.out r.id).isSome) ∧
    ∀ r ∈ rs, r.count = 1) ⟨fun h => ⟨h.1, h.2.1, h.2.2⟩, fun h => ⟨h.distinct, h.out, h.whole⟩⟩

theorem settled_gone {rs : List Returned} {id : Nat} (member : id ∈ ids rs) (l : Ledger β) :
    (l.settleAll (ids rs)).out id = none := by
  rw [Ledger.settleAll_out, if_pos member]

theorem Takes.tail {l : Ledger β} {r : Returned} {rs : List Returned} (h : Takes l (r :: rs)) :
    Takes (l.settle r.id) rs := by
  obtain ⟨new, distinct⟩ := List.nodup_cons.mp h.distinct
  refine ⟨distinct, fun s member => ?_, fun s member => h.whole s (List.mem_cons_of_mem r member)⟩
  have differ : s.id ≠ r.id := fun same => new (same ▸ List.mem_map_of_mem member)
  rw [Ledger.settle_out, if_neg differ]
  exact h.out s (List.mem_cons_of_mem r member)

theorem Takes.filterMap {l : Ledger β} {r : Returned} {rs : List Returned}
    (h : Takes l (r :: rs)) {b : β} (out : l.out r.id = some b) :
    (ids (r :: rs)).filterMap l.out = b :: (ids rs).filterMap (l.settle r.id).out := by
  have new := (List.nodup_cons.mp h.distinct).1
  rw [ids, List.map_cons, List.filterMap_cons_some out]
  congr 1
  refine List.filterMap_congr fun id member => ?_
  have differ : id ≠ r.id := fun same => new (same ▸ member)
  rw [Ledger.settle_out, if_neg differ]

namespace Implementation
variable {T : Implementation β}

theorem Holds.lent {t : T.Table} {l : Ledger β} {back marked : List Nat}
    (h : T.Holds t l back marked)
    (gone : ∀ id, id ∈ back ∨ id ∈ marked → l.out id = none) : T.Lent t l := by
  rw [Lent, Holds, h]
  funext id
  by_cases left : id ∈ back ∨ id ∈ marked
  · rw [gone id left]
    rfl
  · rw [not_or] at left
    simp [left]

theorem markEach {l : Ledger β} (done : List Nat) {t : T.Table} {marked : List Nat}
    (h : T.Holds t l [] marked) (out : ∀ id ∈ done, (l.out id).isSome) :
    T.Holds (T.removeEach done t).1 l [] (done.reverse ++ marked) ∧
      (T.removeEach done t).2 = [] := by
  induction done generalizing t marked with
  | nil => exact ⟨h, rfl⟩
  | cons id rest ih =>
    obtain ⟨first, out⟩ := List.forall_mem_cons.mp out
    obtain ⟨b, first⟩ := Option.isSome_iff_exists.mp first
    obtain ⟨marks, none_yet⟩ := h.mark first
    obtain ⟨holds, none_later⟩ := ih marks out
    rw [List.reverse_cons, List.append_assoc]
    exact ⟨holds, by rw [removeEach, none_yet, none_later, List.append_nil]⟩

theorem Holds.receiveAll {t : T.Table} {l : Ledger β} {back marked : List Nat} {r : Returned}
    {rs : List Returned}
    (h : T.Holds (T.receiveReturns rs (T.receiveReturns [r] t).1).1 l back marked) :
    T.Holds (T.receiveReturns (r :: rs) t).1 l back marked :=
  (T.receive_cons r rs t).1.trans h

theorem receiveMarkedEach (rs : List Returned) {t : T.Table} {l : Ledger β} {marked : List Nat}
    (h : T.Holds t l [] marked) (takes : Takes l rs) (member : ∀ r ∈ rs, r.id ∈ marked) :
    T.Holds (T.receiveReturns rs t).1 (l.settleAll (ids rs)) [] marked ∧
      (T.receiveReturns rs t).2.Perm ((ids rs).filterMap l.out) := by
  induction rs generalizing t l with
  | nil =>
    rw [T.receive_nil]
    exact ⟨h, .nil⟩
  | cons r rs ih =>
    obtain ⟨b, out⟩ := Option.isSome_iff_exists.mp (takes.out r List.mem_cons_self)
    obtain ⟨first, rest⟩ := List.forall_mem_cons.mp member
    obtain ⟨holds, released⟩ := h.receiveMarked (takes.whole r List.mem_cons_self) out first
    obtain ⟨last, others⟩ := ih holds takes.tail rest
    refine ⟨last.receiveAll, (T.receive_cons r rs t).2.trans ?_⟩
    rw [released, takes.filterMap out]
    exact others.cons b

theorem receiveEach (rs : List Returned) {t : T.Table} {l : Ledger β} {back : List Nat}
    (h : T.Holds t l back []) (distinct : (ids rs).Nodup) (out : ∀ r ∈ rs, (l.out r.id).isSome)
    (whole : ∀ r ∈ rs, r.count = 1) (new : ∀ r ∈ rs, r.id ∉ back) :
    T.Holds (T.receiveReturns rs t).1 l ((ids rs).reverse ++ back) [] ∧
      (T.receiveReturns rs t).2 = [] := by
  induction rs generalizing t back with
  | nil =>
    rw [T.receive_nil]
    exact ⟨h, rfl⟩
  | cons r rs ih =>
    obtain ⟨first, out⟩ := List.forall_mem_cons.mp out
    obtain ⟨b, first⟩ := Option.isSome_iff_exists.mp first
    obtain ⟨one, whole⟩ := List.forall_mem_cons.mp whole
    obtain ⟨absent, new⟩ := List.forall_mem_cons.mp new
    obtain ⟨apart, distinct⟩ := List.nodup_cons.mp distinct
    obtain ⟨holds, none_yet⟩ := h.receive one first absent
    have later : ∀ s ∈ rs, s.id ∉ r.id :: back := by
      intro s member
      have differ : s.id ≠ r.id := fun same => apart (same ▸ List.mem_map_of_mem member)
      simp [differ, new s member]
    obtain ⟨last, none_later⟩ := ih holds distinct out whole later
    have together := (T.receive_cons r rs t).2
    rw [none_yet, none_later, List.append_nil] at together
    rw [ids, List.map_cons, List.reverse_cons, List.append_assoc]
    exact ⟨last.receiveAll, together.eq_nil⟩

theorem removeBackEach (rs : List Returned) {t : T.Table} {l : Ledger β} {back : List Nat}
    (h : T.Holds t l back []) (takes : Takes l rs) (member : ∀ r ∈ rs, r.id ∈ back) :
    T.Holds (T.removeEach (ids rs) t).1 (l.settleAll (ids rs)) back [] ∧
      (T.removeEach (ids rs) t).2 = (ids rs).filterMap l.out := by
  induction rs generalizing t l with
  | nil => exact ⟨h, rfl⟩
  | cons r rs ih =>
    obtain ⟨b, out⟩ := Option.isSome_iff_exists.mp (takes.out r List.mem_cons_self)
    obtain ⟨first, rest⟩ := List.forall_mem_cons.mp member
    obtain ⟨holds, released⟩ := h.removeBack out first
    obtain ⟨last, others⟩ := ih holds takes.tail rest
    refine ⟨last, ?_⟩
    rw [takes.filterMap out, ids, List.map_cons, removeEach, released, ← ids, others]
    rfl

/-- Removing first and then receiving settles the leases that came back. -/
theorem Lent.removeReceive {t : T.Table} {l : Ledger β} (h : T.Lent t l) {rs : List Returned}
    (takes : Takes l rs) :
    T.Lent (T.receiveReturns rs (T.removeEach (ids rs) t).1).1 (l.settleAll (ids rs)) ∧
      ((T.removeEach (ids rs) t).2 ++ (T.receiveReturns rs (T.removeEach (ids rs) t).1).2).Perm
        ((ids rs).filterMap l.out) := by
  have out : ∀ id ∈ ids rs, (l.out id).isSome := by
    intro id member
    obtain ⟨r, back, rfl⟩ := List.mem_map.mp member
    exact takes.out r back
  obtain ⟨marked, none_yet⟩ := markEach (ids rs) h out
  rw [List.append_nil] at marked
  obtain ⟨holds, released⟩ := receiveMarkedEach rs marked takes
    fun r member => List.mem_reverse.mpr (List.mem_map_of_mem member)
  refine ⟨holds.lent fun id left => settled_gone ?_ l, ?_⟩
  · simpa using left
  · rw [none_yet, List.nil_append]
    exact released

theorem Lent.receiveRemove {t : T.Table} {l : Ledger β} (h : T.Lent t l) {rs : List Returned}
    (takes : Takes l rs) :
    T.Lent (T.removeEach (ids rs) (T.receiveReturns rs t).1).1 (l.settleAll (ids rs)) ∧
      (T.receiveReturns rs t).2 ++ (T.removeEach (ids rs) (T.receiveReturns rs t).1).2 =
        (ids rs).filterMap l.out := by
  obtain ⟨back, none_yet⟩ := receiveEach rs h takes.distinct takes.out takes.whole
    fun r _ => List.not_mem_nil
  rw [List.append_nil] at back
  obtain ⟨holds, released⟩ := removeBackEach rs back takes
    fun r member => List.mem_reverse.mpr (List.mem_map_of_mem member)
  refine ⟨holds.lent fun id left => settled_gone ?_ l, ?_⟩
  · simpa using left
  · rw [none_yet, released, List.nil_append]

end Implementation

structure Counting (β : Type) where
  nextId : Nat
  entries : Entries β
  zero : entries 0 = none
  below : ∀ id, nextId ≤ id → entries id = none
  positive : 0 < nextId

namespace Counting
variable {β : Type}

def new : Counting β := ⟨1, fun _ => none, rfl, fun _ _ => rfl, Nat.one_pos⟩

def importResource (b : β) (t : Counting β) : Nat × Counting β where
  fst := t.nextId
  snd :=
    { nextId := t.nextId + 1
      entries := Function.update t.entries t.nextId (some { payload := b })
      zero := by
        have differ : 0 ≠ t.nextId := Nat.ne_of_lt t.positive
        rw [Function.update_of_ne differ, t.zero]
      below := fun id le => by
        have differ : id ≠ t.nextId := by omega
        rw [Function.update_of_ne differ, t.below id (by omega)]
      positive := by omega }

def change (id : Nat) (f : Entry β → Option (Entry β)) (t : Counting β) : Counting β where
  nextId := t.nextId
  entries := Function.update t.entries id ((t.entries id).bind f)
  zero := by
    rw [Function.update_apply, t.zero]
    split
    case isTrue same => rw [← same, t.zero, Option.bind_none]
    case isFalse => rfl
  below other le := by
    rw [Function.update_apply, t.below other le]
    split
    case isTrue same => rw [← same, t.below other le, Option.bind_none]
    case isFalse => rfl
  positive := t.positive

def prepareSend (id : Nat) (t : Counting β) : Option (β × Counting β) :=
  (t.entries id).map fun e =>
    (e.payload, t.change id fun e => some { e with exported := e.exported + 1 })

def receiveReturns : List Returned → Counting β → Counting β × List β
  | [], t => (t, [])
  | r :: rs, t =>
    let after (e : Entry β) : Entry β := { e with exported := e.exported - r.count }
    let rest := receiveReturns rs (t.change r.id fun e => (after e).kept)
    (rest.1, ((t.entries r.id).map fun e => (after e).released).getD [] ++ rest.2)

def removeImported (id : Nat) (t : Counting β) : Counting β × List β :=
  let after (e : Entry β) : Entry β := { e with marked := true }
  (t.change id fun e => (after e).kept, ((t.entries id).map fun e => (after e).released).getD [])

theorem change_entries {id : Nat} {t : Counting β} {e : Entry β} (h : t.entries id = some e)
    (f : Entry β → Option (Entry β)) :
    (t.change id f).entries = Function.update t.entries id (f e) := by
  show Function.update t.entries id ((t.entries id).bind f) = _
  rw [h, Option.bind_some]

end Counting

def counting (β : Type) : Implementation β where
  Table := Counting β
  new := Counting.new
  importResource := Counting.importResource
  prepareSend := Counting.prepareSend
  receiveReturns := Counting.receiveReturns
  removeImported := Counting.removeImported
  entries := Counting.entries
  entries_new := rfl
  import_valid _ t := Nat.ne_of_gt t.positive
  import_fresh _ t := t.below t.nextId (Nat.le_refl _)
  entries_import _ _ := rfl
  send_refused id t h := by rw [Counting.prepareSend, h, Option.map_none]
  entries_send id t e h :=
    ⟨_, by rw [Counting.prepareSend, h, Option.map_some], Counting.change_entries h _⟩
  receive_nil _ := rfl
  receive_cons r rs t := by simp [Counting.receiveReturns]
  entries_receive r t e h _ := by
    simp [Counting.receiveReturns, h, Counting.change_entries h]
  entries_remove id t e h := by
    simp [Counting.removeImported, h, Counting.change_entries h]

end ReleaseTable
