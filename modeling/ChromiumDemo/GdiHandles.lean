import ChromiumDemo.AssocMap

/-! Device contexts and bitmaps as raw handles. A memory context comes with the
stock bitmap selected; selecting returns what was selected before, and selecting
nothing changes nothing. Nothing is released by itself. -/

namespace GdiHandles
open AssocMap

inductive Object
  | stock
  | bitmap (number : Nat)
deriving DecidableEq

/-- `bitmaps` are those created and not deleted, `windowDCs` and `memoryDCs` the
contexts not given back, and `stranded` the bitmaps that were selected into a
memory context when it was deleted. -/
structure State where
  bitmaps : List Nat := []
  nextBitmap : Nat := 0
  windowDCs : List Nat := []
  memoryDCs : Map Nat Object := fun _ => none
  nextDC : Nat := 0
  stranded : List Nat := []

def Object.bitmaps : Object → List Nat
  | .stock => []
  | .bitmap number => [number]

def getDC (g : State) : Nat × State :=
  (g.nextDC, { g with windowDCs := g.nextDC :: g.windowDCs, nextDC := g.nextDC + 1 })

def releaseDC (dc : Nat) (g : State) : State := { g with windowDCs := g.windowDCs.erase dc }

def createCompatibleDC (g : State) : Nat × State :=
  (g.nextDC, { g with
    memoryDCs := Function.update g.memoryDCs g.nextDC (some .stock)
    nextDC := g.nextDC + 1 })

def deleteDC (dc : Nat) (g : State) : State :=
  { g with
    memoryDCs := erase g.memoryDCs dc
    stranded := g.stranded ++ (g.memoryDCs dc).toList.flatMap Object.bitmaps }

def selectObject (dc : Nat) (object : Option Object) (g : State) : Option Object × State :=
  match object, g.memoryDCs dc with
  | some new, some old =>
    (some old, { g with memoryDCs := Function.update g.memoryDCs dc (some new) })
  | _, _ => (none, g)

def createDIBSection (g : State) : Nat × State :=
  (g.nextBitmap,
    { g with bitmaps := g.bitmaps ++ [g.nextBitmap], nextBitmap := g.nextBitmap + 1 })

/-- Every context has been given back, with no bitmap left in it. -/
structure Balanced (g : State) : Prop where
  windowDCs : g.windowDCs = []
  memoryDCs : g.memoryDCs = fun _ => none
  stranded : g.stranded = []

theorem balanced_start : Balanced {} := ⟨rfl, rfl, rfl⟩

theorem releaseDC_getDC (g : State) :
    releaseDC g.nextDC (getDC g).2 = { g with nextDC := g.nextDC + 1 } := by
  simp [releaseDC, getDC]

theorem erase_update {κ ν : Type*} [DecidableEq κ] {m : Map κ ν} {key : κ} (free : m key = none)
    (value : Option ν) : erase (Function.update m key value) key = m := by
  rw [erase, Function.update_idem, ← free, Function.update_eq_self]

theorem deleteDC_selected (g : State) (fresh : g.memoryDCs g.nextDC = none)
    (object : Option Object) :
    let created := createCompatibleDC g
    let selected := selectObject created.1 object created.2
    let restored := selectObject created.1 selected.1 selected.2
    deleteDC created.1 restored.2 = { g with nextDC := g.nextDC + 1 } := by
  cases object with
  | none => simp [createCompatibleDC, selectObject, deleteDC, Object.bitmaps, erase_update fresh]
  | some object =>
    simp [createCompatibleDC, selectObject, deleteDC, Object.bitmaps, erase_update fresh]

end GdiHandles
