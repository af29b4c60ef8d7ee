import ChromiumDemo.LeaseLedger
import Mathlib.Algebra.Ring.Nat

/-! What the viz demos put into a compositor frame. A frame lists the resources
that its quads name; submitting it lends them to viz. `β` is what a demo keeps
for a resource, `A` the arguments of `OnBeginFrame`. -/

namespace ChromiumDemo.CompositorFrames
open LeaseLedger

variable {A β : Type*}

inductive DrawQuad
  | debugBorder
  | surface (frameSinkId localSurfaceId : Nat)
  | tile (resource : Nat)
  | texture (resource : Nat)
  | videoHole
  | solidColor (color : Nat)
deriving DecidableEq

def DrawQuad.resource : DrawQuad → Option Nat
  | .tile resource => some resource
  | .texture resource => some resource
  | _ => none

structure CompositorFrame (A β : Type*) where
  beginFrameAck : A
  frameToken : Nat
  quads : List DrawQuad := []
  resourceList : List (Nat × β) := []
  copyRequests : Nat := 0

/-- `++` of a `viz::FrameTokenGenerator`, which skips zero. -/
def nextFrameToken (token : Nat) : Nat :=
  if (token + 1) % 2 ^ 32 = 0 then 1 else (token + 1) % 2 ^ 32

def colors : Nat := 3

def circleColors (frameToken : Nat) (circles : List Nat) : List Nat :=
  circles.map fun circle => (frameToken / 60 + circle) % colors

def lendAll (resources : List (Nat × β)) (l : Ledger β) : Ledger β :=
  resources.foldl (fun l resource => l.lend resource.1 resource.2) l

theorem lendAll_settled (resources : List (Nat × β)) (l : Ledger β) :
    (lendAll resources l).settled = l.settled := by
  induction resources generalizing l with
  | nil => rfl
  | cons r resources ih => exact ih (l.lend r.1 r.2)

theorem lendAll_out {resources : List (Nat × β)} {l : Ledger β} {id : Nat} {b : β}
    (out : (lendAll resources l).out id = some b) :
    (∃ r ∈ resources, r.2 = b) ∨ l.out id = some b := by
  induction resources generalizing l with
  | nil => exact .inr out
  | cons r resources ih =>
    obtain ⟨other, member, rfl⟩ | earlier := ih out
    · exact .inl ⟨other, List.mem_cons_of_mem r member, rfl⟩
    · rw [Ledger.lend_out] at earlier
      split at earlier
      · exact .inl ⟨r, List.mem_cons_self, Option.some.inj earlier⟩
      · exact .inr earlier

end ChromiumDemo.CompositorFrames
