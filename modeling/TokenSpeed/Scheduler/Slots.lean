import TokenSpeed.Logic.Fault

/-!
# Slot allocators

`ReqPoolAllocator` of `resource/allocator/req_pool_allocator.{h,cpp}`: the free slots in the order they
came back. A `ReqPoolIndex` is the slot it owns. The slots of retraction images are owned through a
`shared_ptr`, whose owners `SharedSlots` counts.
-/

namespace TokenSpeed

open Function

structure ReqPoolAllocator where
  size : Nat
  freeSlots : List Nat
  deriving DecidableEq, Repr

namespace ReqPoolAllocator

def make (size : Nat) : ReqPoolAllocator := ⟨size, List.range' 1 size⟩

variable (a : ReqPoolAllocator)

def availableSlots : Nat := a.freeSlots.length

def allocate : Result (Nat × ReqPoolAllocator) :=
  match a.freeSlots with
  | [] => .error (.assertion ("ReqPoolAllocator::Allocate: no request pool slots available; capacity=" ++
      toString a.size))
  | slot :: rest => .ok (slot, { a with freeSlots := rest })

def deallocate (slot : Nat) : ReqPoolAllocator := { a with freeSlots := a.freeSlots ++ [slot] }

end ReqPoolAllocator

/-- `SnapshotSlotAllocator` with the owners of each `shared_ptr<SnapshotSlotIndex>`. -/
structure SharedSlots where
  slots : ReqPoolAllocator
  owners : Nat → Nat := fun _ => 0

namespace SharedSlots

def make (size : Nat) : SharedSlots := { slots := .make size }

variable (a : SharedSlots)

/-- `std::make_shared<SnapshotSlotIndex>(Allocate())`. -/
def allocate : Result (Nat × SharedSlots) := do
  let (slot, slots) ← a.slots.allocate
  pure (slot, { slots := slots, owners := update a.owners slot 1 })

def share (slot : Nat) : SharedSlots := { a with owners := update a.owners slot (a.owners slot + 1) }

def release (slot : Nat) : SharedSlots :=
  if a.owners slot = 1 then { slots := a.slots.deallocate slot, owners := update a.owners slot 0 }
  else { a with owners := update a.owners slot (a.owners slot - 1) }

end SharedSlots

end TokenSpeed
