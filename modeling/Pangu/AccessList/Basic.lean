import Pangu.Common.Types

/-!
# Access lists

`accesslist.AccessList` (`accesslist/accessList.go`): a map from each address
to `-1`, if it has no slots, or to the index of its slot set in `Slots`. Every
method is modelled with the panics it can reach: an index outside `Slots`, a
write to a nil map, a method called through a nil pointer.

* `WellFormed`: the representation invariant the comment on the type describes
  (values are `-1` or indices of `Slots`, no index shared, none unused);
* `conflictDetection`: as written, `tempUser` collects `append(tempNew, key)`,
  so it holds `tempNew` and one more slot whenever the user's slot set is not
  empty, and the lengths then differ (`conflictDetection_slot_false`).
-/

namespace Pangu

open Go

/-- `accesslist.AccessList`. `addresses` (`Addresses`) is `none` for a nil map, as JSON
`null` decodes; nil and empty slot sets are not told apart, since only lists
made by `NewAccessList` are ever written. -/
structure AccessList where
  addresses : Option (GoMap Address Int)
  slots : List (GoMap Hash Unit)

namespace AccessList

/-- The address map as a read sees it: a nil map reads as empty. -/
def addrs (al : AccessList) : GoMap Address Int := al.addresses.getD ∅

/-- `NewAccessList()`. -/
def newAccessList : AccessList := ⟨some ∅, []⟩

/-- `al.addresses[a] = v`, which panics on a nil map. -/
def setAddr (al : AccessList) (a : Address) (v : Int) : Go AccessList :=
  match al.addresses with
  | none => panic "assignment to entry in nil map"
  | some m => .ok { al with addresses := some (m.set a v) }

/-- `Len()`: the number of addresses. -/
def len (al : AccessList) : Nat := al.addrs.len

/-- `StorageKeys()`: the number of slots, summed over the slot sets. -/
def storageKeys (al : AccessList) : Nat := (al.slots.map GoMap.len).sum

/-- `ContainsAddress(a)`. -/
def containsAddress (al : AccessList) (a : Address) : Bool := (al.addrs.find? a).isSome

/-- `AccessListIsAddressExce(a)`: the same test as `ContainsAddress`. -/
def accessListIsAddressExce (al : AccessList) (a : Address) : Bool := (al.addrs.find? a).isSome

/-- `AddAddress(a)`: adds `a` with no slots; `true` if it was not there. -/
def addAddress (al : AccessList) (a : Address) : Go (AccessList × Bool) :=
  match al.addrs.find? a with
  | some _ => .ok (al, false)
  | none => do
    let al' ← al.setAddr a (-1)
    .ok (al', true)

/-- `AccessListAddAddress(a)`: the body of `AddAddress`. -/
def accessListAddAddress (al : AccessList) (a : Address) : Go (AccessList × Bool) :=
  al.addAddress a

/-- The branch of `AddSlot` for an address with no slot set: it gets a new one,
holding `slot`, at the end of `Slots`. -/
def appendSlotSet (al : AccessList) (a : Address) (slot : Hash) : Go AccessList := do
  let al' ← al.setAddr a al.slots.length
  .ok { al' with slots := al.slots ++ [AList.singleton slot ()] }

/-- `AddSlot(a, slot)`: whether the address and whether the slot were added. -/
def addSlot (al : AccessList) (a : Address) (slot : Hash) : Go (AccessList × Bool × Bool) :=
  match al.addrs.find? a with
  | none => do
    let al' ← al.appendSlotSet a slot
    .ok (al', true, true)
  | some index =>
    if index = -1 then do
      let al' ← al.appendSlotSet a slot
      .ok (al', false, true)
    else do
      let slotmap ← sliceIndex al.slots index
      -- the slot set is a reference: adding to it changes `Slots[index]`
      if slotmap.find? slot = none then
        .ok ({ al with slots := al.slots.set index.toNat (slotmap.set slot ()) }, false, true)
      else .ok (al, false, false)

/-- `AccessListAddSlot(a, slot)`: the body of `AddSlot`. -/
def accessListAddSlot (al : AccessList) (a : Address) (slot : Hash) :
    Go (AccessList × Bool × Bool) :=
  al.addSlot a slot

/-- `Contains(a, slot)`: whether the address, and whether the slot, are in the list. -/
def contains (al : AccessList) (a : Address) (slot : Hash) : Go (Bool × Bool) :=
  match al.addrs.find? a with
  | none => .ok (false, false)
  | some idx =>
    if idx = -1 then .ok (true, false)
    else do
      let slots ← sliceIndex al.slots idx
      .ok (true, (slots.find? slot).isSome)

/-- `DeleteAddress(a)`; deleting from a nil map does nothing. -/
def deleteAddress (al : AccessList) (a : Address) : AccessList :=
  { al with addresses := al.addresses.map (AList.erase a) }

/-- `DeleteSlot(a, slot)`: when the slot set becomes empty, `Slots` is cut
back to before it and the address has no slots again. -/
def deleteSlot (al : AccessList) (a : Address) (slot : Hash) : Go AccessList :=
  match al.addrs.find? a with
  | none => panic "reverting slot change, address not present in list"
  | some idx => do
    let slotmap ← sliceIndex al.slots idx
    let slotmap : GoMap Hash Unit := slotmap.erase slot
    if slotmap.len = 0 then setAddr { al with slots := al.slots.take idx.toNat } a (-1)
    else .ok { al with slots := al.slots.set idx.toNat slotmap }

/-- `Copy()`: a list with the same entries; a nil map becomes an empty one. -/
def copy (al : AccessList) : AccessList := ⟨some al.addrs, al.slots⟩

/-! ## Conflict detection -/

/-- `tempUser` after the range over the user's slot set that sets
`tempUser = append(tempNew, key)` at each key: nil if the set is empty, else
`tempNew` and the last key the range visits. -/
def tempUserOf (tempNew : List Hash) (userSlots : GoMap Hash Unit) : List Hash :=
  match userSlots.keyList.getLast? with
  | none => []
  | some k => tempNew ++ [k]

/-- `NewAL.ConflictDetection(UserAL)`, over the entries of `NewAL.Addresses`
in iteration order: `(result, haveSlot, address, slot)`, `result` being
`false` at the first entry found outside `UserAL`. -/
def conflictDetection (part user : AccessList) : Go (Bool × Bool × Address × List Hash) :=
  go part.addrs.entries
where
  go : List (Σ _ : Address, Int) → Go (Bool × Bool × Address × List Hash)
    | [] => .ok (true, true, 0, [])
    | ⟨key, value⟩ :: rest =>
      if value = -1 then
        if user.containsAddress key then go rest else .ok (false, false, key, [])
      else do
        let result := user.containsAddress key
        let slots ← sliceIndex part.slots value
        let tempNew := slots.keyList
        if !result then .ok (false, true, key, tempNew)
        else do
          let userSlots ← sliceIndex user.slots (user.addrs.get key 0)
          let tempUser := tempUserOf tempNew userSlots
          if tempNew.length ≠ tempUser.length then .ok (false, true, key, tempNew)
          else if tempUser.all (· ∈ tempNew) then go rest
          else .ok (false, true, key, tempNew)

/-- An address with slots in `part` that `user` holds with slots of its own is
always a conflict: `tempUser` is `tempNew` and one key more, never as long. -/
theorem conflictDetection_slot_false {part user : AccessList} {key : Address} {value : Int}
    {rest : List (Σ _ : Address, Int)} {slots userSlots : GoMap Hash Unit} (hv : value ≠ -1)
    (hslots : sliceIndex part.slots value = .ok slots) (hmem : user.containsAddress key = true)
    (huser : sliceIndex user.slots (user.addrs.get key 0) = .ok userSlots) (hne : userSlots.keyList ≠ []) :
    conflictDetection.go part user (⟨key, value⟩ :: rest) = .ok (false, true, key, slots.keyList) := by
  have hlen : slots.keyList.length ≠ (tempUserOf slots.keyList userSlots).length := by
    obtain ⟨k, hk⟩ := Option.isSome_iff_exists.mp (List.getLast?_isSome.mpr hne)
    simp [tempUserOf, hk]
  simp [conflictDetection.go, hv, hslots, hmem, huser, hlen]

/-- `TrueAL.CombineTrueAccessList(NewAL)` with `TrueAL` a pointer, `none`
when nil: every entry of `NewAL` is added to `*TrueAL`, which a nil pointer
cannot take. -/
def combineTrueAccessList (trueAL : Option AccessList) (part : AccessList) :
    Go (Option AccessList × Bool) :=
  go trueAL part.addrs.entries
where
  addSlots (al : AccessList) (key : Address) : List Hash → Go AccessList
    | [] => .ok al
    | s :: ss => do
      let (al, _) ← al.accessListAddSlot key s
      addSlots al key ss
  go (t : Option AccessList) : List (Σ _ : Address, Int) → Go (Option AccessList × Bool)
    | [] => .ok (t, true)
    | ⟨key, value⟩ :: rest => do
      let some al := t | nilDereference
      let (al, _) ← al.accessListAddAddress key
      if value ≠ -1 then do
        let slots ← sliceIndex part.slots value
        let al ← addSlots al key slots.keyList
        go (some al) rest
      else go (some al) rest

/-! ## The representation invariant -/

/-- The invariant of the comment on `AccessList`: a non-nil map whose values
are `-1` or indices into `Slots`, no two addresses sharing an index, and every
index of `Slots` used by an address. -/
structure WellFormed (al : AccessList) : Prop where
  nonNil : al.addresses.isSome
  index_valid : ∀ a i, al.addrs.find? a = some i → i = -1 ∨ (0 ≤ i ∧ i < al.slots.length)
  index_inj : ∀ a b i, 0 ≤ i → al.addrs.find? a = some i → al.addrs.find? b = some i → a = b
  index_used : ∀ j : Nat, j < al.slots.length → ∃ a, al.addrs.find? a = some (j : Int)

end AccessList

end Pangu
