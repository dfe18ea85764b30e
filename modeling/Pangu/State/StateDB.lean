import Pangu.AccessList.Basic

/-!
# The state database and its journal

`state.StateDB` (`core/state/statedb.go`, `state_object.go`, `journal.go`):
the accounts, each a `StateObject`, the refund counter, the logs of the
current transaction hash, the preimages, the access list, the transient
storage, and the journal that `Snapshot` and `RevertToSnapshot` work on. Every setter appends to the journal the entry that
undoes it; `Snapshot` records the journal's length under a fresh revision id,
and `RevertToSnapshot(id)` undoes every entry appended since, newest first, and
forgets that revision and every later one.

The database behind the live objects is part of `stateObjects`: an account is
read from it the first time it is used and then kept, so the two read as one
map. The storage of an object is the value a read returns, dirty or committed.

* `snapshot_revert`: a revert right after a snapshot gives the state back;
* `revertToSnapshot_panics`: reverting an id no longer valid panics;
* `revertToSnapshot_later_panics`: a revert forgets every later revision, so
  reverting one of those next panics.
-/

namespace Pangu

open Go

/-- `types.Log`. -/
structure Log where
  address : Address
  topics : List Hash
  data : Bytes
  blockNumber : UInt64
  txHash : Hash
  txIndex : Nat
  blockHash : Hash
  index : Nat

/-- A `StateObject`: the account data, its code, its storage as a read sees it,
the storage as it was when the state was last finalised (`pendingStorage`
over `originStorage`), and the flags the block keeps. -/
structure StateObject where
  nonce : UInt64
  balance : Int
  codeHash : Hash
  code : Bytes
  storage : GoMap Hash Hash
  committed : GoMap Hash Hash
  suicided : Bool
  deleted : Bool

/-- `types.EmptyCodeHash`: `crypto.Keccak256Hash(nil)`. -/
def emptyCodeHash (crypto : Crypto) : Hash := crypto.keccak256 []

namespace StateObject

/-- `newObject(db, addr, types.StateAccount{})`: a zero balance and the empty
code hash. -/
def new (crypto : Crypto) : StateObject :=
  ⟨0, 0, emptyCodeHash crypto, [], ∅, ∅, false, false⟩

/-- `empty()`, in the sense of EIP-161. -/
def empty (crypto : Crypto) (o : StateObject) : Bool :=
  o.nonce == 0 && o.balance == 0 && o.codeHash == emptyCodeHash crypto

/-- `GetState(key)`: an absent key reads as the zero hash. -/
def getState (o : StateObject) (key : Hash) : Hash := o.storage.get key 0

/-- `GetCommittedState(key)`. -/
def getCommittedState (o : StateObject) (key : Hash) : Hash := o.committed.get key 0

end StateObject

/-- `transientStorage.Set(addr, key, value)`: the account's storage, made when
it is not there, with `value` at `key`. -/
def transientStorageSet (t : GoMap Address (GoMap Hash Hash)) (addr : Address) (key value : Hash) :
    GoMap Address (GoMap Hash Hash) :=
  t.set addr ((t.get addr ∅).set key value)

/-- `transientStorage.Get(addr, key)`: the zero hash for an account or a key
not there. -/
def transientStorageGet (t : GoMap Address (GoMap Hash Hash)) (addr : Address) (key : Hash) : Hash :=
  (t.get addr ∅).get key 0

/-- The entries of the journal, each holding what undoes one change. -/
inductive JournalEntry where
  | createObjectChange (account : Address)
  | resetObjectChange (account : Address) (prev : StateObject)
  | suicideChange (account : Address) (prev : Bool) (prevbalance : Int)
  | balanceChange (account : Address) (prev : Int)
  | nonceChange (account : Address) (prev : UInt64)
  | storageChange (account : Address) (key prevalue : Hash)
  | codeChange (account : Address) (prevcode : Bytes) (prevhash : Hash)
  | refundChange (prev : UInt64)
  | addLogChange (txhash : Hash)
  | addPreimageChange (hash : Hash)
  | touchChange (account : Address)
  | accessListAddAccountChange (address : Address)
  | accessListAddSlotChange (address : Address) (slot : Hash)
  | transientStorageChange (account : Address) (key prevalue : Hash)

/-- `dirtied()`: the account an entry changes, if any. -/
def JournalEntry.dirtied : JournalEntry → Option Address
  | .createObjectChange a | .resetObjectChange a _ | .suicideChange a _ _ | .balanceChange a _
  | .nonceChange a _ | .storageChange a _ _ | .codeChange a _ _ | .touchChange a => some a
  | .refundChange _ | .addLogChange _ | .addPreimageChange _ | .accessListAddAccountChange _
  | .accessListAddSlotChange _ _ | .transientStorageChange _ _ _ => none

/-- `revision`: an id and the journal length it stands for. -/
structure Revision where
  id : Int
  journalIndex : Nat

/-- `state.StateDB`, with the fields the execution reads and writes. -/
structure StateDB where
  stateObjects : GoMap Address StateObject
  refund : UInt64
  thash : Hash
  logs : GoMap Hash (List Log)
  logSize : Nat
  /-- `preimages`: the SHA3 preimages the VM has seen. -/
  preimages : GoMap Hash Bytes
  accessList : AccessList
  /-- `transientStorage` (EIP-1153): a storage per account that lives for one
  transaction. -/
  transientStorage : GoMap Address (GoMap Hash Hash)
  journal : List JournalEntry
  /-- `journal.dirties`: how many entries of the journal change each account. -/
  dirties : GoMap Address Nat
  validRevisions : List Revision
  nextRevisionId : Int

namespace StateDB

/-- `New(root, db, nil)` over the accounts of `root`: an empty journal and the
empty access list of `NewAccessList`, which nothing fills. -/
def new (accounts : GoMap Address StateObject) : StateDB :=
  ⟨accounts, 0, 0, ∅, 0, ∅, AccessList.newAccessList, ∅, [], ∅, [], 0⟩

/-! ## Reads -/

/-- `getStateObject(addr)`: nil for an account not there or deleted. -/
def getStateObject (s : StateDB) (a : Address) : Option StateObject :=
  match s.stateObjects.find? a with
  | some o => if o.deleted then none else some o
  | none => none

def exist (s : StateDB) (a : Address) : Bool := (s.getStateObject a).isSome

def empty (crypto : Crypto) (s : StateDB) (a : Address) : Bool :=
  match s.getStateObject a with
  | some o => o.empty crypto
  | none => true

def getBalance (s : StateDB) (a : Address) : Int := ((s.getStateObject a).map (·.balance)).getD 0

def getNonce (s : StateDB) (a : Address) : UInt64 := ((s.getStateObject a).map (·.nonce)).getD 0

def getCode (s : StateDB) (a : Address) : Bytes := ((s.getStateObject a).map (·.code)).getD []

def getCodeSize (s : StateDB) (a : Address) : Nat := (s.getCode a).length

/-- `GetCodeHash(addr)`: the zero hash for an account not there. -/
def getCodeHash (s : StateDB) (a : Address) : Hash := ((s.getStateObject a).map (·.codeHash)).getD 0

def getState (s : StateDB) (a : Address) (key : Hash) : Hash :=
  ((s.getStateObject a).map (·.getState key)).getD 0

def getCommittedState (s : StateDB) (a : Address) (key : Hash) : Hash :=
  ((s.getStateObject a).map (·.getCommittedState key)).getD 0

/-- `HasSelfDestructed(addr)`. -/
def hasSelfDestructed (s : StateDB) (a : Address) : Bool :=
  ((s.getStateObject a).map (·.suicided)).getD false

def getRefund (s : StateDB) : UInt64 := s.refund

def getAccessList (s : StateDB) : AccessList := s.accessList

/-- `AddressInAccessList(addr)`. -/
def addressInAccessList (s : StateDB) (a : Address) : Bool := s.accessList.containsAddress a

/-- `SlotInAccessList(addr, slot)`. -/
def slotInAccessList (s : StateDB) (a : Address) (slot : Hash) : Go (Bool × Bool) := s.accessList.contains a slot

def getTransientState (s : StateDB) (a : Address) (key : Hash) : Hash :=
  transientStorageGet s.transientStorage a key

/-- `GetLogs(hash, blockNumber, blockHash)`: the logs of a transaction,
annotated with the block. -/
def getLogs (s : StateDB) (hash : Hash) (blockNumber : UInt64) (blockHash : Hash) : List Log :=
  (s.logs.get hash []).map fun l => { l with blockNumber := blockNumber, blockHash := blockHash }

/-! ## The journal -/

/-- `journal.append(entry)`, counting the account it dirties. -/
def append (s : StateDB) (e : JournalEntry) : StateDB :=
  { s with
    journal := s.journal ++ [e]
    dirties := match e.dirtied with
      | some a => s.dirties.set a (s.dirties.get a 0 + 1)
      | none => s.dirties }

/-- The object at `a`, changed by `f`; nothing when it is not there. -/
def updateObject (s : StateDB) (a : Address) (f : StateObject → StateObject) : StateDB :=
  match s.stateObjects.find? a with
  | some o => { s with stateObjects := s.stateObjects.set a (f o) }
  | none => s

/-- `createObject(addr)`: a new object at `addr`, and the one it replaces
unless that was deleted. -/
def createObject (crypto : Crypto) (s : StateDB) (a : Address) : StateDB × Option StateObject :=
  let prev := s.stateObjects.find? a
  let s := match prev with
    | none => s.append (.createObjectChange a)
    | some p => s.append (.resetObjectChange a p)
  ({ s with stateObjects := s.stateObjects.set a (StateObject.new crypto) },
    match prev with
    | some p => if p.deleted then none else some p
    | none => none)

/-- `GetOrNewStateObject(addr)`, as the state it leaves. -/
def getOrNewStateObject (crypto : Crypto) (s : StateDB) (a : Address) : StateDB :=
  match s.getStateObject a with
  | some _ => s
  | none => (s.createObject crypto a).1

/-- `StateObject.SetBalance`: the balance, journalled. -/
def setBalanceOf (s : StateDB) (a : Address) (amount : Int) : StateDB :=
  let prev := s.getBalance a
  (s.append (.balanceChange a prev)).updateObject a fun o => { o with balance := amount }

/-! ## Setters -/

/-- `AddBalance(addr, amount)`: a zero amount only touches an empty account. -/
def addBalance (crypto : Crypto) (s : StateDB) (a : Address) (amount : Int) : StateDB :=
  let s := s.getOrNewStateObject crypto a
  if amount = 0 then
    if s.empty crypto a then s.append (.touchChange a) else s
  else s.setBalanceOf a (s.getBalance a + amount)

/-- `SubBalance(addr, amount)`. -/
def subBalance (crypto : Crypto) (s : StateDB) (a : Address) (amount : Int) : StateDB :=
  let s := s.getOrNewStateObject crypto a
  if amount = 0 then s else s.setBalanceOf a (s.getBalance a - amount)

/-- `SetBalance(addr, amount)`. -/
def setBalance (crypto : Crypto) (s : StateDB) (a : Address) (amount : Int) : StateDB :=
  (s.getOrNewStateObject crypto a).setBalanceOf a amount

/-- `SetNonce(addr, nonce)`. -/
def setNonce (crypto : Crypto) (s : StateDB) (a : Address) (nonce : UInt64) : StateDB :=
  let s := s.getOrNewStateObject crypto a
  (s.append (.nonceChange a (s.getNonce a))).updateObject a fun o => { o with nonce := nonce }

/-- `SetCode(addr, code)`: the code and its Keccak hash. -/
def setCode (crypto : Crypto) (s : StateDB) (a : Address) (code : Bytes) : StateDB :=
  let s := s.getOrNewStateObject crypto a
  (s.append (.codeChange a (s.getCode a) (s.getCodeHash a))).updateObject a fun o =>
    { o with code := code, codeHash := crypto.keccak256 code }

/-- `SetState(addr, key, value)`: nothing is journalled when the value does not
change. -/
def setState (crypto : Crypto) (s : StateDB) (a : Address) (key value : Hash) : StateDB :=
  let s := s.getOrNewStateObject crypto a
  let prev := s.getState a key
  if prev = value then s
  else (s.append (.storageChange a key prev)).updateObject a fun o =>
    { o with storage := o.storage.set key value }

/-- `SelfDestruct(addr)`: marks the account and clears its balance. -/
def selfDestruct (s : StateDB) (a : Address) : StateDB :=
  match s.getStateObject a with
  | none => s
  | some o =>
    (s.append (.suicideChange a o.suicided o.balance)).updateObject a fun o =>
      { o with suicided := true, balance := 0 }

/-- `CreateAccount(addr)`: a new object that keeps the balance of the one it
replaces. -/
def createAccount (crypto : Crypto) (s : StateDB) (a : Address) : StateDB :=
  match s.createObject crypto a with
  | (s, some prev) => s.updateObject a fun o => { o with balance := prev.balance }
  | (s, none) => s

/-- `AddRefund(gas)`. -/
def addRefund (s : StateDB) (gas : UInt64) : StateDB :=
  { s.append (.refundChange s.refund) with refund := s.refund + gas }

/-- `SubRefund(gas)`: panics below zero. -/
def subRefund (s : StateDB) (gas : UInt64) : Go StateDB :=
  let s' := s.append (.refundChange s.refund)
  if gas > s.refund then
    let r := s.refund
    panic s!"Refund counter below zero (gas: {gas} > refund: {r})"
  else .ok { s' with refund := s.refund - gas }

/-- `AddLog(log)`: the log, with the current transaction hash and its index
among the block's logs. -/
def addLog (s : StateDB) (l : Log) : StateDB :=
  let s' := s.append (.addLogChange s.thash)
  let l := { l with txHash := s.thash, txIndex := 0, index := s.logSize }
  { s' with logs := s.logs.set s.thash (s.logs.get s.thash [] ++ [l]), logSize := s.logSize + 1 }

/-- `AddPreimage(hash, preimage)`: a hash seen before is left as it is. -/
def addPreimage (s : StateDB) (hash : Hash) (preimage : Bytes) : StateDB :=
  match s.preimages.find? hash with
  | some _ => s
  | none => { s.append (.addPreimageChange hash) with preimages := s.preimages.set hash preimage }

/-- `AddAddressToAccessList(addr)`: journalled when the address is new. -/
def addAddressToAccessList (s : StateDB) (a : Address) : Go StateDB := do
  let (al, added) ← s.accessList.addAddress a
  let s := { s with accessList := al }
  .ok (if added then s.append (.accessListAddAccountChange a) else s)

/-- `AddSlotToAccessList(addr, slot)`: the address's entry before the slot's,
each when it is new. -/
def addSlotToAccessList (s : StateDB) (a : Address) (slot : Hash) : Go StateDB := do
  let (al, addrMod, slotMod) ← s.accessList.addSlot a slot
  let s := { s with accessList := al }
  let s := if addrMod then s.append (.accessListAddAccountChange a) else s
  .ok (if slotMod then s.append (.accessListAddSlotChange a slot) else s)

/-- `SetTransientState(addr, key, value)`: nothing is journalled when the value
does not change. -/
def setTransientState (s : StateDB) (a : Address) (key value : Hash) : StateDB :=
  let prev := s.getTransientState a key
  if prev = value then s
  else { s.append (.transientStorageChange a key prev) with
    transientStorage := transientStorageSet s.transientStorage a key value }

/-- `SetTxContext(thash)`. -/
def setTxContext (s : StateDB) (thash : Hash) : StateDB := { s with thash := thash }

/-! ## Balances after writes -/

@[simp] theorem getStateObject_append (s : StateDB) (e : JournalEntry) (b : Address) :
    (s.append e).getStateObject b = s.getStateObject b := rfl

@[simp] theorem getBalance_append (s : StateDB) (e : JournalEntry) (b : Address) :
    (s.append e).getBalance b = s.getBalance b := rfl

/-- A change of the object at `a` that keeps its deletion flag is what a read of
`a` then sees. -/
theorem getStateObject_updateObject_self {s : StateDB} {a : Address} {f : StateObject → StateObject}
    (hf : ∀ o, (f o).deleted = o.deleted) : (s.updateObject a f).getStateObject a = (s.getStateObject a).map f := by
  unfold updateObject getStateObject
  cases h : s.stateObjects.find? a with
  | none => simp [h]
  | some o => cases hd : o.deleted <;> simp [hf, hd]

theorem getStateObject_updateObject_ne {s : StateDB} {a b : Address} {f : StateObject → StateObject}
    (hb : b ≠ a) : (s.updateObject a f).getStateObject b = s.getStateObject b := by
  unfold updateObject getStateObject
  cases h : s.stateObjects.find? a with
  | none => rfl
  | some o => simp [GoMap.find?_set_ne _ _ hb]

theorem createObject_stateObjects (crypto : Crypto) (s : StateDB) (a : Address) :
    (s.createObject crypto a).1.stateObjects = s.stateObjects.set a (StateObject.new crypto) := by
  unfold createObject
  cases s.stateObjects.find? a <;> rfl

theorem getStateObject_createObject_self (crypto : Crypto) (s : StateDB) (a : Address) :
    (s.createObject crypto a).1.getStateObject a = some (StateObject.new crypto) := by
  simp [getStateObject, createObject_stateObjects, StateObject.new]

theorem getStateObject_createObject_ne (crypto : Crypto) (s : StateDB) {a b : Address} (hb : b ≠ a) :
    (s.createObject crypto a).1.getStateObject b = s.getStateObject b := by
  simp only [getStateObject, createObject_stateObjects, GoMap.find?_set_ne _ _ hb]

theorem getStateObject_getOrNewStateObject_isSome (crypto : Crypto) (s : StateDB) (a : Address) :
    ((s.getOrNewStateObject crypto a).getStateObject a).isSome := by
  unfold getOrNewStateObject
  cases h : s.getStateObject a with
  | some o => simp [h]
  | none => simp [getStateObject_createObject_self]

/-- `GetOrNewStateObject` changes no balance: a new object holds nothing, as a
missing one reads. -/
@[simp] theorem getBalance_getOrNewStateObject (crypto : Crypto) (s : StateDB) (a b : Address) :
    (s.getOrNewStateObject crypto a).getBalance b = s.getBalance b := by
  unfold getOrNewStateObject
  cases h : s.getStateObject a with
  | some o => rfl
  | none =>
    by_cases hb : b = a
    · subst hb
      simp [getBalance, getStateObject_createObject_self, StateObject.new, h]
    · simp only [getBalance, getStateObject_createObject_ne crypto s hb]

theorem getBalance_setBalanceOf_self {s : StateDB} {a : Address} (amount : Int)
    (h : (s.getStateObject a).isSome) : (s.setBalanceOf a amount).getBalance a = amount := by
  obtain ⟨o, ho⟩ := Option.isSome_iff_exists.mp h
  unfold setBalanceOf getBalance
  rw [getStateObject_updateObject_self, getStateObject_append, ho]
  · rfl
  · intro o
    rfl

theorem getBalance_setBalanceOf_ne {s : StateDB} {a b : Address} (amount : Int) (hb : b ≠ a) :
    (s.setBalanceOf a amount).getBalance b = s.getBalance b := by
  simp only [setBalanceOf, getBalance, getStateObject_updateObject_ne hb]
  rfl

@[simp] theorem getBalance_subBalance_self (crypto : Crypto) (s : StateDB) (a : Address) (amount : Int) :
    (s.subBalance crypto a amount).getBalance a = s.getBalance a - amount := by
  unfold subBalance
  split
  · next h => simp [h]
  · rw [getBalance_setBalanceOf_self _ (getStateObject_getOrNewStateObject_isSome crypto s a),
      getBalance_getOrNewStateObject]

theorem getBalance_subBalance_ne (crypto : Crypto) (s : StateDB) {a b : Address} (amount : Int) (hb : b ≠ a) :
    (s.subBalance crypto a amount).getBalance b = s.getBalance b := by
  unfold subBalance
  split
  · exact getBalance_getOrNewStateObject crypto s a b
  · rw [getBalance_setBalanceOf_ne _ hb, getBalance_getOrNewStateObject]

/-! ## Other reads after writes -/

/-- An update that keeps the deletion flag and what `g` reads leaves every
read through `g` as it was. -/
theorem map_getStateObject_updateObject {β : Type} (g : StateObject → β) {s : StateDB} {a b : Address}
    {f : StateObject → StateObject} (hf : ∀ o, (f o).deleted = o.deleted) (hg : ∀ o, g (f o) = g o) :
    ((s.updateObject a f).getStateObject b).map g = (s.getStateObject b).map g := by
  by_cases hb : b = a
  · subst hb
    rw [getStateObject_updateObject_self hf, Option.map_map]
    congr 1
    funext o
    exact hg o
  · rw [getStateObject_updateObject_ne hb]

theorem getStateObject_getOrNewStateObject_ne (crypto : Crypto) (s : StateDB) {a b : Address} (hb : b ≠ a) :
    (s.getOrNewStateObject crypto a).getStateObject b = s.getStateObject b := by
  unfold getOrNewStateObject
  cases s.getStateObject a with
  | some _ => rfl
  | none => exact getStateObject_createObject_ne crypto s hb

theorem getStateObject_setNonce_ne (crypto : Crypto) (s : StateDB) {a b : Address} (n : UInt64) (hb : b ≠ a) :
    (s.setNonce crypto a n).getStateObject b = s.getStateObject b := by
  rw [setNonce, getStateObject_updateObject_ne hb, getStateObject_append,
    getStateObject_getOrNewStateObject_ne crypto s hb]

@[simp] theorem getCode_getOrNewStateObject (crypto : Crypto) (s : StateDB) (a b : Address) :
    (s.getOrNewStateObject crypto a).getCode b = s.getCode b := by
  by_cases hb : b = a
  · subst hb
    unfold getOrNewStateObject
    cases h : s.getStateObject b with
    | some o => rfl
    | none => simp [getCode, getStateObject_createObject_self, StateObject.new, h]
  · simp only [getCode, getStateObject_getOrNewStateObject_ne crypto s hb]

theorem getCode_setBalanceOf (s : StateDB) (a b : Address) (amount : Int) :
    (s.setBalanceOf a amount).getCode b = s.getCode b := by
  unfold getCode setBalanceOf
  dsimp only
  rw [map_getStateObject_updateObject (·.code), getStateObject_append] <;> intro o <;> rfl

@[simp] theorem getCode_addBalance (crypto : Crypto) (s : StateDB) (a b : Address) (amount : Int) :
    (s.addBalance crypto a amount).getCode b = s.getCode b := by
  unfold addBalance
  dsimp only
  split
  · split <;> exact getCode_getOrNewStateObject crypto s a b
  · rw [getCode_setBalanceOf, getCode_getOrNewStateObject]

@[simp] theorem getCode_subBalance (crypto : Crypto) (s : StateDB) (a b : Address) (amount : Int) :
    (s.subBalance crypto a amount).getCode b = s.getCode b := by
  unfold subBalance
  split
  · exact getCode_getOrNewStateObject crypto s a b
  · rw [getCode_setBalanceOf, getCode_getOrNewStateObject]

@[simp] theorem getBalance_setNonce (crypto : Crypto) (s : StateDB) (a b : Address) (n : UInt64) :
    (s.setNonce crypto a n).getBalance b = s.getBalance b := by
  unfold getBalance setNonce
  dsimp only
  rw [map_getStateObject_updateObject (·.balance), getStateObject_append]
  · exact getBalance_getOrNewStateObject crypto s a b
  all_goals intro o; rfl

@[simp] theorem getBalance_addBalance_self (crypto : Crypto) (s : StateDB) (a : Address) (amount : Int) :
    (s.addBalance crypto a amount).getBalance a = s.getBalance a + amount := by
  unfold addBalance
  dsimp only
  split
  · next h => split <;> simp [h]
  · rw [getBalance_setBalanceOf_self _ (getStateObject_getOrNewStateObject_isSome crypto s a),
      getBalance_getOrNewStateObject]

theorem getBalance_addBalance_ne (crypto : Crypto) (s : StateDB) {a b : Address} (amount : Int) (hb : b ≠ a) :
    (s.addBalance crypto a amount).getBalance b = s.getBalance b := by
  unfold addBalance
  dsimp only
  split
  · split <;> simp
  · rw [getBalance_setBalanceOf_ne _ hb, getBalance_getOrNewStateObject]

/-- `CreateAccount` carries the balance over, and a missing or deleted account
had none. -/
@[simp] theorem getBalance_createAccount_self (crypto : Crypto) (s : StateDB) (a : Address) :
    (s.createAccount crypto a).getBalance a = s.getBalance a := by
  unfold createAccount createObject
  cases h : s.stateObjects.find? a with
  | none => simp [getBalance, getStateObject, h, StateObject.new, append]
  | some p =>
    cases hd : p.deleted
    · simp [getBalance, getStateObject, h, hd, updateObject, StateObject.new, append]
    · simp [getBalance, getStateObject, h, hd, StateObject.new, append]

theorem getBalance_createAccount_ne (crypto : Crypto) (s : StateDB) {a b : Address} (hb : b ≠ a) :
    (s.createAccount crypto a).getBalance b = s.getBalance b := by
  unfold createAccount
  split
  · next s' prev heq =>
    have := getStateObject_createObject_ne crypto s hb
    rw [heq] at this
    simp only [getBalance, getStateObject_updateObject_ne hb, this]
  · next s' heq =>
    have := getStateObject_createObject_ne crypto s hb
    rw [heq] at this
    simp only [getBalance, this]

/-! ### Accounts that stay -/

/-- `CreateAccount` leaves an account at its address. -/
theorem exist_createAccount_self (crypto : Crypto) (s : StateDB) (a : Address) :
    (s.createAccount crypto a).exist a = true := by
  have hnew := getStateObject_createObject_self crypto s a
  unfold createAccount
  split
  · next s' prev heq =>
    rw [heq] at hnew
    dsimp only at hnew
    rw [exist, getStateObject_updateObject_self (f := fun o => { o with balance := prev.balance }) (fun _ => rfl),
      hnew]
    rfl
  · next s' heq =>
    rw [heq] at hnew
    dsimp only at hnew
    rw [exist, hnew]
    rfl

theorem exist_getOrNewStateObject (crypto : Crypto) (s : StateDB) (a : Address) {b : Address}
    (h : s.exist b = true) : (s.getOrNewStateObject crypto a).exist b = true := by
  by_cases hb : b = a
  · subst hb
    exact getStateObject_getOrNewStateObject_isSome crypto s b
  · rw [exist, getStateObject_getOrNewStateObject_ne crypto s hb]
    exact h

theorem exist_setBalanceOf (s : StateDB) (a b : Address) (amount : Int) :
    (s.setBalanceOf a amount).exist b = s.exist b := by
  unfold exist setBalanceOf
  dsimp only
  rw [← Option.isSome_map (f := fun _ => ()),
    map_getStateObject_updateObject (fun _ => ()) (f := fun o => { o with balance := amount }) (fun _ => rfl)
      (fun _ => rfl), Option.isSome_map, getStateObject_append]

theorem exist_addBalance (crypto : Crypto) (s : StateDB) (a : Address) {b : Address} (amount : Int)
    (h : s.exist b = true) : (s.addBalance crypto a amount).exist b = true := by
  have hnew := exist_getOrNewStateObject crypto s a h
  unfold addBalance
  dsimp only
  split
  · split
    · rwa [exist, getStateObject_append]
    · exact hnew
  · rwa [exist_setBalanceOf]

theorem exist_subBalance (crypto : Crypto) (s : StateDB) (a : Address) {b : Address} (amount : Int)
    (h : s.exist b = true) : (s.subBalance crypto a amount).exist b = true := by
  have hnew := exist_getOrNewStateObject crypto s a h
  unfold subBalance
  split
  · exact hnew
  · rwa [exist_setBalanceOf]

theorem exist_of_getCode_ne_nil {s : StateDB} {a : Address} (h : s.getCode a ≠ []) : s.exist a := by
  unfold getCode at h
  unfold exist
  cases ho : s.getStateObject a with
  | none => simp [ho] at h
  | some _ => rfl

/-! ## Snapshots and reverts -/

/-- The object at `a`, changed by `f`, as a revert does it through
`getStateObject(addr)`: a nil object panics. -/
def setLive (s : StateDB) (a : Address) (f : StateObject → StateObject) : Go StateDB :=
  match s.getStateObject a with
  | some _ => .ok (s.updateObject a f)
  | none => nilDereference

/-- `revert(statedb)` of one entry. -/
def revertEntry (s : StateDB) : JournalEntry → Go StateDB
  | .createObjectChange a => .ok { s with stateObjects := s.stateObjects.erase a }
  | .resetObjectChange a prev => .ok { s with stateObjects := s.stateObjects.set a prev }
  | .suicideChange a prev prevbalance =>
    match s.getStateObject a with
    | some _ => .ok (s.updateObject a fun o => { o with suicided := prev, balance := prevbalance })
    | none => .ok s
  | .balanceChange a prev => s.setLive a fun o => { o with balance := prev }
  | .nonceChange a prev => s.setLive a fun o => { o with nonce := prev }
  | .storageChange a key prevalue => s.setLive a fun o => { o with storage := o.storage.set key prevalue }
  | .codeChange a prevcode prevhash => s.setLive a fun o => { o with code := prevcode, codeHash := prevhash }
  | .refundChange prev => .ok { s with refund := prev }
  | .addLogChange txhash =>
    let l := s.logs.get txhash []
    .ok { s with
      logs := if l.length = 1 then s.logs.erase txhash else s.logs.set txhash l.dropLast
      logSize := s.logSize - 1 }
  | .addPreimageChange hash => .ok { s with preimages := s.preimages.erase hash }
  | .touchChange _ => .ok s
  | .accessListAddAccountChange a => .ok { s with accessList := s.accessList.deleteAddress a }
  | .accessListAddSlotChange a slot => do
    let al ← s.accessList.deleteSlot a slot
    .ok { s with accessList := al }
  | .transientStorageChange a key prevalue =>
    .ok { s with transientStorage := transientStorageSet s.transientStorage a key prevalue }

/-- The count of an entry's account, one lower, and gone at zero. -/
def undirty (s : StateDB) (e : JournalEntry) : StateDB :=
  match e.dirtied with
  | some a =>
    let n := s.dirties.get a 0 - 1
    { s with dirties := if n = 0 then s.dirties.erase a else s.dirties.set a n }
  | none => s

/-- The loop of `journal.revert`: the given entries, newest first. -/
def revertEntries (s : StateDB) : List JournalEntry → Go StateDB
  | [] => .ok s
  | e :: es => do
    let s ← s.revertEntry e
    (s.undirty e).revertEntries es

/-- `Snapshot()`: a fresh id for the journal's current length. -/
def snapshot (s : StateDB) : StateDB × Int :=
  let id := s.nextRevisionId
  ({ s with nextRevisionId := id + 1, validRevisions := s.validRevisions ++ [⟨id, s.journal.length⟩] }, id)

/-- `RevertToSnapshot(revid)`: the first valid revision whose id is not below
`revid`, found by `sort.Search` over the ids, which only ever grow; it must be
`revid` itself, or the revert panics. The journal is undone down to that
revision's length, and the revision and every later one are forgotten. -/
def revertToSnapshot (s : StateDB) (revid : Int) : Go StateDB :=
  let idx := s.validRevisions.findIdx fun r => r.id ≥ revid
  match s.validRevisions[idx]? with
  | some r =>
    if r.id = revid then do
      let s' ← s.revertEntries (s.journal.drop r.journalIndex).reverse
      .ok { s' with journal := s.journal.take r.journalIndex, validRevisions := s.validRevisions.take idx }
    else panic s!"revision id {revid} cannot be reverted"
  | none => panic s!"revision id {revid} cannot be reverted"

/-! ## Revisions -/

/-- Every valid revision has an id below the next one `Snapshot` hands out. -/
def RevisionsBelow (s : StateDB) : Prop := ∀ r ∈ s.validRevisions, r.id < s.nextRevisionId

theorem revisionsBelow_snapshot {s : StateDB} (h : s.RevisionsBelow) : s.snapshot.1.RevisionsBelow := by
  intro r hr
  simp only [snapshot, List.mem_append, List.mem_singleton] at hr ⊢
  rcases hr with hr | rfl
  · have := h r hr
    omega
  · exact Int.lt_succ _

/-- A revert right after a snapshot finds that snapshot's revision, undoes
nothing, and leaves the state as it was but for the used id. -/
theorem snapshot_revert {s : StateDB} (h : s.RevisionsBelow) :
    s.snapshot.1.revertToSnapshot s.snapshot.2 = .ok { s with nextRevisionId := s.nextRevisionId + 1 } := by
  -- every older revision has a smaller id, so the search stops at the new one
  have hidx : ∀ (p : Revision → Bool) (x : Revision), (∀ r ∈ s.validRevisions, p r = false) → p x = true →
      (s.validRevisions ++ [x]).findIdx p = s.validRevisions.length := by
    intro p x hp hx
    rw [List.findIdx_append, List.findIdx_eq_length_of_false hp]
    simp [hx]
  simp only [snapshot, revertToSnapshot]
  rw [hidx _ _ (fun r hr => by simpa using h r hr) (by simp)]
  simp only [List.getElem?_append_right (le_refl _), Nat.sub_self,
    List.getElem?_cons_zero, if_true, List.drop_length, List.reverse_nil, revertEntries, ok_bind,
    List.take_length, List.take_left]

/-- Reverting an id that no valid revision has panics. -/
theorem revertToSnapshot_panics {s : StateDB} {revid : Int} (h : ∀ r ∈ s.validRevisions, r.id ≠ revid) :
    s.revertToSnapshot revid = panic s!"revision id {revid} cannot be reverted" := by
  simp only [revertToSnapshot]
  split
  · next r hr => rw [if_neg (h r (List.mem_of_getElem? hr))]
  · rfl

/-- A revert forgets the revision it reverts to and every later one: the
revisions left are older. -/
theorem revertToSnapshot_forgets {s s' : StateDB} {revid : Int} (h : s.revertToSnapshot revid = .ok s') :
    ∀ r ∈ s'.validRevisions, r.id < revid := by
  simp only [revertToSnapshot] at h
  split at h
  · split at h
    · obtain ⟨s₁, -, hs'⟩ := bind_eq_ok h
      cases hs'
      intro r hr
      obtain ⟨j, hj, rfl⟩ := List.mem_take_iff_getElem.mp hr
      -- the search passed over every revision before the one it found
      have := List.not_of_lt_findIdx (lt_of_lt_of_le hj (Nat.min_le_left _ _))
      simpa using this
    · cases h
  · cases h

/-- A revert forgets the revisions taken after it, whoever took them:
reverting any of them next panics. -/
theorem revertToSnapshot_later_panics {s s' : StateDB} {a b : Int} (h : s.revertToSnapshot a = .ok s')
    (hab : a ≤ b) : s'.revertToSnapshot b = panic s!"revision id {b} cannot be reverted" :=
  revertToSnapshot_panics fun r hr => by
    have := revertToSnapshot_forgets h r hr
    omega

/-- `clearJournalAndRefund()`. -/
def clearJournalAndRefund (s : StateDB) : StateDB :=
  let s := if s.journal.length > 0 then { s with journal := [], dirties := ∅, refund := 0 } else s
  { s with validRevisions := [] }

/-- `Finalise(deleteEmptyObjects)`: every dirtied account that self-destructed,
or is empty when empty ones are deleted, is marked deleted, and every other one
has its storage made pending (`finalise(true)` of the object); then the
journal and the revisions are cleared. -/
def finalise (crypto : Crypto) (s : StateDB) (deleteEmptyObjects : Bool) : StateDB :=
  let s := s.dirties.keyList.foldl (fun s a =>
    match s.stateObjects.find? a with
    | some o =>
      if o.suicided || (deleteEmptyObjects && o.empty crypto) then
        { s with stateObjects := s.stateObjects.set a { o with deleted := true } }
      else { s with stateObjects := s.stateObjects.set a { o with committed := o.storage } }
    | none => s) s
  s.clearJournalAndRefund

end StateDB

end Pangu
