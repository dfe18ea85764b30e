import Pangu.State.StateDB
import Pangu.AccessList.Invariant
import Pangu.Types.Signer

/-!
# Snapshots and reverts of the state database

`journal.go` and `StateDB.Snapshot` / `RevertToSnapshot`: each setter of the
state database appends the entries that undo it, and a revert undoes the
entries appended since its snapshot, newest first. What a revert must give
back is what the reads see, not the state itself: Go's maps have no order, a
revert may put an account back at another place in `stateObjects`, and the
access list's map of addresses is read only through its values. `View` is what
the reads see, and every statement here is about views:

* `revertEntry_congr`: a revert of one entry, on states of one view, gives
  states of one view, so the entries a setter appends undo it from any state
  that reads as the one it left;
* `Mutation.undoes`: each of the fifteen journalled calls appends entries that,
  reverted from the state it leaves, give back the view of the state it found;
* `Run.facts`: over a run of calls, snapshots kept and nested snapshots
  reverted, the journal only grows, the revisions of the start stay valid and
  the entries appended undo the run;
* `revertToSnapshot_restores`: after `id := Snapshot()` and any such run,
  `RevertToSnapshot(id)` succeeds, every read answers as right after the
  snapshot, and the revisions valid are those opened before it;
* `Reachable.invariant`: every state the calls reach from `New` has the two
  facts that theorem starts from.
-/

namespace Pangu

open Go

/-- What the reads of one account return: the storage and the committed
storage as `GetState` and `GetCommittedState` see them, functions of the key. -/
structure StateObject.View where
  nonce : UInt64
  balance : Int
  codeHash : Hash
  code : Bytes
  storage : Hash → Hash
  committed : Hash → Hash
  suicided : Bool
  deleted : Bool

def StateObject.view (o : StateObject) : StateObject.View :=
  ⟨o.nonce, o.balance, o.codeHash, o.code, o.getState, o.getCommittedState, o.suicided, o.deleted⟩

theorem transientStorageGet_set (t : GoMap Address (GoMap Hash Hash)) (a : Address) (k v : Hash)
    (a' : Address) (k' : Hash) :
    transientStorageGet (transientStorageSet t a k v) a' k' =
      if a' = a ∧ k' = k then v else transientStorageGet t a' k' := by
  unfold transientStorageGet transientStorageSet
  by_cases ha : a' = a
  · subst ha
    by_cases hk : k' = k
    · subst hk
      simp [GoMap.get_set_self]
    · simp [hk, GoMap.get_set_self, GoMap.get_set_ne _ _ _ hk]
  · simp [ha, GoMap.get_set_ne _ _ _ ha]

namespace StateObject

@[simp] theorem view_withBalance (o : StateObject) (b : Int) : ({ o with balance := b } : StateObject).view =
    { o.view with balance := b } := rfl

@[simp] theorem view_withNonce (o : StateObject) (n : UInt64) : ({ o with nonce := n } : StateObject).view =
    { o.view with nonce := n } := rfl

@[simp] theorem view_withCode (o : StateObject) (c : Bytes) (h : Hash) :
    ({ o with code := c, codeHash := h } : StateObject).view = { o.view with code := c, codeHash := h } := rfl

@[simp] theorem view_withSuicided (o : StateObject) (d : Bool) (b : Int) :
    ({ o with suicided := d, balance := b } : StateObject).view = { o.view with suicided := d, balance := b } := rfl

@[simp] theorem view_withStorage (o : StateObject) (k v : Hash) :
    ({ o with storage := o.storage.set k v } : StateObject).view =
      { o.view with storage := Function.update o.view.storage k v } := by
  simp only [view]
  congr 1
  funext k'
  by_cases hk : k' = k
  · subst hk
    simp [getState, GoMap.get_set_self]
  · simp [getState, Function.update_of_ne hk, GoMap.get_set_ne _ _ _ hk]

end StateObject

namespace StateDB

/-- What the reads of a state return. -/
structure View where
  objects : Address → Option StateObject.View
  refund : UInt64
  thash : Hash
  logs : Hash → List Log
  logSize : Nat
  preimages : Hash → Option Bytes
  alNonNil : Bool
  alFind : Address → Option Int
  alSlots : List (GoMap Hash Unit)
  transient : Address → Hash → Hash

def view (s : StateDB) : View :=
  ⟨fun a => (s.getStateObject a).map StateObject.view, s.refund, s.thash, fun h => s.logs.get h [], s.logSize,
    fun h => s.preimages.find? h, s.accessList.addresses.isSome, fun a => s.accessList.addrs.find? a,
    s.accessList.slots, fun a k => s.getTransientState a k⟩

@[simp] theorem view_append (s : StateDB) (e : JournalEntry) : (s.append e).view = s.view := rfl

@[simp] theorem view_undirty (s : StateDB) (e : JournalEntry) : (s.undirty e).view = s.view := by
  unfold undirty
  split <;> rfl

theorem view_withObjects_erase (s : StateDB) (a : Address) :
    ({ s with stateObjects := s.stateObjects.erase a } : StateDB).view =
      { s.view with objects := Function.update s.view.objects a none } := by
  simp only [view]
  congr 1
  funext b
  by_cases hb : b = a
  · subst hb
    simp [getStateObject]
  · simp [getStateObject, Function.update_of_ne hb, GoMap.find?_erase_ne _ hb]

theorem view_withObjects_set (s : StateDB) (a : Address) (o : StateObject) :
    ({ s with stateObjects := s.stateObjects.set a o } : StateDB).view =
      { s.view with objects := Function.update s.view.objects a (if o.deleted then none else some o.view) } := by
  simp only [view]
  congr 1
  funext b
  by_cases hb : b = a
  · subst hb
    cases hd : o.deleted <;> simp [getStateObject, hd]
  · simp [getStateObject, Function.update_of_ne hb, GoMap.find?_set_ne _ _ hb]


theorem find?_of_getStateObject {s : StateDB} {a : Address} {o : StateObject} (h : s.getStateObject a = some o) :
    s.stateObjects.find? a = some o ∧ o.deleted = false := by
  unfold getStateObject at h
  split at h
  · next o' ho =>
    split at h
    · cases h
    · next hd =>
      cases h
      exact ⟨ho, by simpa using hd⟩
  · cases h

theorem view_updateObject {s : StateDB} {a : Address} {o : StateObject} (hs : s.getStateObject a = some o)
    (f : StateObject → StateObject) (hf : (f o).deleted = false) :
    (s.updateObject a f).view = { s.view with objects := Function.update s.view.objects a (some (f o).view) } := by
  obtain ⟨hfind, -⟩ := find?_of_getStateObject hs
  simp only [updateObject, hfind, view_withObjects_set, hf]
  rfl

/-- Two states with one view read alike at each account. -/
theorem objects_eq_of_view {u t : StateDB} (h : u.view = t.view) (a : Address) :
    (u.getStateObject a).map StateObject.view = (t.getStateObject a).map StateObject.view :=
  congrFun (congrArg View.objects h) a

theorem same_of_view {u t : StateDB} (h : u.view = t.view) : u.accessList.Same t.accessList :=
  ⟨congrArg View.alNonNil h, fun a => congrFun (congrArg View.alFind h) a, congrArg View.alSlots h⟩

theorem view_withAccessList (s : StateDB) (al : AccessList) : ({ s with accessList := al } : StateDB).view =
    { s.view with alNonNil := al.addresses.isSome, alFind := fun a => al.addrs.find? a, alSlots := al.slots } :=
  rfl

theorem view_withLogs (s : StateDB) (logs : GoMap Hash (List Log)) (n : Nat) :
    ({ s with logs := logs, logSize := n } : StateDB).view = { s.view with logs := fun k => logs.get k [], logSize := n } :=
  rfl

/-- The logs with the list of `h` cut back as the revert of `AddLog` does it:
that list without its last log, and every other list as it was. -/
theorem get_cutLogs (logs : GoMap Hash (List Log)) (h k : Hash) :
    GoMap.get (if (logs.get h []).length = 1 then logs.erase h else logs.set h (logs.get h []).dropLast) k [] =
      if k = h then (logs.get h []).dropLast else logs.get k [] := by
  by_cases hk : k = h
  · subst hk
    rw [if_pos rfl]
    split
    · next h1 =>
      rw [GoMap.get_erase_self, eq_comm, ← List.length_eq_zero_iff, List.length_dropLast, h1]
    · rw [GoMap.get_set_self]
  · rw [if_neg hk]
    split
    · rw [GoMap.get_erase_ne _ _ hk]
    · rw [GoMap.get_set_ne _ _ _ hk]

theorem view_withPreimages (s : StateDB) (p : GoMap Hash Bytes) :
    ({ s with preimages := p } : StateDB).view = { s.view with preimages := fun k => p.find? k } := rfl

theorem view_withTransient (s : StateDB) (ts : GoMap Address (GoMap Hash Hash)) :
    ({ s with transientStorage := ts } : StateDB).view =
      { s.view with transient := fun a k => transientStorageGet ts a k } := rfl

/-- Lists Go cannot tell apart give states of one view. -/
theorem view_withAccessList_congr {u t : StateDB} (h : u.view = t.view) {al₁ al₂ : AccessList}
    (hal : al₁.Same al₂) : ({ u with accessList := al₁ } : StateDB).view = ({ t with accessList := al₂ } : StateDB).view := by
  have hfind : (fun a => al₁.addrs.find? a) = fun a => al₂.addrs.find? a := funext hal.find_eq
  rw [view_withAccessList u al₁, view_withAccessList t al₂, h, hal.nonNil_eq, hal.slots_eq, hfind]

/-- An update of one account by `f`, on states of one view, when `f` reads and
writes only what the view holds. -/
theorem updateObject_congr {u t : StateDB} (h : u.view = t.view) {a : Address} {o : StateObject}
    (ht : t.getStateObject a = some o) {f : StateObject → StateObject}
    (hf : ∀ o₁ o₂ : StateObject, o₁.view = o₂.view → (f o₁).view = (f o₂).view)
    (hdel : ∀ o, (f o).deleted = o.deleted) :
    ∃ o', u.getStateObject a = some o' ∧ (u.updateObject a f).view = (t.updateObject a f).view := by
  have hu := objects_eq_of_view h a
  rw [ht] at hu
  obtain ⟨o', hu', hv⟩ := Option.map_eq_some_iff.mp hu
  have hdo : o.deleted = false := (find?_of_getStateObject ht).2
  have hdo' : o'.deleted = false := (find?_of_getStateObject hu').2
  refine ⟨o', hu', ?_⟩
  rw [view_updateObject hu' f ((hdel o').trans hdo'), view_updateObject ht f ((hdel o).trans hdo), h, hf o' o hv]

theorem setLive_congr {u t t' : StateDB} (h : u.view = t.view) {a : Address} {f : StateObject → StateObject}
    (hf : ∀ o₁ o₂ : StateObject, o₁.view = o₂.view → (f o₁).view = (f o₂).view)
    (hdel : ∀ o, (f o).deleted = o.deleted) (ht : t.setLive a f = .ok t') :
    ∃ u', u.setLive a f = .ok u' ∧ u'.view = t'.view := by
  unfold setLive at ht
  split at ht
  · next o ho =>
    cases ht
    obtain ⟨o', hu', hv⟩ := updateObject_congr h ho hf hdel
    exact ⟨_, by simp [setLive, hu'], hv⟩
  · cases ht

/-- A revert of one entry, on states of one view, gives states of one view. -/
theorem revertEntry_congr {u t t' : StateDB} (h : u.view = t.view) :
    ∀ e : JournalEntry, t.revertEntry e = .ok t' → ∃ u', u.revertEntry e = .ok u' ∧ u'.view = t'.view
  | .createObjectChange a, ht => by
    cases ht
    exact ⟨_, rfl, by rw [view_withObjects_erase u a, view_withObjects_erase t a, h]⟩
  | .resetObjectChange a prev, ht => by
    cases ht
    exact ⟨_, rfl, by rw [view_withObjects_set u a prev, view_withObjects_set t a prev, h]⟩
  | .suicideChange a prev prevbalance, ht => by
    cases hto : t.getStateObject a with
    | none =>
      simp only [revertEntry, hto, Except.ok.injEq] at ht
      subst ht
      have hu := objects_eq_of_view h a
      rw [hto, Option.map_none, Option.map_eq_none_iff] at hu
      exact ⟨u, by simp [revertEntry, hu], h⟩
    | some o =>
      simp only [revertEntry, hto, Except.ok.injEq] at ht
      subst ht
      obtain ⟨o', hu', hv⟩ := updateObject_congr h hto (f := fun o => { o with suicided := prev, balance := prevbalance })
        (fun o₁ o₂ ho => by simp only [StateObject.view_withSuicided, ho]) (fun _ => rfl)
      exact ⟨_, by simp [revertEntry, hu'], hv⟩
  | .balanceChange a prev, ht =>
    setLive_congr h (fun o₁ o₂ ho => by simp only [StateObject.view_withBalance, ho]) (fun _ => rfl) ht
  | .nonceChange a prev, ht =>
    setLive_congr h (fun o₁ o₂ ho => by simp only [StateObject.view_withNonce, ho]) (fun _ => rfl) ht
  | .storageChange a key prevalue, ht =>
    setLive_congr h (fun o₁ o₂ ho => by simp only [StateObject.view_withStorage, ho]) (fun _ => rfl) ht
  | .codeChange a prevcode prevhash, ht =>
    setLive_congr h (fun o₁ o₂ ho => by simp only [StateObject.view_withCode, ho]) (fun _ => rfl) ht
  | .refundChange prev, ht => by
    cases ht
    exact ⟨_, rfl, show ({ u.view with refund := prev } : View) = { t.view with refund := prev } by rw [h]⟩
  | .addLogChange txhash, ht => by
    cases ht
    have hlogs : ∀ k, u.logs.get k [] = t.logs.get k [] := fun k => congrFun (congrArg View.logs h) k
    refine ⟨_, rfl, ?_⟩
    have hcut : ∀ k, GoMap.get (if (u.logs.get txhash []).length = 1 then u.logs.erase txhash
          else u.logs.set txhash (u.logs.get txhash []).dropLast) k [] =
        GoMap.get (if (t.logs.get txhash []).length = 1 then t.logs.erase txhash
          else t.logs.set txhash (t.logs.get txhash []).dropLast) k [] := by
      intro k
      rw [get_cutLogs, get_cutLogs, hlogs txhash, hlogs k]
    have hsize : u.logSize = t.logSize := congrArg View.logSize h
    rw [view_withLogs u _ _, view_withLogs t _ _, h, hsize]
    exact congrArg (fun f => ({ t.view with logs := f, logSize := t.logSize - 1 } : View)) (funext hcut)
  | .addPreimageChange hash, ht => by
    cases ht
    refine ⟨_, rfl, ?_⟩
    have hpre : ∀ k, u.preimages.find? k = t.preimages.find? k := fun k => congrFun (congrArg View.preimages h) k
    have herase : ∀ k, GoMap.find? (u.preimages.erase hash) k = GoMap.find? (t.preimages.erase hash) k := by
      intro k
      by_cases hk : k = hash
      · subst hk
        simp
      · simp [GoMap.find?_erase_ne _ hk, hpre k]
    rw [view_withPreimages u _, view_withPreimages t _, h]
    exact congrArg (fun f => ({ t.view with preimages := f } : View)) (funext herase)
  | .touchChange _, ht => by
    cases ht
    exact ⟨u, rfl, h⟩
  | .accessListAddAccountChange a, ht => by
    cases ht
    exact ⟨_, rfl, view_withAccessList_congr h ((same_of_view h).deleteAddress a)⟩
  | .accessListAddSlotChange a slot, ht => by
    obtain ⟨al, hal, ht⟩ := bind_eq_ok ht
    cases ht
    obtain ⟨al', hal', hs⟩ := (same_of_view h).symm.deleteSlot hal
    exact ⟨_, by simp [revertEntry, hal'], view_withAccessList_congr h hs.symm⟩
  | .transientStorageChange a key prevalue, ht => by
    cases ht
    refine ⟨_, rfl, ?_⟩
    have htr : ∀ a' k', u.getTransientState a' k' = t.getTransientState a' k' :=
      fun a' k' => congrFun (congrFun (congrArg View.transient h) a') k'
    have hset : ∀ a' k', transientStorageGet (transientStorageSet u.transientStorage a key prevalue) a' k' =
        transientStorageGet (transientStorageSet t.transientStorage a key prevalue) a' k' := by
      intro a' k'
      simp only [transientStorageGet_set]
      exact if_congr Iff.rfl rfl (htr a' k')
    rw [view_withTransient u _, view_withTransient t _, h]
    exact congrArg (fun f => ({ t.view with transient := f } : View)) (funext fun a' => funext (hset a'))

/-- The entries reverted, newest first, on states of one view. -/
theorem revertEntries_congr : ∀ (es : List JournalEntry) {u t t' : StateDB}, u.view = t.view →
    t.revertEntries es = .ok t' → ∃ u', u.revertEntries es = .ok u' ∧ u'.view = t'.view
  | [], _, _, _, h, ht => by
    cases ht
    exact ⟨_, rfl, h⟩
  | e :: es, u, t, t', h, ht => by
    rw [revertEntries] at ht
    obtain ⟨t₁, h₁, ht⟩ := bind_eq_ok ht
    obtain ⟨u₁, hu₁, hv⟩ := revertEntry_congr h e h₁
    obtain ⟨u', hu', hv'⟩ := revertEntries_congr es (show (u₁.undirty e).view = (t₁.undirty e).view by simp [hv]) ht
    exact ⟨u', by rw [revertEntries, hu₁, ok_bind]; exact hu', hv'⟩

theorem revertEntries_append (s : StateDB) (es₁ es₂ : List JournalEntry) :
    s.revertEntries (es₁ ++ es₂) = s.revertEntries es₁ >>= fun s => s.revertEntries es₂ := by
  induction es₁ generalizing s with
  | nil => rfl
  | cons e es₁ ih =>
    simp only [List.cons_append, revertEntries]
    cases s.revertEntry e with
    | error p => rfl
    | ok s₁ => simp only [ok_bind, ih]

theorem updateObject_journal (s : StateDB) (a : Address) (f : StateObject → StateObject) :
    (s.updateObject a f).journal = s.journal ∧ (s.updateObject a f).validRevisions = s.validRevisions ∧
      (s.updateObject a f).nextRevisionId = s.nextRevisionId := by
  unfold updateObject
  split <;> exact ⟨rfl, rfl, rfl⟩

/-- A revert of one entry keeps the journal and the revisions; the caller cuts
them. -/
theorem revertEntry_journal {s s' : StateDB} :
    ∀ e : JournalEntry, s.revertEntry e = .ok s' →
      s'.journal = s.journal ∧ s'.validRevisions = s.validRevisions ∧ s'.nextRevisionId = s.nextRevisionId
  | .suicideChange a prev prevbalance, h => by
    simp only [revertEntry] at h
    split at h <;> cases h
    · exact updateObject_journal s a _
    · exact ⟨rfl, rfl, rfl⟩
  | .balanceChange a prev, h | .nonceChange a prev, h | .storageChange a _ prev, h | .codeChange a prev _, h => by
    simp only [revertEntry, setLive] at h
    split at h <;> cases h
    exact updateObject_journal s a _
  | .accessListAddSlotChange a slot, h => by
    obtain ⟨al, -, h⟩ := bind_eq_ok h
    cases h
    exact ⟨rfl, rfl, rfl⟩
  | .createObjectChange _, h | .resetObjectChange _ _, h | .refundChange _, h | .addLogChange _, h
  | .addPreimageChange _, h | .touchChange _, h | .accessListAddAccountChange _, h
  | .transientStorageChange _ _ _, h => by
    cases h
    exact ⟨rfl, rfl, rfl⟩

theorem undirty_journal (s : StateDB) (e : JournalEntry) :
    (s.undirty e).journal = s.journal ∧ (s.undirty e).validRevisions = s.validRevisions ∧
      (s.undirty e).nextRevisionId = s.nextRevisionId := by
  unfold undirty
  split <;> exact ⟨rfl, rfl, rfl⟩

theorem revertEntries_journal : ∀ {s s' : StateDB} (es : List JournalEntry), s.revertEntries es = .ok s' →
    s'.journal = s.journal ∧ s'.validRevisions = s.validRevisions ∧ s'.nextRevisionId = s.nextRevisionId
  | _, _, [], h => by
    cases h
    exact ⟨rfl, rfl, rfl⟩
  | s, s', e :: es, h => by
    rw [revertEntries] at h
    obtain ⟨s₁, h₁, h⟩ := bind_eq_ok h
    obtain ⟨j₁, r₁, n₁⟩ := revertEntry_journal e h₁
    obtain ⟨j₂, r₂, n₂⟩ := undirty_journal s₁ e
    obtain ⟨j₃, r₃, n₃⟩ := revertEntries_journal es h
    exact ⟨j₃.trans (j₂.trans j₁), r₃.trans (r₂.trans r₁), n₃.trans (n₂.trans n₁)⟩

theorem updateObject_of_find? {s : StateDB} {a : Address} {o : StateObject} (h : s.stateObjects.find? a = some o)
    (f : StateObject → StateObject) : s.updateObject a f = { s with stateObjects := s.stateObjects.set a (f o) } := by
  simp only [updateObject, h]

/-- An account changed by `f` and back by `g` reads as before. -/
theorem view_updateObject_updateObject {s : StateDB} {a : Address} {o : StateObject}
    (ho : s.getStateObject a = some o) (f g : StateObject → StateObject) (hg : (g (f o)).view = o.view) :
    ((s.updateObject a f).updateObject a g).view = s.view := by
  obtain ⟨hfind, hdel⟩ := find?_of_getStateObject ho
  have hgdel : (g (f o)).deleted = false := (congrArg StateObject.View.deleted hg).trans hdel
  have hobj : s.view.objects a = some o.view := by simp [view, ho]
  simp only [updateObject, hfind, GoMap.find?_set_self]
  show ({ s with stateObjects := (s.stateObjects.set a (f o)).set a (g (f o)) } : StateDB).view = s.view
  rw [GoMap.set_set, view_withObjects_set, hgdel, if_neg Bool.false_ne_true, hg, ← hobj, Function.update_eq_self]


theorem accessList_updateObject (s : StateDB) (a : Address) (f : StateObject → StateObject) :
    (s.updateObject a f).accessList = s.accessList := by
  unfold updateObject
  split <;> rfl

/-! ## Undo facts -/

/-- `t` extends the journal of `s` by `es`, and reverting `es` newest first
from `t` gives back the view of `s`. -/
structure Reverts (es : List JournalEntry) (s t : StateDB) : Prop where
  journal_eq : t.journal = s.journal ++ es
  reverts : ∃ t', t.revertEntries es.reverse = .ok t' ∧ t'.view = s.view

namespace Reverts

theorem refl (s : StateDB) : Reverts [] s s := ⟨by simp, s, rfl, rfl⟩

theorem trans {es₁ es₂ : List JournalEntry} {s₀ s₁ s₂ : StateDB} (h₁ : Reverts es₁ s₀ s₁)
    (h₂ : Reverts es₂ s₁ s₂) : Reverts (es₁ ++ es₂) s₀ s₂ := by
  refine ⟨by rw [h₂.journal_eq, h₁.journal_eq, List.append_assoc], ?_⟩
  -- the later entries are undone first, down to the view of `s₁`
  obtain ⟨t₂, ht₂, hv₂⟩ := h₂.reverts
  obtain ⟨t₁, ht₁, hv₁⟩ := h₁.reverts
  obtain ⟨u, hu, hv⟩ := revertEntries_congr es₁.reverse hv₂ ht₁
  refine ⟨u, ?_, hv.trans hv₁⟩
  rw [List.reverse_append, revertEntries_append, ht₂, ok_bind, hu]

/-- A state of the same journal and view reverts alike. -/
theorem of_view {es : List JournalEntry} {s t u : StateDB} (h : Reverts es s t) (hj : u.journal = t.journal)
    (hv : u.view = t.view) : Reverts es s u := by
  obtain ⟨t', ht', hv'⟩ := h.reverts
  obtain ⟨u', hu', huv⟩ := revertEntries_congr es.reverse hv ht'
  exact ⟨hj.trans h.journal_eq, u', hu', huv.trans hv'⟩

end Reverts

/-- What one journalled call of the state database keeps: its entries undo it,
it opens no revision, and it keeps the access list valid. -/
structure Undoes (es : List JournalEntry) (s t : StateDB) : Prop extends Reverts es s t where
  validRevisions_eq : t.validRevisions = s.validRevisions
  nextRevisionId_eq : t.nextRevisionId = s.nextRevisionId
  valid : s.accessList.Valid → t.accessList.Valid

namespace Undoes

theorem refl (s : StateDB) : Undoes [] s s := ⟨Reverts.refl s, rfl, rfl, id⟩

theorem trans {es₁ es₂ : List JournalEntry} {s₀ s₁ s₂ : StateDB} (h₁ : Undoes es₁ s₀ s₁)
    (h₂ : Undoes es₂ s₁ s₂) : Undoes (es₁ ++ es₂) s₀ s₂ :=
  ⟨h₁.toReverts.trans h₂.toReverts, h₂.validRevisions_eq.trans h₁.validRevisions_eq,
    h₂.nextRevisionId_eq.trans h₁.nextRevisionId_eq, fun h => h₂.valid (h₁.valid h)⟩

/-- One entry, whose revert gives back the view of `s`, by a call that leaves
the access list alone. -/
theorem single {e : JournalEntry} {s t : StateDB} (hj : t.journal = s.journal ++ [e])
    (hr : t.validRevisions = s.validRevisions) (hn : t.nextRevisionId = s.nextRevisionId)
    (hal : t.accessList = s.accessList) (hrev : ∃ t', t.revertEntry e = .ok t' ∧ t'.view = s.view) :
    Undoes [e] s t := by
  obtain ⟨t', ht', hv⟩ := hrev
  exact ⟨⟨hj, t'.undirty e, by simp [revertEntries, ht'], by rw [view_undirty, hv]⟩, hr, hn, fun h => hal ▸ h⟩

end Undoes

/-! ## Accounts -/

theorem getStateObject_of_find? {s : StateDB} {a : Address} {o : StateObject}
    (h : s.stateObjects.find? a = some o) : s.getStateObject a = if o.deleted then none else some o := by
  simp [getStateObject, h]

theorem createObject_of_none (crypto : Crypto) {s : StateDB} {a : Address} (hp : s.stateObjects.find? a = none) :
    (s.createObject crypto a).1 =
      { s.append (.createObjectChange a) with stateObjects := s.stateObjects.set a (StateObject.new crypto) } := by
  simp [createObject, hp]
  rfl

theorem createObject_of_some (crypto : Crypto) {s : StateDB} {a : Address} {p : StateObject}
    (hp : s.stateObjects.find? a = some p) :
    (s.createObject crypto a).1 =
      { s.append (.resetObjectChange a p) with stateObjects := s.stateObjects.set a (StateObject.new crypto) } := by
  simp [createObject, hp]
  rfl

theorem createObject_eta (crypto : Crypto) (s : StateDB) (a : Address) :
    { (s.createObject crypto a).1 with stateObjects := s.stateObjects.set a (StateObject.new crypto) } =
      (s.createObject crypto a).1 := by
  rw [← createObject_stateObjects]

/-- `createObject` journals what its revert needs, the account missing or the
object it replaces, whatever is then written at the account. -/
theorem undoes_createObject (crypto : Crypto) (s : StateDB) (a : Address) (x : StateObject) :
    ∃ es, Undoes es s { (s.createObject crypto a).1 with stateObjects := s.stateObjects.set a x } := by
  cases hp : s.stateObjects.find? a with
  | none =>
    rw [createObject_of_none crypto hp]
    refine ⟨_, @Undoes.single (.createObjectChange a) s _ rfl rfl rfl rfl ⟨_, rfl, ?_⟩⟩
    show ({ s with stateObjects := (s.stateObjects.set a x).erase a } : StateDB).view = s.view
    rw [GoMap.erase_set_of_find?_none _ hp]
  | some p =>
    rw [createObject_of_some crypto hp]
    refine ⟨_, @Undoes.single (.resetObjectChange a p) s _ rfl rfl rfl rfl ⟨_, rfl, ?_⟩⟩
    -- the object comes back at `a`, which reads as it did whatever place the map gives it
    show ({ s with stateObjects := (s.stateObjects.set a x).set a p } : StateDB).view = s.view
    have hobj : s.view.objects a = if p.deleted then none else some p.view := by
      simp only [view, getStateObject_of_find? hp]
      split <;> rfl
    rw [GoMap.set_set, view_withObjects_set, ← hobj, Function.update_eq_self]

theorem updateObject_createObject (crypto : Crypto) (s : StateDB) (a : Address) (f : StateObject → StateObject) :
    (s.createObject crypto a).1.updateObject a f =
      { (s.createObject crypto a).1 with stateObjects := s.stateObjects.set a (f (StateObject.new crypto)) } := by
  have hf : (s.createObject crypto a).1.stateObjects.find? a = some (StateObject.new crypto) := by
    rw [createObject_stateObjects, GoMap.find?_set_self]
  rw [updateObject_of_find? hf, createObject_stateObjects, GoMap.set_set]

theorem undoes_getOrNewStateObject (crypto : Crypto) (s : StateDB) (a : Address) :
    ∃ es, Undoes es s (s.getOrNewStateObject crypto a) := by
  unfold getOrNewStateObject
  split
  · exact ⟨[], Undoes.refl s⟩
  · rw [← createObject_eta]
    exact undoes_createObject crypto s a _

/-- A journalled change of the live object at `a` by `f`, whose entry's revert
changes it back by `g`. -/
theorem undoes_updateObject {s : StateDB} {a : Address} {o : StateObject} (ho : s.getStateObject a = some o)
    (e : JournalEntry) (f g : StateObject → StateObject) (hf : ∀ o, (f o).deleted = o.deleted)
    (hg : (g (f o)).view = o.view)
    (hrev : ∀ t : StateDB, t.getStateObject a = some (f o) → t.revertEntry e = .ok (t.updateObject a g)) :
    Undoes [e] s ((s.append e).updateObject a f) := by
  have ht : ((s.append e).updateObject a f).getStateObject a = some (f o) := by
    rw [getStateObject_updateObject_self hf, getStateObject_append, ho]
    rfl
  obtain ⟨hj, hr, hn⟩ := updateObject_journal (s.append e) a f
  refine Undoes.single hj hr hn (accessList_updateObject _ a f) ⟨_, hrev _ ht, ?_⟩
  rw [@view_updateObject_updateObject (s.append e) a o ho f g hg, view_append]

theorem undoes_setBalanceOf {s : StateDB} {a : Address} (h : (s.getStateObject a).isSome) (amount : Int) :
    ∃ es, Undoes es s (s.setBalanceOf a amount) := by
  obtain ⟨o, ho⟩ := Option.isSome_iff_exists.mp h
  have hb : s.getBalance a = o.balance := by simp [getBalance, ho]
  unfold setBalanceOf
  rw [hb]
  exact ⟨_, undoes_updateObject ho _ _ (fun o' => { o' with balance := o.balance }) (fun _ => rfl) rfl
    fun t ht => by simp [revertEntry, setLive, ht]⟩

theorem undoes_addBalance (crypto : Crypto) (s : StateDB) (a : Address) (amount : Int) :
    ∃ es, Undoes es s (s.addBalance crypto a amount) := by
  obtain ⟨es₁, h₁⟩ := undoes_getOrNewStateObject crypto s a
  unfold addBalance
  dsimp only
  split_ifs
  · -- a zero amount on an empty account only touches it
    exact ⟨_, h₁.trans (Undoes.single rfl rfl rfl rfl ⟨_, rfl, rfl⟩)⟩
  · exact ⟨_, h₁⟩
  · obtain ⟨es₂, h₂⟩ := undoes_setBalanceOf (getStateObject_getOrNewStateObject_isSome crypto s a) _
    exact ⟨_, h₁.trans h₂⟩

theorem undoes_subBalance (crypto : Crypto) (s : StateDB) (a : Address) (amount : Int) :
    ∃ es, Undoes es s (s.subBalance crypto a amount) := by
  obtain ⟨es₁, h₁⟩ := undoes_getOrNewStateObject crypto s a
  unfold subBalance
  dsimp only
  split_ifs
  · exact ⟨_, h₁⟩
  · obtain ⟨es₂, h₂⟩ := undoes_setBalanceOf (getStateObject_getOrNewStateObject_isSome crypto s a) _
    exact ⟨_, h₁.trans h₂⟩

theorem undoes_setBalance (crypto : Crypto) (s : StateDB) (a : Address) (amount : Int) :
    ∃ es, Undoes es s (s.setBalance crypto a amount) := by
  obtain ⟨es₁, h₁⟩ := undoes_getOrNewStateObject crypto s a
  obtain ⟨es₂, h₂⟩ := undoes_setBalanceOf (getStateObject_getOrNewStateObject_isSome crypto s a) amount
  exact ⟨_, h₁.trans h₂⟩

theorem undoes_setNonce (crypto : Crypto) (s : StateDB) (a : Address) (nonce : UInt64) :
    ∃ es, Undoes es s (s.setNonce crypto a nonce) := by
  obtain ⟨es₁, h₁⟩ := undoes_getOrNewStateObject crypto s a
  obtain ⟨o, ho⟩ := Option.isSome_iff_exists.mp (getStateObject_getOrNewStateObject_isSome crypto s a)
  have hn : (s.getOrNewStateObject crypto a).getNonce a = o.nonce := by simp [getNonce, ho]
  unfold setNonce
  dsimp only
  rw [hn]
  exact ⟨_, h₁.trans (undoes_updateObject ho _ _ (fun o' => { o' with nonce := o.nonce }) (fun _ => rfl) rfl
    fun t ht => by simp [revertEntry, setLive, ht])⟩

theorem undoes_setCode (crypto : Crypto) (s : StateDB) (a : Address) (code : Bytes) :
    ∃ es, Undoes es s (s.setCode crypto a code) := by
  obtain ⟨es₁, h₁⟩ := undoes_getOrNewStateObject crypto s a
  obtain ⟨o, ho⟩ := Option.isSome_iff_exists.mp (getStateObject_getOrNewStateObject_isSome crypto s a)
  have hc : (s.getOrNewStateObject crypto a).getCode a = o.code := by simp [getCode, ho]
  have hh : (s.getOrNewStateObject crypto a).getCodeHash a = o.codeHash := by simp [getCodeHash, ho]
  unfold setCode
  dsimp only
  rw [hc, hh]
  exact ⟨_, h₁.trans (undoes_updateObject ho _ _ (fun o' => { o' with code := o.code, codeHash := o.codeHash })
    (fun _ => rfl) rfl fun t ht => by simp [revertEntry, setLive, ht])⟩

theorem undoes_setState (crypto : Crypto) (s : StateDB) (a : Address) (key value : Hash) :
    ∃ es, Undoes es s (s.setState crypto a key value) := by
  obtain ⟨es₁, h₁⟩ := undoes_getOrNewStateObject crypto s a
  obtain ⟨o, ho⟩ := Option.isSome_iff_exists.mp (getStateObject_getOrNewStateObject_isSome crypto s a)
  have hprev : (s.getOrNewStateObject crypto a).getState a key = o.getState key := by simp [getState, ho]
  unfold setState
  dsimp only
  rw [hprev]
  split_ifs
  · exact ⟨_, h₁⟩
  · -- writing the old value back at `key` reads as the object did
    have hg : ({ o with storage := (o.storage.set key value).set key (o.getState key) } : StateObject).view =
        o.view := by
      rw [GoMap.set_set, StateObject.view_withStorage]
      exact congrArg (fun st => ({ o.view with storage := st } : StateObject.View))
        (Function.update_eq_self key o.view.storage)
    exact ⟨_, h₁.trans (undoes_updateObject ho _ _ (fun o' => { o' with storage := o'.storage.set key (o.getState key) })
      (fun _ => rfl) hg fun t ht => by simp [revertEntry, setLive, ht])⟩

theorem undoes_selfDestruct (s : StateDB) (a : Address) : ∃ es, Undoes es s (s.selfDestruct a) := by
  unfold selfDestruct
  split
  · exact ⟨[], Undoes.refl s⟩
  · next o ho =>
    exact ⟨_, undoes_updateObject ho _ _ (fun o' => { o' with suicided := o.suicided, balance := o.balance })
      (fun _ => rfl) rfl fun t ht => by simp [revertEntry, ht]⟩

theorem undoes_createAccount (crypto : Crypto) (s : StateDB) (a : Address) :
    ∃ es, Undoes es s (s.createAccount crypto a) := by
  unfold createAccount
  split
  · next s' prev hc =>
    -- the balance the new object keeps is written without an entry: the revert puts the old object back
    have hs' : s' = (s.createObject crypto a).1 := by rw [hc]
    rw [hs', updateObject_createObject]
    exact undoes_createObject crypto s a _
  · next s' hc =>
    have hs' : s' = (s.createObject crypto a).1 := by rw [hc]
    rw [hs', ← createObject_eta]
    exact undoes_createObject crypto s a _

/-! ## The refund, the logs, the preimages and the transient storage -/

theorem undoes_addRefund (s : StateDB) (gas : UInt64) : ∃ es, Undoes es s (s.addRefund gas) :=
  ⟨_, Undoes.single rfl rfl rfl rfl ⟨_, rfl, rfl⟩⟩

theorem undoes_subRefund {s t : StateDB} {gas : UInt64} (h : s.subRefund gas = .ok t) : ∃ es, Undoes es s t := by
  unfold subRefund at h
  split at h
  · cases h
  · cases h
    exact ⟨_, Undoes.single rfl rfl rfl rfl ⟨_, rfl, rfl⟩⟩

/-- The revert of `AddLog` on the map of logs: the hash's list without its last
log, and no list when that log was its only one. -/
theorem get_revertAddLog (logs : GoMap Hash (List Log)) (h : Hash) (l : Log) (k : Hash) :
    GoMap.get (if ((logs.set h (logs.get h [] ++ [l])).get h []).length = 1
        then (logs.set h (logs.get h [] ++ [l])).erase h
        else (logs.set h (logs.get h [] ++ [l])).set h ((logs.set h (logs.get h [] ++ [l])).get h []).dropLast)
      k [] = logs.get k [] := by
  rw [get_cutLogs, GoMap.get_set_self]
  by_cases hk : k = h
  · rw [if_pos hk, List.dropLast_concat, hk]
  · rw [if_neg hk, GoMap.get_set_ne _ _ _ hk]

theorem undoes_addLog (s : StateDB) (l : Log) : ∃ es, Undoes es s (s.addLog l) := by
  refine ⟨_, Undoes.single rfl rfl rfl rfl ⟨_, rfl, ?_⟩⟩
  rw [view_withLogs]
  exact congrArg₂ (fun f n => ({ s.view with logs := f, logSize := n } : View))
    (funext (get_revertAddLog s.logs s.thash _)) (Nat.add_sub_cancel s.logSize 1)

theorem undoes_addPreimage (s : StateDB) (hash : Hash) (preimage : Bytes) :
    ∃ es, Undoes es s (s.addPreimage hash preimage) := by
  unfold addPreimage
  split
  · exact ⟨[], Undoes.refl s⟩
  · next hp =>
    refine ⟨_, Undoes.single rfl rfl rfl rfl ⟨_, rfl, ?_⟩⟩
    show ({ s with preimages := (s.preimages.set hash preimage).erase hash } : StateDB).view = s.view
    rw [GoMap.erase_set_of_find?_none _ hp]

theorem undoes_setTransientState (s : StateDB) (a : Address) (key value : Hash) :
    ∃ es, Undoes es s (s.setTransientState a key value) := by
  unfold setTransientState
  dsimp only
  split
  · exact ⟨[], Undoes.refl s⟩
  · refine ⟨_, Undoes.single rfl rfl rfl rfl ⟨_, rfl, ?_⟩⟩
    -- the old value written back reads as the storage did
    have hts : ∀ a' k', transientStorageGet (transientStorageSet (transientStorageSet s.transientStorage a key value)
        a key (s.getTransientState a key)) a' k' = s.getTransientState a' k' := by
      intro a' k'
      by_cases hak : a' = a ∧ k' = key
      · obtain ⟨rfl, rfl⟩ := hak
        simp [transientStorageGet_set, getTransientState]
      · simp [transientStorageGet_set, hak, getTransientState]
    show ({ s with transientStorage := (transientStorageSet (transientStorageSet s.transientStorage a key value)
      a key (s.getTransientState a key)) } : StateDB).view = s.view
    rw [view_withTransient]
    exact congrArg (fun f => ({ s.view with transient := f } : View)) (funext fun a' => funext (hts a'))

end StateDB

/-- The entry the state database journals for a change its access list
reports. -/
def AccessList.Change.entry : AccessList.Change → JournalEntry
  | .address a => .accessListAddAccountChange a
  | .slot a s => .accessListAddSlotChange a s

namespace StateDB

/-! ## The access list -/

/-- The entries of the changes, appended oldest first. -/
def appendChanges (s : StateDB) (cs : List AccessList.Change) : StateDB :=
  (cs.map AccessList.Change.entry).foldl append s

/-- The entries of access-list changes dirty no account. -/
theorem appendChanges_eq : ∀ (s : StateDB) (cs : List AccessList.Change),
    s.appendChanges cs = { s with journal := s.journal ++ cs.map AccessList.Change.entry }
  | s, [] => by simp [appendChanges]
  | s, c :: cs => by
    have hc : s.append c.entry = { s with journal := s.journal ++ [c.entry] } := by cases c <;> rfl
    rw [appendChanges, List.map_cons, List.foldl_cons, ← appendChanges, appendChanges_eq _ cs, hc]
    simp

theorem revertEntry_entry (s : StateDB) (c : AccessList.Change) :
    s.revertEntry c.entry = (AccessList.Change.undo s.accessList c).map fun al => { s with accessList := al } := by
  cases c with
  | address a => rfl
  | slot a slot =>
    show (s.accessList.deleteSlot a slot >>= fun al => .ok { s with accessList := al }) =
      (s.accessList.deleteSlot a slot).map fun al => { s with accessList := al }
    cases s.accessList.deleteSlot a slot <;> rfl

theorem undirty_entry (s : StateDB) (c : AccessList.Change) : s.undirty c.entry = s := by
  cases c <;> rfl

/-- The entries of access-list changes, reverted in a given order, undo the
changes on the list in that order. -/
theorem revertEntries_map_entry : ∀ (cs : List AccessList.Change) (s : StateDB),
    s.revertEntries (cs.map AccessList.Change.entry) =
      (cs.foldlM AccessList.Change.undo s.accessList).map fun al => { s with accessList := al }
  | [], s => rfl
  | c :: cs, s => by
    rw [List.map_cons, revertEntries, revertEntry_entry, List.foldlM_cons]
    cases AccessList.Change.undo s.accessList c with
    | error p => rfl
    | ok al =>
      show (({ s with accessList := al } : StateDB).undirty c.entry).revertEntries (cs.map AccessList.Change.entry) = _
      rw [undirty_entry, revertEntries_map_entry cs]
      rfl

/-- Changes to the access list whose undo gives back a list Go cannot tell
from the one before. -/
theorem undoes_appendChanges {s : StateDB} {al u : AccessList} {cs : List AccessList.Change}
    (hu : AccessList.undoAll al cs = .ok u) (hs : u.Same s.accessList) (hal : al.Valid) :
    Undoes (cs.map AccessList.Change.entry) s (appendChanges { s with accessList := al } cs) := by
  rw [appendChanges_eq]
  refine ⟨⟨rfl, ?_⟩, rfl, rfl, fun _ => hal⟩
  refine ⟨{ s with accessList := u, journal := s.journal ++ cs.map AccessList.Change.entry }, ?_, ?_⟩
  · rw [← List.map_reverse, revertEntries_map_entry]
    show Except.map _ (AccessList.undoAll al cs) = _
    rw [hu]
    rfl
  · exact @view_withAccessList_congr { s with journal := s.journal ++ cs.map AccessList.Change.entry } s rfl u
      s.accessList hs

theorem addAddressToAccessList_of_apply {s : StateDB} {a : Address} {al : AccessList}
    {cs : List AccessList.Change} (h : (AccessList.Addition.address a).apply s.accessList = .ok (al, cs)) :
    s.addAddressToAccessList a = .ok (appendChanges { s with accessList := al } cs) := by
  obtain ⟨⟨al', added⟩, hadd, h⟩ := bind_eq_ok h
  simp only [Except.ok.injEq, Prod.mk.injEq] at h
  obtain ⟨rfl, rfl⟩ := h
  simp only [addAddressToAccessList, hadd, ok_bind]
  cases added <;> rfl

theorem addSlotToAccessList_of_apply {s : StateDB} {a : Address} {slot : Hash} {al : AccessList}
    {cs : List AccessList.Change} (h : (AccessList.Addition.slot a slot).apply s.accessList = .ok (al, cs)) :
    s.addSlotToAccessList a slot = .ok (appendChanges { s with accessList := al } cs) := by
  obtain ⟨⟨al', addrMod, slotMod⟩, hadd, h⟩ := bind_eq_ok h
  simp only [Except.ok.injEq, Prod.mk.injEq] at h
  obtain ⟨rfl, rfl⟩ := h
  simp only [addSlotToAccessList, hadd, ok_bind]
  cases addrMod <;> cases slotMod <;> rfl

/-! ## Runs -/

/-- The journalled calls of `vm.StateDB`. -/
inductive Mutation where
  | addBalance (a : Address) (amount : Int)
  | subBalance (a : Address) (amount : Int)
  | setBalance (a : Address) (amount : Int)
  | setNonce (a : Address) (nonce : UInt64)
  | setCode (a : Address) (code : Bytes)
  | setState (a : Address) (key value : Hash)
  | createAccount (a : Address)
  | selfDestruct (a : Address)
  | addRefund (gas : UInt64)
  | subRefund (gas : UInt64)
  | addLog (l : Log)
  | addPreimage (hash : Hash) (preimage : Bytes)
  | addAddressToAccessList (a : Address)
  | addSlotToAccessList (a : Address) (slot : Hash)
  | setTransientState (a : Address) (key value : Hash)

namespace Mutation

/-- The call on the state: `SubRefund` and the two access-list calls can panic. -/
def apply (crypto : Crypto) (s : StateDB) : Mutation → Go StateDB
  | .addBalance a amount => .ok (s.addBalance crypto a amount)
  | .subBalance a amount => .ok (s.subBalance crypto a amount)
  | .setBalance a amount => .ok (s.setBalance crypto a amount)
  | .setNonce a nonce => .ok (s.setNonce crypto a nonce)
  | .setCode a code => .ok (s.setCode crypto a code)
  | .setState a key value => .ok (s.setState crypto a key value)
  | .createAccount a => .ok (s.createAccount crypto a)
  | .selfDestruct a => .ok (s.selfDestruct a)
  | .addRefund gas => .ok (s.addRefund gas)
  | .subRefund gas => s.subRefund gas
  | .addLog l => .ok (s.addLog l)
  | .addPreimage hash preimage => .ok (s.addPreimage hash preimage)
  | .addAddressToAccessList a => s.addAddressToAccessList a
  | .addSlotToAccessList a slot => s.addSlotToAccessList a slot
  | .setTransientState a key value => .ok (s.setTransientState a key value)

/-- Every call journals what undoes it, on a state whose access list is valid. -/
theorem undoes (crypto : Crypto) {s t : StateDB} (hv : s.accessList.Valid) :
    ∀ m : Mutation, m.apply crypto s = .ok t → ∃ es, Undoes es s t
  | .addBalance a amount, h => by cases h; exact undoes_addBalance crypto s a amount
  | .subBalance a amount, h => by cases h; exact undoes_subBalance crypto s a amount
  | .setBalance a amount, h => by cases h; exact undoes_setBalance crypto s a amount
  | .setNonce a nonce, h => by cases h; exact undoes_setNonce crypto s a nonce
  | .setCode a code, h => by cases h; exact undoes_setCode crypto s a code
  | .setState a key value, h => by cases h; exact undoes_setState crypto s a key value
  | .createAccount a, h => by cases h; exact undoes_createAccount crypto s a
  | .selfDestruct a, h => by cases h; exact undoes_selfDestruct s a
  | .addRefund gas, h => by cases h; exact undoes_addRefund s gas
  | .subRefund gas, h => undoes_subRefund h
  | .addLog l, h => by cases h; exact undoes_addLog s l
  | .addPreimage hash preimage, h => by cases h; exact undoes_addPreimage s hash preimage
  | .addAddressToAccessList a, h => by
    obtain ⟨al, cs, happ, hal, u, hu, hs⟩ := AccessList.undoAll_apply hv (.address a)
    rw [apply, addAddressToAccessList_of_apply happ] at h
    cases h
    exact ⟨_, undoes_appendChanges hu hs hal⟩
  | .addSlotToAccessList a slot, h => by
    obtain ⟨al, cs, happ, hal, u, hu, hs⟩ := AccessList.undoAll_apply hv (.slot a slot)
    rw [apply, addSlotToAccessList_of_apply happ] at h
    cases h
    exact ⟨_, undoes_appendChanges hu hs hal⟩
  | .setTransientState a key value, h => by cases h; exact undoes_setTransientState s a key value

end Mutation

/-- The calls a transaction makes on the state, in order: journalled calls, a
snapshot kept (a call that returns), and a snapshot reverted after the calls
made since (a call that fails). -/
inductive Run (crypto : Crypto) : StateDB → StateDB → Prop where
  | nil (s : StateDB) : Run crypto s s
  | mutate {s t u : StateDB} (m : Mutation) : Run crypto s t → m.apply crypto t = .ok u → Run crypto s u
  | snapshot {s t : StateDB} : Run crypto s t → Run crypto s t.snapshot.1
  | nested {s t u v : StateDB} : Run crypto s t → Run crypto t.snapshot.1 u →
      u.revertToSnapshot t.snapshot.2 = .ok v → Run crypto s v

/-- A revert to the id of a snapshot finds that snapshot's revision, whatever
revisions were opened after it: it undoes the journal down to the length the
snapshot recorded and keeps the revisions opened before. -/
theorem revertToSnapshot_of_snapshot {s t : StateDB} (hs : s.RevisionsBelow) {rest : List Revision}
    (ht : t.validRevisions = s.snapshot.1.validRevisions ++ rest) :
    t.revertToSnapshot s.snapshot.2 = (do
      let t' ← t.revertEntries (t.journal.drop s.journal.length).reverse
      .ok { t' with journal := t.journal.take s.journal.length, validRevisions := s.validRevisions }) := by
  have hvr : t.validRevisions = s.validRevisions ++ ⟨s.nextRevisionId, s.journal.length⟩ :: rest := by
    rw [ht]
    simp [snapshot]
  -- every older revision has a smaller id, so the search stops at the snapshot's
  have hidx : ∀ p : Revision → Bool, (∀ r ∈ s.validRevisions, p r = false) →
      p ⟨s.nextRevisionId, s.journal.length⟩ = true → t.validRevisions.findIdx p = s.validRevisions.length := by
    intro p hp hx
    rw [hvr, List.findIdx_append, List.findIdx_eq_length_of_false hp, List.findIdx_cons, hx]
    simp
  simp only [revertToSnapshot, snapshot]
  rw [hidx _ (fun r hr => by simpa using hs r hr) (by simp), hvr, List.getElem?_append_right (le_refl _),
    Nat.sub_self, List.getElem?_cons_zero]
  simp only [if_true, List.take_left]

/-- After a snapshot and calls whose entries undo them, the revert to the
snapshot's id gives back the view, the journal and the revisions from before
the snapshot. -/
theorem revertToSnapshot_reverts {s t : StateDB} (hs : s.RevisionsBelow) {rest : List Revision}
    (ht : t.validRevisions = s.snapshot.1.validRevisions ++ rest) {es : List JournalEntry}
    (hr : Reverts es s.snapshot.1 t) :
    ∃ u, t.revertToSnapshot s.snapshot.2 = .ok u ∧ u.view = s.view ∧ u.journal = s.journal ∧
      u.validRevisions = s.validRevisions ∧ u.nextRevisionId = t.nextRevisionId := by
  obtain ⟨t', ht', hv⟩ := hr.reverts
  have hj : t.journal = s.journal ++ es := hr.journal_eq
  have hdrop : t.journal.drop s.journal.length = es := by rw [hj, List.drop_left]
  have htake : t.journal.take s.journal.length = s.journal := by rw [hj, List.take_left]
  refine ⟨{ t' with journal := s.journal, validRevisions := s.validRevisions }, ?_, hv, rfl, rfl,
    (revertEntries_journal _ ht').2.2⟩
  rw [revertToSnapshot_of_snapshot hs ht, hdrop, ht', ok_bind, htake]

/-- What a run keeps, from a state whose revisions are below its next id and
whose access list is valid. -/
structure RunFacts (s t : StateDB) : Prop where
  reverts : ∃ es, Reverts es s t
  revisions : ∃ rest, t.validRevisions = s.validRevisions ++ rest
  nextRevisionId_le : s.nextRevisionId ≤ t.nextRevisionId
  revisionsBelow : t.RevisionsBelow
  valid : t.accessList.Valid

namespace RunFacts

theorem refl {s : StateDB} (hs : s.RevisionsBelow) (hv : s.accessList.Valid) : RunFacts s s :=
  ⟨⟨[], Reverts.refl s⟩, ⟨[], by simp⟩, le_refl _, hs, hv⟩

theorem mutate (crypto : Crypto) {s t u : StateDB} (h : RunFacts s t) (m : Mutation)
    (hm : m.apply crypto t = .ok u) : RunFacts s u := by
  obtain ⟨es₁, hr⟩ := h.reverts
  obtain ⟨es₂, hu⟩ := m.undoes crypto h.valid hm
  obtain ⟨rest, hrest⟩ := h.revisions
  refine ⟨⟨_, hr.trans hu.toReverts⟩, ⟨rest, by rw [hu.validRevisions_eq, hrest]⟩,
    hu.nextRevisionId_eq ▸ h.nextRevisionId_le, fun r hr' => ?_, hu.valid h.valid⟩
  rw [hu.validRevisions_eq] at hr'
  rw [hu.nextRevisionId_eq]
  exact h.revisionsBelow r hr'

theorem snapshot {s t : StateDB} (h : RunFacts s t) : RunFacts s t.snapshot.1 := by
  obtain ⟨es, hr⟩ := h.reverts
  obtain ⟨rest, hrest⟩ := h.revisions
  have hle : s.nextRevisionId ≤ t.nextRevisionId + 1 := by
    have := h.nextRevisionId_le
    omega
  exact ⟨⟨es, hr.of_view rfl rfl⟩, ⟨rest ++ [⟨t.nextRevisionId, t.journal.length⟩], by simp [StateDB.snapshot, hrest]⟩,
    hle, revisionsBelow_snapshot h.revisionsBelow, h.valid⟩

/-- A nested snapshot reverted: the revert gives back the view and the
revisions of the state the snapshot was taken in. -/
theorem nested {s t u v : StateDB} (h : RunFacts s t) (hu : RunFacts t.snapshot.1 u)
    (hv : u.revertToSnapshot t.snapshot.2 = .ok v) : RunFacts s v := by
  obtain ⟨rest, hrest⟩ := hu.revisions
  obtain ⟨es, hr⟩ := hu.reverts
  obtain ⟨v', hv', hview, hj, hrev, hnext⟩ := revertToSnapshot_reverts h.revisionsBelow hrest hr
  rw [hv, Except.ok.injEq] at hv'
  subst hv'
  obtain ⟨es₁, hr₁⟩ := h.reverts
  have hle : t.nextRevisionId ≤ v.nextRevisionId := by
    have := hu.nextRevisionId_le
    simp only [StateDB.snapshot] at this
    omega
  refine ⟨⟨es₁, hr₁.of_view hj hview⟩, by rw [hrev]; exact h.revisions, h.nextRevisionId_le.trans hle,
    fun r hr' => ?_, (same_of_view hview).valid h.valid⟩
  rw [hrev] at hr'
  exact lt_of_lt_of_le (h.revisionsBelow r hr') hle

end RunFacts

/-- The run lemma: every run keeps the facts, one step at a time. -/
theorem Run.facts {crypto : Crypto} {s t : StateDB} (h : Run crypto s t) :
    s.RevisionsBelow → s.accessList.Valid → RunFacts s t := by
  induction h with
  | nil s => exact RunFacts.refl
  | mutate m _ hm ih => exact fun hs hv => (ih hs hv).mutate crypto m hm
  | snapshot _ ih => exact fun hs hv => (ih hs hv).snapshot
  | nested _ _ hrev ih₁ ih₂ =>
    intro hs hv
    have h₁ := ih₁ hs hv
    exact h₁.nested (ih₂ (revisionsBelow_snapshot h₁.revisionsBelow) h₁.valid) hrev

/-! ## What the reads see -/

/-- Two states on which every read answers alike: the account reads, the
refund, the logs, the access list as Go sees it and the transient storage. -/
structure ReadsAlike (crypto : Crypto) (u t : StateDB) : Prop where
  getBalance : ∀ a, u.getBalance a = t.getBalance a
  getNonce : ∀ a, u.getNonce a = t.getNonce a
  getCode : ∀ a, u.getCode a = t.getCode a
  getCodeHash : ∀ a, u.getCodeHash a = t.getCodeHash a
  getState : ∀ a key, u.getState a key = t.getState a key
  getCommittedState : ∀ a key, u.getCommittedState a key = t.getCommittedState a key
  hasSelfDestructed : ∀ a, u.hasSelfDestructed a = t.hasSelfDestructed a
  exist : ∀ a, u.exist a = t.exist a
  empty : ∀ a, u.empty crypto a = t.empty crypto a
  getRefund : u.getRefund = t.getRefund
  getLogs : ∀ hash blockNumber blockHash, u.getLogs hash blockNumber blockHash = t.getLogs hash blockNumber blockHash
  accessList : u.getAccessList.Same t.getAccessList
  addressInAccessList : ∀ a, u.addressInAccessList a = t.addressInAccessList a
  slotInAccessList : ∀ a slot, u.slotInAccessList a slot = t.slotInAccessList a slot
  getTransientState : ∀ a key, u.getTransientState a key = t.getTransientState a key

/-- A read of one account through its view. -/
theorem map_getStateObject_of_view {u t : StateDB} (h : u.view = t.view) (a : Address) {β : Type}
    (f : StateObject.View → β) :
    (u.getStateObject a).map (fun o => f o.view) = (t.getStateObject a).map (fun o => f o.view) := by
  have := congrArg (Option.map f) (objects_eq_of_view h a)
  simp only [Option.map_map] at this
  exact this

theorem empty_eq (crypto : Crypto) (s : StateDB) (a : Address) :
    s.empty crypto a = ((s.getStateObject a).map fun o => o.empty crypto).getD true := by
  unfold empty
  cases s.getStateObject a <;> rfl

/-- Every read goes through the view. -/
theorem ReadsAlike.of_view (crypto : Crypto) {u t : StateDB} (h : u.view = t.view) : ReadsAlike crypto u t where
  getBalance a := congrArg (Option.getD · 0) (map_getStateObject_of_view h a StateObject.View.balance)
  getNonce a := congrArg (Option.getD · 0) (map_getStateObject_of_view h a StateObject.View.nonce)
  getCode a := congrArg (Option.getD · []) (map_getStateObject_of_view h a StateObject.View.code)
  getCodeHash a := congrArg (Option.getD · 0) (map_getStateObject_of_view h a StateObject.View.codeHash)
  getState a key := congrArg (Option.getD · 0) (map_getStateObject_of_view h a fun v => v.storage key)
  getCommittedState a key := congrArg (Option.getD · 0) (map_getStateObject_of_view h a fun v => v.committed key)
  hasSelfDestructed a := congrArg (Option.getD · false) (map_getStateObject_of_view h a StateObject.View.suicided)
  exist a := by
    have := congrArg Option.isSome (objects_eq_of_view h a)
    simp only [Option.isSome_map] at this
    exact this
  empty a := by
    rw [empty_eq, empty_eq]
    exact congrArg (Option.getD · true) (map_getStateObject_of_view h a fun v =>
      v.nonce == 0 && v.balance == 0 && v.codeHash == emptyCodeHash crypto)
  getRefund := congrArg View.refund h
  getLogs hash _ _ := congrArg (List.map _) (congrFun (congrArg View.logs h) hash)
  accessList := same_of_view h
  addressInAccessList a := (same_of_view h).containsAddress_eq a
  slotInAccessList a slot := (same_of_view h).contains_eq a slot
  getTransientState a key := congrFun (congrFun (congrArg View.transient h) a) key

/-! ## Snapshot and revert -/

/-- After `id := Snapshot()`, any run of journalled calls, of snapshots kept
and of nested snapshots reverted, `RevertToSnapshot(id)` succeeds, every read
answers as right after the snapshot, and the revisions valid are those opened
before it. -/
theorem revertToSnapshot_restores (crypto : Crypto) {s t : StateDB} (hs : s.RevisionsBelow)
    (hv : s.accessList.Valid) (h : Run crypto s.snapshot.1 t) :
    ∃ u, t.revertToSnapshot s.snapshot.2 = .ok u ∧ ReadsAlike crypto u s.snapshot.1 ∧
      u.validRevisions = s.validRevisions := by
  have hf := h.facts (revisionsBelow_snapshot hs) hv
  obtain ⟨rest, hrest⟩ := hf.revisions
  obtain ⟨es, hr⟩ := hf.reverts
  obtain ⟨u, hu, huv, -, hur, -⟩ := revertToSnapshot_reverts hs hrest hr
  exact ⟨u, hu, ReadsAlike.of_view crypto huv, hur⟩

/-- The new state, a snapshot and a transfer into `0xa1`. -/
theorem revertToSnapshot_restores_addBalance :
    (StateDB.new ∅).RevisionsBelow ∧ (StateDB.new ∅).accessList.Valid ∧
      Run byteCrypto (StateDB.new ∅).snapshot.1 ((StateDB.new ∅).snapshot.1.addBalance byteCrypto 0xa1 5) ∧
      ∃ u, ((StateDB.new ∅).snapshot.1.addBalance byteCrypto 0xa1 5).revertToSnapshot (StateDB.new ∅).snapshot.2 =
          .ok u ∧ ReadsAlike byteCrypto u (StateDB.new ∅).snapshot.1 ∧ u.validRevisions = (StateDB.new ∅).validRevisions := by
  have hs : (StateDB.new ∅).RevisionsBelow := fun r hr => by simp [StateDB.new] at hr
  have hrun : Run byteCrypto (StateDB.new ∅).snapshot.1 ((StateDB.new ∅).snapshot.1.addBalance byteCrypto 0xa1 5) :=
    Run.mutate (.addBalance 0xa1 5) (Run.nil _) rfl
  exact ⟨hs, AccessList.valid_newAccessList, hrun,
    revertToSnapshot_restores byteCrypto hs AccessList.valid_newAccessList hrun⟩

/-! ## Reachable states -/

/-- The states the calls of the state database reach from `New`: runs of
journalled calls and snapshots, and `Finalise` and `SetTxContext` between
transactions. -/
inductive Reachable (crypto : Crypto) : StateDB → Prop where
  | new (accounts : GoMap Address StateObject) : Reachable crypto (StateDB.new accounts)
  | run {s t : StateDB} : Reachable crypto s → Run crypto s t → Reachable crypto t
  | finalise {s : StateDB} (deleteEmptyObjects : Bool) : Reachable crypto s →
      Reachable crypto (s.finalise crypto deleteEmptyObjects)
  | setTxContext {s : StateDB} (thash : Hash) : Reachable crypto s → Reachable crypto (s.setTxContext thash)

theorem accessList_foldl {α : Type} (f : StateDB → α → StateDB) (hf : ∀ s a, (f s a).accessList = s.accessList) :
    ∀ (l : List α) (s : StateDB), (l.foldl f s).accessList = s.accessList
  | [], _ => rfl
  | a :: l, s => (accessList_foldl f hf l (f s a)).trans (hf s a)

theorem accessList_clearJournalAndRefund (s : StateDB) : s.clearJournalAndRefund.accessList = s.accessList := by
  unfold clearJournalAndRefund
  split <;> rfl

theorem accessList_finalise (crypto : Crypto) (s : StateDB) (deleteEmptyObjects : Bool) :
    (s.finalise crypto deleteEmptyObjects).accessList = s.accessList := by
  unfold finalise
  dsimp only
  rw [accessList_clearJournalAndRefund]
  -- each dirtied account's update writes only its object
  refine accessList_foldl _ (fun s a => ?_) _ s
  split
  · split <;> rfl
  · rfl

/-- Every reachable state has its revisions below the next id and a valid
access list, the two facts the revert theorem starts from. -/
theorem Reachable.invariant {crypto : Crypto} {s : StateDB} (h : Reachable crypto s) :
    s.RevisionsBelow ∧ s.accessList.Valid := by
  induction h with
  | new accounts => exact ⟨fun r hr => by simp [StateDB.new] at hr, AccessList.valid_newAccessList⟩
  | run _ hrun ih =>
    have hf := hrun.facts ih.1 ih.2
    exact ⟨hf.revisionsBelow, hf.valid⟩
  | finalise d _ ih =>
    -- `Finalise` clears the revisions and leaves the access list alone
    exact ⟨fun r hr => absurd hr List.not_mem_nil, (accessList_finalise crypto _ d).symm ▸ ih.2⟩
  | setTxContext thash _ ih => exact ih

/-- From a reachable state, a revert to a snapshot after any run from it
succeeds and gives the state's view back. -/
theorem Reachable.revertToSnapshot {crypto : Crypto} {s t : StateDB} (hs : Reachable crypto s)
    (h : Run crypto s.snapshot.1 t) : ∃ u, t.revertToSnapshot s.snapshot.2 = .ok u ∧ u.view = s.view := by
  obtain ⟨hrev, hv⟩ := hs.invariant
  have hf := h.facts (revisionsBelow_snapshot hrev) hv
  obtain ⟨rest, hrest⟩ := hf.revisions
  obtain ⟨es, hr⟩ := hf.reverts
  obtain ⟨u, hu, huv, -⟩ := revertToSnapshot_reverts hrev hrest hr
  exact ⟨u, hu, huv⟩

end StateDB

end Pangu
