import Pangu.AccessList.Basic

/-!
# What the operations of an access list do

`Valid` is the invariant of the comment on `AccessList` (`WellFormed`) and one
fact more, which `DeleteSlot` relies on: no slot set is empty, so a set that a
deletion empties is the one its addition made, the last of `Slots`. Over a
well-formed list `ContainsAddress` and `Contains` never panic, and what they
observe (`content`) is a set of addresses and a set of pairs. Each operation
keeps the invariant and changes that content as a set operation:

* `addAddress_spec`, `addSlot_spec`: the insertion of an address, and of an
  address and a pair;
* `combineTrueAccessList_spec`: the union with the list combined in;
* `copy_content`: the same content.

The journal undoes additions with `DeleteAddress` and `DeleteSlot`, newest
first (`undoAll`). `undoAll_applyAll`: undoing every change that a sequence of
additions reports gives back a list with the same map, as Go compares maps,
key by key, and the same `Slots`.
-/

namespace Pangu

open Go

namespace AccessList

/-- `WellFormed`, and no slot set empty. -/
structure Valid (al : AccessList) : Prop extends al.WellFormed where
  slots_nonempty : ∀ m ∈ al.slots, m.len ≠ 0

theorem valid_newAccessList : newAccessList.Valid where
  nonNil := rfl
  index_valid := by simp [newAccessList, addrs]
  index_inj := by simp [newAccessList, addrs]
  index_used := by simp [newAccessList]
  slots_nonempty := by simp [newAccessList]

@[simp] theorem addrs_mk (m : GoMap Address Int) (l : List (GoMap Hash Unit)) :
    (⟨some m, l⟩ : AccessList).addrs = m := rfl

@[simp] theorem addrs_withSlots (al : AccessList) (l : List (GoMap Hash Unit)) :
    ({ al with slots := l } : AccessList).addrs = al.addrs := rfl

/-! ## What `Contains` reads -/

/-- The slot set `Contains` reads for `a`, if `a` has one. -/
def slotSetOf (al : AccessList) (a : Address) : Option (GoMap Hash Unit) :=
  match al.addrs.find? a with
  | some i => if i = -1 then none else al.slots[i.toNat]?
  | none => none

/-- The slots `Contains` finds at `a`. -/
def slotsAt (al : AccessList) (a : Address) : Set Hash :=
  {s | (al.slotSetOf a).any fun m => (m.find? s).isSome}

theorem mem_slotsAt_of_slotSetOf {al : AccessList} {a : Address} {m : GoMap Hash Unit}
    (h : al.slotSetOf a = some m) (s : Hash) : s ∈ al.slotsAt a ↔ (m.find? s).isSome := by
  simp [slotsAt, h]

theorem slotsAt_of_slotSetOf_none {al : AccessList} {a : Address} (h : al.slotSetOf a = none) :
    al.slotsAt a = ∅ := by
  simp [slotsAt, h]

theorem containsAddress_of_slotSetOf {al : AccessList} {a : Address} {m : GoMap Hash Unit}
    (h : al.slotSetOf a = some m) : al.containsAddress a = true := by
  unfold slotSetOf at h
  unfold containsAddress
  cases hf : al.addrs.find? a with
  | none => simp [hf] at h
  | some i => rfl

/-- Over a well-formed list `Contains` never panics: the index it reads is
`-1` or in `Slots`. -/
theorem contains_of_wellFormed {al : AccessList} (h : al.WellFormed) (a : Address) (s : Hash) :
    al.contains a s = .ok (al.containsAddress a, (al.slotSetOf a).any fun m => (m.find? s).isSome) := by
  unfold contains slotSetOf containsAddress
  cases hf : al.addrs.find? a with
  | none => rfl
  | some i =>
    by_cases hi : i = -1
    · simp [hi]
    · obtain ⟨h0, hlt⟩ := (h.index_valid a i hf).resolve_left hi
      have hlt' : i.toNat < al.slots.length := by omega
      simp only [if_neg hi, sliceIndex, dif_pos (And.intro h0 hlt'), List.getElem?_eq_getElem hlt', ok_bind,
        Option.isSome_some, Option.any_some]
      rfl

/-! ## Content -/

/-- What a list holds: its addresses, and its (address, slot) pairs. -/
@[ext] structure Content where
  addresses : Set Address
  slots : Set (Address × Hash)

namespace Content

instance : Union Content := ⟨fun c d => ⟨c.addresses ∪ d.addresses, c.slots ∪ d.slots⟩⟩

instance : HasSubset Content := ⟨fun c d => c.addresses ⊆ d.addresses ∧ c.slots ⊆ d.slots⟩

@[simp] theorem union_addresses (c d : Content) : (c ∪ d).addresses = c.addresses ∪ d.addresses := rfl

@[simp] theorem union_slots (c d : Content) : (c ∪ d).slots = c.slots ∪ d.slots := rfl

theorem subset_iff {c d : Content} : c ⊆ d ↔ c.addresses ⊆ d.addresses ∧ c.slots ⊆ d.slots := Iff.rfl

/-- What `AddAddress(a)` makes of a list's content. -/
def insertAddress (a : Address) (c : Content) : Content := ⟨insert a c.addresses, c.slots⟩

/-- What `AddSlot(a, s)` makes of it: the address and the pair. -/
def insertSlot (a : Address) (s : Hash) (c : Content) : Content :=
  ⟨insert a c.addresses, insert (a, s) c.slots⟩

/-- The part of a content at the addresses `A`. -/
def restrict (c : Content) (A : Set Address) : Content :=
  ⟨c.addresses ∩ A, {p | p ∈ c.slots ∧ p.1 ∈ A}⟩

@[simp] theorem insertAddress_addresses (a : Address) (c : Content) :
    (c.insertAddress a).addresses = insert a c.addresses := rfl

@[simp] theorem insertAddress_slots (a : Address) (c : Content) : (c.insertAddress a).slots = c.slots := rfl

@[simp] theorem insertSlot_addresses (a : Address) (s : Hash) (c : Content) :
    (c.insertSlot a s).addresses = insert a c.addresses := rfl

@[simp] theorem insertSlot_slots (a : Address) (s : Hash) (c : Content) :
    (c.insertSlot a s).slots = insert (a, s) c.slots := rfl

@[simp] theorem restrict_addresses (c : Content) (A : Set Address) :
    (c.restrict A).addresses = c.addresses ∩ A := rfl

@[simp] theorem mem_restrict_slots (c : Content) (A : Set Address) (p : Address × Hash) :
    p ∈ (c.restrict A).slots ↔ p ∈ c.slots ∧ p.1 ∈ A := Iff.rfl

theorem union_assoc (c d e : Content) : c ∪ d ∪ e = c ∪ (d ∪ e) := by
  ext <;> simp [or_assoc]

theorem restrict_union (c : Content) (A B : Set Address) : c.restrict A ∪ c.restrict B = c.restrict (A ∪ B) := by
  ext p
  · simp [Set.inter_union_distrib_left]
  · simp only [union_slots, Set.mem_union, mem_restrict_slots]
    tauto

theorem union_restrict_empty (c d : Content) : c ∪ d.restrict ∅ = c := by
  ext <;> simp

/-- Adding slots one at a time at an address already held adds them all. -/
theorem foldl_insertSlot {a : Address} :
    ∀ (ss : List Hash) {c : Content}, a ∈ c.addresses →
      ss.foldl (fun c s => c.insertSlot a s) c = c ∪ ⟨{a}, {p | p.1 = a ∧ p.2 ∈ ss}⟩
  | [], c, ha => by
    ext p
    · simp only [List.foldl_nil, union_addresses, Set.mem_union, Set.mem_singleton_iff]
      constructor
      · exact Or.inl
      · rintro (hp | rfl)
        · exact hp
        · exact ha
    · simp
  | s :: ss, c, ha => by
    rw [List.foldl_cons, foldl_insertSlot ss (Set.mem_insert a c.addresses)]
    ext p
    · simp [Set.insert_eq_of_mem ha]
    · simp only [union_slots, insertSlot_slots, Set.mem_union, Set.mem_insert_iff, Set.mem_ofPred_eq,
        List.mem_cons]
      obtain ⟨b, t⟩ := p
      simp only [Prod.mk.injEq]
      tauto

end Content

/-- What `ContainsAddress` and `Contains` observe of a list. -/
def content (al : AccessList) : Content where
  addresses := {a | al.containsAddress a = true}
  slots := {p | al.contains p.1 p.2 = .ok (true, true)}

@[simp] theorem mem_content_addresses {al : AccessList} {a : Address} :
    a ∈ al.content.addresses ↔ al.containsAddress a = true := Iff.rfl

theorem mem_content_slots {al : AccessList} (h : al.WellFormed) (p : Address × Hash) :
    p ∈ al.content.slots ↔ p.2 ∈ al.slotsAt p.1 := by
  show al.contains p.1 p.2 = .ok (true, true) ↔ _
  rw [contains_of_wellFormed h]
  cases hm : al.slotSetOf p.1 with
  | none => simp [slotsAt, hm]
  | some m => simp [slotsAt, hm, containsAddress_of_slotSetOf hm]

/-- A well-formed list holds what it is observed to hold at each address. -/
theorem content_eq {al : AccessList} {c : Content} (h : al.WellFormed)
    (haddr : ∀ a, al.containsAddress a = true ↔ a ∈ c.addresses)
    (hslots : ∀ a s, s ∈ al.slotsAt a ↔ (a, s) ∈ c.slots) : al.content = c := by
  ext p
  · exact haddr p
  · rw [mem_content_slots h]
    exact hslots p.1 p.2

theorem content_insertAddress {al al' : AccessList} {a : Address} (h : al.WellFormed) (h' : al'.WellFormed)
    (haddr : ∀ b, al'.containsAddress b = true ↔ b = a ∨ al.containsAddress b = true)
    (hslots : ∀ b, al'.slotsAt b = al.slotsAt b) : al'.content = al.content.insertAddress a := by
  refine content_eq h' (fun b => by simp [haddr]) fun b t => ?_
  rw [hslots, Content.insertAddress_slots, mem_content_slots h]

theorem content_insertSlot {al al' : AccessList} {a : Address} {s : Hash} (h : al.WellFormed)
    (h' : al'.WellFormed) (haddr : ∀ b, al'.containsAddress b = true ↔ b = a ∨ al.containsAddress b = true)
    (hslots : ∀ b t, t ∈ al'.slotsAt b ↔ (b = a ∧ t = s) ∨ t ∈ al.slotsAt b) :
    al'.content = al.content.insertSlot a s := by
  refine content_eq h' (fun b => by simp [haddr]) fun b t => ?_
  rw [hslots, Content.insertSlot_slots, Set.mem_insert_iff, mem_content_slots h, Prod.mk.injEq]

/-! ## Additions -/

theorem setAddr_of_isSome {al : AccessList} (h : al.addresses.isSome) (a : Address) (v : Int) :
    al.setAddr a v = .ok { al with addresses := some (al.addrs.set a v) } := by
  obtain ⟨m, hm⟩ := Option.isSome_iff_exists.mp h
  simp [setAddr, hm, addrs]

theorem containsAddress_set (al : AccessList) (a b : Address) (v : Int) :
    ({ al with addresses := some (al.addrs.set a v) } : AccessList).containsAddress b = true ↔
      b = a ∨ al.containsAddress b = true := by
  by_cases hb : b = a
  · subst hb
    simp [containsAddress]
  · simp [containsAddress, GoMap.find?_set_ne _ _ hb, hb]

section Fresh

variable {al : AccessList} {a : Address}

/-- `AddAddress(a)` of an address not there maps it to `-1`. -/
theorem valid_setAddr_minusOne (h : al.Valid) (ha : al.addrs.find? a = none) :
    ({ al with addresses := some (al.addrs.set a (-1)) } : AccessList).Valid := by
  have hne : ∀ {b i}, al.addrs.find? b = some i → b ≠ a := by
    rintro b i hb rfl
    rw [ha] at hb
    cases hb
  refine ⟨⟨rfl, ?_, ?_, ?_⟩, h.slots_nonempty⟩
  · intro b i hb
    by_cases hba : b = a
    · subst hba
      simp only [addrs_mk, GoMap.find?_set_self, Option.some.injEq] at hb
      exact Or.inl hb.symm
    · rw [addrs_mk, GoMap.find?_set_ne _ _ hba] at hb
      exact h.index_valid b i hb
  · intro b₁ b₂ i hi h₁ h₂
    -- the new value `-1` is no index, so both addresses had `i` before
    have hold : ∀ {b}, ({ al with addresses := some (al.addrs.set a (-1)) } : AccessList).addrs.find? b = some i →
        al.addrs.find? b = some i := by
      intro b hb
      by_cases hba : b = a
      · subst hba
        simp only [addrs_mk, GoMap.find?_set_self, Option.some.injEq] at hb
        omega
      · rwa [addrs_mk, GoMap.find?_set_ne _ _ hba] at hb
    exact h.index_inj b₁ b₂ i hi (hold h₁) (hold h₂)
  · intro j hj
    obtain ⟨c, hc⟩ := h.index_used j hj
    exact ⟨c, by rw [addrs_mk, GoMap.find?_set_ne _ _ (hne hc), hc]⟩

theorem slotSetOf_setAddr_minusOne (ha : al.addrs.find? a = none) (b : Address) :
    ({ al with addresses := some (al.addrs.set a (-1)) } : AccessList).slotSetOf b = al.slotSetOf b := by
  by_cases hba : b = a
  · subst hba
    simp [slotSetOf, ha]
  · simp only [slotSetOf, addrs_mk, GoMap.find?_set_ne _ _ hba]

/-- `AddAddress(a)`: the list holds `a` afterwards, and nothing else new. -/
theorem addAddress_spec (h : al.Valid) (a : Address) :
    ∃ al' added, al.addAddress a = .ok (al', added) ∧ al'.Valid ∧ al'.content = al.content.insertAddress a := by
  cases hf : al.addrs.find? a with
  | some i =>
    refine ⟨al, false, by simp [addAddress, hf], h, ?_⟩
    have ha : a ∈ al.content.addresses := by simp [containsAddress, hf]
    ext p
    · simp [Set.insert_eq_of_mem ha]
    · rfl
  | none =>
    refine ⟨_, true, by simp [addAddress, hf, setAddr_of_isSome h.nonNil], valid_setAddr_minusOne h hf, ?_⟩
    refine content_insertAddress h.toWellFormed (valid_setAddr_minusOne h hf).toWellFormed
      (containsAddress_set al a · (-1)) fun b => ?_
    simp only [slotsAt, slotSetOf_setAddr_minusOne hf]

/-- The branch of `AddSlot` for an address with no slot set, which gets a new
one at the end of `Slots`. -/
theorem valid_appendSlotSet (h : al.Valid) (ha : ∀ i, al.addrs.find? a = some i → i = -1) (s : Hash) :
    (⟨some (al.addrs.set a al.slots.length), al.slots ++ [AList.singleton s ()]⟩ : AccessList).Valid := by
  have hne : ∀ {b} {j : Nat}, al.addrs.find? b = some (j : Int) → b ≠ a := by
    rintro b j hb rfl
    have := ha _ hb
    omega
  refine ⟨⟨rfl, ?_, ?_, ?_⟩, ?_⟩
  · intro b i hb
    by_cases hba : b = a
    · subst hba
      simp only [addrs_mk, GoMap.find?_set_self, Option.some.injEq] at hb
      simp [← hb]
    · simp only [addrs_mk, GoMap.find?_set_ne _ _ hba] at hb
      have := h.index_valid b i hb
      simp only [List.length_append, List.length_singleton]
      omega
  · intro b₁ b₂ i hi h₁ h₂
    -- the new index is the old length, which no address had
    have hold : ∀ {b}, (⟨some (al.addrs.set a al.slots.length), al.slots ++ [AList.singleton s ()]⟩ :
        AccessList).addrs.find? b = some i → b = a ∨ al.addrs.find? b = some i := by
      intro b hb
      by_cases hba : b = a
      · exact Or.inl hba
      · simp only [addrs_mk, GoMap.find?_set_ne _ _ hba] at hb
        exact Or.inr hb
    have hnew : ∀ {b}, b ≠ a → al.addrs.find? b = some i →
        (⟨some (al.addrs.set a al.slots.length), al.slots ++ [AList.singleton s ()]⟩ :
          AccessList).addrs.find? a = some i → False := by
      intro b hba hb hai
      simp only [addrs_mk, GoMap.find?_set_self, Option.some.injEq] at hai
      rcases h.index_valid b i hb with hb' | hb'
      · omega
      · omega
    rcases hold h₁ with rfl | h₁'
    · rcases hold h₂ with rfl | h₂'
      · rfl
      · exact (hnew (@hne _ i.toNat (by rwa [Int.toNat_of_nonneg hi])) h₂' h₁).elim
    · rcases hold h₂ with rfl | h₂'
      · exact (hnew (@hne _ i.toNat (by rwa [Int.toNat_of_nonneg hi])) h₁' h₂).elim
      · exact h.index_inj b₁ b₂ i hi h₁' h₂'
  · intro j hj
    simp only [List.length_append, List.length_singleton] at hj
    by_cases hjl : j = al.slots.length
    · exact ⟨a, by simp [hjl]⟩
    · obtain ⟨c, hc⟩ := h.index_used j (by omega)
      exact ⟨c, by rw [addrs_mk, GoMap.find?_set_ne _ _ (hne hc), hc]⟩
  · intro m hm
    rcases List.mem_append.mp hm with hm | hm
    · exact h.slots_nonempty m hm
    · rw [List.mem_singleton.mp hm, GoMap.singleton_eq_set]
      exact GoMap.len_set_ne_zero _ _ _

theorem slotSetOf_appendSlotSet (h : al.WellFormed) (s : Hash) (b : Address) :
    (⟨some (al.addrs.set a al.slots.length), al.slots ++ [AList.singleton s ()]⟩ : AccessList).slotSetOf b =
      if b = a then some (AList.singleton s ()) else al.slotSetOf b := by
  by_cases hba : b = a
  · subst hba
    simp [slotSetOf]
  · rw [if_neg hba]
    unfold slotSetOf
    simp only [addrs_mk, GoMap.find?_set_ne _ _ hba]
    cases hb : al.addrs.find? b with
    | none => rfl
    | some i =>
      by_cases hi : i = -1
      · simp [hi]
      · have := (h.index_valid b i hb).resolve_left hi
        simp only [if_neg hi]
        exact List.getElem?_append_left (by omega)

/-- The branch of `AddSlot` for a slot new to an existing slot set. -/
theorem valid_setSlots (h : al.Valid) {i : Nat} (m : GoMap Hash Unit) (hm : m.len ≠ 0) :
    ({ al with slots := al.slots.set i m } : AccessList).Valid := by
  refine ⟨⟨h.nonNil, ?_, h.index_inj, ?_⟩, ?_⟩
  · intro b j hb
    rw [List.length_set]
    exact h.index_valid b j hb
  · intro j hj
    rw [List.length_set] at hj
    exact h.index_used j hj
  · intro m' hm'
    rcases List.mem_or_eq_of_mem_set hm' with hm' | rfl
    · exact h.slots_nonempty m' hm'
    · exact hm

theorem slotSetOf_setSlots (h : al.WellFormed) {i : Int} (ha : al.addrs.find? a = some i) (hi : i ≠ -1)
    (m : GoMap Hash Unit) (b : Address) :
    ({ al with slots := al.slots.set i.toNat m } : AccessList).slotSetOf b =
      if b = a then some m else al.slotSetOf b := by
  obtain ⟨h0, hlt⟩ := (h.index_valid a i ha).resolve_left hi
  by_cases hba : b = a
  · subst hba
    simp only [slotSetOf, addrs_withSlots, ha, if_neg hi, if_true]
    exact List.getElem?_set_self (by omega : i.toNat < al.slots.length)
  · rw [if_neg hba]
    unfold slotSetOf
    rw [addrs_withSlots]
    cases hb : al.addrs.find? b with
    | none => rfl
    | some j =>
      by_cases hj : j = -1
      · simp [hj]
      · -- another address holds another index
        have hji : i.toNat ≠ j.toNat := by
          intro hij
          obtain ⟨hj0, -⟩ := (h.index_valid b j hb).resolve_left hj
          have : j = i := by omega
          exact hba (h.index_inj b a i h0 (this ▸ hb) ha)
        simp only [if_neg hj]
        exact List.getElem?_set_ne hji

/-- `AddSlot(a, s)`: the list holds `a` and the pair afterwards, and nothing
else new. -/
theorem addSlot_spec (h : al.Valid) (a : Address) (s : Hash) :
    ∃ al' addrMod slotMod, al.addSlot a s = .ok (al', addrMod, slotMod) ∧ al'.Valid ∧
      al'.content = al.content.insertSlot a s := by
  -- the two branches that append a new slot set
  have happend : (∀ i, al.addrs.find? a = some i → i = -1) →
      (⟨some (al.addrs.set a al.slots.length), al.slots ++ [AList.singleton s ()]⟩ : AccessList).Valid ∧
      (⟨some (al.addrs.set a al.slots.length), al.slots ++ [AList.singleton s ()]⟩ : AccessList).content =
        al.content.insertSlot a s := by
    intro ha
    have hv := valid_appendSlotSet h ha s
    have hold : al.slotSetOf a = none := by
      unfold slotSetOf
      cases hf : al.addrs.find? a with
      | none => rfl
      | some i => simp [ha i hf]
    refine ⟨hv, content_insertSlot h.toWellFormed hv.toWellFormed (containsAddress_set al a · _) fun b t => ?_⟩
    by_cases hba : b = a
    · subst hba
      rw [mem_slotsAt_of_slotSetOf (by rw [slotSetOf_appendSlotSet h.toWellFormed, if_pos rfl]),
        slotsAt_of_slotSetOf_none hold, GoMap.singleton_eq_set]
      by_cases hts : t = s
      · subst hts
        simp
      · simp [GoMap.find?_set_ne _ _ hts, hts]
    · simp [slotsAt, slotSetOf_appendSlotSet h.toWellFormed, hba]
  have happ : al.appendSlotSet a s =
      .ok ⟨some (al.addrs.set a al.slots.length), al.slots ++ [AList.singleton s ()]⟩ := by
    simp [appendSlotSet, setAddr_of_isSome h.nonNil]
  cases hf : al.addrs.find? a with
  | none =>
    obtain ⟨hv, hc⟩ := happend (by simp [hf])
    exact ⟨_, true, true, by simp [addSlot, hf, happ], hv, hc⟩
  | some i =>
    by_cases hi : i = -1
    · subst hi
      obtain ⟨hv, hc⟩ := happend (by simp [hf])
      exact ⟨_, false, true, by simp [addSlot, hf, happ], hv, hc⟩
    · obtain ⟨h0, hlt⟩ := (h.index_valid a i hf).resolve_left hi
      have hlt' : i.toNat < al.slots.length := by omega
      have hslot : sliceIndex al.slots i = .ok al.slots[i.toNat] := by
        simp [sliceIndex, h0, hlt']
      have hset : al.slotSetOf a = some al.slots[i.toNat] := by
        simp [slotSetOf, hf, hi, List.getElem?_eq_getElem hlt']
      cases hs : al.slots[i.toNat].find? s with
      | some u =>
        refine ⟨al, false, false, by simp [addSlot, hf, hi, hslot, hs], h, ?_⟩
        -- the pair was there
        have hp : (a, s) ∈ al.content.slots := by
          rw [mem_content_slots h.toWellFormed, mem_slotsAt_of_slotSetOf hset, hs]
          rfl
        have ha : a ∈ al.content.addresses := by simp [containsAddress, hf]
        ext p
        · simp [Set.insert_eq_of_mem ha]
        · simp [Set.insert_eq_of_mem hp]
      | none =>
        have hv := valid_setSlots h (i := i.toNat) _ (GoMap.len_set_ne_zero al.slots[i.toNat] s ())
        refine ⟨_, false, true, by simp [addSlot, hf, hi, hslot, hs], hv, ?_⟩
        refine content_insertSlot h.toWellFormed hv.toWellFormed (fun b => ?_) fun b t => ?_
        · simp only [containsAddress]
          constructor
          · exact Or.inr
          · rintro (rfl | hb)
            · simp [hf]
            · exact hb
        · by_cases hba : b = a
          · subst hba
            rw [mem_slotsAt_of_slotSetOf (by rw [slotSetOf_setSlots h.toWellFormed hf hi, if_pos rfl]),
              mem_slotsAt_of_slotSetOf hset]
            by_cases hts : t = s
            · subst hts
              simp
            · simp [GoMap.find?_set_ne _ _ hts, hts]
          · simp [slotsAt, slotSetOf_setSlots h.toWellFormed hf hi, hba]

end Fresh

/-- `AccessListAddAddress(a)`, whose body is that of `AddAddress`. -/
theorem accessListAddAddress_spec {al : AccessList} (h : al.Valid) (a : Address) :
    ∃ al' added, al.accessListAddAddress a = .ok (al', added) ∧ al'.Valid ∧
      al'.content = al.content.insertAddress a :=
  addAddress_spec h a

/-- `AccessListAddSlot(a, s)`, whose body is that of `AddSlot`. -/
theorem accessListAddSlot_spec {al : AccessList} (h : al.Valid) (a : Address) (s : Hash) :
    ∃ al' addrMod slotMod, al.accessListAddSlot a s = .ok (al', addrMod, slotMod) ∧ al'.Valid ∧
      al'.content = al.content.insertSlot a s :=
  addSlot_spec h a s

/-! ## Copies and unions -/

theorem valid_copy {al : AccessList} (h : al.Valid) : al.copy.Valid :=
  ⟨⟨rfl, h.index_valid, h.index_inj, h.index_used⟩, h.slots_nonempty⟩

/-- `Copy()` reads as the list it copies. -/
theorem copy_content (al : AccessList) : al.copy.content = al.content := rfl

theorem containsAddress_iff_mem_keys {al : AccessList} {a : Address} :
    al.containsAddress a = true ↔ a ∈ al.addrs.entries.keys := by
  rw [containsAddress, GoMap.find?, AList.lookup_isSome, AList.mem_keys]
  rfl

/-- The content of a well-formed list at one of its addresses. -/
theorem content_restrict_singleton {al : AccessList} (h : al.WellFormed) {a : Address}
    (ha : al.containsAddress a = true) :
    al.content.restrict {a} = ⟨{a}, {p | p.1 = a ∧ p.2 ∈ al.slotsAt a}⟩ := by
  ext p
  · simp only [Content.restrict_addresses, Set.mem_inter_iff, mem_content_addresses, Set.mem_singleton_iff]
    constructor
    · exact And.right
    · rintro rfl
      exact ⟨ha, rfl⟩
  · obtain ⟨b, t⟩ := p
    simp only [Content.mem_restrict_slots, mem_content_slots h, Set.mem_singleton_iff, Set.mem_ofPred_eq]
    constructor
    · rintro ⟨ht, rfl⟩
      exact ⟨rfl, ht⟩
    · rintro ⟨rfl, ht⟩
      exact ⟨ht, rfl⟩

/-- A well-formed list is its content at its own addresses. -/
theorem content_restrict_keys {al : AccessList} (h : al.WellFormed) :
    al.content.restrict {a | a ∈ al.addrs.entries.keys} = al.content := by
  ext p
  · simp only [Content.restrict_addresses, Set.mem_inter_iff, mem_content_addresses, Set.mem_ofPred_eq]
    constructor
    · exact And.left
    · intro ha
      exact ⟨ha, containsAddress_iff_mem_keys.mp ha⟩
  · simp only [Content.mem_restrict_slots, Set.mem_ofPred_eq]
    constructor
    · exact And.left
    · intro hp
      refine ⟨hp, containsAddress_iff_mem_keys.mp ?_⟩
      rw [mem_content_slots h] at hp
      cases hm : al.slotSetOf p.1 with
      | none => simp [slotsAt, hm] at hp
      | some m => exact containsAddress_of_slotSetOf hm

/-- The loop over `Slots[value]` in `CombineTrueAccessList`. -/
theorem addSlots_spec (key : Address) :
    ∀ (ss : List Hash) {al : AccessList}, al.Valid →
      ∃ al', combineTrueAccessList.addSlots al key ss = .ok al' ∧ al'.Valid ∧
        al'.content = ss.foldl (fun c s => c.insertSlot key s) al.content
  | [], al, h => ⟨al, rfl, h, rfl⟩
  | s :: ss, al, h => by
    obtain ⟨al₁, addrMod, slotMod, h₁, hv₁, hc₁⟩ := accessListAddSlot_spec h key s
    obtain ⟨al₂, h₂, hv₂, hc₂⟩ := addSlots_spec key ss hv₁
    refine ⟨al₂, ?_, hv₂, ?_⟩
    · simp only [combineTrueAccessList.addSlots, h₁, ok_bind, h₂]
    · rw [hc₂, hc₁, List.foldl_cons]

/-- One entry of the part: its address and its slots are added, and the loop
goes on with the rest. -/
theorem combineTrueAccessList_go_cons {part al : AccessList} (hp : part.WellFormed) (h : al.Valid)
    {key : Address} {v : Int} (hkey : part.addrs.find? key = some v) (rest : List (Σ _ : Address, Int)) :
    ∃ al₂, combineTrueAccessList.go part (some al) (⟨key, v⟩ :: rest) = combineTrueAccessList.go part (some al₂) rest ∧
      al₂.Valid ∧ al₂.content = al.content ∪ part.content.restrict {key} := by
  obtain ⟨al₁, added, h₁, hv₁, hc₁⟩ := accessListAddAddress_spec h key
  have hpk : part.containsAddress key = true := by simp [containsAddress, hkey]
  rw [content_restrict_singleton hp hpk]
  by_cases hv : v = -1
  · subst hv
    have hnone : part.slotSetOf key = none := by simp [slotSetOf, hkey]
    refine ⟨al₁, by simp [combineTrueAccessList.go, h₁], hv₁, ?_⟩
    rw [hc₁, slotsAt_of_slotSetOf_none hnone]
    ext p
    · simp only [Content.union_addresses, Content.insertAddress_addresses, Set.mem_union, Set.mem_insert_iff,
        Set.mem_singleton_iff]
      tauto
    · simp
  · obtain ⟨h0, hlt⟩ := (hp.index_valid key v hkey).resolve_left hv
    have hlt' : v.toNat < part.slots.length := by omega
    have hslot : sliceIndex part.slots v = .ok part.slots[v.toNat] := by
      simp [sliceIndex, h0, hlt']
    have hset : part.slotSetOf key = some part.slots[v.toNat] := by
      simp [slotSetOf, hkey, hv, List.getElem?_eq_getElem hlt']
    obtain ⟨al₂, h₂, hv₂, hc₂⟩ := addSlots_spec key part.slots[v.toNat].keyList hv₁
    refine ⟨al₂, by simp [combineTrueAccessList.go, h₁, hv, hslot, h₂], hv₂, ?_⟩
    have hkey₁ : key ∈ al₁.content.addresses := by simp [hc₁]
    rw [hc₂, Content.foldl_insertSlot _ hkey₁, hc₁]
    ext p
    · simp only [Content.union_addresses, Content.insertAddress_addresses, Set.mem_union, Set.mem_insert_iff,
        Set.mem_singleton_iff]
      tauto
    · obtain ⟨b, t⟩ := p
      simp only [Content.union_slots, Content.insertAddress_slots, Set.mem_union, Set.mem_ofPred_eq]
      rw [mem_slotsAt_of_slotSetOf hset, GoMap.mem_keyList]

/-- The loop of `CombineTrueAccessList` over entries of the part. -/
theorem combineTrueAccessList_go_spec {part : AccessList} (hp : part.WellFormed) :
    ∀ (l : List (Σ _ : Address, Int)) {al : AccessList}, (∀ e ∈ l, e ∈ part.addrs.entries) → al.Valid →
      ∃ al', combineTrueAccessList.go part (some al) l = .ok (some al', true) ∧ al'.Valid ∧
        al'.content = al.content ∪ part.content.restrict {a | a ∈ l.keys}
  | [], al, _, h => ⟨al, rfl, h, by simpa using (Content.union_restrict_empty al.content part.content).symm⟩
  | ⟨key, v⟩ :: rest, al, hl, h => by
    have hkey : part.addrs.find? key = some v := GoMap.find?_eq_some_iff.mpr (hl _ List.mem_cons_self)
    obtain ⟨al₂, h₂, hv₂, hc₂⟩ := combineTrueAccessList_go_cons hp h hkey rest
    obtain ⟨al', h', hv', hc'⟩ :=
      combineTrueAccessList_go_spec hp rest (fun e he => hl e (List.mem_cons_of_mem _ he)) hv₂
    refine ⟨al', h₂ ▸ h', hv', ?_⟩
    have hkeys : {a | a ∈ (⟨key, v⟩ :: rest : List (Σ _ : Address, Int)).keys} = {key} ∪ {a | a ∈ rest.keys} := by
      ext a
      simp [List.keys_cons]
    rw [hc', hc₂, Content.union_assoc, Content.restrict_union, hkeys]

/-- `TrueAL.CombineTrueAccessList(NewAL)` on a non-nil `TrueAL`: the union. The
part may have a nil map, which it ranges over as an empty one. -/
theorem combineTrueAccessList_spec {al part : AccessList} (h : al.Valid)
    (hp : part.addresses = none ∨ part.WellFormed) :
    ∃ al', combineTrueAccessList (some al) part = .ok (some al', true) ∧ al'.Valid ∧
      al'.content = al.content ∪ part.content := by
  rcases hp with hnil | hp
  · have haddrs : part.addrs = ∅ := by simp [addrs, hnil]
    refine ⟨al, by simp [combineTrueAccessList, haddrs, combineTrueAccessList.go], h, ?_⟩
    ext p
    · simp [containsAddress, haddrs]
    · simp [content, contains, haddrs]
  · obtain ⟨al', h', hv', hc'⟩ := combineTrueAccessList_go_spec hp part.addrs.entries (fun _ he => he) h
    exact ⟨al', h', hv', by rw [hc', content_restrict_keys hp]⟩

/-! ## Undoing additions -/

/-- An addition the state database makes to its list: `AddAddressToAccessList`
or `AddSlotToAccessList`. -/
inductive Addition where
  | address (a : Address)
  | slot (a : Address) (s : Hash)
  deriving DecidableEq

/-- A change an addition reports, for which the journal holds an entry:
`accessListAddAccountChange` or `accessListAddSlotChange`. -/
inductive Change where
  | address (a : Address)
  | slot (a : Address) (s : Hash)
  deriving DecidableEq

/-- The addition on the list, and the changes it reports in the order the
state database journals them: the address before the slot. -/
def Addition.apply (al : AccessList) : Addition → Go (AccessList × List Change)
  | .address a => do
    let (al, added) ← al.addAddress a
    .ok (al, if added then [.address a] else [])
  | .slot a s => do
    let (al, addrMod, slotMod) ← al.addSlot a s
    .ok (al, (if addrMod then [.address a] else []) ++ if slotMod then [.slot a s] else [])

/-- `revert` of a change's entry: `DeleteAddress` or `DeleteSlot`. -/
def Change.undo (al : AccessList) : Change → Go AccessList
  | .address a => .ok (al.deleteAddress a)
  | .slot a s => al.deleteSlot a s

/-- A sequence of additions, and every change they report, oldest first. -/
def applyAll (al : AccessList) : List Addition → Go (AccessList × List Change)
  | [] => .ok (al, [])
  | x :: xs => do
    let (al, cs) ← x.apply al
    let (al, cs') ← applyAll al xs
    .ok (al, cs ++ cs')

/-- The journal's revert of the changes: newest first. -/
def undoAll (al : AccessList) (cs : List Change) : Go AccessList := cs.reverse.foldlM Change.undo al

theorem undoAll_append (al : AccessList) (cs₁ cs₂ : List Change) :
    undoAll al (cs₁ ++ cs₂) = undoAll al cs₂ >>= fun al => undoAll al cs₁ := by
  simp [undoAll, List.foldlM_append]

/-- `DeleteAddress(a)` reads as the map without `a`; a nil map stays empty. -/
theorem addrs_deleteAddress (al : AccessList) (a : Address) : (al.deleteAddress a).addrs = al.addrs.erase a := by
  cases hal : al.addresses with
  | none =>
    simp only [deleteAddress, addrs, hal, Option.map_none, Option.getD_none]
    rfl
  | some m => simp [deleteAddress, addrs, hal]

/-- Two lists Go cannot tell apart: both maps nil or neither, the same value
at each key, in whatever order the map holds them, and the same slot sets. -/
structure Same (al₁ al₂ : AccessList) : Prop where
  nonNil_eq : al₁.addresses.isSome = al₂.addresses.isSome
  find_eq : ∀ a, al₁.addrs.find? a = al₂.addrs.find? a
  slots_eq : al₁.slots = al₂.slots

namespace Same

variable {al₁ al₂ al₃ : AccessList}

theorem refl (al : AccessList) : al.Same al := ⟨rfl, fun _ => rfl, rfl⟩

theorem symm (h : al₁.Same al₂) : al₂.Same al₁ :=
  ⟨h.nonNil_eq.symm, fun a => (h.find_eq a).symm, h.slots_eq.symm⟩

theorem trans (h₁ : al₁.Same al₂) (h₂ : al₂.Same al₃) : al₁.Same al₃ :=
  ⟨h₁.nonNil_eq.trans h₂.nonNil_eq, fun a => (h₁.find_eq a).trans (h₂.find_eq a), h₁.slots_eq.trans h₂.slots_eq⟩

theorem withSlots (h : al₁.Same al₂) (l : List (GoMap Hash Unit)) :
    ({ al₁ with slots := l } : AccessList).Same { al₂ with slots := l } :=
  ⟨h.nonNil_eq, h.find_eq, rfl⟩

theorem deleteAddress (h : al₁.Same al₂) (a : Address) : (al₁.deleteAddress a).Same (al₂.deleteAddress a) := by
  refine ⟨by simpa [AccessList.deleteAddress] using h.nonNil_eq, fun b => ?_, h.slots_eq⟩
  rw [addrs_deleteAddress, addrs_deleteAddress]
  by_cases hba : b = a
  · subst hba
    rw [GoMap.find?_erase_self, GoMap.find?_erase_self]
  · rw [GoMap.find?_erase_ne _ hba, GoMap.find?_erase_ne _ hba, h.find_eq]

theorem setAddr (h : al₁.Same al₂) {a : Address} {v : Int} {u₁ : AccessList} (hu : al₁.setAddr a v = .ok u₁) :
    ∃ u₂, al₂.setAddr a v = .ok u₂ ∧ u₁.Same u₂ := by
  have h₁ : al₁.addresses.isSome := by
    unfold AccessList.setAddr at hu
    split at hu
    · cases hu
    · simp [*]
  rw [setAddr_of_isSome h₁] at hu
  cases hu
  refine ⟨_, setAddr_of_isSome (h.nonNil_eq ▸ h₁) a v, rfl, fun b => ?_, h.slots_eq⟩
  by_cases hba : b = a
  · subst hba
    simp
  · simp only [addrs_mk, GoMap.find?_set_ne _ _ hba, h.find_eq]

theorem deleteSlot (h : al₁.Same al₂) {a : Address} {s : Hash} {u₁ : AccessList}
    (hu : al₁.deleteSlot a s = .ok u₁) : ∃ u₂, al₂.deleteSlot a s = .ok u₂ ∧ u₁.Same u₂ := by
  unfold AccessList.deleteSlot at hu ⊢
  rw [← h.find_eq a, ← h.slots_eq]
  cases hf : al₁.addrs.find? a with
  | none =>
    rw [hf] at hu
    cases hu
  | some idx =>
    rw [hf] at hu
    dsimp only at hu ⊢
    obtain ⟨m, hm, hu⟩ := bind_eq_ok hu
    rw [hm, ok_bind]
    split_ifs at hu ⊢
    · exact (h.withSlots _).setAddr hu
    · cases hu
      exact ⟨_, rfl, h.withSlots _⟩

theorem undo (h : al₁.Same al₂) (c : Change) {u₁ : AccessList} (hu : Change.undo al₁ c = .ok u₁) :
    ∃ u₂, Change.undo al₂ c = .ok u₂ ∧ u₁.Same u₂ := by
  cases c with
  | address a =>
    cases hu
    exact ⟨_, rfl, h.deleteAddress a⟩
  | slot a s => exact h.deleteSlot hu

/-- Lists Go cannot tell apart are undone alike. -/
theorem foldlM_undo : ∀ (cs : List Change) {al₁ al₂ u₁ : AccessList}, al₁.Same al₂ →
    cs.foldlM Change.undo al₁ = .ok u₁ → ∃ u₂, cs.foldlM Change.undo al₂ = .ok u₂ ∧ u₁.Same u₂
  | [], _, _, _, h, hu => by
    cases hu
    exact ⟨_, rfl, h⟩
  | c :: cs, _, _, _, h, hu => by
    rw [List.foldlM_cons] at hu ⊢
    obtain ⟨v₁, hv₁, hu⟩ := bind_eq_ok hu
    obtain ⟨v₂, hv₂, hs⟩ := h.undo c hv₁
    rw [hv₂, ok_bind]
    exact foldlM_undo cs hs hu

theorem undoAll (h : al₁.Same al₂) (cs : List Change) {u₁ : AccessList} (hu : undoAll al₁ cs = .ok u₁) :
    ∃ u₂, AccessList.undoAll al₂ cs = .ok u₂ ∧ u₁.Same u₂ :=
  foldlM_undo cs.reverse h hu

/-- Lists Go cannot tell apart are valid together. -/
theorem valid (h : al₁.Same al₂) (hv : al₂.Valid) : al₁.Valid where
  nonNil := h.nonNil_eq ▸ hv.nonNil
  index_valid a i hi := h.slots_eq ▸ hv.index_valid a i (h.find_eq a ▸ hi)
  index_inj a b i h0 ha hb := hv.index_inj a b i h0 (h.find_eq a ▸ ha) (h.find_eq b ▸ hb)
  index_used j hj := by
    obtain ⟨a, ha⟩ := hv.index_used j (h.slots_eq ▸ hj)
    exact ⟨a, (h.find_eq a).trans ha⟩
  slots_nonempty m hm := hv.slots_nonempty m (h.slots_eq ▸ hm)

theorem containsAddress_eq (h : al₁.Same al₂) (a : Address) : al₁.containsAddress a = al₂.containsAddress a := by
  simp only [containsAddress, h.find_eq a]

theorem contains_eq (h : al₁.Same al₂) (a : Address) (s : Hash) : al₁.contains a s = al₂.contains a s := by
  simp only [contains, h.find_eq a, h.slots_eq]

end Same

/-- One addition, undone: the list comes back, exactly but for the place in
the map of an address whose `-1` was overwritten and written back. -/
theorem undoAll_apply {al : AccessList} (h : al.Valid) (x : Addition) :
    ∃ al' cs, x.apply al = .ok (al', cs) ∧ al'.Valid ∧ ∃ u, undoAll al' cs = .ok u ∧ u.Same al := by
  obtain ⟨addresses, slots⟩ := al
  obtain ⟨m, rfl⟩ := Option.isSome_iff_exists.mp h.nonNil
  cases x with
  | address a =>
    cases hf : m.find? a with
    | some i => exact ⟨_, [], by simp [Addition.apply, addAddress, hf], h, _, rfl, Same.refl _⟩
    | none =>
      refine ⟨⟨some (m.set a (-1)), slots⟩, [.address a], by simp [Addition.apply, addAddress, hf, setAddr],
        valid_setAddr_minusOne h hf, _, ?_, Same.refl _⟩
      simp [undoAll, Change.undo, deleteAddress, GoMap.erase_set_of_find?_none _ hf]
  | slot a s =>
    have happ : (⟨some m, slots⟩ : AccessList).appendSlotSet a s =
        .ok ⟨some (m.set a slots.length), slots ++ [AList.singleton s ()]⟩ := rfl
    -- undoing the slot of a new slot set cuts `Slots` back and maps the address to `-1`
    have hundo : (⟨some (m.set a slots.length), slots ++ [AList.singleton s ()]⟩ : AccessList).deleteSlot a s =
        .ok ⟨some (m.set a (-1)), slots⟩ := by
      have hlen : GoMap.len (AList.erase s (AList.singleton s () : GoMap Hash Unit)) = 0 := by
        simp [GoMap.len, AList.singleton, AList.erase]
      simp only [deleteSlot, addrs_mk, GoMap.find?_set_self]
      rw [sliceIndex_of_lt _ (by simp : slots.length < (slots ++ [AList.singleton s ()]).length)]
      simp only [List.get_eq_getElem, List.getElem_concat_length, ok_bind, hlen, if_true, Int.toNat_natCast,
        List.take_left, setAddr, GoMap.set, AList.insert_insert]
    cases hf : m.find? a with
    | none =>
      have hv := @valid_appendSlotSet _ a h (by simp [hf]) s
      refine ⟨_, [.address a, .slot a s], ?_, hv, _, ?_, Same.refl _⟩
      · simp [Addition.apply, addSlot, hf, happ]
      · simp [undoAll, Change.undo, hundo, deleteAddress, GoMap.erase_set_of_find?_none _ hf]
    | some i =>
      by_cases hi : i = -1
      · subst hi
        have hv := @valid_appendSlotSet _ a h (by simp [hf]) s
        refine ⟨_, [.slot a s], ?_, hv, ⟨some (m.set a (-1)), slots⟩, ?_, ⟨rfl, fun b => ?_, rfl⟩⟩
        · simp [Addition.apply, addSlot, hf, happ]
        · simp [undoAll, Change.undo, hundo]
        -- the address is back at `-1`, at the head of the map's entries
        by_cases hba : b = a
        · subst hba
          simp [hf]
        · simp only [addrs_mk, GoMap.find?_set_ne _ _ hba]
      · obtain ⟨h0, hlt⟩ := (h.index_valid a i hf).resolve_left hi
        have hlt' : i.toNat < slots.length := by
          have : i < slots.length := hlt
          omega
        have hslot : sliceIndex slots i = .ok slots[i.toNat] := by
          simp [sliceIndex, h0, hlt']
        cases hs : slots[i.toNat].find? s with
        | some u => exact ⟨_, [], by simp [Addition.apply, addSlot, hf, hi, hslot, hs], h, _, rfl, Same.refl _⟩
        | none =>
          have hslot' : sliceIndex (slots.set i.toNat (slots[i.toNat].set s ())) i = .ok (slots[i.toNat].set s ()) := by
            simp [sliceIndex, h0, hlt']
          have hne : GoMap.len (slots[i.toNat] : GoMap Hash Unit) ≠ 0 :=
            h.slots_nonempty _ (List.getElem_mem hlt')
          refine ⟨⟨some m, slots.set i.toNat (slots[i.toNat].set s ())⟩, [.slot a s],
            by simp [Addition.apply, addSlot, hf, hi, hslot, hs],
            valid_setSlots h _ (GoMap.len_set_ne_zero slots[i.toNat] s ()), _, ?_, Same.refl _⟩
          simp [undoAll, Change.undo, deleteSlot, hf, hslot', GoMap.erase_set_of_find?_none _ hs, hne]

/-- A sequence of additions, undone change by change newest first, as the
journal reverts them: the list Go sees comes back. -/
theorem undoAll_applyAll {al : AccessList} (h : al.Valid) :
    ∀ xs : List Addition, ∃ al' cs, applyAll al xs = .ok (al', cs) ∧ al'.Valid ∧
      ∃ u, undoAll al' cs = .ok u ∧ u.Same al
  | [] => ⟨al, [], rfl, h, al, rfl, Same.refl al⟩
  | x :: xs => by
    obtain ⟨al₁, cs₁, h₁, hv₁, u₁, hu₁, hs₁⟩ := undoAll_apply h x
    obtain ⟨al₂, cs₂, h₂, hv₂, u₂, hu₂, hs₂⟩ := undoAll_applyAll hv₁ xs
    refine ⟨al₂, cs₁ ++ cs₂, by simp [applyAll, h₁, h₂], hv₂, ?_⟩
    -- the later changes give back a list like `al₁`, which the earlier ones undo as `al₁`
    obtain ⟨u₃, hu₃, hs₃⟩ := hs₂.symm.undoAll cs₁ hu₁
    refine ⟨u₃, by rw [undoAll_append, hu₂, ok_bind, hu₃], hs₃.symm.trans hs₁⟩

/-! ## The operations together -/

/-- A list whose map is nil, which no condition on indices excludes: it holds
no address and no slot set, and `AddAddress` panics writing to the nil map. -/
theorem addAddress_nilMap_panics :
    (∀ a, (⟨none, []⟩ : AccessList).addrs.find? a = none) ∧ (⟨none, []⟩ : AccessList).slots = [] ∧
      (⟨none, []⟩ : AccessList).addAddress 0xa1 = .error ⟨"assignment to entry in nil map"⟩ :=
  ⟨GoMap.find?_empty, rfl, rfl⟩

/-- Every operation keeps a valid list valid and changes what `Contains` and
`ContainsAddress` observe as its set operation does; the changes a sequence of
additions reports, undone newest first, give back the list Go sees. -/
theorem accessList_operations_valid :
    (∀ (al : AccessList) (a : Address), al.Valid →
      ∃ al' added, al.addAddress a = .ok (al', added) ∧ al'.Valid ∧ al'.content = al.content.insertAddress a) ∧
    (∀ (al : AccessList) (a : Address), al.Valid →
      ∃ al' added, al.accessListAddAddress a = .ok (al', added) ∧ al'.Valid ∧
        al'.content = al.content.insertAddress a) ∧
    (∀ (al : AccessList) (a : Address) (s : Hash), al.Valid →
      ∃ al' addrMod slotMod, al.addSlot a s = .ok (al', addrMod, slotMod) ∧ al'.Valid ∧
        al'.content = al.content.insertSlot a s) ∧
    (∀ (al : AccessList) (a : Address) (s : Hash), al.Valid →
      ∃ al' addrMod slotMod, al.accessListAddSlot a s = .ok (al', addrMod, slotMod) ∧ al'.Valid ∧
        al'.content = al.content.insertSlot a s) ∧
    (∀ al part : AccessList, al.Valid → part.addresses = none ∨ part.WellFormed →
      ∃ al', combineTrueAccessList (some al) part = .ok (some al', true) ∧ al'.Valid ∧
        al'.content = al.content ∪ part.content) ∧
    (∀ al : AccessList, al.Valid → al.copy.Valid ∧ al.copy.content = al.content) ∧
    (∀ (al : AccessList) (xs : List Addition), al.Valid →
      ∃ al' cs, applyAll al xs = .ok (al', cs) ∧ ∃ u, undoAll al' cs = .ok u ∧ u.Same al) :=
  ⟨fun _ a h => addAddress_spec h a, fun _ a h => accessListAddAddress_spec h a, fun _ a s h => addSlot_spec h a s,
    fun _ a s h => accessListAddSlot_spec h a s, fun _ _ h hp => combineTrueAccessList_spec h hp,
    fun al h => ⟨valid_copy h, copy_content al⟩, fun _ xs h => by
      obtain ⟨al', cs, h₁, -, hu⟩ := undoAll_applyAll h xs
      exact ⟨al', cs, h₁, hu⟩⟩

/-- Each operation on the list of `NewAccessList()`, and an address and a slot
added and undone. -/
theorem accessList_operations_valid_on_new :
    newAccessList.Valid ∧
    (∃ al' added, newAccessList.addAddress 0xa1 = .ok (al', added) ∧ al'.Valid ∧
      al'.content = newAccessList.content.insertAddress 0xa1) ∧
    (∃ al' added, newAccessList.accessListAddAddress 0xa1 = .ok (al', added) ∧ al'.Valid ∧
      al'.content = newAccessList.content.insertAddress 0xa1) ∧
    (∃ al' addrMod slotMod, newAccessList.addSlot 0xa1 1 = .ok (al', addrMod, slotMod) ∧ al'.Valid ∧
      al'.content = newAccessList.content.insertSlot 0xa1 1) ∧
    (∃ al' addrMod slotMod, newAccessList.accessListAddSlot 0xa1 1 = .ok (al', addrMod, slotMod) ∧ al'.Valid ∧
      al'.content = newAccessList.content.insertSlot 0xa1 1) ∧
    (∃ al', combineTrueAccessList (some newAccessList) newAccessList = .ok (some al', true) ∧ al'.Valid ∧
      al'.content = newAccessList.content ∪ newAccessList.content) ∧
    (newAccessList.copy.Valid ∧ newAccessList.copy.content = newAccessList.content) ∧
    (∃ al' cs, applyAll newAccessList [.address 0xa1, .slot 0xa1 1] = .ok (al', cs) ∧
      ∃ u, undoAll al' cs = .ok u ∧ u.Same newAccessList) :=
  have h := accessList_operations_valid
  ⟨valid_newAccessList, h.1 _ _ valid_newAccessList, h.2.1 _ _ valid_newAccessList,
    h.2.2.1 _ _ _ valid_newAccessList, h.2.2.2.1 _ _ _ valid_newAccessList,
    h.2.2.2.2.1 _ _ valid_newAccessList (Or.inr valid_newAccessList.toWellFormed),
    h.2.2.2.2.2.1 _ valid_newAccessList, h.2.2.2.2.2.2 _ _ valid_newAccessList⟩

/-! ## Conflict detection over well-formed lists -/

/-- The slot set `ConflictDetection` reads for the user's address. -/
theorem sliceIndex_get_of_slotSetOf {al : AccessList} (h : al.WellFormed) {a : Address} {m : GoMap Hash Unit}
    (hm : al.slotSetOf a = some m) : sliceIndex al.slots (al.addrs.get a 0) = .ok m := by
  unfold slotSetOf at hm
  cases hf : al.addrs.find? a with
  | none => simp [hf] at hm
  | some j =>
    have hj : j ≠ -1 := by
      intro hj
      simp [hf, hj] at hm
    obtain ⟨h0, hlt⟩ := (h.index_valid a j hf).resolve_left hj
    have hlt' : j.toNat < al.slots.length := by omega
    simp only [hf, if_neg hj, List.getElem?_eq_getElem hlt', Option.some.injEq] at hm
    rw [GoMap.get_of_find? 0 hf]
    simp [sliceIndex, h0, hlt', hm]

theorem exists_find?_of_len_ne_zero {m : GoMap Hash Unit} (h : m.len ≠ 0) : ∃ t, (m.find? t).isSome := by
  obtain ⟨⟨t, u⟩, ht⟩ := List.exists_mem_of_length_pos (Nat.pos_of_ne_zero h)
  exact ⟨t, by simp [GoMap.find?_eq_some_iff.mpr ht]⟩

/-- Over entries of a valid part that the user holds, the first entry with a
slot set ends the loop with a conflict. -/
theorem conflictDetection_go_contained {part user : AccessList} (hp : part.Valid) (hu : user.WellFormed)
    (hsub : part.content ⊆ user.content) :
    ∀ l : List (Σ _ : Address, Int), (∀ e ∈ l, e ∈ part.addrs.entries) → (∃ e ∈ l, e.2 ≠ -1) →
      ∃ key slots, conflictDetection.go part user l = .ok (false, true, key, slots)
  | [], _, ⟨_, he, _⟩ => absurd he List.not_mem_nil
  | ⟨key, v⟩ :: rest, hl, hex => by
    have hkey : part.addrs.find? key = some v := GoMap.find?_eq_some_iff.mpr (hl _ List.mem_cons_self)
    have huser : user.containsAddress key = true := hsub.1 (by simp [containsAddress, hkey])
    by_cases hv : v = -1
    · subst hv
      -- an address without slots that the user holds: the loop goes on
      have hrest : ∃ e ∈ rest, e.2 ≠ -1 := by
        obtain ⟨e, he, hne⟩ := hex
        rcases List.mem_cons.mp he with rfl | he
        · exact absurd rfl hne
        · exact ⟨e, he, hne⟩
      obtain ⟨k, sl, h⟩ :=
        conflictDetection_go_contained hp hu hsub rest (fun e he => hl e (List.mem_cons_of_mem _ he)) hrest
      exact ⟨k, sl, by simp [conflictDetection.go, huser, h]⟩
    · obtain ⟨h0, hlt⟩ := (hp.index_valid key v hkey).resolve_left hv
      have hlt' : v.toNat < part.slots.length := by omega
      have hslot : sliceIndex part.slots v = .ok part.slots[v.toNat] := by
        simp [sliceIndex, h0, hlt']
      have hset : part.slotSetOf key = some part.slots[v.toNat] := by
        simp [slotSetOf, hkey, hv, List.getElem?_eq_getElem hlt']
      -- a slot of the part at `key`, which the user holds too
      obtain ⟨t, ht⟩ := exists_find?_of_len_ne_zero (hp.slots_nonempty _ (List.getElem_mem hlt'))
      have hpt : (key, t) ∈ part.content.slots :=
        (mem_content_slots hp.toWellFormed _).mpr ((mem_slotsAt_of_slotSetOf hset t).mpr ht)
      have hut : t ∈ user.slotsAt key := (mem_content_slots hu _).mp (hsub.2 hpt)
      cases hum : user.slotSetOf key with
      | none => simp [slotsAt, hum] at hut
      | some um =>
        have hne : um.keyList ≠ [] := by
          intro hnil
          have := GoMap.mem_keyList.mpr ((mem_slotsAt_of_slotSetOf hum t).mp hut)
          simp [hnil] at this
        exact ⟨key, _, conflictDetection_slot_false hv hslot huser (sliceIndex_get_of_slotSetOf hu hum) hne⟩

/-- `ConflictDetection` does not decide containment. A valid part whose
addresses and pairs the user all holds, and which holds a pair, is found in
conflict; and a part whose first entry has slots, which the user holds with no
slots (`-1`), makes the check index `Slots[-1]` and panic. -/
theorem conflictDetection_contained_fails :
    (∀ (part user : AccessList) (a : Address) (s : Hash), part.Valid → user.WellFormed →
      part.content ⊆ user.content → (a, s) ∈ part.content.slots →
      ∃ key slots, part.conflictDetection user = .ok (false, true, key, slots)) ∧
    (∀ (part user : AccessList) (key : Address) (v : Int) (rest : List (Σ _ : Address, Int)) (m : GoMap Hash Unit),
      part.addrs.entries = ⟨key, v⟩ :: rest → v ≠ -1 → sliceIndex part.slots v = .ok m →
      user.addrs.find? key = some (-1) → ∃ p, part.conflictDetection user = .error p) := by
  constructor
  · intro part user a s hp hu hsub hs
    -- the pair's address has a slot set, so some entry of the part is not `-1`
    have hex : ∃ e ∈ part.addrs.entries, e.2 ≠ -1 := by
      rw [mem_content_slots hp.toWellFormed] at hs
      unfold slotsAt slotSetOf at hs
      cases hf : part.addrs.find? a with
      | none => simp [hf] at hs
      | some i =>
        have hi : i ≠ -1 := by
          intro hi
          simp [hf, hi] at hs
        exact ⟨⟨a, i⟩, GoMap.find?_eq_some_iff.mp hf, hi⟩
    exact conflictDetection_go_contained hp hu hsub _ (fun _ he => he) hex
  · intro part user key v rest m hentries hv hm hminus
    have hget : user.addrs.get key 0 = -1 := GoMap.get_of_find? 0 hminus
    obtain ⟨p, hp⟩ := sliceIndex_eq_error user.slots (Or.inl (by rw [hget]; decide) : user.addrs.get key 0 < 0 ∨ _)
    refine ⟨p, ?_⟩
    have huser : user.containsAddress key = true := by simp [containsAddress, hminus]
    simp [conflictDetection, hentries, conflictDetection.go, hv, hm, huser, hp]

/-- The list holding `0xa1` with the one slot `1`, as `AddSlot` makes it from
an empty list. -/
def oneSlotList : AccessList := ⟨some ((∅ : GoMap Address Int).set 0xa1 0), [AList.singleton 1 ()]⟩

/-- The list holding `0xa1` with no slots, as `AddAddress` makes it. -/
def oneAddressList : AccessList := ⟨some ((∅ : GoMap Address Int).set 0xa1 (-1)), []⟩

theorem valid_oneSlotList : oneSlotList.Valid := by
  obtain ⟨al', addrMod, slotMod, h, hv, -⟩ := addSlot_spec valid_newAccessList 0xa1 1
  have : newAccessList.addSlot 0xa1 1 = .ok (oneSlotList, true, true) := rfl
  rw [this, Except.ok.injEq, Prod.mk.injEq] at h
  exact h.1 ▸ hv

theorem valid_oneAddressList : oneAddressList.Valid := by
  obtain ⟨al', added, h, hv, -⟩ := addAddress_spec valid_newAccessList 0xa1
  have : newAccessList.addAddress 0xa1 = .ok (oneAddressList, true) := rfl
  rw [this, Except.ok.injEq, Prod.mk.injEq] at h
  exact h.1 ▸ hv

/-- A list checked against itself is found in conflict, and the list with a
slot at `0xa1` checked against one holding `0xa1` with no slots panics. -/
theorem conflictDetection_contained_fails_oneSlot :
    oneSlotList.Valid ∧ oneAddressList.WellFormed ∧ (0xa1, 1) ∈ oneSlotList.content.slots ∧
      (∃ key slots, oneSlotList.conflictDetection oneSlotList = .ok (false, true, key, slots)) ∧
      ∃ p, oneSlotList.conflictDetection oneAddressList = .error p := by
  have hin : (0xa1, 1) ∈ oneSlotList.content.slots := by
    show oneSlotList.contains 0xa1 1 = .ok (true, true)
    decide
  have h := conflictDetection_contained_fails
  exact ⟨valid_oneSlotList, valid_oneAddressList.toWellFormed, hin,
    h.1 oneSlotList oneSlotList 0xa1 1 valid_oneSlotList valid_oneSlotList.toWellFormed ⟨subset_rfl, subset_rfl⟩ hin,
    h.2 oneSlotList oneAddressList 0xa1 0 [] (AList.singleton 1 ()) rfl (by decide) rfl rfl⟩

end AccessList

end Pangu
