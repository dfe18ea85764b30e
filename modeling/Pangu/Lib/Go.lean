import Mathlib

/-!
# What these models need of Go

A Go computation either returns or panics; a panic unwinds every caller that
does not recover, and no function modelled here recovers. So a Go function is a
function into `Go α := Except Panic α`, whose bind is that unwinding. A slice is
a list and indexing it (`sliceIndex`) panics outside its bounds; a map is an
association list with distinct keys (`GoMap`), the order of its entries being
the order in which one `range` over it visits them. Go randomises that order on
every `range`, so two maps whose entries are a permutation of each other are the
same map, and a statement about every iteration order is a statement about
every such list.

* `sliceIndex_of_lt`, `sliceIndex_eq_error`: when an index is read and when it
  panics;
* `GoMap.get`, `GoMap.find?`: a read, which for an absent key gives the zero
  value the caller names.

A model that runs a program for a bounded number of steps stops in one more
way, out of fuel: `GoF α := Except Halt α`, into which `lift` takes a Go
computation. A function of the standard library whose algorithm is not given,
`sort.Slice`, is a parameter (`SortSlice`) with its documented behaviour
(`SortSlice.Sorts`) as a hypothesis where a proof needs it.
-/

namespace Go

/-- A panic, with the message Go prints for it. -/
structure Panic where
  msg : String
  deriving DecidableEq, Repr

end Go

/-- A Go computation: a value, or a panic that unwinds all the way up. -/
abbrev Go (α : Type) := Except Go.Panic α

namespace Go

/-- `panic(msg)`, and the runtime's own panics. -/
def panic {α : Type} (msg : String) : Go α := .error ⟨msg⟩

/-- The runtime error of a nil pointer dereference, a method value read through
a nil interface, or a call of a nil function value. -/
def nilDereference {α : Type} : Go α :=
  panic "runtime error: invalid memory address or nil pointer dereference"

/-- `l[i]` for a Go slice: the element, or the runtime's index panic. -/
def sliceIndex {α : Type} (l : List α) (i : Int) : Go α :=
  if h : 0 ≤ i ∧ i.toNat < l.length then .ok (l.get ⟨i.toNat, h.2⟩)
  -- the runtime names no length for a negative index
  else if i < 0 then panic s!"runtime error: index out of range [{i}]"
  else
    let n := l.length
    panic s!"runtime error: index out of range [{i}] with length {n}"

theorem sliceIndex_of_lt {α : Type} (l : List α) {i : Nat} (h : i < l.length) :
    sliceIndex l i = .ok (l.get ⟨i, h⟩) := by
  simp [sliceIndex, h]

theorem sliceIndex_eq_error {α : Type} (l : List α) {i : Int} (h : i < 0 ∨ l.length ≤ i) :
    ∃ p, sliceIndex l i = .error p := by
  unfold sliceIndex
  rw [dif_neg (by omega)]
  split
  · exact ⟨_, rfl⟩
  · exact ⟨_, rfl⟩

theorem sliceIndex_isOk {α : Type} {l : List α} {i : Int} {a : α}
    (h : sliceIndex l i = .ok a) : 0 ≤ i ∧ i.toNat < l.length := by
  unfold sliceIndex at h
  split at h
  · assumption
  · split at h <;> cases h

/-- The assignment `l[i] = a`: the slice with that element replaced, or the same
panic as a read outside the bounds. -/
def sliceSet {α : Type} (l : List α) (i : Nat) (a : α) : Go (List α) :=
  if i < l.length then .ok (l.set i a)
  else
    let n := l.length
    panic s!"runtime error: index out of range [{i}] with length {n}"

theorem sliceSet_of_lt {α : Type} (l : List α) {i : Nat} (h : i < l.length) (a : α) :
    sliceSet l i a = .ok (l.set i a) := if_pos h

/-- How a computation run with bounded fuel can end without a value: a panic, or
no end within the fuel. -/
inductive Halt where
  | panic (p : Panic)
  | outOfFuel
  deriving DecidableEq

/-- A Go computation run with fuel. -/
abbrev GoF (α : Type) := Except Halt α

/-- A computation that cannot run out of fuel, in one that can. -/
def lift {α : Type} : Go α → GoF α
  | .ok a => .ok a
  | .error p => .error (.panic p)

@[simp] theorem lift_ok {α : Type} (a : α) : lift (.ok a : Go α) = .ok a := rfl

@[simp] theorem lift_error {α : Type} (p : Panic) : lift (.error p : Go α) = .error (.panic p) := rfl

theorem lift_eq_ok {α : Type} {x : Go α} {a : α} (h : lift x = .ok a) : x = .ok a := by
  cases x with
  | ok b =>
    rw [lift_ok, Except.ok.injEq] at h
    rw [h]
  | error p =>
    rw [lift_error] at h
    cases h

/-! ## Unwinding -/

@[simp] theorem ok_bind {ε α β : Type} (a : α) (f : α → Except ε β) : (Except.ok a >>= f) = f a :=
  rfl

@[simp] theorem error_bind {ε α β : Type} (e : ε) (f : α → Except ε β) :
    (Except.error e >>= f) = .error e :=
  rfl

theorem bind_eq_ok {ε α β : Type} {x : Except ε α} {f : α → Except ε β} {b : β}
    (h : (x >>= f) = .ok b) : ∃ a, x = .ok a ∧ f a = .ok b := by
  cases x with
  | error e => cases h
  | ok a => exact ⟨a, rfl, h⟩

theorem map_eq_ok {ε α β : Type} {x : Except ε α} {g : α → β} {b : β}
    (h : (g <$> x) = .ok b) : ∃ a, x = .ok a ∧ g a = b := by
  cases x with
  | error e => cases h
  | ok a => cases h; exact ⟨a, rfl, rfl⟩

theorem bind_of_error {ε α β : Type} {x : Except ε α} {e : ε} (f : α → Except ε β)
    (h : x = .error e) : (x >>= f) = .error e := by
  subst h; rfl

/-- A loop that collects its body's results: bodies that agree on every element
run it alike. -/
theorem mapM_congr_mem {ε α β : Type} {f g : α → Except ε β} :
    ∀ {l : List α}, (∀ a ∈ l, f a = g a) → l.mapM f = l.mapM g
  | [], _ => rfl
  | a :: l, h => by
    rw [List.mapM_cons, List.mapM_cons, h a List.mem_cons_self,
      mapM_congr_mem fun b hb => h b (List.mem_cons_of_mem a hb)]

/-- A Go map, or a Go set when the values are `Unit`: its entries in the order a
`range` visits them. -/
abbrev GoMap (K V : Type) := AList (fun _ : K => V)

/-- `m[k]`, the value at `k` and whether it is there. -/
def GoMap.find? {K V : Type} [DecidableEq K] (m : GoMap K V) (k : K) : Option V := m.lookup k

/-- `m[k]` in a context that takes one value: an absent key reads as the zero
value `zero`. -/
def GoMap.get {K V : Type} [DecidableEq K] (m : GoMap K V) (k : K) (zero : V) : V :=
  (m.lookup k).getD zero

/-- `m[k] = v`. -/
def GoMap.set {K V : Type} [DecidableEq K] (m : GoMap K V) (k : K) (v : V) : GoMap K V :=
  m.insert k v

/-- The keys of a map, in iteration order. -/
def GoMap.keyList {K V : Type} (m : GoMap K V) : List K := m.entries.map Sigma.fst

/-- `len(m)`. -/
def GoMap.len {K V : Type} (m : GoMap K V) : Nat := m.entries.length

@[simp] theorem GoMap.find?_set_self {K V : Type} [DecidableEq K] (m : GoMap K V) (k : K) (v : V) :
    (m.set k v).find? k = some v := AList.lookup_insert m

@[simp] theorem GoMap.find?_set_ne {K V : Type} [DecidableEq K] (m : GoMap K V) {k k' : K} (v : V)
    (h : k ≠ k') : (m.set k' v).find? k = m.find? k := AList.lookup_insert_ne h

@[simp] theorem GoMap.find?_empty {K V : Type} [DecidableEq K] (k : K) :
    (∅ : GoMap K V).find? k = none := AList.lookup_empty k

theorem GoMap.len_set_of_find?_none {K V : Type} [DecidableEq K] (m : GoMap K V) {k : K} (v : V)
    (h : m.find? k = none) : (m.set k v).len = m.len + 1 := by
  simp only [GoMap.len, GoMap.set]
  rw [AList.entries_insert_of_notMem (AList.lookup_eq_none.mp h)]
  simp

theorem GoMap.get_of_find? {K V : Type} [DecidableEq K] {m : GoMap K V} {k : K} {v : V} (zero : V)
    (h : m.find? k = some v) : m.get k zero = v := by
  unfold GoMap.get
  rw [show m.lookup k = m.find? k from rfl, h]
  rfl

theorem GoMap.len_set_ne_zero {K V : Type} [DecidableEq K] (m : GoMap K V) (k : K) (v : V) :
    (m.set k v).len ≠ 0 := by
  simp [GoMap.len, GoMap.set, AList.entries_insert]

theorem GoMap.singleton_eq_set {K V : Type} [DecidableEq K] (k : K) (v : V) :
    (AList.singleton k v : GoMap K V) = (∅ : GoMap K V).set k v := by
  rw [GoMap.set, AList.insert_empty]

theorem GoMap.find?_eq_some_iff {K V : Type} [DecidableEq K] {m : GoMap K V} {k : K} {v : V} :
    m.find? k = some v ↔ ⟨k, v⟩ ∈ m.entries := AList.mem_lookup_iff

theorem GoMap.mem_keyList {K V : Type} [DecidableEq K] {m : GoMap K V} {k : K} :
    k ∈ m.keyList ↔ (m.find? k).isSome := by
  rw [GoMap.find?, AList.lookup_isSome, AList.mem_keys]
  rfl

/-- `delete(m, k)` of `AList.erase`, read back. -/
@[simp] theorem GoMap.find?_erase_self {K V : Type} [DecidableEq K] (m : GoMap K V) (k : K) :
    GoMap.find? (m.erase k) k = none := AList.lookup_erase k m

@[simp] theorem GoMap.find?_erase_ne {K V : Type} [DecidableEq K] (m : GoMap K V) {k k' : K}
    (h : k ≠ k') : GoMap.find? (m.erase k') k = m.find? k := AList.lookup_erase_ne h

/-- Deleting a key just set, which was not there before, gives the map back
entry for entry. -/
theorem GoMap.erase_set_of_find?_none {K V : Type} [DecidableEq K] {m : GoMap K V} {k : K} (v : V)
    (h : m.find? k = none) : (m.set k v).erase k = m := by
  apply AList.ext
  have hk : k ∉ m.keys := AList.mem_keys.not.mp (AList.lookup_eq_none.mp h)
  simp only [AList.erase, GoMap.set, AList.insert, List.kinsert_def]
  simp only [List.kerase, List.eraseP_cons_of_pos, decide_true]
  exact List.kerase_of_notMem_keys hk

theorem GoMap.get_eq_getD {K V : Type} [DecidableEq K] (m : GoMap K V) (k : K) (zero : V) :
    m.get k zero = (m.find? k).getD zero := rfl

theorem GoMap.get_set_self {K V : Type} [DecidableEq K] (m : GoMap K V) (k : K) (v zero : V) :
    (m.set k v).get k zero = v := by
  simp [GoMap.get_eq_getD]

theorem GoMap.get_set_ne {K V : Type} [DecidableEq K] (m : GoMap K V) {k k' : K} (v zero : V) (h : k ≠ k') :
    (m.set k' v).get k zero = m.get k zero := by
  simp [GoMap.get_eq_getD, GoMap.find?_set_ne _ _ h]

theorem GoMap.get_erase_self {K V : Type} [DecidableEq K] (m : GoMap K V) (k : K) (zero : V) :
    GoMap.get (m.erase k) k zero = zero := by
  simp [GoMap.get_eq_getD]

theorem GoMap.get_erase_ne {K V : Type} [DecidableEq K] (m : GoMap K V) {k k' : K} (zero : V) (h : k ≠ k') :
    GoMap.get (m.erase k') k zero = m.get k zero := by
  simp [GoMap.get_eq_getD, GoMap.find?_erase_ne _ h]

/-- A key set twice holds the second value, as if set once. -/
theorem GoMap.set_set {K V : Type} [DecidableEq K] (m : GoMap K V) (k : K) (v v' : V) :
    (m.set k v).set k v' = m.set k v' := AList.insert_insert _

/-- A read that is not the zero value comes from an entry of the map. -/
theorem GoMap.find?_of_get_ne {K V : Type} [DecidableEq K] {m : GoMap K V} {k : K} {zero : V}
    (h : m.get k zero ≠ zero) : m.find? k = some (m.get k zero) := by
  rw [GoMap.get_eq_getD] at h ⊢
  cases hk : m.find? k with
  | none => simp [hk] at h
  | some v => rfl

/-- The sum of `f` over the values of a map: a measure for a loop that shrinks
one value at a time. -/
def GoMap.total {K V : Type} (m : GoMap K V) (f : V → Nat) : Nat := (m.entries.map fun e => f e.2).sum

/-- Setting a key that holds `old` to `v` trades `f old` for `f v` in the total. -/
theorem GoMap.total_set {K V : Type} [DecidableEq K] {m : GoMap K V} {k : K} {old : V} (v : V) (f : V → Nat)
    (h : m.find? k = some old) : (m.set k v).total f + f old = m.total f + f v := by
  have hk : k ∈ m.entries.keys := AList.mem_keys.mp (AList.lookup_isSome.mp (by simp [GoMap.find?] at h; simp [h]))
  -- the entry of `k` splits the list; the insert drops it and puts `v` in front
  obtain ⟨b, l₁, l₂, hk₁, heq, hker⟩ := List.exists_of_kerase hk
  have hb : b = old := by
    have : m.lookup k = some b := by
      rw [AList.lookup, heq, List.dlookup_append]
      simp [List.dlookup_eq_none.mpr hk₁]
    exact Option.some_injective _ (this.symm.trans h)
  subst hb
  simp only [GoMap.total, GoMap.set, AList.entries_insert]
  rw [hker, heq]
  simp only [List.map_cons, List.map_append, List.sum_cons, List.sum_append]
  omega

/-- `sort.Slice(x, less)`: the standard library sorts by `less` with an
algorithm of its own, not stable, so a model takes it as a parameter. -/
abbrev SortSlice := ∀ {α : Type}, (α → α → Bool) → List α → List α

/-- What `sort.Slice` is documented to do: for a `less` that is a strict weak
order (asymmetric, and `a < c` puts any `b` above `a` or below `c`), a
permutation of its input in which no element is less than one before it. -/
def SortSlice.Sorts (sortSlice : SortSlice) : Prop :=
  ∀ (α : Type) (less : α → α → Bool), (∀ a b, less a b → less b a = false) →
    (∀ a b c, less a c → less a b ∨ less b c) →
    ∀ l, (sortSlice less l).Perm l ∧ (sortSlice less l).Pairwise fun a b => less b a = false

/-- Insertion sort by `less`: a `sort.Slice` to run the model with. -/
def insertionSortSlice : SortSlice := fun less l => l.insertionSort fun a b => less b a = false

theorem insertionSortSlice_sorts : insertionSortSlice.Sorts := by
  intro α less hasymm hconn l
  -- `¬ less b a` is total by asymmetry and transitive by the connectedness of `less`
  have : Std.Total (fun a b : α => less b a = false) := ⟨fun a b => by
    cases h : less b a
    · exact Or.inl rfl
    · exact Or.inr (hasymm b a h)⟩
  have : IsTrans α (fun a b : α => less b a = false) := ⟨fun a b c hab hbc => by
    cases h : less c a
    · rfl
    · rcases hconn c b a h with h' | h'
      · simp [h'] at hbc
      · simp [h'] at hab⟩
  exact ⟨List.perm_insertionSort _ l, List.pairwise_insertionSort _ l⟩

end Go
