import Mathlib

/-!
# Scans that defer runs of alike elements

A list is taken element by element. An element is run, and the run has an
outcome; an outcome that defers its element sends it on, and with it every
element right after it that has its key, unrun, up to the first of another
key, where the runs start again. `scan` gives each element its fate, the runs
taking their outcomes one after another (`out 0`, `out 1`, ...).

* `length_scan`: one fate an element;
* `runs_scan`: the elements that run take the outcomes in order, the `k`-th
  the `k`-th: no element runs twice, and no outcome goes to two elements;
* `follows_after`: the elements right after a deferred one, or one that
  follows, that have its key follow unrun.
-/

namespace DeferScan

/-- What became of an element: it ran, with an outcome, or it followed a
deferred one without running. -/
inductive Fate (ρ : Type) where
  | ran (o : ρ)
  | follows
  deriving DecidableEq

/-- The outcome of an element that ran. -/
def Fate.outcome? {ρ : Type} : Fate ρ → Option ρ
  | .ran o => some o
  | .follows => none

section Scan

variable {α κ ρ : Type} [DecidableEq κ] (key : α → κ) (defers : ρ → Bool)

/-- The fates of `xs`; the runs take their outcomes from `out`, and `skip` is
the key whose elements follow, after a deferred element. -/
def scan : (Nat → ρ) → List α → Option κ → List (Fate ρ)
  | _, [], _ => []
  | out, x :: xs, skip =>
    if skip = some (key x) then .follows :: scan out xs skip
    else .ran (out 0) :: scan (fun n => out (n + 1)) xs (if defers (out 0) then some (key x) else none)

variable {key defers}

theorem scan_cons_follows {out : Nat → ρ} {x : α} {xs : List α} {skip : Option κ} (h : skip = some (key x)) :
    scan key defers out (x :: xs) skip = .follows :: scan key defers out xs skip := by
  rw [scan, if_pos h]

theorem scan_cons_run {out : Nat → ρ} {x : α} {xs : List α} {skip : Option κ} (h : skip ≠ some (key x)) :
    scan key defers out (x :: xs) skip =
      .ran (out 0) :: scan key defers (fun n => out (n + 1)) xs (if defers (out 0) then some (key x) else none) := by
  rw [scan, if_neg h]

@[simp] theorem length_scan (out : Nat → ρ) (xs : List α) (skip : Option κ) :
    (scan key defers out xs skip).length = xs.length := by
  induction xs generalizing out skip with
  | nil => rfl
  | cons x xs ih =>
    by_cases h : skip = some (key x)
    · rw [scan_cons_follows h, List.length_cons, ih, List.length_cons]
    · rw [scan_cons_run h, List.length_cons, ih, List.length_cons]

/-- The elements that run take the outcomes in order: the `k`-th the `k`-th. -/
theorem runs_scan (out : Nat → ρ) (xs : List α) (skip : Option κ) :
    ∃ n, (scan key defers out xs skip).filterMap Fate.outcome? = (List.range n).map out := by
  induction xs generalizing out skip with
  | nil => exact ⟨0, rfl⟩
  | cons x xs ih =>
    by_cases h : skip = some (key x)
    · obtain ⟨n, hn⟩ := ih out skip
      refine ⟨n, ?_⟩
      rw [scan_cons_follows h, List.filterMap_cons]
      exact hn
    · obtain ⟨n, hn⟩ := ih (fun n => out (n + 1)) (if defers (out 0) then some (key x) else none)
      refine ⟨n + 1, ?_⟩
      rw [scan_cons_run h, List.filterMap_cons, hn, List.range_succ_eq_map, List.map_cons, List.map_map]
      rfl

/-- Elements with the key that follows all follow. -/
theorem scan_append_of_key {c : κ} (out : Nat → ρ) (ys zs : List α) (hys : ∀ y ∈ ys, key y = c) :
    scan key defers out (ys ++ zs) (some c) = ys.map (fun _ => .follows) ++ scan key defers out zs (some c) := by
  induction ys with
  | nil => rfl
  | cons y ys ih =>
    rw [List.cons_append, scan_cons_follows (by rw [hys y List.mem_cons_self]),
      ih fun y hy => hys y (List.mem_cons_of_mem _ hy)]
    rfl

/-- After an element that ran, the fates are those of a scan of the rest, with
outcomes of its own and the element's key to follow if it was deferred. -/
theorem drop_scan_of_ran (out : Nat → ρ) (xs : List α) (skip : Option κ) {j : Nat} {o : ρ}
    (hj : (scan key defers out xs skip)[j]? = some (.ran o)) :
    ∃ out', (scan key defers out xs skip).drop (j + 1) =
      scan key defers out' (xs.drop (j + 1)) (if defers o then xs[j]?.map key else none) := by
  induction xs generalizing out skip j with
  | nil => simp [scan] at hj
  | cons x xs ih =>
    by_cases h : skip = some (key x)
    · rw [scan_cons_follows h] at hj ⊢
      cases j with
      | zero => simp at hj
      | succ j =>
        obtain ⟨out', h'⟩ := ih out skip hj
        exact ⟨out', h'⟩
    · rw [scan_cons_run h] at hj ⊢
      cases j with
      | zero =>
        simp only [List.getElem?_cons_zero, Option.some.injEq, Fate.ran.injEq] at hj
        subst hj
        exact ⟨fun n => out (n + 1), by simp⟩
      | succ j =>
        obtain ⟨out', h'⟩ := ih (fun n => out (n + 1)) _ hj
        exact ⟨out', h'⟩

/-- After an element that follows, the scan goes on skipping its key. -/
theorem drop_scan_of_follows (out : Nat → ρ) (xs : List α) (skip : Option κ) {j : Nat}
    (hj : (scan key defers out xs skip)[j]? = some .follows) :
    ∃ out', (scan key defers out xs skip).drop (j + 1) =
      scan key defers out' (xs.drop (j + 1)) (xs[j]?.map key) := by
  induction xs generalizing out skip j with
  | nil => simp [scan] at hj
  | cons x xs ih =>
    by_cases h : skip = some (key x)
    · rw [scan_cons_follows h] at hj ⊢
      cases j with
      | zero => exact ⟨out, by rw [h]; rfl⟩
      | succ j =>
        obtain ⟨out', h'⟩ := ih out skip hj
        exact ⟨out', h'⟩
    · rw [scan_cons_run h] at hj ⊢
      cases j with
      | zero => simp at hj
      | succ j =>
        obtain ⟨out', h'⟩ := ih (fun n => out (n + 1)) _ hj
        exact ⟨out', h'⟩

/-- Once the scan goes on after `j` skipping the key of `xs[j]`, the elements
after `j` up to `k` that have that key follow. -/
theorem follows_of_drop {out out' : Nat → ρ} {xs : List α} {skip : Option κ} {j k : Nat}
    (hdrop : (scan key defers out xs skip).drop (j + 1) =
      scan key defers out' (xs.drop (j + 1)) (xs[j]?.map key))
    (hjk : j < k) (hk : k < xs.length) (hkey : ∀ i, j < i → i ≤ k → xs[i]?.map key = xs[j]?.map key) :
    (scan key defers out xs skip)[k]? = some .follows := by
  have hjlen : j < xs.length := by omega
  rw [List.getElem?_eq_getElem hjlen, Option.map_some] at hdrop
  -- the elements from `j + 1` to `k` have the key of `xs[j]`
  have hys : ∀ y ∈ (xs.drop (j + 1)).take (k - j), key y = key xs[j] := by
    intro y hy
    obtain ⟨i, hi⟩ := List.mem_iff_getElem?.mp hy
    have hik : i < k - j := by
      by_contra hc
      rw [List.getElem?_take, if_neg hc] at hi
      cases hi
    rw [List.getElem?_take, if_pos hik, List.getElem?_drop] at hi
    have h := hkey (j + 1 + i) (by omega) (by omega)
    rw [hi, List.getElem?_eq_getElem hjlen, Option.map_some, Option.map_some, Option.some.injEq] at h
    exact h
  rw [← List.take_append_drop (k - j) (xs.drop (j + 1)), scan_append_of_key out' _ _ hys] at hdrop
  have hlen : ((xs.drop (j + 1)).take (k - j)).length = k - j := by simp; omega
  calc (scan key defers out xs skip)[k]?
      = ((scan key defers out xs skip).drop (j + 1))[k - j - 1]? := by
        rw [List.getElem?_drop, show j + 1 + (k - j - 1) = k by omega]
    _ = some .follows := by
        rw [hdrop, List.getElem?_append_left (by rw [List.length_map, hlen]; omega), List.getElem?_map,
          List.getElem?_eq_getElem (by rw [hlen]; omega), Option.map_some]

/-- The elements right after one that followed, or that ran with an outcome
that defers, up to `k`, that have its key follow. -/
theorem follows_after (out : Nat → ρ) (xs : List α) (skip : Option κ) {j k : Nat} {f : Fate ρ}
    (hj : (scan key defers out xs skip)[j]? = some f) (hf : f = .follows ∨ ∃ o, f = .ran o ∧ defers o = true)
    (hjk : j < k) (hk : k < xs.length) (hkey : ∀ i, j < i → i ≤ k → xs[i]?.map key = xs[j]?.map key) :
    (scan key defers out xs skip)[k]? = some .follows := by
  rcases hf with rfl | ⟨o, rfl, ho⟩
  · obtain ⟨out', hdrop⟩ := drop_scan_of_follows out xs skip hj
    exact follows_of_drop hdrop hjk hk hkey
  · obtain ⟨out', hdrop⟩ := drop_scan_of_ran out xs skip hj
    rw [if_pos ho] at hdrop
    exact follows_of_drop hdrop hjk hk hkey

end Scan

end DeferScan
