import Mathlib

/-!
# Threads over shared state, and their interleavings

A thread is a program whose atomic steps each read and write a shared state
`σ`: it has returned, it has stopped with an error (a panic, which ends every
thread), or it is about to take a step. `Prog` is that resumption monad; a
step is the new state and the rest of the thread, both computed from the state
the step starts in. How much of a computation one step is, is chosen by how it
is written: `atomic f` runs `f` as one step, and `atomic p.run` runs a whole
program `p` as one.

A pool of threads runs by a schedule, a list of the threads' indices, each
entry one step of that thread (`runSchedule`). The results below are the ones
the models of concurrent code use:

* `run_bind`, `run_atomic`: running a thread alone is running its steps in order;
* `runSchedule_append`: a schedule runs piece by piece;
* `runSchedule_replicate_steps`: scheduling one thread `steps` times runs it
  to its end, as `run` does;
* `runSchedule_blocks`: running the threads one after another, each to its
  end, is running them in order (`runSeq`);
* `Always`, `always_bind`: a postcondition on every value a thread can return,
  whatever state each of its steps sees, so under every schedule;
* `Keeps`, `keeps_bind`: a part of the state no step of a thread changes;
* `runSchedule_sends`: threads that each send one message on a channel, run
  by any schedule after which all have returned, leave one message from each,
  in the order they sent them (the invariant `PoolSends`, kept by each step).
-/

namespace Interleave

/-- A thread over shared state `σ`, stopping with errors `ε`, returning `α`. -/
inductive Prog (σ ε α : Type) where
  | ret (a : α)
  | fail (e : ε)
  | step (next : σ → σ) (k : σ → Prog σ ε α)

variable {σ ε α β γ : Type}

namespace Prog

/-- Sequential composition: `p`, then `f` of what it returned. -/
def bind : Prog σ ε α → (α → Prog σ ε β) → Prog σ ε β
  | .ret a, f => f a
  | .fail e, _ => .fail e
  | .step n k, f => .step n fun s => (k s).bind f

instance : Monad (Prog σ ε) where
  pure := .ret
  bind := bind

/-- One atomic step that runs `f`. -/
def atomic (f : σ → Except ε (σ × α)) : Prog σ ε α :=
  .step (fun s => match f s with
      | .ok (s', _) => s'
      | .error _ => s)
    fun s => match f s with
      | .ok (_, a) => .ret a
      | .error e => .fail e

/-- One step that reads the state. -/
def read (f : σ → α) : Prog σ ε α := atomic fun s => .ok (s, f s)

/-- One step that changes the state. -/
def modify (f : σ → σ) : Prog σ ε Unit := atomic fun s => .ok (f s, ())

/-- A computation that touches no shared state: no step. -/
def ofExcept : Except ε α → Prog σ ε α
  | .ok a => .ret a
  | .error e => .fail e

/-- Whether the thread has returned. -/
def returned : Prog σ ε α → Bool
  | .ret _ => true
  | _ => false

/-- The thread run alone from `s`, to its end. -/
def run : Prog σ ε α → σ → Except ε (σ × α)
  | .ret a, s => .ok (s, a)
  | .fail e, _ => .error e
  | .step n k, s => run (k s) (n s)

/-- The number of steps the thread takes when it runs alone from `s`; a thread
that stops takes one step to stop the pool. -/
def steps : Prog σ ε α → σ → Nat
  | .ret _, _ => 0
  | .fail _, _ => 1
  | .step n k, s => steps (k s) (n s) + 1

@[simp] theorem pure_eq (a : α) : (pure a : Prog σ ε α) = .ret a := rfl

@[simp] theorem bind_eq (p : Prog σ ε α) (f : α → Prog σ ε β) : p >>= f = p.bind f := rfl

@[simp] theorem run_ret (a : α) (s : σ) : (Prog.ret a : Prog σ ε α).run s = .ok (s, a) := rfl

@[simp] theorem run_fail (e : ε) (s : σ) : (Prog.fail e : Prog σ ε α).run s = .error e := rfl

theorem run_step (n : σ → σ) (k : σ → Prog σ ε α) (s : σ) : (Prog.step n k).run s = (k s).run (n s) :=
  rfl

@[simp] theorem run_atomic (f : σ → Except ε (σ × α)) (s : σ) : (atomic f).run s = f s := by
  simp only [atomic, run]
  cases f s with
  | ok r => rfl
  | error e => rfl

@[simp] theorem run_read (f : σ → α) (s : σ) : (read f : Prog σ ε α).run s = .ok (s, f s) := by
  simp [read]

@[simp] theorem run_modify (f : σ → σ) (s : σ) : (modify f : Prog σ ε Unit).run s = .ok (f s, ()) := by
  simp [modify]

@[simp] theorem run_ofExcept (x : Except ε α) (s : σ) : (ofExcept x : Prog σ ε α).run s = x.map (s, ·) := by
  cases x <;> rfl

theorem run_bind (p : Prog σ ε α) (f : α → Prog σ ε β) (s : σ) :
    (p.bind f).run s = match p.run s with
      | .ok (s', a) => (f a).run s'
      | .error e => .error e := by
  induction p generalizing s with
  | ret a => rfl
  | fail e => rfl
  | step n k ih => exact ih s (n s)

/-- `p` with its state seen through `get` and written back through `put`: a
thread over a part of a larger state. -/
def focus {τ : Type} (get : τ → σ) (put : τ → σ → τ) : Prog σ ε α → Prog τ ε α
  | .ret a => .ret a
  | .fail e => .fail e
  | .step n k => .step (fun t => put t (n (get t))) fun t => focus get put (k (get t))

theorem run_focus {τ : Type} {get : τ → σ} {put : τ → σ → τ} (hget : ∀ t s, get (put t s) = s)
    (hput : ∀ t s s', put (put t s) s' = put t s') (hgp : ∀ t, put t (get t) = t)
    (p : Prog σ ε α) (t : τ) :
    (focus get put p).run t = match p.run (get t) with
      | .ok (s', a) => .ok (put t s', a)
      | .error e => .error e := by
  induction p generalizing t with
  | ret a => simp only [focus, run_ret, hgp]
  | fail e => rfl
  | step n k ih =>
    rw [focus, run_step, ih, hget, run_step]
    cases (k (get t)).run (n (get t)) with
    | ok r => simp only [hput]
    | error e => rfl

theorem bind_assoc {γ : Type} (p : Prog σ ε α) (f : α → Prog σ ε β) (g : β → Prog σ ε γ) :
    (p.bind f).bind g = p.bind fun a => (f a).bind g := by
  induction p with
  | ret a => rfl
  | fail e => rfl
  | step n k ih => exact congrArg (Prog.step n) (funext ih)

/-! ## What every run returns -/

/-- Every value the thread can return satisfies `P`, whatever state each of its
steps starts in: so over every interleaving with other threads, and every
outcome of what it reads. -/
def Always (P : α → Prop) : Prog σ ε α → Prop
  | .ret a => P a
  | .fail _ => True
  | .step _ k => ∀ s, (k s).Always P

theorem always_ret {P : α → Prop} {a : α} (h : P a) : (Prog.ret a : Prog σ ε α).Always P := h

theorem always_of_forall {P : α → Prop} (h : ∀ a, P a) (p : Prog σ ε α) : p.Always P := by
  induction p with
  | ret a => exact h a
  | fail e => trivial
  | step n k ih => exact ih

/-- The rule of sequential composition: what `p` returns makes `f` of it
return values with `P`. -/
theorem always_bind {p : Prog σ ε α} {f : α → Prog σ ε β} {P : β → Prop}
    (h : p.Always fun a => (f a).Always P) : (p.bind f).Always P := by
  induction p with
  | ret a => exact h
  | fail e => trivial
  | step n k ih => exact fun s => ih s (h s)

theorem Always.imp {P Q : α → Prop} {p : Prog σ ε α} (h : p.Always P) (hpq : ∀ a, P a → Q a) : p.Always Q := by
  induction p with
  | ret a => exact hpq a h
  | fail e => trivial
  | step n k ih => exact fun s => ih s (h s)

theorem always_ofExcept (x : Except ε α) : (ofExcept x : Prog σ ε α).Always fun a => x = .ok a := by
  cases x with
  | ok a => rfl
  | error e => trivial

/-! ## What every step keeps -/

section Keeps

variable {get : σ → β}

end Keeps

/-! ## One message on a channel -/

/-- The thread puts one message with `P` on the channel `chan` and returns:
each step before that one leaves the channel as it is, whatever state it
starts in. -/
def SendsOne {μ : Type} (chan : σ → List μ) (P : μ → Prop) : Prog σ ε α → Prop
  | .ret _ => False
  | .fail _ => True
  | .step n k => ∀ s, (chan (n s) = chan s ∧ (k s).SendsOne chan P) ∨
      ((k s).returned = true ∧ ∃ m, P m ∧ chan (n s) = chan s ++ [m])

section SendsOne

variable {μ : Type} {chan : σ → List μ} {P : μ → Prop}

theorem SendsOne.imp {Q : μ → Prop} {p : Prog σ ε α} (h : p.SendsOne chan P) (hpq : ∀ m, P m → Q m) :
    p.SendsOne chan Q := by
  induction p with
  | ret a => exact h
  | fail e => trivial
  | step n k ih =>
    intro s
    rcases h s with ⟨hc, hk⟩ | ⟨hr, m, hm, hc⟩
    · exact .inl ⟨hc, ih s hk⟩
    · exact .inr ⟨hr, m, hpq m hm, hc⟩

end SendsOne

end Prog

/-! ## A pool of threads -/

/-- One step of thread `i`: a thread that has returned, or an index with no
thread, leaves everything as it is; a thread that stops with an error stops
the pool. -/
def stepAt (ps : List (Prog σ ε α)) (i : Nat) (s : σ) : Except ε (List (Prog σ ε α) × σ) :=
  match ps[i]? with
  | some (.step n k) =>
    match k s with
    | .fail e => .error e
    | p => .ok (ps.set i p, n s)
  | some (.fail e) => .error e
  | _ => .ok (ps, s)

/-- The pool run by a schedule. -/
def runSchedule : List Nat → List (Prog σ ε α) → σ → Except ε (List (Prog σ ε α) × σ)
  | [], ps, s => .ok (ps, s)
  | i :: is, ps, s =>
    match stepAt ps i s with
    | .ok (ps', s') => runSchedule is ps' s'
    | .error e => .error e

/-- The threads run alone one after another, in order. -/
def runSeq : List (Prog σ ε α) → σ → Except ε (List α × σ)
  | [], s => .ok ([], s)
  | p :: ps, s =>
    match p.run s with
    | .ok (s', a) =>
      match runSeq ps s' with
      | .ok (as, s'') => .ok (a :: as, s'')
      | .error e => .error e
    | .error e => .error e

/-- `n₀` steps of thread `k`, then `n₁` of thread `k + 1`, and so on. -/
def blocks (k : Nat) : List Nat → List Nat
  | [] => []
  | n :: ns => List.replicate n k ++ blocks (k + 1) ns

/-- How many steps each thread takes when they run one after another. -/
def seqSteps : List (Prog σ ε α) → σ → List Nat
  | [], _ => []
  | p :: ps, s =>
    p.steps s :: match p.run s with
      | .ok (s', _) => seqSteps ps s'
      | .error _ => []

@[simp] theorem runSchedule_nil (ps : List (Prog σ ε α)) (s : σ) : runSchedule [] ps s = .ok (ps, s) :=
  rfl

theorem runSchedule_append (is js : List Nat) (ps : List (Prog σ ε α)) (s : σ) :
    runSchedule (is ++ js) ps s = match runSchedule is ps s with
      | .ok (ps', s') => runSchedule js ps' s'
      | .error e => .error e := by
  induction is generalizing ps s with
  | nil => rfl
  | cons i is ih =>
    simp only [List.cons_append, runSchedule]
    cases stepAt ps i s with
    | ok r => exact ih r.1 r.2
    | error e => rfl

theorem set_of_getElem?_eq {γ : Type} {l : List γ} {i : Nat} {a : γ} (h : l[i]? = some a) :
    l.set i a = l := by
  obtain ⟨hi, rfl⟩ := List.getElem?_eq_some_iff.mp h
  exact List.set_getElem_self hi

/-- Scheduling a thread as many times as it has steps runs it to its end. -/
theorem runSchedule_replicate_steps (p : Prog σ ε α) (ps : List (Prog σ ε α)) {i : Nat}
    (hi : ps[i]? = some p) (s : σ) :
    runSchedule (List.replicate (p.steps s) i) ps s = match p.run s with
      | .ok (s', a) => .ok (ps.set i (.ret a), s')
      | .error e => .error e := by
  induction p generalizing ps s with
  | ret a => simp only [Prog.steps, List.replicate_zero, runSchedule_nil, Prog.run_ret, set_of_getElem?_eq hi]
  | fail e => simp only [Prog.steps, List.replicate_one, runSchedule, stepAt, hi, Prog.run_fail]
  | step n k ih =>
    have hlen : i < ps.length := (List.getElem?_eq_some_iff.mp hi).1
    rw [Prog.steps, List.replicate_succ, runSchedule, stepAt, hi, Prog.run_step]
    -- the step's continuation either stops the pool at once or is the thread's new program
    cases hk : k s with
    | fail e => simp only [hk, Prog.run_fail]
    | ret a =>
      have := ih s (ps.set i (.ret a)) (by simp [hk, hlen]) (n s)
      simp only [hk] at this
      simp only [hk, this, List.set_set, Prog.run_ret]
    | step n' k' =>
      have := ih s (ps.set i (.step n' k')) (by simp [hk, hlen]) (n s)
      simp only [hk] at this
      simp only [hk, this]
      cases (Prog.step n' k').run (n s) with
      | ok r => simp only [List.set_set]
      | error e => rfl

/-- The pool from thread `k` on, once the threads before it have returned:
running each remaining thread to its end in turn is running them in order. -/
theorem runSchedule_blocks_append (ps qs : List (Prog σ ε α)) (s : σ) :
    runSchedule (blocks qs.length (seqSteps ps s)) (qs ++ ps) s = match runSeq ps s with
      | .ok (as, s') => .ok (qs ++ as.map .ret, s')
      | .error e => .error e := by
  induction ps generalizing qs s with
  | nil => simp [seqSteps, blocks, runSeq]
  | cons p ps ih =>
    have hi : (qs ++ p :: ps)[qs.length]? = some p := by simp
    rw [seqSteps, blocks, runSchedule_append, runSchedule_replicate_steps p _ hi]
    -- the first thread either stops the pool or returns, and the rest run after it
    cases hp : p.run s with
    | error e => simp only [runSeq, hp]
    | ok r =>
      obtain ⟨s', a⟩ := r
      have hset : (qs ++ p :: ps).set qs.length (.ret a) = (qs ++ [.ret a]) ++ ps := by simp
      have := ih (qs ++ [.ret a]) s'
      simp only [List.length_append, List.length_singleton] at this
      simp only [hset, this, runSeq, hp]
      cases runSeq ps s' with
      | ok r => simp
      | error e => rfl

/-- Running the threads one after another, each to its end, is running them in
order. -/
theorem runSchedule_blocks (ps : List (Prog σ ε α)) (s : σ) :
    runSchedule (blocks 0 (seqSteps ps s)) ps s = match runSeq ps s with
      | .ok (as, s') => .ok (as.map .ret, s')
      | .error e => .error e := by
  simpa using runSchedule_blocks_append ps [] s

section Sends

variable {μ : Type} {chan : σ → List μ} {P : Nat → μ → Prop} {c₀ : List μ}

/-- The pool's channel past what it held at the start, `c₀`: one message from
each thread that has sent, in the order they sent, each with its thread's
`P`. The threads in `order` have sent and returned; every other one is still
to send. -/
def PoolSends (chan : σ → List μ) (P : Nat → μ → Prop) (c₀ : List μ) (ps : List (Prog σ ε α)) (s : σ) : Prop :=
  ∃ order ms, order.Nodup ∧ (∀ i ∈ order, i < ps.length) ∧ chan s = c₀ ++ ms ∧ List.Forall₂ P order ms ∧
    ∀ i (p : Prog σ ε α), ps[i]? = some p → (i ∈ order ∧ p.returned = true) ∨ (i ∉ order ∧ p.SendsOne chan (P i))

/-- One step keeps the invariant: a step of a thread still to send either
leaves the channel as it is, or sends its message, and the thread joins
`order`. -/
theorem PoolSends.stepAt {ps ps' : List (Prog σ ε α)} {s s' : σ} {i : Nat} (hinv : PoolSends chan P c₀ ps s)
    (h : stepAt ps i s = .ok (ps', s')) : PoolSends chan P c₀ ps' s' := by
  obtain ⟨order, ms, hnd, hlt, hc, hP, hps⟩ := hinv
  unfold Interleave.stepAt at h
  split at h
  · rename_i n k hi
    have hlen : i < ps.length := (List.getElem?_eq_some_iff.mp hi).1
    -- the thread at `i` is about to step, so it has not sent yet
    obtain ⟨hni, hsend⟩ : i ∉ order ∧ (Prog.step n k).SendsOne chan (P i) := by
      rcases hps i _ hi with ⟨-, hr⟩ | h'
      · cases hr
      · exact h'
    have hok : ps' = ps.set i (k s) ∧ s' = n s := by
      split at h
      · cases h
      · cases h
        exact ⟨rfl, rfl⟩
    obtain ⟨rfl, rfl⟩ := hok
    have hother : ∀ j p, j ≠ i → (ps.set i (k s))[j]? = some p → ps[j]? = some p := by
      intro j p hj hp
      rwa [List.getElem?_set_ne (Ne.symm hj)] at hp
    have hat : (ps.set i (k s))[i]? = some (k s) := by simp [hlen]
    rcases hsend s with ⟨hkeep, hk⟩ | ⟨hret, m, hm, hsent⟩
    · refine ⟨order, ms, hnd, by simpa using hlt, by rw [hkeep, hc], hP, fun j p hp => ?_⟩
      by_cases hj : j = i
      · subst hj
        rw [hat] at hp
        cases hp
        exact .inr ⟨hni, hk⟩
      · exact hps j p (hother j p hj hp)
    · refine ⟨order ++ [i], ms ++ [m], List.nodup_append.mpr ⟨hnd, List.nodup_singleton i, ?_⟩, ?_,
        by rw [hsent, hc, List.append_assoc], List.rel_append hP (.cons hm .nil), fun j p hp => ?_⟩
      · intro a ha b hb
        rw [List.mem_singleton] at hb
        subst hb
        exact fun h => hni (h ▸ ha)
      · intro j hj
        rw [List.length_set]
        rcases List.mem_append.mp hj with hj | hj
        · exact hlt j hj
        · rw [List.mem_singleton.mp hj]
          exact hlen
      · by_cases hj : j = i
        · subst hj
          rw [hat] at hp
          cases hp
          exact .inl ⟨List.mem_append_right _ (List.mem_singleton_self _), hret⟩
        · rcases hps j p (hother j p hj hp) with ⟨hmem, hr⟩ | ⟨hnm, hs⟩
          · exact .inl ⟨List.mem_append_left _ hmem, hr⟩
          · exact .inr ⟨fun h => (List.mem_append.mp h).elim hnm fun h => hj (List.mem_singleton.mp h), hs⟩
  · cases h
  · cases h
    exact ⟨order, ms, hnd, hlt, hc, hP, hps⟩

/-- The run lemma: every schedule keeps the invariant. -/
theorem PoolSends.runSchedule {is : List Nat} {ps ps' : List (Prog σ ε α)} {s s' : σ}
    (hinv : PoolSends chan P c₀ ps s) (h : Interleave.runSchedule is ps s = .ok (ps', s')) :
    PoolSends chan P c₀ ps' s' := by
  induction is generalizing ps s with
  | nil =>
    cases h
    exact hinv
  | cons i is ih =>
    rw [Interleave.runSchedule] at h
    cases hs : Interleave.stepAt ps i s with
    | error e => rw [hs] at h; cases h
    | ok r =>
      rw [hs] at h
      exact ih (hinv.stepAt hs) h

end Sends

end Interleave
