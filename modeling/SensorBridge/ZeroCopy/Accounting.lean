import SensorBridge.ZeroCopy.ObjectPool

/-!
# How many objects are acquired

The count of acquired objects goes up before a guard is handed out and down after it is dropped. It
is the number of guards, and of the operations in between (`Counted`), so it is never
taken below zero.

`take` ends a guard and leaves the count. From then on the pool reports an object as acquired that
no guard holds: at rest the count is the number of guards exactly as long as none was taken
(`accounting`).
-/

namespace SensorBridge.ZeroCopy

open Foundation Threads

universe u

variable {T : Type u}

/-- Whether the operation is counted, for a guard that is not there yet or is no more. -/
def PoolPc.counted : PoolPc T → Bool
  | .acquirePop | .acquireCount | .acquireMake | .returnSub _ => true
  | _ => false

@[simp] theorem PoolPc.counted_prefill (left : ℕ) : (PoolPc.prefill left : PoolPc T).counted = false := by
  cases left <;> rfl

namespace ObjectPool

variable {s s' : ObjectPool T} {a : Act T}

/-- How many guards are alive. -/
def alive (s : ObjectPool T) : ℕ := s.guards.countP Option.isSome

/-- How many operations are counted. -/
def inProgress (s : ObjectPool T) : ℕ := s.ops.countP PoolPc.counted

/-- The count is that of the guards, of the operations in between, and of what was taken. -/
def Counted (s : ObjectPool T) : Prop := s.acquiredCount = s.alive + s.inProgress + s.taken

/-- What the steps of an operation on the queue leave as it is. -/
theorem push_eq (s : ObjectPool T) (obj : Obj T) :
    (s.push obj).ops = s.ops ∧ (s.push obj).guards = s.guards ∧ (s.push obj).acquiredCount = s.acquiredCount ∧
      (s.push obj).taken = s.taken := by
  unfold push
  split_ifs <;> exact ⟨rfl, rfl, rfl, rfl⟩

/-- A guard ends. -/
theorem alive_end {g : ℕ} {obj : Obj T} (hg : s.guards[g]? = some (some obj)) :
    (s.guards.set g none).countP Option.isSome + 1 = s.alive :=
  countP_set_eq Option.isSome hg

/-- An operation moves on, and changes the count and the guards by what it is counted for. -/
theorem Counted.goto (h : Counted s) {i : ℕ} {pc pc' : PoolPc T} (hi : s.ops[i]? = some pc)
    (hops : s'.ops = s.ops.set i pc') (htaken : s'.taken = s.taken)
    (hcount : s'.acquiredCount + s.alive + (if pc.counted then 1 else 0) =
      s.acquiredCount + s'.alive + if pc'.counted then 1 else 0) : Counted s' := by
  have hset := countP_set_eq (a := pc') PoolPc.counted hi
  unfold Counted inProgress at h ⊢
  rw [hops, htaken]
  omega

/-- An operation moves on, and leaves the count and the guards. -/
theorem Counted.goto_same (h : Counted s) {i : ℕ} {pc pc' : PoolPc T} (hi : s.ops[i]? = some pc)
    (hops : s'.ops = s.ops.set i pc') (htaken : s'.taken = s.taken) (hcount : s'.acquiredCount = s.acquiredCount)
    (hguards : s'.guards = s.guards) (hpc : pc'.counted = pc.counted) : Counted s' := by
  refine h.goto hi hops htaken ?_
  rw [hcount, hpc, alive, alive, hguards]

/-- An operation hands out a guard. -/
theorem Counted.handOut (h : Counted s) {i : ℕ} {pc pc' : PoolPc T} {obj : Obj T} (hi : s.ops[i]? = some pc)
    (hops : s'.ops = s.ops.set i pc') (htaken : s'.taken = s.taken) (hguards : s'.guards = s.guards ++ [some obj])
    (hcount : s'.acquiredCount + (if pc.counted then 1 else 0) =
      s.acquiredCount + 1 + if pc'.counted then 1 else 0) : Counted s' := by
  refine h.goto hi hops htaken ?_
  have halive : s'.alive = s.alive + 1 := by
    rw [alive, hguards, List.countP_append]
    rfl
  omega

/-- An operation that is about to take one off the count is in it. -/
theorem Counted.pos (h : Counted s) {i : ℕ} {obj : Obj T} (hi : s.ops[i]? = some (.returnSub obj)) :
    0 < s.acquiredCount := by
  have hpos : 0 < s.inProgress := List.countP_pos_iff.2 ⟨_, List.mem_of_getElem? hi, rfl⟩
  rw [h]
  omega

theorem Counted.step (h : Counted s) (hs : Step s a s') : Counted s' := by
  cases hs with
  | acquire | tryAcquire => simpa [Counted, alive, inProgress, PoolPc.counted] using h
  | prefill count => simpa [Counted, alive, inProgress] using h
  | drop hg =>
    have halive := alive_end hg
    unfold Counted inProgress at h ⊢
    rw [List.countP_append]
    simp only [alive, List.countP_singleton, PoolPc.counted, if_true] at halive h ⊢
    omega
  | take hg =>
    have halive := alive_end hg
    unfold Counted at h ⊢
    simp only [alive, inProgress] at halive h ⊢
    omega
  | @write g obj value hg =>
    have halive := countP_set_eq (a := some { obj with value }) Option.isSome hg
    unfold Counted at h ⊢
    simp only [alive, inProgress, Option.isSome_some, if_true] at halive h ⊢
    omega
  | acquireAdd hi =>
    refine h.goto hi rfl rfl ?_
    simp only [alive, ObjectPool.goto, PoolPc.counted, if_true, Bool.false_eq_true, if_false]
    omega
  | acquirePop hi _ => exact h.handOut hi rfl rfl rfl rfl
  | acquireEmpty hi _ => exact h.goto_same hi rfl rfl rfl rfl rfl
  | acquireCount hi => exact h.goto_same hi rfl rfl rfl rfl rfl
  | acquireMake value hi => exact h.handOut hi rfl rfl rfl rfl
  | tryPop hi _ => exact h.goto_same hi rfl rfl rfl rfl rfl
  | tryEmpty hi _ => exact h.goto_same hi rfl rfl rfl rfl rfl
  | tryAdd hi => exact h.handOut hi rfl rfl rfl rfl
  | prefillMake value hi => exact h.goto_same hi rfl rfl rfl rfl rfl
  | prefillCount hi => exact h.goto_same hi rfl rfl rfl rfl rfl
  | prefillPush hi =>
    obtain ⟨hops, hguards, hcount, htaken⟩ := push_eq (s.goto _ (.prefill _)) _
    exact h.goto_same hi hops htaken hcount hguards (PoolPc.counted_prefill _)
  | returnSub hi =>
    have hpos := h.pos hi
    refine h.goto hi rfl rfl ?_
    simp only [alive, ObjectPool.goto, subOne, PoolPc.counted, if_true, Bool.false_eq_true, if_false]
    rw [if_neg (by omega)]
    omega
  | returnReset hi => exact h.goto_same hi rfl rfl rfl rfl rfl
  | returnPush hi =>
    obtain ⟨hops, hguards, hcount, htaken⟩ := push_eq (s.goto _ .returned) _
    exact h.goto_same hi hops htaken hcount hguards rfl

theorem counted_of_reach {reset : Option (T → T)} {capacity : ℕ} (h : (machine reset capacity).Reach s) :
    Counted s := by
  refine h.invariant ?_ ?_
  · intro s hs
    obtain rfl := hs
    rfl
  · intro s a s' hs _ hstep
    exact hs.step (step_of_eq_some hstep)

/-! ### At rest -/

/-- No operation is in progress. -/
def AtRest (s : ObjectPool T) : Prop := ∀ pc ∈ s.ops, pc.done = true

instance (s : ObjectPool T) : Decidable s.AtRest := inferInstanceAs (Decidable (∀ pc ∈ s.ops, pc.done = true))

/-- What was taken stays in the count. -/
theorem Counted.eq_of_atRest (h : Counted s) (hrest : s.AtRest) : s.acquiredCount = s.alive + s.taken := by
  have hnone : s.inProgress = 0 := by
    refine List.countP_eq_zero.2 fun pc hpc => ?_
    have hdone := hrest pc hpc
    cases pc <;> simp_all [PoolPc.done, PoolPc.counted]
  rw [h, hnone, Nat.add_zero]

/-- A step that does not call `take`. -/
def notTake : Act T → Bool
  | .take _ => false
  | _ => true

/-- Only `take` takes. -/
theorem taken_eq_zero {reset : Option (T → T)} {capacity : ℕ}
    (h : (machine reset capacity).ReachBy (fun _ a => notTake a = true) s) : s.taken = 0 := by
  refine h.invariant (I := fun s => s.taken = 0) ?_ ?_
  · intro s hs
    obtain rfl := hs
    rfl
  · intro s a s' htaken hc hstep
    cases step_of_eq_some hstep with
    | take hg => cases hc
    | prefillPush hi => exact (push_eq _ _).2.2.2.trans htaken
    | returnPush hi => exact (push_eq _ _).2.2.2.trans htaken
    | _ => exact htaken

/-- **The accounts of a pool** from which no guard is taken: the count is not taken below zero, and
once no operation is in progress it is the number of guards alive. -/
theorem accounting (reset : Option (T → T)) (capacity : ℕ) (s : ObjectPool T)
    (h : (machine reset capacity).ReachBy (fun _ a => notTake a = true) s) :
    (∀ (i : ℕ) (obj : Obj T), s.ops[i]? = some (.returnSub obj) → 0 < s.acquiredCount) ∧
      (s.AtRest → s.acquiredCount = s.alive) := by
  have hcounted := counted_of_reach h.reach
  refine ⟨fun i obj hi => hcounted.pos hi, fun hrest => ?_⟩
  have heq := hcounted.eq_of_atRest hrest
  rw [taken_eq_zero h] at heq
  exact heq

/-- In any run the count is right exactly as long as no guard has been taken. -/
theorem acquiredCount_eq_iff {reset : Option (T → T)} {capacity : ℕ} (h : (machine reset capacity).Reach s)
    (hrest : s.AtRest) : s.acquiredCount = s.alive ↔ s.taken = 0 := by
  rw [(counted_of_reach h).eq_of_atRest hrest]
  omega

/-- Two threads acquire one object and make another; one guard is dropped meanwhile. -/
theorem accounting_shared : ∃ s : ObjectPool ℕ, (machine none 2).ReachBy (fun _ a => notTake a = true) s ∧
    s.AtRest ∧ s.acquiredCount = 1 ∧ s.acquiredCount = s.alive := by
  obtain ⟨s, hs, htest⟩ := Machine.exists_reachBy_of_runBy (M := machine none 2)
    (C := fun _ (a : Act ℕ) => notTake a = true) rfl
    [.prefill 1, .make 0 5, .step 0, .step 0, .acquire, .acquire, .step 1, .step 2, .step 2, .drop 0, .step 1,
      .step 3, .step 1, .make 1 7, .step 3, .step 3]
    (fun s => decide (s.AtRest ∧ s.acquiredCount = 1)) (by decide)
  obtain ⟨hrest, hcount⟩ := of_decide_eq_true htest
  exact ⟨s, hs, hrest, hcount, (accounting none 2 s hs).2 hrest⟩

/-- An object is acquired and its guard is taken: the pool says that one is acquired. -/
theorem not_forall_acquiredCount_eq : ¬ ∀ (reset : Option (ℕ → ℕ)) (capacity : ℕ) (s : ObjectPool ℕ),
    (machine reset capacity).Reach s → s.AtRest → s.acquiredCount = s.alive := by
  intro h
  obtain ⟨s, hs, htest⟩ := Machine.exists_reach_of_run (M := machine none 1) (s := new none 1) rfl
    [.prefill 1, .make 0 5, .step 0, .step 0, .acquire, .step 1, .step 1, .take 0]
    (fun s => decide (s.AtRest ∧ s.acquiredCount ≠ s.alive)) (by decide)
  obtain ⟨hrest, hne⟩ := of_decide_eq_true htest
  exact hne (h none 1 s hs hrest)

end ObjectPool

end SensorBridge.ZeroCopy
