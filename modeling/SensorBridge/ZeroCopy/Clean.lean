import SensorBridge.ZeroCopy.ObjectPool

/-!
# Pooled objects are clean

Of a pool with a reset function. An object is clean when no one has touched it since the factory
made it, or when the reset function has been applied to what its last holder left. Every object in the
queue is clean, and every object that is handed out is so then (`always_clean`): on its way back
an object is reset before it is pushed, whatever happens to the queue in between.

And an object is in one place at a time: in the queue, in a guard or in the hands of an
operation (`Unique`). So no two guards hold the same.
-/

namespace SensorBridge.ZeroCopy

open Foundation Threads

universe u

variable {T : Type u}

/-- Untouched since the factory made it, or reset from what its last holder left. -/
def Obj.Clean (reset : T → T) (obj : Obj T) : Prop :=
  match obj.origin with
  | .made result => obj.value = result
  | .left value => obj.value = reset value

/-- The object that an operation has in hand is clean, or on its way to be reset. -/
def PoolPc.Clean (reset : T → T) : PoolPc T → Prop
  | .tryAdd obj | .prefillCount _ obj | .prefillPush _ obj | .returnPush obj => obj.Clean reset
  | .returnSub obj | .returnReset obj => obj.origin = .left obj.value
  | _ => True

theorem PoolPc.clean_prefill (reset : T → T) (left : ℕ) : (PoolPc.prefill left : PoolPc T).Clean reset := by
  cases left <;> trivial

namespace ObjectPool

variable {s s' : ObjectPool T} {a : Act T} {reset : T → T}

theorem clean_fresh (reset : T → T) (s : ObjectPool T) (value : T) : (s.fresh value).Clean reset := rfl

/-- What is pooled, what was handed out and what is in hand is clean. -/
structure AllClean (reset : T → T) (s : ObjectPool T) : Prop where
  reset_eq : s.reset = some reset
  queue : ∀ obj ∈ s.queue, obj.Clean reset
  handedOut : ∀ obj ∈ s.handedOut, obj.Clean reset
  ops : ∀ pc ∈ s.ops, pc.Clean reset

/-- Counters and guards do not matter. -/
theorem AllClean.same (h : AllClean reset s) (hreset : s'.reset = s.reset) (hqueue : s'.queue = s.queue)
    (hhanded : s'.handedOut = s.handedOut) (hops : s'.ops = s.ops) : AllClean reset s' where
  reset_eq := hreset.trans h.reset_eq
  queue := hqueue ▸ h.queue
  handedOut := hhanded ▸ h.handedOut
  ops := hops ▸ h.ops

/-- An operation moves on. -/
theorem AllClean.goto (h : AllClean reset s) (i : ℕ) (pc : PoolPc T) (hpc : pc.Clean reset) :
    AllClean reset (s.goto i pc) := by
  refine ⟨h.reset_eq, h.queue, h.handedOut, fun pc' hpc' => ?_⟩
  rcases List.mem_or_eq_of_mem_set hpc' with hpc' | rfl
  · exact h.ops pc' hpc'
  · exact hpc

/-- An operation begins. -/
theorem AllClean.begin (h : AllClean reset s) (pc : PoolPc T) (hpc : pc.Clean reset) :
    AllClean reset { s with ops := s.ops ++ [pc] } := by
  refine ⟨h.reset_eq, h.queue, h.handedOut, fun pc' hpc' => ?_⟩
  rcases List.mem_append.1 hpc' with hpc' | hpc'
  · exact h.ops pc' hpc'
  · obtain rfl := List.mem_singleton.1 hpc'
    exact hpc

/-- A clean object is handed out. -/
theorem AllClean.handOut (h : AllClean reset s) {obj : Obj T} (hobj : obj.Clean reset) :
    AllClean reset (s.handOut obj) := by
  refine ⟨h.reset_eq, h.queue, fun obj' hobj' => ?_, h.ops⟩
  rcases List.mem_append.1 hobj' with hobj' | hobj'
  · exact h.handedOut obj' hobj'
  · obtain rfl := List.mem_singleton.1 hobj'
    exact hobj

/-- A clean object is pushed. -/
theorem AllClean.push (h : AllClean reset s) {obj : Obj T} (hobj : obj.Clean reset) : AllClean reset (s.push obj) := by
  unfold ObjectPool.push
  split_ifs
  · refine ⟨h.reset_eq, fun obj' hobj' => ?_, h.handedOut, h.ops⟩
    rcases List.mem_append.1 hobj' with hobj' | hobj'
    · exact h.queue obj' hobj'
    · obtain rfl := List.mem_singleton.1 hobj'
      exact hobj
  · exact h

/-- The oldest object is popped. -/
theorem AllClean.pop (h : AllClean reset s) {obj : Obj T} {queue : List (Obj T)} (hqueue : s.queue = obj :: queue) :
    obj.Clean reset ∧ AllClean reset { s with queue } := by
  refine ⟨h.queue obj (by rw [hqueue]; exact List.mem_cons_self ..), h.reset_eq, fun obj' hobj' => ?_, h.handedOut,
    h.ops⟩
  exact h.queue obj' (by rw [hqueue]; exact List.mem_cons_of_mem _ hobj')

theorem AllClean.step (h : AllClean reset s) (hs : Step s a s') : AllClean reset s' := by
  cases hs with
  | acquire | tryAcquire => exact h.begin _ trivial
  | prefill count => exact h.begin _ (PoolPc.clean_prefill reset _)
  | @drop g obj hg => exact (h.begin (.returnSub (leave obj)) rfl).same rfl rfl rfl rfl
  | take hg => exact h.same rfl rfl rfl rfl
  | write value hg => exact h.same rfl rfl rfl rfl
  | @acquireAdd i hi => exact (h.goto i .acquirePop trivial).same rfl rfl rfl rfl
  | @acquirePop i obj queue hi hqueue =>
    obtain ⟨hobj, hpop⟩ := h.pop hqueue
    exact ((hpop.goto i .returned trivial).handOut hobj).same rfl rfl rfl rfl
  | acquireEmpty hi _ => exact h.goto _ _ trivial
  | @acquireCount i hi => exact (h.goto i .acquireMake trivial).same rfl rfl rfl rfl
  | @acquireMake i value hi =>
    exact ((h.goto i .returned trivial).handOut (clean_fresh reset s value)).same rfl rfl rfl rfl
  | @tryPop i obj queue hi hqueue =>
    obtain ⟨hobj, hpop⟩ := h.pop hqueue
    exact (hpop.goto i (.tryAdd obj) hobj).same rfl rfl rfl rfl
  | tryEmpty hi _ => exact h.goto _ _ trivial
  | @tryAdd i obj hi =>
    have hobj : obj.Clean reset := h.ops _ (List.mem_of_getElem? hi)
    exact ((h.goto i .returned trivial).handOut hobj).same rfl rfl rfl rfl
  | @prefillMake i left value hi =>
    exact (h.goto i (.prefillCount left (s.fresh value)) (clean_fresh reset s value)).same rfl rfl rfl rfl
  | @prefillCount i left obj hi =>
    have hobj : obj.Clean reset := h.ops _ (List.mem_of_getElem? hi)
    exact (h.goto i (.prefillPush left obj) hobj).same rfl rfl rfl rfl
  | @prefillPush i left obj hi =>
    have hobj : obj.Clean reset := h.ops _ (List.mem_of_getElem? hi)
    exact (h.goto i _ (PoolPc.clean_prefill reset left)).push hobj
  | @returnSub i obj hi =>
    have hleft : obj.origin = .left obj.value := h.ops _ (List.mem_of_getElem? hi)
    exact (h.goto i (.returnReset obj) hleft).same rfl rfl rfl rfl
  | @returnReset i obj hi =>
    have hleft : obj.origin = .left obj.value := h.ops _ (List.mem_of_getElem? hi)
    refine h.goto i _ ?_
    change (applyReset s.reset obj).Clean reset
    rw [h.reset_eq, applyReset, Obj.Clean, hleft]
  | @returnPush i obj hi =>
    have hobj : obj.Clean reset := h.ops _ (List.mem_of_getElem? hi)
    exact (h.goto i .returned trivial).push hobj

/-! ### One place at a time -/

/-- Whether the object `x` is there. -/
def holds (x : ℕ) (place : Option (Obj T)) : Bool := place.any fun obj => obj.id == x

/-- How often it is there. -/
def weight (x : ℕ) (place : Option (Obj T)) : ℕ := if holds x place then 1 else 0

@[simp] theorem weight_none (x : ℕ) : weight x (none : Option (Obj T)) = 0 := rfl

theorem weight_some (x : ℕ) (obj : Obj T) : weight x (some obj) = if obj.id = x then 1 else 0 := by
  simp [weight, holds]

theorem weight_of_id_eq {x : ℕ} {obj obj' : Obj T} (h : obj'.id = obj.id) :
    weight x (some obj') = weight x (some obj) := by
  rw [weight_some, weight_some, h]

/-- In how many places the object `x` is. -/
def places (s : ObjectPool T) (x : ℕ) : ℕ :=
  (s.queue.countP fun obj => holds x (some obj)) + s.guards.countP (holds x) +
    s.ops.countP fun pc => holds x pc.obj

/-- An operation moves on. -/
theorem places_goto {i : ℕ} {pc : PoolPc T} (hi : s.ops[i]? = some pc) (pc' : PoolPc T) (x : ℕ) :
    (s.goto i pc').places x + weight x pc.obj = s.places x + weight x pc'.obj := by
  have hset := countP_set_eq (a := pc') (fun pc => holds x pc.obj) hi
  simp only [places, goto, weight]
  omega

/-- An operation begins. -/
theorem places_begin (s : ObjectPool T) (pc : PoolPc T) (x : ℕ) :
    ({ s with ops := s.ops ++ [pc] } : ObjectPool T).places x = s.places x + weight x pc.obj := by
  simp only [places, weight, List.countP_append, List.countP_singleton]
  omega

/-- A guard's object is replaced. -/
theorem places_guard {g : ℕ} {place : Option (Obj T)} (hg : s.guards[g]? = some place) (place' : Option (Obj T))
    (x : ℕ) :
    ({ s with guards := s.guards.set g place' } : ObjectPool T).places x + weight x place =
      s.places x + weight x place' := by
  have hset := countP_set_eq (a := place') (holds x) hg
  simp only [places, weight]
  omega

theorem places_handOut (s : ObjectPool T) (obj : Obj T) (x : ℕ) :
    (s.handOut obj).places x = s.places x + weight x (some obj) := by
  simp only [places, handOut, weight, List.countP_append, List.countP_singleton]
  omega

/-- An operation returns a guard of an object. -/
theorem places_return {i : ℕ} {pc : PoolPc T} (hi : s.ops[i]? = some pc) (obj : Obj T) (x : ℕ) :
    ((s.goto i .returned).handOut obj).places x + weight x pc.obj = s.places x + weight x (some obj) := by
  have hgoto : (s.goto i .returned).places x + weight x pc.obj = s.places x + weight x none :=
    places_goto hi .returned x
  rw [weight_none, Nat.add_zero] at hgoto
  rw [places_handOut, Nat.add_right_comm, hgoto]

/-- An object that finds the queue full is nowhere. -/
theorem places_push_le (s : ObjectPool T) (obj : Obj T) (x : ℕ) :
    (s.push obj).places x ≤ s.places x + weight x (some obj) := by
  unfold push
  split_ifs
  · simp only [places, weight, List.countP_append, List.countP_singleton]
    omega
  · exact Nat.le_add_right _ _

theorem places_pop {obj : Obj T} {queue : List (Obj T)} (h : s.queue = obj :: queue) (x : ℕ) :
    ({ s with queue } : ObjectPool T).places x + weight x (some obj) = s.places x := by
  simp only [places, weight, h, List.countP_cons]
  omega

/-- An object that has been made is in at most one place, and any other is in none. -/
def Unique (s : ObjectPool T) : Prop := ∀ x, s.places x ≤ if x < s.made then 1 else 0

theorem Unique.of_le (h : Unique s) (hmade : s'.made = s.made) (hplaces : ∀ x, s'.places x ≤ s.places x) :
    Unique s' := by
  intro x
  rw [hmade]
  exact Nat.le_trans (hplaces x) (h x)

/-- The factory makes an object, which is in one place. -/
theorem Unique.of_made (h : Unique s) (hmade : s'.made = s.made + 1)
    (hplaces : ∀ x, s'.places x ≤ s.places x + if s.made = x then 1 else 0) : Unique s' := by
  intro x
  have hx := h x
  have hle := hplaces x
  rw [hmade]
  split_ifs at hx hle ⊢ <;> omega

/-- An operation moves on and has in hand what it had. -/
theorem Unique.goto (h : Unique s) {i : ℕ} {pc pc' : PoolPc T} (hi : s.ops[i]? = some pc) (hmade : s'.made = s.made)
    (hplaces : ∀ x, s'.places x = (s.goto i pc').places x) (hpc : ∀ x, weight x pc'.obj = weight x pc.obj) :
    Unique s' := by
  refine h.of_le hmade fun x => ?_
  have hgoto := places_goto hi pc' x
  rw [hpc x] at hgoto
  rw [hplaces x]
  exact Nat.le_of_eq (Nat.add_right_cancel hgoto)

theorem made_push (s : ObjectPool T) (obj : Obj T) : (s.push obj).made = s.made := by
  unfold push
  split_ifs <;> rfl

/-- An operation pushes the object it has in hand. -/
theorem Unique.push (h : Unique s) {i : ℕ} {pc pc' : PoolPc T} {obj : Obj T} (hi : s.ops[i]? = some pc)
    (hpc : pc.obj = some obj) (hpc' : pc'.obj = none) : Unique ((s.goto i pc').push obj) := by
  refine h.of_le (made_push _ obj) fun x => ?_
  have hgoto := places_goto hi pc' x
  have hpush := places_push_le (s.goto i pc') obj x
  rw [hpc, hpc', weight_none] at hgoto
  exact Nat.le_trans hpush (Nat.le_of_eq hgoto)

theorem Unique.step (h : Unique s) (hs : Step s a s') : Unique s' := by
  cases hs with
  | acquire | tryAcquire =>
    refine h.of_le rfl fun x => ?_
    rw [places_begin]
    exact le_rfl
  | prefill count =>
    refine h.of_le rfl fun x => ?_
    rw [places_begin, PoolPc.obj_prefill, weight_none, Nat.add_zero]
  | @drop g obj hg =>
    refine h.of_le rfl fun x => ?_
    have hguard := places_guard hg none x
    have hbegin := places_begin ({ s with guards := s.guards.set g none } : ObjectPool T) (.returnSub (leave obj)) x
    have hid : weight x (some (leave obj)) = weight x (some obj) := weight_of_id_eq rfl
    simp only [PoolPc.obj, weight_none] at hguard hbegin
    omega
  | take hg =>
    refine h.of_le rfl fun x => ?_
    have hguard := places_guard hg none x
    rw [weight_none] at hguard
    exact Nat.le.intro hguard
  | @write g obj value hg =>
    refine h.of_le rfl fun x => ?_
    have hguard := places_guard hg (some { obj with value }) x
    have hid : weight x (some { obj with value }) = weight x (some obj) := weight_of_id_eq rfl
    omega
  | acquireAdd hi => exact h.goto hi rfl (fun _ => rfl) fun _ => rfl
  | @acquirePop i obj queue hi hqueue =>
    refine h.of_le rfl fun x => ?_
    have hreturn := places_return (s := { s with queue }) hi obj x
    exact Nat.le_of_eq (hreturn.trans (places_pop hqueue x))
  | acquireEmpty hi _ => exact h.goto hi rfl (fun _ => rfl) fun _ => rfl
  | acquireCount hi => exact h.goto hi rfl (fun _ => rfl) fun _ => rfl
  | @acquireMake i value hi =>
    refine h.of_made rfl fun x => ?_
    have hreturn := places_return hi (s.fresh value) x
    rw [weight_some] at hreturn
    exact Nat.le_of_eq hreturn
  | @tryPop i obj queue hi hqueue =>
    refine h.of_le rfl fun x => ?_
    have hpop := places_pop hqueue x
    have hgoto := places_goto (s := { s with queue }) hi (.tryAdd obj) x
    change (({ s with queue } : ObjectPool T).goto i (.tryAdd obj)).places x ≤ s.places x
    simp only [PoolPc.obj, weight_none] at hgoto
    omega
  | tryEmpty hi _ => exact h.goto hi rfl (fun _ => rfl) fun _ => rfl
  | @tryAdd i obj hi =>
    refine h.of_le rfl fun x => ?_
    have hreturn := places_return hi obj x
    exact Nat.le_of_eq (Nat.add_right_cancel hreturn)
  | @prefillMake i left value hi =>
    refine h.of_made rfl fun x => ?_
    have hgoto := places_goto hi (.prefillCount left (s.fresh value)) x
    change (s.goto i (.prefillCount left (s.fresh value))).places x ≤ _
    simp only [PoolPc.obj, weight_none, weight_some] at hgoto
    exact Nat.le_of_eq hgoto
  | prefillCount hi => exact h.goto hi rfl (fun _ => rfl) fun _ => rfl
  | prefillPush hi => exact h.push hi rfl (PoolPc.obj_prefill _)
  | returnSub hi => exact h.goto hi rfl (fun _ => rfl) fun _ => rfl
  | returnReset hi =>
    refine h.goto hi rfl (fun _ => rfl) fun x => weight_of_id_eq ?_
    unfold applyReset
    split <;> rfl
  | returnPush hi => exact h.push hi rfl rfl

/-- No object is in two guards. -/
theorem Unique.guards_eq (h : Unique s) {g g' : ℕ} {obj obj' : Obj T} (hg : s.guards[g]? = some (some obj))
    (hg' : s.guards[g']? = some (some obj')) (hid : obj.id = obj'.id) : g = g' := by
  have hle : s.guards.countP (holds obj.id) ≤ 1 := by
    have hplaces := h obj.id
    simp only [places] at hplaces
    split_ifs at hplaces <;> omega
  exact eq_of_countP_le_one hle hg hg' (by simp [holds]) (by simp [holds, hid])

/-! ### Every run -/

/-- **Pooled objects are clean**: those in the queue, those that are handed out; and no two guards
hold the same. -/
theorem always_clean (reset : T → T) (capacity : ℕ) (s : ObjectPool T)
    (h : (machine (some reset) capacity).Reach s) :
    (∀ obj ∈ s.queue, obj.Clean reset) ∧ (∀ obj ∈ s.handedOut, obj.Clean reset) ∧
      ∀ (g g' : ℕ) (obj obj' : Obj T), s.guards[g]? = some (some obj) → s.guards[g']? = some (some obj') →
        obj.id = obj'.id → g = g' := by
  have hinv : AllClean reset s ∧ Unique s := by
    refine h.invariant (I := fun s => AllClean reset s ∧ Unique s) ?_ ?_
    · intro s hs
      obtain rfl := hs
      exact ⟨⟨rfl, by simp [new], by simp [new], by simp [new]⟩, fun x => Nat.zero_le _⟩
    · intro s a s' hs _ hstep
      exact ⟨hs.1.step (step_of_eq_some hstep), hs.2.step (step_of_eq_some hstep)⟩
  exact ⟨hinv.1.queue, hinv.1.handedOut, fun g g' obj obj' hg hg' hid => hinv.2.guards_eq hg hg' hid⟩

/-- An object is written to, dropped and acquired again while another is made. -/
theorem always_clean_shared : ∃ s : ObjectPool ℕ, (machine (some fun _ => 0) 2).Reach s ∧
    s.handedOut.map Obj.value = [5, 7, 0] ∧ ∀ obj ∈ s.handedOut, obj.Clean fun _ => 0 := by
  obtain ⟨s, hs, htest⟩ := Machine.exists_reach_of_run (M := machine (some fun _ : ℕ => 0) 2) rfl
    [.prefill 1, .make 0 5, .step 0, .step 0, .acquire, .acquire, .step 1, .step 2, .step 2, .write 0 42, .drop 0,
      .step 1, .step 3, .step 1, .make 1 7, .step 3, .step 3, .tryAcquire, .step 4, .step 4]
    (fun s => decide (s.handedOut.map Obj.value = [5, 7, 0])) (by decide)
  exact ⟨s, hs, of_decide_eq_true htest, (always_clean (fun _ => 0) 2 s hs).2.1⟩

end ObjectPool

end SensorBridge.ZeroCopy
