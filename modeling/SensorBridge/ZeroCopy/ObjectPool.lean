import SensorBridge.Foundation.Machine
import SensorBridge.Foundation.Threads

/-!
# The object pool

An `ObjectPool` keeps objects in a bounded queue. `acquire` and `try_acquire` hand one out in
a `PoolGuard`, through which it can be written to; dropping the guard resets the object and puts it
back, `take` keeps it for good. Any number of threads do so at once: an operation is one step on
the queue or on a counter at a time, and the queue takes a push or a pop as a whole.

What the factory makes is up to the environment; it does not panic. An object carries its number, and where its value
comes from; both are read by proofs only.
-/

namespace SensorBridge.ZeroCopy

open Foundation

universe u

variable {T : Type u}

/-- Where the value of a pooled object comes from. -/
inductive Origin (T : Type u) where
  /-- The factory made it, and no one has touched it. -/
  | made (result : T)
  /-- A guard that was dropped has left this value. -/
  | left (value : T)

/-- An object, with its number. -/
structure Obj (T : Type u) where
  id : ℕ
  value : T
  origin : Origin T

/-! ### Operations -/

/-- Where an operation is: what it does next. -/
inductive PoolPc (T : Type u) where
  /-- `acquire`: `acquired_count.fetch_add(1)`. -/
  | acquireAdd
  /-- `acquire`: `queue.pop()`. -/
  | acquirePop
  /-- `acquire`, the queue being empty: `total_created.fetch_add(1)`. -/
  | acquireCount
  /-- `acquire`: `(self.factory)()`. -/
  | acquireMake
  /-- `try_acquire`: `queue.pop()`. -/
  | tryPop
  /-- `try_acquire`, with an object: `acquired_count.fetch_add(1)`. -/
  | tryAdd (obj : Obj T)
  /-- `prefill`: `(self.factory)()`, with the turns that are left. -/
  | prefillMake (left : ℕ)
  /-- `prefill`: `total_created.fetch_add(1)`. -/
  | prefillCount (left : ℕ) (obj : Obj T)
  /-- `prefill`: `queue.push(obj)`. -/
  | prefillPush (left : ℕ) (obj : Obj T)
  /-- `return_object`: `acquired_count.fetch_sub(1)`. -/
  | returnSub (obj : Obj T)
  /-- `return_object`: `reset(&mut obj)`. -/
  | returnReset (obj : Obj T)
  /-- `return_object`: `queue.push(obj)`. -/
  | returnPush (obj : Obj T)
  /-- It has returned. -/
  | returned

namespace PoolPc

/-- The loop of `prefill`, with the turns that are left. -/
def prefill : ℕ → PoolPc T
  | 0 => .returned
  | left + 1 => .prefillMake left

/-- The object that the operation has in hand. -/
def obj : PoolPc T → Option (Obj T)
  | .tryAdd obj | .prefillCount _ obj | .prefillPush _ obj | .returnSub obj | .returnReset obj
  | .returnPush obj => some obj
  | _ => none

/-- Whether the operation has returned. -/
def done : PoolPc T → Bool
  | .returned => true
  | _ => false

@[simp] theorem obj_prefill (left : ℕ) : (prefill left : PoolPc T).obj = none := by cases left <;> rfl

end PoolPc

/-! ### The pool in use -/

/-- A pool, its guards and the operations on it. -/
structure ObjectPool (T : Type u) where
  /-- The pooled objects, oldest first. -/
  queue : List (Obj T)
  capacity : ℕ
  /-- The function that an object is reset with, if there is one. -/
  reset : Option (T → T)
  acquiredCount : ℕ
  totalCreated : ℕ
  /-- The guards, in the order in which they were handed out; `none` for one that is no more. -/
  guards : List (Option (Obj T))
  /-- The operations, in the order in which they began. -/
  ops : List (PoolPc T)
  /-- How many objects the factory has made; read by proofs only. -/
  made : ℕ
  /-- How many guards have been taken; read by proofs only. -/
  taken : ℕ
  /-- Every object that was handed out, as it was then; read by proofs only. -/
  handedOut : List (Obj T)

namespace ObjectPool

/-- `ObjectPool::new` and `ObjectPool::with_reset`. -/
def new (reset : Option (T → T)) (capacity : ℕ) : ObjectPool T := ⟨[], capacity, reset, 0, 0, [], [], 0, 0, []⟩

/-- What can happen next. -/
inductive Act (T : Type u) where
  /-- A thread calls `acquire`. -/
  | acquire
  /-- A thread calls `try_acquire`. -/
  | tryAcquire
  /-- A thread calls `prefill`. -/
  | prefill (count : ℕ)
  /-- A thread drops guard `g`. -/
  | drop (g : ℕ)
  /-- A thread calls `take` on guard `g`. -/
  | take (g : ℕ)
  /-- A thread writes to the object in guard `g`. -/
  | write (g : ℕ) (value : T)
  /-- Operation `i` takes its next step. -/
  | step (i : ℕ)
  /-- Operation `i` calls the factory, which makes `value`. -/
  | make (i : ℕ) (value : T)

/-- Operation `i` goes on to `pc`. -/
def goto (s : ObjectPool T) (i : ℕ) (pc : PoolPc T) : ObjectPool T := { s with ops := s.ops.set i pc }

/-- `queue.push(obj)`; a full queue gives the object back, and it is dropped. -/
def push (s : ObjectPool T) (obj : Obj T) : ObjectPool T :=
  if s.queue.length < s.capacity then { s with queue := s.queue ++ [obj] } else s

/-- A guard is handed out. -/
def handOut (s : ObjectPool T) (obj : Obj T) : ObjectPool T :=
  { s with guards := s.guards ++ [some obj], handedOut := s.handedOut ++ [obj] }

/-- What the factory has made, with the next number. -/
def fresh (s : ObjectPool T) (value : T) : Obj T := ⟨s.made, value, .made value⟩

/-- What a guard leaves behind when it is dropped. -/
def leave (obj : Obj T) : Obj T := { obj with origin := .left obj.value }

/-- `reset(&mut obj)`, if there is such a function. -/
def applyReset (reset : Option (T → T)) (obj : Obj T) : Obj T :=
  match reset with
  | some f => { obj with value := f obj.value }
  | none => obj

/-- `acquired_count.fetch_sub(1)`, which wraps. -/
def subOne (count : ℕ) : ℕ := if count = 0 then 2 ^ 64 - 1 else count - 1

/-- **What a step can be.** -/
inductive Step (s : ObjectPool T) : Act T → ObjectPool T → Prop where
  | acquire : Step s .acquire { s with ops := s.ops ++ [.acquireAdd] }
  | tryAcquire : Step s .tryAcquire { s with ops := s.ops ++ [.tryPop] }
  | prefill (count : ℕ) : Step s (.prefill count) { s with ops := s.ops ++ [.prefill (min count s.capacity)] }
  | drop {g : ℕ} {obj : Obj T} : s.guards[g]? = some (some obj) →
      Step s (.drop g) { s with guards := s.guards.set g none, ops := s.ops ++ [.returnSub (leave obj)] }
  | take {g : ℕ} {obj : Obj T} : s.guards[g]? = some (some obj) →
      Step s (.take g) { s with guards := s.guards.set g none, taken := s.taken + 1 }
  | write {g : ℕ} {obj : Obj T} (value : T) : s.guards[g]? = some (some obj) →
      Step s (.write g value) { s with guards := s.guards.set g (some { obj with value }) }
  | acquireAdd {i : ℕ} : s.ops[i]? = some .acquireAdd →
      Step s (.step i) { s.goto i .acquirePop with acquiredCount := s.acquiredCount + 1 }
  | acquirePop {i : ℕ} {obj : Obj T} {queue : List (Obj T)} : s.ops[i]? = some .acquirePop →
      s.queue = obj :: queue → Step s (.step i) { (s.goto i .returned).handOut obj with queue }
  | acquireEmpty {i : ℕ} : s.ops[i]? = some .acquirePop → s.queue = [] →
      Step s (.step i) (s.goto i .acquireCount)
  | acquireCount {i : ℕ} : s.ops[i]? = some .acquireCount →
      Step s (.step i) { s.goto i .acquireMake with totalCreated := s.totalCreated + 1 }
  | acquireMake {i : ℕ} (value : T) : s.ops[i]? = some .acquireMake →
      Step s (.make i value) { (s.goto i .returned).handOut (s.fresh value) with made := s.made + 1 }
  | tryPop {i : ℕ} {obj : Obj T} {queue : List (Obj T)} : s.ops[i]? = some .tryPop → s.queue = obj :: queue →
      Step s (.step i) { s.goto i (.tryAdd obj) with queue }
  | tryEmpty {i : ℕ} : s.ops[i]? = some .tryPop → s.queue = [] → Step s (.step i) (s.goto i .returned)
  | tryAdd {i : ℕ} {obj : Obj T} : s.ops[i]? = some (.tryAdd obj) →
      Step s (.step i) { (s.goto i .returned).handOut obj with acquiredCount := s.acquiredCount + 1 }
  | prefillMake {i left : ℕ} (value : T) : s.ops[i]? = some (.prefillMake left) →
      Step s (.make i value) { s.goto i (.prefillCount left (s.fresh value)) with made := s.made + 1 }
  | prefillCount {i left : ℕ} {obj : Obj T} : s.ops[i]? = some (.prefillCount left obj) →
      Step s (.step i) { s.goto i (.prefillPush left obj) with totalCreated := s.totalCreated + 1 }
  | prefillPush {i left : ℕ} {obj : Obj T} : s.ops[i]? = some (.prefillPush left obj) →
      Step s (.step i) ((s.goto i (.prefill left)).push obj)
  | returnSub {i : ℕ} {obj : Obj T} : s.ops[i]? = some (.returnSub obj) →
      Step s (.step i) { s.goto i (.returnReset obj) with acquiredCount := subOne s.acquiredCount }
  | returnReset {i : ℕ} {obj : Obj T} : s.ops[i]? = some (.returnReset obj) →
      Step s (.step i) (s.goto i (.returnPush (applyReset s.reset obj)))
  | returnPush {i : ℕ} {obj : Obj T} : s.ops[i]? = some (.returnPush obj) →
      Step s (.step i) ((s.goto i .returned).push obj)

/-- The next step of operation `i`. -/
def stepOp (s : ObjectPool T) (i : ℕ) : PoolPc T → Option (ObjectPool T)
  | .acquireAdd => some { s.goto i .acquirePop with acquiredCount := s.acquiredCount + 1 }
  | .acquirePop => match s.queue with
    | obj :: queue => some { (s.goto i .returned).handOut obj with queue }
    | [] => some (s.goto i .acquireCount)
  | .acquireCount => some { s.goto i .acquireMake with totalCreated := s.totalCreated + 1 }
  | .tryPop => match s.queue with
    | obj :: queue => some { s.goto i (.tryAdd obj) with queue }
    | [] => some (s.goto i .returned)
  | .tryAdd obj => some { (s.goto i .returned).handOut obj with acquiredCount := s.acquiredCount + 1 }
  | .prefillCount left obj =>
    some { s.goto i (.prefillPush left obj) with totalCreated := s.totalCreated + 1 }
  | .prefillPush left obj => some ((s.goto i (.prefill left)).push obj)
  | .returnSub obj => some { s.goto i (.returnReset obj) with acquiredCount := subOne s.acquiredCount }
  | .returnReset obj => some (s.goto i (.returnPush (applyReset s.reset obj)))
  | .returnPush obj => some ((s.goto i .returned).push obj)
  | .acquireMake | .prefillMake _ | .returned => none

/-- Operation `i` calls the factory. -/
def makeOp (s : ObjectPool T) (i : ℕ) (value : T) : PoolPc T → Option (ObjectPool T)
  | .acquireMake => some { (s.goto i .returned).handOut (s.fresh value) with made := s.made + 1 }
  | .prefillMake left => some { s.goto i (.prefillCount left (s.fresh value)) with made := s.made + 1 }
  | _ => none

/-- The object in guard `g`. -/
def guard (s : ObjectPool T) (g : ℕ) : Option (Obj T) := s.guards[g]?.join

/-- The step function. -/
def step (s : ObjectPool T) : Act T → Option (ObjectPool T)
  | .acquire => some { s with ops := s.ops ++ [.acquireAdd] }
  | .tryAcquire => some { s with ops := s.ops ++ [.tryPop] }
  | .prefill count => some { s with ops := s.ops ++ [.prefill (min count s.capacity)] }
  | .drop g => (s.guard g).map fun obj =>
    { s with guards := s.guards.set g none, ops := s.ops ++ [.returnSub (leave obj)] }
  | .take g => (s.guard g).map fun _ => { s with guards := s.guards.set g none, taken := s.taken + 1 }
  | .write g value => (s.guard g).map fun obj => { s with guards := s.guards.set g (some { obj with value }) }
  | .step i => s.ops[i]?.bind fun pc => s.stepOp i pc
  | .make i value => s.ops[i]?.bind fun pc => s.makeOp i value pc

/-- A new pool. -/
def machine (reset : Option (T → T)) (capacity : ℕ) : Machine (ObjectPool T) (Act T) where
  init s := s = new reset capacity
  step := step

variable {s s' : ObjectPool T} {a : Act T}

theorem getElem?_of_guard {g : ℕ} {obj : Obj T} (h : s.guard g = some obj) : s.guards[g]? = some (some obj) :=
  Option.join_eq_some_iff.mp h

theorem step_of_eq_some (h : s.step a = some s') : Step s a s' := by
  cases a with
  | acquire => cases h; exact .acquire
  | tryAcquire => cases h; exact .tryAcquire
  | prefill count => cases h; exact .prefill count
  | drop g =>
    obtain ⟨obj, hg, rfl⟩ := Option.map_eq_some_iff.mp h
    exact .drop (getElem?_of_guard hg)
  | take g =>
    obtain ⟨obj, hg, rfl⟩ := Option.map_eq_some_iff.mp h
    exact .take (getElem?_of_guard hg)
  | write g value =>
    obtain ⟨obj, hg, rfl⟩ := Option.map_eq_some_iff.mp h
    exact .write value (getElem?_of_guard hg)
  | step i =>
    obtain ⟨pc, hi, hop⟩ := Option.bind_eq_some_iff.mp h
    cases pc with
    | acquireAdd => cases hop; exact .acquireAdd hi
    | acquirePop =>
      simp only [stepOp] at hop
      split at hop
      case h_1 obj queue hqueue => cases hop; exact .acquirePop hi hqueue
      case h_2 hqueue => cases hop; exact .acquireEmpty hi hqueue
    | acquireCount => cases hop; exact .acquireCount hi
    | acquireMake => cases hop
    | tryPop =>
      simp only [stepOp] at hop
      split at hop
      case h_1 obj queue hqueue => cases hop; exact .tryPop hi hqueue
      case h_2 hqueue => cases hop; exact .tryEmpty hi hqueue
    | tryAdd obj => cases hop; exact .tryAdd hi
    | prefillMake left => cases hop
    | prefillCount left obj => cases hop; exact .prefillCount hi
    | prefillPush left obj => cases hop; exact .prefillPush hi
    | returnSub obj => cases hop; exact .returnSub hi
    | returnReset obj => cases hop; exact .returnReset hi
    | returnPush obj => cases hop; exact .returnPush hi
    | returned => cases hop
  | make i value =>
    obtain ⟨pc, hi, hop⟩ := Option.bind_eq_some_iff.mp h
    cases pc with
    | acquireMake => cases hop; exact .acquireMake value hi
    | prefillMake left => cases hop; exact .prefillMake value hi
    | _ => cases hop

end ObjectPool

end SensorBridge.ZeroCopy
