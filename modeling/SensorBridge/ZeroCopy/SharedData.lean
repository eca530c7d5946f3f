import SensorBridge.Foundation.Machine
import SensorBridge.Foundation.RefCount

/-!
# Shared data

A `SharedData<T>` is a handle to a counted cell. A program makes handles, clones and drops them, and
changes what they refer to: in place when nobody else does (`get_mut`, `make_mut`), in a copy of its own
otherwise (`make_mut`, `map`).

The program cannot tell that anything is shared: what its handles read is what they would read if every
handle had a value of its own (`replays_of_reach`), however they were made. What tells is `ref_count`,
`is_unique`, and whether `get_mut` and `try_unwrap` succeed: they say whether there are other handles to the
same cell (`refCount_of_reach`), which is there as long as there is one. And `==`, which first asks whether
the cells are the same: a program that compares its handles is told what it would be told if every handle had
a value of its own exactly as long as it does not compare two handles to one cell with a value in it that is
not equal to itself (`eq_faithful_iff`), such as an `f32` may be.

The calls are atomic here. `T::clone` makes a value like the one it clones. Handles are made by the calls
above alone: `from_arc`, `into_arc` and `as_arc`, which share a cell with an `Arc` or a `Weak` of the caller,
are not among them.
-/

namespace SensorBridge.ZeroCopy

open Foundation RefCount

universe u

/-- What a program does with its handles. -/
inductive SharedOp (α : Type u) where
  /-- `SharedData::new(data)`. -/
  | new (data : α)
  /-- `clone` of handle `i`. -/
  | clone (i : ℕ)
  /-- Handle `i` is dropped. -/
  | drop (i : ℕ)
  /-- `get_mut`, and a change through the reference when there is one. -/
  | getMut (i : ℕ) (f : α → α)
  /-- `make_mut`, and a change through the reference. -/
  | makeMut (i : ℕ) (f : α → α)
  /-- `try_unwrap`. -/
  | tryUnwrap (i : ℕ)
  /-- `map`. -/
  | map (i : ℕ) (f : α → α)

/-- What it is told. -/
inductive SharedReply (α : Type u) where
  /-- The call has done what it was called for. -/
  | done
  /-- `None` from `get_mut`, `Err` from `try_unwrap`. -/
  | shared
  /-- `Ok(data)` from `try_unwrap`. -/
  | unwrapped (data : α)

/-- A program's handles, and the heap. -/
structure Sharing (α : Type u) where
  heap : Heap α
  /-- What the handles refer to; `none` when they are gone. -/
  handles : List (Option ℕ)
  /-- What the program has done, and what it was told. -/
  log : List (SharedOp α × SharedReply α)

namespace Sharing

variable {α : Type u}

/-- What handle `i` refers to: the cell, and what is in it. -/
def inner (s : Sharing α) (i : ℕ) : Option (ℕ × α) :=
  s.handles[i]?.join.bind fun p => (s.heap.cell p).map fun v => (p, v)

/-- `ref_count`: `Arc::strong_count`. -/
def refCount (s : Sharing α) (i : ℕ) : Option ℕ := (s.inner i).map fun r => s.heap.strong r.1

/-- `is_unique`. -/
def isUnique (s : Sharing α) (i : ℕ) : Option Bool := (s.refCount i).map fun n => n == 1

/-- `deref`. -/
def deref (s : Sharing α) (i : ℕ) : Option α := (s.inner i).map Prod.snd

/-- `eq`: the cells first, and then the values. -/
def eq [BEq α] (s : Sharing α) (i j : ℕ) : Option Bool :=
  (s.inner i).bind fun r => (s.inner j).map fun t => r.1 == t.1 || r.2 == t.2

/-- The state after a call. -/
def record (s : Sharing α) (op : SharedOp α) (reply : SharedReply α) (heap : Heap α) (handles : List (Option ℕ)) :
    Sharing α := ⟨heap, handles, s.log ++ [(op, reply)]⟩

/-- One call. -/
def step (s : Sharing α) : SharedOp α → Option (Sharing α)
  | .new data => some (s.record (.new data) .done (s.heap.alloc data) (s.handles ++ [some s.heap.next]))
  | .clone i => (s.inner i).map fun (p, _) => s.record (.clone i) .done (s.heap.retain p) (s.handles ++ [some p])
  | .drop i => (s.inner i).map fun (p, _) => s.record (.drop i) .done (s.heap.release p) (s.handles.set i none)
  | .getMut i f => (s.inner i).map fun (p, v) =>
    if s.heap.strong p = 1 then s.record (.getMut i f) .done (s.heap.put p (f v)) s.handles
    else s.record (.getMut i f) .shared s.heap s.handles
  | .makeMut i f => (s.inner i).map fun (p, v) =>
    if s.heap.strong p = 1 then s.record (.makeMut i f) .done (s.heap.put p (f v)) s.handles
    else s.record (.makeMut i f) .done ((s.heap.alloc (f v)).release p) (s.handles.set i (some s.heap.next))
  | .tryUnwrap i => (s.inner i).map fun (p, v) =>
    if s.heap.strong p = 1 then s.record (.tryUnwrap i) (.unwrapped v) (s.heap.release p) (s.handles.set i none)
    else s.record (.tryUnwrap i) .shared s.heap s.handles
  | .map i f => (s.inner i).map fun (p, v) =>
    if s.heap.strong p = 1 then
      s.record (.map i f) .done ((s.heap.release p).alloc (f v)) (s.handles.set i none ++ [some s.heap.next])
    else
      -- what `try_unwrap` gave back is dropped when the new data has been made
      s.record (.map i f) .done ((s.heap.alloc (f v)).release p) (s.handles.set i none ++ [some s.heap.next])

/-- The machine. -/
def machine (α : Type u) : Machine (Sharing α) (SharedOp α) where
  init s := s = ⟨.empty, [], []⟩
  step := step

variable {s s' : Sharing α} {op : SharedOp α}

/-- **What a call can do.** -/
inductive Step (s : Sharing α) : SharedOp α → Sharing α → Prop
  | new (data : α) : Step s (.new data)
      (s.record (.new data) .done (s.heap.alloc data) (s.handles ++ [some s.heap.next]))
  | clone {i p : ℕ} {v : α} : s.inner i = some (p, v) → Step s (.clone i)
      (s.record (.clone i) .done (s.heap.retain p) (s.handles ++ [some p]))
  | drop {i p : ℕ} {v : α} : s.inner i = some (p, v) → Step s (.drop i)
      (s.record (.drop i) .done (s.heap.release p) (s.handles.set i none))
  | getMut {i p : ℕ} {v : α} (f : α → α) : s.inner i = some (p, v) → s.heap.strong p = 1 → Step s (.getMut i f)
      (s.record (.getMut i f) .done (s.heap.put p (f v)) s.handles)
  | getMutShared {i p : ℕ} {v : α} (f : α → α) : s.inner i = some (p, v) → s.heap.strong p ≠ 1 →
      Step s (.getMut i f) (s.record (.getMut i f) .shared s.heap s.handles)
  | makeMut {i p : ℕ} {v : α} (f : α → α) : s.inner i = some (p, v) → s.heap.strong p = 1 → Step s (.makeMut i f)
      (s.record (.makeMut i f) .done (s.heap.put p (f v)) s.handles)
  | makeMutShared {i p : ℕ} {v : α} (f : α → α) : s.inner i = some (p, v) → s.heap.strong p ≠ 1 →
      Step s (.makeMut i f)
        (s.record (.makeMut i f) .done ((s.heap.alloc (f v)).release p) (s.handles.set i (some s.heap.next)))
  | tryUnwrap {i p : ℕ} {v : α} : s.inner i = some (p, v) → s.heap.strong p = 1 → Step s (.tryUnwrap i)
      (s.record (.tryUnwrap i) (.unwrapped v) (s.heap.release p) (s.handles.set i none))
  | tryUnwrapShared {i p : ℕ} {v : α} : s.inner i = some (p, v) → s.heap.strong p ≠ 1 →
      Step s (.tryUnwrap i) (s.record (.tryUnwrap i) .shared s.heap s.handles)
  | map {i p : ℕ} {v : α} (f : α → α) : s.inner i = some (p, v) → s.heap.strong p = 1 → Step s (.map i f)
      (s.record (.map i f) .done ((s.heap.release p).alloc (f v)) (s.handles.set i none ++ [some s.heap.next]))
  | mapShared {i p : ℕ} {v : α} (f : α → α) : s.inner i = some (p, v) → s.heap.strong p ≠ 1 → Step s (.map i f)
      (s.record (.map i f) .done ((s.heap.alloc (f v)).release p) (s.handles.set i none ++ [some s.heap.next]))

theorem step_cases (h : s.step op = some s') : Step s op s' := by
  cases op with
  | new data =>
    cases h
    exact .new data
  | clone i =>
    obtain ⟨⟨p, v⟩, hi, rfl⟩ := Option.map_eq_some_iff.1 h
    exact .clone hi
  | drop i =>
    obtain ⟨⟨p, v⟩, hi, rfl⟩ := Option.map_eq_some_iff.1 h
    exact .drop hi
  | getMut i f =>
    obtain ⟨⟨p, v⟩, hi, rfl⟩ := Option.map_eq_some_iff.1 h
    dsimp only
    split_ifs with hone
    · exact .getMut f hi hone
    · exact .getMutShared f hi hone
  | makeMut i f =>
    obtain ⟨⟨p, v⟩, hi, rfl⟩ := Option.map_eq_some_iff.1 h
    dsimp only
    split_ifs with hone
    · exact .makeMut f hi hone
    · exact .makeMutShared f hi hone
  | tryUnwrap i =>
    obtain ⟨⟨p, v⟩, hi, rfl⟩ := Option.map_eq_some_iff.1 h
    dsimp only
    split_ifs with hone
    · exact .tryUnwrap hi hone
    · exact .tryUnwrapShared hi hone
  | map i f =>
    obtain ⟨⟨p, v⟩, hi, rfl⟩ := Option.map_eq_some_iff.1 h
    dsimp only
    split_ifs with hone
    · exact .map f hi hone
    · exact .mapShared f hi hone

/-! ### Values of their own -/

/-- What the handles read. -/
def values (s : Sharing α) : List (Option α) := s.heap.values s.handles

theorem values_record (reply : SharedReply α) (heap : Heap α) (handles : List (Option ℕ)) :
    (s.record op reply heap handles).values = heap.values handles := rfl

/-- What a call would do if every handle had a value of its own. Whether `get_mut` and `try_unwrap` succeed
is left open. -/
inductive OwnStep : List (Option α) → SharedOp α × SharedReply α → List (Option α) → Prop
  | new (env : List (Option α)) (data : α) : OwnStep env (.new data, .done) (env ++ [some data])
  | clone {env : List (Option α)} {i : ℕ} {v : α} : env[i]? = some (some v) →
      OwnStep env (.clone i, .done) (env ++ [some v])
  | drop {env : List (Option α)} {i : ℕ} {v : α} : env[i]? = some (some v) →
      OwnStep env (.drop i, .done) (env.set i none)
  | getMut {env : List (Option α)} {i : ℕ} {v : α} (f : α → α) : env[i]? = some (some v) →
      OwnStep env (.getMut i f, .done) (env.set i (some (f v)))
  | getMutShared (env : List (Option α)) (i : ℕ) (f : α → α) : OwnStep env (.getMut i f, .shared) env
  | makeMut {env : List (Option α)} {i : ℕ} {v : α} (f : α → α) : env[i]? = some (some v) →
      OwnStep env (.makeMut i f, .done) (env.set i (some (f v)))
  | tryUnwrap {env : List (Option α)} {i : ℕ} {v : α} : env[i]? = some (some v) →
      OwnStep env (.tryUnwrap i, .unwrapped v) (env.set i none)
  | tryUnwrapShared (env : List (Option α)) (i : ℕ) : OwnStep env (.tryUnwrap i, .shared) env
  | map {env : List (Option α)} {i : ℕ} {v : α} (f : α → α) : env[i]? = some (some v) →
      OwnStep env (.map i f, .done) (env.set i none ++ [some (f v)])

/-- What a program of such calls comes to. -/
inductive OwnRun : List (SharedOp α × SharedReply α) → List (Option α) → Prop
  | nil : OwnRun [] []
  | concat {log : List (SharedOp α × SharedReply α)} {env env' : List (Option α)} {e : SharedOp α × SharedReply α} :
      OwnRun log env → OwnStep env e env' → OwnRun (log ++ [e]) env'

/-! ### The invariant -/

theorem inner_eq_some {i p : ℕ} {v : α} (h : s.inner i = some (p, v)) :
    s.handles[i]? = some (some p) ∧ s.heap.cell p = some v := by
  obtain ⟨q, hq, hv⟩ := Option.bind_eq_some_iff.1 h
  obtain ⟨w, hw, he⟩ := Option.map_eq_some_iff.1 hv
  cases he
  exact ⟨Option.join_eq_some_iff.1 hq, hw⟩

theorem getElem?_values {i p : ℕ} {v : α} (h : s.inner i = some (p, v)) : s.values[i]? = some (some v) := by
  obtain ⟨hi, hv⟩ := inner_eq_some h
  rw [values, Heap.getElem?_values hi, hv]

/-- What a call leaves, when the heap is sound: a sound heap, and handles that read what they would read if
each had a value of its own. -/
theorem sound_step (hs : s.heap.Sound s.handles) (h : Step s op s') :
    s'.heap.Sound s'.handles ∧ ∃ reply, s'.log = s.log ++ [(op, reply)] ∧ OwnStep s.values (op, reply) s'.values := by
  cases h with
  | new data =>
    refine ⟨hs.alloc data, _, rfl, ?_⟩
    rw [values_record, hs.values_alloc]
    exact .new _ data
  | clone hi =>
    obtain ⟨hp, hv⟩ := inner_eq_some hi
    refine ⟨hs.retain (List.mem_of_getElem? hp), _, rfl, ?_⟩
    rw [values_record, Heap.values_retain, hv]
    exact .clone (getElem?_values hi)
  | drop hi =>
    obtain ⟨hp, hv⟩ := inner_eq_some hi
    refine ⟨hs.release hp, _, rfl, ?_⟩
    rw [values_record, hs.values_release hp]
    exact .drop (getElem?_values hi)
  | getMut f hi hone =>
    obtain ⟨hp, hv⟩ := inner_eq_some hi
    refine ⟨hs.put (List.mem_of_getElem? hp) _, _, rfl, ?_⟩
    rw [values_record, hs.values_put hp hone]
    exact .getMut f (getElem?_values hi)
  | getMutShared f hi hone => exact ⟨hs, _, rfl, .getMutShared _ _ f⟩
  | makeMut f hi hone =>
    obtain ⟨hp, hv⟩ := inner_eq_some hi
    refine ⟨hs.put (List.mem_of_getElem? hp) _, _, rfl, ?_⟩
    rw [values_record, hs.values_put hp hone]
    exact .makeMut f (getElem?_values hi)
  | makeMutShared f hi hone =>
    obtain ⟨hp, hv⟩ := inner_eq_some hi
    obtain ⟨hsound, hvalues⟩ := hs.redirect hp (f _)
    refine ⟨hsound, _, rfl, ?_⟩
    rw [values_record, hvalues]
    exact .makeMut f (getElem?_values hi)
  | tryUnwrap hi hone =>
    obtain ⟨hp, hv⟩ := inner_eq_some hi
    refine ⟨hs.release hp, _, rfl, ?_⟩
    rw [values_record, hs.values_release hp]
    exact .tryUnwrap (getElem?_values hi)
  | tryUnwrapShared hi hone => exact ⟨hs, _, rfl, .tryUnwrapShared _ _⟩
  | @map i p v f hi hone =>
    obtain ⟨hp, hv⟩ := inner_eq_some hi
    have hrelease := hs.release hp
    refine ⟨hrelease.alloc _, _, rfl, ?_⟩
    have hvalues : ((s.heap.release p).alloc (f v)).values (s.handles.set i none ++ [some s.heap.next]) = _ :=
      hrelease.values_alloc (f v)
    rw [values_record, hvalues, hs.values_release hp]
    exact .map f (getElem?_values hi)
  | @mapShared i p v f hi hone =>
    obtain ⟨hp, hv⟩ := inner_eq_some hi
    have halloc := hs.alloc (f v)
    have hlt : i < s.handles.length := (List.getElem?_eq_some_iff.1 hp).1
    have hp' : (s.handles ++ [some s.heap.next])[i]? = some (some p) := by rw [List.getElem?_append_left hlt, hp]
    have hsound := halloc.release hp'
    have hvalues := halloc.values_release hp'
    rw [List.set_append_left _ _ hlt] at hsound hvalues
    refine ⟨hsound, _, rfl, ?_⟩
    have hlen : i < (s.heap.values s.handles).length := by simpa [Heap.values] using hlt
    rw [values_record, hvalues, hs.values_alloc, List.set_append_left _ _ hlen]
    exact .map f (getElem?_values hi)

theorem sound_of_reach (h : (machine α).Reach s) : s.heap.Sound s.handles ∧ OwnRun s.log s.values := by
  refine h.invariant (I := fun s => s.heap.Sound s.handles ∧ OwnRun s.log s.values) ?_ ?_
  · rintro _ rfl
    exact ⟨Heap.sound_empty, .nil⟩
  · intro s op s' ⟨hs, hown⟩ _ hstep
    obtain ⟨hs', reply, hlog, hstep'⟩ := sound_step hs (step_cases hstep)
    refine ⟨hs', ?_⟩
    rw [hlog]
    exact hown.concat hstep'

/-- **Copy on write cannot be told from copying**: whatever a program does, each handle reads what it would
read if every handle had a value of its own, and so does `try_unwrap`. -/
theorem replays_of_reach (h : (machine α).Reach s) : OwnRun s.log s.values := (sound_of_reach h).2

/-- Two handles to one cell, and one of them is changed: it has a copy of its own then, and is changed in
place the next time. The other is alone, and is unwrapped. -/
def copied : List (SharedOp ℕ) :=
  [.new 5, .clone 0, .getMut 0 (· + 1), .makeMut 1 (· * 2), .makeMut 1 (· + 1), .tryUnwrap 0, .clone 1,
    .map 1 (· + 100)]

theorem replays_of_reach_copied : ∃ s : Sharing ℕ, s.values = [none, none, some 11, some 111] ∧
    OwnRun s.log [none, none, some 11, some 111] := by
  obtain ⟨s, hs, hp⟩ := Machine.exists_reach_of_run (M := machine ℕ) rfl copied
    (fun s => decide (s.values = [none, none, some 11, some 111])) (by decide)
  have hvalues := of_decide_eq_true hp
  have hown := replays_of_reach hs
  rw [hvalues] at hown
  exact ⟨s, hvalues, hown⟩

/-! ### What tells -/

/-- **The cells of a program.** -/
structure Counted (s : Sharing α) : Prop where
  /-- A cell is there as long as some handle refers to it, and no longer. -/
  alive_iff : ∀ p, (s.heap.cell p).isSome = true ↔ some p ∈ s.handles
  /-- A handle that has not been given up refers to something. -/
  deref : ∀ i, (∃ p, s.handles[i]? = some (some p)) ↔ (s.deref i).isSome = true
  /-- `ref_count` is the number of handles to the same cell. -/
  refCount : ∀ i p, s.handles[i]? = some (some p) → s.refCount i = some (s.handles.count (some p))
  /-- `is_unique` says whether there is another. -/
  isUnique : ∀ i p, s.handles[i]? = some (some p) →
    (s.isUnique i = some true ↔ ∀ j, s.handles[j]? = some (some p) → j = i)
  /-- `get_mut` succeeds exactly when there is none. -/
  getMut : ∀ i f s', s.step (.getMut i f) = some s' →
    (s'.log = s.log ++ [(.getMut i f, .done)] ↔ s.isUnique i = some true)

theorem exists_inner (hs : s.heap.Sound s.handles) {i p : ℕ} (hi : s.handles[i]? = some (some p)) :
    ∃ v, s.inner i = some (p, v) := by
  obtain ⟨v, hv⟩ := Option.isSome_iff_exists.1 (hs.isSome_cell (List.mem_of_getElem? hi))
  exact ⟨v, by simp [inner, hi, hv]⟩

/-- A handle is the only one to its cell when that is referred to once. -/
theorem count_eq_one_iff {l : List (Option ℕ)} {i p : ℕ} (hi : l[i]? = some (some p)) :
    l.count (some p) = 1 ↔ ∀ j, l[j]? = some (some p) → j = i := by
  have hset := Heap.count_set hi none p
  simp only [if_true, reduceCtorEq, if_false, Nat.add_zero] at hset
  have hlt := (List.getElem?_eq_some_iff.1 hi).1
  constructor
  · intro hone j hj
    by_contra hji
    have hmem : some p ∈ l.set i none := by
      refine List.mem_of_getElem? (i := j) ?_
      rwa [List.getElem?_set_ne (Ne.symm hji)]
    have hpos := List.count_pos_iff.2 hmem
    omega
  · intro hall
    have hnot : some p ∉ l.set i none := by
      intro hmem
      obtain ⟨j, hj⟩ := List.mem_iff_getElem?.1 hmem
      rcases Threads.of_getElem?_set hj with ⟨-, hnone⟩ | ⟨hji, hj⟩
      · cases hnone
      · exact hji (hall j hj)
    have hzero := List.count_eq_zero.2 hnot
    omega

/-- **Cells are counted right**: none leaks and none is read after it is freed, and the counts tell of every
other handle. -/
theorem refCount_of_reach (h : (machine α).Reach s) : Counted s := by
  have hs := (sound_of_reach h).1
  have hunique : ∀ i p, s.handles[i]? = some (some p) → (s.isUnique i = some true ↔ s.heap.strong p = 1) := by
    intro i p hi
    obtain ⟨v, hv⟩ := exists_inner hs hi
    simp [Sharing.isUnique, Sharing.refCount, hv]
  refine ⟨?_, ?_, ?_, ?_, ?_⟩
  · intro p
    rw [hs.isSome_iff, hs.mem_iff]
  · intro i
    constructor
    · rintro ⟨p, hi⟩
      obtain ⟨v, hv⟩ := exists_inner hs hi
      simp [Sharing.deref, hv]
    · intro hsome
      obtain ⟨v, hv⟩ := Option.isSome_iff_exists.1 hsome
      obtain ⟨⟨p, w⟩, hinner, -⟩ := Option.map_eq_some_iff.1 hv
      exact ⟨p, (inner_eq_some hinner).1⟩
  · intro i p hi
    obtain ⟨v, hv⟩ := exists_inner hs hi
    rw [← hs.strong_eq]
    simp [Sharing.refCount, hv]
  · intro i p hi
    rw [hunique i p hi, hs.strong_eq, count_eq_one_iff hi]
  · intro i f s' hstep
    cases step_cases hstep with
    | getMut _ hi hone => exact iff_of_true rfl ((hunique _ _ (inner_eq_some hi).1).2 hone)
    | getMutShared _ hi hone =>
      refine iff_of_false ?_ fun htrue => hone ((hunique _ _ (inner_eq_some hi).1).1 htrue)
      intro hlog
      have hlast := List.append_cancel_left hlog
      simp at hlast

theorem refCount_of_reach_copied : ∃ s : Sharing ℕ, s.handles = [none, none, some 1, some 2] ∧
    s.refCount 2 = some 1 ∧ Counted s := by
  obtain ⟨s, hs, hp⟩ := Machine.exists_reach_of_run (M := machine ℕ) rfl copied
    (fun s => decide (s.handles = [none, none, some 1, some 2] ∧ s.refCount 2 = some 1)) (by decide)
  obtain ⟨hhandles, hcount⟩ := of_decide_eq_true hp
  exact ⟨s, hhandles, hcount, refCount_of_reach hs⟩

/-! ### Equality -/

/-- What a program does that compares its handles too. -/
inductive CompareOp (α : Type u) where
  | call (op : SharedOp α)
  /-- `==` of the handles `i` and `j`. -/
  | eq (i j : ℕ)

/-- What it is told. -/
inductive CompareReply (α : Type u) where
  | call (reply : SharedReply α)
  | eq (answer : Bool)

/-- A program that compares its handles. -/
structure Comparing (α : Type u) where
  sharing : Sharing α
  /-- What the program has done, and what it was told. -/
  log : List (CompareOp α × CompareReply α)

/-- What such a call would do if every handle had a value of its own. -/
inductive OwnCompare [BEq α] : List (Option α) → CompareOp α × CompareReply α → List (Option α) → Prop
  | call {env env' : List (Option α)} {op : SharedOp α} {reply : SharedReply α} : OwnStep env (op, reply) env' →
      OwnCompare env (.call op, .call reply) env'
  | eq {env : List (Option α)} {i j : ℕ} {v w : α} {answer : Bool} : env[i]? = some (some v) →
      env[j]? = some (some w) → answer = (v == w) → OwnCompare env (.eq i j, .eq answer) env

/-- What a program of such calls comes to. -/
inductive OwnCompareRun [BEq α] : List (CompareOp α × CompareReply α) → List (Option α) → Prop
  | nil : OwnCompareRun [] []
  | concat {log : List (CompareOp α × CompareReply α)} {env env' : List (Option α)}
      {e : CompareOp α × CompareReply α} :
      OwnCompareRun log env → OwnCompare env e env' → OwnCompareRun (log ++ [e]) env'

theorem read_unique {env : List (Option α)} {i : ℕ} {v w : α} (hv : env[i]? = some (some v))
    (hw : env[i]? = some (some w)) : v = w := Option.some.inj (Option.some.inj (hv.symm.trans hw))

/-- What is told leaves no choice. -/
theorem OwnStep.unique {env env₁ env₂ : List (Option α)} {e : SharedOp α × SharedReply α} (h₁ : OwnStep env e env₁)
    (h₂ : OwnStep env e env₂) : env₁ = env₂ := by
  cases h₁ with
  | new | drop | getMutShared | tryUnwrap | tryUnwrapShared =>
    cases h₂
    rfl
  | clone hv =>
    cases h₂ with
    | clone hw => rw [read_unique hv hw]
  | getMut f hv =>
    cases h₂ with
    | getMut _ hw => rw [read_unique hv hw]
  | makeMut f hv =>
    cases h₂ with
    | makeMut _ hw => rw [read_unique hv hw]
  | map f hv =>
    cases h₂ with
    | map _ hw => rw [read_unique hv hw]

theorem ownCompareRun_concat [BEq α] {log : List (CompareOp α × CompareReply α)} {e : CompareOp α × CompareReply α}
    {env' : List (Option α)} :
    OwnCompareRun (log ++ [e]) env' ↔ ∃ env, OwnCompareRun log env ∧ OwnCompare env e env' := by
  constructor
  · intro h
    generalize hl : log ++ [e] = l at h
    cases h with
    | nil => simp at hl
    | concat hrun hown =>
      obtain ⟨rfl, he⟩ := List.append_inj' hl rfl
      cases he
      exact ⟨_, hrun, hown⟩
  · rintro ⟨env, hrun, hown⟩
    exact .concat hrun hown

namespace Comparing

variable [BEq α] {c c' : Comparing α} {a : CompareOp α}

/-- One call. -/
def step (c : Comparing α) : CompareOp α → Option (Comparing α)
  | .call op => (c.sharing.step op).bind fun s =>
    -- what it was told is the last of the log
    s.log.getLast?.map fun e => ⟨s, c.log ++ [(.call op, .call e.2)]⟩
  | .eq i j => (c.sharing.eq i j).map fun answer => ⟨c.sharing, c.log ++ [(.eq i j, .eq answer)]⟩

/-- The machine. -/
def machine (α : Type u) [BEq α] : Machine (Comparing α) (CompareOp α) where
  init c := c = ⟨⟨.empty, [], []⟩, []⟩
  step := step

/-- **What it takes of a comparison** of two handles to one cell: the value in it is equal to itself. -/
def SelfEqual (c : Comparing α) (a : CompareOp α) : Prop :=
  ∀ i j p v, a = .eq i j → c.sharing.inner i = some (p, v) → c.sharing.inner j = some (p, v) → (v == v) = true

/-- **What a call can do.** -/
inductive Step (c : Comparing α) : CompareOp α → Comparing α → Prop
  | call {op : SharedOp α} {reply : SharedReply α} {s : Sharing α} : Sharing.Step c.sharing op s →
      s.log = c.sharing.log ++ [(op, reply)] → Step c (.call op) ⟨s, c.log ++ [(.call op, .call reply)]⟩
  | eq {i j p q : ℕ} {v w : α} : c.sharing.inner i = some (p, v) → c.sharing.inner j = some (q, w) →
      Step c (.eq i j) ⟨c.sharing, c.log ++ [(.eq i j, .eq (p == q || v == w))]⟩

theorem step_cases (hs : c.sharing.heap.Sound c.sharing.handles) (h : c.step a = some c') : Step c a c' := by
  cases a with
  | call op =>
    obtain ⟨s, hstep, h⟩ := Option.bind_eq_some_iff.1 h
    obtain ⟨e, he, rfl⟩ := Option.map_eq_some_iff.1 h
    have hcases := Sharing.step_cases hstep
    obtain ⟨-, reply, hlog, -⟩ := sound_step hs hcases
    rw [hlog, List.getLast?_concat] at he
    cases he
    exact .call hcases hlog
  | eq i j =>
    obtain ⟨answer, hanswer, rfl⟩ := Option.map_eq_some_iff.1 h
    obtain ⟨⟨p, v⟩, hi, h⟩ := Option.bind_eq_some_iff.1 hanswer
    obtain ⟨⟨q, w⟩, hj, rfl⟩ := Option.map_eq_some_iff.1 h
    exact .eq hi hj

/-- A call keeps the heap sound. What it tells is what it would tell if every handle had a value of its own
exactly when it is self-equal, and the handles read then what they would read. -/
theorem Step.ownCompare_iff (hs : c.sharing.heap.Sound c.sharing.handles) (h : Step c a c') :
    c'.sharing.heap.Sound c'.sharing.handles ∧ ∃ e, c'.log = c.log ++ [e] ∧
      ∀ env, OwnCompare c.sharing.values e env ↔ c.SelfEqual a ∧ env = c'.sharing.values := by
  cases h with
  | call hstep hlog =>
    obtain ⟨hsound, reply, hlog', hown⟩ := sound_step hs hstep
    have hreply := List.append_cancel_left (hlog.symm.trans hlog')
    cases hreply
    refine ⟨hsound, _, rfl, fun env => ⟨fun h => ⟨fun i j p v he => (by cases he), ?_⟩, ?_⟩⟩
    · cases h with
      | call h => exact h.unique hown
    · rintro ⟨-, rfl⟩
      exact .call hown
  | @eq i j p q v w hi hj =>
    refine ⟨hs, _, rfl, fun env => ?_⟩
    have hvi := getElem?_values hi
    have hvj := getElem?_values hj
    constructor
    · intro hown
      cases hown with
      | eq hv hw hanswer =>
        obtain rfl := read_unique hvi hv
        obtain rfl := read_unique hvj hw
        refine ⟨fun i' j' p' v' he hi' hj' => ?_, rfl⟩
        cases he
        rw [hi] at hi'
        rw [hj] at hj'
        cases hi'
        cases hj'
        simpa using hanswer
    · rintro ⟨hself, rfl⟩
      refine .eq hvi hvj ?_
      by_cases hpq : p = q
      · subst hpq
        obtain rfl := Option.some.inj ((inner_eq_some hi).2.symm.trans (inner_eq_some hj).2)
        simp [hself i j p v rfl hi hj]
      · simp [hpq]

theorem sound_of_reach (h : (machine α).Reach c) : c.sharing.heap.Sound c.sharing.handles := by
  refine h.invariant (I := fun c => c.sharing.heap.Sound c.sharing.handles) ?_ ?_
  · rintro _ rfl
    exact Heap.sound_empty
  · intro c a c' hs _ hstep
    exact ((step_cases hs hstep).ownCompare_iff hs).1

/-- **What one more call makes of a program**, when what it was told before leaves no choice. -/
theorem ownCompareRun_step (hs : c.sharing.heap.Sound c.sharing.handles)
    (hunique : ∀ env, OwnCompareRun c.log env → env = c.sharing.values) (h : c.step a = some c')
    (env : List (Option α)) :
    OwnCompareRun c'.log env ↔
      OwnCompareRun c.log c.sharing.values ∧ c.SelfEqual a ∧ env = c'.sharing.values := by
  obtain ⟨-, e, hlog, hown⟩ := (step_cases hs h).ownCompare_iff hs
  rw [hlog, ownCompareRun_concat]
  constructor
  · rintro ⟨env₀, hrun, hcompare⟩
    obtain rfl := hunique env₀ hrun
    exact ⟨hrun, (hown env).1 hcompare⟩
  · rintro ⟨hrun, hself⟩
    exact ⟨_, hrun, (hown env).2 hself⟩

/-- **What a program is told** is what it would be told exactly when all its comparisons were self-equal. -/
theorem ownCompareRun_iff (h : (machine α).Reach c) (env : List (Option α)) :
    OwnCompareRun c.log env ↔ (machine α).ReachBy SelfEqual c ∧ env = c.sharing.values := by
  constructor
  · induction h generalizing env with
    | start hi =>
      intro hrun
      refine ⟨.start hi, ?_⟩
      obtain rfl := hi
      generalize hl : ([] : List (CompareOp α × CompareReply α)) = l at hrun
      cases hrun with
      | nil => rfl
      | concat => simp at hl
    | next hr _ hstep ih =>
      intro hrun
      have hunique := fun env h => (ih env h).2
      obtain ⟨hbefore, hself, rfl⟩ := (ownCompareRun_step (sound_of_reach hr) hunique hstep env).1 hrun
      exact ⟨.next (ih _ hbefore).1 hself hstep, rfl⟩
  · rintro ⟨hby, rfl⟩
    clear h
    induction hby with
    | start hi =>
      obtain rfl := hi
      exact .nil
    | next hr hself hstep ih =>
      have hs := sound_of_reach hr.reach
      obtain ⟨-, e, hlog, hown⟩ := (step_cases hs hstep).ownCompare_iff hs
      rw [hlog]
      exact .concat ih ((hown _).2 ⟨hself, rfl⟩)

/-- One handle has been made. -/
def single (v : α) : Comparing α :=
  ⟨(⟨.empty, [], []⟩ : Sharing α).record (.new v) .done (Heap.empty.alloc v) [some 0], [(.call (.new v), .call .done)]⟩

theorem reach_single (v : α) : (machine α).Reach (single v) :=
  .next (a := .call (.new v)) (.start rfl) trivial rfl

omit [BEq α] in
theorem inner_single (v : α) : (single v).sharing.inner 0 = some (0, v) := by
  simp [single, inner, record, Heap.alloc, Heap.empty]

/-- **When `==` cannot tell either**: a program that compares its handles is told what it would be told if
every handle had a value of its own exactly when each comparison it made of two handles to one cell found a
value there that is equal to itself. So no program can tell exactly when every value is. -/
theorem eq_faithful_iff :
    (∀ c : Comparing α, (machine α).Reach c →
      (OwnCompareRun c.log c.sharing.values ↔ (machine α).ReachBy SelfEqual c)) ∧
    ((∀ c : Comparing α, (machine α).Reach c → OwnCompareRun c.log c.sharing.values) ↔
      ∀ v : α, (v == v) = true) := by
  have hiff : ∀ c : Comparing α, (machine α).Reach c →
      (OwnCompareRun c.log c.sharing.values ↔ (machine α).ReachBy SelfEqual c) :=
    fun c h => (ownCompareRun_iff h _).trans (and_iff_left rfl)
  refine ⟨hiff, fun hall v => ?_, fun hrefl c h => (hiff c h).2 ?_⟩
  · -- a handle is compared with itself
    obtain ⟨c', hstep⟩ : ∃ c', (single v).step (.eq 0 0) = some c' := by
      simp only [step, Sharing.eq, inner_single, Option.bind_some, Option.map_some]
      exact ⟨_, rfl⟩
    have hreach := reach_single v
    have hunique := fun env h => ((ownCompareRun_iff hreach env).1 h).2
    obtain ⟨-, hself, -⟩ := (ownCompareRun_step (sound_of_reach hreach) hunique hstep _).1
      (hall c' (.next (a := .eq 0 0) hreach trivial hstep))
    exact hself 0 0 0 v rfl (inner_single v) (inner_single v)
  · exact h.mono fun _ _ _ => fun _ _ _ v _ _ _ => hrefl v

end Comparing

end Sharing

end SensorBridge.ZeroCopy
