import SensorBridge.Stage.Windowed
import SensorBridge.Foundation.OrderStatistic

/-!
# The median of a window

The median filter copies the samples of its window, which the ring holds in some order, to its
other array and sorts the entries it copied by insertion. The inner loop moves what is more than
the key up by one and puts the key in the gap (`entries_sink_perm`, `pairwise_entries_sink`), so
that the entries in front are a sorted permutation after every turn of the outer loop
(`sort_spec`).

The output is the entry in the middle: the order statistic of the window at half its length
(`medianFilter_eq_kth`). What earlier windows have left in the array, before a reset or where it
is not written yet, is not read.
-/

namespace SensorBridge.Stage.MedianFilter

open Foundation Foundation.Replies Foundation.SlidingWindow

universe u

variable {T : Type u} {window : ℕ}

/-! ### Insertion sort -/

/-- The first entries of an array. -/
def entries (len : ℕ) (a : ℕ → T) : List T := (List.range len).map a

@[simp] theorem length_entries (len : ℕ) (a : ℕ → T) : (entries len a).length = len := by
  rw [entries, List.length_map, List.length_range]

theorem entries_succ (len : ℕ) (a : ℕ → T) : entries (len + 1) a = entries len a ++ [a len] := by
  rw [entries, entries, List.range_succ, List.map_append, List.map_singleton]

/-- The entries before one that is written stay. -/
theorem entries_update_of_le {len j : ℕ} (h : len ≤ j) (a : ℕ → T) (value : T) :
    entries len (Function.update a j value) = entries len a := by
  refine List.map_congr_left ?_
  intro i hi
  have hlt := List.mem_range.1 hi
  exact Function.update_of_ne (by omega) _ _

/-- Entries that have changed places in front leave all entries changed in places. -/
theorem entries_perm_of_le {a b : ℕ → T} {len n : ℕ} (hle : n ≤ len)
    (hperm : (entries n b).Perm (entries n a)) (hframe : ∀ i, n ≤ i → b i = a i) :
    (entries len b).Perm (entries len a) := by
  induction len, hle using Nat.le_induction with
  | base => exact hperm
  | succ len hle ih =>
    rw [entries_succ, entries_succ, hframe len hle]
    exact ih.append_right _

section
variable [LinearOrder T]

/-- The inner loop does not touch what stands behind its first gap. -/
theorem sink_of_lt (key : T) (j : ℕ) (a : ℕ → T) {i : ℕ} (h : j < i) : sink key j a i = a i := by
  induction j generalizing a with
  | zero => exact Function.update_of_ne (by omega) _ _
  | succ j ih =>
    rw [sink]
    split
    · rw [ih _ (by omega), Function.update_of_ne (by omega)]
    · exact Function.update_of_ne (by omega) _ _

/-- The key is added to the entries before the gap. -/
theorem entries_sink_perm (key : T) (j : ℕ) (a : ℕ → T) :
    (entries (j + 1) (sink key j a)).Perm (key :: entries j a) := by
  induction j generalizing a with
  | zero => exact .of_eq rfl
  | succ j ih =>
    rw [sink, entries_succ j a, entries_succ (j + 1)]
    split
    · -- the entry before the gap has moved into it
      have hgap : sink key j (Function.update a (j + 1) (a j)) (j + 1) = a j := by
        rw [sink_of_lt key j _ (Nat.lt_succ_self j), Function.update_self]
      have hfront := ih (Function.update a (j + 1) (a j))
      rw [entries_update_of_le (Nat.le_succ j)] at hfront
      rw [hgap]
      exact hfront.append_right _
    · rw [entries_update_of_le le_rfl, Function.update_self, entries_succ]
      exact List.perm_append_comm

/-- Before a gap behind sorted entries, it finds the place of the key. -/
theorem pairwise_entries_sink (key : T) (j : ℕ) (a : ℕ → T) (h : (entries j a).Pairwise (· ≤ ·)) :
    (entries (j + 1) (sink key j a)).Pairwise (· ≤ ·) := by
  induction j generalizing a with
  | zero => exact List.pairwise_singleton _ _
  | succ j ih =>
    obtain ⟨hfront, -, hlast⟩ := List.pairwise_append.1 (entries_succ j a ▸ h)
    have hlast : ∀ x ∈ entries j a, x ≤ a j := fun x hx => hlast x hx _ (List.mem_singleton_self _)
    rw [sink]
    split
    next hlt =>
      have hgap : sink key j (Function.update a (j + 1) (a j)) (j + 1) = a j := by
        rw [sink_of_lt key j _ (Nat.lt_succ_self j), Function.update_self]
      have hkept := entries_update_of_le (Nat.le_succ j) a (a j)
      rw [entries_succ, hgap]
      refine List.pairwise_append.2 ⟨ih _ (hkept ▸ hfront), List.pairwise_singleton _ _, ?_⟩
      intro x hx y hy
      obtain rfl := List.mem_singleton.1 hy
      have hmem := (entries_sink_perm key j _).mem_iff.1 hx
      rw [hkept] at hmem
      rcases List.mem_cons.1 hmem with rfl | hmem
      · exact hlt.le
      · exact hlast x hmem
    next hle =>
      rw [entries_succ, entries_update_of_le le_rfl, Function.update_self]
      refine List.pairwise_append.2 ⟨h, List.pairwise_singleton _ _, ?_⟩
      intro x hx y hy
      obtain rfl := List.mem_singleton.1 hy
      rw [entries_succ] at hx
      rcases List.mem_append.1 hx with hx | hx
      · exact (hlast x hx).trans (not_lt.1 hle)
      · exact (List.mem_singleton.1 hx).trans_le (not_lt.1 hle)

/-- What the outer loop has done after `k` turns. -/
theorem turns_spec (a : ℕ → T) {len k : ℕ} (hk : k + 1 ≤ len) :
    (entries (k + 1) ((List.range' 1 k).foldl (fun a i => sink (a i) i a) a)).Pairwise (· ≤ ·) ∧
      (entries len ((List.range' 1 k).foldl (fun a i => sink (a i) i a) a)).Perm (entries len a) := by
  induction k with
  | zero => exact ⟨List.pairwise_singleton _ _, .refl _⟩
  | succ k ih =>
    obtain ⟨hsorted, hperm⟩ := ih (by omega)
    have hrange : List.range' 1 (k + 1) = List.range' 1 k ++ [k + 1] := by
      rw [List.range'_concat, Nat.one_mul, Nat.add_comm 1 k]
    rw [hrange, List.foldl_append, List.foldl_cons, List.foldl_nil]
    generalize (List.range' 1 k).foldl (fun a i => sink (a i) i a) a = b at hsorted hperm ⊢
    refine ⟨pairwise_entries_sink _ _ _ hsorted, .trans ?_ hperm⟩
    refine entries_perm_of_le (n := k + 1 + 1) hk ?_ fun i hi => sink_of_lt _ _ _ hi
    rw [entries_succ (k + 1) b]
    exact (entries_sink_perm (b (k + 1)) (k + 1) b).trans (List.perm_append_singleton _ _).symm

/-- **The insertion sort sorts**: the first `len` entries are a sorted permutation of what they
were. -/
theorem sort_spec (len : ℕ) (a : ℕ → T) :
    (entries len (sort len a)).Pairwise (· ≤ ·) ∧ (entries len (sort len a)).Perm (entries len a) := by
  cases len with
  | zero => exact ⟨.nil, .refl _⟩
  | succ k => exact turns_spec a le_rfl

end

/-! ### The window -/

/-- The count is the length of the window, the buffer slides over the samples, and in front the
other array is the window, sorted. -/
structure Holds [LE T] [Inhabited T] (window : ℕ) (s : MedianFilter T) (xs : List T) : Prop where
  count_eq : s.count = min xs.length window
  slides : Slides default (entries window s.buffer) s.index xs
  sorted : (entries (min xs.length window) s.sorted).Pairwise (· ≤ ·)
  perm : (entries (min xs.length window) s.sorted).Perm (xs.rtake window)

/-- The median of the last samples: their order statistic at half their number. -/
def windowedMedian [LinearOrder T] [Inhabited T] (window : ℕ) (xs : List T) : T :=
  OrderStatistic.kth (xs.rtake window) (min xs.length window / 2)

section
variable [LinearOrder T] [Inhabited T]

theorem holds_of_empty {s : MedianFilter T} (hbuffer : s.buffer = fun _ => default) (hindex : s.index = 0)
    (hcount : s.count = 0) : s.Holds window [] where
  count_eq := hcount.trans (Nat.zero_min window).symm
  slides := by
    have hblank : entries window (fun _ => (default : T)) = List.replicate window default := by
      rw [entries, List.map_const', List.length_range]
    rw [hbuffer, hindex, hblank]
    exact slides_nil default window
  sorted := by
    rw [List.length_nil, Nat.zero_min]
    exact .nil
  perm := by
    rw [List.length_nil, Nat.zero_min, List.rtake_nil]
    exact .refl _

omit [LinearOrder T] in
/-- A sample is written to the ring. -/
theorem slides_update {s : MedianFilter T} {xs : List T} (hpos : 0 < window)
    (h : Slides default (entries window s.buffer) s.index xs) (input : T) :
    Slides default (entries window (Function.update s.buffer s.index input)) ((s.index + 1) % window)
      (xs ++ [input]) := by
  have hwrite := h.write (by rwa [length_entries]) input
  rwa [length_entries, entries, ← map_range_update] at hwrite

/-- **Once the ring is written**, `compute_median` sorts the window and returns its median. -/
theorem computeMedian_spec {s : MedianFilter T} {xs : List T} (hpos : 0 < window) (hne : xs ≠ [])
    (hcount : s.count = min xs.length window) (hslides : Slides default (entries window s.buffer) s.index xs) :
    (s.computeMedian window).1.Holds window xs ∧ (s.computeMedian window).2 = windowedMedian window xs := by
  have hlen : min s.count window = min xs.length window := by omega
  have hlength := List.length_pos_iff.2 hne
  have hcopied : (entries (min xs.length window) fun i =>
      if i < min xs.length window then s.buffer i else s.sorted i).Perm (xs.rtake window) := by
    have htaken := hslides.take_perm
    rw [length_entries, entries, ← List.map_take, List.take_range, Nat.min_eq_left (Nat.min_le_right _ _)] at htaken
    refine .trans (.of_eq (List.map_congr_left ?_)) htaken
    intro i hi
    exact if_pos (List.mem_range.1 hi)
  obtain ⟨hsorted, hperm⟩ := sort_spec (min xs.length window) fun i =>
    if i < min xs.length window then s.buffer i else s.sorted i
  have hwindow := hperm.trans hcopied
  simp only [computeMedian, hlen]
  refine ⟨⟨hcount, hslides, hsorted, hwindow⟩, ?_⟩
  have hhalf : min xs.length window / 2 < min xs.length window := by omega
  rw [windowedMedian, OrderStatistic.kth_eq_getD hwindow hsorted, List.getD_eq_getElem _ _ (by simpa using hhalf)]
  simp [entries]

theorem Holds.process {s : MedianFilter T} {xs : List T} (h : s.Holds window xs) (hpos : 0 < window) (input : T) :
    (s.process window input).1.Holds window (xs ++ [input]) ∧
      (s.process window input).2 = some (windowedMedian window (xs ++ [input])) := by
  have hcount := h.count_eq
  have hadded : (if s.count < window then s.count + 1 else s.count) = min (xs ++ [input]).length window := by
    rw [List.length_append, List.length_singleton]
    split_ifs <;> omega
  obtain ⟨hholds, hmedian⟩ := computeMedian_spec
    (s := { s with
      buffer := Function.update s.buffer s.index input
      index := (s.index + 1) % window
      count := if s.count < window then s.count + 1 else s.count })
    hpos (List.append_ne_nil_of_right_ne_nil xs (List.cons_ne_nil input [])) hadded (slides_update hpos h.slides input)
  exact ⟨hholds, congrArg some hmedian⟩

theorem computes_stage (hpos : 0 < window) :
    (stage T window).Computes (windowedMedian window) (Holds window) where
  init := holds_of_empty rfl rfl rfl
  process _ _ x h := h.process hpos x
  reset _ _ _ := holds_of_empty rfl rfl rfl
  tick _ := rfl
  flush _ := rfl

/-- **The median filter returns the median of a sliding window**: after any calls, the outputs since
the last reset are the medians of the last `window` samples, or of all while there are fewer; and
the first entries of `sorted` are a sorted permutation of these samples. -/
theorem medianFilter_eq_kth (hpos : 0 < window) (cs : List (Call T)) :
    (stage T window).outputsSince cs = (List.range (inputs cs).length).map (fun n =>
        OrderStatistic.kth (((inputs cs).take (n + 1)).rtake window) (min (n + 1) window / 2)) ∧
      (entries (min (inputs cs).length window)
          (MedianFilter.sorted (after (stage T window).call (stage T window).init cs))).Pairwise (· ≤ ·) ∧
        (entries (min (inputs cs).length window)
          (MedianFilter.sorted (after (stage T window).call (stage T window).init cs))).Perm
            ((inputs cs).rtake window) := by
  have hcomputes := computes_stage (T := T) hpos
  have hholds := hcomputes.invariant cs
  refine ⟨?_, hholds.sorted, hholds.perm⟩
  rw [hcomputes.outputs_eq]
  refine List.map_congr_left ?_
  intro n hn
  rw [windowedMedian, List.length_take, Nat.min_eq_left (List.mem_range.1 hn)]

end

/-- Samples that fill a window of three and slide it, and some after a reset. -/
def spikes : List (Call ℕ) :=
  [.process 5, .process 9, .process 1, .process 8, .reset, .process 4, .process 2, .process 100, .process 3]

theorem medianFilter_eq_kth_spikes :
    (stage ℕ 3).outputsSince spikes = (List.range (inputs spikes).length).map (fun n =>
        OrderStatistic.kth (((inputs spikes).take (n + 1)).rtake 3) (min (n + 1) 3 / 2)) ∧
      (entries (min (inputs spikes).length 3)
          (MedianFilter.sorted (after (stage ℕ 3).call (stage ℕ 3).init spikes))).Pairwise (· ≤ ·) ∧
        (entries (min (inputs spikes).length 3)
          (MedianFilter.sorted (after (stage ℕ 3).call (stage ℕ 3).init spikes))).Perm
            ((inputs spikes).rtake 3) :=
  medianFilter_eq_kth (by decide) spikes

end SensorBridge.Stage.MedianFilter
