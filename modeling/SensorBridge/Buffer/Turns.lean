import SensorBridge.Buffer.Split

/-!
# Taking turns

The discipline the comments of the buffer speak of: one push at a time and one pop at a
time, through whatever handles. `OneAtATime` says so of the beginnings of calls, which is
what a client can see to. It is enough: then every write and every read of a slot is
exclusive (`exclusive_of_oneAtATime`).

The reason is in `Turns`. While one push is in progress nobody else moves `head`, so what it
loaded stays current; and pops only make room, so its check for room stays right. The same
goes for a pop and `tail`.
-/

namespace SensorBridge.Buffer

open Foundation Foundation.Threads RingBuffer

universe u

/-- Whether a push call has not returned. -/
def PushCallPc.inProgress : PushCallPc → Bool
  | .returned _ => false
  | _ => true

/-- The `head` a push call has loaded and not yet used. -/
def PushCallPc.loaded? : PushCallPc → Option ℕ
  | .loadedHead head | .checked head => some head
  | _ => none

/-- Whether a push call has checked for room. -/
def PushCallPc.isChecked : PushCallPc → Bool
  | .checked _ => true
  | _ => false

/-- Whether a pop call has not returned. -/
def PopCallPc.inProgress {α : Type u} : PopCallPc α → Bool
  | .returned => false
  | _ => true

/-- The `tail` a pop call has loaded and not yet used. -/
def PopCallPc.loaded? {α : Type u} : PopCallPc α → Option ℕ
  | .loadedTail tail | .checked tail => some tail
  | _ => none

/-- Whether a pop call has checked for a value. -/
def PopCallPc.isChecked {α : Type u} : PopCallPc α → Bool
  | .checked _ => true
  | _ => false

/-- A push call that has returned is nowhere else. -/
theorem PushCallPc.not_inProgress {pc : PushCallPc} (h : pc.inProgress = false) :
    pc.loaded? = none ∧ pc.isChecked = false ∧ pc.isWritten = false := by
  cases pc with
  | returned outcome => exact ⟨rfl, rfl, rfl⟩
  | _ => cases h

/-- A pop call that has returned is nowhere else. -/
theorem PopCallPc.not_inProgress {α : Type u} {pc : PopCallPc α} (h : pc.inProgress = false) :
    pc.loaded? = none ∧ pc.isChecked = false ∧ pc.isTaken = false := by
  cases pc with
  | returned => exact ⟨rfl, rfl, rfl⟩
  | _ => cases h

namespace Shared

variable {α : Type u} {N : ℕ}

/-- **One push at a time and one pop at a time**: a call begins when those before it have
returned. -/
def oneAtATime (s : Shared α) : Act α → Bool
  | .push _ _ => s.pushes.all fun c => !c.pc.inProgress
  | .pop _ => s.pops.all fun d => !d.inProgress
  | _ => true

/-- `oneAtATime`, as a condition on the steps of a run. -/
abbrev OneAtATime (s : Shared α) (a : Act α) : Prop := oneAtATime s a = true

/-- What holds while calls take turns. -/
structure Turns (N : ℕ) (s : Shared α) : Prop where
  /-- One push is in progress at most. -/
  push_alone : AtMostOne (fun c => c.pc.inProgress) s.pushes
  /-- The `head` it loaded is current. -/
  head_eq : ∀ (i : ℕ) (c : PushCall α) h, s.pushes[i]? = some c → c.pc.loaded? = some h →
    h = s.ring.head
  /-- There is still room. -/
  room : ∀ (i : ℕ) (c : PushCall α), s.pushes[i]? = some c → c.pc.isChecked = true →
    nextIndex N s.ring.head ≠ s.ring.tail
  /-- One pop is in progress at most. -/
  pop_alone : AtMostOne PopCallPc.inProgress s.pops
  /-- The `tail` it loaded is current. -/
  tail_eq : ∀ (j : ℕ) (d : PopCallPc α) t, s.pops[j]? = some d → d.loaded? = some t →
    t = s.ring.tail
  /-- There is still a value. -/
  nonempty : ∀ (j : ℕ) (d : PopCallPc α), s.pops[j]? = some d → d.isChecked = true →
    s.ring.tail ≠ s.ring.head

theorem turns_new : Turns N (new : Shared α) where
  push_alone := atMostOne_nil
  head_eq := by simp [new]
  room := by simp [new]
  pop_alone := atMostOne_nil
  tail_eq := by simp [new]
  nonempty := by simp [new]

section Steps

variable {s s' : Shared α} {q : List (Cell α)} {i j : ℕ} {c : PushCall α} {d : PopCallPc α}

/-- While calls take turns, writes and reads are exclusive. -/
theorem Turns.exclusive (h : Turns N s) (a : Act α) : Exclusive N s a := by
  cases a with
  | pushStep i =>
    simp only [Exclusive, Shared.exclusive]
    cases hc : s.pushes[i]? with
    | none => rfl
    | some c =>
      cases hpc : c.pc with
      | checked hd =>
        have hhead := h.head_eq i c hd hc (by rw [hpc]; rfl)
        have hroom := h.room i c hc (by rw [hpc]; rfl)
        subst hhead
        simp only [Option.map_some, hpc, Bool.and_eq_true, decide_eq_true_eq, List.all_eq_true,
          Bool.not_eq_true']
        refine ⟨⟨trivial, hroom⟩, ?_⟩
        intro e he
        -- a push that has written is in progress, and this one has not
        obtain ⟨k, hk⟩ := List.getElem?_of_mem he
        by_cases hki : k = i
        · subst hki
          rw [hc] at hk
          cases hk
          rw [hpc]
          rfl
        · have hout := h.push_alone.eq_false hc (by simp [hpc, PushCallPc.inProgress]) hk hki
          exact (PushCallPc.not_inProgress hout).2.2
      | _ => simp [hpc]
  | popStep j =>
    simp only [Exclusive, Shared.exclusive]
    cases hd : s.pops[j]? with
    | none => rfl
    | some d =>
      cases d with
      | checked t =>
        have htail := h.tail_eq j _ t hd rfl
        have hne := h.nonempty j _ hd rfl
        subst htail
        simp only [Bool.and_eq_true, decide_eq_true_eq, List.all_eq_true, Bool.not_eq_true']
        refine ⟨⟨trivial, hne⟩, ?_⟩
        intro e he
        obtain ⟨k, hk⟩ := List.getElem?_of_mem he
        by_cases hkj : k = j
        · subst hkj
          rw [hd] at hk
          cases hk
          rfl
        · exact (PopCallPc.not_inProgress (h.pop_alone.eq_false hd rfl hk hkj)).2.2
      | _ => rfl
  | _ => rfl

/-- The push in progress moves, leaving `tail` alone and taking no value away. -/
theorem Turns.movePush (h : Turns N s) (hc : s.pushes[i]? = some c) (hin : c.pc.inProgress = true)
    {pc : PushCallPc} {r : RingBuffer α} (hhead : ∀ hd, pc.loaded? = some hd → hd = r.head)
    (hroom : pc.isChecked = true → nextIndex N r.head ≠ r.tail) (htail : r.tail = s.ring.tail)
    (hne : s.ring.tail ≠ s.ring.head → r.tail ≠ r.head) (hs : List ProducerHandle)
    (st : List (ℕ × α)) :
    Turns N { s with ring := r, handles := hs, pushes := s.pushes.set i { c with pc := pc }
                     stored := st } where
  push_alone := h.push_alone.set hc fun _ => hin
  head_eq := by
    intro k e hd hk he
    rcases of_getElem?_set hk with ⟨-, rfl⟩ | ⟨hki, hk⟩
    · exact hhead hd he
    · obtain ⟨hnone, -, -⟩ := PushCallPc.not_inProgress (h.push_alone.eq_false hc hin hk hki)
      rw [hnone] at he
      cases he
  room := by
    intro k e hk he
    rcases of_getElem?_set hk with ⟨-, rfl⟩ | ⟨hki, hk⟩
    · exact hroom he
    · obtain ⟨-, hnot, -⟩ := PushCallPc.not_inProgress (h.push_alone.eq_false hc hin hk hki)
      rw [hnot] at he
      cases he
  pop_alone := h.pop_alone
  tail_eq := by
    intro k e t hk he
    exact (h.tail_eq k e t hk he).trans htail.symm
  nonempty := by
    intro k e hk he
    exact hne (h.nonempty k e hk he)

/-- The pop in progress moves, leaving `head` alone and taking no room away. -/
theorem Turns.movePop (h : Turns N s) (hj : s.pops[j]? = some d) (hin : d.inProgress = true)
    {d' : PopCallPc α} {r : RingBuffer α} (htail : ∀ t, d'.loaded? = some t → t = r.tail)
    (hne : d'.isChecked = true → r.tail ≠ r.head) (hhead : r.head = s.ring.head)
    (hroom : nextIndex N s.ring.head ≠ s.ring.tail → nextIndex N r.head ≠ r.tail)
    (po : List (ℕ × α)) :
    Turns N { s with ring := r, pops := s.pops.set j d', popped := po } where
  push_alone := h.push_alone
  head_eq := by
    intro k e hd hk he
    exact (h.head_eq k e hd hk he).trans hhead.symm
  room := by
    intro k e hk he
    exact hroom (h.room k e hk he)
  pop_alone := h.pop_alone.set hj fun _ => hin
  tail_eq := by
    intro k e t hk he
    rcases of_getElem?_set hk with ⟨-, rfl⟩ | ⟨hkj, hk⟩
    · exact htail t he
    · obtain ⟨hnone, -, -⟩ := PopCallPc.not_inProgress (h.pop_alone.eq_false hj hin hk hkj)
      rw [hnone] at he
      cases he
  nonempty := by
    intro k e hk he
    rcases of_getElem?_set hk with ⟨-, rfl⟩ | ⟨hkj, hk⟩
    · exact hne he
    · obtain ⟨-, hnot, -⟩ := PopCallPc.not_inProgress (h.pop_alone.eq_false hj hin hk hkj)
      rw [hnot] at he
      cases he

theorem Turns.beginPush (h : Turns N s) {k : ℕ} {v : α} (hx : OneAtATime s (.push k v)) :
    Turns N { s with pushes := s.pushes ++ [⟨k, v, .loadedHead s.ring.head⟩] } := by
  have hnone : ∀ c ∈ s.pushes, c.pc.inProgress = false := by
    simpa [OneAtATime, oneAtATime] using hx
  refine ⟨atMostOne_concat hnone, ?_, ?_, h.pop_alone, h.tail_eq, h.nonempty⟩
  · intro i c hd hc he
    rcases of_getElem?_concat hc with ⟨-, rfl⟩ | hc
    · exact (Option.some.inj he).symm
    · exact h.head_eq i c hd hc he
  · intro i c hc he
    rcases of_getElem?_concat hc with ⟨-, rfl⟩ | hc
    · cases he
    · exact h.room i c hc he

theorem Turns.beginPop (h : Turns N s) {k : ℕ} (hx : OneAtATime s (.pop k)) :
    Turns N { s with pops := s.pops ++ [.loadedTail s.ring.tail] } := by
  have hnone : ∀ d ∈ s.pops, d.inProgress = false := by
    simpa [OneAtATime, oneAtATime] using hx
  refine ⟨h.push_alone, h.head_eq, h.room, atMostOne_concat hnone, ?_, ?_⟩
  · intro j d t hd he
    rcases of_getElem?_concat hd with ⟨-, rfl⟩ | hd
    · exact (Option.some.inj he).symm
    · exact h.tail_eq j d t hd he
  · intro j d hd he
    rcases of_getElem?_concat hd with ⟨-, rfl⟩ | hd
    · cases he
    · exact h.nonempty j d hd he

/-- There is room for what has been written, so `head` does not come round to `tail`. -/
theorem ne_storeHead (hN : AssertPowerOfTwo N) (hi : Inv N s q) {hd : ℕ} (hc : s.pushes[i]? = some c)
    (hpc : c.pc = .written hd) : s.ring.tail ≠ nextIndex N hd := by
  obtain ⟨rfl, hlt, -⟩ := hi.written i c hd hc hpc
  intro heq
  have hfull := (hi.represents.full_iff hN).mp heq.symm
  omega

/-- What has been read is the first of the queue: without it there is room. -/
theorem ne_storeTail (hN : AssertPowerOfTwo N) (hi : Inv N s q) {t : ℕ} {e : Cell α}
    (hj : s.pops[j]? = some (.taken t e)) : nextIndex N s.ring.head ≠ nextIndex N t := by
  obtain ⟨rfl, hhead⟩ := hi.taken j t e hj
  cases q with
  | nil => cases hhead
  | cons c q =>
    intro heq
    have hfull := ((hi.represents.storeTail hN).full_iff hN).mp heq
    have hlt := hi.represents.length_lt
    rw [List.length_cons] at hlt
    omega

theorem Turns.step (h : Turns N s) (hN : AssertPowerOfTwo N) (hi : Inv N s q) {a : Act α}
    (hx : OneAtATime s a) (hs : s.step N a = some s') : Turns N s' := by
  cases step_cases hs with
  | split | splitArc | backpressure policy =>
    exact ⟨h.push_alone, h.head_eq, h.room, h.pop_alone, h.tail_eq, h.nonempty⟩
  | push hk => exact h.beginPush hx
  | @full i hd c k hc hpc hfull hk =>
    refine h.movePush hc (by rw [hpc]; rfl) ?_ ?_ rfl id _ _ <;>
      rcases k with _ | _ | ⟨_ | _ | _, _⟩ <;>
        simp [onFull, PushCallPc.loaded?, PushCallPc.isChecked]
  | @room i hd c hc hpc hroom =>
    have hhead := h.head_eq i c hd hc (by rw [hpc]; rfl)
    subst hhead
    refine h.movePush hc (by rw [hpc]; rfl) ?_ (fun _ => hroom) rfl id _ _
    intro hd he
    exact (Option.some.inj he).symm
  | @write i hd c hc hpc =>
    refine h.movePush (r := s.ring.write hd c.value i) hc (by rw [hpc]; rfl) ?_ ?_ rfl id _ _
    · simp [PushCallPc.loaded?]
    · rintro ⟨⟩
  | @publish i hd c hc hpc =>
    refine h.movePush (r := s.ring.storeHead (nextIndex N hd)) hc (by rw [hpc]; rfl) ?_ ?_ rfl ?_ _ _
    · simp [PushCallPc.loaded?]
    · rintro ⟨⟩
    · exact fun _ => ne_storeHead hN hi hc hpc
  | retry hc hpc =>
    refine h.movePush hc (by rw [hpc]; rfl) ?_ ?_ rfl id _ _
    · intro hd he
      exact (Option.some.inj he).symm
    · rintro ⟨⟩
  | count hc hpc =>
    refine h.movePush hc (by rw [hpc]; rfl) ?_ ?_ rfl id _ _
    · simp [PushCallPc.loaded?]
    · rintro ⟨⟩
  | pop hk => exact h.beginPop hx
  | @look j t hj =>
    have htail := h.tail_eq j _ t hj rfl
    subst htail
    refine h.movePop hj rfl ?_ ?_ rfl id _
    · split_ifs <;> simp [PopCallPc.loaded?, eq_comm]
    · split_ifs with hempty
      · rintro ⟨⟩
      · exact fun _ => hempty
  | @read j t c hj hc =>
    refine h.movePop (r := s.ring.moveOut t) hj rfl ?_ ?_ rfl id _
    · simp [PopCallPc.loaded?]
    · rintro ⟨⟩
  | @release j t c hj =>
    refine h.movePop (r := s.ring.storeTail (nextIndex N t)) hj rfl ?_ ?_ rfl ?_ _
    · simp [PopCallPc.loaded?]
    · rintro ⟨⟩
    · exact fun _ => ne_storeTail hN hi hj

end Steps

/-- **One push at a time and one pop at a time is enough**: what is reached so, through any
handles, is reached by exclusive steps. -/
theorem exclusive_of_oneAtATime (hN : AssertPowerOfTwo N) {s : Shared α}
    (h : Machine.ReachBy (machine N α) OneAtATime s) :
    Machine.ReachBy (machine N α) (Exclusive N) s := by
  have hinv : ∃ q, Inv N s q ∧ Turns N s ∧ Machine.ReachBy (machine N α) (Exclusive N) s := by
    refine h.invariant
      (I := fun s => ∃ q, Inv N s q ∧ Turns N s ∧ Machine.ReachBy (machine N α) (Exclusive N) s) ?_ ?_
    · rintro s rfl
      exact ⟨[], inv_new hN, turns_new, .start rfl⟩
    · intro s a s' ⟨q, hi, ht, hr⟩ hx hs
      have hx' := ht.exclusive a
      obtain ⟨q', hi'⟩ := hi.step hN hx' hs
      exact ⟨q', hi', ht.step hN hi hx hs, hr.next hx' hs⟩
  obtain ⟨_, -, -, hr⟩ := hinv
  exact hr

end Shared

end SensorBridge.Buffer
