import SensorBridge.Pipeline.Executor
import SensorBridge.Pipeline.Lifecycle

/-!
# The pipeline

`MultiStagePipelineBuilder::build` makes five channels of one capacity and four
workers, worker `i` between channels `i` and `i + 1`. The machine here is the whole
of it: the workers, the owner with its calls, a thread that sends items (through the
pipeline or through a clone of its sender), and a thread that receives results. The
stages are a family, stage `i` from `T i` to `T (i + 1)`, so that nothing has to be
said four times. Their methods do not panic; threads that do are in `Lifecycle`.

`Wired` is what holds of every state: each channel is first-in first-out, and its two
ends are what the workers on either side of it have done. `toLifecycle` forgets
everything but the owner and whether the threads have ended, which is the machine of
`Lifecycle`.
-/

namespace SensorBridge.Pipeline

open Foundation Channel

universe u

variable {T : ℕ → Type u}

/-- A `MultiStagePipeline`, its threads and its users. -/
structure Net (S : ∀ i, Stage (T i) (T (i + 1))) where
  /-- The workers. -/
  worker : ∀ i, Worker (S i)
  /-- The channels: worker `i` receives from channel `i` and sends on channel `i + 1`. -/
  chan : ∀ i, Chan (T i)
  /-- The owner. -/
  owner : Owner
  /-- Whether there is a clone of the input sender. -/
  clone : Bool
  /-- Whether `shutdown()` has been called (not in the source). -/
  asked : Bool
  /-- The items sent before that (not in the source). -/
  before : List (T 0)

namespace Net

variable {S : ∀ i, Stage (T i) (T (i + 1))}

/-- What can happen next. -/
inductive Act (ι : Type u) where
  /-- Worker `i`'s next step. -/
  | worker (i : ℕ)
  /-- The owner acts. -/
  | owner (a : OwnerAct)
  /-- `send(item)`, or `try_send(item)`, puts the item in. -/
  | send (item : ι)
  /-- The last clone of the input sender is dropped. -/
  | dropClone
  /-- `recv()` or `try_recv()` is called. -/
  | beginRecv
  /-- `recv()` or `try_recv()` returns. -/
  | endRecv
  deriving DecidableEq

/-- `build`. -/
def build (S : ∀ i, Stage (T i) (T (i + 1))) (capacity : ℕ) (clone : Bool) : Net S :=
  ⟨fun i => .spawn (S i), fun _ => bounded capacity, .built, clone, false, []⟩

/-- What the threads are doing, as `join` sees it. -/
def status (s : Net S) (k : ℕ) : ThreadStatus :=
  if (s.worker k).pc.isReturned then .finished else .running

/-- Worker `i` moves. -/
def move (s : Net S) (i : ℕ) (w : Worker (S i)) (input : Chan (T i)) (output : Chan (T (i + 1))) :
    Net S :=
  { s with worker := Function.update s.worker i w
           chan := Function.update (Function.update s.chan i input) (i + 1) output }

/-- Something is stored in the control cells of stage `k`. -/
def signal (s : Net S) (k : ℕ) (f : StageControl → StageControl) : Net S :=
  { s with worker := Function.update s.worker k
             { s.worker k with control := f (s.worker k).control } }

/-- Something is done to channel `i` from outside. -/
def setChan (s : Net S) (i : ℕ) (c : Chan (T i)) : Net S := { s with chan := Function.update s.chan i c }

/-- An item goes in. -/
def accept (s : Net S) (item : T 0) : Net S :=
  { s.setChan 0 ((s.chan 0).push item) with before := if s.asked then s.before else s.before ++ [item] }

/-- The last clone of the input sender goes: with it the channel, if `input_tx` has gone. -/
def loseClone (s : Net S) : Net S :=
  { (if s.owner.inputTx then s else s.setChan 0 (s.chan 0).dropSender) with clone := false }

/-- What a step of the owner does to the stages. -/
def effect (s : Net S) : Option Effect → Net S
  | none => s
  | some (.storeCommand k cmd) => s.signal k fun control => control.storeCommand cmd
  | some (.storeFlag k cmd) => s.signal k fun control => control.storeFlag cmd
  | some .dropInput => if s.clone then s else s.setChan 0 (s.chan 0).dropSender

/-- One step. -/
def step (s : Net S) : Act (T 0) → Option (Net S)
  | .worker i =>
    if i < stageCount then
      ((s.worker i).step (s.chan i) (s.chan (i + 1))).map fun (w, input, output) => s.move i w input output
    else none
  | .owner a =>
    (s.owner.step s.status a).map fun (owner, e) =>
      { s.effect e with owner := owner, asked := s.asked || decide (a = .call .shutdown) }
  | .send item =>
    -- a send that fails changes nothing
    if (s.chan 0).sender ∧ (s.chan 0).receiver ∧ (s.chan 0).HasRoom then some (s.accept item) else none
  | .dropClone => if s.clone then some s.loseClone else none
  | .beginRecv => some (s.setChan stageCount (s.chan stageCount).beginRecv)
  | .endRecv => some (s.setChan stageCount (s.chan stageCount).endRecv.2)

/-- The machine. -/
def machine (S : ∀ i, Stage (T i) (T (i + 1))) : Machine (Net S) (Act (T 0)) where
  init s := ∃ capacity clone, s = build S capacity clone
  step := step

/-! ### What a step can be -/

/-- One step of the pipeline. -/
inductive Step (s : Net S) : Act (T 0) → Net S → Prop
  | worker (i : ℕ) (w : Worker (S i)) (input : Chan (T i)) (output : Chan (T (i + 1))) :
      i < stageCount → Worker.Step (s.worker i) (s.chan i) (s.chan (i + 1)) w input output →
      Step s (.worker i) (s.move i w input output)
  | owner (a : OwnerAct) (owner : Owner) (e : Option Effect) :
      Owner.Step s.status s.owner a owner e →
      Step s (.owner a)
        { s.effect e with owner := owner, asked := s.asked || decide (a = .call .shutdown) }
  | send (item : T 0) : (s.chan 0).receiver = true → (s.chan 0).HasRoom →
      Step s (.send item) (s.accept item)
  | dropClone : s.clone = true → Step s .dropClone s.loseClone
  | beginRecv : Step s .beginRecv (s.setChan stageCount (s.chan stageCount).beginRecv)
  | endRecv : Step s .endRecv (s.setChan stageCount (s.chan stageCount).endRecv.2)

/-- **The pipeline steps only so.** -/
theorem step_cases {s s' : Net S} {a : Act (T 0)} (h : s.step a = some s') : Step s a s' := by
  cases a with
  | worker i =>
    simp only [step] at h
    split_ifs at h with hi
    obtain ⟨⟨w, input, output⟩, hw, rfl⟩ := Option.map_eq_some_iff.mp h
    exact .worker i w input output hi (Worker.step_cases hw)
  | owner a =>
    obtain ⟨⟨owner, e⟩, ho, rfl⟩ := Option.map_eq_some_iff.mp h
    exact .owner a owner e (Owner.step_cases ho)
  | send item =>
    simp only [step] at h
    split_ifs at h with hsend
    cases h
    exact .send item hsend.2.1 hsend.2.2
  | dropClone =>
    simp only [step] at h
    split_ifs at h with hc
    cases h
    exact .dropClone hc
  | beginRecv => cases h; exact .beginRecv
  | endRecv => cases h; exact .endRecv

/-! ### Moves of a worker, and of the others -/

section Move

variable {s : Net S} {i j : ℕ} {w : Worker (S i)} {input : Chan (T i)} {output : Chan (T (i + 1))}

@[simp] theorem worker_move_self : (s.move i w input output).worker i = w := Function.update_self ..

theorem worker_move_of_ne (h : j ≠ i) : (s.move i w input output).worker j = s.worker j :=
  Function.update_of_ne h ..

@[simp] theorem chan_move_self : (s.move i w input output).chan i = input := by
  simp [move]

@[simp] theorem chan_move_succ : (s.move i w input output).chan (i + 1) = output := by
  simp [move]

theorem chan_move_of_ne (h : j ≠ i) (h' : j ≠ i + 1) : (s.move i w input output).chan j = s.chan j := by
  simp [move, Function.update_of_ne h, Function.update_of_ne h']

@[simp] theorem chan_setChan_self {c : Chan (T i)} : (s.setChan i c).chan i = c :=
  Function.update_self ..

theorem chan_setChan_of_ne {c : Chan (T i)} (h : j ≠ i) : (s.setChan i c).chan j = s.chan j :=
  Function.update_of_ne h ..

@[simp] theorem worker_signal_self {f : StageControl → StageControl} :
    (s.signal i f).worker i = { s.worker i with control := f (s.worker i).control } :=
  Function.update_self ..

theorem worker_signal_of_ne {f : StageControl → StageControl} (h : j ≠ i) :
    (s.signal i f).worker j = s.worker j := Function.update_of_ne h ..

end Move

/-- A step of anyone but a worker: the workers are as they were, but for their control cells;
channel `0` has been touched from its sending side only, and the last one from its
receiving side only. -/
structure Outside (s s' : Net S) : Prop where
  worker : ∀ i, ∃ control, s'.worker i = { s.worker i with control := control }
  receiver : ∀ i < stageCount, (s.chan i).SameReceiver (s'.chan i)
  sender : ∀ i, (s.chan (i + 1)).SameSender (s'.chan (i + 1))
  fifo : ∀ i, (s.chan i).Fifo → (s'.chan i).Fifo

theorem worker_effect (s : Net S) (e : Option Effect) (i : ℕ) :
    ∃ control, (s.effect e).worker i = { s.worker i with control := control } := by
  have hsignal : ∀ k f, ∃ control, (s.signal k f).worker i = { s.worker i with control := control } := by
    intro k f
    by_cases hik : i = k
    · subst hik
      exact ⟨_, worker_signal_self⟩
    · exact ⟨_, worker_signal_of_ne hik⟩
  rcases e with _ | ⟨k, cmd⟩ | ⟨k, cmd⟩ | _
  · exact ⟨_, rfl⟩
  · exact hsignal k fun control => control.storeCommand cmd
  · exact hsignal k fun control => control.storeFlag cmd
  · by_cases hc : s.clone = true <;> simp only [effect, hc, if_true, Bool.false_eq_true, if_false] <;>
      exact ⟨_, rfl⟩

theorem worker_loseClone (s : Net S) (i : ℕ) :
    ∃ control, s.loseClone.worker i = { s.worker i with control := control } := by
  cases hi : s.owner.inputTx <;> simp only [loseClone, hi, if_true, Bool.false_eq_true, if_false] <;>
    exact ⟨_, rfl⟩

@[simp] theorem clone_effect (s : Net S) (e : Option Effect) : (s.effect e).clone = s.clone := by
  rcases e with _ | ⟨k, cmd⟩ | ⟨k, cmd⟩ | _
  · rfl
  · rfl
  · rfl
  · by_cases hc : s.clone = true <;> simp [effect, hc, setChan]

@[simp] theorem before_effect (s : Net S) (e : Option Effect) : (s.effect e).before = s.before := by
  rcases e with _ | ⟨k, cmd⟩ | ⟨k, cmd⟩ | _
  · rfl
  · rfl
  · rfl
  · by_cases hc : s.clone = true <;> simp [effect, hc, setChan]

/-- The owner touches one channel, and that by dropping its sender. -/
theorem chan_effect (s : Net S) (e : Option Effect) :
    (e ≠ some .dropInput ∨ s.clone = true) ∧ (s.effect e).chan = s.chan ∨
    (e = some .dropInput ∧ s.clone = false) ∧
      (s.effect e).chan = Function.update s.chan 0 (s.chan 0).dropSender := by
  rcases e with _ | ⟨k, cmd⟩ | ⟨k, cmd⟩ | _
  · exact .inl ⟨.inl (by simp), rfl⟩
  · exact .inl ⟨.inl (by simp), rfl⟩
  · exact .inl ⟨.inl (by simp), rfl⟩
  · cases hc : s.clone with
    | true => exact .inl ⟨.inr rfl, by simp [effect, hc]⟩
    | false => exact .inr ⟨⟨rfl, rfl⟩, by simp [effect, hc, setChan]⟩

/-- Something done to channel `0` from its sending side. -/
theorem outside_first {s s' : Net S} {c : Chan (T 0)}
    (hw : ∀ i, ∃ control, s'.worker i = { s.worker i with control := control })
    (hc : s'.chan = Function.update s.chan 0 c) (hr : (s.chan 0).SameReceiver c)
    (hf : (s.chan 0).Fifo → c.Fifo) : Outside s s' where
  worker := hw
  receiver := by
    intro i _
    rw [hc]
    cases i with
    | zero => rw [Function.update_self]; exact hr
    | succ i => rw [Function.update_of_ne (Nat.succ_ne_zero i)]; exact .refl _
  sender := by
    intro i
    rw [hc, Function.update_of_ne (Nat.succ_ne_zero i)]
    exact .refl _
  fifo := by
    intro i h
    rw [hc]
    cases i with
    | zero => rw [Function.update_self]; exact hf h
    | succ i => rw [Function.update_of_ne (Nat.succ_ne_zero i)]; exact h

/-- Something done to the last channel from its receiving side. -/
theorem outside_last {s : Net S} {c : Chan (T stageCount)} (hr : (s.chan stageCount).SameSender c)
    (hf : (s.chan stageCount).Fifo → c.Fifo) : Outside s (s.setChan stageCount c) where
  worker _ := ⟨_, rfl⟩
  receiver := by
    intro i hi
    rw [chan_setChan_of_ne (Nat.ne_of_lt hi)]
    exact .refl _
  sender := by
    intro i
    by_cases hi : i = 3
    · subst hi
      show (s.chan stageCount).SameSender ((s.setChan stageCount c).chan stageCount)
      rw [chan_setChan_self]
      exact hr
    · rw [chan_setChan_of_ne (by show i + 1 ≠ 4; omega)]
      exact .refl _
  fifo := by
    intro i h
    by_cases hi : i = stageCount
    · subst hi
      rw [chan_setChan_self]
      exact hf h
    · rw [chan_setChan_of_ne hi]
      exact h

/-- A step that leaves the channels alone. -/
theorem outside_of_chan_eq {s s' : Net S}
    (hw : ∀ i, ∃ control, s'.worker i = { s.worker i with control := control })
    (hc : s'.chan = s.chan) : Outside s s' where
  worker := hw
  receiver i _ := by rw [hc]; exact .refl _
  sender i := by rw [hc]; exact .refl _
  fifo i h := by rw [hc]; exact h

/-- **A step is a worker's, or from outside.** -/
theorem Step.outside {s s' : Net S} {a : Act (T 0)} (h : Step s a s') :
    (∃ i w input output, a = .worker i ∧ i < stageCount ∧
      Worker.Step (s.worker i) (s.chan i) (s.chan (i + 1)) w input output ∧
      s' = s.move i w input output) ∨ Outside s s' := by
  cases h with
  | worker i w input output hi hw => exact .inl ⟨i, w, input, output, rfl, hi, hw, rfl⟩
  | owner a owner e ho =>
    right
    rcases chan_effect s e with ⟨-, hc⟩ | ⟨-, hc⟩
    · exact outside_of_chan_eq (worker_effect s e) hc
    · exact outside_first (worker_effect s e) hc ⟨rfl, rfl⟩ Chan.Fifo.dropSender
  | send item hr hroom => exact .inr (outside_first (fun _ => ⟨_, rfl⟩) rfl ⟨rfl, rfl⟩ fun h => h.push hr item)
  | dropClone hc =>
    right
    cases hi : s.owner.inputTx with
    | true => exact outside_of_chan_eq (worker_loseClone s) (by simp [loseClone, hi])
    | false =>
      exact outside_first (c := (s.chan 0).dropSender) (worker_loseClone s)
        (by simp [loseClone, hi, setChan]) ⟨rfl, rfl⟩ Chan.Fifo.dropSender
  | beginRecv => exact .inr (outside_last ⟨rfl, rfl⟩ Chan.Fifo.beginRecv)
  | endRecv => exact .inr (outside_last (Chan.endRecv_sameSender _).1 Chan.Fifo.endRecv)

/-! ### What holds of every state -/

/-- **The pipeline is wired up**: workers lose nothing inside, channels are first-in
first-out, and what is recorded at the two ends of a channel agrees. -/
structure Wired (s : Net S) : Prop where
  kept : ∀ i, (s.worker i).Kept
  fifo : ∀ i, (s.chan i).Fifo
  reads : ∀ i < stageCount, Reads (s.worker i) (s.chan i)
  writes : ∀ i < stageCount, Writes (s.worker i) (s.chan (i + 1))

theorem wired_build (S : ∀ i, Stage (T i) (T (i + 1))) (capacity : ℕ) (clone : Bool) :
    Wired (build S capacity clone) where
  kept i := .spawn (S i)
  fifo _ := Chan.fifo_bounded capacity
  reads _ _ := ⟨rfl, rfl⟩
  writes _ _ := ⟨rfl, rfl⟩

section WiredSteps

variable {s s' : Net S}

/-- A worker's step keeps the wiring. -/
theorem Wired.move (h : Wired s) {j : ℕ} {w : Worker (S j)} {input : Chan (T j)}
    {output : Chan (T (j + 1))} (hj : j < stageCount)
    (hw : Worker.Step (s.worker j) (s.chan j) (s.chan (j + 1)) w input output) :
    Wired (s.move j w input output) where
  kept := by
    intro i
    by_cases hij : i = j
    · subst hij
      rw [worker_move_self]
      exact hw.kept (h.kept i)
    · rw [worker_move_of_ne hij]
      exact h.kept i
  fifo := by
    intro i
    by_cases hij : i = j
    · subst hij
      rw [chan_move_self]
      exact hw.fifo_input (h.fifo i)
    · by_cases hij' : i = j + 1
      · subst hij'
        rw [chan_move_succ]
        exact hw.fifo_output (h.fifo (j + 1))
      · rw [chan_move_of_ne hij hij']
        exact h.fifo i
  reads := by
    intro i hi
    by_cases hij : i = j
    · subst hij
      rw [worker_move_self, chan_move_self]
      exact hw.reads (h.reads i hi)
    · rw [worker_move_of_ne hij]
      by_cases hij' : i = j + 1
      · -- the next worker: its input has been touched from the other side
        subst hij'
        rw [chan_move_succ]
        exact (h.reads (j + 1) hi).congr hw.sameReceiver_output
      · rw [chan_move_of_ne hij hij']
        exact h.reads i hi
  writes := by
    intro i hi
    by_cases hij : i = j
    · subst hij
      rw [worker_move_self, chan_move_succ]
      exact hw.writes (h.writes i hi)
    · rw [worker_move_of_ne hij]
      by_cases hij' : i + 1 = j
      · -- the worker before: its output has been touched from the other side
        subst hij'
        rw [chan_move_self]
        exact (h.writes i hi).congr hw.sameSender_input
      · rw [chan_move_of_ne hij' (by omega)]
        exact h.writes i hi

/-- A step from outside keeps the wiring. -/
theorem Wired.outside (h : Wired s) (ho : Outside s s') : Wired s' where
  kept := by
    intro i
    obtain ⟨control, hc⟩ := ho.worker i
    rw [hc]
    exact ⟨(h.kept i).flow, (h.kept i).recent, (h.kept i).counts⟩
  fifo := by
    intro i
    exact ho.fifo i (h.fifo i)
  reads := by
    intro i hi
    obtain ⟨control, hc⟩ := ho.worker i
    have hr := (h.reads i hi).congr (ho.receiver i hi)
    rw [hc]
    exact ⟨hr.took_eq, hr.receiver_eq⟩
  writes := by
    intro i hi
    obtain ⟨control, hc⟩ := ho.worker i
    have hw := (h.writes i hi).congr (ho.sender i)
    rw [hc]
    exact ⟨hw.placed_eq, hw.sender_eq⟩

theorem Wired.step (h : Wired s) {a : Act (T 0)} (hs : Step s a s') : Wired s' := by
  rcases hs.outside with ⟨i, w, input, output, -, hi, hw, rfl⟩ | ho
  · exact h.move hi hw
  · exact h.outside ho

end WiredSteps

theorem wired_of_reach {s : Net S} (h : (machine S).Reach s) : Wired s := by
  refine h.invariant (I := Wired) ?_ fun s a s' hi _ hs => hi.step (step_cases hs)
  rintro s ⟨capacity, clone, rfl⟩
  exact wired_build S capacity clone

/-! ### The owner and the threads -/

/-- The owner, and whether the threads have ended. -/
def toLifecycle (s : Net S) : Lifecycle := ⟨s.owner, s.status⟩

/-- Whether the step is other than giving up a `join` because its deadline has passed. -/
def inTime (s : Net S) : Act (T 0) → Bool
  | .owner b => s.owner.inTime b
  | _ => true

/-- `inTime`, as a condition on the steps of a run. -/
abbrev InTime (s : Net S) (a : Act (T 0)) : Prop := inTime s a = true

theorem status_eq_of_outside {s s' : Net S} (h : ∀ i, ∃ control, s'.worker i =
    { s.worker i with control := control }) : s'.status = s.status := by
  funext k
  obtain ⟨control, hc⟩ := h k
  simp only [status, hc]

/-- A worker's step is seen as nothing, or as its thread ending. -/
theorem toLifecycle_move {s : Net S} {i : ℕ} {w : Worker (S i)} {input : Chan (T i)}
    {output : Chan (T (i + 1))}
    (hw : Worker.Step (s.worker i) (s.chan i) (s.chan (i + 1)) w input output) :
    (s.move i w input output).toLifecycle = s.toLifecycle ∨
      s.toLifecycle.step (.finish i) = some (s.move i w input output).toLifecycle := by
  have hrunning : s.status i = .running := by
    rw [status, if_neg]
    cases hw <;> simp_all
  have hother : ∀ k ≠ i, (s.move i w input output).status k = s.status k := by
    intro k hk
    simp only [status, worker_move_of_ne hk]
  by_cases hret : w.pc.isReturned = true
  · right
    have hstatus : Function.update s.status i .finished = (s.move i w input output).status := by
      funext k
      by_cases hk : k = i
      · subst hk
        rw [Function.update_self, status, worker_move_self, if_pos hret]
      · rw [Function.update_of_ne hk, hother k hk]
    simp only [Lifecycle.step, toLifecycle, hrunning, if_true, hstatus]
    rfl
  · left
    have hstatus : (s.move i w input output).status = s.status := by
      funext k
      by_cases hk : k = i
      · subst hk
        rw [hrunning, status, worker_move_self, if_neg hret]
      · exact hother k hk
    simp only [toLifecycle, hstatus]
    rfl

/-- **A pipeline is an owner with four threads**, as far as its owner can see. -/
theorem toLifecycle_of_inTime {s : Net S} (h : Machine.ReachBy (machine S) InTime s) :
    Machine.ReachBy Lifecycle.machine Lifecycle.InTime s.toLifecycle := by
  refine h.simulate toLifecycle ?_ ?_
  · rintro s ⟨capacity, clone, rfl⟩
    rfl
  · intro s a s' _ hx hs
    have hst : Step s a s' := step_cases hs
    cases a with
    | worker i =>
      cases hst with
      | worker i w input output hi hw =>
        rcases toLifecycle_move hw with heq | hstep
        · exact .inl heq
        · refine .inr ⟨.finish i, ?_, hstep⟩
          intro b hb
          cases hb
    | owner b =>
      right
      obtain ⟨⟨o, e⟩, ho, rfl⟩ := Option.map_eq_some_iff.mp hs
      refine ⟨.owner b, fun c hc => ?_, ?_⟩
      · cases hc
        exact hx
      · have hstatus := status_eq_of_outside (worker_effect s e)
        simp only [Lifecycle.machine, Lifecycle.step, toLifecycle, ho, Option.map_some]
        exact congrArg (fun st => some (⟨o, st⟩ : Lifecycle)) hstatus.symm
    | send item =>
      left
      cases hst with
      | send item hr hroom => rfl
    | dropClone =>
      left
      cases hst with
      | dropClone hc =>
        cases hi : s.owner.inputTx <;> simp [loseClone, hi, toLifecycle, setChan] <;> rfl
    | beginRecv => cases hs; exact .inl rfl
    | endRecv => cases hs; exact .inl rfl

/-- Where no deadline passes, `join` returns `Ok` only when all workers have returned. -/
theorem returned_of_ok {s : Net S} (h : Machine.ReachBy (machine S) InTime s)
    (hok : .ok () ∈ s.owner.joins) : ∀ k < stageCount, (s.worker k).pc.isReturned = true := by
  intro k hk
  have hheld := Lifecycle.held_of_inTime (toLifecycle_of_inTime h)
  have hended := hheld.ended k (hheld.ok hok k hk)
  by_contra hno
  exact hended (if_neg hno)

end Net

end SensorBridge.Pipeline
