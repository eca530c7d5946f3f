import SensorBridge.Pipeline.MultiStage
import Mathlib.Algebra.Order.BigOperators.Group.Finset

/-!
# Shutting a pipeline down

`shutdown()` sets every stage's flag and drops the input sender; each worker leaves its
loop at its next look at the flag, whatever is still queued for it. So items that were
sent, and values a stage returned, can be lost without a trace (`not_forall_accounted`).
What `Graceful` says of a step is what it takes for nothing to be lost silently
(`accounted_of_graceful`): a worker leaves when its queue is empty, and sends only to a
worker that is still in its loop.

After the loop the output of `flush` is sent with the blocking `send`. A worker blocked
so is freed when the next worker returns, except the last one, whose receiver is held
by the owner, who is in `join` (`not_forall_progress`). When what it flushes finds room,
some worker can always move (`progress_of_flushFits`).
-/

namespace SensorBridge.Pipeline

open Foundation Channel

universe u

/-- Whether a `shutdown()` is in progress. -/
@[simp] def OwnerPc.shutting : OwnerPc → Bool
  | .storeStopping | .storeCommand .shutdown _ | .storeFlag .shutdown _ | .takeInput => true
  | _ => false

/-- Whether a `shutdown()` in progress has yet to set the flag of stage `i`. -/
@[simp] def OwnerPc.pending (i : ℕ) : OwnerPc → Bool
  | .storeStopping => true
  | .storeCommand .shutdown k | .storeFlag .shutdown k => decide (k ≤ i)
  | _ => false

/-- How many steps a worker has left, at most, once its shutdown flag is set. -/
@[simp] def Pc.stepsLeft {ι ο : Type u} : Pc ι ο → ℕ
  | .checkPaused => 20
  | .checkCommand => 19
  | .stageReset => 18
  | .metricsReset => 17
  | .ackCommand => 16
  | .ackFlag => 15
  | .recv => 14
  | .waiting => 13
  | .recordInput _ => 12
  | .process _ | .tick => 11
  | .sendOrDrop _ => 10
  | .start | .recordOutput | .recordDropped | .recordFiltered => 9
  | .checkShutdown => 8
  | .stopping => 7
  | .flush => 6
  | .send _ => 5
  | .recordFlush => 4
  | .stopped => 3
  | .dropOutput => 2
  | .dropInput => 1
  | .returned => 0

/-- Once its flag is set, every step brings a worker nearer to its end. -/
theorem Worker.Step.stepsLeft_lt {ι ο : Type u} {S : Stage ι ο} {w w' : Worker S}
    {input input' : Chan ι} {output output' : Chan ο}
    (h : Worker.Step w input output w' input' output') (hflag : w.control.shutdown = true) :
    w'.pc.stepsLeft < w.pc.stepsLeft := by
  cases h <;> simp_all

namespace Owner.Step

variable {status : ℕ → ThreadStatus} {o o' : Owner} {a : OwnerAct} {e : Option Effect}

/-- A `shutdown()` comes to every stage. -/
theorem pending_cases (h : Owner.Step status o a o' e) {i : ℕ} (hi : i < stageCount)
    (hp : o.pc.pending i = true) : o'.pc.pending i = true ∨ e = some (.storeFlag i .shutdown) := by
  cases h with
  | storeCommand late cmd k hpc hk => cases cmd <;> simp_all
  | signalled late cmd k hpc hk =>
    cases cmd with
    | shutdown =>
      simp only [hpc, OwnerPc.pending, decide_eq_true_eq] at hp
      exact absurd (Nat.lt_of_le_of_lt hp hi) hk
    | _ => simp [hpc] at hp
  | storeFlag late cmd k hpc =>
    cases cmd with
    | shutdown =>
      simp only [hpc, OwnerPc.pending, decide_eq_true_eq] at hp
      rcases Nat.eq_or_lt_of_le hp with heq | hlt
      · right
        rw [heq]
      · exact .inl (decide_eq_true hlt)
    | _ => simp [hpc] at hp
  | _ => simp_all

/-- A `shutdown()` in progress has been called. -/
theorem shutting_cases (h : Owner.Step status o a o' e) (hpc : o'.pc.shutting = true) :
    o.pc.shutting = true ∨ a = .call .shutdown := by
  cases h with
  | call c hidle => cases c <;> simp_all [Owner.entry]
  | signalled late cmd k hpc' hk | storeCommand late cmd k hpc' hk | storeFlag late cmd k hpc' =>
    cases cmd <;> simp_all
  | _ => simp_all

/-- The shutdown flags are set by `shutdown()`. -/
theorem shutting_of_storeFlag (h : Owner.Step status o a o' e) {k : ℕ}
    (he : e = some (.storeFlag k .shutdown)) : o.pc.shutting = true := by
  cases h with
  | storeFlag late cmd k hpc => cases cmd <;> simp_all
  | _ => cases he

/-- The input sender is dropped by `shutdown()`. -/
theorem inputTx_cases (h : Owner.Step status o a o' e) :
    e ≠ some .dropInput ∧ o'.inputTx = o.inputTx ∨
      e = some .dropInput ∧ o'.inputTx = false ∧ o.pc.shutting = true := by
  cases h <;> simp_all

end Owner.Step

namespace Net

variable {T : ℕ → Type u} {S : ∀ i, Stage (T i) (T (i + 1))}

/-! ### Shutdown has been asked for -/

/-- **What happens of a shutdown happens because it was asked for**: no flag is set, no sender
dropped and no loop left before `shutdown()` is called. -/
structure Asked (s : Net S) : Prop where
  owner : s.owner.pc.shutting = true → s.asked = true
  inputTx : s.owner.inputTx = false → s.asked = true
  sender : (s.chan 0).sender = (s.owner.inputTx || s.clone)
  flag : ∀ i, (s.worker i).control.shutdown = true → s.asked = true
  left : ∀ i < stageCount, (s.worker i).pc.inLoop = false → s.asked = true
  before_isPrefix : s.before <+: (s.chan 0).sent
  before_eq : s.asked = false → s.before = (s.chan 0).sent

theorem asked_build (S : ∀ i, Stage (T i) (T (i + 1))) (capacity : ℕ) (clone : Bool) :
    Asked (build S capacity clone) where
  owner := by rintro ⟨⟩
  inputTx := by rintro ⟨⟩
  sender := by cases clone <;> rfl
  flag := by rintro i ⟨⟩
  left := by rintro i - ⟨⟩
  before_isPrefix := List.prefix_rfl
  before_eq _ := rfl

section AskedSteps

variable {s s' : Net S} {a : Act (T 0)}

/-- A worker leaves its loop when shutdown has been asked for. -/
theorem Asked.of_leave (h : Asked s) (hw : Wired s) {i : ℕ} (hi : i < stageCount)
    (hl : (s.worker i).control.shutdown = true ∨ (s.chan i).sender = false) : s.asked = true := by
  rcases hl with hflag | hsender
  · exact h.flag i hflag
  · cases i with
    | zero =>
      rw [h.sender, Bool.or_eq_false_iff] at hsender
      exact h.inputTx hsender.1
    | succ i =>
      have hi' : i < stageCount := Nat.lt_of_succ_lt hi
      rw [(hw.writes i hi').sender_eq, Bool.not_eq_false'] at hsender
      refine h.left i hi' ?_
      exact Pc.inLoop_of_hasDroppedOutput hsender

/-- The owner sets the shutdown flag of a stage by storing it, and clears none. -/
theorem shutdown_effect_iff (e : Option Effect) (i : ℕ) :
    ((s.effect e).worker i).control.shutdown = true ↔
      (s.worker i).control.shutdown = true ∨ e = some (.storeFlag i .shutdown) := by
  rcases e with _ | ⟨k, cmd⟩ | ⟨k, cmd⟩ | _
  · simp [effect]
  · by_cases hik : i = k
    · subst hik
      simp [effect]
    · simp [effect, worker_signal_of_ne hik]
  · by_cases hik : i = k
    · subst hik
      simp [effect, or_comm]
    · simp [effect, worker_signal_of_ne hik, Ne.symm hik]
  · cases hc : s.clone <;> simp [effect, hc, setChan]

theorem Asked.move (h : Asked s) (hw : Wired s) {j : ℕ} {w : Worker (S j)} {input : Chan (T j)}
    {output : Chan (T (j + 1))} (hj : j < stageCount)
    (hst : Worker.Step (s.worker j) (s.chan j) (s.chan (j + 1)) w input output) :
    Asked (s.move j w input output) := by
  have hchan : (s.chan 0).SameSender ((s.move j w input output).chan 0) := by
    cases j with
    | zero =>
      rw [chan_move_self]
      exact hst.sameSender_input
    | succ j =>
      rw [chan_move_of_ne (by omega) (by omega)]
      exact .refl _
  refine ⟨h.owner, h.inputTx, hchan.sender_eq.trans h.sender, ?_, ?_, ?_, ?_⟩
  · intro i
    by_cases hij : i = j
    · subst hij
      rw [worker_move_self, hst.shutdown_eq]
      exact h.flag i
    · rw [worker_move_of_ne hij]
      exact h.flag i
  · intro i hi
    by_cases hij : i = j
    · subst hij
      rw [worker_move_self]
      intro hout
      cases hin : (s.worker i).pc.inLoop with
      | false => exact h.left i hi hin
      | true =>
        obtain ⟨-, -, ⟨-, hflag⟩ | ⟨-, hsender⟩⟩ := hst.leave_cases hin hout
        · exact h.of_leave hw hi (.inl hflag)
        · exact h.of_leave hw hi (.inr hsender)
    · rw [worker_move_of_ne hij]
      exact h.left i hi
  · rw [hchan.sent_eq]
    exact h.before_isPrefix
  · rw [hchan.sent_eq]
    exact h.before_eq

theorem Asked.ownerStep (h : Asked s) {b : OwnerAct} {o : Owner} {e : Option Effect}
    (ho : Owner.Step s.status s.owner b o e) :
    Asked { s.effect e with owner := o, asked := s.asked || decide (b = .call .shutdown) } := by
  have hasked : s.asked = true → (s.asked || decide (b = .call .shutdown)) = true := by
    intro ha
    rw [ha, Bool.true_or]
  have hsender : ((s.effect e).chan 0).sender = (o.inputTx || s.clone) ∧
      ((s.effect e).chan 0).sent = (s.chan 0).sent := by
    rcases chan_effect s e with ⟨he, hc⟩ | ⟨⟨he, hclone⟩, hc⟩
    · rw [hc, h.sender]
      refine ⟨?_, rfl⟩
      rcases ho.inputTx_cases with ⟨-, htx⟩ | ⟨he', htx, -⟩
      · rw [htx]
      · rw [he.resolve_left (not_not_intro he'), Bool.or_true, Bool.or_true]
    · rw [hc, Function.update_self]
      rcases ho.inputTx_cases with ⟨hne, -⟩ | ⟨-, htx, -⟩
      · exact absurd he hne
      · rw [htx, hclone]
        exact ⟨rfl, rfl⟩
  constructor
  · intro hpc
    rcases ho.shutting_cases hpc with hpc | hb
    · exact hasked (h.owner hpc)
    · simp [hb]
  · intro htx
    rcases ho.inputTx_cases with ⟨-, hsame⟩ | ⟨-, -, hpc⟩
    · exact hasked (h.inputTx (hsame.symm.trans htx))
    · exact hasked (h.owner hpc)
  · rw [clone_effect]
    exact hsender.1
  · intro i hflag
    rcases (shutdown_effect_iff e i).1 hflag with hflag | he
    · exact hasked (h.flag i hflag)
    · exact hasked (h.owner (ho.shutting_of_storeFlag he))
  · intro i hi hpc
    obtain ⟨control, hc⟩ := worker_effect s e i
    refine hasked (h.left i hi ?_)
    rw [hc] at hpc
    exact hpc
  · rw [before_effect, hsender.2]
    exact h.before_isPrefix
  · intro hno
    rw [before_effect, hsender.2]
    rw [Bool.or_eq_false_iff] at hno
    exact h.before_eq hno.1

theorem Asked.step (h : Asked s) (hw : Wired s) (hs : Step s a s') : Asked s' := by
  have hlast : ∀ c, Asked (s.setChan stageCount c) := by
    intro c
    have hchan : (s.setChan stageCount c).chan 0 = s.chan 0 := chan_setChan_of_ne (by decide)
    refine ⟨h.owner, h.inputTx, ?_, h.flag, h.left, ?_, ?_⟩
    · rw [hchan]
      exact h.sender
    · rw [hchan]
      exact h.before_isPrefix
    · rw [hchan]
      exact h.before_eq
  cases hs with
  | worker j w input output hj hst => exact h.move hw hj hst
  | owner b o e ho => exact h.ownerStep ho
  | send item hr hroom =>
    have hchan : (s.accept item).chan 0 = (s.chan 0).push item := by
      show (s.setChan 0 ((s.chan 0).push item)).chan 0 = _
      exact chan_setChan_self
    refine ⟨h.owner, h.inputTx, ?_, h.flag, h.left, ?_, ?_⟩
    · rw [hchan]
      exact h.sender
    · rw [hchan]
      cases ha : s.asked with
      | true =>
        simp only [accept, ha, if_true]
        exact h.before_isPrefix.trans (List.prefix_append _ _)
      | false =>
        simp only [accept, ha, Bool.false_eq_true, if_false, h.before_eq ha]
        exact List.prefix_rfl
    · intro ha
      have ha : s.asked = false := ha
      rw [hchan]
      simp only [accept, ha, Bool.false_eq_true, if_false, h.before_eq ha]
      rfl
  | dropClone hc =>
    cases hi : s.owner.inputTx with
    | true =>
      simp only [loseClone, hi, if_true]
      refine ⟨h.owner, h.inputTx, ?_, h.flag, h.left, h.before_isPrefix, h.before_eq⟩
      rw [h.sender, hi]
      rfl
    | false =>
      simp only [loseClone, hi, Bool.false_eq_true, if_false]
      refine ⟨h.owner, h.inputTx, ?_, h.flag, h.left, ?_, ?_⟩
      · simp only [setChan, hi]
        rfl
      · simp only [chan_setChan_self]
        exact h.before_isPrefix
      · simp only [chan_setChan_self]
        exact h.before_eq
  | beginRecv => exact hlast _
  | endRecv => exact hlast _

end AskedSteps

theorem asked_of_reach {s : Net S} (h : (machine S).Reach s) : Asked s := by
  have hinv : Wired s ∧ Asked s := by
    refine h.invariant (I := fun s => Wired s ∧ Asked s) ?_ ?_
    · rintro s ⟨capacity, clone, rfl⟩
      exact ⟨wired_build S capacity clone, asked_build S capacity clone⟩
    · intro s a s' ⟨hw, ha⟩ _ hs
      exact ⟨hw.step (step_cases hs), ha.step hw (step_cases hs)⟩
  exact hinv.2

/-! ### Nothing is lost silently -/

/-- The items worker `i` has processed. -/
def processed (s : Net S) (i : ℕ) : List (T i) := (s.worker i).hist.filterMap Event.item?

/-- The values the methods of stage `i` have returned. -/
def returned (s : Net S) (i : ℕ) : List (T (i + 1)) := (s.worker i).hist.filterMap Event.out?

/-- The values worker `i` has dropped. -/
def droppedValues (s : Net S) (i : ℕ) : List (T (i + 1)) := (s.worker i).hist.filterMap Event.dropped?

/-- **Nothing is lost silently**: the items sent before the shutdown have been processed, and
every value a stage returned has been processed by the next one, is in the pipeline's output
channel or was received from it, or is counted as dropped. -/
structure Accounted (s : Net S) : Prop where
  first : s.before <+: s.processed 0
  next : ∀ i, i + 1 < stageCount → (s.returned i).Perm (s.processed (i + 1) ++ s.droppedValues i)
  last : (s.returned 3).Perm (((s.chan 4).received ++ (s.chan 4).queue) ++ s.droppedValues 3)
  dropped : ∀ i < stageCount, (s.droppedValues i).length = (s.worker i).metrics.droppedCount

/-- Whether worker `i` has taken what it is to take before it may leave its loop: what was
sent before the shutdown, or what is queued. -/
def drained (s : Net S) : ℕ → Bool
  | 0 => decide (s.before.length ≤ (s.chan 0).received.length)
  | i + 1 => (s.chan (i + 1)).queue.isEmpty

/-- Whether what worker `i` is about to send will be taken: if it goes in, the next worker is
still in its loop. -/
def heard (s : Net S) (i : ℕ) : Bool :=
  decide (i + 1 = stageCount) || (s.worker (i + 1)).pc.inLoop ||
    !((s.chan (i + 1)).receiver && decide (s.chan (i + 1)).HasRoom)

/-- **What it takes of a step for nothing to be lost**: a worker that finds its shutdown flag
set has taken what it is to take; a value goes in a channel only if the next worker is in its
loop, and what `flush` returned finds the receiver there; `metrics.reset()` forgets no drop;
and no `join` finds its deadline passed. -/
def graceful (s : Net S) : Act (T 0) → Bool
  | .worker i => match (s.worker i).pc with
    | .checkShutdown => !(s.worker i).control.shutdown || s.drained i
    | .sendOrDrop _ => s.heard i
    | .send _ => (s.chan (i + 1)).receiver && s.heard i
    | .metricsReset => decide ((s.worker i).metrics.droppedCount = 0)
    | _ => true
  | .owner a => s.owner.inTime a
  | _ => true

/-- `graceful`, as a condition on the steps of a run. -/
abbrev Graceful (s : Net S) (a : Act (T 0)) : Prop := graceful s a = true

/-- The invariant of the graceful runs. -/
structure Sound (s : Net S) : Prop where
  refused : ∀ i < stageCount, (s.worker i).hist.filterMap Event.refused? = []
  dropped : ∀ i < stageCount,
    (sinceReset (s.worker i).hist).filterMap Event.dropped? = s.droppedValues i
  /-- Out of its loop, the first worker has taken what was sent before the shutdown. -/
  first : (s.worker 0).pc.inLoop = false → s.before.length ≤ (s.chan 0).received.length
  /-- Out of its loop, a later worker has taken all there is, and will be. -/
  next : ∀ i, i + 1 < stageCount → (s.worker (i + 1)).pc.inLoop = false →
    (s.chan (i + 1)).received = (s.chan (i + 1)).sent

theorem sound_build (S : ∀ i, Stage (T i) (T (i + 1))) (capacity : ℕ) (clone : Bool) :
    Sound (build S capacity clone) where
  refused _ _ := rfl
  dropped _ _ := rfl
  first := by rintro ⟨⟩
  next := by rintro i - ⟨⟩

section SoundSteps

variable {s s' : Net S} {a : Act (T 0)}

/-- A worker in its loop has its receiver, so what is not queued has been received. -/
theorem Wired.received_eq (hw : Wired s) {i : ℕ} (hi : i < stageCount)
    (hpc : (s.worker i).pc.isReturned = false) (hq : (s.chan i).queue = []) :
    (s.chan i).received = (s.chan i).sent := by
  have hr : (s.chan i).receiver = true := by rw [(hw.reads i hi).receiver_eq, hpc]; rfl
  rw [← (hw.fifo i).eq_sent hr, hq, List.append_nil]

theorem Sound.move (h : Sound s) (hw : Wired s) (ha : Asked s) {j : ℕ} {w : Worker (S j)}
    {input : Chan (T j)} {output : Chan (T (j + 1))} (hx : Graceful s (.worker j))
    (hj : j < stageCount)
    (hst : Worker.Step (s.worker j) (s.chan j) (s.chan (j + 1)) w input output) :
    Sound (s.move j w input output) where
  refused := by
    intro i hi
    by_cases hij : i = j
    · subst hij
      rw [worker_move_self]
      refine hst.refused_eq_nil ?_ (h.refused i hi)
      intro y hy
      simp only [Graceful, graceful, hy, Bool.and_eq_true] at hx
      exact hx.1
    · rw [worker_move_of_ne hij]
      exact h.refused i hi
  dropped := by
    intro i hi
    by_cases hij : i = j
    · subst hij
      rw [droppedValues, worker_move_self]
      refine hst.dropped_eq (hw.kept i) ?_ (h.dropped i hi)
      intro hpc
      simpa only [Graceful, graceful, hpc, decide_eq_true_eq] using hx
    · rw [droppedValues, worker_move_of_ne hij]
      exact h.dropped i hi
  first := by
    cases j with
    | succ j =>
      rw [worker_move_of_ne (by omega), chan_move_of_ne (by omega) (by omega)]
      exact h.first
    | zero =>
      rw [worker_move_self, chan_move_self]
      intro hout
      cases hin : (s.worker 0).pc.inLoop with
      | false =>
        rw [hst.received_eq hin]
        exact h.first hin
      | true =>
        obtain ⟨-, hr, ⟨hpc, hflag⟩ | ⟨hq, -⟩⟩ := hst.leave_cases hin hout
        · rw [hr]
          have hdrained : s.drained 0 = true := by simpa [Graceful, graceful, hpc, hflag] using hx
          exact of_decide_eq_true hdrained
        · rw [hr, hw.received_eq hj (Pc.isReturned_of_inLoop hin) hq]
          exact ha.before_isPrefix.length_le
  next := by
    intro i hi
    by_cases hij : i + 1 = j
    · subst hij
      rw [worker_move_self, chan_move_self, hst.sameSender_input.sent_eq]
      intro hout
      cases hin : (s.worker (i + 1)).pc.inLoop with
      | false =>
        rw [hst.received_eq hin]
        exact h.next i hi hin
      | true =>
        obtain ⟨-, hr, hleave⟩ := hst.leave_cases hin hout
        have hq : (s.chan (i + 1)).queue = [] := by
          rcases hleave with ⟨hpc, hflag⟩ | ⟨hq, -⟩
          · simpa [Graceful, graceful, hpc, hflag, drained] using hx
          · exact hq
        rw [hr]
        exact hw.received_eq hi (Pc.isReturned_of_inLoop hin) hq
    · rw [worker_move_of_ne hij]
      by_cases hij' : i = j
      · -- the worker before sends: only to a worker in its loop
        subst hij'
        rw [chan_move_succ, hst.sameReceiver_output.received_eq]
        intro hout
        rcases hst.sent_cases with hsent | ⟨hr, hroom, y, hpc⟩
        · rw [hsent]
          exact h.next i hi hout
        · have hheard : s.heard i = true := by
            rcases hpc with hpc | hpc
            · simpa only [Graceful, graceful, hpc] using hx
            · simp only [Graceful, graceful, hpc, Bool.and_eq_true] at hx
              exact hx.2
          have hne : i + 1 ≠ stageCount := Nat.ne_of_lt hi
          simp only [heard, hne, hout, hr, hroom, decide_false, decide_true, Bool.and_self,
            Bool.not_true, Bool.or_self, Bool.false_eq_true] at hheard
      · rw [chan_move_of_ne hij (by omega)]
        exact h.next i hi

theorem Sound.outside (h : Sound s) (ho : Outside s s')
    (hb : (s.worker 0).pc.inLoop = false → s'.before = s.before) : Sound s' where
  refused := by
    intro i hi
    obtain ⟨control, hc⟩ := ho.worker i
    rw [hc]
    exact h.refused i hi
  dropped := by
    intro i hi
    obtain ⟨control, hc⟩ := ho.worker i
    rw [droppedValues, hc]
    exact h.dropped i hi
  first := by
    obtain ⟨control, hc⟩ := ho.worker 0
    rw [hc, (ho.receiver 0 (by decide)).received_eq]
    intro hpc
    rw [hb hpc]
    exact h.first hpc
  next := by
    intro i hi
    obtain ⟨control, hc⟩ := ho.worker (i + 1)
    rw [hc, (ho.receiver (i + 1) hi).received_eq, (ho.sender i).sent_eq]
    exact h.next i hi

theorem Sound.step (h : Sound s) (hw : Wired s) (ha : Asked s) (hx : Graceful s a) (hs : Step s a s') :
    Sound s' := by
  have hout := hs.outside
  cases hs with
  | worker j w input output hj hst => exact h.move hw ha hx hj hst
  | owner b o e ho =>
    rcases hout with ⟨_, _, _, _, hb, -⟩ | hout
    · cases hb
    · exact h.outside hout fun _ => before_effect s e
  | send item hr hroom =>
    rcases hout with ⟨_, _, _, _, hb, -⟩ | hout
    · cases hb
    · refine h.outside hout fun hpc => ?_
      simp only [accept, ha.left 0 (by decide) hpc, if_true]
  | dropClone hc =>
    rcases hout with ⟨_, _, _, _, hb, -⟩ | hout
    · cases hb
    · refine h.outside hout fun _ => ?_
      cases hi : s.owner.inputTx <;> simp [loseClone, hi, setChan]
  | beginRecv =>
    rcases hout with ⟨_, _, _, _, hb, -⟩ | hout
    · cases hb
    · exact h.outside hout fun _ => rfl
  | endRecv =>
    rcases hout with ⟨_, _, _, _, hb, -⟩ | hout
    · cases hb
    · exact h.outside hout fun _ => rfl

/-- When all workers have returned, everything is accounted for. -/
theorem Sound.accounted (h : Sound s) (hw : Wired s) (ha : Asked s)
    (hlast : (s.chan 4).receiver = true)
    (hret : ∀ i < stageCount, (s.worker i).pc.isReturned = true) : Accounted s := by
  have hpc : ∀ i < stageCount, (s.worker i).pc = .returned :=
    fun i hi => Pc.eq_returned (hret i hi)
  -- nothing is in hand
  have htook : ∀ i < stageCount, s.processed i = (s.chan i).received := by
    intro i hi
    have hflow := (hw.kept i).flow.took_eq
    simp only [hpc i hi, ← (hw.reads i hi).took_eq, Pc.item, Option.toList_none,
      List.append_nil] at hflow
    exact hflow.symm
  have hperm : ∀ i < stageCount, (s.returned i).Perm ((s.chan (i + 1)).sent ++ s.droppedValues i) := by
    intro i hi
    have hflow := (hw.kept i).flow.out_eq
    simp only [hpc i hi, Pc.result, Option.toList_none, List.append_nil] at hflow
    rw [returned, hflow, (hw.writes i hi).placed_eq]
    have := handled_perm (s.worker i).hist
    rw [h.refused i hi, List.append_nil] at this
    exact this
  constructor
  · rw [htook 0 (by decide)]
    exact List.prefix_of_prefix_length_le ha.before_isPrefix (hw.fifo 0).received_isPrefix
      (h.first (by rw [hpc 0 (by decide)]; rfl))
  · intro i hi
    rw [htook (i + 1) hi, h.next i hi (by rw [hpc (i + 1) hi]; rfl)]
    exact hperm i (Nat.lt_of_succ_lt hi)
  · rw [(hw.fifo 4).eq_sent hlast]
    exact hperm 3 (by decide)
  · intro i hi
    have hcount := (hw.kept i).counts.dropped
    rw [hpc i hi, h.dropped i hi] at hcount
    exact hcount.symm

end SoundSteps

/-- The last channel is touched by the last worker and by the receiving side only. -/
theorem Step.last_cases {s s' : Net S} {a : Act (T 0)} (hs : Step s a s') :
    (∃ w input output, a = .worker 3 ∧
      Worker.Step (s.worker 3) (s.chan 3) (s.chan stageCount) w input output ∧
      s' = s.move 3 w input output) ∨
    a = .beginRecv ∧ s' = s.setChan stageCount (s.chan stageCount).beginRecv ∨
    a = .endRecv ∧ s' = s.setChan stageCount (s.chan stageCount).endRecv.2 ∨
    a ≠ .worker 3 ∧ s'.chan stageCount = s.chan stageCount := by
  cases hs with
  | worker j w input output hj hst =>
    by_cases hj' : j = 3
    · subst hj'
      exact .inl ⟨w, input, output, rfl, hst, rfl⟩
    · refine .inr (.inr (.inr ⟨?_, chan_move_of_ne (Nat.ne_of_gt hj) ?_⟩))
      · rintro ⟨⟩
        exact hj' rfl
      · show 4 ≠ j + 1
        omega
  | owner b o e ho =>
    refine .inr (.inr (.inr ⟨by rintro ⟨⟩, ?_⟩))
    show (s.effect e).chan stageCount = s.chan stageCount
    rcases chan_effect s e with ⟨-, hc⟩ | ⟨-, hc⟩
    · rw [hc]
    · rw [hc]
      exact Function.update_of_ne (by decide) ..
  | send item hr hroom =>
    refine .inr (.inr (.inr ⟨by rintro ⟨⟩, ?_⟩))
    show (s.setChan 0 ((s.chan 0).push item)).chan stageCount = s.chan stageCount
    exact chan_setChan_of_ne (by decide)
  | dropClone hc =>
    refine .inr (.inr (.inr ⟨by rintro ⟨⟩, ?_⟩))
    cases hi : s.owner.inputTx with
    | true => simp only [loseClone, hi, if_true]
    | false =>
      simp only [loseClone, hi, Bool.false_eq_true, if_false]
      exact chan_setChan_of_ne (by decide)
  | beginRecv => exact .inr (.inl ⟨rfl, rfl⟩)
  | endRecv => exact .inr (.inr (.inl ⟨rfl, rfl⟩))

/-- The owner keeps the receiver of the pipeline's output. -/
theorem output_receiver {s : Net S} (h : (machine S).Reach s) :
    (s.chan stageCount).receiver = true := by
  refine h.invariant (I := fun s => (s.chan stageCount).receiver = true) ?_ ?_
  · rintro s ⟨capacity, clone, rfl⟩
    rfl
  · intro s a s' hr _ hs
    rcases (step_cases hs).last_cases with ⟨w, input, output, -, hst, rfl⟩ | ⟨-, rfl⟩ | ⟨-, rfl⟩ | ⟨-, hc⟩
    · show ((s.move 3 w input output).chan (3 + 1)).receiver = true
      rw [chan_move_succ, hst.sameReceiver_output.receiver_eq]
      exact hr
    · rw [chan_setChan_self]
      exact hr
    · rw [chan_setChan_self, (Chan.endRecv_sameSender _).2]
      exact hr
    · rw [hc]
      exact hr

/-- **When nothing is lost silently**: in every graceful run, once a `join()` has returned
`Ok`. -/
theorem accounted_of_graceful {s : Net S} (h : Machine.ReachBy (machine S) Graceful s)
    (hok : .ok () ∈ s.owner.joins) : Accounted s := by
  have hw := wired_of_reach h.reach
  have ha := asked_of_reach h.reach
  have hsound : Sound s := by
    have hinv : (Wired s ∧ Asked s) ∧ Sound s := by
      refine h.invariant (I := fun s => (Wired s ∧ Asked s) ∧ Sound s) ?_ ?_
      · rintro s ⟨capacity, clone, rfl⟩
        exact ⟨⟨wired_build S capacity clone, asked_build S capacity clone⟩, sound_build S capacity clone⟩
      · intro s a s' ⟨⟨hw, ha⟩, hi⟩ hx hs
        have hs := step_cases hs
        exact ⟨⟨hw.step hs, ha.step hw hs⟩, hi.step hw ha hx hs⟩
    exact hinv.2
  have hin : Machine.ReachBy (machine S) InTime s := by
    refine h.mono fun s a hx => ?_
    cases a with
    | owner b => exact hx
    | _ => rfl
  exact hsound.accounted hw ha (output_receiver h.reach) (returned_of_ok hin hok)

/-- Four stages that pass on what they get. -/
def passStages : ℕ → Stage ℕ ℕ := fun _ => .identity

/-- An item is sent and comes all the way through before the shutdown. -/
theorem accounted_of_graceful_pass : ∃ s : Net (T := fun _ => ℕ) passStages,
    s.asked = true ∧ s.before = [5] ∧ .ok () ∈ s.owner.joins ∧ Accounted s := by
  obtain ⟨s, hs, hp⟩ := Machine.exists_reachBy_of_runBy
    (M := machine (T := fun _ => ℕ) passStages) (C := Graceful) (s := build passStages 1 false)
    ⟨1, false, rfl⟩
    (List.flatten [[.send 5], .replicate 10 (.worker 0), .replicate 10 (.worker 1),
      .replicate 10 (.worker 2), .replicate 10 (.worker 3), [.owner (.call .shutdown)],
      .replicate 11 (.owner (.step false)), .replicate 6 (.worker 0), .replicate 6 (.worker 1),
      .replicate 6 (.worker 2), .replicate 6 (.worker 3), [.owner (.call .join)],
      .replicate 14 (.owner (.step false))])
    (fun s => s.toLifecycle.lastOk && decide (s.asked = true ∧ s.before = [5])) (by decide +kernel)
  rw [Bool.and_eq_true] at hp
  obtain ⟨hasked, hbefore⟩ := of_decide_eq_true hp.2
  have hok := Lifecycle.ok_mem_of_lastOk hp.1
  exact ⟨s, hasked, hbefore, hok, accounted_of_graceful hs hok⟩

/-- An item is sent, and `shutdown()` called before the first worker looks: the worker leaves
its loop, drops its input, and `join()` returns `Ok`. -/
theorem not_forall_accounted : ¬ ∀ (S : ℕ → Stage ℕ ℕ) (s : Net (T := fun _ => ℕ) S),
    Machine.ReachBy (machine (T := fun _ => ℕ) S) InTime s → s.asked = true →
    .ok () ∈ s.owner.joins → Accounted s := by
  intro h
  obtain ⟨s, hs, hp⟩ := Machine.exists_reachBy_of_runBy
    (M := machine (T := fun _ => ℕ) passStages) (C := InTime) (s := build passStages 1 false)
    ⟨1, false, rfl⟩
    (List.flatten [[.send 5, .owner (.call .shutdown)], .replicate 11 (.owner (.step false)),
      .replicate 7 (.worker 0), .replicate 7 (.worker 1), .replicate 7 (.worker 2),
      .replicate 7 (.worker 3), [.owner (.call .join)], .replicate 14 (.owner (.step false))])
    (fun s => s.toLifecycle.lastOk &&
      decide (s.asked = true ∧ s.before = [5] ∧ s.processed 0 = [])) (by decide +kernel)
  rw [Bool.and_eq_true] at hp
  obtain ⟨hasked, hbefore, hprocessed⟩ := of_decide_eq_true hp.2
  have hfirst := (h passStages s hs hasked (Lifecycle.ok_mem_of_lastOk hp.1)).first
  rw [hbefore, hprocessed] at hfirst
  exact absurd hfirst (by decide)

/-! ### Someone can always move -/

/-- Whether the step is other than receiving from a pipeline that is to shut down. -/
def noRecv (s : Net S) : Act (T 0) → Bool
  | .beginRecv | .endRecv => !s.asked
  | _ => true

/-- `noRecv`, as a condition on the steps of a run. -/
abbrev NoRecv (s : Net S) (a : Act (T 0)) : Prop := noRecv s a = true

/-- **What it takes of a step for nobody to get stuck**: when the last stage's `flush` returns
a value, there is room for it in the pipeline's output channel. -/
def flushFits (s : Net S) : Act (T 0) → Bool
  | .worker 3 => match (s.worker 3).pc with
    | .flush => ((S 3).flush (s.worker 3).stage).2.isNone || decide (s.chan stageCount).HasRoom
    | _ => true
  | _ => true

/-- `flushFits`, as a condition on the steps of a run. -/
abbrev FlushFits (s : Net S) (a : Act (T 0)) : Prop := flushFits s a = true

/-- The last worker's `send` is not blocked. -/
def Unblocked (s : Net S) : Prop := ∀ y, (s.worker 3).pc = .send y → (s.chan stageCount).HasRoom

theorem Step.unblocked {s s' : Net S} {a : Act (T 0)} (hs : Step s a s') (ha : Asked s)
    (hrecv : NoRecv s a) (hfits : FlushFits s a) (h : Unblocked s) : Unblocked s' := by
  -- out of its loop, the last worker has nobody to receive from it
  have hasked : ∀ y, (s.worker 3).pc = .send y → s.asked = true :=
    fun y hpc => ha.left 3 (by decide) (by rw [hpc]; rfl)
  intro y hpc
  rcases hs.last_cases with ⟨w, input, output, rfl, hst, rfl⟩ | ⟨rfl, rfl⟩ | ⟨rfl, rfl⟩ | ⟨hne, hc⟩
  · rw [worker_move_self] at hpc
    obtain ⟨hflush, hy, hout⟩ := hst.send_cases hpc
    show ((s.move 3 w input output).chan (3 + 1)).HasRoom
    rw [chan_move_succ, hout]
    simpa [FlushFits, flushFits, hflush, hy] using hfits
  · have hno : s.asked = false := by simpa [NoRecv, noRecv] using hrecv
    rw [hasked y hpc] at hno
    cases hno
  · have hno : s.asked = false := by simpa [NoRecv, noRecv] using hrecv
    rw [hasked y hpc] at hno
    cases hno
  · rw [hc]
    refine h y ?_
    rcases hs.outside with ⟨j, w, input, output, rfl, -, -, rfl⟩ | ho
    · rwa [worker_move_of_ne fun h3 => hne (by rw [h3])] at hpc
    · obtain ⟨control, hw⟩ := ho.worker 3
      rwa [hw] at hpc

theorem unblocked_of_flushFits {s : Net S}
    (h : Machine.ReachBy (machine S) (fun s a => NoRecv s a ∧ FlushFits s a) s) : Unblocked s := by
  have hinv : (Wired s ∧ Asked s) ∧ Unblocked s := by
    refine h.invariant (I := fun s => (Wired s ∧ Asked s) ∧ Unblocked s) ?_ ?_
    · rintro s ⟨capacity, clone, rfl⟩
      exact ⟨⟨wired_build S capacity clone, asked_build S capacity clone⟩, by rintro y ⟨⟩⟩
    · intro s a s' ⟨⟨hw, ha⟩, hu⟩ hx hs
      have hs := step_cases hs
      exact ⟨⟨hw.step hs, ha.step hw hs⟩, hs.unblocked ha hx.1 hx.2 hu⟩
  exact hinv.2

/-- A worker that has not returned can move, unless its `send` is blocked. -/
theorem isSome_step_worker {s : Net S} {i : ℕ} (hi : i < stageCount)
    (hret : (s.worker i).pc.isReturned = false)
    (hsend : ∀ y, (s.worker i).pc = .send y →
      (s.chan (i + 1)).receiver = false ∨ (s.chan (i + 1)).HasRoom) :
    (s.step (.worker i)).isSome = true := by
  simp only [step, hi, if_true, Option.isSome_map]
  exact Worker.isSome_step hret hsend

/-- A worker whose successor has returned can move until it has returned itself. -/
theorem isSome_step_of_next {s : Net S} (hw : Wired s) {i : ℕ} (hi : i + 1 < stageCount)
    (hnext : (s.worker (i + 1)).pc.isReturned = true) (hret : (s.worker i).pc.isReturned = false) :
    (s.step (.worker i)).isSome = true := by
  refine isSome_step_worker (Nat.lt_of_succ_lt hi) hret fun y _ => .inl ?_
  rw [(hw.reads (i + 1) hi).receiver_eq, hnext]
  rfl

/-- The flag of stage `i` is set once a shutdown has come to it. -/
def Signalled (s : Net S) : Prop :=
  s.asked = true → ∀ i < stageCount, (s.worker i).control.shutdown = true ∨ s.owner.pc.pending i = true

/-- A shutdown flag that is set stays set. -/
theorem Step.shutdown_mono {s s' : Net S} {a : Act (T 0)} (hs : Step s a s') {i : ℕ}
    (h : (s.worker i).control.shutdown = true) : (s'.worker i).control.shutdown = true := by
  cases hs with
  | worker j w input output hj hst =>
    by_cases hij : i = j
    · subst hij
      rw [worker_move_self, hst.shutdown_eq]
      exact h
    · rw [worker_move_of_ne hij]
      exact h
  | owner b o e ho => exact (shutdown_effect_iff e _).2 (.inl h)
  | send item hr hroom => exact h
  | dropClone hc => cases hi : s.owner.inputTx <;> simpa [loseClone, hi, setChan] using h
  | beginRecv => exact h
  | endRecv => exact h

theorem Step.signalled {s s' : Net S} {a : Act (T 0)} (hs : Step s a s') (h : Signalled s) :
    Signalled s' := by
  intro hasked i hi
  by_cases hflag : (s.worker i).control.shutdown = true
  · exact .inl (hs.shutdown_mono hflag)
  have hpend : s.asked = true → s.owner.pc.pending i = true := fun ha => (h ha i hi).resolve_left hflag
  cases hs with
  | worker j w input output hj hst => exact .inr (hpend hasked)
  | owner b o e ho =>
    by_cases ha : s.asked = true
    · rcases ho.pending_cases hi (hpend ha) with hp | rfl
      · exact .inr hp
      · left
        show ((s.signal i fun control => control.storeFlag .shutdown).worker i).control.shutdown = true
        rw [worker_signal_self]
        simp
    · -- this is the call
      have hb : b = .call .shutdown := by simpa [ha] using hasked
      subst hb
      right
      cases ho with
      | call c hidle => rfl
  | send item hr hroom => exact .inr (hpend hasked)
  | dropClone hc =>
    cases hi : s.owner.inputTx <;> simp only [loseClone, hi, if_true, Bool.false_eq_true, if_false] at hasked ⊢ <;>
      exact .inr (hpend hasked)
  | beginRecv => exact .inr (hpend hasked)
  | endRecv => exact .inr (hpend hasked)

/-- When `shutdown()` has returned, every flag is set. -/
theorem flag_of_reach {s : Net S} (h : (machine S).Reach s) (hasked : s.asked = true)
    (hpc : s.owner.pc.shutting = false) : ∀ i < stageCount, (s.worker i).control.shutdown = true := by
  have hs : Signalled s := by
    refine h.invariant (I := Signalled) ?_ fun s a s' hi _ hs => (step_cases hs).signalled hi
    rintro s ⟨capacity, clone, rfl⟩ ⟨⟩
  intro i hi
  refine (hs hasked i hi).resolve_right ?_
  intro hp
  cases hpc' : s.owner.pc with
  | storeCommand cmd k | storeFlag cmd k => cases cmd <;> simp_all
  | _ => simp_all

/-- Whether it is a worker's step. -/
def Act.isWorker {ι : Type u} : Act ι → Bool
  | .worker _ => true
  | _ => false

/-- How many steps the workers have left, at most, once their flags are set. -/
def stepsLeft (s : Net S) : ℕ := ∑ i ∈ Finset.range stageCount, (s.worker i).pc.stepsLeft

theorem Step.stepsLeft_le {s s' : Net S} {a : Act (T 0)} (hs : Step s a s')
    (hflag : ∀ i < stageCount, (s.worker i).control.shutdown = true) :
    (if a.isWorker then 1 else 0) + s'.stepsLeft ≤ s.stepsLeft := by
  have houtside : ∀ u : Net S, (∀ i, ∃ control, u.worker i = { s.worker i with control := control }) →
      0 + u.stepsLeft ≤ s.stepsLeft := by
    intro u hu
    have heq : u.stepsLeft = s.stepsLeft := by
      refine Finset.sum_congr rfl fun i _ => ?_
      obtain ⟨control, hw⟩ := hu i
      rw [hw]
    rw [heq, Nat.zero_add]
  cases hs with
  | worker j w input output hj hst =>
    have hlt : (s.move j w input output).stepsLeft < s.stepsLeft := by
      refine Finset.sum_lt_sum ?_ ⟨j, Finset.mem_range.mpr hj, ?_⟩
      · intro i _
        by_cases hij : i = j
        · subst hij
          rw [worker_move_self]
          exact Nat.le_of_lt (hst.stepsLeft_lt (hflag i hj))
        · rw [worker_move_of_ne hij]
      · rw [worker_move_self]
        exact hst.stepsLeft_lt (hflag j hj)
    rw [Act.isWorker, if_pos rfl, Nat.add_comm]
    exact hlt
  | owner b o e ho => exact houtside _ (worker_effect s e)
  | send item hr hroom => exact houtside _ fun _ => ⟨_, rfl⟩
  | dropClone hc => exact houtside _ (worker_loseClone s)
  | beginRecv => exact houtside _ fun _ => ⟨_, rfl⟩
  | endRecv => exact houtside _ fun _ => ⟨_, rfl⟩

/-- **Once the flags are set the workers come to an end**: whatever else happens, they take no
more steps than they have left. -/
theorem countP_add_stepsLeft_le {s s' : Net S} {as : List (Act (T 0))}
    (hflag : ∀ i < stageCount, (s.worker i).control.shutdown = true)
    (hr : (machine S).run s as = some s') : as.countP Act.isWorker + s'.stepsLeft ≤ s.stepsLeft := by
  induction as generalizing s with
  | nil =>
    cases hr
    simp
  | cons a as ih =>
    obtain ⟨u, hu, hr⟩ := Option.bind_eq_some_iff.mp hr
    have hs : Step s a u := step_cases hu
    have hle := hs.stepsLeft_le hflag
    have hrest := ih (fun i hi => hs.shutdown_mono (hflag i hi)) hr
    rw [List.countP_cons]
    omega

/-- Where the last worker is not blocked, someone can move until all have returned. -/
theorem Unblocked.progress {s : Net S} (hu : Unblocked s) (hw : Wired s)
    (hrun : ∃ i < stageCount, (s.worker i).pc.isReturned = false) :
    ∃ i < stageCount, (s.step (.worker i)).isSome = true := by
  by_contra hno
  have hstuck : ∀ i < stageCount, ¬ (s.step (.worker i)).isSome = true :=
    fun i hi hsome => hno ⟨i, hi, hsome⟩
  -- the last worker has returned, so the one before it has, and so on
  have hlast : (s.worker 3).pc.isReturned = true := by
    by_contra hret
    refine hstuck 3 (by decide) (isSome_step_worker (by decide) (Bool.eq_false_iff.mpr hret) ?_)
    intro y hpc
    exact .inr (hu y hpc)
  have hprev : ∀ i, i + 1 < stageCount → (s.worker (i + 1)).pc.isReturned = true →
      (s.worker i).pc.isReturned = true := by
    intro i hi hnext
    by_contra hret
    exact hstuck i (Nat.lt_of_succ_lt hi) (isSome_step_of_next hw hi hnext (Bool.eq_false_iff.mpr hret))
  have h₂ := hprev 2 (by decide) hlast
  have h₁ := hprev 1 (by decide) h₂
  have h₀ := hprev 0 (by decide) h₁
  obtain ⟨i, hi, hret⟩ := hrun
  match i, hi with
  | 0, _ => rw [h₀] at hret; cases hret
  | 1, _ => rw [h₁] at hret; cases hret
  | 2, _ => rw [h₂] at hret; cases hret
  | 3, _ => rw [hlast] at hret; cases hret

/-- **Shutdown cannot deadlock when what the last stage flushes finds room**: as long as a
worker has not returned, some worker can move; and once `shutdown()` has returned, whatever
else happens, the workers have only so many steps left. So none of them is blocked for
ever. -/
theorem progress_of_flushFits {s : Net S}
    (h : Machine.ReachBy (machine S) (fun s a => NoRecv s a ∧ FlushFits s a) s)
    (hasked : s.asked = true) :
    ((∃ i < stageCount, (s.worker i).pc.isReturned = false) →
      ∃ i < stageCount, (s.step (.worker i)).isSome = true) ∧
    (s.owner.pc.shutting = false → ∀ as s', (machine S).run s as = some s' →
      as.countP Act.isWorker + s'.stepsLeft ≤ s.stepsLeft) := by
  constructor
  · exact (unblocked_of_flushFits h).progress (wired_of_reach h.reach)
  · intro hpc as s' hr
    exact countP_add_stepsLeft_le (flag_of_reach h.reach hasked hpc) hr

/-- A stage that returns a value whenever it is ticked or flushed. -/
def chattyStage : Stage ℕ ℕ where
  State := Unit
  init := ()
  process _ x := ((), some x)
  tick _ := ((), some 0)
  reset _ := ()
  flush _ := ((), some 1)

/-- The last stage returns a value whenever it is ticked or flushed. -/
def chattyStages : ℕ → Stage ℕ ℕ
  | 3 => chattyStage
  | _ => .identity

/-- What is flushed finds room: the last worker has sent it and returns while the others
have not begun. -/
theorem progress_of_flushFits_chatty : ∃ s : Net (T := fun _ => ℕ) chattyStages,
    s.asked = true ∧ (s.chan stageCount).queue = [1] ∧ (s.worker 0).pc.isReturned = false ∧
      ∃ i < stageCount, (s.step (.worker i)).isSome = true := by
  obtain ⟨s, hs, hp⟩ := Machine.exists_reachBy_of_runBy
    (M := machine (T := fun _ => ℕ) chattyStages) (C := fun s a => NoRecv s a ∧ FlushFits s a)
    (s := build chattyStages 1 false) ⟨1, false, rfl⟩
    (List.flatten [[.owner (.call .shutdown)], .replicate 11 (.owner (.step false)),
      .replicate 9 (.worker 3)])
    (fun s => decide (s.asked = true ∧ (s.chan stageCount).queue = [1] ∧
      (s.worker 0).pc.isReturned = false)) (by decide +kernel)
  obtain ⟨hasked, hqueue, hret⟩ := of_decide_eq_true hp
  exact ⟨s, hasked, hqueue, hret, (progress_of_flushFits hs hasked).1 ⟨0, by decide, hret⟩⟩

/-- The last stage's `tick` has filled the output channel; at the shutdown its `flush` returns a
value, and when the other workers have returned nobody can move. -/
theorem not_forall_progress : ¬ ∀ (S : ℕ → Stage ℕ ℕ) (s : Net (T := fun _ => ℕ) S),
    Machine.ReachBy (machine (T := fun _ => ℕ) S) NoRecv s → s.asked = true →
    (∃ i < stageCount, (s.worker i).pc.isReturned = false) →
    ∃ i < stageCount, (s.step (.worker i)).isSome = true := by
  intro h
  obtain ⟨s, hs, hp⟩ := Machine.exists_reachBy_of_runBy
    (M := machine (T := fun _ => ℕ) chattyStages) (C := NoRecv)
    (s := build chattyStages 1 false) ⟨1, false, rfl⟩
    (List.flatten [.replicate 9 (.worker 3), [.owner (.call .shutdown)],
      .replicate 11 (.owner (.step false)), .replicate 7 (.worker 0), .replicate 7 (.worker 1),
      .replicate 7 (.worker 2), .replicate 3 (.worker 3)])
    (fun s => decide (s.asked = true ∧ (s.worker 3).pc.isReturned = false ∧
      ∀ i < stageCount, (s.step (.worker i)).isSome = false)) (by decide +kernel)
  obtain ⟨hasked, hret, hstuck⟩ := of_decide_eq_true hp
  obtain ⟨i, hi, hsome⟩ := h chattyStages s hs hasked ⟨3, by decide, hret⟩
  rw [hstuck i hi] at hsome
  cases hsome

end Net

end SensorBridge.Pipeline
