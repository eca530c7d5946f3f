import SensorBridge.Pipeline.MultiStage

/-!
# The pipeline and the chain

What four threads deliver is what `Chain(Chain(Chain(S1, S2), S3), S4)` outputs when it
is fed the sent items one by one, up to what is still on its way (`refines_chain`). It
takes stages that add nothing of their own: `tick` and `flush` return `None`
(`Stage.Mute`), and a `tick`, which `process` never sees in a chain, changes nothing that
`process` could show (`Stage.Quiet`; a tick that does, `not_forall_refines`). No reset may
be called, and no value may have been dropped.

The argument is one worker at a time: a worker of a mute stage sends nothing but results
(`Worker.Mute`), so that the next worker takes some of these; when the stage is quiet, they
are its outputs on the items processed (`Tracks`), and what was put in the output channel is
the first of them (`placed_isPrefix`).
-/

namespace SensorBridge

open Foundation Foundation.Transducer

universe u

/-- A stage that gives nothing but what `process` returns: `tick` and `flush` return `None`. -/
structure Stage.Mute {ι ο : Type u} (S : Stage ι ο) : Prop where
  tick_none : ∀ st, (S.tick st).2 = none
  flush_none : ∀ st, (S.flush st).2 = none

/-- A stage that adds nothing of its own: `tick` and `flush` return `None`, and a `tick`
makes no difference to what `process` will return. -/
structure Stage.Quiet {ι ο : Type u} (S : Stage ι ο) : Prop extends S.Mute where
  tick_silent : ∀ st, Same S.process (S.tick st).1 st

/-- A stage that keeps the default methods adds nothing. -/
theorem Stage.Quiet.ofProcess {ι ο σ : Type u} (init : σ) (process : σ → ι → σ × Option ο)
    (reset : σ → σ) : (Stage.ofProcess init process reset).Quiet where
  tick_none _ := rfl
  flush_none _ := rfl
  tick_silent _ _ := rfl

namespace Pipeline

open Channel

namespace Pc

variable {ι ο : Type u}

/-- Whether the worker is carrying out a reset. -/
@[simp] def resetting : Pc ι ο → Bool
  | stageReset | metricsReset | ackCommand | ackFlag => true
  | _ => false

/-- Whether the worker has a value of `flush` in hand. -/
@[simp] def sending : Pc ι ο → Bool
  | send _ => true
  | _ => false

end Pc

/-! ### One worker -/

/-- A worker that has not been told to reset. -/
structure Worker.Undisturbed {ι ο : Type u} {S : Stage ι ο} (w : Worker S) : Prop where
  command : w.control.command ≠ .reset
  pc : w.pc.resetting = false
  hist : .metricsReset ∉ w.hist

/-- **A worker sends nothing but results**: what `process` returned. -/
structure Worker.Mute {ι ο : Type u} {S : Stage ι ο} (w : Worker S) : Prop where
  /-- There are no others. -/
  extra : w.hist.filterMap Event.extra? = []
  /-- None of them is sent by `output.send`. -/
  sending : w.pc.sending = false

/-- **A worker does what its stage does**: its results are the stage's outputs on the items
processed, and will be. -/
structure Worker.Tracks {ι ο : Type u} {S : Stage ι ο} (w : Worker S) : Prop where
  /-- So far. -/
  result_eq : w.hist.filterMap Event.result? = S.outputs (w.hist.filterMap Event.item?)
  /-- From now on. -/
  same : w.pc.inLoop = true →
    Same S.process w.stage (after S.process S.init (w.hist.filterMap Event.item?))
  /-- What was sent was put in the channel, until something is dropped. -/
  placed : w.metrics.droppedCount = 0 →
    w.hist.filterMap Event.placed? = w.hist.filterMap Event.handled? ∨
    w.pc = .recordDropped ∧ w.hist.filterMap Event.placed? <+: w.hist.filterMap Event.handled?

namespace Worker

variable {ι ο : Type u} {S : Stage ι ο} {w w' : Worker S} {input input' : Chan ι}
  {output output' : Chan ο}

theorem Undisturbed.step (h : w.Undisturbed) (hs : Step w input output w' input' output') :
    w'.Undisturbed := by
  obtain ⟨hc, hp, hh⟩ := h
  cases hs <;> constructor <;> simp_all

theorem Mute.spawn (S : Stage ι ο) : Mute (.spawn S) := ⟨rfl, rfl⟩

theorem Mute.concat (h : w.Mute) {e : Event ι ο} (hhist : w'.hist = w.hist ++ [e]) (hextra : e.extra? = none)
    (hsend : w'.pc.sending = false) : w'.Mute := by
  refine ⟨?_, hsend⟩
  rw [hhist, filterMap_concat_none hextra]
  exact h.extra

/-- A step of a worker whose stage is mute. -/
theorem Mute.step (hS : S.Mute) (h : w.Mute) (hs : Step w input output w' input' output') : w'.Mute := by
  have hsend := h.sending
  cases hs with
  | start | recv | recordInput | recordOutput | recordFiltered | stopping | recordFlush | stopped | dropOutput
    | dropInput | shutdown | notShutdown | paused | notPaused | noReset | empty | disconnected | reset
    | ackCommand | ackFlag | recordDropped =>
    exact ⟨h.extra, rfl⟩
  | stageReset | metricsReset | took | processSome | processNone | placed | dropped | tickNone | flushNone =>
    exact h.concat rfl rfl rfl
  | tickSome stage result hpc ht =>
    have hnone := hS.tick_none w.stage
    rw [ht] at hnone
    cases hnone
  | flushSome stage result hpc hf =>
    have hnone := hS.flush_none w.stage
    rw [hf] at hnone
    cases hnone
  | sent result hpc | refused result hpc =>
    rw [hpc] at hsend
    cases hsend

theorem Tracks.spawn (S : Stage ι ο) : Tracks (.spawn S) where
  result_eq := rfl
  same _ _ := rfl
  placed _ := .inl rfl

/-- A step that does nothing a stage or the output channel would notice. -/
theorem Tracks.of_eq (h : w.Tracks) (hstage : w'.stage = w.stage) (hhist : w'.hist = w.hist)
    (hcount : w'.metrics.droppedCount = w.metrics.droppedCount)
    (hin : w'.pc.inLoop = true → w.pc.inLoop = true) (hpc : w.pc ≠ .recordDropped) : w'.Tracks := by
  obtain ⟨hres, hsame, hplaced⟩ := h
  constructor
  · rw [hhist]
    exact hres
  · intro hloop
    rw [hstage, hhist]
    exact hsame (hin hloop)
  · intro hd
    rw [hcount] at hd
    rw [hhist]
    exact .inl ((hplaced hd).resolve_right fun hr => hpc hr.1)

/-- A step that records an event, but no result of the stage's. -/
theorem Tracks.of_concat (h : w.Tracks) {e : Event ι ο} (hhist : w'.hist = w.hist ++ [e])
    (hitem : e.item? = none) (hres : e.result? = none)
    (hsame : w'.pc.inLoop = true → w.pc.inLoop = true ∧ Same S.process w'.stage w.stage)
    (hplaced : w'.metrics.droppedCount = 0 →
      w'.hist.filterMap Event.placed? = w'.hist.filterMap Event.handled? ∨
      w'.pc = .recordDropped ∧ w'.hist.filterMap Event.placed? <+: w'.hist.filterMap Event.handled?) :
    w'.Tracks where
  result_eq := by
    rw [hhist, filterMap_concat_none hres, filterMap_concat_none hitem]
    exact h.result_eq
  same := by
    intro hin xs
    obtain ⟨hin', hs⟩ := hsame hin
    rw [hhist, filterMap_concat_none hitem]
    exact (hs xs).trans (h.same hin' xs)
  placed := hplaced

/-- A step that processes an item. -/
theorem Tracks.processed (h : w.Tracks) {item : ι} {result : Option ο} (hpc : w.pc = .process item)
    (hp : S.process w.stage item = (w'.stage, result))
    (hhist : w'.hist = w.hist ++ [.processed item result])
    (hplaced : w'.metrics.droppedCount = 0 →
      w.hist.filterMap Event.placed? = w.hist.filterMap Event.handled?) : w'.Tracks := by
  have hs := h.same (by rw [hpc]; rfl)
  have hout := hs.output item
  have hnext := hs.next item
  rw [hp] at hout hnext
  constructor
  · rw [hhist]
    simp only [List.filterMap_append, filterMap_singleton, Event.result?, Event.item?,
      Option.toList_some, h.result_eq, Stage.outputs, emit_concat, ← hout]
  · intro _
    rw [hhist]
    simpa only [List.filterMap_append, filterMap_singleton, Event.item?, Option.toList_some,
      after_concat] using hnext
  · intro hd
    rw [hhist, filterMap_concat_none rfl, filterMap_concat_none rfl]
    exact .inl (hplaced hd)

/-- A step of a worker whose stage is quiet, and which has not been told to reset. -/
theorem Tracks.step (hS : S.Quiet) (h : w.Tracks) (hm : w.Mute) (hu : w.Undisturbed)
    (hs : Step w input output w' input' output') : w'.Tracks := by
  have hreset := hu.pc
  have hsend := hm.sending
  have hplaced : w.metrics.droppedCount = 0 → w.pc ≠ .recordDropped →
      w.hist.filterMap Event.placed? = w.hist.filterMap Event.handled? := by
    intro hd hpc
    exact (h.placed hd).resolve_right fun hr => hpc hr.1
  cases hs with
  | start hpc | recv hpc | recordInput item hpc | recordOutput hpc | recordFiltered hpc
    | stopping hpc | recordFlush hpc | stopped hpc | dropOutput hpc | dropInput hpc
    | shutdown hpc | notShutdown hpc | paused hpc | notPaused hpc | noReset hpc
    | empty hpc | disconnected hpc =>
    exact h.of_eq rfl rfl rfl (by simp [hpc]) (by simp [hpc])
  | stageReset hpc | metricsReset hpc | ackCommand hpc | ackFlag hpc =>
    rw [hpc] at hreset
    cases hreset
  | reset hpc hc => exact absurd hc hu.command
  | took item queue hpc hq =>
    refine h.of_concat rfl rfl rfl (fun _ => ⟨by rw [hpc]; rfl, fun _ => rfl⟩) fun hd => ?_
    exact .inl (by simpa using hplaced hd (by simp [hpc]))
  | processSome item stage result hpc hp =>
    exact h.processed hpc hp rfl fun hd => hplaced hd (by simp [hpc])
  | processNone item stage hpc hp =>
    exact h.processed hpc hp rfl fun hd => hplaced hd (by simp [hpc])
  | placed result hpc hr hroom =>
    refine h.of_concat rfl rfl rfl (fun _ => ⟨by rw [hpc]; rfl, fun _ => rfl⟩) fun hd => ?_
    exact .inl (by simpa using hplaced hd (by simp [hpc]))
  | dropped result hpc hno =>
    refine h.of_concat rfl rfl rfl (fun _ => ⟨by rw [hpc]; rfl, fun _ => rfl⟩) fun hd => ?_
    exact .inr ⟨rfl, by simp [hplaced hd (by simp [hpc])]⟩
  | recordDropped hpc =>
    refine ⟨h.result_eq, fun _ => h.same (by rw [hpc]; rfl), ?_⟩
    intro hd
    cases hd
  | tickSome stage result hpc ht =>
    have hnone := hS.tick_none w.stage
    rw [ht] at hnone
    cases hnone
  | tickNone stage hpc ht =>
    have hsilent := hS.tick_silent w.stage
    rw [ht] at hsilent
    refine h.of_concat rfl rfl rfl (fun _ => ⟨by rw [hpc]; rfl, hsilent⟩) fun hd => ?_
    exact .inl (by simpa using hplaced hd (by simp [hpc]))
  | flushSome stage result hpc hf =>
    have hnone := hS.flush_none w.stage
    rw [hf] at hnone
    cases hnone
  | flushNone stage hpc hf =>
    refine h.of_concat rfl rfl rfl (by rintro ⟨⟩) fun hd => ?_
    exact .inl (by simpa using hplaced hd (by simp [hpc]))
  | sent result hpc | refused result hpc =>
    rw [hpc] at hsend
    cases hsend

/-- Without other results, what the stage's methods returned is what `process` returned. -/
theorem out_eq_result {es : List (Event ι ο)} (h : es.filterMap Event.extra? = []) :
    es.filterMap Event.out? = es.filterMap Event.result? := by
  induction es with
  | nil => rfl
  | cons e es ih =>
    rcases e with _ | _ | (_ | _) | (_ | _) | _ | _ | _ | _ | _ <;>
      simp_all only [List.filterMap_cons, Event.extra?, Event.out?, Event.result?] <;>
      first | rfl | cases h

/-- What a worker processed, it took. -/
theorem item_isPrefix_took (hf : Flow w.hist w.pc) :
    w.hist.filterMap Event.item? <+: w.hist.filterMap Event.took? := by
  rw [hf.took_eq]
  exact List.prefix_append _ _

theorem Tracks.result_isPrefix (h : w.Tracks) (hf : Flow w.hist w.pc) :
    w.hist.filterMap Event.result? <+: S.outputs (w.hist.filterMap Event.took?) := by
  rw [h.result_eq]
  exact S.outputs_mono (item_isPrefix_took hf)

theorem Mute.handled_isPrefix (h : w.Mute) (hf : Flow w.hist w.pc) :
    w.hist.filterMap Event.handled? <+: w.hist.filterMap Event.result? := by
  rw [← out_eq_result h.extra, hf.out_eq]
  exact List.prefix_append _ _

/-- Until something is dropped, what a worker put in its output channel is what its stage
outputs first. -/
theorem Tracks.placed_isPrefix (h : w.Tracks) (hm : w.Mute) (hf : Flow w.hist w.pc)
    (hd : w.metrics.droppedCount = 0) :
    w.hist.filterMap Event.placed? <+: S.outputs (w.hist.filterMap Event.took?) := by
  have hplaced : w.hist.filterMap Event.placed? <+: w.hist.filterMap Event.handled? := by
    rcases h.placed hd with heq | ⟨-, hpre⟩
    · exact heq ▸ List.prefix_rfl
    · exact hpre
  exact hplaced.trans ((hm.handled_isPrefix hf).trans (h.result_isPrefix hf))

end Worker

/-! ### The pipeline -/

/-- Whether a `reset()` is in progress. -/
@[simp] def OwnerPc.resetting : OwnerPc → Bool
  | .storeCommand .reset _ | .storeFlag .reset _ => true
  | _ => false

/-- An owner that does not call `reset` stores no `Reset`. -/
theorem Owner.Step.not_reset {status : ℕ → ThreadStatus} {o o' : Owner} {a : OwnerAct}
    {e : Option Effect} (h : Owner.Step status o a o' e) (ha : a ≠ .call .reset)
    (hpc : o.pc.resetting = false) :
    o'.pc.resetting = false ∧ ∀ k, e ≠ some (.storeCommand k .reset) := by
  cases h with
  | call c hidle => cases c <;> simp_all [Owner.entry]
  | signalled late cmd k hpc' hk => cases cmd <;> simp_all
  | storeCommand late cmd k hpc' hk | storeFlag late cmd k hpc' => cases cmd <;> simp_all
  | _ => simp

namespace Net

variable {T : ℕ → Type u} {S : ∀ i, Stage (T i) (T (i + 1))}

/-- The items worker `i` has dequeued. -/
def dequeued (s : Net S) (i : ℕ) : List (T i) := (s.worker i).hist.filterMap Event.took?

/-- The results of stage `i`: what `process` returned. -/
def results (s : Net S) (i : ℕ) : List (T (i + 1)) := (s.worker i).hist.filterMap Event.result?

/-- A step other than a call of `reset`. -/
abbrev NoReset (_ : Net S) (a : Act (T 0)) : Prop := a ≠ .owner (.call .reset)

/-- The workers send nothing but results. -/
def Muted (s : Net S) : Prop := ∀ i < stageCount, (s.worker i).Mute

/-- The invariant of the runs without reset. -/
structure Faithful (s : Net S) : Prop where
  owner : s.owner.pc.resetting = false
  undisturbed : ∀ i, (s.worker i).Undisturbed
  tracks : ∀ i < stageCount, (s.worker i).Tracks

theorem faithful_build (S : ∀ i, Stage (T i) (T (i + 1))) (capacity : ℕ) (clone : Bool) :
    Faithful (build S capacity clone) where
  owner := rfl
  undisturbed _ := ⟨by simp [build, Worker.spawn], rfl, by simp [build, Worker.spawn]⟩
  tracks i _ := .spawn (S i)

theorem undisturbed_effect {s : Net S} {e : Option Effect}
    (he : ∀ k, e ≠ some (.storeCommand k .reset)) {i : ℕ} (h : (s.worker i).Undisturbed) :
    ((s.effect e).worker i).Undisturbed := by
  have hsignal : ∀ k (f : StageControl → StageControl),
      ((f (s.worker k).control).command = .reset → (s.worker k).control.command = .reset) →
      ((s.signal k f).worker i).Undisturbed := by
    intro k f hf
    by_cases hik : i = k
    · subst hik
      rw [worker_signal_self]
      exact ⟨fun hc => h.command (hf hc), h.pc, h.hist⟩
    · rw [worker_signal_of_ne hik]
      exact h
  rcases e with _ | ⟨k, cmd⟩ | ⟨k, cmd⟩ | _
  · exact h
  · refine hsignal k (fun control => control.storeCommand cmd) fun hc => ?_
    rw [StageControl.command_storeCommand] at hc
    exact absurd (by rw [hc]) (he k)
  · exact hsignal k (fun control => control.storeFlag cmd) fun hc => by simpa using hc
  · cases hc : s.clone <;> simpa [effect, hc, setChan] using h

section Steps

variable {s s' : Net S} {a : Act (T 0)}

theorem Muted.step (hS : ∀ i < stageCount, (S i).Mute) (h : Muted s) (hs : Step s a s') : Muted s' := by
  intro i hi
  rcases hs.outside with ⟨j, w, input, output, -, -, hw, rfl⟩ | ho
  · by_cases hij : i = j
    · subst hij
      rw [worker_move_self]
      exact (h i hi).step (hS i hi) hw
    · rw [worker_move_of_ne hij]
      exact h i hi
  · obtain ⟨control, hc⟩ := ho.worker i
    rw [hc]
    exact ⟨(h i hi).extra, (h i hi).sending⟩

theorem muted_of_reach (hS : ∀ i < stageCount, (S i).Mute) (h : (machine S).Reach s) : Muted s := by
  refine h.invariant (I := Muted) ?_ fun s a s' hi _ hs => hi.step hS (step_cases hs)
  rintro s ⟨capacity, clone, rfl⟩ i -
  exact .spawn (S i)

theorem Faithful.step (hS : ∀ i < stageCount, (S i).Quiet) (h : Faithful s) (hm : Muted s) (hx : NoReset s a)
    (hs : Step s a s') : Faithful s' := by
  have htracks : ∀ i < stageCount, (s'.worker i).Tracks := by
    intro i hi
    rcases hs.outside with ⟨j, w, input, output, -, -, hw, rfl⟩ | ho
    · by_cases hij : i = j
      · subst hij
        rw [worker_move_self]
        exact (h.tracks i hi).step (hS i hi) (hm i hi) (h.undisturbed i) hw
      · rw [worker_move_of_ne hij]
        exact h.tracks i hi
    · obtain ⟨control, hc⟩ := ho.worker i
      have ht := h.tracks i hi
      rw [hc]
      exact ⟨ht.result_eq, ht.same, ht.placed⟩
  cases hs with
  | worker j w input output hj hw =>
    refine ⟨h.owner, ?_, htracks⟩
    intro i
    by_cases hij : i = j
    · subst hij
      rw [worker_move_self]
      exact (h.undisturbed i).step hw
    · rw [worker_move_of_ne hij]
      exact h.undisturbed i
  | owner b owner e ho =>
    obtain ⟨hpc, he⟩ := ho.not_reset (fun hb => hx (by rw [hb])) h.owner
    exact ⟨hpc, fun i => undisturbed_effect he (h.undisturbed i), htracks⟩
  | send item hr hroom => exact ⟨h.owner, h.undisturbed, htracks⟩
  | dropClone hc =>
    cases hi : s.owner.inputTx <;> simp only [loseClone, hi, if_true, Bool.false_eq_true, if_false] at htracks ⊢
    · exact ⟨h.owner, h.undisturbed, htracks⟩
    · exact ⟨h.owner, h.undisturbed, htracks⟩
  | beginRecv => exact ⟨h.owner, h.undisturbed, htracks⟩
  | endRecv => exact ⟨h.owner, h.undisturbed, htracks⟩

/-- What has gone into a worker's output channel is what its stage outputs first on what has
gone into its input channel. -/
theorem sent_isPrefix_outputs (hw : Wired s) (h : Faithful s) (hm : Muted s) {i : ℕ} (hi : i < stageCount)
    (hd : (s.worker i).metrics.droppedCount = 0) :
    (s.chan (i + 1)).sent <+: (S i).outputs (s.chan i).sent := by
  rw [(hw.writes i hi).placed_eq]
  refine ((h.tracks i hi).placed_isPrefix (hm i hi) (hw.kept i).flow hd).trans ?_
  rw [← (hw.reads i hi).took_eq]
  exact (S i).outputs_mono (hw.fifo i).received_isPrefix

/-- What a worker dequeued is among the results of the stage before, in order. -/
theorem dequeued_sublist (hw : Wired s) (hm : Muted s) {i : ℕ} (hi : i + 1 < stageCount) :
    (s.dequeued (i + 1)).Sublist (s.results i) := by
  have hi' : i < stageCount := Nat.lt_of_succ_lt hi
  rw [dequeued, ← (hw.reads (i + 1) hi).took_eq]
  have hplaced : (s.chan (i + 1)).received <+: (s.worker i).hist.filterMap Event.placed? := by
    rw [← (hw.writes i hi').placed_eq]
    exact (hw.fifo (i + 1)).received_isPrefix
  exact (hplaced.sublist.trans (placed_sublist_handled _)).trans
    ((hm i hi').handled_isPrefix (hw.kept i).flow).sublist

end Steps

theorem faithful_of_reachBy (hS : ∀ i < stageCount, (S i).Quiet) {s : Net S}
    (h : Machine.ReachBy (machine S) NoReset s) : Faithful s := by
  induction h with
  | start hi =>
    obtain ⟨capacity, clone, rfl⟩ := hi
    exact faithful_build S capacity clone
  | next hr hx hs ih =>
    exact ih.step hS (muted_of_reach (fun i hi => (hS i hi).toMute) hr.reach) hx (step_cases hs)

/-- **The pipeline refines the chain of its stages**: of mute stages, in every run without
reset. What a worker dequeues is, in order, among the results of the stage before. When the
stages are quiet, these are what that stage outputs on what its worker dequeued; and while
nothing has been dropped, what the pipeline delivers is what the chain outputs first. -/
theorem refines_chain (hmute : ∀ i < stageCount, (S i).Mute) {s : Net S}
    (h : Machine.ReachBy (machine S) NoReset s) :
    (∀ i, i + 1 < stageCount → (s.dequeued (i + 1)).Sublist (s.results i)) ∧
    ((∀ i < stageCount, (S i).Quiet) →
      (∀ i, i + 1 < stageCount → s.results i <+: (S i).outputs (s.dequeued i)) ∧
      ((∀ i < stageCount, (s.worker i).metrics.droppedCount = 0) →
        (s.chan stageCount).received <+:
          (Stage.chain (Stage.chain (Stage.chain (S 0) (S 1)) (S 2)) (S 3)).outputs (s.chan 0).sent)) := by
  have hw := wired_of_reach h.reach
  have hm := muted_of_reach hmute h.reach
  refine ⟨fun i hi => dequeued_sublist hw hm hi, fun hquiet => ?_⟩
  have hf := faithful_of_reachBy hquiet h
  constructor
  · intro i hi
    exact (hf.tracks i (Nat.lt_of_succ_lt hi)).result_isPrefix (hw.kept i).flow
  · intro hd
    have hsent : ∀ i (hi : i < stageCount), (s.chan (i + 1)).sent <+: (S i).outputs (s.chan i).sent :=
      fun i hi => sent_isPrefix_outputs hw hf hm hi (hd i hi)
    rw [Stage.outputs_chain, Stage.outputs_chain, Stage.outputs_chain]
    have h₂ : (s.chan 2).sent <+: (S 1).outputs ((S 0).outputs (s.chan 0).sent) :=
      (hsent 1 (by decide)).trans ((S 1).outputs_mono (hsent 0 (by decide)))
    have h₃ : (s.chan 3).sent <+: (S 2).outputs ((S 1).outputs ((S 0).outputs (s.chan 0).sent)) :=
      (hsent 2 (by decide)).trans ((S 2).outputs_mono h₂)
    have h₄ : (s.chan 4).sent <+:
        (S 3).outputs ((S 2).outputs ((S 1).outputs ((S 0).outputs (s.chan 0).sent))) :=
      (hsent 3 (by decide)).trans ((S 3).outputs_mono h₃)
    exact (hw.fifo 4).received_isPrefix.trans h₄

/-- Increment, keep the even, add up, deliver. -/
def sumStages : ℕ → Stage ℕ ℕ
  | 0 => .map (· + 1)
  | 1 => .filter fun x => x % 2 = 0
  | 2 => .ofProcess 0 (fun sum x => (sum + x, some (sum + x))) fun _ => 0
  | _ => .identity

/-- Two items go in, and the even successor comes out, before and after a shutdown. -/
theorem refines_chain_sum : ∃ s : Net (T := fun _ => ℕ) sumStages,
    (s.chan 0).sent = [1, 2] ∧ (s.chan stageCount).received = [2] ∧ s.asked = true ∧
    (∀ i, i + 1 < stageCount → (s.dequeued (i + 1)).Sublist (s.results i) ∧
      s.results i <+: (sumStages i).outputs (s.dequeued i)) ∧
    (s.chan stageCount).received <+: (Stage.chain (Stage.chain (Stage.chain (sumStages 0) (sumStages 1))
      (sumStages 2)) (sumStages 3)).outputs (s.chan 0).sent := by
  have hquiet : ∀ i < stageCount, (sumStages i).Quiet := by
    rintro (_ | _ | _ | _ | i) hi
    · exact .ofProcess _ _ _
    · exact .ofProcess _ _ _
    · exact .ofProcess _ _ _
    · exact .ofProcess _ _ _
    · exact .ofProcess _ _ _
  obtain ⟨s, hs, hp⟩ := Machine.exists_reachBy_of_runBy (M := machine (T := fun _ => ℕ) sumStages)
    (C := NoReset) (s := build sumStages 2 true) ⟨2, true, rfl⟩
    (List.flatten [[.send 1, .send 2], .replicate 19 (.worker 0), .replicate 18 (.worker 1),
      .replicate 9 (.worker 2), .replicate 9 (.worker 3), [.beginRecv, .endRecv],
      [.owner (.call .shutdown)], .replicate 11 (.owner (.step false))])
    (fun s => decide ((s.chan 0).sent = [1, 2] ∧ (s.chan stageCount).received = [2] ∧
      s.asked = true ∧ ∀ i < stageCount, (s.worker i).metrics.droppedCount = 0))
    (by decide +kernel)
  obtain ⟨hsent, hrecv, hasked, hd⟩ := of_decide_eq_true hp
  obtain ⟨hsub, hrest⟩ := refines_chain (fun i hi => (hquiet i hi).toMute) hs
  obtain ⟨hres, hpre⟩ := hrest hquiet
  exact ⟨s, hsent, hrecv, hasked, fun i hi => ⟨hsub i hi, hres i hi⟩, hpre hd⟩

/-- A stage whose `tick` returns `None` but is remembered. -/
def tickStage : Stage ℕ ℕ where
  State := Bool
  init := false
  process ticked x := (ticked, some (if ticked then x + 1 else x))
  tick _ := (true, none)
  reset _ := false
  flush ticked := (ticked, none)

/-- The first stage remembers a tick. -/
def tickStages : ℕ → Stage ℕ ℕ
  | 0 => tickStage
  | _ => .identity

/-- `tick` and `flush` return `None`; the worker ticks before the first item comes, and the
pipeline delivers `6` where the chain outputs `5`. -/
theorem not_forall_refines : ¬ ∀ (S : ℕ → Stage ℕ ℕ) (s : Net (T := fun _ => ℕ) S),
    (∀ i < stageCount, (∀ st, ((S i).tick st).2 = none) ∧ ∀ st, ((S i).flush st).2 = none) →
    Machine.ReachBy (machine (T := fun _ => ℕ) S) NoReset s →
    (∀ i < stageCount, (s.worker i).metrics.droppedCount = 0) →
    (s.chan stageCount).received <+:
      (Stage.chain (Stage.chain (Stage.chain (S 0) (S 1)) (S 2)) (S 3)).outputs (s.chan 0).sent := by
  intro h
  have hnone : ∀ i < stageCount, (∀ st, ((tickStages i).tick st).2 = none) ∧
      ∀ st, ((tickStages i).flush st).2 = none := by
    rintro (_ | i) _
    · exact ⟨fun _ => rfl, fun _ => rfl⟩
    · exact ⟨fun _ => rfl, fun _ => rfl⟩
  obtain ⟨s, hs, hp⟩ := Machine.exists_reachBy_of_runBy (M := machine (T := fun _ => ℕ) tickStages)
    (C := NoReset) (s := build tickStages 1 false) ⟨1, false, rfl⟩
    (List.flatten [.replicate 7 (.worker 0), [.send 5], .replicate 8 (.worker 0),
      .replicate 9 (.worker 1), .replicate 9 (.worker 2), .replicate 9 (.worker 3),
      [.beginRecv, .endRecv]])
    (fun s => decide ((s.chan stageCount).received = [6] ∧ (s.chan 0).sent = [5] ∧
      ∀ i < stageCount, (s.worker i).metrics.droppedCount = 0)) (by decide +kernel)
  obtain ⟨hrecv, hsent, hd⟩ := of_decide_eq_true hp
  have := h tickStages s hnone hs hd
  rw [hrecv, hsent] at this
  exact absurd this (by decide)

end Net

end Pipeline

end SensorBridge
