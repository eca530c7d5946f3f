import SensorBridge.Pipeline.StageThread

/-!
# Commands

What becomes of `reset()`, `pause()` and `shutdown()` when the calls' two stores and
the worker's loads and stores interleave.

* The command cell holds one command. A reset that the worker has not yet seen is lost
  when another command is stored over it, by a later `pause()` or `resume()` or by
  the worker acknowledging an earlier reset (`not_forall_resetKept`). When no such
  store happens, no reset is lost (`resetKept_of_keepsReset`).
* The acknowledgement is `set_command(Run)`, which also clears the paused flag, and
  with it a pause that came after the worker's check of the flag
  (`not_forall_pauseKept`). When no acknowledgement clears a flag that is to stay
  set, the flag is what the last call made it (`pauseKept_of_sparesPause`).
* The shutdown flag is never cleared, and the worker looks at it before every receive
  (`shutdown_prompt`).
-/

namespace SensorBridge.Pipeline

open Foundation Foundation.Threads Channel

universe u

namespace Pc

variable {ι ο : Type u}

/-- Whether the worker is past the point of its iteration where it looks for a reset, and
has not yet processed an item. -/
@[simp] def pastReset : Pc ι ο → Bool
  | metricsReset | ackCommand | ackFlag | recv | waiting | recordInput _ | process _ => true
  | _ => false

/-- Whether the worker has seen a reset that it has still to carry out, or will never
carry out another. -/
@[simp] def hasHeard : Pc ι ο → Bool
  | stageReset => true
  | pc => !pc.inLoop

/-- How many items a worker that is to shut down can still take. -/
@[simp] def mayTake : Pc ι ο → ℕ
  | checkPaused | checkCommand | stageReset | metricsReset | ackCommand | ackFlag | recv | waiting => 1
  | _ => 0

/-- How many times a worker can still call `flush`. -/
@[simp] def mayFlush : Pc ι ο → ℕ
  | send _ | recordFlush | stopped | dropOutput | dropInput | returned => 0
  | _ => 1

variable {pc : Pc ι ο}

theorem hasHeard_of_inLoop (h : pc.inLoop = false) : pc.hasHeard = true := by
  cases pc <;> first | rfl | cases h

theorem inLoop_of_hasHeard (h : pc.hasHeard = true) (hne : pc ≠ .stageReset) : pc.inLoop = false := by
  cases pc <;> first | rfl | exact absurd rfl hne | cases h

theorem isLoopHead_of_pastReset (h : pc.pastReset = true) : pc.isLoopHead = false := by
  cases pc <;> first | rfl | cases h

end Pc

/-- What a worker has done since it was `w₀`, and what it may still do, is within what it
might do then. -/
def Worker.Within {ι ο : Type u} {S : Stage ι ο} (w₀ w : Worker S) : Prop :=
  ∃ new, w.hist = w₀.hist ++ new ∧
    (new.filterMap Event.took?).length + w.pc.mayTake ≤ w₀.pc.mayTake ∧
    new.countP Event.isFlushed + w.pc.mayFlush ≤ w₀.pc.mayFlush

section Within

variable {ι ο : Type u} {S : Stage ι ο} {w₀ w₁ w₂ : Worker S}

theorem Worker.Within.refl (w : Worker S) : Within w w := ⟨[], by simp, by simp, by simp⟩

theorem Worker.Within.trans (h₁ : Within w₀ w₁) (h₂ : Within w₁ w₂) : Within w₀ w₂ := by
  obtain ⟨new₁, hhist₁, htake₁, hflush₁⟩ := h₁
  obtain ⟨new₂, hhist₂, htake₂, hflush₂⟩ := h₂
  refine ⟨new₁ ++ new₂, by rw [hhist₂, hhist₁, List.append_assoc], ?_, ?_⟩
  · rw [List.filterMap_append, List.length_append]
    omega
  · rw [List.countP_append]
    omega

end Within

/-! ### What a worker's step does to the cells -/

namespace Worker.Step

variable {ι ο : Type u} {S : Stage ι ο} {w w' : Worker S} {input input' : Chan ι}
  {output output' : Chan ο}

/-- The stage is reset in one place. -/
theorem resets_cases (h : Step w input output w' input' output') :
    w.pc = .stageReset ∧ w'.resets = w.resets + 1 ∨ w.pc ≠ .stageReset ∧ w'.resets = w.resets := by
  cases h <;> simp_all [resets]

/-- The worker comes past the reset by carrying it out, or by finding none. -/
theorem pastReset_cases (h : Step w input output w' input' output') (hw : w'.pc.pastReset = true) :
    w.pc = .stageReset ∨ w.pc.pastReset = true ∨
      w.pc = .checkCommand ∧ w.control.command ≠ .reset := by
  cases h <;> simp_all

/-- A worker that is to shut down pays for an item taken and for a call of `flush`. -/
theorem within (h : Step w input output w' input' output') (hw : w.control.shutdown = true) :
    Within w w' := by
  obtain ⟨new, hnew⟩ := h.hist_isPrefix
  refine ⟨new, hnew.symm, ?_⟩
  cases h <;> simp_all

end Worker.Step

namespace StageThread

variable {ι ο : Type u} {S : Stage ι ο}

/-- One controlling thread: it calls `pause`, `resume` and `reset`, and makes a call only when
its last one has returned. -/
def controller (s : StageThread S) : Act ι → Bool
  | .call cmd => decide (cmd = .pause ∨ cmd = .resume ∨ cmd = .reset) &&
      s.calls.all fun c => decide (c.pc = .returned)
  | _ => true

/-- `controller`, as a condition on the steps of a run. -/
abbrev Controller (s : StageThread S) (a : Act ι) : Prop := controller s a = true

/-! ### Reset -/

/-- **No reset is lost**: when the worker is about to process an item, the stage has been
reset since every `reset()` that had returned when the iteration began was called. -/
def ResetKept (s : StageThread S) : Prop :=
  ∀ x, s.worker.pc = .process x → ∀ c ∈ s.calls, c.cmd = .reset → c.seen = true →
    c.resets < s.worker.resets

/-- Whether a `reset()` has stored its command and the stage has not been reset since it
was called. -/
def pendingReset (s : StageThread S) : Bool :=
  s.calls.any fun c => decide (c.cmd = .reset ∧ c.pc ≠ .called ∧ c.resets = s.worker.resets)

/-- **What a reset needs of a step**: no other command is stored while it is pending, unless
the worker has seen it; and the worker acknowledges no earlier one then. -/
def keepsReset (s : StageThread S) : Act ι → Bool
  | .callStep i => match s.calls[i]? with
    | some ⟨cmd, .called, _, _⟩ => decide (cmd = .reset) || s.worker.pc.hasHeard || !s.pendingReset
    | _ => true
  | .worker => match s.worker.pc with
    | .ackCommand => !s.pendingReset
    | _ => true
  | _ => true

/-- `keepsReset`, as a condition on the steps of a run. -/
abbrev KeepsReset (s : StageThread S) (a : Act ι) : Prop := keepsReset s a = true

/-- The invariant of the runs that keep resets. -/
structure ResetInv (s : StageThread S) : Prop where
  /-- Resets are counted up. -/
  le : ∀ c ∈ s.calls, c.resets ≤ s.worker.resets
  /-- A call seen has returned. -/
  returned : ∀ c ∈ s.calls, c.seen = true → c.pc = .returned
  /-- A reset stored is carried out, in the cell, or seen by the worker. -/
  stored : ∀ c ∈ s.calls, c.cmd = .reset → c.pc ≠ .called →
    c.resets < s.worker.resets ∨ s.worker.control.command = .reset ∨ s.worker.pc.hasHeard = true
  /-- Past the reset, those seen have been carried out. -/
  done : s.worker.pc.pastReset = true → ∀ c ∈ s.calls, c.cmd = .reset → c.seen = true →
    c.resets < s.worker.resets

theorem ResetInv.resetKept {s : StageThread S} (h : ResetInv s) : ResetKept s := by
  intro x hx c hc hcmd hseen
  exact h.done (by rw [hx]; rfl) c hc hcmd hseen

theorem lt_of_not_pendingReset {s : StageThread S} (h : ResetInv s) (hp : s.pendingReset = false)
    {c : SetCommandCall} (hc : c ∈ s.calls) (hcmd : c.cmd = .reset) (hpc : c.pc ≠ .called) :
    c.resets < s.worker.resets := by
  have hne : ¬ (c.cmd = .reset ∧ c.pc ≠ .called ∧ c.resets = s.worker.resets) := by
    simpa using List.any_eq_false.mp hp c hc
  have hle := h.le c hc
  have hne : c.resets ≠ s.worker.resets := fun he => hne ⟨hcmd, hpc, he⟩
  omega

/-- A call after the worker has begun an iteration, or has moved otherwise. -/
theorem exists_of_mem_look {calls : List SetCommandCall} {b : Bool} {c : SetCommandCall}
    (h : c ∈ if b then calls.map SetCommandCall.look else calls) :
    ∃ d ∈ calls, c.cmd = d.cmd ∧ c.pc = d.pc ∧ c.resets = d.resets ∧
      (b = false ∧ c = d ∨ b = true ∧ c.seen = decide (d.pc = .returned)) := by
  cases b with
  | true =>
    obtain ⟨d, hd, rfl⟩ := List.mem_map.mp h
    exact ⟨d, hd, rfl, rfl, rfl, .inr ⟨rfl, rfl⟩⟩
  | false => exact ⟨c, h, rfl, rfl, rfl, .inl ⟨rfl, rfl⟩⟩

section ResetSteps

variable {s s' : StageThread S}

/-- The worker's steps keep the invariant, if it acknowledges no reset while another is
pending. -/
theorem ResetInv.workerStep (h : ResetInv s) (hx : KeepsReset s (.worker : Act ι))
    (hw : Worker.Step s.worker s.input s.output s'.worker s'.input s'.output)
    (hcalls : s'.calls = if s.worker.pc.isLoopHead then s.calls.map SetCommandCall.look else s.calls) :
    ResetInv s' := by
  have hle : s.worker.resets ≤ s'.worker.resets := by
    rcases hw.resets_cases with ⟨-, hr⟩ | ⟨-, hr⟩ <;> omega
  constructor
  · intro c hc
    obtain ⟨d, hd, -, -, hr, -⟩ := exists_of_mem_look (hcalls ▸ hc)
    rw [hr]
    exact Nat.le_trans (h.le d hd) hle
  · intro c hc hseen
    obtain ⟨d, hd, -, hpc, -, ⟨-, rfl⟩ | ⟨-, hs⟩⟩ := exists_of_mem_look (hcalls ▸ hc)
    · exact h.returned c hd hseen
    · rw [hs, decide_eq_true_eq] at hseen
      exact hpc.trans hseen
  · intro c hc hcmd hpc
    obtain ⟨d, hd, hcmd', hpc', hr, -⟩ := exists_of_mem_look (hcalls ▸ hc)
    rw [hcmd'] at hcmd
    rw [hpc'] at hpc
    rw [hr]
    rcases h.stored d hd hcmd hpc with hlt | hcell | hheard
    · exact .inl (Nat.lt_of_lt_of_le hlt hle)
    · rcases hw.command_cases with hack | hsame
      · have hnone : s.pendingReset = false := by simpa [KeepsReset, keepsReset, hack] using hx
        exact .inl (Nat.lt_of_lt_of_le (lt_of_not_pendingReset h hnone hd hcmd hpc) hle)
      · exact .inr (.inl (hsame.trans hcell))
    · rcases hw.resets_cases with ⟨-, hr⟩ | ⟨hne, -⟩
      · have := h.le d hd
        exact .inl (by omega)
      · have hleft := hw.inLoop_eq_false (Pc.inLoop_of_hasHeard hheard hne)
        exact .inr (.inr (Pc.hasHeard_of_inLoop hleft))
  · intro hpast c hc hcmd hseen
    have hpast := hw.pastReset_cases hpast
    have hhead : s.worker.pc.isLoopHead = false := by
      rcases hpast with hp | hp | ⟨hp, -⟩
      · rw [hp]; rfl
      · exact Pc.isLoopHead_of_pastReset hp
      · rw [hp]; rfl
    rw [hcalls, hhead] at hc
    rcases hpast with hp | hp | ⟨hp, hno⟩
    · have := h.le c hc
      rcases hw.resets_cases with ⟨-, hr⟩ | ⟨hne, -⟩
      · omega
      · exact absurd hp hne
    · exact Nat.lt_of_lt_of_le (h.done hp c hc hcmd hseen) hle
    · rcases h.stored c hc hcmd (by rw [h.returned c hc hseen]; decide) with hlt | hcell | hheard
      · exact Nat.lt_of_lt_of_le hlt hle
      · exact absurd hcell hno
      · rw [hp] at hheard
        cases hheard

/-- A call that begins keeps the invariant: it has not stored anything. -/
theorem ResetInv.call (h : ResetInv s) (cmd : StageCommand) :
    ResetInv { s with calls := s.calls ++ [⟨cmd, .called, s.worker.resets, false⟩] } := by
  constructor
  · intro c hc
    rcases List.mem_append.mp hc with hc | hc
    · exact h.le c hc
    · cases List.mem_singleton.mp hc
      exact Nat.le_refl _
  · intro c hc hseen
    rcases List.mem_append.mp hc with hc | hc
    · exact h.returned c hc hseen
    · rw [List.mem_singleton.mp hc] at hseen
      cases hseen
  · intro c hc hcmd hpc
    rcases List.mem_append.mp hc with hc | hc
    · exact h.stored c hc hcmd hpc
    · rw [List.mem_singleton.mp hc] at hpc
      exact absurd rfl hpc
  · intro hpast c hc hcmd hseen
    rcases List.mem_append.mp hc with hc | hc
    · exact h.done hpast c hc hcmd hseen
    · rw [List.mem_singleton.mp hc] at hseen
      cases hseen

theorem KeepsReset.of_called {i : ℕ} {c : SetCommandCall} (hx : KeepsReset s (.callStep i : Act ι))
    (hc : s.calls[i]? = some c) (hpc : c.pc = .called) :
    c.cmd = .reset ∨ s.worker.pc.hasHeard = true ∨ s.pendingReset = false := by
  obtain ⟨cmd, pc, resets, seen⟩ := c
  subst hpc
  simpa only [KeepsReset, keepsReset, hc, Bool.or_eq_true, decide_eq_true_eq, Bool.not_eq_true',
    or_assoc] using hx

/-- A command that is stored keeps the invariant, if it is not stored over a pending reset. -/
theorem ResetInv.storeCommand (h : ResetInv s) {i : ℕ} {c : SetCommandCall} (hc : s.calls[i]? = some c)
    (hpc : c.pc = .called)
    (hkeep : c.cmd = .reset ∨ s.worker.pc.hasHeard = true ∨ s.pendingReset = false) :
    ResetInv { s with worker := { s.worker with control := s.worker.control.storeCommand c.cmd }
                      calls := s.calls.set i { c with pc := .stored } } := by
  have hmem := List.mem_of_getElem? hc
  have hnotSeen : c.seen = false := by
    by_contra hseen
    have := h.returned c hmem (by simpa using hseen)
    rw [hpc] at this
    cases this
  constructor
  · intro d hd
    rcases List.mem_or_eq_of_mem_set hd with hd | rfl
    · exact h.le d hd
    · exact h.le c hmem
  · intro d hd hseen
    rcases List.mem_or_eq_of_mem_set hd with hd | rfl
    · exact h.returned d hd hseen
    · rw [hnotSeen] at hseen
      cases hseen
  · intro d hd hcmd hdpc
    rcases List.mem_or_eq_of_mem_set hd with hd | rfl
    · rcases h.stored d hd hcmd hdpc with hlt | hcell | hheard
      · exact .inl hlt
      · -- the cell is overwritten
        by_cases hreset : c.cmd = .reset
        · exact .inr (.inl (by simp [hreset]))
        · rcases hkeep with hcmd | hheard | hnone
          · exact absurd hcmd hreset
          · exact .inr (.inr hheard)
          · exact .inl (lt_of_not_pendingReset h hnone hd hcmd hdpc)
      · exact .inr (.inr hheard)
    · exact .inr (.inl (by simpa using hcmd))
  · intro hpast d hd hcmd hseen
    rcases List.mem_or_eq_of_mem_set hd with hd | rfl
    · exact h.done hpast d hd hcmd hseen
    · rw [hnotSeen] at hseen
      cases hseen

/-- A call that stores its flag and returns keeps the invariant. -/
theorem ResetInv.storeFlag (h : ResetInv s) {i : ℕ} {c : SetCommandCall} (hc : s.calls[i]? = some c)
    (hpc : c.pc = .stored) :
    ResetInv { s with worker := { s.worker with control := s.worker.control.storeFlag c.cmd }
                      calls := s.calls.set i { c with pc := .returned } } := by
  have hmem := List.mem_of_getElem? hc
  constructor
  · intro d hd
    rcases List.mem_or_eq_of_mem_set hd with hd | rfl
    · exact h.le d hd
    · exact h.le c hmem
  · intro d hd hseen
    rcases List.mem_or_eq_of_mem_set hd with hd | rfl
    · exact h.returned d hd hseen
    · rfl
  · intro d hd hcmd hdpc
    simp only [StageControl.command_storeFlag]
    rcases List.mem_or_eq_of_mem_set hd with hd | rfl
    · exact h.stored d hd hcmd hdpc
    · exact h.stored c hmem hcmd (by simp [hpc])
  · intro hpast d hd hcmd hseen
    rcases List.mem_or_eq_of_mem_set hd with hd | rfl
    · exact h.done hpast d hd hcmd hseen
    · exact h.done hpast c hmem hcmd hseen

/-- A call that moves keeps the invariant, if it does not store over a pending reset. -/
theorem ResetInv.callStep (h : ResetInv s) {i : ℕ} {c : SetCommandCall} (hc : s.calls[i]? = some c)
    (hx : KeepsReset s (.callStep i : Act ι)) (hs : s.callStep i c = some s') : ResetInv s' := by
  rcases callStep_cases hs with ⟨hpc, rfl⟩ | ⟨hpc, rfl⟩
  · exact h.storeCommand hc hpc (hx.of_called hc hpc)
  · exact h.storeFlag hc hpc

/-- A step that keeps resets keeps the invariant. -/
theorem ResetInv.step (h : ResetInv s) {a : Act ι} (hx : KeepsReset s a) (hs : s.step a = some s') :
    ResetInv s' := by
  rcases step_cases hs with ⟨rfl, hw, hcalls⟩ | ⟨cmd, rfl, rfl⟩ | ⟨i, c, rfl, hc, hs⟩ | ⟨hw, hcalls⟩
  · exact h.workerStep hx hw hcalls
  · exact h.call cmd
  · exact h.callStep hc hx hs
  · obtain ⟨worker, input, output, calls⟩ := s'
    subst hw hcalls
    exact ⟨h.le, h.returned, h.stored, h.done⟩

end ResetSteps

/-- **When no reset is lost**: in every run in which nothing is stored over a pending reset,
whatever threads make the calls. -/
theorem resetKept_of_keepsReset {s : StageThread S} (h : Machine.ReachBy (machine S) KeepsReset s) :
    ResetKept s := by
  have hinv : ResetInv s := by
    refine h.invariant (I := ResetInv) ?_ fun s a s' hi hx hs => hi.step hx hs
    rintro s ⟨m, n, rfl⟩
    exact ⟨by simp [spawn], by simp [spawn], by simp [spawn], by simp [spawn]⟩
  exact hinv.resetKept

/-- A pause, a resume and a reset, each heard before the next. -/
theorem resetKept_of_keepsReset_heard : ∃ s : StageThread (Stage.map (· + 1 : ℕ → ℕ)),
    s.worker.pc = .process 7 ∧ s.worker.resets = 1 ∧
      s.calls.map SetCommandCall.seen = [true, true, true] ∧ ResetKept s := by
  obtain ⟨s, hs, hp⟩ := Machine.exists_reachBy_of_runBy (M := machine (Stage.map (· + 1 : ℕ → ℕ)))
    (C := KeepsReset) (s := spawn _ 1 1) ⟨1, 1, rfl⟩
    (List.flatten [[.send 7, .call .pause, .callStep 0, .callStep 0, .worker, .worker, .worker,
      .call .resume, .callStep 1, .callStep 1, .call .reset, .callStep 2, .callStep 2],
      .replicate 10 .worker])
    (fun s => decide (s.worker.pc = .process 7 ∧ s.worker.resets = 1 ∧
      s.calls.map SetCommandCall.seen = [true, true, true])) (by decide)
  obtain ⟨hpc, hr, hseen⟩ := of_decide_eq_true hp
  exact ⟨s, hpc, hr, hseen, resetKept_of_keepsReset hs⟩

/-- `reset()` and then `resume()`, before the worker looks at the command: it finds `Resume`,
and processes an item with the stage as it was. -/
theorem not_forall_resetKept : ¬ ∀ (S : Stage ℕ ℕ) (s : StageThread S),
    Machine.ReachBy (machine S) Controller s → ResetKept s := by
  intro h
  obtain ⟨s, hs, hp⟩ := Machine.exists_reachBy_of_runBy (M := machine (Stage.map (· + 1 : ℕ → ℕ)))
    (C := Controller) (s := spawn _ 1 1) ⟨1, 1, rfl⟩
    (List.flatten [[.send 7, .call .reset, .callStep 0, .callStep 0, .call .resume, .callStep 1,
      .callStep 1], .replicate 7 .worker])
    (fun s => decide (s.worker.pc = .process 7 ∧ s.worker.resets = 0 ∧
      s.calls = [⟨.reset, .returned, 0, true⟩, ⟨.resume, .returned, 0, true⟩])) (by decide)
  obtain ⟨hpc, hr, hcalls⟩ := of_decide_eq_true hp
  have := h _ s hs 7 hpc ⟨.reset, .returned, 0, true⟩ (by simp [hcalls]) rfl rfl
  rw [hr] at this
  cases this

/-! ### Pause -/

/-- What a command says about pausing. -/
def pauses? : StageCommand → Option Bool
  | .pause => some true
  | .resume | .run => some false
  | .reset | .shutdown => none

theorem paused_storeFlag (control : StageControl) (cmd : StageCommand) :
    (control.storeFlag cmd).paused = (pauses? cmd).getD control.paused := by
  cases cmd <;> rfl

/-- Whether the last of the calls about pausing was a pause. -/
def lastPauses (calls : List SetCommandCall) : Bool :=
  ((calls.filterMap fun c => pauses? c.cmd).getLast?).getD false

theorem lastPauses_concat (calls : List SetCommandCall) (c : SetCommandCall) :
    lastPauses (calls ++ [c]) = (pauses? c.cmd).getD (lastPauses calls) := by
  unfold lastPauses
  rw [List.filterMap_append, filterMap_singleton]
  cases pauses? c.cmd with
  | none => rw [Option.toList_none, List.append_nil]; rfl
  | some b => simp

theorem lastPauses_look (calls : List SetCommandCall) :
    lastPauses (calls.map SetCommandCall.look) = lastPauses calls := by
  rw [lastPauses, List.filterMap_map]
  rfl

/-- Whether a call about pausing is in progress. -/
def pausing (calls : List SetCommandCall) : Bool :=
  calls.any fun c => (pauses? c.cmd).isSome && decide (c.pc ≠ .returned)

theorem pausing_concat (calls : List SetCommandCall) (c : SetCommandCall) :
    pausing (calls ++ [c]) = (pausing calls || (pauses? c.cmd).isSome && decide (c.pc ≠ .returned)) := by
  simp [pausing]

theorem pausing_look (calls : List SetCommandCall) :
    pausing (calls.map SetCommandCall.look) = pausing calls := by
  rw [pausing, List.any_map]
  rfl

theorem pausing_eq_false {calls : List SetCommandCall} (h : ∀ c ∈ calls, c.pc = .returned) :
    pausing calls = false := by
  rw [pausing, List.any_eq_false]
  intro c hc
  simp [h c hc]

/-- **A pause is kept**: when no `set_command` call is in progress on either side, the flag
is what the last pause or resume made it. -/
def PauseKept (s : StageThread S) : Prop :=
  (∀ c ∈ s.calls, c.pc = .returned) → s.worker.pc ≠ .ackFlag →
    s.worker.control.paused = lastPauses s.calls

/-- **What a pause needs of a step**: the worker, acknowledging a reset, does not clear a flag
that is set, unless a call that stores the flag is in progress. -/
def sparesPause (s : StageThread S) : Act ι → Bool
  | .worker => match s.worker.pc with
    | .ackFlag => !s.worker.control.paused || pausing s.calls
    | _ => true
  | _ => true

/-- A step of the worker, or of one controlling thread, that spares a pause. -/
abbrev SparesPause (s : StageThread S) (a : Act ι) : Prop := Controller s a ∧ sparesPause s a = true

/-- The invariant of the runs that spare pauses. -/
structure PauseInv (s : StageThread S) : Prop where
  /-- Only the last call can be in progress. -/
  alone : ∀ (i : ℕ) (c : SetCommandCall), s.calls[i]? = some c → c.pc ≠ .returned →
    i + 1 = s.calls.length
  /-- The flag is right, unless it is about to be stored. -/
  kept : pausing s.calls = false → s.worker.control.paused = lastPauses s.calls

section PauseSteps

variable {s s' : StageThread S}

theorem PauseInv.workerStep (h : PauseInv s) (hx : sparesPause s (.worker : Act ι) = true)
    (hw : Worker.Step s.worker s.input s.output s'.worker s'.input s'.output)
    (hcalls : s'.calls = if s.worker.pc.isLoopHead then s.calls.map SetCommandCall.look else s.calls) :
    PauseInv s' := by
  have hpausing : pausing s'.calls = pausing s.calls := by
    rw [hcalls]
    split
    · exact pausing_look s.calls
    · rfl
  have hlast : lastPauses s'.calls = lastPauses s.calls := by
    rw [hcalls]
    split
    · exact lastPauses_look s.calls
    · rfl
  constructor
  · intro i c hc hpc
    rw [hcalls] at hc ⊢
    split at hc
    · rw [List.getElem?_map] at hc
      obtain ⟨d, hd, rfl⟩ := Option.map_eq_some_iff.mp hc
      rw [if_pos ‹_›, List.length_map]
      exact h.alone i d hd hpc
    · rw [if_neg ‹_›]
      exact h.alone i c hc hpc
  · intro hno
    rw [hpausing] at hno
    rw [hlast, ← h.kept hno]
    rcases hw.paused_cases with ⟨hack, hfalse⟩ | ⟨-, hsame⟩
    · simp only [sparesPause, hack, hno, Bool.or_false, Bool.not_eq_true'] at hx
      rw [hfalse, hx]
    · exact hsame

theorem PauseInv.call (h : PauseInv s) {cmd : StageCommand} (hx : Controller s (.call cmd : Act ι)) :
    PauseInv { s with calls := s.calls ++ [⟨cmd, .called, s.worker.resets, false⟩] } := by
  have hall : ∀ c ∈ s.calls, c.pc = .returned := by
    simp only [Controller, controller, Bool.and_eq_true, List.all_eq_true, decide_eq_true_eq] at hx
    exact hx.2
  constructor
  · intro i c hc hpc
    rcases of_getElem?_concat hc with ⟨rfl, -⟩ | hc
    · simp
    · exact absurd (hall c (List.mem_of_getElem? hc)) hpc
  · intro hno
    simp only [pausing_concat, Bool.or_eq_false_iff] at hno
    obtain ⟨hold, hnew⟩ := hno
    simp only [lastPauses_concat, h.kept hold]
    cases hcmd : pauses? cmd with
    | none => rfl
    | some b => simp [hcmd] at hnew

theorem PauseInv.callStep (h : PauseInv s) {i : ℕ} {c : SetCommandCall} (hc : s.calls[i]? = some c)
    (hs : s.callStep i c = some s') : PauseInv s' := by
  have hnot : c.pc ≠ .returned := by
    intro hpc
    simp [StageThread.callStep, hpc] at hs
  -- the call is the last
  obtain ⟨calls, heq, hset⟩ := exists_eq_concat hc (h.alone i c hc hnot)
  have halone : ∀ (d : SetCommandCall) (j : ℕ) (e : SetCommandCall),
      (s.calls.set i d)[j]? = some e → e.pc ≠ .returned → j + 1 = (s.calls.set i d).length := by
    intro d j e he hpc
    rw [List.length_set]
    rcases of_getElem?_set he with ⟨rfl, -⟩ | ⟨-, he⟩
    · exact h.alone j c hc hnot
    · exact h.alone j e he hpc
  have hkept := h.kept
  rw [heq, pausing_concat, lastPauses_concat] at hkept
  rcases callStep_cases hs with ⟨hpc, rfl⟩ | ⟨-, rfl⟩
  · refine ⟨halone _, ?_⟩
    intro hno
    simp only [hset, pausing_concat, lastPauses_concat, StageControl.paused_storeCommand] at hno ⊢
    simp only [hpc] at hkept
    exact hkept hno
  · refine ⟨halone _, ?_⟩
    intro hno
    simp only [hset, pausing_concat, lastPauses_concat, paused_storeFlag] at hno ⊢
    cases hcmd : pauses? c.cmd with
    | none => simpa [hcmd] using hkept (by simpa [hcmd] using hno)
    | some b => rfl

theorem PauseInv.step (h : PauseInv s) {a : Act ι} (hx : SparesPause s a) (hs : s.step a = some s') :
    PauseInv s' := by
  rcases step_cases hs with ⟨rfl, hw, hcalls⟩ | ⟨cmd, rfl, rfl⟩ | ⟨i, c, rfl, hc, hs⟩ | ⟨hw, hcalls⟩
  · exact h.workerStep hx.2 hw hcalls
  · exact h.call hx.1
  · exact h.callStep hc hs
  · obtain ⟨worker, input, output, calls⟩ := s'
    subst hw hcalls
    exact ⟨h.alone, h.kept⟩

end PauseSteps

/-- **When a pause is kept**: in every run of one controlling thread in which the worker clears
no flag that is to stay set. -/
theorem pauseKept_of_sparesPause {s : StageThread S} (h : Machine.ReachBy (machine S) SparesPause s) :
    PauseKept s := by
  have hinv : PauseInv s := by
    refine h.invariant (I := PauseInv) ?_ fun s a s' hi hx hs => hi.step hx hs
    rintro s ⟨m, n, rfl⟩
    exact ⟨by simp [spawn], fun _ => rfl⟩
  intro hall _
  exact hinv.kept (pausing_eq_false hall)

/-- A reset that is acknowledged, and a pause after it. -/
theorem pauseKept_of_sparesPause_after : ∃ s : StageThread (Stage.map (· + 1 : ℕ → ℕ)),
    s.worker.control.paused = true ∧ s.worker.resets = 1 ∧ s.worker.pc = .checkShutdown ∧
      s.calls.map SetCommandCall.cmd = [.reset, .pause] ∧ PauseKept s := by
  obtain ⟨s, hs, hp⟩ := Machine.exists_reachBy_of_runBy (M := machine (Stage.map (· + 1 : ℕ → ℕ)))
    (C := SparesPause) (s := spawn _ 1 1) ⟨1, 1, rfl⟩
    (List.flatten [[.call .reset, .callStep 0, .callStep 0], .replicate 8 .worker,
      [.call .pause, .callStep 1, .callStep 1], .replicate 5 .worker])
    (fun s => decide (s.worker.control.paused = true ∧ s.worker.resets = 1 ∧
      s.worker.pc = .checkShutdown ∧ s.calls.map SetCommandCall.cmd = [.reset, .pause])) (by decide)
  obtain ⟨hpaused, hr, hpc, hcalls⟩ := of_decide_eq_true hp
  exact ⟨s, hpaused, hr, hpc, hcalls, pauseKept_of_sparesPause hs⟩

/-- The worker checks the flag and finds a reset; `pause()` runs from beginning to end; the
worker resets the stage, stores `Run`, and clears the flag. -/
theorem not_forall_pauseKept : ¬ ∀ (S : Stage ℕ ℕ) (s : StageThread S),
    Machine.ReachBy (machine S) Controller s → PauseKept s := by
  intro h
  obtain ⟨s, hs, hp⟩ := Machine.exists_reachBy_of_runBy (M := machine (Stage.map (· + 1 : ℕ → ℕ)))
    (C := Controller) (s := spawn _ 1 1) ⟨1, 1, rfl⟩
    (List.flatten [[.call .reset, .callStep 0, .callStep 0], .replicate 4 .worker,
      [.call .pause, .callStep 1, .callStep 1], .replicate 4 .worker])
    (fun s => decide (s.worker.control.paused = false ∧ s.worker.pc = .recv ∧
      s.calls = [⟨.reset, .returned, 0, true⟩, ⟨.pause, .returned, 0, false⟩])) (by decide)
  obtain ⟨hpaused, hpc, hcalls⟩ := of_decide_eq_true hp
  have := h _ s hs (by simp [hcalls]) (by simp [hpc])
  rw [hpaused, hcalls] at this
  cases this

/-! ### Shutdown -/

/-- A `set_command(Shutdown)` that has returned has set the flag. -/
def ShutdownSet (s : StageThread S) : Prop :=
  ∀ c ∈ s.calls, c.cmd = .shutdown → c.pc = .returned → s.worker.control.shutdown = true

section ShutdownSteps

variable {s s' : StageThread S} {a : Act ι}

/-- Nothing clears the shutdown flag. -/
theorem shutdown_step (hs : s.step a = some s') (h : s.worker.control.shutdown = true) :
    s'.worker.control.shutdown = true := by
  rcases step_cases hs with ⟨-, hw, -⟩ | ⟨cmd, -, rfl⟩ | ⟨i, c, -, -, hs⟩ | ⟨hw, -⟩
  · rw [hw.shutdown_eq]
    exact h
  · exact h
  · rcases callStep_cases hs with ⟨-, rfl⟩ | ⟨-, rfl⟩
    · exact h
    · simp [h]
  · rw [hw]
    exact h

theorem ShutdownSet.step (h : ShutdownSet s) (hs : s.step a = some s') : ShutdownSet s' := by
  intro c hc hcmd hpc
  by_cases hset : s.worker.control.shutdown = true
  · exact shutdown_step hs hset
  · rcases step_cases hs with ⟨-, -, hcalls⟩ | ⟨cmd, -, rfl⟩ | ⟨i, d, -, hd, hs⟩ | ⟨-, hcalls⟩
    · obtain ⟨d, hd, hcmd', hpc', -⟩ := exists_of_mem_look (hcalls ▸ hc)
      exact absurd (h d hd (hcmd'.symm.trans hcmd) (hpc'.symm.trans hpc)) hset
    · rcases List.mem_append.mp hc with hc | hc
      · exact absurd (h c hc hcmd hpc) hset
      · cases List.mem_singleton.mp hc
        cases hpc
    · rcases callStep_cases hs with ⟨-, rfl⟩ | ⟨-, rfl⟩
      · rcases List.mem_or_eq_of_mem_set hc with hc | rfl
        · exact absurd (h c hc hcmd hpc) hset
        · cases hpc
      · rcases List.mem_or_eq_of_mem_set hc with hc | rfl
        · exact absurd (h c hc hcmd hpc) hset
        · simpa using .inl hcmd
    · rw [hcalls] at hc
      exact absurd (h c hc hcmd hpc) hset

end ShutdownSteps

/-- **Shutdown is irrevocable and prompt**: after a `set_command(Shutdown)` has returned,
whatever other calls are made, the flag stays set, and the worker takes one more item at
most and calls `flush` once at most. -/
theorem shutdown_prompt {s s' : StageThread S} (h : (machine S).Reach s)
    (hcall : ∃ c ∈ s.calls, c.cmd = .shutdown ∧ c.pc = .returned) (hs : (machine S).Steps s s') :
    s'.worker.control.shutdown = true ∧ ∃ new, s'.worker.hist = s.worker.hist ++ new ∧
      (new.filterMap Event.took?).length ≤ 1 ∧ new.countP Event.isFlushed ≤ 1 := by
  have hset : ShutdownSet s := by
    refine h.invariant (I := ShutdownSet) ?_ fun s a s' hi _ hs => hi.step hs
    rintro s ⟨m, n, rfl⟩ c hc
    cases hc
  obtain ⟨c, hc, hcmd, hpc⟩ := hcall
  have hkeep := hs.keeps
    (P := fun t => t.worker.control.shutdown = true ∧ s.worker.Within t.worker) ?_
    ⟨hset c hc hcmd hpc, .refl _⟩
  · obtain ⟨hsd, new, hnew, htake, hflush⟩ := hkeep
    have hmay : s.worker.pc.mayTake ≤ 1 ∧ s.worker.pc.mayFlush ≤ 1 := by
      cases s.worker.pc <;> simp
    exact ⟨hsd, new, hnew, by omega, by omega⟩
  · rintro t a t' ⟨hsd, hwithin⟩ - hst
    refine ⟨shutdown_step hst hsd, ?_⟩
    exact step_worker (P := s.worker.Within) (fun _ _ hw => hw)
      (fun _ hw hstep => hw.trans (hstep.within hsd)) hst hwithin

/-- Shutdown while the worker is inside the timed receive, which then returns an item. -/
theorem shutdown_prompt_waiting : ∃ s s' : StageThread sumStage, s.worker.pc = .waiting ∧
    s'.worker.pc = .returned ∧ s'.worker.control.shutdown = true ∧
    ∃ new, s'.worker.hist = s.worker.hist ++ new ∧
      (new.filterMap Event.took?).length ≤ 1 ∧ new.countP Event.isFlushed ≤ 1 := by
  obtain ⟨s, s', hr, hs, hp⟩ := Machine.exists_steps_of_run (M := machine sumStage)
    (s := spawn sumStage 1 1) ⟨1, 1, rfl⟩
    (List.flatten [.replicate 5 .worker, [.send 7, .call .shutdown, .callStep 0, .callStep 0]])
    (.replicate 12 .worker)
    (fun s s' => decide (s.worker.pc = .waiting ∧ s.calls = [⟨.shutdown, .returned, 0, false⟩] ∧
      s'.worker.pc = .returned)) (by decide)
  obtain ⟨hpc, hcalls, hpc'⟩ := of_decide_eq_true hp
  obtain ⟨hsd, hnew⟩ := shutdown_prompt hr
    ⟨⟨.shutdown, .returned, 0, false⟩, by simp [hcalls], rfl, rfl⟩ hs
  exact ⟨s, s', hpc, hpc', hsd, hnew⟩

end StageThread

end SensorBridge.Pipeline
