import SensorBridge.Foundation.Machine
import SensorBridge.Foundation.Threads
import SensorBridge.Foundation.Exchange
import SensorBridge.Backpressure.RateLimiter
import Mathlib.Algebra.BigOperators.Ring.List

/-!
# Acquisitions by many threads

Any number of threads are in `try_acquire_n` and `available_tokens` of one limiter. Each call
refills first: it reads the clock, swaps the time of the last refill, and adds what the time
between is worth with `fetch_update`, a loop around an exchange. `try_acquire_n` then takes its
tokens in a loop of its own, and counts that it did or that there were too few. An exchange may
fail for no reason.

Tokens are neither made nor granted twice, whatever the interleaving: what is in the bucket and
what the calls were charged come out of what it began with and what was credited
(`accounted_of_reach`). A call that is granted `n` tokens is charged for them, but never more than fits
in 64 bits: `2 ^ 32` tokens or more it has for less. When nobody asks for that many, and the threads swap
the times in the order in which they read them, what was granted is worth no more than the time that
has passed (`granted_le_of_inOrder`). And an exchange finds the cell changed only when another thread has
written it meanwhile (`changed_le_of_reach`). `f64` is exact.

A call of `try_acquire_n` that nobody interrupts is `RateLimiter.tryAcquireN` (`run_tryAcquireN`).
-/

namespace SensorBridge.Backpressure

open Foundation Foundation.Exchange

/-- What is called. -/
inductive Ask where
  /-- `try_acquire_n(n)`. -/
  | tryAcquireN (n : ℕ)
  /-- `available_tokens()`. -/
  | availableTokens
  deriving DecidableEq

/-- What a call returns. -/
inductive Reply where
  | acquired (granted : Bool)
  | tokens (available : ℚ)
  deriving DecidableEq

/-- Where a thread is in its call. -/
inductive AcquirePc where
  /-- `created.elapsed()` is next. -/
  | called
  /-- It has read `nowNs`; the swap is next. -/
  | read (nowNs : ℕ)
  /-- It has swapped an earlier time, worth some tokens; the load of `fetch_update` is next. -/
  | swapped (elapsedNs : ℕ)
  /-- In `fetch_update`: it has seen `current`, after so many writes; the exchange is next. -/
  | updating (elapsedNs current writes : ℕ)
  /-- `refill` has returned; the load of the loop is next. -/
  | refilled
  /-- It has seen `current`, after so many writes, and that is enough; the exchange is next. -/
  | exchanging (current writes : ℕ)
  /-- It has its tokens; `acquired_count.fetch_add` is next. -/
  | granted
  /-- There were too few; `rejected_count.fetch_add` is next. -/
  | refused
  | returned (reply : Reply)
  deriving DecidableEq

namespace AcquirePc

/-- Whether the call has taken its tokens. -/
@[simp] def hasTaken : AcquirePc → Bool
  | granted | returned (.acquired true) => true
  | _ => false

/-- The time that the call is about to credit. -/
@[simp] def pending : AcquirePc → ℕ
  | swapped elapsedNs | updating elapsedNs _ _ => elapsedNs
  | _ => 0

/-- Whether the call has returned this. -/
@[simp] def hasReturned (b : Bool) : AcquirePc → Bool
  | returned (.acquired c) => b == c
  | _ => false

end AcquirePc

/-- A call. -/
structure AcquireCall where
  ask : Ask
  pc : AcquirePc
  /-- What became of its exchanges. -/
  tally : Tally

/-- What the calls share. -/
structure AcquireMemory where
  limiter : RateLimiter
  /-- The largest value of the clock that was read. -/
  clock : ℕ
  /-- How often the tokens were written. -/
  writes : ℕ
  /-- The intervals for which tokens were added. -/
  credited : List ℕ

namespace AcquireCall

/-- What the call asks for, in fixed point. -/
def neededFp (c : AcquireCall) : ℕ :=
  match c.ask with
  | .tryAcquireN n => saturatingMul n RateLimiter.fpScale
  | .availableTokens => 0

/-- What was taken for the call. -/
def takenFp (c : AcquireCall) : ℕ := if c.pc.hasTaken then c.neededFp else 0

/-- The call goes on. -/
def goTo (c : AcquireCall) (pc : AcquirePc) : AcquireCall := { c with pc }

/-- `self.created.elapsed()`. The clock does not go back. -/
def readClock (m : AcquireMemory) (c : AcquireCall) (nowNs : ℕ) : Option (AcquireMemory × AcquireCall) :=
  if c.pc = .called ∧ m.clock ≤ nowNs then some ({ m with clock := nowNs }, c.goTo (.read nowNs)) else none

/-- The next step of a call; an exchange may fail for no reason. -/
def next (m : AcquireMemory) (c : AcquireCall) (spurious : Bool) : Option (AcquireMemory × AcquireCall) :=
  match c.pc with
  | .called => none
  | .read nowNs =>
    let last := m.limiter.lastUpdateNs
    some ({ m with limiter.lastUpdateNs := nowNs },
      c.goTo (if nowNs ≤ last ∨ RateLimiter.tokensToAdd m.limiter.config (nowNs - last) = 0 then .refilled
              else .swapped (nowNs - last)))
  | .swapped elapsed => some (m, c.goTo (.updating elapsed m.limiter.tokensFp m.writes))
  | .updating elapsed current _ =>
    if m.limiter.tokensFp = current ∧ spurious = false then
      some ({ m with limiter.tokensFp := RateLimiter.addTokens m.limiter.config
                       (RateLimiter.tokensToAdd m.limiter.config elapsed) current
                     writes := m.writes + 1
                     credited := m.credited ++ [elapsed] },
        { c with pc := .refilled, tally := c.tally.succeed })
    else
      -- the exchange gives what the cell holds, and the closure is called with that
      some (m, { c with pc := .updating elapsed m.limiter.tokensFp m.writes
                        tally := c.tally.fail (decide (m.limiter.tokensFp ≠ current)) })
  | .refilled =>
    match c.ask with
    | .availableTokens => some (m, c.goTo (.returned (.tokens (m.limiter.tokensFp / RateLimiter.fpScale))))
    | .tryAcquireN _ =>
      some (m, c.goTo (if m.limiter.tokensFp < c.neededFp then .refused
                       else .exchanging m.limiter.tokensFp m.writes))
  | .exchanging current _ =>
    if m.limiter.tokensFp = current ∧ spurious = false then
      some ({ m with limiter.tokensFp := current - c.neededFp, writes := m.writes + 1 },
        { c with pc := .granted, tally := c.tally.succeed })
    else
      some (m, { c with pc := .refilled, tally := c.tally.fail (decide (m.limiter.tokensFp ≠ current)) })
  | .granted =>
    some ({ m with limiter.acquiredCount := (m.limiter.acquiredCount + 1) % 2 ^ 64 },
      c.goTo (.returned (.acquired true)))
  | .refused =>
    some ({ m with limiter.rejectedCount := (m.limiter.rejectedCount + 1) % 2 ^ 64 },
      c.goTo (.returned (.acquired false)))
  | .returned _ => none

/-- **What a step of a call can be.** -/
inductive Move (m : AcquireMemory) (c : AcquireCall) : AcquireMemory → AcquireCall → Prop
  | readClock {now : ℕ} : c.pc = .called → m.clock ≤ now →
      Move m c { m with clock := now } (c.goTo (.read now))
  | early {now : ℕ} : c.pc = .read now →
      now ≤ m.limiter.lastUpdateNs ∨
        RateLimiter.tokensToAdd m.limiter.config (now - m.limiter.lastUpdateNs) = 0 →
      Move m c { m with limiter.lastUpdateNs := now } (c.goTo .refilled)
  | swap {now : ℕ} : c.pc = .read now → m.limiter.lastUpdateNs < now →
      Move m c { m with limiter.lastUpdateNs := now } (c.goTo (.swapped (now - m.limiter.lastUpdateNs)))
  | loadUpdate {elapsed : ℕ} : c.pc = .swapped elapsed →
      Move m c m (c.goTo (.updating elapsed m.limiter.tokensFp m.writes))
  | update {elapsed n tokens : ℕ} : c.pc = .updating elapsed m.limiter.tokensFp n →
      tokens = RateLimiter.addTokens m.limiter.config (RateLimiter.tokensToAdd m.limiter.config elapsed)
        m.limiter.tokensFp →
      Move m c
        { m with limiter.tokensFp := tokens, writes := m.writes + 1, credited := m.credited ++ [elapsed] }
        { c with pc := .refilled, tally := c.tally.succeed }
  | updateFails {elapsed current n : ℕ} : c.pc = .updating elapsed current n →
      Move m c m { c with pc := .updating elapsed m.limiter.tokensFp m.writes
                          tally := c.tally.fail (decide (m.limiter.tokensFp ≠ current)) }
  | available : c.pc = .refilled → c.ask = .availableTokens →
      Move m c m (c.goTo (.returned (.tokens (m.limiter.tokensFp / RateLimiter.fpScale))))
  | refuse : c.pc = .refilled → m.limiter.tokensFp < c.neededFp → Move m c m (c.goTo .refused)
  | load : c.pc = .refilled → c.neededFp ≤ m.limiter.tokensFp →
      Move m c m (c.goTo (.exchanging m.limiter.tokensFp m.writes))
  | acquire {n tokens : ℕ} : c.pc = .exchanging m.limiter.tokensFp n →
      tokens = m.limiter.tokensFp - c.neededFp →
      Move m c { m with limiter.tokensFp := tokens, writes := m.writes + 1 }
        { c with pc := .granted, tally := c.tally.succeed }
  | acquireFails {current n : ℕ} : c.pc = .exchanging current n →
      Move m c m
        { c with pc := .refilled, tally := c.tally.fail (decide (m.limiter.tokensFp ≠ current)) }
  | countAcquired {count : ℕ} : c.pc = .granted → count = (m.limiter.acquiredCount + 1) % 2 ^ 64 →
      Move m c { m with limiter.acquiredCount := count }
        (c.goTo (.returned (.acquired true)))
  | countRejected {count : ℕ} : c.pc = .refused → count = (m.limiter.rejectedCount + 1) % 2 ^ 64 →
      Move m c { m with limiter.rejectedCount := count }
        (c.goTo (.returned (.acquired false)))

variable {m m' : AcquireMemory} {c c' : AcquireCall}

theorem move_of_readClock {now : ℕ} (h : c.readClock m now = some (m', c')) : Move m c m' c' := by
  unfold AcquireCall.readClock at h
  split_ifs at h with hc
  cases h
  exact .readClock hc.1 hc.2

theorem move_of_next {spurious : Bool} (h : c.next m spurious = some (m', c')) : Move m c m' c' := by
  cases hpc : c.pc with
  | called | returned => simp [next, hpc] at h
  | read now =>
    simp only [next, hpc, Option.some.injEq, Prod.mk.injEq] at h
    obtain ⟨rfl, rfl⟩ := h
    split_ifs with hearly
    · exact .early hpc hearly
    · rw [not_or, Nat.not_le] at hearly
      exact .swap hpc hearly.1
  | swapped elapsed =>
    simp only [next, hpc, Option.some.injEq, Prod.mk.injEq] at h
    obtain ⟨rfl, rfl⟩ := h
    exact .loadUpdate hpc
  | updating elapsed current n =>
    simp only [next, hpc] at h
    split_ifs at h with hex
    · cases h
      obtain ⟨rfl, -⟩ := hex
      exact .update hpc rfl
    · cases h
      exact .updateFails hpc
  | refilled =>
    simp only [next, hpc] at h
    split at h
    · cases h
      exact .available hpc ‹_›
    · cases h
      split_ifs with hlt
      · exact .refuse hpc hlt
      · exact .load hpc (Nat.not_lt.1 hlt)
  | exchanging current n =>
    simp only [next, hpc] at h
    split_ifs at h with hex
    · cases h
      obtain ⟨rfl, -⟩ := hex
      exact .acquire hpc rfl
    · cases h
      exact .acquireFails hpc
  | granted =>
    simp only [next, hpc, Option.some.injEq, Prod.mk.injEq] at h
    obtain ⟨rfl, rfl⟩ := h
    exact .countAcquired hpc rfl
  | refused =>
    simp only [next, hpc, Option.some.injEq, Prod.mk.injEq] at h
    obtain ⟨rfl, rfl⟩ := h
    exact .countRejected hpc rfl

end AcquireCall

/-- A limiter with the calls on it, in the order in which they began. -/
structure Acquiring where
  memory : AcquireMemory
  calls : List AcquireCall

namespace Acquiring

/-- What can happen next. -/
inductive Act where
  /-- A thread makes a call. -/
  | call (ask : Ask)
  /-- Call `i` reads the clock. -/
  | readClock (i nowNs : ℕ)
  /-- Call `i` takes its next step. -/
  | next (i : ℕ) (spurious : Bool)

/-- The call that moves. -/
def Act.index : Act → Option ℕ
  | .call _ => none
  | .readClock i _ | .next i _ => some i

/-- What call `i` does to the memory and to itself. -/
def record (s : Acquiring) (i : ℕ) (r : AcquireMemory × AcquireCall) : Acquiring :=
  ⟨r.1, s.calls.set i r.2⟩

/-- One step. -/
def step (s : Acquiring) : Act → Option Acquiring
  | .call ask => some { s with calls := s.calls ++ [⟨ask, .called, .start s.memory.writes⟩] }
  | .readClock i nowNs => s.calls[i]?.bind fun c => (c.readClock s.memory nowNs).map (s.record i)
  | .next i spurious => s.calls[i]?.bind fun c => (c.next s.memory spurious).map (s.record i)

/-- The machine, from a fresh limiter. -/
def machine (config : RateLimiterConfig) : Machine Acquiring Act where
  init s := s = ⟨⟨.new config, 0, 0, []⟩, []⟩
  step := step

variable {config : RateLimiterConfig} {s s' : Acquiring} {a : Act}

/-- **What a step can be.** -/
theorem step_cases (h : s.step a = some s') :
    (∃ ask, s' = { s with calls := s.calls ++ [⟨ask, .called, .start s.memory.writes⟩] }) ∨
    ∃ i c m c', a.index = some i ∧ s.calls[i]? = some c ∧ AcquireCall.Move s.memory c m c' ∧
      s' = ⟨m, s.calls.set i c'⟩ := by
  cases a with
  | call ask =>
    cases h
    exact .inl ⟨ask, rfl⟩
  | readClock i now =>
    obtain ⟨c, hc, h⟩ := Option.bind_eq_some_iff.mp h
    obtain ⟨⟨m, c'⟩, hm, rfl⟩ := Option.map_eq_some_iff.mp h
    exact .inr ⟨i, c, m, c', rfl, hc, AcquireCall.move_of_readClock hm, rfl⟩
  | next i spurious =>
    obtain ⟨c, hc, h⟩ := Option.bind_eq_some_iff.mp h
    obtain ⟨⟨m, c'⟩, hm, rfl⟩ := Option.map_eq_some_iff.mp h
    exact .inr ⟨i, c, m, c', rfl, hc, AcquireCall.move_of_next hm, rfl⟩

/-! ### The account -/

/-- What was charged for what was granted, in fixed point. -/
def chargedFp (s : Acquiring) : ℕ := (s.calls.map AcquireCall.takenFp).sum

/-- What some intervals are worth, in fixed point. -/
def worthFp (config : RateLimiterConfig) (credited : List ℕ) : ℕ :=
  (credited.map fun elapsed => saturatingMul (RateLimiter.tokensToAdd config elapsed) RateLimiter.fpScale).sum

/-- How many calls have returned this. -/
def countReturned (s : Acquiring) (b : Bool) : ℕ := s.calls.countP fun c => c.pc.hasReturned b

theorem worthFp_concat (credited : List ℕ) (elapsed : ℕ) :
    worthFp config (credited ++ [elapsed]) = worthFp config credited +
      saturatingMul (RateLimiter.tokensToAdd config elapsed) RateLimiter.fpScale := by
  rw [worthFp, List.map_append, List.sum_append, List.map_singleton, List.sum_singleton]
  rfl

/-- What the call knows of the tokens, and the account of its exchanges. -/
def Sound (m : AcquireMemory) (c : AcquireCall) : Prop :=
  match c.pc with
  | .updating _ current n => Seen m.limiter.tokensFp m.writes current n ∧ c.tally.Within n
  | .exchanging current n =>
    Seen m.limiter.tokensFp m.writes current n ∧ c.tally.Within n ∧ c.neededFp ≤ current
  | _ => c.tally.Within m.writes

theorem Sound.within {m : AcquireMemory} {c : AcquireCall} (h : Sound m c) : c.tally.Within m.writes := by
  unfold Sound at h
  split at h
  · exact h.2.mono h.1.le
  · exact h.2.1.mono h.1.le
  · exact h

end Acquiring

namespace AcquireCall.Move

variable {m m' : AcquireMemory} {c c' d : AcquireCall}

theorem config_eq (h : Move m c m' c') : m'.limiter.config = m.limiter.config := by
  cases h <;> rfl

/-- A move writes the tokens, or leaves them. -/
theorem written (h : Move m c m' c') :
    (m'.writes = m.writes ∧ m'.limiter.tokensFp = m.limiter.tokensFp) ∨ m'.writes = m.writes + 1 := by
  cases h with
  | update | acquire => exact .inr rfl
  | _ => exact .inl ⟨rfl, rfl⟩

/-- What another call knows stays right. -/
theorem other (h : Move m c m' c') (hd : Acquiring.Sound m d) : Acquiring.Sound m' d := by
  unfold Acquiring.Sound at *
  rcases h.written with ⟨hw, ht⟩ | hw
  · rw [hw, ht]
    exact hd
  · rw [hw]
    split at hd
    · exact ⟨hd.1.write _, hd.2⟩
    · exact ⟨hd.1.write _, hd.2⟩
    · exact hd.mono (Nat.le_succ _)

/-- What the call knows is right after its move. -/
theorem sound (h : Move m c m' c') (hc : Acquiring.Sound m c) : Acquiring.Sound m' c' := by
  have hwithin := hc.within
  cases h with
  | loadUpdate hpc => exact ⟨.load _ _, hwithin⟩
  | load hpc hle => exact ⟨.load _ _, hwithin, hle⟩
  | update hpc | acquire hpc => exact hwithin.succeed
  | updateFails hpc =>
    simp only [Acquiring.Sound, hpc] at hc
    exact ⟨.load _ _, hc.2.fail hc.1⟩
  | acquireFails hpc =>
    simp only [Acquiring.Sound, hpc] at hc
    exact hc.2.1.fail hc.1
  | readClock | early | swap | available | refuse | countAcquired | countRejected => exact hwithin

/-- **No move makes a token**: what it puts into the bucket it has credited, and what it charges it
takes out. -/
theorem conserves (h : Move m c m' c') (hc : Acquiring.Sound m c) :
    m'.limiter.tokensFp + c'.takenFp + Acquiring.worthFp m.limiter.config m.credited ≤
      m.limiter.tokensFp + c.takenFp + Acquiring.worthFp m.limiter.config m'.credited := by
  cases h with
  | @update elapsed n tokens hpc htokens =>
    have hadd : RateLimiter.addTokens m.limiter.config (RateLimiter.tokensToAdd m.limiter.config elapsed)
        m.limiter.tokensFp ≤ m.limiter.tokensFp +
          saturatingMul (RateLimiter.tokensToAdd m.limiter.config elapsed) RateLimiter.fpScale :=
      (min_le_left _ _).trans (min_le_left _ _)
    rw [← htokens] at hadd
    simp only [takenFp, hpc, AcquirePc.hasTaken, Acquiring.worthFp_concat, Bool.false_eq_true, if_false]
    omega
  | acquire hpc htokens =>
    simp only [Acquiring.Sound, hpc] at hc
    have hle := hc.2.2
    subst htokens
    simp only [takenFp, neededFp, hpc, AcquirePc.hasTaken, Bool.false_eq_true, if_false, if_true] at *
    omega
  | countAcquired hpc hcount => simp [takenFp, goTo, neededFp, hpc]
  | readClock hpc | early hpc | swap hpc | loadUpdate hpc | updateFails hpc | available hpc | refuse hpc
  | load hpc | acquireFails hpc | countRejected hpc => simp [takenFp, goTo, hpc]

/-- The bucket is not filled beyond its capacity, except by what it began with. -/
theorem level_le (h : Move m c m' c') {bound : ℕ} (hm : m.limiter.tokensFp ≤ bound)
    (hcap : saturatingMul m.limiter.config.capacity RateLimiter.fpScale ≤ bound) :
    m'.limiter.tokensFp ≤ bound := by
  cases h with
  | update hpc htokens => exact htokens.trans_le (min_le_right _ _) |>.trans hcap
  | acquire hpc htokens => exact htokens.trans_le (Nat.sub_le _ _) |>.trans hm
  | _ => exact hm

/-- A call that has returned does not move. -/
theorem hasReturned_eq (h : Move m c m' c') (b : Bool) : c.pc.hasReturned b = false := by
  cases h with
  | readClock hpc | early hpc | swap hpc | loadUpdate hpc | update hpc | updateFails hpc | available hpc
  | refuse hpc | load hpc | acquire hpc | acquireFails hpc | countAcquired hpc | countRejected hpc => simp [hpc]

/-- A grant is counted when the call returns. -/
theorem acquired_cases (h : Move m c m' c') :
    (c'.pc.hasReturned true = true ∧ m'.limiter.acquiredCount = (m.limiter.acquiredCount + 1) % 2 ^ 64) ∨
      c'.pc.hasReturned true = false ∧ m'.limiter.acquiredCount = m.limiter.acquiredCount := by
  cases h with
  | countAcquired hpc hcount => exact .inl ⟨rfl, hcount⟩
  | _ => exact .inr ⟨rfl, rfl⟩

/-- So is a refusal. -/
theorem rejected_cases (h : Move m c m' c') :
    (c'.pc.hasReturned false = true ∧ m'.limiter.rejectedCount = (m.limiter.rejectedCount + 1) % 2 ^ 64) ∨
      c'.pc.hasReturned false = false ∧ m'.limiter.rejectedCount = m.limiter.rejectedCount := by
  cases h with
  | countRejected hpc hcount => exact .inl ⟨rfl, hcount⟩
  | _ => exact .inr ⟨rfl, rfl⟩

end AcquireCall.Move

namespace Acquiring

variable {config : RateLimiterConfig} {s s' : Acquiring} {a : Act}

/-- What the bucket begins with. -/
def initialFp (config : RateLimiterConfig) : ℕ := saturatingMul config.initialTokens RateLimiter.fpScale

/-- What it holds when it is full. -/
def capacityFp (config : RateLimiterConfig) : ℕ := saturatingMul config.capacity RateLimiter.fpScale

/-- **The account of a limiter.** -/
structure Accounted (config : RateLimiterConfig) (s : Acquiring) : Prop where
  /-- What is in the bucket and what was charged come out of what it began with and what was credited. -/
  conserved : s.memory.limiter.tokensFp + s.chargedFp ≤ initialFp config + worthFp config s.memory.credited
  /-- The bucket holds no more than its capacity, or than it began with. -/
  level_le : s.memory.limiter.tokensFp ≤ max (initialFp config) (capacityFp config)
  /-- The counters count the calls that have returned; they are 64 bits wide. -/
  acquired_eq : s.memory.limiter.acquiredCount = s.countReturned true % 2 ^ 64
  rejected_eq : s.memory.limiter.rejectedCount = s.countReturned false % 2 ^ 64

/-- The invariant. -/
structure Inv (config : RateLimiterConfig) (s : Acquiring) : Prop where
  config_eq : s.memory.limiter.config = config
  accounted : Accounted config s
  sound : ∀ c ∈ s.calls, Sound s.memory c

theorem countReturned_set {i : ℕ} {c c' : AcquireCall} {m : AcquireMemory} (hi : s.calls[i]? = some c)
    (hm : c.Move s.memory m c') (b : Bool) :
    countReturned ⟨m, s.calls.set i c'⟩ b = s.countReturned b + if c'.pc.hasReturned b then 1 else 0 := by
  have hset := Threads.countP_set_eq (a := c') (fun c : AcquireCall => c.pc.hasReturned b) hi
  simp only [hm.hasReturned_eq b, Bool.false_eq_true, if_false, Nat.add_zero] at hset
  exact hset

/-- A call is made. -/
theorem Inv.call (h : Inv config s) (ask : Ask) :
    Inv config { s with calls := s.calls ++ [⟨ask, .called, .start s.memory.writes⟩] } := by
  obtain ⟨hconfig, ⟨hcons, hlevel, hacq, hrej⟩, hsound⟩ := h
  refine ⟨hconfig, ⟨?_, hlevel, ?_, ?_⟩, ?_⟩
  · simpa [chargedFp, AcquireCall.takenFp] using hcons
  · simpa [countReturned] using hacq
  · simpa [countReturned] using hrej
  · intro c hc
    rcases List.mem_append.1 hc with hc | hc
    · exact hsound c hc
    · rw [List.mem_singleton.1 hc]
      exact Tally.within_start _

/-- A call moves. -/
theorem Inv.move (h : Inv config s) {i : ℕ} {c c' : AcquireCall} {m : AcquireMemory}
    (hi : s.calls[i]? = some c) (hm : c.Move s.memory m c') : Inv config ⟨m, s.calls.set i c'⟩ := by
  obtain ⟨hconfig, ⟨hcons, hlevel, hacq, hrej⟩, hsound⟩ := h
  have hc : Sound s.memory c := hsound c (List.mem_of_getElem? hi)
  refine ⟨hm.config_eq.trans hconfig, ⟨?_, ?_, ?_, ?_⟩, ?_⟩
  · have hmove := hm.conserves hc
    have hset := Threads.sum_map_set_eq (a := c') AcquireCall.takenFp hi
    rw [hconfig] at hmove
    simp only [chargedFp] at hcons ⊢
    omega
  · refine hm.level_le hlevel ?_
    rw [hconfig]
    exact le_max_right _ _
  · rw [countReturned_set hi hm]
    rcases hm.acquired_cases with ⟨hret, hcount⟩ | ⟨hret, hcount⟩
    · rw [hcount, hacq, hret, if_pos rfl, Nat.mod_add_mod]
    · rw [hcount, hacq, hret, if_neg Bool.false_ne_true, Nat.add_zero]
  · rw [countReturned_set hi hm]
    rcases hm.rejected_cases with ⟨hret, hcount⟩ | ⟨hret, hcount⟩
    · rw [hcount, hrej, hret, if_pos rfl, Nat.mod_add_mod]
    · rw [hcount, hrej, hret, if_neg Bool.false_ne_true, Nat.add_zero]
  · intro d hd
    rcases List.mem_or_eq_of_mem_set hd with hd | rfl
    · exact hm.other (hsound d hd)
    · exact hm.sound hc

theorem Inv.step (h : Inv config s) (hs : s.step a = some s') : Inv config s' := by
  rcases step_cases hs with ⟨ask, rfl⟩ | ⟨i, c, m, c', -, hi, hm, rfl⟩
  · exact h.call ask
  · exact h.move hi hm

theorem inv_of_reach (h : (machine config).Reach s) : Inv config s := by
  refine h.invariant ?_ fun s a s' hi _ hs => hi.step hs
  rintro _ rfl
  exact ⟨rfl, ⟨Nat.le_refl _, le_max_left _ _, rfl, rfl⟩, by simp⟩

/-- Three calls. The second finds the bucket changed by the third, whose exchange fails for no reason
later on. -/
def contended : List Act :=
  [.call (.tryAcquireN 60), .call (.tryAcquireN 50), .call (.tryAcquireN 1), .readClock 0 0, .readClock 1 30000000,
    .next 0 false, .next 0 false, .next 0 false, .next 0 false, .next 1 false, .next 1 false, .next 1 false,
    .readClock 2 35000000, .next 2 false, .next 2 false, .next 1 false, .next 2 false, .next 2 true, .next 2 false,
    .next 1 false, .next 1 false, .next 1 false]

/-- **An exchange finds the cell changed only when another thread has got through**: of every call, the
exchanges that did are no more than the other threads' writes of it since the call began. Those that fail for
no reason are not among them. -/
theorem changed_le_of_reach (h : (machine config).Reach s) :
    ∀ c ∈ s.calls, c.tally.changed ≤ s.memory.writes - c.tally.begun - c.tally.own :=
  fun c hc => ((inv_of_reach h).sound c hc).within.changed_le

theorem changed_le_of_reach_contended : ∃ s : Acquiring, s.calls.map (fun c => c.tally.changed) = [0, 1, 0] ∧
    s.memory.writes = 5 ∧ ∀ c ∈ s.calls, c.tally.changed ≤ s.memory.writes - c.tally.begun - c.tally.own := by
  obtain ⟨s, hs, htest⟩ := Machine.exists_reach_of_run (M := machine .default) rfl contended
    (fun s => decide (s.calls.map (fun c => c.tally.changed) = [0, 1, 0] ∧ s.memory.writes = 5)) (by decide +kernel)
  obtain ⟨hfails, hwrites⟩ := of_decide_eq_true htest
  exact ⟨s, hfails, hwrites, changed_le_of_reach hs⟩

/-! ### Threads that swap in order -/

/-- **What it takes of a step**: a thread swaps only a time that is not after its own. -/
def inOrder (s : Acquiring) (a : Act) : Bool :=
  match a.index.bind (s.calls[·]?) with
  | some ⟨_, .read nowNs, _⟩ => decide (s.memory.limiter.lastUpdateNs ≤ nowNs)
  | _ => true

/-- The time that the calls are about to credit. -/
def pending (s : Acquiring) : ℕ := (s.calls.map fun c => c.pc.pending).sum

/-- What holds as long as the threads swap in order. -/
structure Ordered (s : Acquiring) : Prop where
  /-- The time up to the last refill is shared out. -/
  sum_le : s.memory.credited.sum + s.pending ≤ s.memory.limiter.lastUpdateNs
  last_le : s.memory.limiter.lastUpdateNs ≤ s.memory.clock
  read_le : ∀ c ∈ s.calls, ∀ nowNs, c.pc = .read nowNs → nowNs ≤ s.memory.clock

end Acquiring

namespace AcquireCall.Move

variable {m m' : AcquireMemory} {c c' : AcquireCall}

/-- No time is credited that has not been swapped for. -/
theorem shares (h : Move m c m' c') (horder : ∀ now, c.pc = .read now → m.limiter.lastUpdateNs ≤ now) :
    m'.credited.sum + c'.pc.pending + m.limiter.lastUpdateNs ≤
      m.credited.sum + c.pc.pending + m'.limiter.lastUpdateNs := by
  cases h with
  | early hpc =>
    have hle := horder _ hpc
    simp [goTo, hpc, hle]
  | swap hpc hlt =>
    simp only [goTo, hpc, AcquirePc.pending]
    omega
  | update hpc => simp [hpc]
  | readClock hpc | loadUpdate hpc | updateFails hpc | available hpc | refuse hpc | load hpc | acquire hpc
  | acquireFails hpc | countAcquired hpc | countRejected hpc => simp [goTo, hpc]

/-- The last refill is at a time that was read. -/
theorem last_cases (h : Move m c m' c') :
    m'.limiter.lastUpdateNs = m.limiter.lastUpdateNs ∨ c.pc = .read m'.limiter.lastUpdateNs := by
  cases h with
  | early hpc => exact .inr hpc
  | swap hpc => exact .inr hpc
  | _ => exact .inl rfl

theorem clock_le (h : Move m c m' c') : m.clock ≤ m'.clock := by
  cases h with
  | readClock _ hle => exact hle
  | _ => exact Nat.le_refl _

/-- A call knows the time from the clock. -/
theorem read_le (h : Move m c m' c') {now : ℕ} (hpc : c'.pc = .read now) : now ≤ m'.clock := by
  cases h with
  | readClock => exact (AcquirePc.read.inj hpc).ge
  | early | swap | loadUpdate | update | updateFails | available | refuse | load | acquire | acquireFails
  | countAcquired | countRejected => cases hpc

end AcquireCall.Move

namespace Acquiring

variable {config : RateLimiterConfig} {s s' : Acquiring} {a : Act}

theorem Ordered.step (h : Ordered s) (ho : s.inOrder a = true) (hs : s.step a = some s') : Ordered s' := by
  obtain ⟨hsum, hlast, hread⟩ := h
  rcases step_cases hs with ⟨ask, rfl⟩ | ⟨i, c, m, c', hindex, hi, hm, rfl⟩
  · refine ⟨by simpa [pending] using hsum, hlast, ?_⟩
    intro c hc now hpc
    rcases List.mem_append.1 hc with hc | hc
    · exact hread c hc now hpc
    · rw [List.mem_singleton.1 hc] at hpc
      cases hpc
  · have horder : ∀ now, c.pc = .read now → s.memory.limiter.lastUpdateNs ≤ now := by
      intro now hpc
      obtain ⟨ask, pc, tally⟩ := c
      obtain rfl : pc = .read now := hpc
      simpa [inOrder, hindex, hi] using ho
    have hshares := hm.shares horder
    have hset := Threads.sum_map_set_eq (a := c') (fun c : AcquireCall => c.pc.pending) hi
    refine ⟨?_, ?_, ?_⟩
    · simp only [pending] at hsum ⊢
      omega
    · rcases hm.last_cases with heq | hpc
      · exact heq.trans_le (hlast.trans hm.clock_le)
      · exact (hread c (List.mem_of_getElem? hi) _ hpc).trans hm.clock_le
    · intro d hd now hpc
      rcases List.mem_or_eq_of_mem_set hd with hd | rfl
      · exact (hread d hd now hpc).trans hm.clock_le
      · exact hm.read_le hpc

/-- What a call has been granted, in tokens. -/
def grantedTokens (c : AcquireCall) : ℕ :=
  if c.pc.hasTaken then
    match c.ask with
    | .tryAcquireN n => n
    | .availableTokens => 0
  else 0

/-- The call asks for what fixed point has room for. -/
def Representable (c : AcquireCall) : Prop := ∀ n, c.ask = .tryAcquireN n → n < 2 ^ 32

/-- It is charged for what it is granted then. -/
theorem takenFp_eq {c : AcquireCall} (h : Representable c) :
    c.takenFp = grantedTokens c * RateLimiter.fpScale := by
  unfold grantedTokens AcquireCall.takenFp
  split_ifs with htaken
  · cases hask : c.ask with
    | tryAcquireN n =>
      simp only [AcquireCall.neededFp, hask]
      exact RateLimiter.saturatingMul_fpScale (h n hask)
    | availableTokens =>
      simp only [AcquireCall.neededFp, hask]
      exact (Nat.zero_mul _).symm
  · exact (Nat.zero_mul _).symm

theorem chargedFp_eq (h : ∀ c ∈ s.calls, Representable c) :
    s.chargedFp = (s.calls.map grantedTokens).sum * RateLimiter.fpScale := by
  have hall : s.calls.map AcquireCall.takenFp = s.calls.map fun c => grantedTokens c * RateLimiter.fpScale :=
    List.map_congr_left fun c hc => takenFp_eq (h c hc)
  rw [chargedFp, hall, List.sum_map_mul_right]

/-- Some intervals are credited with no more than their sum is worth. -/
theorem worthFp_le (hrate : 0 ≤ config.refillRate) (credited : List ℕ) :
    (worthFp config credited : ℚ) ≤ RateLimiter.fpScale * RateLimiter.worth config credited.sum := by
  induction credited with
  | nil => simp [worthFp, RateLimiter.worth]
  | cons elapsed credited ih =>
    have hone : (saturatingMul (RateLimiter.tokensToAdd config elapsed) RateLimiter.fpScale : ℚ) ≤
        RateLimiter.fpScale * RateLimiter.worth config elapsed := by
      have hsat : saturatingMul (RateLimiter.tokensToAdd config elapsed) RateLimiter.fpScale ≤
          RateLimiter.tokensToAdd config elapsed * RateLimiter.fpScale := min_le_left _ _
      have hworth : (RateLimiter.tokensToAdd config elapsed : ℚ) ≤ RateLimiter.worth config elapsed :=
        toU64_le (RateLimiter.worth_nonneg hrate elapsed)
      calc (saturatingMul (RateLimiter.tokensToAdd config elapsed) RateLimiter.fpScale : ℚ)
          ≤ (RateLimiter.tokensToAdd config elapsed * RateLimiter.fpScale : ℕ) := Nat.cast_le.2 hsat
        _ = RateLimiter.fpScale * (RateLimiter.tokensToAdd config elapsed : ℚ) := by
          rw [Nat.cast_mul, mul_comm]
        _ ≤ RateLimiter.fpScale * RateLimiter.worth config elapsed :=
          mul_le_mul_of_nonneg_left hworth (Nat.cast_nonneg _)
    have hsum : RateLimiter.worth config (elapsed :: credited).sum =
        RateLimiter.worth config elapsed + RateLimiter.worth config credited.sum := by
      simp only [RateLimiter.worth, List.sum_cons, Nat.cast_add]
      ring
    have hcons : worthFp config (elapsed :: credited) =
        saturatingMul (RateLimiter.tokensToAdd config elapsed) RateLimiter.fpScale + worthFp config credited := by
      rw [worthFp, List.map_cons, List.sum_cons, worthFp]
    rw [hcons, hsum, Nat.cast_add, mul_add]
    exact add_le_add hone ih

theorem worth_mono (hrate : 0 ≤ config.refillRate) {e e' : ℕ} (h : e ≤ e') :
    RateLimiter.worth config e ≤ RateLimiter.worth config e' := by
  unfold RateLimiter.worth
  have hcast : (e : ℚ) ≤ e' := Nat.cast_le.2 h
  exact mul_le_mul_of_nonneg_left (div_le_div_of_nonneg_right hcast (by norm_num)) hrate

theorem ordered_of_reachBy (h : (machine config).ReachBy (fun s a => s.inOrder a = true) s) : Ordered s := by
  refine h.invariant ?_ fun s a s' hi ho hs => hi.step ho hs
  rintro _ rfl
  exact ⟨Nat.le_refl _, Nat.le_refl _, by simp⟩

/-- **What is granted is no more than the bucket began with and what the time is worth**, to all
threads together, as long as they swap in the order in which they read the clock and none asks for more than
fixed point has room for. -/
theorem granted_le_of_inOrder (hrate : 0 ≤ config.refillRate)
    (h : (machine config).ReachBy (fun s a => s.inOrder a = true) s) (hasks : ∀ c ∈ s.calls, Representable c) :
    ((s.calls.map grantedTokens).sum : ℚ) ≤
      config.initialTokens + config.refillRate * (s.memory.clock / 1000000000) := by
  obtain ⟨hconserved, -⟩ := (inv_of_reach h.reach).accounted
  obtain ⟨hsum, hlast, -⟩ := ordered_of_reachBy h
  have hgranted := chargedFp_eq hasks
  have hinitial : initialFp config ≤ config.initialTokens * RateLimiter.fpScale := min_le_left _ _
  have hall : (s.calls.map grantedTokens).sum * RateLimiter.fpScale ≤
      config.initialTokens * RateLimiter.fpScale + worthFp config s.memory.credited := by
    omega
  have hworth : (worthFp config s.memory.credited : ℚ) ≤
      RateLimiter.fpScale * RateLimiter.worth config s.memory.clock := by
    refine (worthFp_le hrate _).trans (mul_le_mul_of_nonneg_left (worth_mono hrate ?_) (Nat.cast_nonneg _))
    omega
  have hscale : (0 : ℚ) < RateLimiter.fpScale := Nat.cast_pos.2 RateLimiter.fpScale_pos
  refine le_of_mul_le_mul_right ?_ hscale
  calc ((s.calls.map grantedTokens).sum : ℚ) * RateLimiter.fpScale
      ≤ (config.initialTokens * RateLimiter.fpScale + worthFp config s.memory.credited : ℕ) := by
        exact_mod_cast hall
    _ = config.initialTokens * RateLimiter.fpScale + (worthFp config s.memory.credited : ℚ) := by push_cast; ring
    _ ≤ config.initialTokens * RateLimiter.fpScale + RateLimiter.fpScale * RateLimiter.worth config s.memory.clock :=
      add_le_add_right hworth _
    _ = (config.initialTokens + config.refillRate * (s.memory.clock / 1000000000)) * RateLimiter.fpScale := by
      rw [RateLimiter.worth]
      ring

theorem granted_le_of_inOrder_contended : ∃ s : Acquiring, (s.calls.map grantedTokens).sum = 111 ∧
    s.memory.clock = 35000000 ∧ ((s.calls.map grantedTokens).sum : ℚ) ≤ 100 + 1000 * (s.memory.clock / 1000000000) := by
  obtain ⟨s, hs, htest⟩ := Machine.exists_reachBy_of_runBy (M := machine .default)
    (C := fun s a => s.inOrder a = true) rfl contended
    (fun s => decide ((s.calls.map grantedTokens).sum = 111 ∧ s.memory.clock = 35000000 ∧
      s.calls.map AcquireCall.ask = [.tryAcquireN 60, .tryAcquireN 50, .tryAcquireN 1])) (by decide +kernel)
  obtain ⟨hgranted, hclock, hcalls⟩ := of_decide_eq_true htest
  have hasks : ∀ c ∈ s.calls, Representable c := by
    intro c hc n hn
    have hmem := List.mem_map_of_mem (f := AcquireCall.ask) hc
    rw [hcalls, hn] at hmem
    simp only [List.mem_cons, Ask.tryAcquireN.injEq, List.not_mem_nil, or_false] at hmem
    omega
  have hrate : 0 ≤ RateLimiterConfig.default.refillRate := by norm_num [RateLimiterConfig.default]
  have hle := granted_le_of_inOrder hrate hs hasks
  have hconfig : ((RateLimiterConfig.default.initialTokens : ℕ) : ℚ) = 100 ∧
      RateLimiterConfig.default.refillRate = 1000 := ⟨rfl, rfl⟩
  rw [hconfig.1, hconfig.2] at hle
  exact ⟨s, hgranted, hclock, hle⟩

/-! ### One call -/

/-- A call goes on alone, and none of its exchanges fails for no reason. -/
def alone : ℕ → AcquireMemory → AcquireCall → Option (AcquireMemory × AcquireCall)
  | 0, m, c => some (m, c)
  | k + 1, m, c => (c.next m false).bind fun r => alone k r.1 r.2

theorem alone_next {m m' : AcquireMemory} {c c' : AcquireCall} (h : c.next m false = some (m', c')) (k : ℕ) :
    alone (k + 1) m c = alone k m' c' := by
  rw [alone, h]
  rfl

theorem alone_add (j k : ℕ) (m : AcquireMemory) (c : AcquireCall) :
    alone (j + k) m c = (alone j m c).bind fun r => alone k r.1 r.2 := by
  induction j generalizing m c with
  | zero => rw [Nat.zero_add]; rfl
  | succ j ih =>
    rw [Nat.add_right_comm, alone, alone, Option.bind_assoc]
    congr 1
    funext r
    exact ih r.1 r.2

/-- Alone, it is a run of the machine. -/
theorem run_alone {i : ℕ} {c : AcquireCall} (hi : s.calls[i]? = some c) (k : ℕ) {m : AcquireMemory}
    {c' : AcquireCall} (h : alone k s.memory c = some (m, c')) :
    (machine config).run s (List.replicate k (.next i false)) = some ⟨m, s.calls.set i c'⟩ := by
  induction k generalizing s c with
  | zero =>
    cases h
    obtain ⟨hlt, rfl⟩ := List.getElem?_eq_some_iff.1 hi
    simp [Machine.run]
  | succ k ih =>
    obtain ⟨⟨m₁, c₁⟩, hnext, hrest⟩ := Option.bind_eq_some_iff.1 h
    have hstep : (machine config).step s (.next i false) = some ⟨m₁, s.calls.set i c₁⟩ := by
      simp [machine, Acquiring.step, hi, hnext, record]
    have hrun := ih (s := ⟨m₁, s.calls.set i c₁⟩) (Threads.getElem?_set_self hi) hrest
    rw [List.replicate_succ, Machine.run, hstep, Option.bind_some, hrun, List.set_set]

/-- Alone, a call refills as `RateLimiter.refill` does. -/
theorem alone_refill (m : AcquireMemory) (c : AcquireCall) (now : ℕ) :
    ∃ k m' c', alone k m (c.goTo (.read now)) = some (m', c') ∧ m'.limiter = m.limiter.refill now ∧
      c'.ask = c.ask ∧ c'.pc = .refilled := by
  by_cases hearly : now ≤ m.limiter.lastUpdateNs ∨
      RateLimiter.tokensToAdd m.limiter.config (now - m.limiter.lastUpdateNs) = 0
  · refine ⟨1, { m with limiter.lastUpdateNs := now }, c.goTo .refilled, ?_, ?_, rfl, rfl⟩
    · simp [alone, AcquireCall.next, AcquireCall.goTo, hearly]
    · unfold RateLimiter.refill RateLimiter.credit
      rcases hearly with hle | hzero
      · rw [if_pos hle]
      · rw [if_pos hzero, ite_self]
  · refine ⟨3, { m with
        limiter := m.limiter.refill now
        writes := m.writes + 1
        credited := m.credited ++ [now - m.limiter.lastUpdateNs] },
      { c with pc := .refilled, tally := c.tally.succeed }, ?_, rfl, rfl, rfl⟩
    rw [not_or] at hearly
    simp [alone, AcquireCall.next, AcquireCall.goTo, hearly, RateLimiter.refill, RateLimiter.credit]

/-- Alone, it takes its tokens when they are there, and returns. -/
theorem alone_acquire {m : AcquireMemory} {c : AcquireCall} {n : ℕ} (hask : c.ask = .tryAcquireN n)
    (hpc : c.pc = .refilled) :
    ∃ k m' c', alone k m c = some (m', c') ∧ m'.limiter.lastUpdateNs = m.limiter.lastUpdateNs ∧
      if m.limiter.tokensFp < saturatingMul n RateLimiter.fpScale then
        c'.pc = .returned (.acquired false) ∧ m'.limiter.tokensFp = m.limiter.tokensFp
      else c'.pc = .returned (.acquired true) ∧
        m'.limiter.tokensFp = m.limiter.tokensFp - saturatingMul n RateLimiter.fpScale := by
  obtain ⟨ask, pc, tally⟩ := c
  obtain rfl : ask = .tryAcquireN n := hask
  obtain rfl : pc = .refilled := hpc
  split_ifs with hlt
  · obtain ⟨count, hcount⟩ : ∃ count, count = (m.limiter.rejectedCount + 1) % 2 ^ 64 := ⟨_, rfl⟩
    have hload : AcquireCall.next m ⟨.tryAcquireN n, .refilled, tally⟩ false =
        some (m, ⟨.tryAcquireN n, .refused, tally⟩) := by
      simp only [AcquireCall.next, AcquireCall.goTo, AcquireCall.neededFp, hlt, if_true]
    have hcountStep : AcquireCall.next m ⟨.tryAcquireN n, .refused, tally⟩ false =
        some ({ m with limiter.rejectedCount := count }, ⟨.tryAcquireN n, .returned (.acquired false), tally⟩) := by
      rw [hcount]
      rfl
    exact ⟨2, _, _, (alone_next hload 1).trans (alone_next hcountStep 0), rfl, rfl, rfl⟩
  · obtain ⟨count, hcount⟩ : ∃ count, count = (m.limiter.acquiredCount + 1) % 2 ^ 64 := ⟨_, rfl⟩
    obtain ⟨left, hleft⟩ : ∃ left, left = m.limiter.tokensFp - saturatingMul n RateLimiter.fpScale := ⟨_, rfl⟩
    have hload : AcquireCall.next m ⟨.tryAcquireN n, .refilled, tally⟩ false =
        some (m, ⟨.tryAcquireN n, .exchanging m.limiter.tokensFp m.writes, tally⟩) := by
      simp only [AcquireCall.next, AcquireCall.goTo, AcquireCall.neededFp, hlt, if_false]
    have hexchange : AcquireCall.next m ⟨.tryAcquireN n, .exchanging m.limiter.tokensFp m.writes, tally⟩ false =
        some ({ m with limiter.tokensFp := left, writes := m.writes + 1 },
          ⟨.tryAcquireN n, .granted, tally.succeed⟩) := by
      rw [hleft]
      simp only [AcquireCall.next, AcquireCall.neededFp, true_and, if_true]
    have hcountStep : AcquireCall.next { m with limiter.tokensFp := left, writes := m.writes + 1 }
        ⟨.tryAcquireN n, .granted, tally.succeed⟩ false =
        some ({ m with limiter := { m.limiter with tokensFp := left, acquiredCount := count }, writes := m.writes + 1 },
          ⟨.tryAcquireN n, .returned (.acquired true), tally.succeed⟩) := by
      rw [hcount]
      rfl
    exact ⟨3, _, _, (alone_next hload 2).trans ((alone_next hexchange 1).trans (alone_next hcountStep 0)),
      rfl, rfl, hleft⟩

/-- **A call of `try_acquire_n` that nobody interrupts is `RateLimiter.tryAcquireN`**: it returns, what
that returns, and leaves the tokens and the time of the last refill as that does. -/
theorem run_tryAcquireN (s : Acquiring) (n : ℕ) {now : ℕ} (hnow : s.memory.clock ≤ now) :
    ∃ as s' c, (machine config).run s as = some s' ∧ s'.calls[s.calls.length]? = some c ∧
      c.pc = .returned (.acquired (s.memory.limiter.tryAcquireN now n).1) ∧
      s'.memory.limiter.tokensFp = (s.memory.limiter.tryAcquireN now n).2.tokensFp ∧
      s'.memory.limiter.lastUpdateNs = now := by
  let c : AcquireCall := ⟨.tryAcquireN n, .called, .start s.memory.writes⟩
  let m : AcquireMemory := { s.memory with clock := now }
  let t : Acquiring := ⟨m, s.calls ++ [c.goTo (.read now)]⟩
  have hread : (machine config).run s [.call (.tryAcquireN n), .readClock s.calls.length now] = some t := by
    simp [Machine.run, machine, Acquiring.step, AcquireCall.readClock, hnow, record, t, m, c]
  obtain ⟨j, m₁, c₁, hj, hlimiter, hask, hpc⟩ := alone_refill m c now
  obtain ⟨k, m₂, c₂, hk, hlast, hreply⟩ := alone_acquire (m := m₁) (c := c₁) (n := n) hask hpc
  have halone : alone (j + k) m (c.goTo (.read now)) = some (m₂, c₂) := by
    rw [alone_add, hj]
    exact hk
  have hi : t.calls[s.calls.length]? = some (c.goTo (.read now)) := List.getElem?_concat_length
  have hrun : (machine config).run t (List.replicate (j + k) (.next s.calls.length false)) =
      some ⟨m₂, t.calls.set s.calls.length c₂⟩ := run_alone hi (j + k) halone
  refine ⟨[.call (.tryAcquireN n), .readClock s.calls.length now] ++
    List.replicate (j + k) (.next s.calls.length false), ⟨m₂, t.calls.set s.calls.length c₂⟩, c₂, ?_,
    Threads.getElem?_set_self hi, ?_⟩
  · rw [Machine.run_append, hread]
    exact hrun
  · have hgranted := s.memory.limiter.granted_iff now n
    have htokens := s.memory.limiter.tokensFp_tryAcquireN now n
    rw [hlimiter] at hreply hlast
    split_ifs at hreply with hlt
    · have hfalse : (s.memory.limiter.tryAcquireN now n).1 = false :=
        Bool.eq_false_iff.2 fun htrue => absurd hlt (Nat.not_lt.2 (hgranted.1 htrue))
      rw [hfalse, if_neg Bool.false_ne_true] at htokens
      exact ⟨by rw [hfalse, hreply.1], hreply.2.trans htokens.symm, hlast.trans (RateLimiter.lastUpdateNs_refill _ _)⟩
    · have htrue : (s.memory.limiter.tryAcquireN now n).1 = true := hgranted.2 (Nat.not_lt.1 hlt)
      rw [htrue, if_pos rfl] at htokens
      exact ⟨by rw [htrue, hreply.1], hreply.2.trans htokens.symm, hlast.trans (RateLimiter.lastUpdateNs_refill _ _)⟩

end Acquiring

end SensorBridge.Backpressure
