import SensorBridge.Foundation.BoundedQueue
import SensorBridge.Buffer.Spsc

/-!
# The ring buffer as a queue

The four steps of a push and of a pop look like one: a push takes effect when it stores
`head`, or when it finds the buffer full; a pop when it stores `tail`, or when it finds
the buffer empty. So whatever the producer and the consumer see of the buffer, they could
have seen of a bounded queue of `N - 1` places used by one of them at a time
(`linearizable`).
-/

namespace SensorBridge.Buffer

open Foundation RingBuffer

universe u

namespace Spsc

variable {α : Type u} {N : ℕ}

/-- The buffer as its users see it. -/
def toQueue (s : Spsc α) : BoundedQueue α := ⟨s.waiting, s.accepted, s.pushResults, s.popResults⟩

/-- The queue after a step, from what is waiting before and after it. -/
theorem toQueue_eq {s : Spsc α} {vs : List α} (h : Inv N s vs) :
    s.toQueue = ⟨vs, s.accepted, s.pushResults, s.popResults⟩ := by
  rw [toQueue, h.waiting_eq]

/-- What is waiting after a step is what has been accepted, without what has been popped. -/
theorem Inv.eq_of_append {s : Spsc α} {vs ws : List α} (h : Inv N s vs)
    (hws : s.accepted = s.popped ++ ws) : vs = ws := by
  rw [h.accepted_eq] at hws
  exact List.append_cancel_left hws

/-- What a step can do to the values waiting, with what it makes pushes and pops return. -/
inductive Effect (N : ℕ) : List α → List α → List (Except α Unit) → List (Option α) → Prop
  | nothing {vs : List α} : Effect N vs vs [] []
  | pushOk {vs : List α} (v : α) : vs.length < N - 1 → Effect N vs (vs ++ [v]) [.ok ()] []
  | pushErr {vs : List α} (v : α) : vs.length = N - 1 → Effect N vs vs [.error v] []
  | popSome {vs : List α} (v : α) : Effect N (v :: vs) vs [] [some v]
  | popNone : Effect N [] [] [] [none]

/-- **A step takes effect at once, or not at all.** -/
theorem Inv.effect (hN : AssertPowerOfTwo N) {s s' : Spsc α} {vs vs' : List α} (h : Inv N s vs)
    (h' : Inv N s' vs') (hs : Shows N s s') : ∃ pushes pops, Effect N vs vs' pushes pops ∧
      s'.pushResults = s.pushResults ++ pushes ∧ s'.popResults = s.popResults ++ pops := by
  have hpopped : s'.popResults = s.popResults → s'.popped = s.popped := by
    intro he
    rw [popped, popped, he]
  cases hs with
  | nothing hacc hpush hpop =>
    have hvs : vs' = vs := h'.eq_of_append (by rw [hacc, hpopped hpop, h.accepted_eq])
    subst hvs
    exact ⟨[], [], .nothing, by rw [hpush, List.append_nil], by rw [hpop, List.append_nil]⟩
  | pushOk v hd hp hacc hpush hpop =>
    have hvs : vs' = vs ++ [v] := by
      refine h'.eq_of_append ?_
      rw [hacc, hpopped hpop, h.accepted_eq, List.append_assoc]
    subst hvs
    -- the producer has seen the room, and nobody else takes it
    have hlt : vs.length < N - 1 := by
      have hprod := h.producer
      simp only [ProducerOk, hp] at hprod
      exact hprod.2.2.1
    exact ⟨[.ok ()], [], .pushOk v hlt, hpush, by rw [hpop, List.append_nil]⟩
  | pushErr v hd hp hfull hacc hpush hpop =>
    have hvs : vs' = vs := h'.eq_of_append (by rw [hacc, hpopped hpop, h.accepted_eq])
    subst hvs
    have hlen : vs'.length = N - 1 := by
      have hprod := h.producer
      simp only [ProducerOk, hp] at hprod
      rwa [hprod.1, h.represents.full_iff hN, length_queue] at hfull
    exact ⟨[.error v], [], .pushErr v hlen, hpush, by rw [hpop, List.append_nil]⟩
  | popSome t v hp hacc hpush hpop =>
    have hcons := h.consumer
    simp only [ConsumerOk, hp] at hcons
    obtain ⟨ws, rfl⟩ := List.head?_eq_some_iff.mp hcons.2
    have hvs : vs' = ws := by
      refine h'.eq_of_append ?_
      rw [hacc, h.accepted_eq, popped, popped, hpop, List.filterMap_append, List.append_assoc]
      rfl
    subst hvs
    exact ⟨[], [some v], .popSome v, by rw [hpush, List.append_nil], hpop⟩
  | popNone t hp hempty hacc hpush hpop =>
    have hnil : vs = [] := by
      have hcons := h.consumer
      simp only [ConsumerOk, hp] at hcons
      rw [hcons, h.represents.empty_iff] at hempty
      exact List.length_eq_zero_iff.mp (by simpa using congrArg List.length hempty)
    subst hnil
    have hvs : vs' = [] := by
      refine h'.eq_of_append ?_
      rw [hacc, h.accepted_eq, popped, popped, hpop, List.filterMap_append]
      simp
    subst hvs
    exact ⟨[], [none], .popNone, by rw [hpush, List.append_nil], hpop⟩

/-- A step is an operation of the queue, or none. -/
theorem Inv.linearizes (hN : AssertPowerOfTwo N) {s s' : Spsc α} {vs vs' : List α} (h : Inv N s vs)
    (h' : Inv N s' vs') (hs : Shows N s s') :
    s'.toQueue = s.toQueue ∨ ∃ op, s.toQueue.apply (N - 1) op = s'.toQueue := by
  obtain ⟨pushes, pops, he, hpush, hpop⟩ := h.effect hN h' hs
  rw [toQueue_eq h, toQueue_eq h', h.accepted_eq, h'.accepted_eq, popped, popped, hpush, hpop,
    List.filterMap_append]
  cases he with
  | nothing => exact .inl (by simp)
  | pushOk v hlt => exact .inr ⟨.push v, by simp [BoundedQueue.apply, hlt]⟩
  | pushErr v hlen => exact .inr ⟨.push v, by simp [BoundedQueue.apply, hlen]⟩
  | popSome v => exact .inr ⟨.pop, by simp [BoundedQueue.apply]⟩
  | popNone => exact .inr ⟨.pop, by simp [BoundedQueue.apply]⟩

/-- **The ring buffer is linearizable**: what is seen of it could have been seen of a bounded
queue of `N - 1` places. -/
theorem linearizable (hN : AssertPowerOfTwo N) {s : Spsc α} (h : (machine N α).Reach s) :
    (BoundedQueue.machine (N - 1) α).Reach s.toQueue := by
  refine h.simulate toQueue ?_ ?_
  · rintro s rfl
    rfl
  · intro s a s' hr _ hs
    obtain ⟨vs, hi⟩ := inv_of_reach hN hr
    obtain ⟨vs', hi'⟩ := hi.step hN hs
    rcases hi.linearizes hN hi' (step_shows hs) with heq | ⟨op, hop⟩
    · exact .inl heq
    · exact .inr ⟨op, trivial, congrArg some hop⟩

/-- The pushes that have returned `Ok` are those whose value is in the buffer or has been
popped. -/
theorem count_ok_of_reach (hN : AssertPowerOfTwo N) {s : Spsc α} (h : (machine N α).Reach s) :
    s.pushResults.countP Except.isOk = s.popped.length + s.waiting.length := by
  have hsound := BoundedQueue.sound_of_reach (linearizable hN h)
  have hok := hsound.count_ok
  rw [hsound.accepted_eq, List.length_append] at hok
  exact hok

end Spsc

end SensorBridge.Buffer
