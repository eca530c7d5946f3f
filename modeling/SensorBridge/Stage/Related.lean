import SensorBridge.Stage.Windowed

/-!
# Related stages

Two stages, or two runs of one, can be compared call by call. They are `Related` when there is a
relation between their states that every call keeps, and that makes related inputs have related
outputs. Then related calls have related replies (`Related.replies`). Related stages can be chained
(`Related.chain`), so what is to be shown of a pipeline is shown of its stages; and two stages that
are functions of their inputs are related when the functions are (`Computes.related`).
-/

namespace SensorBridge.Stage

open Foundation Foundation.Replies

universe u

variable {ι ι' μ μ' ο ο' : Type u}

/-- Calls of the same method, with related inputs. -/
inductive Call.Rel (R : ι → ι' → Prop) : Call ι → Call ι' → Prop
  | process {x : ι} {y : ι'} : R x y → Call.Rel R (.process x) (.process y)
  | tick : Call.Rel R .tick .tick
  | reset : Call.Rel R .reset .reset
  | flush : Call.Rel R .flush .flush

/-- Every method keeps `I`, and makes outputs that `Q` relates of inputs that `R` relates. -/
structure Relates (S : Stage ι ο) (T : Stage ι' ο') (R : ι → ι' → Prop) (Q : ο → ο' → Prop)
    (I : S.State → T.State → Prop) : Prop where
  init : I S.init T.init
  process : ∀ s t x y, I s t → R x y →
    I (S.process s x).1 (T.process t y).1 ∧ Option.Rel Q (S.process s x).2 (T.process t y).2
  tick : ∀ s t, I s t → I (S.tick s).1 (T.tick t).1 ∧ Option.Rel Q (S.tick s).2 (T.tick t).2
  reset : ∀ s t, I s t → I (S.reset s) (T.reset t)
  flush : ∀ s t, I s t → I (S.flush s).1 (T.flush t).1 ∧ Option.Rel Q (S.flush s).2 (T.flush t).2

/-- The two stages are related. -/
def Related (S : Stage ι ο) (T : Stage ι' ο') (R : ι → ι' → Prop) (Q : ο → ο' → Prop) : Prop :=
  ∃ I, Relates S T R Q I

variable {R : ι → ι' → Prop} {P : μ → μ' → Prop} {Q : ο → ο' → Prop} {S : Stage ι ο} {T : Stage ι' ο'}

/-! ### Runs -/

theorem Relates.call {I : S.State → T.State → Prop} (h : Relates S T R Q I) {s : S.State} {t : T.State}
    (hI : I s t) {c : Call ι} {d : Call ι'} (hc : Call.Rel R c d) :
    I (S.call s c).1 (T.call t d).1 ∧ Option.Rel Q (S.call s c).2 (T.call t d).2 := by
  cases hc with
  | process hR => exact h.process _ _ _ _ hI hR
  | tick => exact h.tick _ _ hI
  | reset => exact ⟨h.reset _ _ hI, .none⟩
  | flush => exact h.flush _ _ hI

/-- **Related calls have related replies.** -/
theorem Related.replies (h : Related S T R Q) {cs : List (Call ι)} {ds : List (Call ι')}
    (hcs : List.Forall₂ (Call.Rel R) cs ds) :
    List.Forall₂ (Option.Rel Q) (replies S.call S.init cs) (replies T.call T.init ds) := by
  obtain ⟨I, hI⟩ := h
  have hinit := hI.init
  revert hinit
  generalize S.init = s
  generalize T.init = t
  intro hinit
  induction hcs generalizing s t with
  | nil => exact .nil
  | cons hc _ ih =>
    obtain ⟨hnext, hreply⟩ := hI.call hinit hc
    exact .cons hreply (ih _ _ hnext)

/-! ### Chains -/

/-- Both chains are asked. -/
theorem ask_rel {α α' β β' : Type u} {I : α → α' → Prop} {J : β → β' → Prop}
    {ask₁ : α → α × Option μ} {ask₁' : α' → α' × Option μ'} {process₂ : β → μ → β × Option ο}
    {process₂' : β' → μ' → β' × Option ο'} {ask₂ : β → β × Option ο} {ask₂' : β' → β' × Option ο'}
    (h₁ : ∀ s t, I s t → I (ask₁ s).1 (ask₁' t).1 ∧ Option.Rel P (ask₁ s).2 (ask₁' t).2)
    (hp : ∀ s t x y, J s t → P x y →
      J (process₂ s x).1 (process₂' t y).1 ∧ Option.Rel Q (process₂ s x).2 (process₂' t y).2)
    (h₂ : ∀ s t, J s t → J (ask₂ s).1 (ask₂' t).1 ∧ Option.Rel Q (ask₂ s).2 (ask₂' t).2)
    {p : α × β} {q : α' × β'} (hI : I p.1 q.1) (hJ : J p.2 q.2) :
    (I (ask ask₁ process₂ ask₂ p).1.1 (ask ask₁' process₂' ask₂' q).1.1 ∧
      J (ask ask₁ process₂ ask₂ p).1.2 (ask ask₁' process₂' ask₂' q).1.2) ∧
      Option.Rel Q (ask ask₁ process₂ ask₂ p).2 (ask ask₁' process₂' ask₂' q).2 := by
  obtain ⟨hI', hmid⟩ := h₁ _ _ hI
  unfold ask
  generalize ask₁ p.1 = a, ask₁' q.1 = a' at hI' hmid ⊢
  obtain ⟨s, r⟩ := a
  obtain ⟨s', r'⟩ := a'
  cases hmid with
  | none =>
    obtain ⟨hJ', hout⟩ := h₂ _ _ hJ
    exact ⟨⟨hI', hJ'⟩, hout⟩
  | @some x y hP =>
    obtain ⟨hJ', hout⟩ := hp _ _ _ _ hJ hP
    dsimp only
    generalize process₂ p.2 x = b, process₂' q.2 y = b' at hJ' hout ⊢
    obtain ⟨t, r⟩ := b
    obtain ⟨t', r'⟩ := b'
    cases hout with
    | none =>
      obtain ⟨hJ'', hout⟩ := h₂ _ _ hJ'
      exact ⟨⟨hI', hJ''⟩, hout⟩
    | some hQ => exact ⟨⟨hI', hJ'⟩, .some hQ⟩

/-- **Related stages can be chained.** -/
theorem Related.chain {S₁ : Stage ι μ} {T₁ : Stage ι' μ'} {S₂ : Stage μ ο} {T₂ : Stage μ' ο'}
    (h₁ : Related S₁ T₁ R P) (h₂ : Related S₂ T₂ P Q) : Related (S₁.chain S₂) (T₁.chain T₂) R Q := by
  obtain ⟨I, hI⟩ := h₁
  obtain ⟨J, hJ⟩ := h₂
  refine ⟨fun p q => I p.1 q.1 ∧ J p.2 q.2, ⟨hI.init, hJ.init⟩, ?_, ?_, ?_, ?_⟩
  · intro p q x y ⟨hp, hq⟩ hR
    obtain ⟨hI', hmid⟩ := hI.process _ _ _ _ hp hR
    simp only [Stage.chain]
    generalize S₁.process p.1 x = a, T₁.process q.1 y = a' at hI' hmid ⊢
    obtain ⟨s, r⟩ := a
    obtain ⟨s', r'⟩ := a'
    cases hmid with
    | none => exact ⟨⟨hI', hq⟩, .none⟩
    | some hP =>
      obtain ⟨hJ', hout⟩ := hJ.process _ _ _ _ hq hP
      exact ⟨⟨hI', hJ'⟩, hout⟩
  · intro p q ⟨hp, hq⟩
    rw [tick_chain, tick_chain]
    exact ask_rel hI.tick hJ.process hJ.tick hp hq
  · intro p q ⟨hp, hq⟩
    exact ⟨hI.reset _ _ hp, hJ.reset _ _ hq⟩
  · intro p q ⟨hp, hq⟩
    rw [flush_chain, flush_chain]
    exact ask_rel hI.flush hJ.process hJ.flush hp hq

/-! ### Changing the relation -/

theorem Related.swap (h : Related S T R Q) : Related T S (fun y x => R x y) (fun y x => Q x y) := by
  have hflip : ∀ {r r'}, Option.Rel Q r r' → Option.Rel (fun y x => Q x y) r' r := by
    intro r r' hr
    cases hr with
    | none => exact .none
    | some hQ => exact .some hQ
  obtain ⟨I, hI⟩ := h
  refine ⟨fun t s => I s t, hI.init, ?_, ?_, fun t s => hI.reset s t, ?_⟩
  · intro t s y x hst hR
    exact ⟨(hI.process s t x y hst hR).1, hflip (hI.process s t x y hst hR).2⟩
  · exact fun t s hst => ⟨(hI.tick s t hst).1, hflip (hI.tick s t hst).2⟩
  · exact fun t s hst => ⟨(hI.flush s t hst).1, hflip (hI.flush s t hst).2⟩

/-- Inputs that are related both ways have outputs that are related both ways. -/
theorem Related.inf {R' : ι → ι' → Prop} {Q' : ο → ο' → Prop} (h : Related S T R Q) (h' : Related S T R' Q') :
    Related S T (fun x y => R x y ∧ R' x y) (fun x y => Q x y ∧ Q' x y) := by
  have hboth : ∀ {r r'}, Option.Rel Q r r' → Option.Rel Q' r r' → Option.Rel (fun x y => Q x y ∧ Q' x y) r r' := by
    intro r r' hr hr'
    cases hr with
    | none => exact .none
    | some hQ => cases hr' with
      | some hQ' => exact .some ⟨hQ, hQ'⟩
  obtain ⟨I, hI⟩ := h
  obtain ⟨J, hJ⟩ := h'
  refine ⟨fun s t => I s t ∧ J s t, ⟨hI.init, hJ.init⟩, ?_, ?_, ?_, ?_⟩
  · intro s t x y hst hR
    obtain ⟨hi, hQ⟩ := hI.process s t x y hst.1 hR.1
    obtain ⟨hj, hQ'⟩ := hJ.process s t x y hst.2 hR.2
    exact ⟨⟨hi, hj⟩, hboth hQ hQ'⟩
  · intro s t hst
    obtain ⟨hi, hQ⟩ := hI.tick s t hst.1
    obtain ⟨hj, hQ'⟩ := hJ.tick s t hst.2
    exact ⟨⟨hi, hj⟩, hboth hQ hQ'⟩
  · exact fun s t hst => ⟨hI.reset s t hst.1, hJ.reset s t hst.2⟩
  · intro s t hst
    obtain ⟨hi, hQ⟩ := hI.flush s t hst.1
    obtain ⟨hj, hQ'⟩ := hJ.flush s t hst.2
    exact ⟨⟨hi, hj⟩, hboth hQ hQ'⟩

/-- Stages that make equal outputs of equal inputs cannot be told apart. -/
theorem Related.replies_eq {S T : Stage ι ο} (h : Related S T Eq Eq) (cs : List (Call ι)) :
    Replies.replies S.call S.init cs = Replies.replies T.call T.init cs := by
  have hself : List.Forall₂ (Call.Rel Eq) cs cs := by
    refine List.forall₂_same.2 fun c _ => ?_
    cases c with
    | process x => exact .process rfl
    | tick => exact .tick
    | reset => exact .reset
    | flush => exact .flush
  refine List.forall₂_eq_eq_eq ▸ (h.replies hself).imp fun r r' hr => ?_
  cases hr with
  | none => rfl
  | some heq => rw [heq]

/-! ### Stages without a state, and functions of the inputs -/

theorem Related.map {f : ι → ο} {g : ι' → ο'} (h : ∀ x y, R x y → Q (f x) (g y)) :
    Related (Stage.map f) (Stage.map g) R Q :=
  ⟨fun _ _ => True, trivial, fun _ _ x y _ hR => ⟨trivial, .some (h x y hR)⟩, fun _ _ _ => ⟨trivial, .none⟩,
    fun _ _ _ => trivial, fun _ _ _ => ⟨trivial, .none⟩⟩

theorem Related.refl (S : Stage ι ο) : Related S S Eq Eq := by
  have hsame : ∀ r : Option ο, Option.Rel Eq r r := by
    rintro (_ | y)
    · exact .none
    · exact .some rfl
  refine ⟨Eq, rfl, ?_, ?_, fun s _ h => congrArg S.reset h, ?_⟩
  · rintro s _ x _ rfl rfl
    exact ⟨rfl, hsame _⟩
  · rintro s _ rfl
    exact ⟨rfl, hsame _⟩
  · rintro s _ rfl
    exact ⟨rfl, hsame _⟩

/-- A chain of functions is their composition. -/
theorem Related.map_chain_map (f : ι → μ) (g : μ → ο) :
    Related ((Stage.map f).chain (Stage.map g)) (Stage.map (g ∘ f)) Eq Eq := by
  refine ⟨fun _ _ => True, trivial, ?_, fun _ _ _ => ⟨trivial, .none⟩, fun _ _ _ => trivial,
    fun _ _ _ => ⟨trivial, .none⟩⟩
  rintro p q x _ - rfl
  exact ⟨trivial, .some rfl⟩

theorem process_chain_map (T : Stage ι' ο') (g : ο' → ο) (q : T.State × (Stage.map g).State) (x : ι') :
    (T.chain (Stage.map g)).process q x = (((T.process q.1 x).1, q.2), (T.process q.1 x).2.map g) := by
  simp only [Stage.chain, Stage.map, Stage.filterMap, Stage.ofProcess]
  rcases T.process q.1 x with ⟨t, _ | y⟩
  · rfl
  · rfl

theorem ask_map {α : Type u} (ask₁ : α → α × Option ο') (g : ο' → ο) (q : α × (Stage.map g).State) :
    ask ask₁ (Stage.map g).process (Stage.map g).tick q = (((ask₁ q.1).1, q.2), (ask₁ q.1).2.map g) := by
  unfold ask
  rcases ask₁ q.1 with ⟨t, _ | y⟩
  · rfl
  · rfl

/-- What a stage does to the images of inputs is done to its outputs: the function can stand before
it or after it. -/
theorem Related.commutes {f : ι' → ι} {g : ο' → ο}
    (h : Related S T (fun x y => x = f y) (fun x y => x = g y)) :
    Related ((Stage.map f).chain S) (T.chain (Stage.map g)) Eq Eq := by
  obtain ⟨I, hI⟩ := h
  have hmap : ∀ (a : S.State × Option ο) {b : T.State × Option ο'} {c : (T.State × PUnit) × Option ο},
      I a.1 b.1 ∧ Option.Rel (fun x y => x = g y) a.2 b.2 → c = ((b.1, ⟨⟩), b.2.map g) →
        I a.1 c.1.1 ∧ Option.Rel Eq a.2 c.2 := by
    rintro ⟨s, r⟩ ⟨t, r'⟩ _ ⟨hnext, hout⟩ rfl
    cases hout with
    | none => exact ⟨hnext, .none⟩
    | some heq => exact ⟨hnext, .some heq⟩
  refine ⟨fun p q => I p.2 q.1, hI.init, ?_, fun p q hpq => ?_, fun p q => hI.reset p.2 q.1, fun p q hpq => ?_⟩
  · rintro p q x _ hpq rfl
    exact hmap (S.process p.2 (f x)) (hI.process p.2 q.1 (f x) x hpq rfl) (process_chain_map T g q x)
  · rw [tick_chain T]
    exact hmap (S.tick p.2) (hI.tick p.2 q.1 hpq) (ask_map T.tick g q)
  · rw [flush_chain T]
    exact hmap (S.flush p.2) (hI.flush p.2 q.1 hpq) (ask_map T.flush g q)

/-- Two functions of the inputs since the last reset, which relate the last output as the inputs are
related. -/
theorem Computes.related {f : List ι → ο} {g : List ι' → ο'} {I : S.State → List ι → Prop}
    {J : T.State → List ι' → Prop} (hS : S.Computes f I) (hT : T.Computes g J)
    (h : ∀ xs ys, xs ≠ [] → List.Forall₂ R xs ys → Q (f xs) (g ys)) : Related S T R Q := by
  refine ⟨fun s t => ∃ xs ys, I s xs ∧ J t ys ∧ List.Forall₂ R xs ys, ⟨[], [], hS.init, hT.init, .nil⟩, ?_, ?_, ?_, ?_⟩
  · rintro s t x y ⟨xs, ys, hI, hJ, hR⟩ hxy
    obtain ⟨hI', hf⟩ := hS.process s xs x hI
    obtain ⟨hJ', hg⟩ := hT.process t ys y hJ
    have hconcat : List.Forall₂ R (xs ++ [x]) (ys ++ [y]) := List.rel_append hR (.cons hxy .nil)
    refine ⟨⟨_, _, hI', hJ', hconcat⟩, ?_⟩
    rw [hf, hg]
    exact .some (h _ _ (by simp) hconcat)
  · rintro s t hst
    rw [hS.tick, hT.tick]
    exact ⟨hst, .none⟩
  · rintro s t ⟨xs, ys, hI, hJ, -⟩
    exact ⟨[], [], hS.reset s xs hI, hT.reset t ys hJ, .nil⟩
  · rintro s t hst
    rw [hS.flush, hT.flush]
    exact ⟨hst, .none⟩

end SensorBridge.Stage
