import SensorBridge.Foundation.JsonScan
import Mathlib.Algebra.BigOperators.Group.List.Basic

/-!
# Parsing JSON

Tokens that are `Parses` of values make up those of an array, with commas between them
(`run_items`). In the other direction the strings of a value come from the tokens: it has no more
characters in them than these cost (`letters_le_of_parse`).

An object may have several members of one name. Which of these is found is left to who looks for it
(`Lookup`).
-/

namespace SensorBridge.Foundation.Json

universe u

/-! ### Runs -/

namespace Parser

variable {p p' : Parser} {ts us : List Token} {stack : List Frame} {v : Value}

theorem run_cons {t : Token} : p.run (t :: ts) = (p.step t).bind (·.run ts) := rfl

theorem run_append : p.run (ts ++ us) = (p.run ts).bind (·.run us) := List.foldlM_append

/-- Tokens of a value, wherever one is expected. -/
def Parses (ts : List Token) (v : Value) : Prop :=
  ∀ stack, (Parser.value stack).run ts = some (.done stack v)

theorem Parses.run_append (h : Parses ts v) : (Parser.value stack).run (ts ++ us) = (Parser.done stack v).run us := by
  rw [Parser.run_append, h, Option.bind_some]

/-- At the beginning of an array a value is expected too. -/
theorem Parses.run_beginArray (h : Parses ts v) :
    (Parser.beginArray stack).run (ts ++ us) = (Parser.value (.array [] :: stack)).run (ts ++ us) := by
  cases ts with
  | nil => cases h []
  | cons t ts =>
    cases t with
    | closeArray => cases h []
    | _ => rfl

/-- The tokens of items, with commas between them. -/
def separated (tss : List (List Token)) : List Token := [.comma].intercalate tss

theorem separated_cons_cons (ts us : List Token) (tss : List (List Token)) :
    separated (ts :: us :: tss) = ts ++ .comma :: separated (us :: tss) := by
  simp [separated]

theorem separated_cons (ts : List Token) (tss : List (List Token)) : ∃ us, separated (ts :: tss) = ts ++ us := by
  cases tss with
  | nil => exact ⟨[], by rw [separated, List.intercalate_singleton, List.append_nil]⟩
  | cons us tss => exact ⟨_, separated_cons_cons ts us tss⟩

/-- The items of an array, up to its end. -/
theorem run_items {items : List Value} {tss : List (List Token)} {vs : List Value}
    (h : List.Forall₂ Parses tss vs) (hne : tss ≠ []) :
    (Parser.value (.array items :: stack)).run (separated tss ++ .closeArray :: us) =
      (Parser.done stack (.array (items ++ vs))).run us := by
  induction h generalizing items with
  | nil => exact absurd rfl hne
  | @cons ts v tss vs hv hrest ih =>
    cases hrest with
    | nil =>
      rw [separated, List.intercalate_singleton, hv.run_append]
      rfl
    | @cons ts' v' tss vs hv' hrest =>
      rw [separated_cons_cons, List.append_assoc, hv.run_append, List.cons_append, run_cons]
      exact (ih (List.cons_ne_nil _ _)).trans (by rw [List.append_assoc]; rfl)

/-- **An array** of values. -/
theorem run_array {tss : List (List Token)} {vs : List Value} (h : List.Forall₂ Parses tss vs) :
    (Parser.beginArray stack).run (separated tss ++ .closeArray :: us) = (Parser.done stack (.array vs)).run us := by
  cases h with
  | nil => rfl
  | @cons ts v tss vs hv hrest =>
    obtain ⟨ws, hws⟩ := separated_cons ts tss
    rw [hws, List.append_assoc, hv.run_beginArray, ← List.append_assoc, ← hws,
      run_items (.cons hv hrest) (List.cons_ne_nil _ _)]
    rfl

end Parser

/-! ### Lines and items of a text -/

/-- The lines of a text, one after the other. -/
theorem scans_lines {texts : List String} {tss : List (List Token)}
    (h : List.Forall₂ (fun text ts => Scans (.word []) text.toList ts (.word [])) texts tss) :
    Scans (.word []) (String.join texts).toList tss.flatten (.word []) := by
  induction h with
  | nil => exact scans_nil.2 ⟨rfl, rfl⟩
  | cons hline _ ih =>
    rw [String.join_cons, String.toList_append, List.flatten_cons]
    exact hline.append ih

/-- The comma after an item that is not the last. -/
def commaUnless (isLast : Bool) : List Token := if isLast then [] else [.comma]

theorem cost_commaUnless (isLast : Bool) : cost (commaUnless isLast) = 0 := by cases isLast <;> rfl

section
variable {α : Type u} {xs : List α} {f : ℕ → α → String}

/-- Items with commas after them, but for the last. -/
theorem scans_mapIdx {tokens : α → List Token} (h : ∀ i < xs.length, ∀ x ∈ xs,
      Scans (.word []) (f i x).toList (tokens x ++ commaUnless (i + 1 == xs.length)) (.word [])) :
    Scans (.word []) (String.join (xs.mapIdx f)).toList (Parser.separated (xs.map tokens)) (.word []) := by
  induction xs generalizing f with
  | nil => exact scans_nil.2 ⟨rfl, rfl⟩
  | cons x xs ih =>
    have hfirst := h 0 (Nat.succ_pos _) x List.mem_cons_self
    have hrest := ih fun i hi y hy => by
      simpa using h (i + 1) (Nat.succ_lt_succ hi) y (List.mem_cons_of_mem x hy)
    rw [List.mapIdx_cons, String.join_cons, String.toList_append, List.map_cons]
    cases xs with
    | nil => simpa [commaUnless, Parser.separated] using hfirst
    | cons y xs =>
      have hcomma : tokens x ++ commaUnless (0 + 1 == (x :: y :: xs).length) = tokens x ++ [.comma] := by
        simp [commaUnless]
      have hcons : tokens x ++ .comma :: Parser.separated (tokens y :: xs.map tokens) =
          (tokens x ++ [.comma]) ++ Parser.separated (tokens y :: xs.map tokens) := by
        rw [List.append_assoc, List.singleton_append]
      rw [hcomma] at hfirst
      rw [List.map_cons, Parser.separated_cons_cons, hcons]
      exact hfirst.append hrest

theorem costs_mapIdx {n : α → ℕ} {P : α → Prop}
    (h : ∀ i < xs.length, ∀ x ∈ xs, Costs (f i x).toList (n x) (P x)) :
    Costs (String.join (xs.mapIdx f)).toList (xs.map n).sum (∀ x ∈ xs, P x) := by
  induction xs generalizing f with
  | nil => simpa using costs_nil
  | cons x xs ih =>
    have hfirst := h 0 (Nat.succ_pos _) x List.mem_cons_self
    have hrest := ih fun i hi y hy => h (i + 1) (Nat.succ_lt_succ hi) y (List.mem_cons_of_mem x hy)
    rw [List.mapIdx_cons, String.join_cons, String.toList_append, List.map_cons, List.sum_cons,
      List.forall_mem_cons]
    exact hfirst.append hrest

end

/-! ### Strings -/

mutual

/-- The characters of the strings in a value that are no keys. -/
def Value.letters : Value → ℕ
  | .literal _ => 0
  | .string s => s.length
  | .array items => itemLetters items
  | .object members => memberLetters members

/-- Those of items. -/
def itemLetters : List Value → ℕ
  | [] => 0
  | v :: vs => v.letters + itemLetters vs

/-- Those of members. -/
def memberLetters : List (String × Value) → ℕ
  | [] => 0
  | (_, v) :: ms => v.letters + memberLetters ms

end

theorem itemLetters_append (vs ws : List Value) : itemLetters (vs ++ ws) = itemLetters vs + itemLetters ws := by
  induction vs with
  | nil => rw [List.nil_append, itemLetters, Nat.zero_add]
  | cons v vs ih => rw [List.cons_append, itemLetters, itemLetters, ih, Nat.add_assoc]

theorem memberLetters_append (ms ns : List (String × Value)) :
    memberLetters (ms ++ ns) = memberLetters ms + memberLetters ns := by
  induction ms with
  | nil => rw [List.nil_append, memberLetters, Nat.zero_add]
  | cons m ms ih => rw [List.cons_append, memberLetters, memberLetters, ih, Nat.add_assoc]

/-- Those of what has begun. -/
def Frame.letters : Frame → ℕ
  | .array items => itemLetters items
  | .object members _ => memberLetters members

/-- Those of all that has begun. -/
def stackLetters (stack : List Frame) : ℕ := (stack.map Frame.letters).sum

/-- Those of what has been parsed. -/
def Parser.letters : Parser → ℕ
  | .value stack => stackLetters stack
  | .beginArray stack => stackLetters stack
  | .beginObject stack => stackLetters stack
  | .key stack members => stackLetters stack + memberLetters members
  | .colon stack members _ => stackLetters stack + memberLetters members
  | .done stack v => stackLetters stack + v.letters

theorem stackLetters_cons (f : Frame) (stack : List Frame) :
    stackLetters (f :: stack) = f.letters + stackLetters stack := by
  rw [stackLetters, List.map_cons, List.sum_cons, ← stackLetters]

theorem letters_beginValue {stack : List Frame} {t : Token} {p : Parser} (h : Parser.beginValue stack t = some p) :
    p.letters ≤ stackLetters stack + cost [t] := by
  cases t <;> cases h <;> simp [Parser.letters, Value.letters, cost]

/-- One token adds what it costs at most. -/
theorem letters_step {p p' : Parser} {t : Token} (h : p.step t = some p') : p'.letters ≤ p.letters + cost [t] := by
  unfold Parser.step at h
  split at h
  case h_1 => exact letters_beginValue h
  case h_3 => simpa [Parser.letters, stackLetters_cons, Frame.letters, itemLetters] using letters_beginValue h
  case h_12 => cases h
  all_goals
    cases h
    simp [Parser.letters, stackLetters_cons, Frame.letters, Value.letters, itemLetters_append, memberLetters_append,
      itemLetters, memberLetters, cost] <;> omega

/-- A key adds nothing. -/
theorem letters_key {p p₁ p₂ : Parser} {s : String} (hkey : p.step (.string s) = some p₁)
    (hcolon : p₁.step .colon = some p₂) : p₂.letters ≤ p.letters := by
  cases p with
  | beginObject stack =>
    cases hkey
    cases hcolon
    simp [Parser.letters, stackLetters_cons, Frame.letters, memberLetters]
  | key stack members =>
    cases hkey
    cases hcolon
    simp [Parser.letters, stackLetters_cons, Frame.letters, Nat.add_comm]
  | value stack =>
    cases hkey
    rcases stack with _ | ⟨_ | _, stack⟩ <;> cases hcolon
  | beginArray stack =>
    cases hkey
    cases hcolon
  | colon stack members k => cases hkey
  | done stack v => rcases stack with _ | ⟨_ | _, stack⟩ <;> cases hkey

theorem letters_run {p p' : Parser} {ts : List Token} (h : p.run ts = some p') :
    p'.letters ≤ p.letters + cost ts := by
  fun_induction cost ts generalizing p with
  | case1 =>
    cases h
    exact Nat.le_refl _
  | case2 s ts ih =>
    rw [Parser.run_cons] at h
    obtain ⟨p₁, hkey, h⟩ := Option.bind_eq_some_iff.1 h
    rw [Parser.run_cons] at h
    obtain ⟨p₂, hcolon, h⟩ := Option.bind_eq_some_iff.1 h
    have hle := letters_key hkey hcolon
    have hrest := ih h
    omega
  | case3 s ts _ ih =>
    rw [Parser.run_cons] at h
    obtain ⟨p₁, hstep, h⟩ := Option.bind_eq_some_iff.1 h
    have hle := letters_step hstep
    have hcost : cost [.string s] = s.length := rfl
    have hrest := ih h
    omega
  | case4 t ts _ hstring ih =>
    rw [Parser.run_cons] at h
    obtain ⟨p₁, hstep, h⟩ := Option.bind_eq_some_iff.1 h
    have hle := letters_step hstep
    have hcost : cost [t] = 0 := by
      cases t with
      | string s => exact absurd rfl (hstring s)
      | _ => rfl
    have hrest := ih h
    omega

/-- **The strings of a value** come from the tokens. -/
theorem letters_le_of_parse {ts : List Token} {v : Value} (h : parse ts = some v) : v.letters ≤ cost ts := by
  obtain ⟨p, hrun, hfinish⟩ := Option.bind_eq_some_iff.1 h
  have hle := letters_run hrun
  unfold Parser.finish at hfinish
  split at hfinish
  · cases hfinish
    simpa [Parser.letters, stackLetters] using hle
  · cases hfinish

/-! ### Reading -/

theorem read_of_scans {text : String} {ts : List Token} {v : Value}
    (hscans : Scans (.word []) text.toList ts (.word [])) (hparses : Parser.Parses ts v) : read text = some v := by
  have hparse : parse ts = some v := by rw [parse, hparses, Option.bind_some, Parser.finish]
  rw [read, hscans, Option.bind_some, finish, endWord, if_pos rfl, Option.bind_some, List.append_nil, hparse]

/-- What is read of a text that costs so much has no more in its strings, and only as much if all
that is put in is plain. -/
theorem Costs.letters_le {text : String} {n : ℕ} {P : Prop} {v : Value} (h : Costs text.toList n P)
    (hread : read text = some v) : v.letters ≤ n ∧ (n ≤ v.letters → P) := by
  obtain ⟨⟨ts, m⟩, hscan, hread⟩ := Option.bind_eq_some_iff.1 hread
  obtain ⟨us, hfinish, hparse⟩ := Option.bind_eq_some_iff.1 hread
  obtain ⟨rfl, hcost, hP⟩ := h hscan
  cases hfinish
  have hle := letters_le_of_parse hparse
  rw [List.append_nil] at hle
  exact ⟨hle.trans hcost, fun hn => hP (hn.trans hle)⟩

/-! ### Members -/

/-- Who looks for a member of an object: one of that name is found, and if there is one, it is. -/
structure Lookup where
  find : List (String × Value) → String → Option Value
  mem_of_find {members : List (String × Value)} {key : String} {v : Value} :
    find members key = some v → (key, v) ∈ members
  find_of_unique {members : List (String × Value)} {key : String} {v : Value} :
    (key, v) ∈ members → (∀ w, (key, w) ∈ members → w = v) → find members key = some v

namespace Lookup

/-- The first of that name. -/
def first : Lookup where
  find members key := (members.find? fun m => m.1 = key).map Prod.snd
  mem_of_find {members key v} h := by
    obtain ⟨⟨k, w⟩, hfind, rfl⟩ := Option.map_eq_some_iff.1 h
    obtain rfl : k = key := by simpa using List.find?_some hfind
    exact List.mem_of_find?_eq_some hfind
  find_of_unique {members key v} hmem hunique := by
    have hsome : (members.find? fun m => m.1 = key).isSome = true :=
      List.find?_isSome.2 ⟨(key, v), hmem, decide_eq_true rfl⟩
    obtain ⟨⟨k, w⟩, hfind⟩ := Option.isSome_iff_exists.1 hsome
    obtain rfl : k = key := by simpa using List.find?_some hfind
    rw [hfind, Option.map_some, hunique w (List.mem_of_find?_eq_some hfind)]

end Lookup

theorem letters_le_of_mem {members : List (String × Value)} {key : String} {v : Value} (h : (key, v) ∈ members) :
    v.letters ≤ memberLetters members := by
  induction members with
  | nil => exact absurd h List.not_mem_nil
  | cons m members ih =>
    rw [memberLetters]
    rcases List.mem_cons.1 h with rfl | h
    · exact Nat.le_add_right _ _
    · exact (ih h).trans (Nat.le_add_left _ _)

end SensorBridge.Foundation.Json
