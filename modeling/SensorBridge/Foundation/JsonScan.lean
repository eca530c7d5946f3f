import SensorBridge.Foundation.Json
import Mathlib.Data.List.TakeWhile

/-!
# Scanning JSON

What is scanned of a text in two parts is what is scanned of the one and of the other
(`scans_append`), so a text can be gone through line by line, and its lines may be indented
(`scans_indented`).

The characters of the strings that are no keys are the `cost` of the tokens. A text costs no more
characters than it has, and what stands between quotes in it without being plain costs less
(`lt_of_scans_string`). So of a text whose other strings are keys it is known how much it costs at
most, and that it costs less unless all that is put in is plain (`Costs`).
-/

namespace SensorBridge.Foundation.Json

/-! ### Numbers -/

variable {cs ds whole fraction : List Char} {c : Char}

theorem readUnsigned_append (hwhole : Numeral whole) (hrest : ∀ c ∈ ds.head?, c.isDigit = false) :
    readUnsigned (whole ++ ds) = readFraction whole ds := by
  have hnone : ds.takeWhile Char.isDigit = [] ∧ ds.dropWhile Char.isDigit = ds := by
    cases ds with
    | nil => exact ⟨rfl, rfl⟩
    | cons c ds =>
      have hc : ¬ c.isDigit = true := by simp [hrest c rfl]
      exact ⟨List.takeWhile_cons_of_neg hc, List.dropWhile_cons_of_neg hc⟩
  have htake : (whole ++ ds).takeWhile Char.isDigit = whole := by
    rw [List.takeWhile_append_of_pos hwhole.1.2, hnone.1, List.append_nil]
  have hdrop : (whole ++ ds).dropWhile Char.isDigit = ds := by
    rw [List.dropWhile_append_of_pos hwhole.1.2, hnone.2]
  have hnumeral : ¬ (whole = [] ∨ (whole.head? = some '0' ∧ whole ≠ ['0'])) := by
    rintro (hnil | ⟨hzero, hne⟩)
    · exact hwhole.1.1 hnil
    · exact hne (hwhole.2 hzero)
  rw [readUnsigned, htake, hdrop]
  exact if_neg hnumeral

theorem readNumber_of_digits (h : Digits whole) : readNumber (whole ++ ds) = readUnsigned (whole ++ ds) := by
  obtain ⟨c, cs, rfl⟩ := List.exists_cons_of_ne_nil h.1
  have hc : c ≠ '-' := by
    rintro rfl
    exact absurd (h.2 '-' List.mem_cons_self) (by decide)
  unfold readNumber
  split
  · rename_i heq
    exact absurd (List.cons.inj heq).1 hc
  · rfl

/-- A word that begins as a number is none of the others. -/
theorem readLiteral_of_head (h : ∀ c ∈ cs.head?, c = '-' ∨ c.isDigit = true) (hne : cs ≠ []) :
    readLiteral cs = (readNumber cs).map .number := by
  have hother {w : List Char} (hw : ∀ c ∈ w.head?, ¬ (c = '-' ∨ c.isDigit = true)) : cs ≠ w := by
    rintro rfl
    obtain ⟨c, cs, rfl⟩ := List.exists_cons_of_ne_nil hne
    exact hw c rfl (h c rfl)
  rw [readLiteral, if_neg (hother (by simp)), if_neg (hother (by simp)), if_neg (hother (by simp))]

/-- The digits of a number are read as it. -/
theorem readLiteral_toDigits (n : ℕ) : readLiteral (Nat.toDigits 10 n) = some (.number n) := by
  have hdigits := digits_toDigits n
  have hhead : ∀ c ∈ (Nat.toDigits 10 n).head?, c = '-' ∨ c.isDigit = true :=
    fun c hc => .inr (hdigits.2 c (List.mem_of_head? hc))
  have hnumber : readNumber (Nat.toDigits 10 n ++ []) = some (n : ℚ) := by
    rw [readNumber_of_digits hdigits, readUnsigned_append (numeral_toDigits n) (by simp), readFraction,
      readExponent, decimal, List.append_nil, Nat.ofDigitChars_ten_toDigits]
    · simp
    · simp
  rw [List.append_nil] at hnumber
  rw [readLiteral_of_head hhead hdigits.1, hnumber]
  rfl

theorem readUnsigned_decimal (hwhole : Numeral whole) (hfraction : Digits fraction) :
    readUnsigned (whole ++ '.' :: fraction) = some (decimal whole fraction) := by
  have htake : fraction.takeWhile Char.isDigit = fraction := List.takeWhile_eq_self_iff.2 hfraction.2
  have hdrop : fraction.dropWhile Char.isDigit = [] := List.dropWhile_eq_nil_iff.2 hfraction.2
  have hpoint : ∀ c ∈ ('.' :: fraction).head?, c.isDigit = false := by
    rintro c ⟨⟩
    rfl
  rw [readUnsigned_append hwhole hpoint, readFraction, htake, hdrop, if_neg hfraction.1, readExponent]

/-- A decimal is read as a number. -/
theorem readLiteral_decimal (h : Decimal cs) : ∃ q, readLiteral cs = some (.number q) := by
  obtain ⟨negative, whole, fraction, hwhole, hfraction, rfl⟩ := h
  have hunsigned := readUnsigned_decimal hwhole hfraction
  cases negative with
  | true =>
    refine ⟨-decimal whole fraction, ?_⟩
    rw [readLiteral_of_head (by simp [sign]) (by simp [sign])]
    simp [sign, readNumber, hunsigned]
  | false =>
    obtain ⟨c, cs, rfl⟩ := List.exists_cons_of_ne_nil hwhole.1.1
    have hc : c.isDigit = true := hwhole.1.2 c List.mem_cons_self
    refine ⟨decimal (c :: cs) fraction, ?_⟩
    rw [readLiteral_of_head (by simp [sign, hc]) (by simp [sign])]
    simp only [sign, Bool.false_eq_true, if_false, List.nil_append, readNumber_of_digits hwhole.1, hunsigned,
      Option.map_some]

/-! ### What is scanned -/

/-- What is scanned of these characters. -/
def Scans (m : Mode) (cs : List Char) (ts : List Token) (m' : Mode) : Prop := scan m cs = some (ts, m')

variable {m m' : Mode} {ts us : List Token} {w : List Char}

theorem scans_nil : Scans m [] ts m' ↔ ts = [] ∧ m' = m := by
  simp [Scans, scan, eq_comm]

theorem scans_cons : Scans m (c :: cs) ts m' ↔
    ∃ us n vs, step m c = some (us, n) ∧ Scans n cs vs m' ∧ ts = us ++ vs := by
  simp only [Scans, scan, Option.bind_eq_some_iff, Option.map_eq_some_iff, Prod.exists, Prod.mk.injEq]
  constructor
  · rintro ⟨us, n, hstep, vs, m'', hscan, rfl, rfl⟩
    exact ⟨us, n, vs, hstep, hscan, rfl⟩
  · rintro ⟨us, n, vs, hstep, hscan, rfl⟩
    exact ⟨us, n, hstep, vs, m', hscan, rfl, rfl⟩

/-- **A text in two parts.** -/
theorem scans_append : Scans m (cs ++ ds) ts m' ↔
    ∃ us n vs, Scans m cs us n ∧ Scans n ds vs m' ∧ ts = us ++ vs := by
  induction cs generalizing m ts with
  | nil =>
    constructor
    · intro h
      exact ⟨[], m, ts, scans_nil.2 ⟨rfl, rfl⟩, h, rfl⟩
    · rintro ⟨us, n, vs, hnil, h, rfl⟩
      obtain ⟨rfl, rfl⟩ := scans_nil.1 hnil
      exact h
  | cons c cs ih =>
    rw [List.cons_append, scans_cons]
    constructor
    · rintro ⟨us, n, vs, hstep, h, rfl⟩
      obtain ⟨us', n', vs', hcs, hds, rfl⟩ := ih.1 h
      exact ⟨us ++ us', n', vs', scans_cons.2 ⟨us, n, us', hstep, hcs, rfl⟩, hds, (List.append_assoc ..).symm⟩
    · rintro ⟨us, n, vs, hcs, hds, rfl⟩
      obtain ⟨us', n', vs', hstep, hrest, rfl⟩ := scans_cons.1 hcs
      exact ⟨us', n', vs' ++ vs, hstep, ih.2 ⟨vs', n, vs, hrest, hds, rfl⟩, List.append_assoc ..⟩

theorem Scans.append {n : Mode} (h : Scans m cs ts n) (h' : Scans n ds us m') : Scans m (cs ++ ds) (ts ++ us) m' :=
  scans_append.2 ⟨ts, n, us, h, h', rfl⟩

theorem Scans.unique {n : Mode} (h : Scans m cs ts m') (h' : Scans m cs us n) : ts = us ∧ m' = n :=
  Prod.mk.inj (Option.some.inj (h.symm.trans h'))

/-- The characters that words are made of. -/
def IsWordChar (c : Char) : Prop := isWhitespace c = false ∧ structural c = none ∧ c ≠ '"'

theorem isWordChar_of_isDigit (h : c.isDigit = true) : IsWordChar c := by
  have hne {d : Char} (hd : d.isDigit = false) : c ≠ d := by
    rintro rfl
    rw [h] at hd
    cases hd
  refine ⟨?_, ?_, hne rfl⟩
  · simp [isWhitespace, hne (show ' '.isDigit = false from rfl), hne (show '\t'.isDigit = false from rfl),
      hne (show '\n'.isDigit = false from rfl), hne (show '\r'.isDigit = false from rfl)]
  · rw [structural, if_neg (hne rfl), if_neg (hne rfl), if_neg (hne rfl), if_neg (hne rfl), if_neg (hne rfl),
      if_neg (hne rfl)]

theorem step_word (h : IsWordChar c) : step (.word w) c = some ([], .word (w ++ [c])) := by
  obtain ⟨hspace, hstructural, hquote⟩ := h
  simp [step, hspace, hstructural, hquote]

theorem scans_word (h : ∀ c ∈ cs, IsWordChar c) : Scans (.word w) cs [] (.word (w ++ cs)) := by
  induction cs generalizing w with
  | nil => exact scans_nil.2 ⟨rfl, by rw [List.append_nil]⟩
  | cons c cs ih =>
    obtain ⟨hc, hcs⟩ := List.forall_mem_cons.1 h
    refine scans_cons.2 ⟨[], _, [], step_word hc, ?_, rfl⟩
    have hrest := ih (w := w ++ [c]) hcs
    rwa [List.append_assoc, List.singleton_append] at hrest

/-- A literal, up to the end of its line. -/
theorem scans_literal {l : Literal} (hcs : ∀ c ∈ cs, IsWordChar c) (h : readLiteral cs = some l) (hne : cs ≠ []) :
    Scans (.word []) (cs ++ ['\n']) [.literal l] (.word []) ∧
      Scans (.word []) (cs ++ [',', '\n']) [.literal l, .comma] (.word []) := by
  have hword : endWord cs = some [.literal l] := by rw [endWord, if_neg hne, h, Option.map_some]
  have hscan : Scans (.word []) cs [] (.word cs) := scans_word hcs
  have hnewline : step (.word cs) '\n' = some ([.literal l], .word []) := by
    rw [step, if_pos (by decide), hword, Option.map_some]
  have hcomma : step (.word cs) ',' = some ([.literal l, .comma], .word []) := by
    rw [step, if_neg (by decide)]
    simp [structural, hword]
  refine ⟨hscan.append (scans_cons.2 ⟨_, _, [], hnewline, scans_nil.2 ⟨rfl, rfl⟩, rfl⟩), ?_⟩
  exact hscan.append (scans_cons.2 ⟨_, _, [], hcomma, rfl, rfl⟩)

/-- What stands in quotes as it is. -/
def Plain (cs : List Char) : Prop := ∀ c ∈ cs, c ≠ '"' ∧ c ≠ '\\' ∧ 0x20 ≤ c.toNat

theorem joinPieces_char (cs : List Char) : joinPieces (cs.map .char) = some cs := by
  induction cs with
  | nil => rfl
  | cons c cs ih => rw [List.map_cons, joinPieces, ih, Option.map_some]

theorem scans_plain {ps : List Piece} (h : Plain cs) : Scans (.string ps) cs [] (.string (ps ++ cs.map .char)) := by
  induction cs generalizing ps with
  | nil => exact scans_nil.2 ⟨rfl, by rw [List.map_nil, List.append_nil]⟩
  | cons c cs ih =>
    obtain ⟨⟨hquote, hbackslash, hcontrol⟩, hcs⟩ := List.forall_mem_cons.1 h
    have hstep : step (.string ps) c = some ([], .string (ps ++ [.char c])) := by
      rw [step, if_neg hquote, if_neg hbackslash, if_neg (Nat.not_lt.2 hcontrol)]
    refine scans_cons.2 ⟨[], _, [], hstep, ?_, rfl⟩
    have hrest : Scans (.string (ps ++ [.char c])) cs [] (.string (ps ++ [.char c] ++ cs.map .char)) := ih hcs
    rwa [List.append_assoc, List.singleton_append] at hrest

/-- A string, up to the end of its line. -/
theorem scans_string (h : Plain cs) :
    Scans (.string []) (cs ++ ['"', ',', '\n']) [.string (.ofList cs), .comma] (.word []) := by
  have hquote : step (.string (cs.map .char)) '"' = some ([.string (.ofList cs)], .word []) := by
    rw [step, if_pos rfl, joinPieces_char, Option.map_some]
  exact (scans_plain h).append (scans_cons.2 ⟨_, _, [.comma], hquote, rfl, rfl⟩)

/-! ### How much is scanned -/

/-- The characters of the strings that are no keys. -/
def cost : List Token → ℕ
  | [] => 0
  | .string _ :: .colon :: ts => cost ts
  | .string s :: ts => s.length + cost ts
  | _ :: ts => cost ts

/-- The parts of the string that has begun. -/
def Mode.pending : Mode → ℕ
  | .word _ => 0
  | .string ps => ps.length
  | .escape ps => ps.length
  | .hex ps _ _ => ps.length

theorem cost_string_le (s : String) (ts : List Token) : cost (.string s :: ts) ≤ s.length + cost ts := by
  cases ts with
  | nil => rfl
  | cons t ts =>
    cases t with
    | colon => exact Nat.le_add_left (cost ts) s.length
    | _ => rfl

theorem cost_append_le (ts us : List Token) : cost (ts ++ us) ≤ cost ts + cost us := by
  fun_induction cost ts with
  | case1 => rw [List.nil_append, Nat.zero_add]
  | case2 s ts ih => exact ih
  | case3 s ts _ ih => exact (cost_string_le s (ts ++ us)).trans (by omega)
  | case4 t ts _ hstring ih =>
    cases t with
    | string s => exact absurd rfl (hstring s)
    | _ => exact ih

theorem cost_endWord (h : endWord w = some ts) : cost ts = 0 := by
  unfold endWord at h
  split_ifs at h
  · cases h
    rfl
  · obtain ⟨l, -, rfl⟩ := Option.map_eq_some_iff.1 h
    rfl

theorem cost_structural {t : Token} (h : structural c = some t) : cost [t] = 0 := by
  unfold structural at h
  split_ifs at h <;> cases h <;> rfl

theorem length_joinPieces {ps : List Piece} (h : joinPieces ps = some cs) : cs.length ≤ ps.length := by
  fun_induction joinPieces ps generalizing cs with
  | case1 =>
    cases h
    exact Nat.le_refl 0
  | case2 c ps ih =>
    obtain ⟨ds, hds, rfl⟩ := Option.map_eq_some_iff.1 h
    exact Nat.succ_le_succ (ih hds)
  | case3 u v ps hpair ih =>
    obtain ⟨ds, hds, rfl⟩ := Option.map_eq_some_iff.1 h
    exact (Nat.succ_le_succ (ih hds)).trans (Nat.le_succ _)
  | case4 => cases h
  | case5 u v ps _ _ ih =>
    obtain ⟨ds, hds, rfl⟩ := Option.map_eq_some_iff.1 h
    exact Nat.succ_le_succ (ih hds)
  | case6 => cases h
  | case7 u ps _ _ ih =>
    obtain ⟨ds, hds, rfl⟩ := Option.map_eq_some_iff.1 h
    exact Nat.succ_le_succ (ih hds)

/-- One character is one of a string at most. -/
theorem cost_step (h : step m c = some (ts, m')) : cost ts + m'.pending ≤ m.pending + 1 := by
  cases m with
  | word w =>
    rw [step] at h
    by_cases hspace : isWhitespace c = true
    · rw [if_pos hspace] at h
      obtain ⟨us, hus, heq⟩ := Option.map_eq_some_iff.1 h
      obtain ⟨rfl, rfl⟩ := Prod.mk.inj heq
      rw [cost_endWord hus]
      exact Nat.zero_le _
    · rw [if_neg hspace] at h
      cases ht : structural c with
      | some t =>
        rw [ht] at h
        obtain ⟨us, hus, heq⟩ := Option.map_eq_some_iff.1 h
        obtain ⟨rfl, rfl⟩ := Prod.mk.inj heq
        have hcost := cost_append_le us [t]
        rw [cost_endWord hus, cost_structural ht] at hcost
        exact hcost.trans (Nat.zero_le _)
      | none =>
        rw [ht] at h
        dsimp only at h
        split_ifs at h <;> cases h <;> exact Nat.zero_le _
  | string ps =>
    rw [step] at h
    split_ifs at h
    · obtain ⟨cs, hcs, heq⟩ := Option.map_eq_some_iff.1 h
      obtain ⟨rfl, rfl⟩ := Prod.mk.inj heq
      have hlength := length_joinPieces hcs
      simpa [cost, Mode.pending] using Nat.le_succ_of_le hlength
    · cases h
      simp [cost, Mode.pending]
    · cases h
      simp [cost, Mode.pending]
  | escape ps =>
    rw [step] at h
    split_ifs at h
    · cases h
      simp [cost, Mode.pending]
    · obtain ⟨d, -, heq⟩ := Option.map_eq_some_iff.1 h
      obtain ⟨rfl, rfl⟩ := Prod.mk.inj heq
      simp [cost, Mode.pending]
  | hex ps count value =>
    rw [step] at h
    obtain ⟨d, -, heq⟩ := Option.map_eq_some_iff.1 h
    obtain ⟨rfl, rfl⟩ := Prod.mk.inj heq
    split_ifs <;> simp [cost, Mode.pending]

theorem cost_of_scans (h : Scans m cs ts m') : cost ts + m'.pending ≤ m.pending + cs.length := by
  induction cs generalizing m ts with
  | nil =>
    obtain ⟨rfl, rfl⟩ := scans_nil.1 h
    exact (Nat.zero_add _).le
  | cons c cs ih =>
    obtain ⟨us, n, vs, hstep, hrest, rfl⟩ := scans_cons.1 h
    have hc := cost_step hstep
    have hcs := ih hrest
    have hcost := cost_append_le us vs
    rw [List.length_cons]
    omega

/-- **What is no plain text in quotes** is less of a string than it has characters. -/
theorem lt_of_scans_string {ps : List Piece} (h : Scans (.string ps) cs ts m') (hplain : ¬ Plain cs) :
    cost ts + m'.pending < ps.length + cs.length := by
  induction cs generalizing ps ts with
  | nil => exact absurd (List.forall_mem_nil _) hplain
  | cons c cs ih =>
    obtain ⟨us, n, vs, hstep, hrest, rfl⟩ := scans_cons.1 h
    have hcost := cost_append_le us vs
    have hcs := cost_of_scans hrest
    rw [step] at hstep
    rw [List.length_cons]
    split_ifs at hstep with hquote hbackslash hcontrol
    · obtain ⟨ds, hds, heq⟩ := Option.map_eq_some_iff.1 hstep
      obtain ⟨rfl, rfl⟩ := Prod.mk.inj heq
      have hlength := length_joinPieces hds
      have hstring : cost [.string (.ofList ds)] = ds.length := by simp [cost]
      have hpending : (Mode.word []).pending = 0 := rfl
      omega
    · cases hstep
      have hpending : (Mode.escape ps).pending = ps.length := rfl
      have hnil : cost [] = 0 := rfl
      omega
    · cases hstep
      have hplain' : ¬ Plain cs := fun hcs => hplain (List.forall_mem_cons.2
        ⟨⟨hquote, hbackslash, Nat.not_lt.1 hcontrol⟩, hcs⟩)
      have hlt := ih hrest hplain'
      have hlength : (ps ++ [Piece.char c]).length = ps.length + 1 := List.length_append
      have hnil : cost [] = 0 := rfl
      omega

/-- A newline ends a word, and is in no string. -/
theorem step_newline (h : step m '\n' = some (ts, m')) : m' = .word [] := by
  cases m with
  | word w =>
    rw [step, if_pos (by decide)] at h
    obtain ⟨us, -, heq⟩ := Option.map_eq_some_iff.1 h
    exact (Prod.mk.inj heq).2.symm
  | string ps => cases h
  | escape ps => cases h
  | hex ps count value => cases h

theorem scans_newline (h : Scans m (cs ++ ['\n']) ts m') : m' = .word [] := by
  obtain ⟨us, n, vs, -, hnewline, -⟩ := scans_append.1 h
  obtain ⟨us, n', vs, hstep, hnil, -⟩ := scans_cons.1 hnewline
  obtain ⟨-, rfl⟩ := scans_nil.1 hnil
  exact step_newline hstep

/-- A quote before the end of a line ends a string, it begins none. -/
theorem scans_close (h : Scans m ['"', ',', '\n'] ts m') : m' = .word [] ∧ cost ts ≤ m.pending := by
  have hend : ['"', ',', '\n'] = ['"', ','] ++ ['\n'] := rfl
  refine ⟨scans_newline (hend ▸ h), ?_⟩
  obtain ⟨us, n, vs, hquote, hrest, rfl⟩ := scans_cons.1 h
  cases m with
  | word w =>
    have hstring : step (.word w) '"' = if w = [] then some ([], .string []) else none := rfl
    rw [hstring] at hquote
    split_ifs at hquote
    cases hquote
    cases hrest
  | string ps =>
    have hstring : step (.string ps) '"' = (joinPieces ps).map fun cs => ([.string (.ofList cs)], .word []) := rfl
    rw [hstring] at hquote
    obtain ⟨cs, hcs, heq⟩ := Option.map_eq_some_iff.1 hquote
    obtain ⟨rfl, rfl⟩ := Prod.mk.inj heq
    have hcomma : Scans (.word []) [',', '\n'] [.comma] (.word []) := rfl
    obtain ⟨rfl, -⟩ := hrest.unique hcomma
    have hlength := length_joinPieces hcs
    simpa [cost, Mode.pending] using hlength
  | escape ps =>
    cases hquote
    cases hrest
  | hex ps count value => cases hquote

/-- From outside of a string to outside, a text is so much of strings at most, and only so much if
this holds. -/
def Costs (cs : List Char) (n : ℕ) (P : Prop) : Prop :=
  ∀ ⦃ts m⦄, Scans (.word []) cs ts m → m = .word [] ∧ cost ts ≤ n ∧ (n ≤ cost ts → P)

theorem Costs.append {n k : ℕ} {P Q : Prop} (h : Costs cs n P) (h' : Costs ds k Q) :
    Costs (cs ++ ds) (n + k) (P ∧ Q) := by
  intro ts m hscans
  obtain ⟨us, m', vs, hcs, hds, rfl⟩ := scans_append.1 hscans
  obtain ⟨rfl, hus, hP⟩ := h hcs
  obtain ⟨rfl, hvs, hQ⟩ := h' hds
  have hcost := cost_append_le us vs
  exact ⟨rfl, by omega, fun hle => ⟨hP (by omega), hQ (by omega)⟩⟩

theorem costs_nil : Costs [] 0 True := by
  intro ts m h
  obtain ⟨rfl, rfl⟩ := scans_nil.1 h
  exact ⟨rfl, Nat.le_refl 0, fun _ => trivial⟩

/-- A text in which all strings are keys. -/
theorem costs_of_scans (h : Scans (.word []) cs ts (.word [])) (hcost : cost ts = 0) : Costs cs 0 True := by
  intro us m hus
  obtain ⟨rfl, rfl⟩ := h.unique hus
  exact ⟨rfl, hcost.le, fun _ => trivial⟩

/-- A line that ends with a string. -/
theorem costs_string (h : Scans (.word []) cs ts (.string [])) (hcost : cost ts = 0) :
    Costs (cs ++ (ds ++ ['"', ',', '\n'])) ds.length (Plain ds) := by
  intro us m hus
  obtain ⟨us₁, m₁, vs, h₁, hvs, rfl⟩ := scans_append.1 hus
  obtain ⟨rfl, rfl⟩ := h.unique h₁
  obtain ⟨us₂, m₂, us₃, h₂, h₃, rfl⟩ := scans_append.1 hvs
  obtain ⟨rfl, hclose⟩ := scans_close h₃
  have hlength := cost_of_scans h₂
  have happend := cost_append_le ts (us₂ ++ us₃)
  have happend' := cost_append_le us₂ us₃
  have hpending : (Mode.string []).pending = 0 := rfl
  refine ⟨rfl, by omega, fun hle => ?_⟩
  by_contra hplain
  have hlt := lt_of_scans_string h₂ hplain
  rw [List.length_nil] at hlt
  omega

/-! ### Indentation -/

/-- White space ends a word. -/
theorem scans_whitespace (hc : isWhitespace c = true) : Scans (.word w) (c :: cs) ts m ↔
    ∃ us vs, endWord w = some us ∧ Scans (.word []) cs vs m ∧ ts = us ++ vs := by
  rw [scans_cons, step, if_pos hc]
  simp only [Option.map_eq_some_iff, Prod.mk.injEq]
  constructor
  · rintro ⟨us, n, vs, ⟨us', hword, rfl, rfl⟩, h, rfl⟩
    exact ⟨us', vs, hword, h, rfl⟩
  · rintro ⟨us, vs, hword, h, rfl⟩
    exact ⟨us, .word [], vs, ⟨us, hword, rfl, rfl⟩, h, rfl⟩

theorem scans_space (hc : isWhitespace c = true) :
    Scans (.word []) (c :: cs) ts m ↔ Scans (.word []) cs ts m := by
  rw [scans_whitespace hc]
  constructor
  · rintro ⟨us, vs, hword, h, rfl⟩
    cases hword
    exact h
  · intro h
    exact ⟨[], ts, rfl, h, rfl⟩

/-- A carriage return before a newline. -/
theorem scans_carriageReturn : Scans m (cs ++ ['\r', '\n']) ts m' ↔ Scans m (cs ++ ['\n']) ts m' := by
  have hend (n : Mode) (us : List Token) : Scans n ['\r', '\n'] us m' ↔ Scans n ['\n'] us m' := by
    cases n with
    | word w =>
      rw [scans_whitespace (by decide), scans_whitespace (by decide)]
      simp only [scans_space (c := '\n') (by decide)]
    | _ => rfl
  rw [scans_append, scans_append]
  simp only [hend]

theorem scans_splitLines {line : List Char} (hcs : ∀ c ∈ (line ++ cs).getLast?, c = '\n') (hline : '\n' ∉ line) :
    Scans (.word []) ((splitLines cs line).flatMap fun l => ' ' :: ' ' :: (l ++ ['\n'])) ts m ↔
      Scans (.word []) (line ++ cs) ts m := by
  fun_induction splitLines cs line generalizing ts with
  | case1 => rfl
  | case2 line hne =>
    -- a line that nothing ends is the end of the text
    exfalso
    obtain ⟨front, c, rfl⟩ := List.eq_nil_or_concat line |>.resolve_left fun hnil => hne hnil
    refine hline ?_
    rw [← hcs c (by simp)]
    simp
  | case3 cs line ih =>
    have hsplit : line ++ '\n' :: cs = (line ++ ['\n']) ++ cs := by
      rw [List.append_assoc, List.singleton_append]
    have hend : ∀ c ∈ ([] ++ cs).getLast?, c = '\n' := by
      intro c hc
      refine hcs c ?_
      rw [hsplit]
      exact List.mem_getLast?_append_of_mem_getLast? hc
    have hended (us : List Token) (n : Mode) :
        Scans (.word []) ((if line.getLast? = some '\r' then line.dropLast else line) ++ ['\n']) us n ↔
          Scans (.word []) (line ++ ['\n']) us n := by
      split_ifs with hreturn
      · obtain ⟨front, rfl⟩ := List.getLast?_eq_some_iff.1 hreturn
        rw [List.dropLast_concat, List.append_assoc]
        exact scans_carriageReturn.symm
      · rfl
    rw [List.flatMap_cons, List.cons_append, List.cons_append, scans_space (by decide), scans_space (by decide),
      hsplit, scans_append, scans_append]
    refine exists_congr fun us => exists_congr fun n => exists_congr fun vs => ?_
    rw [hended]
    refine and_congr_right fun hnewline => and_congr_left fun _ => ?_
    rw [scans_newline hnewline]
    exact ih hend List.not_mem_nil
  | case4 c cs line hc ih =>
    have hline' : '\n' ∉ line ++ [c] := by
      rw [List.mem_append, List.mem_singleton, not_or]
      exact ⟨hline, fun heq => hc heq.symm⟩
    rw [ih (by simpa using hcs) hline', List.append_assoc, List.singleton_append]

/-- **A text is scanned as it is when its lines are indented**, if it ends with one. -/
theorem scans_indented {text : String} (hend : text.toList.getLast? = some '\n') :
    Scans (.word []) (String.join ((lines text).map fun line => "  " ++ line ++ "\n")).toList ts m ↔
      Scans (.word []) text.toList ts m := by
  have htext : (String.join ((lines text).map fun line => "  " ++ line ++ "\n")).toList =
      (splitLines text.toList []).flatMap fun l => ' ' :: ' ' :: (l ++ ['\n']) := by
    simp [lines, List.flatMap_map]
  have hnewline : ∀ c ∈ ([] ++ text.toList).getLast?, c = '\n' := by
    intro c hc
    rw [List.nil_append, hend] at hc
    exact (Option.some.inj hc).symm
  rw [htext, scans_splitLines hnewline List.not_mem_nil, List.nil_append]

end SensorBridge.Foundation.Json
