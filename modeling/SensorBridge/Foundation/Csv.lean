import Mathlib.Data.List.Basic

/-!
# Comma-separated values

A text is read one character after the other. A comma ends a field, a newline ends a record, and a
field that begins with a double quote goes on to the next one, where two stand for one. A quote
elsewhere is an error to a strict reader, another one takes it as it stands.

A field is `Bare` when it is read as itself without quotes. A record of such fields is read as these
(`run_record`), and whatever follows in the text, no other field is read as itself
(`bare_of_reads`).
-/

namespace SensorBridge.Foundation.Csv

/-- Where a reader is in a field. -/
inductive Mode where
  | start
  | plain
  | quoted
  | closed

/-- A reader: the records that have ended, the fields of the next one that have, and what there is of
the field after these. -/
structure Reader where
  records : List (List (List Char))
  fields : List (List Char)
  field : List Char
  mode : Mode

namespace Reader

/-- Before a text. -/
def initial : Reader := ⟨[], [], [], .start⟩

def push (r : Reader) (c : Char) (mode : Mode) : Reader := { r with field := r.field ++ [c], mode }

def endField (r : Reader) : Reader := ⟨r.records, r.fields ++ [r.field], [], .start⟩

def endRecord (r : Reader) : Reader := ⟨r.records ++ [r.fields ++ [r.field]], [], [], .start⟩

/-- A character that is not in quotes. -/
def bare (r : Reader) (c : Char) : Reader :=
  if c = ',' then r.endField else if c = '\n' then r.endRecord else r.push c .plain

/-- One character. -/
def step (strict : Bool) (r : Reader) (c : Char) : Option Reader :=
  match r.mode with
  | .start => if c = '"' then some { r with mode := .quoted } else some (r.bare c)
  | .plain => if c = '"' ∧ strict then none else some (r.bare c)
  | .quoted => if c = '"' then some { r with mode := .closed } else some (r.push c .quoted)
  | .closed =>
    if c = '"' then some (r.push c .quoted)
    else if strict ∧ c ≠ ',' ∧ c ≠ '\n' then none
    else some (r.bare c)

/-- The characters of a text. -/
def run (strict : Bool) (r : Reader) (cs : List Char) : Option Reader := cs.foldlM (step strict) r

/-- After a text. A last record need not end with a newline, a field in quotes must end. -/
def finish (r : Reader) : Option (List (List (List Char))) :=
  match r.mode with
  | .quoted => none
  | .start => if r.fields = [] then some r.records else some r.endRecord.records
  | _ => some r.endRecord.records

end Reader

/-- A record, as it is written without quotes. -/
def line (row : List (List Char)) : List Char := [','].intercalate row ++ ['\n']

/-- Reads a text. -/
def read (strict : Bool) (text : String) : Option (List (List String)) :=
  ((Reader.initial.run strict text.toList).bind Reader.finish).map (·.map (·.map .ofList))

example : read true "a,\"b\"\"c,d\"\ne,f\n" = some [["a", "b\"c,d"], ["e", "f"]] := by decide

namespace Reader

variable {strict : Bool} {r : Reader} {out : List (List (List Char))}

@[simp] theorem run_nil : r.run strict [] = some r := rfl

theorem run_cons {c : Char} {cs : List Char} :
    r.run strict (c :: cs) = (r.step strict c).bind (·.run strict cs) := rfl

theorem run_append {cs ds : List Char} :
    r.run strict (cs ++ ds) = (r.run strict cs).bind (·.run strict ds) := by
  induction cs generalizing r with
  | nil => rfl
  | cons c cs ih =>
    rw [List.cons_append, run_cons, run_cons]
    cases r.step strict c with
    | none => rfl
    | some r' => exact ih

/-! ### Fields without quotes -/

/-- A field that has begun and that is read as itself. -/
def Unquoted (strict : Bool) (cs : List Char) : Prop :=
  ',' ∉ cs ∧ '\n' ∉ cs ∧ (strict = true → '"' ∉ cs)

/-- A field that is read as itself. -/
def Bare (strict : Bool) (cs : List Char) : Prop := cs.head? ≠ some '"' ∧ Unquoted strict cs

variable {rs : List (List (List Char))} {fs : List (List Char)} {f cs : List Char} {c : Char}

theorem unquoted_nil : Unquoted strict [] :=
  ⟨List.not_mem_nil, List.not_mem_nil, fun _ => List.not_mem_nil⟩

theorem unquoted_cons : Unquoted strict (c :: cs) ↔
    (c ≠ ',' ∧ c ≠ '\n' ∧ (strict = true → c ≠ '"')) ∧ Unquoted strict cs := by
  simp only [Unquoted, List.mem_cons, not_or, ne_comm (a := c)]
  tauto

theorem bare_of_forall (h : ∀ c ∈ cs, c ≠ ',' ∧ c ≠ '\n' ∧ c ≠ '"') : Bare strict cs :=
  ⟨fun hhead => (h '"' (List.mem_of_head? hhead)).2.2 rfl, fun hc => (h ',' hc).1 rfl,
    fun hc => (h '\n' hc).2.1 rfl, fun _ hc => (h '"' hc).2.2 rfl⟩

theorem bare_of_ne (hcomma : c ≠ ',') (hnewline : c ≠ '\n') : r.bare c = r.push c .plain := by
  rw [bare, if_neg hcomma, if_neg hnewline]

theorem step_plain_of_ne (h : strict = true → c ≠ '"') :
    (⟨rs, fs, f, .plain⟩ : Reader).step strict c = some (bare ⟨rs, fs, f, .plain⟩ c) :=
  if_neg fun ⟨hquote, hstrict⟩ => h hstrict hquote

/-- A field that has begun goes on. -/
theorem run_unquoted (h : Unquoted strict cs) :
    (⟨rs, fs, f, .plain⟩ : Reader).run strict cs = some ⟨rs, fs, f ++ cs, .plain⟩ := by
  induction cs generalizing f with
  | nil => rw [List.append_nil, run_nil]
  | cons c cs ih =>
    obtain ⟨⟨hcomma, hnewline, hquote⟩, hcs⟩ := unquoted_cons.1 h
    rw [run_cons, step_plain_of_ne hquote, bare_of_ne hcomma hnewline, Option.bind_some]
    exact (ih hcs).trans (by rw [List.append_assoc, List.singleton_append])

/-- The character that ends a field that is read as itself. -/
theorem run_bare (h : Bare strict cs) (hend : c = ',' ∨ c = '\n') :
    (⟨rs, fs, [], .start⟩ : Reader).run strict (cs ++ [c]) = some (bare ⟨rs, fs, cs, .plain⟩ c) := by
  have hquote : c ≠ '"' := by rcases hend with rfl | rfl <;> decide
  obtain ⟨hhead, hcs⟩ := h
  cases cs with
  | nil =>
    have hstep : (⟨rs, fs, [], .start⟩ : Reader).step strict c = some (bare ⟨rs, fs, [], .start⟩ c) :=
      if_neg hquote
    rw [List.nil_append, run_cons, hstep]
    rcases hend with rfl | rfl <;> rfl
  | cons d ds =>
    obtain ⟨⟨hcomma, hnewline, -⟩, hds⟩ := unquoted_cons.1 hcs
    have hd : d ≠ '"' := fun hd => hhead (by rw [List.head?_cons, hd])
    have hstep : (⟨rs, fs, [], .start⟩ : Reader).step strict d = some ⟨rs, fs, [d], .plain⟩ :=
      (if_neg hd).trans (by rw [bare_of_ne hcomma hnewline]; rfl)
    rw [List.cons_append, run_cons, hstep, Option.bind_some, run_append, run_unquoted hds,
      Option.bind_some, run_cons, step_plain_of_ne fun _ => hquote]
    rfl

/-- A record of such fields. -/
theorem run_record {row : List (List Char)} (hne : row ≠ []) (h : ∀ cs ∈ row, Bare strict cs) :
    (⟨rs, fs, [], .start⟩ : Reader).run strict (line row) = some ⟨rs ++ [fs ++ row], [], [], .start⟩ := by
  induction row generalizing fs with
  | nil => exact absurd rfl hne
  | cons cs row ih =>
    have hcs := h cs List.mem_cons_self
    cases row with
    | nil =>
      rw [line, List.intercalate_singleton]
      exact run_bare hcs (.inr rfl)
    | cons ds row =>
      have hsplit : line (cs :: ds :: row) = (cs ++ [',']) ++ line (ds :: row) := by
        simp [line]
      have hcomma : (⟨rs, fs, [], .start⟩ : Reader).run strict (cs ++ [',']) =
          some ⟨rs, fs ++ [cs], [], .start⟩ := run_bare hcs (.inl rfl)
      rw [hsplit, run_append, hcomma, Option.bind_some,
        ih (List.cons_ne_nil _ _) fun ds hds => h ds (List.mem_cons_of_mem _ hds),
        List.append_assoc, List.singleton_append]

/-! ### What is read of a field -/

/-- A field of the result, or of what a reader has so far. -/
def cell (records : List (List (List Char))) (i j : ℕ) : Option (List Char) := records[i]?.bind (·[j]?)

/-- The fields that have ended. -/
def ended (r : Reader) : List (List (List Char)) := r.records ++ [r.fields]

/-- There is a text after which the result is this. -/
def Reads (strict : Bool) (r : Reader) (cs : List Char) (out : List (List (List Char))) : Prop :=
  (r.run strict cs).bind finish = some out

theorem reads_cons :
    Reads strict r (c :: cs) out ↔ ∃ r', r.step strict c = some r' ∧ Reads strict r' cs out := by
  rw [Reads, run_cons]
  cases hstep : r.step strict c with
  | none => simp
  | some r' => simp [Reads]

/-- What a character does: the field in progress goes on, or it ends, or the record does. -/
theorem step_cases {r' : Reader} (h : r.step strict c = some r') :
    (r'.records = r.records ∧ r'.fields = r.fields ∧ r.field <+: r'.field) ∨ r' = r.endField ∨
      r' = r.endRecord := by
  have hpush (mode : Mode) : r.field <+: (r.push c mode).field := List.prefix_append _ _
  have hbare : some (r.bare c) = some r' → (r'.records = r.records ∧ r'.fields = r.fields ∧
      r.field <+: r'.field) ∨ r' = r.endField ∨ r' = r.endRecord := by
    rintro ⟨⟩
    unfold bare
    split_ifs
    · exact .inr (.inl rfl)
    · exact .inr (.inr rfl)
    · exact .inl ⟨rfl, rfl, hpush .plain⟩
  unfold step at h
  split at h
  · split_ifs at h
    · cases h
      exact .inl ⟨rfl, rfl, List.prefix_rfl⟩
    · exact hbare h
  · split_ifs at h
    exact hbare h
  · split_ifs at h <;> cases h
    · exact .inl ⟨rfl, rfl, List.prefix_rfl⟩
    · exact .inl ⟨rfl, rfl, hpush .quoted⟩
  · split_ifs at h
    · cases h
      exact .inl ⟨rfl, rfl, hpush .quoted⟩
    · exact hbare h

theorem finish_cases (h : r.finish = some out) :
    (out = r.records ∧ r.fields = []) ∨ out = r.endRecord.records := by
  unfold finish at h
  split at h
  · cases h
  · split_ifs at h with hfields <;> cases h
    · exact .inl ⟨rfl, hfields⟩
    · exact .inr rfl
  · cases h
    exact .inr rfl

/-- What has ended stays. -/
theorem cell_extend {gs : List (List Char)} {ss : List (List (List Char))} {i j : ℕ} {v : List Char}
    (h : cell (rs ++ [fs]) i j = some v) : cell (rs ++ (fs ++ gs) :: ss) i j = some v := by
  rcases Nat.lt_trichotomy i rs.length with hlt | rfl | hgt
  · rw [cell, List.getElem?_append_left hlt] at h ⊢
    exact h
  · rw [cell, List.getElem?_append_right (Nat.le_refl _), Nat.sub_self, List.getElem?_cons_zero,
      Option.bind_some] at h ⊢
    obtain ⟨hj, -⟩ := List.getElem?_eq_some_iff.1 h
    rw [List.getElem?_append_left hj, h]
  · rw [cell, List.getElem?_eq_none (by rw [List.length_append]; exact hgt)] at h
    cases h

/-- A record without fields is none yet. -/
theorem cell_of_concat_nil {i j : ℕ} {v : List Char} (h : cell (rs ++ [[]]) i j = some v) :
    cell rs i j = some v := by
  rcases Nat.lt_or_ge i rs.length with hlt | hge
  · rwa [cell, List.getElem?_append_left hlt] at h
  · rw [cell, List.getElem?_append_right hge] at h
    cases hi : i - rs.length with
    | zero =>
      rw [hi] at h
      cases h
    | succ n =>
      rw [hi] at h
      cases h

theorem cell_endField : cell r.endField.ended r.records.length r.fields.length = some r.field := by
  simp [cell, ended, endField]

theorem cell_endRecord : cell r.endRecord.records r.records.length r.fields.length = some r.field := by
  simp [cell, endRecord]

theorem cell_ended_endRecord :
    cell r.endRecord.ended r.records.length r.fields.length = some r.field := by
  simp [cell, ended, endRecord]

/-- The fields that have ended are fields of the result. -/
theorem cell_of_reads (h : Reads strict r cs out) {i j : ℕ} {v : List Char}
    (hcell : cell r.ended i j = some v) : cell out i j = some v := by
  induction cs generalizing r with
  | nil =>
    rcases finish_cases h with ⟨rfl, hfields⟩ | rfl
    · rw [ended, hfields] at hcell
      exact cell_of_concat_nil hcell
    · exact cell_extend hcell
  | cons c cs ih =>
    obtain ⟨r', hstep, hrest⟩ := reads_cons.1 h
    refine ih hrest ?_
    rcases step_cases hstep with ⟨hrecords, hfields, -⟩ | rfl | rfl
    · rwa [ended, hrecords, hfields]
    · exact cell_extend hcell
    · rw [ended, endRecord, List.append_assoc]
      exact cell_extend hcell

/-- The field in progress is the beginning of one of the result. -/
theorem prefix_of_reads (h : Reads strict r cs out) {v : List Char}
    (hcell : cell out r.records.length r.fields.length = some v) : r.field <+: v := by
  induction cs generalizing r with
  | nil =>
    rcases finish_cases h with ⟨rfl, hfields⟩ | rfl
    · simp [cell] at hcell
    · rw [cell_endRecord, Option.some.injEq] at hcell
      exact hcell ▸ List.prefix_rfl
  | cons c cs ih =>
    obtain ⟨r', hstep, hrest⟩ := reads_cons.1 h
    rcases step_cases hstep with ⟨hrecords, hfields, hprefix⟩ | rfl | rfl
    · rw [← hrecords, ← hfields] at hcell
      exact hprefix.trans (ih hrest hcell)
    · rw [cell_of_reads hrest cell_endField, Option.some.injEq] at hcell
      exact hcell ▸ List.prefix_rfl
    · rw [cell_of_reads hrest cell_ended_endRecord, Option.some.injEq] at hcell
      exact hcell ▸ List.prefix_rfl

/-! ### No other field is read as itself -/

variable {ds : List Char}

theorem ne_append_cons (f : List Char) (c : Char) (cs : List Char) : f ≠ f ++ c :: cs := by
  intro h
  have hlength := congrArg List.length h
  rw [List.length_append, List.length_cons] at hlength
  omega

/-- A field that has begun goes on as it is read. -/
theorem unquoted_of_reads (h : Reads strict ⟨rs, fs, f, .plain⟩ (cs ++ ',' :: ds) out)
    (hcell : cell out rs.length fs.length = some (f ++ cs)) : Unquoted strict cs := by
  induction cs generalizing f with
  | nil => exact unquoted_nil
  | cons c cs ih =>
    obtain ⟨r', hstep, hrest⟩ := reads_cons.1 h
    have hquote : strict = true → c ≠ '"' := by
      rintro hstrict rfl
      rw [hstrict] at hstep
      cases hstep
    rw [step_plain_of_ne hquote, Option.some.injEq] at hstep
    subst hstep
    -- were the field to end here, it would be shorter than what is read
    have hended (r' : Reader) (hrest : Reads strict r' (cs ++ ',' :: ds) out)
        (hr' : cell r'.ended rs.length fs.length = some f) : False := by
      rw [cell_of_reads hrest hr', Option.some.injEq] at hcell
      exact ne_append_cons f c cs hcell
    have hcomma : c ≠ ',' := by
      rintro rfl
      exact hended _ hrest (cell_endField (r := ⟨rs, fs, f, .plain⟩))
    have hnewline : c ≠ '\n' := by
      rintro rfl
      exact hended _ hrest (cell_ended_endRecord (r := ⟨rs, fs, f, .plain⟩))
    rw [bare_of_ne hcomma hnewline] at hrest
    refine unquoted_cons.2 ⟨⟨hcomma, hnewline, hquote⟩, ih hrest ?_⟩
    rw [hcell, List.append_assoc, List.singleton_append]

/-- A reader at the start of a field, after a quote and so many more: of these, two stand for one. -/
def afterQuotes (rs : List (List (List Char))) (fs : List (List Char)) (n : ℕ) : Reader :=
  ⟨rs, fs, List.replicate (n / 2) '"', if n % 2 = 0 then .quoted else .closed⟩

theorem step_afterQuotes_quote (n : ℕ) :
    (afterQuotes rs fs n).step strict '"' = some (afterQuotes rs fs (n + 1)) := by
  rcases Nat.mod_two_eq_zero_or_one n with heven | hodd
  · have hmode : ¬ (n + 1) % 2 = 0 := by omega
    have hcount : (n + 1) / 2 = n / 2 := by omega
    simp [afterQuotes, heven, hmode, step, hcount]
  · have hmode : (n + 1) % 2 = 0 := by omega
    have hcount : (n + 1) / 2 = n / 2 + 1 := by omega
    simp [afterQuotes, hodd, hmode, step, push, hcount, List.replicate_succ']

/-- Another character goes on with the field or ends it. -/
theorem step_afterQuotes_ne {n : ℕ} (hc : c ≠ '"') {r' : Reader}
    (h : (afterQuotes rs fs n).step strict c = some r') :
    (r'.records = rs ∧ r'.fields = fs ∧ r'.field = List.replicate (n / 2) '"' ++ [c]) ∨
      cell r'.ended rs.length fs.length = some (List.replicate (n / 2) '"') := by
  rcases Nat.mod_two_eq_zero_or_one n with heven | hodd
  · have hmode : (afterQuotes rs fs n).mode = .quoted := if_pos heven
    rw [step, hmode] at h
    dsimp only at h
    rw [if_neg hc] at h
    cases h
    exact .inl ⟨rfl, rfl, rfl⟩
  · have hmode : (afterQuotes rs fs n).mode = .closed := if_neg (by omega)
    rw [step, hmode] at h
    dsimp only at h
    rw [if_neg hc] at h
    split_ifs at h
    cases h
    unfold bare
    split_ifs
    · exact .inr (cell_endField (r := afterQuotes rs fs n))
    · exact .inr (cell_ended_endRecord (r := afterQuotes rs fs n))
    · exact .inl ⟨rfl, rfl, rfl⟩

/-- Fewer quotes in front of another character, or of nothing. -/
theorem not_prefix_quotes {k n : ℕ} (hlt : k < n) (hc : c ≠ '"') :
    ¬ List.replicate k '"' ++ [c] <+: List.replicate n '"' ++ cs := by
  intro h
  obtain ⟨m, rfl⟩ := Nat.exists_eq_add_of_lt hlt
  rw [Nat.add_assoc, List.replicate_add, List.replicate_succ, List.append_assoc, List.prefix_append_right_inj,
    List.cons_append, List.cons_prefix_cons] at h
  exact hc h.1

theorem replicate_ne_quotes {k n : ℕ} (hlt : k < n) : List.replicate k '"' ≠ List.replicate n '"' ++ cs := by
  intro h
  have hlength := congrArg List.length h
  rw [List.length_append, List.length_replicate, List.length_replicate] at hlength
  omega

/-- A field that begins with quotes is not read as itself: fewer of them are in front of what is
read. -/
theorem cell_ne_of_reads_quotes {n : ℕ} (hc : c ≠ '"') (h : Reads strict (afterQuotes rs fs n) (c :: ds) out) :
    cell out rs.length fs.length ≠ some (List.replicate (n + 1) '"' ++ cs) := by
  intro hcell
  have hlt : n / 2 < n + 1 := by omega
  obtain ⟨r', hstep, hrest⟩ := reads_cons.1 h
  rcases step_afterQuotes_ne hc hstep with ⟨hrecords, hfields, hfield⟩ | hended
  · rw [← hrecords, ← hfields] at hcell
    exact not_prefix_quotes hlt hc (hfield ▸ prefix_of_reads hrest hcell)
  · rw [cell_of_reads hrest hended, Option.some.injEq] at hcell
    exact replicate_ne_quotes hlt hcell

theorem cell_ne_of_reads_quoted (n : ℕ) (h : Reads strict (afterQuotes rs fs n) (cs ++ ',' :: ds) out) :
    cell out rs.length fs.length ≠ some (List.replicate (n + 1) '"' ++ cs) := by
  induction cs generalizing n with
  | nil => exact cell_ne_of_reads_quotes (by decide) h
  | cons c cs ih =>
    by_cases hc : c = '"'
    · obtain ⟨r', hstep, hrest⟩ := reads_cons.1 h
      rw [hc, step_afterQuotes_quote, Option.some.injEq] at hstep
      subst hstep
      have hquotes : List.replicate (n + 1) '"' ++ c :: cs = List.replicate (n + 1 + 1) '"' ++ cs := by
        rw [hc, List.replicate_succ' (n := n + 1), List.append_assoc, List.singleton_append]
      rw [hquotes]
      exact ih (n + 1) hrest
    · exact cell_ne_of_reads_quotes hc h

/-- **A field is read as itself** only if it is `Bare`, whatever the rest of the text is. -/
theorem bare_of_reads (h : Reads strict ⟨rs, fs, [], .start⟩ (cs ++ ',' :: ds) out)
    (hcell : cell out rs.length fs.length = some cs) : Bare strict cs := by
  cases cs with
  | nil => exact ⟨by simp, unquoted_nil⟩
  | cons c cs =>
    have hquote : c ≠ '"' := by
      rintro rfl
      exact cell_ne_of_reads_quoted 0 h hcell
    -- another first character is read as it is when the field has begun
    have hstep : (⟨rs, fs, [], .start⟩ : Reader).step strict c =
        (⟨rs, fs, [], .plain⟩ : Reader).step strict c := by
      rw [step_plain_of_ne fun _ => hquote]
      exact if_neg hquote
    have hplain : Reads strict ⟨rs, fs, [], .plain⟩ (c :: cs ++ ',' :: ds) out := by
      rw [List.cons_append, reads_cons] at h ⊢
      rwa [hstep] at h
    exact ⟨fun hhead => hquote (Option.some.inj hhead), unquoted_of_reads hplain hcell⟩

theorem reads_append {es : List Char} {r' : Reader} (h : r.run strict cs = some r') :
    Reads strict r (cs ++ es) out ↔ Reads strict r' es out := by
  rw [Reads, run_append, h, Option.bind_some, Reads]

/-- In a record, after fields that are read as themselves and before another one. -/
theorem bare_of_reads_record {before after : List (List Char)} (hbefore : ∀ f ∈ before, Bare strict f)
    (h : Reads strict ⟨rs, fs, [], .start⟩ (line (before ++ cs :: f :: after) ++ ds) out)
    (hcell : cell out rs.length (fs.length + before.length) = some cs) : Bare strict cs := by
  induction before generalizing fs with
  | nil =>
    have hsplit : line (cs :: f :: after) ++ ds = cs ++ ',' :: (line (f :: after) ++ ds) := by
      simp [line]
    rw [List.nil_append, hsplit] at h
    exact bare_of_reads h hcell
  | cons d before ih =>
    obtain ⟨hd, hbefore⟩ := List.forall_mem_cons.1 hbefore
    obtain ⟨e, row, hrow⟩ := List.exists_cons_of_ne_nil
      (show before ++ cs :: f :: after ≠ [] by simp)
    have hsplit : line (d :: before ++ cs :: f :: after) ++ ds =
        (d ++ [',']) ++ (line (before ++ cs :: f :: after) ++ ds) := by
      simp [line, hrow]
    rw [hsplit, reads_append (run_bare hd (.inl rfl))] at h
    refine ih hbefore h ?_
    rw [← hcell, List.length_append, List.length_singleton, List.length_cons, Nat.add_assoc, Nat.add_comm 1]

end Reader

/-- What is read of a text, as characters. -/
theorem read_eq_some {strict : Bool} {text : String} {rows : List (List String)} :
    read strict text = some rows ↔
      Reader.Reads strict Reader.initial text.toList (rows.map (·.map String.toList)) := by
  rw [read, Option.map_eq_some_iff, Reader.Reads]
  constructor
  · rintro ⟨out, hout, rfl⟩
    rw [hout]
    simp [Function.comp_def]
  · intro hout
    exact ⟨_, hout, by simp [Function.comp_def]⟩

end SensorBridge.Foundation.Csv
