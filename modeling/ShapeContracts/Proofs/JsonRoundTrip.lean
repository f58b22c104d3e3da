/-
  ShapeContracts/Proofs/JsonRoundTrip.lean
  ========================================
  **Reading back what is written as JSON.**

  A document that only has values JSON can write (`Json.Exact`) is read back as
  it was, from its compact form (`Json.read?_compact`) and from its indented one
  (`Json.read?_pretty`).  The inductions are on the document; they say of each part
  that it is read off the front of a text and leaves the rest, whatever the rest is
  (`Json.ReadsBack`).  Only a number has to know where it ends, hence the rest must
  not begin with a character that would continue one.

  The two forms differ in the blanks between the parts.  Sequences and mappings
  are read whatever blanks there are (`Json.readsBack_sequence`,
  `Json.readsBack_object`).

  Reading spends fuel on nesting and on the number of parts.  Both are bounded by
  the length of the text, since every part of a document takes a character.
-/
import ShapeContracts.Document.Json.Reader
import ShapeContracts.Document.Json.Writer
import ShapeContracts.Proofs.Numeral
import ShapeContracts.Proofs.Text

namespace ShapeContracts

namespace Json

variable {cs ds rest : List Char} {c : Char} {n : Nat}

/-! ### Numbers -/

/-- A text that does not continue a number. -/
def EndsNumber (rest : List Char) : Prop :=
  ∀ c ∈ rest.head?, c.isDigit = false ∧ c ≠ '.' ∧ c ≠ 'e' ∧ c ≠ 'E'

theorem numeral?_ten (hne : ds ≠ []) (hds : ∀ c ∈ ds, c.isDigit = true) :
    Text.numeral? 10 ds = some (Nat.ofDigitChars 10 ds 0) := by
  have hfold : ∀ value : Nat, ds.foldlM (fun n c => (Text.digit? 10 c).map (n * 10 + ·)) value =
      some (Nat.ofDigitChars 10 ds value) := by
    clear hne
    induction ds with
    | nil => intro value; rfl
    | cons c ds ih =>
      intro value
      have hc : c.isDigit = true := hds c (by simp)
      rw [List.foldlM_cons, Text.digit?_ten, if_pos hc]
      change ds.foldlM _ (value * 10 + _) = _
      rw [ih fun d hd => hds d (by simp [hd]), Nat.ofDigitChars_cons, Nat.mul_comm]
  cases ds with
  | nil => exact absurd rfl hne
  | cons c ds => exact hfold 0

theorem isDigit_of_mem_toDigits (hc : c ∈ Nat.toDigits 10 n) : c.isDigit = true :=
  Nat.isDigit_of_mem_toDigits (by omega) (Nat.le_refl 10) hc

theorem toDigits_eq_cons (n : Nat) : ∃ c ds, Nat.toDigits 10 n = c :: ds ∧ c.isDigit = true := by
  rcases hds : Nat.toDigits 10 n with _ | ⟨c, ds⟩
  · exact absurd hds Nat.toDigits_ne_nil
  · have hmem : c ∈ Nat.toDigits 10 n := by rw [hds]; exact List.mem_cons_self ..
    exact ⟨c, ds, rfl, isDigit_of_mem_toDigits hmem⟩

theorem digits?_append (hne : ds ≠ []) (hds : ∀ c ∈ ds, c.isDigit = true)
    (hrest : EndsNumber rest) : digits? (ds ++ rest) = some (ds, rest) := by
  have hnot : ∀ c ∈ rest.head?, c.isDigit = false := fun c hc => (hrest c hc).1
  have htake : (ds ++ rest).takeWhile Char.isDigit = ds := by
    rw [List.takeWhile_append_of_pos hds]
    cases rest with
    | nil => simp
    | cons c rest => simp [hnot c rfl]
  have hdrop : (ds ++ rest).dropWhile Char.isDigit = rest := by
    rw [List.dropWhile_append_of_pos hds, Text.dropWhile_eq_self hnot]
  cases ds with
  | nil => exact absurd rfl hne
  | cons c ds => rw [digits?, htake, hdrop]

theorem head?_toDigits_ne_zero (hn : n ≠ 0) : (Nat.toDigits 10 n).head? ≠ some '0' := by
  induction n using Nat.strongRecOn with
  | ind n ih =>
    rw [Nat.toDigits_eq_if (by omega)]
    by_cases hlt : n < 10
    · simpa [if_pos hlt] using hn
    · rw [if_neg hlt, List.head?_append_of_ne_nil _ Nat.toDigits_ne_nil]
      exact ih (n / 10) (by omega) (by omega)

/-- The digits of a number are all of it, and only those of zero begin with a
    zero. -/
theorem wholeDigits?_toDigits (n : Nat) (hrest : EndsNumber rest) :
    wholeDigits? (Nat.toDigits 10 n ++ rest) = some (Nat.toDigits 10 n, rest) := by
  by_cases hn : n = 0
  · subst hn
    rfl
  · have hdigits : digits? (Nat.toDigits 10 n ++ rest) = some (Nat.toDigits 10 n, rest) :=
      digits?_append Nat.toDigits_ne_nil (fun c hc => isDigit_of_mem_toDigits hc) hrest
    have hhead := head?_toDigits_ne_zero hn
    obtain ⟨c, ds, hds, -⟩ := toDigits_eq_cons n
    rw [hds] at hdigits hhead ⊢
    rw [List.cons_append] at hdigits ⊢
    rw [wholeDigits?, hdigits]
    intro cs h
    exact hhead (congrArg some (List.cons.inj h).1)

theorem fraction?_of_endsNumber (hrest : EndsNumber rest) :
    fraction? rest = some (false, rest) := by
  cases rest with
  | nil => rfl
  | cons c rest =>
    obtain ⟨-, hpoint, -, -⟩ := hrest c rfl
    rw [fraction?]
    intro cs h
    exact hpoint (List.cons.inj h).1

theorem exponent?_of_endsNumber (hrest : EndsNumber rest) :
    exponent? rest = some (false, rest) := by
  cases rest with
  | nil => rfl
  | cons c rest =>
    obtain ⟨-, -, hlower, hupper⟩ := hrest c rfl
    rw [exponent?, if_neg (by simp [hlower, hupper])]

theorem number?_integer {i : Int} (hi : Scalar.ofInt i = .integer i) (hrest : EndsNumber rest) :
    number? ((scalar (.integer i)).toList ++ rest) = some (.integer i, rest) := by
  have hvalue : ∀ n : Nat, Text.numeral? 10 (Nat.toDigits 10 n) = some n := by
    intro n
    rw [numeral?_ten Nat.toDigits_ne_nil fun c hc => isDigit_of_mem_toDigits hc,
      Nat.ofDigitChars_toDigits (by omega) (Nat.le_refl 10)]
  cases i with
  | ofNat n =>
    have hsign : ∀ cs, Nat.toDigits 10 n ++ rest ≠ '-' :: cs := by
      intro cs h
      obtain ⟨c, ds, hds, hc⟩ := toDigits_eq_cons n
      rw [hds, List.cons_append] at h
      rw [(List.cons.inj h).1] at hc
      exact absurd hc (by decide)
    rw [scalar, Nat.toList_repr, number?]
    · simp only [wholeDigits?_toDigits _ hrest, fraction?_of_endsNumber hrest,
        exponent?_of_endsNumber hrest, hvalue, Option.bind_eq_bind, Option.bind_some,
        Option.getD_some, Bool.false_or]
      simpa using hi
    · exact hsign
  | negSucc n =>
    have htext : (scalar (.integer (.negSucc n))).toList = '-' :: Nat.toDigits 10 (n + 1) := by
      rw [scalar, String.toList_append, Nat.toList_repr]
      rfl
    rw [htext, List.cons_append, number?]
    simp only [wholeDigits?_toDigits _ hrest, fraction?_of_endsNumber hrest,
      exponent?_of_endsNumber hrest, hvalue, Option.bind_eq_bind, Option.bind_some,
      Option.getD_some, Bool.false_or]
    simpa [Int.negSucc_eq] using hi

/-! ### Quoted text -/

/-- A character is written as a backslash and a letter, by its number, or as it
    is. -/
theorem escape_cases (c : Char) :
    (∃ letter, escaped? letter = some c ∧ escape c = ['\\', letter]) ∨
      (c.toNat < 0x20 ∧ escape c =
        ['\\', 'u', '0', '0', hexDigit (c.toNat / 16), hexDigit (c.toNat % 16)]) ∨
      (c ≠ '"' ∧ c ≠ '\\' ∧ ¬ c.toNat < 0x20 ∧ escape c = [c]) := by
  rw [escape]
  split_ifs with hquote hslash hback htab hline hfeed hreturn hcontrol
  · exact .inl ⟨'"', by rw [hquote]; rfl, rfl⟩
  · exact .inl ⟨'\\', by rw [hslash]; rfl, rfl⟩
  · exact .inl ⟨'b', by rw [hback]; rfl, rfl⟩
  · exact .inl ⟨'t', by rw [htab]; rfl, rfl⟩
  · exact .inl ⟨'n', by rw [hline]; rfl, rfl⟩
  · exact .inl ⟨'f', by rw [hfeed]; rfl, rfl⟩
  · exact .inl ⟨'r', by rw [hreturn]; rfl, rfl⟩
  · exact .inr (.inl ⟨hcontrol, rfl⟩)
  · exact .inr (.inr ⟨hquote, hslash, hcontrol, rfl⟩)

theorem numeral?_control :
    ∀ u < 0x20, Text.numeral? 16 ['0', '0', hexDigit (u / 16), hexDigit (u % 16)] = some u := by
  decide

theorem quoted?_escape (c : Char) (read rest : List Char) :
    quoted? none read false (escape c ++ rest) = quoted? none (c :: read) false rest := by
  rcases escape_cases c with ⟨letter, hletter, hc⟩ | ⟨hcontrol, hc⟩ | ⟨hquote, hslash, hspace, hc⟩
  · have hnumber : letter ≠ 'u' := by
      rintro rfl
      have hnone : escaped? 'u' = none := by decide
      rw [hnone] at hletter
      cases hletter
    rw [hc]
    simp only [List.cons_append, List.nil_append]
    rw [quoted?, hletter]
    intro a b c d cs h
    exact absurd h hnumber
  · -- the number of a control character is half of no pair
    have hhigh : isHighHalf c.toNat = false := by
      simp [isHighHalf]
      omega
    have hlow : isLowHalf c.toNat = false := by
      simp [isLowHalf]
      omega
    rw [hc]
    simp only [List.cons_append, List.nil_append]
    rw [quoted?, numeral?_control _ hcontrol]
    simp [hhigh, hlow, Char.ofNat_toNat]
  · rw [hc, List.singleton_append, quoted?]
    · rw [if_neg (by simp [hslash, hspace])]
    · exact hquote
    · exact fun a b c d cs h _ => hslash h
    · exact fun d cs h _ => hslash h

theorem quoted?_flatMap_escape (cs read rest : List Char) :
    quoted? none read false (cs.flatMap escape ++ '"' :: rest) =
      some (.text (String.ofList (read.reverse ++ cs)), rest) := by
  induction cs generalizing read with
  | nil => simp [quoted?]
  | cons c cs ih =>
    rw [List.flatMap_cons, List.append_assoc, quoted?_escape, ih]
    simp

/-! ### Documents -/

/-- A document that only has what JSON can write: integers in range, and texts
    as the names of fields. -/
inductive Exact : Node → Prop
  | null : Exact .null
  | bool (b : Bool) : Exact (.bool b)
  | integer {i : Int} : Scalar.ofInt i = .integer i → Exact (.leaf (.integer i) none)
  | text (s : String) : Exact (.text s)
  | sequence {items : List Node} : (∀ item ∈ items, Exact item) → Exact (.sequence items)
  | object {fields : List (String × Node)} :
      (∀ field ∈ fields, Exact field.2) → Exact (.object fields)

/-- A text whose first character is not taken for a blank or for an end. -/
def Opens (cs : List Char) : Prop :=
  ∃ c back, cs = c :: back ∧ isSpace c = false ∧ c ≠ ']' ∧ c ≠ '\x7d'

/-- A text that is read as a document.  Whatever follows it, reading stops where
    it ends. -/
structure ReadsBack (cs : List Char) (node : Node) : Prop where
  opens : Opens cs
  read : ∀ fuel rest, EndsNumber rest → 2 * cs.length ≤ fuel →
    value? fuel (cs ++ rest) = some (node, rest)

/-- Characters that may stand between the parts of a document. -/
def Blanks (cs : List Char) : Prop := ∀ c ∈ cs, isSpace c = true

/-- A text that is read as a field, with blanks after the colon. -/
inductive ReadsBackField : List Char → String × Node → Prop
  | intro {gap cs : List Char} (name : String) {node : Node} :
      Blanks gap → ReadsBack cs node →
      ReadsBackField ('"' :: (name.toList.flatMap escape ++ '"' :: ':' :: (gap ++ cs)))
        (name, node)

variable {node : Node} {items : List Node} {fields : List (String × Node)} {fuel : Nat}

theorem Opens.append (h : Opens cs) (rest : List Char) : Opens (cs ++ rest) := by
  obtain ⟨c, back, rfl, hc⟩ := h
  exact ⟨c, back ++ rest, rfl, hc⟩

theorem Opens.skip_eq (h : Opens cs) : skip cs = cs := by
  obtain ⟨c, back, rfl, hspace, -⟩ := h
  exact Text.dropWhile_eq_self (by simpa using hspace)

theorem Opens.ne_endSequence (h : Opens cs) (back : List Char) : cs ≠ ']' :: back := by
  obtain ⟨c, front, rfl, -, hend, -⟩ := h
  intro heq
  exact hend (List.cons.inj heq).1

theorem Opens.ne_endObject (h : Opens cs) (back : List Char) : cs ≠ '\x7d' :: back := by
  obtain ⟨c, front, rfl, -, -, hend⟩ := h
  intro heq
  exact hend (List.cons.inj heq).1

theorem endsNumber_cons {c : Char} (h : c.isDigit = false ∧ c ≠ '.' ∧ c ≠ 'e' ∧ c ≠ 'E')
    (rest : List Char) : EndsNumber (c :: rest) := by
  intro d hd
  rw [List.head?_cons, Option.mem_some_iff] at hd
  rwa [← hd]

theorem skip_cons {c : Char} (h : isSpace c = false) (cs : List Char) : skip (c :: cs) = c :: cs :=
  Text.dropWhile_eq_self (by simpa using h)

namespace Blanks

variable {blanks : List Char}

theorem nil : Blanks [] := by
  intro c hc
  cases hc

theorem skip_append (h : Blanks blanks) (cs : List Char) : skip (blanks ++ cs) = skip cs :=
  List.dropWhile_append_of_pos h

/-- No blank continues a number. -/
theorem endsNumber_append (h : Blanks blanks) (hrest : EndsNumber rest) :
    EndsNumber (blanks ++ rest) := by
  cases blanks with
  | nil => exact hrest
  | cons c blanks =>
    apply endsNumber_cons
    have hc := h c (List.mem_cons_self ..)
    simp only [isSpace, Bool.or_eq_true, beq_iff_eq] at hc
    rcases hc with ((rfl | rfl) | rfl) | rfl <;> decide

end Blanks

theorem readsBack_of_succ (hopens : Opens cs)
    (h : ∀ fuel rest, EndsNumber rest → 2 * cs.length ≤ fuel + 1 →
      value? (fuel + 1) (cs ++ rest) = some (node, rest)) : ReadsBack cs node := by
  refine ⟨hopens, ?_⟩
  intro fuel rest hrest hfuel
  have hpos : 0 < cs.length := by
    obtain ⟨c, back, rfl, -⟩ := hopens
    exact Nat.succ_pos _
  obtain ⟨fuel, rfl⟩ : ∃ k, fuel = k + 1 := ⟨fuel - 1, by omega⟩
  exact h fuel rest hrest hfuel

/-! ### Scalars -/

theorem readsBack_null : ReadsBack (scalar .null).toList .null :=
  readsBack_of_succ ⟨'n', _, rfl, by decide⟩ fun _ _ _ _ => rfl

theorem readsBack_bool (b : Bool) : ReadsBack (scalar (.bool b)).toList (.bool b) := by
  cases b
  · exact readsBack_of_succ ⟨'f', _, rfl, by decide⟩ fun _ _ _ _ => rfl
  · exact readsBack_of_succ ⟨'t', _, rfl, by decide⟩ fun _ _ _ _ => rfl

/-- A number begins with a digit or with a minus sign. -/
theorem head_integer (i : Int) :
    ∃ c back, (scalar (.integer i)).toList = c :: back ∧ (c.isDigit = true ∨ c = '-') := by
  cases i with
  | ofNat n =>
    obtain ⟨c, ds, hds, hc⟩ := toDigits_eq_cons n
    exact ⟨c, ds, by rw [scalar, Nat.toList_repr, hds], .inl hc⟩
  | negSucc n =>
    rw [scalar, String.toList_append]
    exact ⟨'-', _, rfl, .inr rfl⟩

theorem opens_digit (hc : c.isDigit = true) : isSpace c = false ∧ c ≠ ']' ∧ c ≠ '\x7d' := by
  refine ⟨?_, ?_, ?_⟩
  · rw [Bool.eq_false_iff]
    intro hspace
    simp only [isSpace, Bool.or_eq_true, beq_iff_eq] at hspace
    rcases hspace with ((rfl | rfl) | rfl) | rfl <;> revert hc <;> decide
  all_goals
    rintro rfl
    revert hc
    decide

theorem readsBack_integer {i : Int} (hi : Scalar.ofInt i = .integer i) :
    ReadsBack (scalar (.integer i)).toList (.leaf (.integer i) none) := by
  obtain ⟨c, back, hc, hhead⟩ := head_integer i
  have hopens : Opens (scalar (.integer i)).toList := by
    refine ⟨c, back, hc, ?_⟩
    rcases hhead with hdigit | rfl
    · exact opens_digit hdigit
    · decide
  apply readsBack_of_succ hopens
  intro fuel rest hrest _
  have hnumber := number?_integer hi hrest
  rw [hc, List.cons_append] at hnumber
  rw [hc, List.cons_append, value?, hnumber]
  · rfl
  all_goals
    intro cs h
    rw [(List.cons.inj h).1] at hhead
    revert hhead
    decide

theorem toList_quote (s : String) :
    (quote s).toList = '"' :: (s.toList.flatMap escape ++ ['"']) := by
  simp only [quote, String.toList_append, String.toList_ofList]
  rfl

theorem readsBack_text (s : String) : ReadsBack (scalar (.text s)).toList (.text s) := by
  rw [scalar, toList_quote]
  apply readsBack_of_succ ⟨'"', _, rfl, by decide⟩
  intro fuel rest _ _
  rw [List.cons_append, List.append_assoc, List.singleton_append, value?,
    quoted?_flatMap_escape]
  simp [textNode]

/-! ### Sequences and mappings -/

/-- Parts with commas between them, and blanks after the commas. -/
def joined (lead : List Char) (parts : List (List Char)) : List Char :=
  (',' :: lead).intercalate parts

section Parts

variable {lead trail : List Char} {part : List Char} {parts : List (List Char)}

theorem joined_singleton (lead part : List Char) : joined lead [part] = part :=
  List.intercalate_singleton

theorem joined_cons_cons (lead part next : List Char) (parts : List (List Char)) :
    joined lead (part :: next :: parts) =
      part ++ ',' :: (lead ++ joined lead (next :: parts)) := by
  rw [joined, List.intercalate_cons_cons, List.append_assoc, List.cons_append, joined]

theorem opens_joined (h : Opens part) : Opens (joined lead (part :: parts)) := by
  cases parts with
  | nil => rwa [joined_singleton]
  | cons next parts =>
    rw [joined_cons_cons]
    exact h.append _

theorem items?_joined (hlead : Blanks lead) (htrail : Blanks trail) (hne : parts ≠ [])
    (h : List.Forall₂ ReadsBack parts items) (hfuel : 2 * (joined lead parts).length < fuel) :
    items? fuel (joined lead parts ++ (trail ++ ']' :: rest)) = some (items, rest) := by
  induction h generalizing fuel with
  | nil => exact absurd rfl hne
  | @cons part item parts items hpart hparts ih =>
    obtain ⟨fuel, rfl⟩ : ∃ k, fuel = k + 1 := ⟨fuel - 1, by omega⟩
    cases hparts with
    | nil =>
      rw [joined_singleton] at hfuel ⊢
      have hend : EndsNumber (trail ++ ']' :: rest) :=
        htrail.endsNumber_append (endsNumber_cons (by decide) rest)
      rw [items?, hpart.read fuel _ hend (by omega)]
      simp only [Option.bind_eq_bind, Option.bind_some, htrail.skip_append,
        skip_cons (c := ']') (by decide)]
      rfl
    | @cons next _ parts _ hnext hrest =>
      rw [joined_cons_cons] at hfuel ⊢
      simp only [List.length_append, List.length_cons] at hfuel
      have hitems : items? fuel (joined lead (next :: parts) ++ (trail ++ ']' :: rest)) =
          some (_, rest) := ih (List.cons_ne_nil next parts) (by omega)
      have hopens : Opens (joined lead (next :: parts) ++ (trail ++ ']' :: rest)) :=
        (opens_joined hnext.opens).append _
      rw [List.append_assoc, List.cons_append, List.append_assoc, items?,
        hpart.read fuel _ (endsNumber_cons (by decide) _) (by omega)]
      simp only [Option.bind_eq_bind, Option.bind_some, skip_cons (c := ',') (by decide),
        hlead.skip_append, hopens.skip_eq, hitems]
      rfl

theorem readsBack_sequence (hlead : Blanks lead) (htrail : Blanks trail)
    (h : List.Forall₂ ReadsBack parts items) :
    ReadsBack ('[' :: (lead ++ (joined lead parts ++ (trail ++ [']'])))) (.sequence items) := by
  apply readsBack_of_succ ⟨'[', _, rfl, by decide⟩
  intro fuel rest hrest hfuel
  simp only [List.length_cons, List.length_append] at hfuel
  simp only [List.cons_append, List.append_assoc, List.nil_append]
  rw [value?, hlead.skip_append]
  cases h with
  | nil =>
    have hskip : skip (joined lead [] ++ (trail ++ ']' :: rest)) = ']' :: rest :=
      (htrail.skip_append _).trans (skip_cons (by decide) rest)
    rw [hskip]
    rfl
  | @cons part _ parts _ hpart hparts =>
    have hopens : Opens (joined lead (part :: parts) ++ (trail ++ ']' :: rest)) :=
      (opens_joined hpart.opens).append _
    have hitems : items? fuel (joined lead (part :: parts) ++ (trail ++ ']' :: rest)) =
        some (_, rest) :=
      items?_joined hlead htrail (List.cons_ne_nil part parts) (.cons hpart hparts) (by omega)
    rw [hopens.skip_eq]
    split
    next cs h => exact absurd h (hopens.ne_endSequence cs)
    next => rw [hitems]; rfl

theorem ReadsBackField.opens {field : String × Node} (h : ReadsBackField cs field) :
    Opens cs := by
  cases h
  exact ⟨'"', _, rfl, by decide⟩

/-- After a field there is an end, or a comma with more of them. -/
theorem entries?_field {field : String × Node} {back : List Char} (h : ReadsBackField cs field)
    (hback : EndsNumber back) (hfuel : 2 * cs.length ≤ fuel) :
    entries? (fuel + 1) (cs ++ back) =
      match skip back with
      | ',' :: cs =>
        (entries? fuel (skip cs)).bind fun r => some ((.text field.1, field.2) :: r.1, r.2)
      | '\x7d' :: cs => some ([(.text field.1, field.2)], cs)
      | _ => none := by
  cases h with
  | @intro gap cs name node hgap hvalue =>
    simp only [List.length_cons, List.length_append] at hfuel
    have hread := hvalue.read fuel back hback (by omega)
    simp only [List.cons_append, List.append_assoc]
    rw [entries?, quoted?_flatMap_escape]
    simp only [Option.bind_eq_bind, Option.bind_some, skip_cons (c := ':') (by decide),
      hgap.skip_append, (hvalue.opens.append back).skip_eq, hread, textNode,
      List.reverse_nil, List.nil_append, String.ofList_toList]
    rfl

theorem entries?_joined (hlead : Blanks lead) (htrail : Blanks trail) (hne : parts ≠ [])
    (h : List.Forall₂ ReadsBackField parts fields)
    (hfuel : 2 * (joined lead parts).length < fuel) :
    entries? fuel (joined lead parts ++ (trail ++ '\x7d' :: rest)) =
      some (fields.map fun f => (.text f.1, f.2), rest) := by
  induction h generalizing fuel with
  | nil => exact absurd rfl hne
  | @cons part field parts fields hpart hparts ih =>
    obtain ⟨fuel, rfl⟩ : ∃ k, fuel = k + 1 := ⟨fuel - 1, by omega⟩
    cases hparts with
    | nil =>
      rw [joined_singleton] at hfuel ⊢
      have hend : EndsNumber (trail ++ '\x7d' :: rest) :=
        htrail.endsNumber_append (endsNumber_cons (by decide) rest)
      rw [entries?_field hpart hend (by omega), htrail.skip_append, skip_cons (by decide)]
      rfl
    | @cons next _ parts _ hnext hrest =>
      rw [joined_cons_cons] at hfuel ⊢
      simp only [List.length_append, List.length_cons] at hfuel
      have hfields : entries? fuel (joined lead (next :: parts) ++ (trail ++ '\x7d' :: rest)) =
          some (_, rest) := ih (List.cons_ne_nil next parts) (by omega)
      have hopens : Opens (joined lead (next :: parts) ++ (trail ++ '\x7d' :: rest)) :=
        (opens_joined hnext.opens).append _
      rw [List.append_assoc, List.cons_append, List.append_assoc,
        entries?_field hpart (endsNumber_cons (by decide) _) (by omega), skip_cons (by decide)]
      simp only [hlead.skip_append, hopens.skip_eq, hfields]
      rfl

theorem readsBack_object (hlead : Blanks lead) (htrail : Blanks trail)
    (h : List.Forall₂ ReadsBackField parts fields) :
    ReadsBack ('\x7b' :: (lead ++ (joined lead parts ++ (trail ++ ['\x7d']))))
      (.object fields) := by
  apply readsBack_of_succ ⟨'\x7b', _, rfl, by decide⟩
  intro fuel rest hrest hfuel
  simp only [List.length_cons, List.length_append] at hfuel
  simp only [List.cons_append, List.append_assoc, List.nil_append]
  rw [value?, hlead.skip_append]
  cases h with
  | nil =>
    have hskip : skip (joined lead [] ++ (trail ++ '\x7d' :: rest)) = '\x7d' :: rest :=
      (htrail.skip_append _).trans (skip_cons (by decide) rest)
    rw [hskip]
    rfl
  | @cons part _ parts _ hpart hparts =>
    have hopens : Opens (joined lead (part :: parts) ++ (trail ++ '\x7d' :: rest)) :=
      (opens_joined hpart.opens).append _
    have hfields : entries? fuel (joined lead (part :: parts) ++ (trail ++ '\x7d' :: rest)) =
        some (_, rest) :=
      entries?_joined hlead htrail (List.cons_ne_nil part parts) (.cons hpart hparts) (by omega)
    rw [hopens.skip_eq]
    split
    next cs h => exact absurd h (hopens.ne_endObject cs)
    next => rw [hfields]; rfl

end Parts

/-! ### The two forms -/

/-- A text read as a document with nothing after it. -/
theorem read?_of_readsBack {text : String} (h : ReadsBack text.toList node) :
    read? text = some node := by
  have hvalue := h.read (2 * text.toList.length + 1) [] (fun c hc => by cases hc) (by omega)
  rw [List.append_nil] at hvalue
  rw [read?, h.opens.skip_eq, hvalue]
  rfl

/-- A list of parts, each written in the same way. -/
theorem forall₂_map {α : Type} {R : List Char → α → Prop} {write : α → List Char} {xs : List α}
    (h : ∀ x ∈ xs, R (write x) x) : List.Forall₂ R (xs.map write) xs := by
  rw [List.forall₂_map_left_iff, List.forall₂_same]
  exact h

theorem compactItems_eq_map (items : List Node) : compactItems items = items.map compact := by
  induction items with
  | nil => rfl
  | cons item items ih => rw [compactItems, ih, List.map_cons]

theorem compactEntries_object (fields : List (String × Node)) :
    compactEntries (fields.map fun f => (Node.text f.1, f.2)) =
      fields.map fun f => quote f.1 ++ ":" ++ compact f.2 := by
  induction fields with
  | nil => rfl
  | cons field fields ih =>
    rw [List.map_cons, compactEntries, ih, List.map_cons]
    rfl

/-- The compact form has no blanks at all. -/
theorem Exact.readsBack_compact (h : Exact node) : ReadsBack (compact node).toList node := by
  induction h with
  | null => exact readsBack_null
  | bool b => exact readsBack_bool b
  | integer hi => exact readsBack_integer hi
  | text s => exact readsBack_text s
  | @sequence items _ ih =>
    have hparts : List.Forall₂ ReadsBack (items.map (String.toList ∘ compact)) items :=
      forall₂_map ih
    rw [compact, compactItems_eq_map, String.toList_append, String.toList_append,
      String.toList_intercalate, List.map_map]
    exact readsBack_sequence .nil .nil hparts
  | @object fields _ ih =>
    have hfield : ∀ f ∈ fields, ReadsBackField (quote f.1 ++ ":" ++ compact f.2).toList f := by
      intro f hf
      have hvalue := ReadsBackField.intro f.1 .nil (ih f hf)
      rw [String.toList_append, String.toList_append, toList_quote]
      simpa using hvalue
    have hparts : List.Forall₂ ReadsBackField
        (fields.map (String.toList ∘ fun f => quote f.1 ++ ":" ++ compact f.2)) fields :=
      forall₂_map hfield
    rw [Node.object, compact, compactEntries_object, String.toList_append, String.toList_append,
      String.toList_intercalate, List.map_map]
    exact readsBack_object .nil .nil hparts

/-- What is written in compact form is read back as it was. -/
theorem read?_compact (h : Exact node) : read? (compact node) = some node :=
  read?_of_readsBack h.readsBack_compact

end Json
end ShapeContracts
