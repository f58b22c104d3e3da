/-
  ShapeContracts/Proofs/Numeral.lean
  ==================================
  **Which texts are sizes, and what is wrong with the others.**

  A size is written in decimal digits whose value a 64-bit word can hold, and a
  plus sign may stand before them.  Reading goes from left to right.  It keeps
  one thing, that the characters passed are digits whose value is in range
  (`Size.InRange`), and stops at the character that breaks it.  So what is wrong
  with a text is wrong at one character: a foreign one, or a digit too many.
-/
import ShapeContracts.Proofs.Outcome
import ShapeContracts.Size

namespace ShapeContracts

/-- The digits of base ten are the ten characters of their class. -/
theorem Text.digit?_ten (c : Char) :
    digit? 10 c = if c.isDigit = true then some (c.toNat - '0'.toNat) else none := by
  have hrange : c.isDigit = true ↔ '0' ≤ c ∧ c ≤ '9' := by
    rw [Char.isDigit_iff_toNat, Char.le_def, Char.le_def]
    rfl
  rw [digit?, hexDigit?]
  split
  next h =>
    have hlt : c.toNat - '0'.toNat < 10 := by
      have hle : c.toNat ≤ 57 := h.2
      have hzero : '0'.toNat = 48 := rfl
      omega
    rw [if_pos (hrange.mpr h), Option.filter_some, if_pos (decide_eq_true hlt)]
  next h =>
    -- a letter has a value above nine
    rw [if_neg fun hdigit => h (hrange.mp hdigit)]
    split
    · simp
    · split
      · simp
      · rfl

namespace Size

variable {cs before : List Char} {c : Char} {n : Size} {m : Nat} {r : SizeError}

/-! ### Sizes as written -/

/-- A text that writes a size. -/
def Writes (cs : List Char) (n : Size) : Prop :=
  ∃ digits, (cs = digits ∨ cs = '+' :: digits) ∧ digits ≠ [] ∧
    (∀ c ∈ digits, c.isDigit = true) ∧ Nat.ofDigitChars 10 digits 0 = n.toNat

/-- Digits whose value is in the range of sizes. -/
structure InRange (digits : List Char) : Prop where
  digit : ∀ c ∈ digits, c.isDigit = true
  lt : Nat.ofDigitChars 10 digits 0 < bound

/-- What follows the plus sign, where anything does. -/
def unsigned : List Char → List Char
  | '+' :: c :: cs => c :: cs
  | cs => cs

/-- A character that breaks a row of digits in range. -/
inductive Breaks (digits : List Char) (c : Char) : SizeError → Prop
  | foreign : c.isDigit = false → Breaks digits c .invalidDigit
  | tooLarge :
      c.isDigit = true → bound ≤ Nat.ofDigitChars 10 (digits ++ [c]) 0 →
      Breaks digits c .tooLarge

/-- What is wrong with a text that writes no size.  A plus sign alone is a
    foreign character. -/
inductive Misread : List Char → SizeError → Prop
  | empty : Misread [] .empty
  | broken {cs front back : List Char} {c : Char} {r : SizeError} :
      unsigned cs = front ++ c :: back → InRange front → Breaks front c r → Misread cs r

/-! ### Digits -/

theorem inRange_nil : InRange [] := by
  refine ⟨fun c hc => ?_, by decide⟩
  cases hc

theorem ofDigitChars_append_singleton (before : List Char) (c : Char) :
    Nat.ofDigitChars 10 (before ++ [c]) 0 =
      Nat.ofDigitChars 10 before 0 * 10 + (c.toNat - '0'.toNat) := by
  rw [Nat.ofDigitChars_append, Nat.ofDigitChars_cons, Nat.ofDigitChars_nil, Nat.mul_comm]

theorem ofDigitChars_le_append (before after : List Char) :
    Nat.ofDigitChars 10 before 0 ≤ Nat.ofDigitChars 10 (before ++ after) 0 := by
  induction after generalizing before with
  | nil => exact Nat.le_of_eq (by rw [List.append_nil])
  | cons c after ih =>
    have hstep := ofDigitChars_append_singleton before c
    have hrest := ih (before ++ [c])
    rw [List.append_assoc, List.singleton_append] at hrest
    omega

theorem InRange.of_append {after : List Char} (h : InRange (before ++ after)) :
    InRange before where
  digit c hc := h.digit c (List.mem_append_left _ hc)
  lt := Nat.lt_of_le_of_lt (ofDigitChars_le_append before after) h.lt

/-- Reading on after digits that are in range. -/
theorem readDigits_cons (before cs : List Char) (c : Char) :
    readDigits (Nat.ofDigitChars 10 before 0) (c :: cs) =
      if c.isDigit = true then
        if Nat.ofDigitChars 10 (before ++ [c]) 0 < bound then
          readDigits (Nat.ofDigitChars 10 (before ++ [c]) 0) cs
        else .error .tooLarge
      else .error .invalidDigit := by
  rw [readDigits, Text.digit?_ten, ofDigitChars_append_singleton]
  by_cases hc : c.isDigit = true
  · simp only [if_pos hc]
  · simp only [if_neg hc]

theorem InRange.append_singleton (h : InRange before) (hc : c.isDigit = true)
    (hlt : Nat.ofDigitChars 10 (before ++ [c]) 0 < bound) : InRange (before ++ [c]) := by
  refine ⟨fun d hd => ?_, hlt⟩
  rcases List.mem_append.mp hd with hd | hd
  · exact h.digit d hd
  · rwa [List.mem_singleton.mp hd]

theorem Breaks.not_inRange (h : Breaks before c r) : ¬ InRange (before ++ [c]) := by
  intro hrange
  cases h with
  | foreign hc => simp [hrange.digit c (by simp)] at hc
  | tooLarge hc hle => exact Nat.not_lt.mpr hle hrange.lt

theorem Breaks.unique {r' : SizeError} (h : Breaks before c r) (h' : Breaks before c r') :
    r = r' := by
  cases h with
  | foreign hc =>
    cases h' with
    | foreign => rfl
    | tooLarge hc' => simp [hc] at hc'
  | tooLarge hc =>
    cases h' with
    | foreign hc' => simp [hc] at hc'
    | tooLarge => rfl

/-- A step of reading: the next character keeps the digits in range or breaks
    them. -/
theorem readDigits_cons_cases (hbefore : InRange before) (c : Char) (cs : List Char) :
    (InRange (before ++ [c]) ∧
      readDigits (Nat.ofDigitChars 10 before 0) (c :: cs) =
        readDigits (Nat.ofDigitChars 10 (before ++ [c]) 0) cs) ∨
    ∃ r, Breaks before c r ∧
      readDigits (Nat.ofDigitChars 10 before 0) (c :: cs) = .error r := by
  rw [readDigits_cons]
  by_cases hc : c.isDigit = true
  · by_cases hlt : Nat.ofDigitChars 10 (before ++ [c]) 0 < bound
    · rw [if_pos hc, if_pos hlt]
      exact .inl ⟨hbefore.append_singleton hc hlt, rfl⟩
    · rw [if_pos hc, if_neg hlt]
      exact .inr ⟨_, .tooLarge hc (Nat.not_lt.mp hlt), rfl⟩
  · rw [if_neg hc]
    exact .inr ⟨_, .foreign (by simpa using hc), rfl⟩

theorem readDigits_eq_ok_iff (hbefore : InRange before) :
    readDigits (Nat.ofDigitChars 10 before 0) cs = .ok m ↔
      InRange (before ++ cs) ∧ Nat.ofDigitChars 10 (before ++ cs) 0 = m := by
  induction cs generalizing before with
  | nil => simp [readDigits, hbefore]
  | cons c cs ih =>
    have hassoc : before ++ c :: cs = before ++ [c] ++ cs := by simp
    rw [hassoc]
    rcases readDigits_cons_cases hbefore c cs with ⟨hnext, hread⟩ | ⟨r, hbreaks, hread⟩
    · rw [hread, ih hnext]
    · rw [hread]
      constructor
      · intro h
        cases h
      · rintro ⟨hrange, -⟩
        exact absurd hrange.of_append hbreaks.not_inRange

theorem readDigits_eq_error_iff (hbefore : InRange before) :
    readDigits (Nat.ofDigitChars 10 before 0) cs = .error r ↔
      ∃ front c back, cs = front ++ c :: back ∧ InRange (before ++ front) ∧
        Breaks (before ++ front) c r := by
  induction cs generalizing before with
  | nil => simp [readDigits]
  | cons c cs ih =>
    rcases readDigits_cons_cases hbefore c cs with ⟨hnext, hread⟩ | ⟨r', hbreaks, hread⟩
    · rw [hread, ih hnext]
      constructor
      · rintro ⟨front, d, back, rfl, hfront, hd⟩
        rw [List.append_assoc] at hfront hd
        exact ⟨c :: front, d, back, rfl, hfront, hd⟩
      · rintro ⟨front, d, back, hsplit, hfront, hd⟩
        cases front with
        | nil =>
          cases hsplit
          rw [List.append_nil] at hd
          exact absurd hnext hd.not_inRange
        | cons c front =>
          cases hsplit
          refine ⟨front, d, back, rfl, ?_, ?_⟩
          · rwa [List.append_assoc]
          · rwa [List.append_assoc]
    · rw [hread]
      constructor
      · intro h
        cases h
        refine ⟨[], c, cs, rfl, ?_, ?_⟩
        · rwa [List.append_nil]
        · rwa [List.append_nil]
      · rintro ⟨front, d, back, hsplit, hfront, hd⟩
        cases front with
        | nil =>
          cases hsplit
          rw [List.append_nil] at hd
          rw [hbreaks.unique hd]
        | cons c front =>
          cases hsplit
          rw [← List.singleton_append, ← List.append_assoc] at hfront
          exact absurd hfront.of_append hbreaks.not_inRange

/-! ### Sizes -/

theorem eq_unsigned (cs : List Char) : cs = unsigned cs ∨ cs = '+' :: unsigned cs := by
  rw [unsigned.eq_def]
  split
  · exact .inr rfl
  · exact .inl rfl

theorem unsigned_of_head?_ne (h : cs.head? ≠ some '+') : unsigned cs = cs := by
  rw [unsigned.eq_def]
  split
  · exact absurd rfl h
  · rfl

theorem read_eq (cs : List Char) :
    read cs = if cs = [] then .error .empty
      else (readDigits (Nat.ofDigitChars 10 [] 0) (unsigned cs)).map UInt64.ofNat := by
  rw [read.eq_def]
  split
  · rfl
  · rfl
  next cs hsign =>
    cases cs with
    | nil => exact absurd rfl hsign
    | cons c cs => rfl
  next hempty _ hplus =>
    have hhead : cs.head? ≠ some '+' := by
      intro h
      rcases List.head?_eq_some_iff.mp h with ⟨rest, rfl⟩
      exact hplus rest rfl
    rw [if_neg hempty, unsigned_of_head?_ne hhead]
    rfl

theorem writes_iff : Writes cs n ↔
    cs ≠ [] ∧ InRange (unsigned cs) ∧ Nat.ofDigitChars 10 (unsigned cs) 0 = n.toNat := by
  have hlt : n.toNat < bound := n.toNat_lt
  constructor
  · rintro ⟨digits, rfl | rfl, hne, hdigits, hvalue⟩
    · have hhead : cs.head? ≠ some '+' := by
        intro h
        have hplus := hdigits '+' (List.mem_of_head? h)
        exact absurd hplus (by decide)
      rw [unsigned_of_head?_ne hhead]
      exact ⟨hne, ⟨hdigits, hvalue ▸ hlt⟩, hvalue⟩
    · cases digits with
      | nil => exact absurd rfl hne
      | cons c digits => exact ⟨by simp, ⟨hdigits, hvalue ▸ hlt⟩, hvalue⟩
  · rintro ⟨hne, hrange, hvalue⟩
    refine ⟨unsigned cs, eq_unsigned cs, fun hnone => ?_, hrange.digit, hvalue⟩
    rcases eq_unsigned cs with hcs | hcs
    · exact hne (hcs.trans hnone)
    · -- a plus sign with nothing behind it is no sign
      rw [hnone] at hcs
      rw [hcs] at hnone
      cases hnone

/-- The texts that are read as a size are those that write it. -/
theorem read_eq_ok_iff : read cs = .ok n ↔ Writes cs n := by
  rw [read_eq, writes_iff]
  by_cases hcs : cs = []
  · simp [hcs]
  · rw [if_neg hcs]
    cases hread : readDigits (Nat.ofDigitChars 10 [] 0) (unsigned cs) with
    | ok m =>
      rcases (readDigits_eq_ok_iff inRange_nil).mp hread with ⟨hrange, rfl⟩
      rw [List.nil_append] at hrange
      have hsize : (UInt64.ofNat (Nat.ofDigitChars 10 (unsigned cs) 0)).toNat =
          Nat.ofDigitChars 10 (unsigned cs) 0 := UInt64.toNat_ofNat_of_lt' hrange.lt
      simp only [Except.map, Except.ok.injEq, List.nil_append, ← UInt64.toNat_inj, hsize]
      simp [hcs, hrange]
    | error r =>
      constructor
      · intro h
        cases h
      · rintro ⟨-, hrange, -⟩
        cases hread.symm.trans ((readDigits_eq_ok_iff inRange_nil).mpr ⟨hrange, rfl⟩)

/-- A text that is not read as a size has something wrong with it, and has only
    one thing wrong with it. -/
theorem read_eq_error_iff : read cs = .error r ↔ Misread cs r := by
  have hrows : Misread cs r ↔ (cs = [] ∧ r = .empty) ∨
      ∃ front c back, unsigned cs = front ++ c :: back ∧ InRange front ∧ Breaks front c r := by
    constructor
    · intro h
      cases h with
      | empty => exact .inl ⟨rfl, rfl⟩
      | broken hsplit hfront hc => exact .inr ⟨_, _, _, hsplit, hfront, hc⟩
    · rintro (⟨rfl, rfl⟩ | ⟨front, c, back, hsplit, hfront, hc⟩)
      · exact .empty
      · exact .broken hsplit hfront hc
  rw [read_eq, hrows]
  by_cases hcs : cs = []
  · subst hcs
    simp [unsigned, eq_comm]
  · rw [if_neg hcs, map_eq_error_iff, readDigits_eq_error_iff inRange_nil]
    simp [hcs]

end Size

end ShapeContracts
