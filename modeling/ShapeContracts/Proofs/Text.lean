/-
  ShapeContracts/Proofs/Text.lean
  ===============================
  **What trimming, cutting and looking up a word give.**

  Each of them is a recursion that builds its result on the way.  Here each is
  told by its result alone: what is trimmed off is blank and what is left does
  not begin or end with a blank; pieces put together again are the text, and no
  separator is left in them; a word from a list stands for the one member that is
  written so.
-/
import Mathlib.Data.List.TakeWhile
import ShapeContracts.ElementType
import ShapeContracts.Layout
import ShapeContracts.Text.Blank
import ShapeContracts.Text.Pieces

namespace ShapeContracts

namespace Text

variable {cs w front back : List Char} {sep : Char} {pieces' : List (List Char)}

/-! ### Trimming -/

/-- A text without the blanks it begins and ends with. -/
structure Trimmed (cs w : List Char) : Prop where
  around : ∃ front back, cs = front ++ w ++ back ∧
    (∀ c ∈ front, isBlank c = true) ∧ ∀ c ∈ back, isBlank c = true
  head : ∀ c ∈ w.head?, isBlank c = false
  last : ∀ c ∈ w.getLast?, isBlank c = false

theorem dropWhile_eq_self {p : Char → Bool} (h : ∀ c ∈ cs.head?, p c = false) :
    cs.dropWhile p = cs := by
  cases cs with
  | nil => rfl
  | cons c cs => exact List.dropWhile_cons_of_neg (by simp [h c rfl])

theorem head?_dropWhile {p : Char → Bool} : ∀ c ∈ (cs.dropWhile p).head?, p c = false := by
  intro c hc
  have hp := List.head?_dropWhile_not p cs
  rw [Option.mem_def.mp hc] at hp
  exact hp

theorem trimmed_trim (cs : List Char) : Trimmed cs (trim cs) := by
  have hfront := List.takeWhile_append_dropWhile (p := isBlank) (l := cs)
  have hback : trim cs ++ ((cs.dropWhile isBlank).reverse.takeWhile isBlank).reverse =
      cs.dropWhile isBlank := by
    rw [trim, ← List.reverse_append, List.takeWhile_append_dropWhile, List.reverse_reverse]
  refine ⟨⟨cs.takeWhile isBlank, ((cs.dropWhile isBlank).reverse.takeWhile isBlank).reverse,
    ?_, ?_, ?_⟩, ?_, ?_⟩
  · rw [List.append_assoc, hback, hfront]
  · intro c hc
    exact List.mem_takeWhile_imp hc
  · intro c hc
    exact List.mem_takeWhile_imp (List.mem_reverse.mp hc)
  · intro c hc
    -- what is left begins as the text does after its leading blanks
    have hleft : c ∈ (cs.dropWhile isBlank).head? := by
      rw [← hback, List.head?_append, Option.mem_def.mp hc]
      rfl
    exact head?_dropWhile c hleft
  · intro c hc
    rw [trim, List.getLast?_reverse] at hc
    exact head?_dropWhile c hc

theorem trim_eq_iff : trim cs = w ↔ Trimmed cs w := by
  constructor
  · intro h
    rw [← h]
    exact trimmed_trim cs
  · rintro ⟨⟨front, back, rfl, hfront, hback⟩, hhead, hlast⟩
    have hleading : (front ++ w ++ back).dropWhile isBlank = (w ++ back).dropWhile isBlank := by
      rw [List.append_assoc, List.dropWhile_append_of_pos hfront]
    cases w with
    | nil =>
      have hnone : back.dropWhile isBlank = [] := List.dropWhile_eq_nil_iff.mpr hback
      rw [trim, hleading, List.nil_append, hnone]
      rfl
    | cons c w =>
      have hkept : (c :: w ++ back).dropWhile isBlank = c :: w ++ back :=
        dropWhile_eq_self (by simpa using hhead)
      have hend : ∀ d ∈ (c :: w).reverse.head?, isBlank d = false := by
        rwa [List.head?_reverse]
      rw [trim, hleading, hkept, List.reverse_append,
        List.dropWhile_append_of_pos fun c hc => hback c (List.mem_reverse.mp hc),
        dropWhile_eq_self hend, List.reverse_reverse]

/-! ### Cutting -/

/-- Pieces that put together with a separator between them are a text. -/
structure Joined (sep : Char) (pieces : List (List Char)) (cs : List Char) : Prop where
  nonempty : pieces ≠ []
  free : ∀ piece ∈ pieces, sep ∉ piece
  eq : [sep].intercalate pieces = cs

theorem pieces_eq_splitOn (sep : Char) (cs : List Char) : pieces sep cs = cs.splitOn sep := by
  induction cs with
  | nil => rfl
  | cons c cs ih =>
    rw [List.splitOn, List.splitOnP_cons_eq_if_modifyHead, ← List.splitOn, ← ih]
    by_cases hc : c = sep
    · simp [pieces, hc]
    · simp only [pieces, if_neg hc, beq_iff_eq]
      rcases hp : pieces sep cs with _ | ⟨p, ps⟩
      · exact absurd hp (pieces_ne_nil sep cs)
      · rfl

theorem sep_notMem_of_mem_pieces (h : w ∈ pieces sep cs) : sep ∉ w := by
  induction cs generalizing w with
  | nil =>
    rcases List.mem_singleton.mp h with rfl
    exact List.not_mem_nil
  | cons c cs ih =>
    by_cases hc : c = sep
    · simp only [pieces, if_pos hc] at h
      rcases List.mem_cons.mp h with rfl | h
      · exact List.not_mem_nil
      · exact ih h
    · simp only [pieces, if_neg hc] at h
      rcases hp : pieces sep cs with _ | ⟨p, ps⟩
      · exact absurd hp (pieces_ne_nil sep cs)
      · rw [hp] at h ih
        rcases List.mem_cons.mp h with rfl | h
        · intro hmem
          rcases List.mem_cons.mp hmem with heq | hmem
          · exact hc heq.symm
          · exact ih (List.mem_cons_self ..) hmem
        · exact ih (List.mem_cons_of_mem _ h)

theorem pieces_eq_iff : pieces sep cs = pieces' ↔ Joined sep pieces' cs := by
  constructor
  · rintro rfl
    refine ⟨pieces_ne_nil sep cs, fun p hp => sep_notMem_of_mem_pieces hp, ?_⟩
    rw [pieces_eq_splitOn, List.intercalate_splitOn]
  · rintro ⟨hne, hfree, rfl⟩
    rw [pieces_eq_splitOn, List.splitOn_intercalate sep hfree hne]

theorem cut?_eq_some_iff :
    cut? sep cs = some (front, back) ↔ cs = front ++ sep :: back ∧ sep ∉ front := by
  induction cs generalizing front with
  | nil => simp [cut?]
  | cons c cs ih =>
    by_cases hc : c = sep
    · subst hc
      cases front with
      | nil => simp [cut?]
      | cons d front =>
        constructor
        · intro h
          simp [cut?] at h
        · rintro ⟨heq, hfree⟩
          cases heq
          exact absurd (List.mem_cons_self ..) hfree
    · rw [cut?, if_neg hc, Option.map_eq_some_iff]
      constructor
      · rintro ⟨⟨front', back'⟩, hcut, heq⟩
        cases heq
        rcases ih.mp hcut with ⟨rfl, hfree⟩
        exact ⟨rfl, by simp [hfree, Ne.symm hc]⟩
      · rintro ⟨heq, hfree⟩
        cases front with
        | nil =>
          cases heq
          exact absurd rfl hc
        | cons d front =>
          cases heq
          exact ⟨(front, back), ih.mpr ⟨rfl, fun hmem => hfree (List.mem_cons_of_mem _ hmem)⟩, rfl⟩

theorem cut?_eq_none_iff : cut? sep cs = none ↔ sep ∉ cs := by
  induction cs with
  | nil => simp [cut?]
  | cons c cs ih =>
    by_cases hc : c = sep
    · simp [cut?, hc]
    · rw [cut?, if_neg hc, Option.map_eq_none_iff, ih]
      simp [Ne.symm hc]

end Text

/-! ### Words from a list -/

theorem find?_text_eq_some_iff {α : Type} {all : List α} {textOf : α → String} {s : String} {a : α}
    (hall : ∀ a, a ∈ all) (hinj : ∀ {a b}, textOf a = textOf b → a = b) :
    (all.find? fun a => textOf a == s) = some a ↔ textOf a = s := by
  constructor
  · intro h
    simpa using List.find?_some h
  · rintro rfl
    rcases hfound : all.find? (fun b => textOf b == textOf a) with _ | b
    · have hnone := List.find?_eq_none.mp hfound a (hall a)
      simp at hnone
    · have hb : textOf b = textOf a := by simpa using List.find?_some hfound
      rw [hinj hb]

theorem ElementType.ofText?_eq_some_iff {s : String} {t : ElementType} :
    ofText? s = some t ↔ t.text = s :=
  find?_text_eq_some_iff mem_all text_injective

theorem Layout.ofText?_eq_some_iff {s : String} {l : Layout} :
    ofText? s = some l ↔ l.text = s :=
  find?_text_eq_some_iff mem_all text_injective

end ShapeContracts
