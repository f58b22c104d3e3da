/-
  ShapeContracts/Proofs/Synonym.lean
  ==================================
  **Two tokens for one thing.**

  Any size can be written as -1 or as a wildcard, no name as an underscore or as
  an anonymous dimension, and a built-in detail by a token of its own or as a
  detail handed in.  The two tokens of such a pair are read along different
  branches.  Yet into whichever draft they are read, the same draft comes of it
  or the same error (`Draft.add_eq_of_synonym`), so nothing that stands before or
  after can tell them apart.
-/
import Mathlib.Data.List.Forall2
import ShapeContracts.Proofs.Declaration

namespace ShapeContracts

/-- Two ways to write one thing.  The token of a layout is read only where there
    are layouts; a detail handed in is not asked for that. -/
inductive Token.Synonym (caps : Capabilities) : Token → Token → Prop
  | anySize : Synonym caps (.size (-1)) .wildcard
  | noName : Synonym caps (.name anonymousWord) (.anonymous none)
  | noNameSized (n : Size) : Synonym caps (.sizedName anonymousWord n) (.anonymous (some n))
  | isNamed : Synonym caps .isNamed (.detail .named)
  | isFloat : Synonym caps .isFloat (.detail .float)
  | dtype (t : ElementType) : Synonym caps (.dtype t) (.detail (.dtype (.exact t)))
  | kind (k : ElementKind) : Synonym caps (.kind k) (.detail (.dtype (.kind k)))
  | layout (l : Layout) : caps.layouts = true → Synonym caps (.layout l) (.detail (.layout l))

variable {caps : Capabilities} {t u : Token}

namespace Draft

/-- A detail handed in that does not ask for names is kept as the token of its
    own would keep it. -/
theorem add_detail_of_not_checksNames (caps : Capabilities) (draft : Draft) {d : Detail}
    (h : d.checksNames = false) : draft.add caps (.detail d) = draft.keepDetail d :=
  addDetail_of_not_checksNames caps draft h

/-- Into any draft, a synonym is read alike. -/
theorem add_eq_of_synonym (h : Token.Synonym caps t u) (draft : Draft) :
    draft.add caps t = draft.add caps u := by
  cases h with
  | anySize => rfl
  | noName => rfl
  | noNameSized n => rfl
  | isNamed => rfl
  | isFloat =>
    rw [add_detail_of_not_checksNames caps draft rfl]
    rfl
  | dtype t =>
    rw [add_detail_of_not_checksNames caps draft rfl]
    rfl
  | kind k =>
    rw [add_detail_of_not_checksNames caps draft rfl]
    rfl
  | layout l hlayouts =>
    have hasked : Detail.layoutFor caps l = .ok (.layout l) := if_pos hlayouts
    rw [add_detail_of_not_checksNames caps draft rfl, add, hasked]
    rfl

/-- Lists that agree up to synonyms are read alike. -/
theorem foldlM_add_congr {ts us : List Token}
    (h : List.Forall₂ (fun t u => t = u ∨ Token.Synonym caps t u) ts us) (draft : Draft) :
    ts.foldlM (add caps) draft = us.foldlM (add caps) draft := by
  induction h generalizing draft with
  | nil => rfl
  | @cons t u ts us htu _ ih =>
    have hadd : draft.add caps t = draft.add caps u := by
      rcases htu with rfl | hsyn
      · rfl
      · exact add_eq_of_synonym hsyn draft
    rw [List.foldlM_cons, List.foldlM_cons, hadd]
    congr 1
    funext next
    exact ih next

end Draft

/-- **Synonyms are interchangeable.**  Wherever a token stands, its synonym in
    its place makes no difference: the same schema is declared, or the same error
    is met. -/
theorem Schema.declare_synonym (h : Token.Synonym caps t u) (before after : List Token) :
    Schema.declare caps (before ++ t :: after) = Schema.declare caps (before ++ u :: after) := by
  have hlists : List.Forall₂ (fun t u => t = u ∨ Token.Synonym caps t u)
      (before ++ t :: after) (before ++ u :: after) := by
    refine List.rel_append ?_ (.cons (.inr h) ?_)
    · exact List.forall₂_same.mpr fun t _ => .inl rfl
    · exact List.forall₂_same.mpr fun t _ => .inl rfl
  unfold declare
  rw [Draft.foldlM_add_congr hlists]

/-- The second time a layout is asked for is a repetition, by either token. -/
theorem Schema.declare_synonym_layout :
    Token.Synonym .full (.layout .strided) (.detail (.layout .strided)) ∧
      Schema.declare .full ([.detail (.layout .strided), .name "n"] ++
          .layout .strided :: [.isNamed]) =
        Schema.declare .full ([.detail (.layout .strided), .name "n"] ++
          .detail (.layout .strided) :: [.isNamed]) := by
  have hsyn : Token.Synonym .full (.layout .strided) (.detail (.layout .strided)) :=
    .layout .strided rfl
  exact ⟨hsyn, declare_synonym hsyn [.detail (.layout .strided), .name "n"] [.isNamed]⟩

/-- Where there are no layouts the two tokens of one are told apart. -/
example :
    Schema.declare .plain [.layout .strided] = .error (.layoutUnsupported .strided) ∧
      ∃ schema, Schema.declare .plain [.detail (.layout .strided)] = .ok schema :=
  ⟨rfl, _, rfl⟩

end ShapeContracts
