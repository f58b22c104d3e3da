/-
  ShapeContracts/Proofs/TokenForms.lean
  =====================================
  **The form of a written token.**

  The forms of a token are tried in turn and the first that fits is it.  Yet a
  node that is no sequence shows its form before any is tried: it is a word, or
  an integer, or a record known by its first field.  That is its mark
  (`Node.mark?`).  A form reads only nodes with its own mark
  (`WrittenToken.mark?_of_mem_marked`) and no two forms have the same one, so at
  most one fits and the order in which they are tried does not matter.

  Words and fields are named by keys, and a key may be an integer, which names
  the one at that position.  In every record the position 0 is the first field.
  A mapping from it alone therefore shows nothing, and is the one exception.
-/
import Mathlib.Data.List.Perm.Basic
import ShapeContracts.Manifest.Token
import ShapeContracts.Proofs.Outcome

namespace ShapeContracts

/-! ### Marks -/

/-- What a node shows of the form of a token. -/
inductive Mark
  | word
  | integer
  | record (field : String)
deriving DecidableEq

/-- The mark of a node.  Of the records only a name has a second field. -/
def Node.mark? : Node → Option Mark
  | .leaf (.text _) _ => some .word
  | .leaf (.integer _) _ => some .integer
  | .leaf .minusZero _ => some .integer
  | .leaf .. => none
  | .sequence _ => none
  | .mapping [(key, value)] => if value.isNull then some .word else key.text?.map .record
  | .mapping _ => some (.record "name")

/-- A record whose only field is named by its position. -/
inductive Node.ByPosition : Node → Prop
  | intro {written : Option String} {value : Node} :
      value.isNull = false → ByPosition (.mapping [(.leaf (.integer 0) written, value)])

/-! ### Keys -/

namespace Node

/-- The keys of a mapping stand for words out of a list, no two for the same. -/
def KeysAmong (words : List String) (entries : List (Node × Node)) : Prop :=
  ∃ names : List String, (entries.map fun e => e.1.nameAmong? words) = names.map some ∧
    names.Nodup ∧ names ⊆ words

variable {words : List String} {entries : List (Node × Node)} {fields : Fields}

theorem nameAmong?_cases {key : Node} {name : String} (h : key.nameAmong? words = some name) :
    (∃ written, key = .leaf (.text name) written) ∨
      ∃ (n : Nat) (written : Option String),
        key = .leaf (.integer n) written ∧ words[n]? = some name := by
  unfold nameAmong? at h
  split at h
  next s written =>
    cases h
    exact .inl ⟨written, rfl⟩
  next n written =>
    split at h
    next hn => exact .inr ⟨n.toNat, written, by rw [Int.toNat_of_nonneg hn], h⟩
    next => cases h
  next => cases h

/-- The fields of a strict record are the values of a mapping under the words
    that its keys stand for. -/
theorem fields?_mapping (h : (Node.mapping entries).fields? words = some fields) :
    (entries.map fun e => (e.1.nameAmong? words).map (·, e.2)) = fields.map some ∧
      (fields.map Prod.fst).Nodup ∧ fields.map Prod.fst ⊆ words := by
  obtain ⟨named, hnamed, hfields⟩ := Option.bind_eq_some_iff.mp h
  rw [mapM_eq_some_iff] at hnamed
  simp only [Fields.ofEntries, Bool.true_and, bne_iff_ne, ne_eq, ite_not] at hfields
  split at hfields
  next hall =>
    rw [List.length_filter_eq_length_iff] at hall
    rw [List.filter_eq_self.mpr hall] at hfields
    split at hfields
    next hnodup =>
      cases hfields
      refine ⟨hnamed, hnodup, ?_⟩
      intro name hname
      obtain ⟨e, he, rfl⟩ := List.mem_map.mp hname
      exact List.contains_iff_mem.mp (hall e he)
    next => cases hfields
  next => cases hfields

theorem keysAmong_of_fields? (h : (Node.mapping entries).fields? words = some fields) :
    KeysAmong words entries := by
  obtain ⟨hentries, hnodup, hwords⟩ := fields?_mapping h
  refine ⟨fields.map Prod.fst, ?_, hnodup, hwords⟩
  have hnames := congrArg (List.map (Option.map Prod.fst)) hentries
  simpa [Function.comp_def] using hnames

theorem length_le_of_fields? (h : (Node.mapping entries).fields? words = some fields) :
    entries.length ≤ words.length := by
  obtain ⟨hentries, hnodup, hwords⟩ := fields?_mapping h
  have hlength : entries.length = (fields.map Prod.fst).length := by
    simpa using congrArg List.length hentries
  rw [hlength]
  exact (List.subperm_of_subset hnodup hwords).length_le

/-! ### The mark of a record -/

/-- What is read by a reader of no null is not null. -/
theorem isNull_eq_false {α : Type} {read : Node → Option α} {node : Node} {a : α}
    (hnull : ∀ written, read (.leaf .null written) = none) (h : read node = some a) :
    node.isNull = false := by
  unfold isNull
  split
  next written =>
    rw [hnull written] at h
    cases h
  next => rfl

/-- A key that stands for the first of different words is that word or the
    position 0. -/
theorem mark?_entry {key value : Node} {first : String} {rest : List String}
    (hpos : ¬ (Node.mapping [(key, value)]).ByPosition) (hnodup : (first :: rest).Nodup)
    (hkey : key.nameAmong? (first :: rest) = some first) (hvalue : value.isNull = false) :
    (Node.mapping [(key, value)]).mark? = some (.record first) := by
  rcases nameAmong?_cases hkey with ⟨written, rfl⟩ | ⟨n, written, rfl, hn⟩
  · simp [mark?, hvalue, text?]
  · cases n with
    | zero => exact absurd (.intro hvalue) hpos
    | succ n =>
      rw [List.getElem?_cons_succ] at hn
      exact absurd (List.mem_of_getElem? hn) (List.nodup_cons.mp hnodup).1

/-- A record that has its first field is marked by it. -/
theorem mark?_of_fields? {node : Node} (hseq : ∀ items, node ≠ .sequence items)
    (hpos : ¬ node.ByPosition) {first : String} {rest : List String}
    (hnodup : (first :: rest).Nodup) (hrest : rest = [] ∨ first = "name")
    (hfields : node.fields? (first :: rest) = some fields) {value : Node}
    (hlookup : fields.lookup first = some value) (hvalue : value.isNull = false) :
    node.mark? = some (.record first) := by
  cases node with
  | leaf scalar written => cases hfields
  | sequence items => exact absurd rfl (hseq items)
  | mapping entries =>
    obtain ⟨hentries, -, -⟩ := fields?_mapping hfields
    match entries with
    | [] =>
      rw [List.map_nil, eq_comm, List.map_eq_nil_iff] at hentries
      rw [hentries] at hlookup
      cases hlookup
    | [(key, only)] =>
      rw [List.map_singleton, eq_comm, List.map_eq_singleton_iff] at hentries
      obtain ⟨⟨name, value'⟩, rfl, hentry⟩ := hentries
      obtain ⟨name', hkey, heq⟩ := Option.map_eq_some_iff.mp hentry.symm
      cases heq
      rw [Table.lookup_cons_eq_ite] at hlookup
      split at hlookup
      next hfirst =>
        subst hfirst
        cases hlookup
        exact mark?_entry hpos hnodup hkey hvalue
      next => cases hlookup
    | _ :: _ :: _ =>
      rcases hrest with rfl | rfl
      · -- a record of one field has no second entry
        have hlength := length_le_of_fields? hfields
        simp at hlength
      · rfl

end Node

namespace WrittenToken

/-! ### What each form reads -/

/-- The forms, each with the mark of the nodes it reads. -/
def marked : List (Mark × (Node → Option WrittenToken)) :=
  [(.word, ofKeyword?), (.integer, ofInteger?), (.record "name", ofName?),
    (.record "size", ofSize?), (.record "anonymous", ofAnonymous?), (.record "dtype", ofDtype?),
    (.record "dtype_kind", ofKind?), (.record "layout", ofLayout?), (.record "detail", ofDetail?)]

theorem map_snd_marked : marked.map Prod.snd = forms := rfl

theorem nodup_map_fst_marked : (marked.map Prod.fst).Nodup := by decide

section Marks

variable {node : Node} {w : WrittenToken}

theorem mark?_of_ofKeyword? (h : ofKeyword? node = some w) : node.mark? = some .word := by
  obtain ⟨k, hk, -⟩ := Option.map_eq_some_iff.mp h
  obtain ⟨name, hname, -⟩ := Option.bind_eq_some_iff.mp hk
  split at hname
  next key value =>
    split at hname
    next hnull => rw [Node.mark?, if_pos hnull]
    next => cases hname
  next =>
    unfold Node.text? at hname
    split at hname
    next => rfl
    next => cases hname

theorem mark?_of_ofInteger? (h : ofInteger? node = some w) : node.mark? = some .integer := by
  obtain ⟨n, hn, -⟩ := Option.map_eq_some_iff.mp h
  unfold Node.signed? at hn
  split at hn
  next i hi =>
    unfold Node.integer? at hi
    split at hi
    next => rfl
    next => rfl
    next => cases hi
  next => cases hn

variable (hseq : ∀ items, node ≠ .sequence items) (hpos : ¬ node.ByPosition)

include hseq hpos

theorem mark?_of_ofName? (h : ofName? node = some w) : node.mark? = some (.record "name") := by
  obtain ⟨fields, hfields, hread⟩ := Option.bind_eq_some_iff.mp h
  obtain ⟨label, hlabel, -⟩ := Option.bind_eq_some_iff.mp hread
  obtain ⟨value, hlookup, hvalue⟩ := Option.bind_eq_some_iff.mp hlabel
  apply Node.mark?_of_fields? hseq hpos (by decide) (.inr rfl) hfields hlookup
  exact Node.isNull_eq_false (fun _ => rfl) hvalue

theorem mark?_of_ofField? {α : Type} {field : String} {read : Node → Option α}
    {form : α → WrittenToken} (hnull : ∀ written, read (.leaf .null written) = none)
    (h : ofField? field read form node = some w) : node.mark? = some (.record field) := by
  obtain ⟨fields, hfields, hread⟩ := Option.bind_eq_some_iff.mp h
  obtain ⟨a, ha, -⟩ := Option.map_eq_some_iff.mp hread
  obtain ⟨value, hlookup, hvalue⟩ := Option.bind_eq_some_iff.mp ha
  apply Node.mark?_of_fields? hseq hpos (by simp) (.inl rfl) hfields hlookup
  exact Node.isNull_eq_false hnull hvalue

/-- A form reads only nodes with its mark. -/
theorem mark?_of_mem_marked {p : Mark × (Node → Option WrittenToken)} (hp : p ∈ marked)
    (h : p.2 node = some w) : node.mark? = some p.1 := by
  simp only [marked, List.mem_cons, List.not_mem_nil, or_false] at hp
  rcases hp with rfl | rfl | rfl | rfl | rfl | rfl | rfl | rfl | rfl
  · exact mark?_of_ofKeyword? h
  · exact mark?_of_ofInteger? h
  · exact mark?_of_ofName? hseq hpos h
  all_goals exact mark?_of_ofField? hseq hpos (fun _ => rfl) h

/-- Two forms that read a node have the same mark, hence are the same. -/
theorem pairwise_forms : forms.Pairwise fun f g => f node = none ∨ g node = none := by
  rw [← map_snd_marked, List.pairwise_map]
  apply (List.pairwise_map.mp nodup_map_fst_marked).imp_of_mem
  intro p q hp hq hne
  cases hf : p.2 node with
  | none => exact .inl rfl
  | some w =>
    right
    apply Option.eq_none_iff_forall_ne_some.mpr
    intro w' hg
    have hmarkp := mark?_of_mem_marked hseq hpos hp hf
    have hmarkq := mark?_of_mem_marked hseq hpos hq hg
    exact hne (Option.some.inj (hmarkp.symm.trans hmarkq))

end Marks

/-! ### What keys a token has -/

/-- The words that may stand as keys where a token is written. -/
def words : WrittenToken → List String
  | .keyword _ => Keyword.all.map Keyword.text
  | .integer _ => []
  | .name .. => ["name", "size"]
  | .size _ => ["size"]
  | .anonymous _ => ["anonymous"]
  | .dtype _ => ["dtype"]
  | .kind _ => ["dtype_kind"]
  | .layout _ => ["layout"]
  | .detail _ => ["detail"]

section Keys

variable {entries : List (Node × Node)} {form : Node → Option WrittenToken} {w : WrittenToken}

theorem keysAmong_of_ofKeyword? (h : ofKeyword? (.mapping entries) = some w) :
    Node.KeysAmong w.words entries := by
  obtain ⟨k, hk, rfl⟩ := Option.map_eq_some_iff.mp h
  obtain ⟨name, hname, hfind⟩ := Option.bind_eq_some_iff.mp hk
  have htext : k.text = name := by simpa using List.find?_some hfind
  have hmem : name ∈ Keyword.all.map Keyword.text :=
    htext ▸ List.mem_map_of_mem (List.mem_of_find?_eq_some hfind)
  split at hname
  next key value heq =>
    cases heq
    split at hname
    next =>
      refine ⟨[name], ?_, by simp, List.cons_subset.mpr ⟨hmem, List.nil_subset _⟩⟩
      exact congrArg (fun found => [found]) hname
    next => cases hname
  next => cases hname

theorem keysAmong_of_ofName? (h : ofName? (.mapping entries) = some w) :
    Node.KeysAmong w.words entries := by
  obtain ⟨fields, hfields, hread⟩ := Option.bind_eq_some_iff.mp h
  obtain ⟨label, -, hread⟩ := Option.bind_eq_some_iff.mp hread
  obtain ⟨n, -, hw⟩ := Option.bind_eq_some_iff.mp hread
  cases hw
  exact Node.keysAmong_of_fields? hfields

theorem keysAmong_of_ofField? {α : Type} {field : String} {read : Node → Option α}
    {make : α → WrittenToken} (hwords : ∀ a, (make a).words = [field])
    (h : ofField? field read make (.mapping entries) = some w) :
    Node.KeysAmong w.words entries := by
  obtain ⟨fields, hfields, hread⟩ := Option.bind_eq_some_iff.mp h
  obtain ⟨a, -, rfl⟩ := Option.map_eq_some_iff.mp hread
  rw [hwords]
  exact Node.keysAmong_of_fields? hfields

/-- The keys of a mapping that is read as a token stand for words of that token. -/
theorem keysAmong_of_mem_forms (hform : form ∈ forms) (h : form (.mapping entries) = some w) :
    Node.KeysAmong w.words entries := by
  simp only [forms, List.mem_cons, List.not_mem_nil, or_false] at hform
  rcases hform with rfl | rfl | rfl | rfl | rfl | rfl | rfl | rfl | rfl
  · exact keysAmong_of_ofKeyword? h
  · cases h
  · exact keysAmong_of_ofName? h
  all_goals exact keysAmong_of_ofField? (fun _ => rfl) h

/-- The keys of an object are texts, which stand for themselves. -/
theorem keys_of_object {fields : Fields} (hform : form ∈ forms)
    (h : form (.object fields) = some w) :
    (fields.map Prod.fst).Nodup ∧ fields.map Prod.fst ⊆ w.words := by
  obtain ⟨names, hnames, hnodup, hwords⟩ := keysAmong_of_mem_forms hform h
  have hkeys : names = fields.map Prod.fst := by
    apply List.map_injective_iff.mpr fun _ _ => Option.some.inj
    rw [← hnames, List.map_map, List.map_map]
    rfl
  rw [← hkeys]
  exact ⟨hnodup, hwords⟩

end Keys

/-! ### The order of the forms -/

/-- Where at most one of some readers reads a value, the first that does is the
    same in every order. -/
theorem findSome?_eq_of_perm {α β : Type} {x : α} {readers order : List (α → Option β)}
    (hperm : order.Perm readers)
    (hone : readers.Pairwise fun f g => f x = none ∨ g x = none) :
    (order.findSome? fun f => f x) = readers.findSome? fun f => f x := by
  induction hperm with
  | nil => rfl
  | cons f _ ih =>
    rw [List.findSome?_cons, List.findSome?_cons, ih (List.pairwise_cons.mp hone).2]
  | swap f g rest =>
    simp only [List.findSome?_cons]
    rcases (List.pairwise_cons.mp hone).1 _ (List.mem_cons_self ..) with h | h
    · rw [h]
    · rw [h]
  | trans _ hperm ihfirst ihsecond =>
    have hmiddle := (hperm.pairwise_iff fun h => h.symm).mpr hone
    exact (ihfirst hmiddle).trans (ihsecond hone)

/-- **At most one form fits.**  A node that is no sequence and no mapping from
    the position 0 alone is read by one form at most, and trying the forms in
    another order reads the same token.  The keys of a mapping that is read stand
    for words of the one token it is read as, and no two stand for the same.  So
    an object with a key twice, or with keys that are not all words of one token,
    is read by no form. -/
theorem one_form_fits :
    (∀ node : Node, (∀ items, node ≠ .sequence items) → ¬ node.ByPosition →
      (forms.Pairwise fun f g => f node = none ∨ g node = none) ∧
      ∀ order : List (Node → Option WrittenToken), order.Perm forms →
        (order.findSome? fun form => form node) = ofNode? node) ∧
    (∀ entries, ∀ form ∈ forms, ∀ w, form (.mapping entries) = some w →
      Node.KeysAmong w.words entries) ∧
    ∀ fields : Fields,
      ¬ (fields.map Prod.fst).Nodup ∨ (∀ w : WrittenToken, ¬ fields.map Prod.fst ⊆ w.words) →
        ∀ form ∈ forms, form (.object fields) = none := by
  refine ⟨?_, ?_, ?_⟩
  · intro node hseq hpos
    have hone := pairwise_forms hseq hpos
    refine ⟨hone, ?_⟩
    intro order hperm
    exact findSome?_eq_of_perm hperm hone
  · intro entries form hform w h
    exact keysAmong_of_mem_forms hform h
  · intro fields hkeys form hform
    apply Option.eq_none_iff_forall_ne_some.mpr
    intro w h
    obtain ⟨hnodup, hwords⟩ := keys_of_object hform h
    rcases hkeys with hrepeated | hforeign
    · exact hrepeated hnodup
    · exact hforeign w hwords

/-- A name with a size of null is a name without one in every order, and a size
    with an element type is nothing. -/
theorem one_form_fits_name :
    (∀ items, Node.object [("size", .null), ("name", .text "n")] ≠ .sequence items) ∧
      ¬ (Node.object [("size", .null), ("name", .text "n")]).ByPosition ∧
      (forms.reverse.findSome? fun form => form (.object [("size", .null), ("name", .text "n")])) =
        some (.name "n" none) ∧
      (∀ w : WrittenToken, ¬ ["size", "dtype"] ⊆ w.words) ∧
      ∀ form ∈ forms, form (.object [("size", .size 3), ("dtype", .text "f32")]) = none := by
  have hseq : ∀ items, Node.object [("size", .null), ("name", .text "n")] ≠ .sequence items := by
    intro items h
    cases h
  have hpos : ¬ (Node.object [("size", .null), ("name", .text "n")]).ByPosition := by
    intro h
    cases h
  have hforeign : ∀ w : WrittenToken, ¬ ["size", "dtype"] ⊆ w.words := by
    intro w
    cases w <;> simp only [words] <;> decide
  obtain ⟨hforms, -, hobjects⟩ := one_form_fits
  exact ⟨hseq, hpos, ((hforms _ hseq hpos).2 _ forms.reverse_perm).trans rfl, hforeign,
    hobjects _ (.inr hforeign)⟩

/-- A mapping from the position 0 to 3 is read as a size and as an anonymous
    dimension, though its key is the word of neither. -/
theorem position_fits_twice :
    ¬ (∀ node : Node, (∀ items, node ≠ .sequence items) →
      forms.Pairwise fun f g => f node = none ∨ g node = none) ∧
    ¬ ∀ entries, ∀ form ∈ forms, ∀ w, form (.mapping entries) = some w →
      ∀ e ∈ entries, ∃ name ∈ w.words, e.1.text? = some name := by
  constructor
  · intro h
    have hpair := h (.mapping [(.leaf (.integer 0) none, .leaf (.integer 3) none)]) (by simp)
    revert hpair
    decide
  · intro h
    have hsize : ofSize? (.mapping [(.leaf (.integer 0) none, .leaf (.integer 3) none)]) =
        some (.size 3) := rfl
    obtain ⟨name, -, hname⟩ := h _ ofSize? (by simp [forms]) _ hsize _ (List.mem_singleton.mpr rfl)
    cases hname

end WrittenToken

end ShapeContracts
