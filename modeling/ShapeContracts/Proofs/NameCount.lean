/-
  ShapeContracts/Proofs/NameCount.lean
  ====================================
  **One name for each axis.**

  A description either has no names or has one for each of its axes, wherever it
  was made by this library: every way of changing a description keeps the count
  right (`Change.apply_namesEachAxis`), so every sequence of changes does, and a
  text is read by such changes.  These are also the only descriptions that can
  be made so (`made_iff_namesEachAxis`).

  A document is another matter.  Its record is taken field by field, and nobody
  compares the two counts: a description has as many names as the document
  lists (`namesEachAxis_iff_of_ofNode?`).
-/
import ShapeContracts.Document.Json.Reader
import ShapeContracts.Description.Record
import ShapeContracts.Proofs.DescriptionGrammar

namespace ShapeContracts

namespace Description

/-! ### Making descriptions -/

/-- The names, where there are any, are as many as the axes. -/
def NamesEachAxis (d : Description) : Prop :=
  ∀ names ∈ d.names, names.length = d.shape.length

inductive Change
  | axisNames (names : List (Option String))
  | unnamedAxes
  | layout (l : Layout)

def Change.apply (d : Description) : Change → Except NameCountError Description
  | .axisNames names => d.withNames names
  | .unnamedAxes => .ok d.withUnnamedAxes
  | .layout l => .ok (d.withLayout l)

/-- Change a description step by step, up to the first change that fails. -/
def change (d : Description) (changes : List Change) : Except NameCountError Description :=
  changes.foldlM Change.apply d

/-- A description is made from a plain one or a scalar by changes. -/
inductive Made (d : Description) : Prop
  | plain (shape : List Size) (dtype : ElementType) (changes : List Change) :
      (Description.plain shape dtype).change changes = .ok d → Made d
  | scalar (dtype : ElementType) (changes : List Change) :
      (Description.scalar dtype).change changes = .ok d → Made d

variable {d d' : Description}

theorem change_cons (d : Description) (c : Change) (changes : List Change) :
    d.change (c :: changes) = (c.apply d).bind fun d' => d'.change changes :=
  List.foldlM_cons

theorem plain_namesEachAxis (shape : List Size) (dtype : ElementType) :
    (plain shape dtype).NamesEachAxis := by
  intro names hnames
  cases hnames

theorem withNames_eq_ok_iff {names : List (Option String)} :
    d.withNames names = .ok d' ↔
      names.length = d.shape.length ∧ d' = { d with names := some names } := by
  unfold withNames
  split
  next hcount => simp [hcount, eq_comm]
  next hcount => simp [hcount]

/-- No change gives a wrong number of names. -/
theorem Change.apply_namesEachAxis (hd : d.NamesEachAxis) {c : Change}
    (h : c.apply d = .ok d') : d'.NamesEachAxis := by
  cases c with
  | axisNames names =>
    obtain ⟨hcount, rfl⟩ := withNames_eq_ok_iff.mp h
    intro given hgiven
    cases hgiven
    exact hcount
  | unnamedAxes =>
    cases h
    intro given hgiven
    cases hgiven
    exact List.length_map _
  | layout l =>
    cases h
    exact hd

theorem change_namesEachAxis (hd : d.NamesEachAxis) {changes : List Change}
    (h : d.change changes = .ok d') : d'.NamesEachAxis := by
  induction changes generalizing d with
  | nil =>
    cases h
    exact hd
  | cons c changes ih =>
    rw [change_cons] at h
    obtain ⟨next, hnext, hrest⟩ := bind_eq_ok_iff.mp h
    exact ih (Change.apply_namesEachAxis hd hnext) hrest

theorem change_layout (d : Description) (layout : Option Layout) (hnone : d.layout = none) :
    d.change (layout.map Change.layout).toList = .ok { d with layout } := by
  cases layout with
  | none =>
    have hsame : { d with layout := none } = d := by rw [← hnone]
    rw [hsame]
    rfl
  | some l => rfl

/-- The descriptions that can be made are those with one name for each axis. -/
theorem made_iff_namesEachAxis : Made d ↔ d.NamesEachAxis := by
  constructor
  · intro h
    cases h with
    | plain shape dtype changes h =>
      exact change_namesEachAxis (plain_namesEachAxis shape dtype) h
    | scalar dtype changes h => exact change_namesEachAxis (plain_namesEachAxis [] dtype) h
  · intro h
    obtain ⟨shape, dtype, names, layout⟩ := d
    cases names with
    | none => exact .plain shape dtype _ (change_layout _ layout rfl)
    | some names =>
      refine .plain shape dtype (.axisNames names :: (layout.map Change.layout).toList) ?_
      have hnamed : (plain shape dtype).withNames names =
          .ok ⟨shape, dtype, some names, none⟩ := withNames_eq_ok_iff.mpr ⟨h names rfl, rfl⟩
      rw [change_cons]
      change ((plain shape dtype).withNames names).bind _ = _
      rw [hnamed]
      exact change_layout _ layout rfl

/-- A text gives names for all axes or for none. -/
theorem namesEachAxis_of_read {text : String} (h : read text = .ok d) : d.NamesEachAxis := by
  rcases hrepeated : repeatedMarker? [] (segments text.toList).2 with _ | marker
  · have hlayered : Layered text.toList _ _ _ := layered_iff.mpr ⟨hrepeated, rfl, rfl, rfl⟩
    rw [read_of_layered hlayered] at h
    obtain ⟨_, _, _, _, _, _, _, _, hcount⟩ := readParts_eq_ok_iff.mp h
    exact hcount
  · rw [read_of_repeatedMarker hrepeated] at h
    cases h

/-! ### Descriptions in documents -/

/-- The names that a document lists, where it lists any, are as many as the
    sizes it lists. -/
def ListsNameForEachSize (node : Node) : Prop :=
  ∀ fields sizes names, node.record? .json false fieldNames = some fields →
    fields.lookup "shape" = some (.sequence sizes) →
    fields.lookup "names" = some (.sequence names) → names.length = sizes.length

theorem itemsBy_eq_some {α : Type} {read : Node → Option α} {node : Node} {parts : List α}
    (h : node.itemsBy read = some parts) :
    ∃ items, node = .sequence items ∧ parts.length = items.length := by
  cases node with
  | sequence items =>
    refine ⟨items, rfl, ?_⟩
    have hitems := congrArg List.length (mapM_eq_some_iff.mp h)
    rwa [List.length_map, List.length_map, eq_comm] at hitems
  | leaf value written => cases h
  | mapping entries => cases h

/-- Names are read where a document lists them, and are as many as are listed. -/
theorem withDefault_names {fields : Fields} {names : Option (List (Option String))}
    (h : fields.withDefault "names" none
      (Node.optional (Node.itemsBy (Node.optional Node.text?))) = some names) :
    (names = none ∧ ∀ items, fields.lookup "names" ≠ some (.sequence items)) ∨
      ∃ given items, names = some given ∧ fields.lookup "names" = some (.sequence items) ∧
        given.length = items.length := by
  unfold Fields.withDefault at h
  cases hlookup : fields.lookup "names" with
  | none =>
    rw [hlookup] at h
    cases h
    exact .inl ⟨rfl, fun items heq => by cases heq⟩
  | some node =>
    simp only [hlookup, Node.optional] at h
    split at h
    next hnull =>
      cases h
      refine .inl ⟨rfl, fun items heq => ?_⟩
      cases heq
      cases hnull
    next =>
      obtain ⟨given, hgiven, rfl⟩ := Option.map_eq_some_iff.mp h
      obtain ⟨items, rfl, hlength⟩ := itemsBy_eq_some hgiven
      exact .inr ⟨given, items, rfl, rfl, hlength⟩

/-- A description in a document has as many names as the document lists. -/
theorem namesEachAxis_iff_of_ofNode? {node : Node} (h : ofNode? node = some d) :
    d.NamesEachAxis ↔ ListsNameForEachSize node := by
  unfold ofNode? at h
  simp only [Option.bind_eq_bind, Option.bind_eq_some_iff] at h
  obtain ⟨fields, hfields, shape, hshape, dtype, -, names, hnames, layout, -, hd⟩ := h
  cases hd
  obtain ⟨sizes, hsizes, hitems⟩ := Option.bind_eq_some_iff.mp hshape
  obtain ⟨sizes, rfl, hshape⟩ := itemsBy_eq_some hitems
  constructor
  · intro hd fields' sizes' items' hfields' hsizes' hitems'
    cases hfields.symm.trans hfields'
    cases hsizes.symm.trans hsizes'
    rcases withDefault_names hnames with ⟨-, hnone⟩ | ⟨given, items, rfl, hlisted, hlength⟩
    · exact absurd hitems' (hnone items')
    · cases hlisted.symm.trans hitems'
      rw [← hlength, ← hshape]
      exact hd given rfl
  · intro hlists given hgiven
    rcases withDefault_names hnames with ⟨rfl, -⟩ | ⟨given', items, rfl, hlisted, hlength⟩
    · cases hgiven
    · cases hgiven
      rw [hlength, hlists fields sizes items hfields hsizes hlisted]
      exact hshape.symm

/-- **Who counts the names.**  The descriptions made from plain ones and scalars
    by changes are those with one name for each axis or none at all, and every
    text that can be read gives one of them.  A document gives one just when the
    names it lists, where it lists any, are as many as the sizes it lists. -/
theorem one_name_per_axis (d : Description) :
    (Made d ↔ d.NamesEachAxis) ∧
      (∀ text, read text = .ok d → d.NamesEachAxis) ∧
      ∀ text node, Json.read? text = some node → ofNode? node = some d →
        (d.NamesEachAxis ↔ ListsNameForEachSize node) :=
  ⟨made_iff_namesEachAxis, fun _ h => namesEachAxis_of_read h,
    fun _ _ _ h => namesEachAxis_iff_of_ofNode? h⟩

/-- A JSON text that names one of two axes is a description all the same. -/
theorem names_fewer_than_axes :
    ¬ ∀ (text : String) (d : Description),
      (Json.read? text).bind ofNode? = some d → d.NamesEachAxis := by
  intro h
  have hread : (Json.read? "\x7b\"shape\":[2,3],\"dtype\":\"f32\",\"names\":[\"a\"]\x7d").bind
      ofNode? = some ⟨[2, 3], .f32, some [some "a"], none⟩ := by decide +kernel
  have hcount := h _ _ hread [some "a"] rfl
  cases hcount

end Description

end ShapeContracts
