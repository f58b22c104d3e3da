/-
  ShapeContracts/Proofs/DescriptionRoundTrip.lean
  ===============================================
  **Descriptions survive being written as JSON.**

  A record leaves a field out where there is nothing to say, and the reader
  supplies for a field left out what stands for nothing.  The two meet in the
  lookup of a field: it finds what an optional value is written as, or nothing
  (`Fields.withDefault_optional`).  That keeps apart what is absent, what is
  empty, and what is present with nothing in it, since only the first is looked
  up in vain.
-/
import ShapeContracts.Description.Record
import ShapeContracts.Proofs.JsonRoundTrip

namespace ShapeContracts

/-! ### Records and their fields -/

namespace Node

variable {α : Type} {read : Node → Option α} {write : α → Node}

theorem entries?_object (fields : Fields) : (Node.object fields).entries? = some fields := by
  change List.mapM _ _ = _
  induction fields with
  | nil => rfl
  | cons field fields ih =>
    rw [List.map_cons, List.mapM_cons, ih]
    rfl

/-- Known fields, none of them twice, are found by name. -/
theorem record?_object {format : Format} {strict : Bool} {names : List String} {fields : Fields}
    (hnames : ∀ f ∈ fields, f.1 ∈ names) (hnodup : (fields.map Prod.fst).Nodup) :
    (Node.object fields).record? format strict names = some fields := by
  have hknown : fields.filter (fun f => names.contains f.1) = fields :=
    List.filter_eq_self.mpr fun f hf => List.contains_iff_mem.mpr (hnames f hf)
  have hfields : Fields.ofEntries strict names fields = some fields := by
    rw [Fields.ofEntries, hknown, if_neg (by simp), if_pos hnodup]
  cases format <;> exact (congrArg (Option.bind · _) (entries?_object fields)).trans hfields

theorem itemsBy_map (h : ∀ a, read (write a) = some a) (parts : List α) :
    itemsBy read (.sequence (parts.map write)) = some parts := by
  change List.mapM _ _ = _
  induction parts with
  | nil => rfl
  | cons a parts ih =>
    rw [List.map_cons, List.mapM_cons, h a, ih]
    rfl

theorem size?_size (n : Size) : size? (.size n) = some n := by
  change (if n.toNat < Size.bound then some (UInt64.ofNat n.toNat) else none) = some n
  have hlt : n.toNat < Size.bound := n.toNat_lt
  rw [if_pos hlt, UInt64.ofNat_toNat]

/-- An unnamed axis is written as null, which is no text. -/
theorem optional_textOrNull (name : Option String) :
    optional text? (textOrNull name) = some name := by
  cases name <;> rfl

/-- A word is read back as the member that is written so. -/
theorem word?_text {all : List α} {textOf : α → String} (hall : ∀ a, a ∈ all)
    (hinj : ∀ {a b}, textOf a = textOf b → a = b) (a : α) :
    word? all textOf (.text (textOf a)) = some a :=
  (find?_text_eq_some_iff hall hinj).mpr rfl

end Node

/-- Where an optional value is written as a field or left out, it is read back. -/
theorem Fields.withDefault_optional {α : Type} {fields : Fields} {name : String}
    {read : Node → Option α} {write : α → Node} {value : Option α}
    (hlookup : fields.lookup name = value.map write)
    (hread : ∀ a, (write a).isNull = false ∧ read (write a) = some a) :
    fields.withDefault name none (Node.optional read) = some value := by
  cases value with
  | none => rw [withDefault, hlookup, Option.map_none]
  | some a =>
    obtain ⟨hnull, ha⟩ := hread a
    rw [withDefault, hlookup]
    change (if (write a).isNull = true then some none else (read (write a)).map some) = _
    rw [hnull, ha]
    rfl

/-! ### Descriptions -/

namespace Description

theorem record?_node (d : Description) : ∃ fields,
    d.node.record? .json false fieldNames = some fields ∧
      fields.lookup "shape" = some (.sequence (d.shape.map .size)) ∧
      fields.lookup "dtype" = some (.text d.dtype.text) ∧
      fields.lookup "names" = d.names.map (fun names => .sequence (names.map .textOrNull)) ∧
      fields.lookup "layout" = d.layout.map fun layout => .text layout.text := by
  rcases d with ⟨shape, dtype, names, layout⟩
  refine ⟨_, Node.record?_object ?_ ?_, ?_⟩
  · cases names <;> cases layout <;> simp [fieldNames]
  · cases names <;> cases layout <;> simp
  · cases names <;> cases layout <;> exact ⟨rfl, rfl, rfl, rfl⟩

/-- What a description is written as stands for that description. -/
theorem ofNode?_node (d : Description) : ofNode? d.node = some d := by
  obtain ⟨fields, hfields, hshape, hdtype, hnames, hlayout⟩ := record?_node d
  have hsizes := Node.itemsBy_map Node.size?_size d.shape
  have htype : ElementType.ofNode? (.text d.dtype.text) = some d.dtype :=
    Node.word?_text ElementType.mem_all ElementType.text_injective d.dtype
  have hnames' : fields.withDefault "names" none
      (Node.optional (Node.itemsBy (Node.optional Node.text?))) = some d.names :=
    Fields.withDefault_optional hnames fun names =>
      ⟨rfl, Node.itemsBy_map Node.optional_textOrNull names⟩
  have hlayout' : fields.withDefault "layout" none (Node.optional Layout.ofNode?) =
      some d.layout :=
    Fields.withDefault_optional hlayout fun layout =>
      ⟨rfl, Node.word?_text Layout.mem_all Layout.text_injective layout⟩
  rw [ofNode?, hfields]
  simp only [Fields.required, hshape, hdtype, hnames', hlayout', hsizes, htype,
    Option.bind_eq_bind, Option.bind_some]
  rfl

theorem exact_size (n : Size) : Json.Exact (.size n) := by
  apply Json.Exact.integer
  have hlt := n.toNat_lt
  rw [Scalar.ofInt, if_pos (by omega)]

theorem exact_textOrNull (name : Option String) : Json.Exact (.textOrNull name) := by
  cases name with
  | none => exact .null
  | some s => exact .text s

/-- A description is written with what JSON can write. -/
theorem exact_node (d : Description) : Json.Exact d.node := by
  apply Json.Exact.object
  intro field hfield
  simp only [List.mem_append, List.mem_cons, List.not_mem_nil, or_false, Option.mem_toList,
    Option.map_eq_some_iff] at hfield
  rcases hfield with ((rfl | rfl) | ⟨names, -, rfl⟩) | ⟨layout, -, rfl⟩
  · apply Json.Exact.sequence
    intro item hitem
    obtain ⟨n, -, rfl⟩ := List.mem_map.mp hitem
    exact exact_size n
  · exact .text d.dtype.text
  · apply Json.Exact.sequence
    intro item hitem
    obtain ⟨name, -, rfl⟩ := List.mem_map.mp hitem
    exact exact_textOrNull name
  · exact .text layout.text

theorem read_compact_node (d : Description) :
    (Json.read? (Json.compact d.node)).bind ofNode? = some d := by
  rw [Json.read?_compact (exact_node d)]
  exact ofNode?_node d

/-- **A description is read back from its JSON as it was.**  So no two
    descriptions are written alike: absent names, an empty list of names and a
    list of unnamed axes are three things, and a layout that is absent stays
    absent. -/
theorem json_round_trip (d : Description) :
    (Json.read? (Json.compact d.node)).bind ofNode? = some d ∧
      ∀ e : Description, Json.compact e.node = Json.compact d.node → e = d := by
  refine ⟨read_compact_node d, fun e h => ?_⟩
  have he := read_compact_node e
  rw [h, read_compact_node d] at he
  exact (Option.some.inj he).symm

example :
    ([none, some [], some [none]].map fun names => Json.compact (node ⟨[7], .f32, names, none⟩)) =
      ["\x7b\"shape\":[7],\"dtype\":\"f32\"\x7d",
        "\x7b\"shape\":[7],\"dtype\":\"f32\",\"names\":[]\x7d",
        "\x7b\"shape\":[7],\"dtype\":\"f32\",\"names\":[null]\x7d"] := by
  decide

end Description

end ShapeContracts
