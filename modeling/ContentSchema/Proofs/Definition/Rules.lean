import ContentSchema.Proofs.Definition.Valid

/-!
# The rules of accepted definitions

Fields are read one by one, and a second pass looks at the keys of the raw list.  The two agree: the
fields of a definition are those of its raw list, in order (`Field.ReadFrom`), and together they keep
every rule (`Orderly`).
-/

namespace ContentSchema

/-! ### Spelling -/

/-- A small ASCII letter, followed by small letters, digits, underscores and hyphens. -/
def Naming.Spelled (s : String) : Prop :=
  ∃ c cs, s.toList = c :: cs ∧ ('a' ≤ c ∧ c ≤ 'z') ∧
    ∀ d ∈ cs, ('a' ≤ d ∧ d ≤ 'z') ∨ ('0' ≤ d ∧ d ≤ '9') ∨ d = '_' ∨ d = '-'

theorem Reader.isSlug_iff {s : String} : isSlug s = true ↔ Naming.Spelled s := by
  have hlower : ∀ c : Char, c.isLower = true ↔ 'a' ≤ c ∧ c ≤ 'z' := fun c => by
    show (decide ('a' ≤ c) && decide (c ≤ 'z')) = true ↔ _
    rw [Bool.and_eq_true, decide_eq_true_eq, decide_eq_true_eq]
  have hdigit : ∀ c : Char, c.isDigit = true ↔ '0' ≤ c ∧ c ≤ '9' := fun c => by
    show (decide ('0' ≤ c) && decide (c ≤ '9')) = true ↔ _
    rw [Bool.and_eq_true, decide_eq_true_eq, decide_eq_true_eq]
  rw [isSlug, Naming.Spelled]
  cases s.toList with
  | nil => simp
  | cons c cs => simp [hlower, hdigit, or_assoc]

/-! ### Reading -/

namespace Reader

variable {α : Type}

theorem oneOf_eq_accepted {members : List α} {name : α → String} {v : Value} {m : α}
    (h : oneOf members name v = .accepted m) : v = .text (name m) := by
  rw [oneOf] at h
  split at h
  · rename_i found hfound
    cases h
    obtain ⟨s, hs, hfind⟩ := Option.bind_eq_some_iff.1 hfound
    have hname : name m = s := by simpa using List.find?_some hfind
    cases v with
    | text t =>
      cases hs
      rw [hname]
    | null | bool | int | float | stamp | list | object => cases hs
  · cases h

theorem ne_nil_of_nonEmptyList {item : Reader α} {v : Value} {as : List α}
    (h : nonEmptyList item v = .accepted as) : as ≠ [] := by
  obtain ⟨-, hne⟩ := Checked.ensure_eq_accepted.1 h
  rintro rfl
  cases hne

end Reader

theorem SelectConfig.options_ne_of_read {v : Value} {c : SelectConfig} (h : read v = .accepted c) :
    c.options ≠ [] := by
  cases v with
  | object entries =>
    obtain ⟨_, _, h₁, -, rfl⟩ := Checked.seq_eq_accepted.1 h
    obtain ⟨_, _, h₂, -, rfl⟩ := Checked.seq_eq_accepted.1 h₁
    obtain ⟨_, options, h₃, hoptions, rfl⟩ := Checked.seq_eq_accepted.1 h₂
    obtain ⟨_, _, h₄, -, rfl⟩ := Checked.seq_eq_accepted.1 h₃
    obtain ⟨_, -, rfl⟩ := Checked.map_eq_accepted.1 h₄
    obtain ⟨_, _, -, hoptions⟩ := Record.required_eq_accepted hoptions
    exact Reader.ne_nil_of_nonEmptyList hoptions
  | null | bool | int | float | text | stamp | list => cases h

namespace FieldConfig

variable {v : Value} {c : FieldConfig}

theorem type_of_readAs {type : FieldType} (h : readAs type v = .accepted c) : c.type = type := by
  cases type with
  | text | rich | number | boolean | select | json | media | relation | date | component =>
    obtain ⟨_, -, rfl⟩ := Checked.map_eq_accepted.1 h
    rfl

/-- A configuration is read as the type that it names. -/
theorem read_eq_accepted (h : read v = .accepted c) :
    v.get? "type" = some (.text c.type.name) ∧ readAs c.type v = .accepted c := by
  rw [read.eq_def] at h
  split at h
  · rename_i entries
    split at h
    · cases h
    · rename_i tag htag
      split at h
      · rename_i type htype
        have hread := Checked.within_eq_accepted.1 h
        obtain rfl := type_of_readAs hread
        obtain ⟨s, hs, hname⟩ := Option.bind_eq_some_iff.1 htype
        have hs' : c.type.name = s := by simpa using List.find?_some hname
        cases tag with
        | text t =>
          cases hs
          exact ⟨by rw [Value.get?, htag, hs'], hread⟩
        | null | bool | int | float | stamp | list | object => cases hs
      · cases h
  · cases h

theorem options_ne_of_read {select : SelectConfig} (h : read v = .accepted (.select select)) :
    select.options ≠ [] := by
  obtain ⟨_, hread, heq⟩ := Checked.map_eq_accepted.1 (read_eq_accepted h).2
  cases heq
  exact SelectConfig.options_ne_of_read hread

end FieldConfig

/-! ### Fields -/

namespace Field

/-- The field is read from the raw value, with the key, the label and the type that this declares.
The type of its configuration is that of the field, also where the raw configuration names one. -/
structure ReadFrom (raw : Value) (f : Field) : Prop where
  /-- The raw value reads as the field. -/
  read : read raw = .accepted f
  /-- The key is the declared one. -/
  key : raw.get? "key" = some (.text f.key)
  /-- The label is the declared one. -/
  label : raw.get? "label" = some (.text f.label)
  /-- The type is the declared one. -/
  type : raw.get? "type" = some (.text f.type.name)
  /-- A type that the raw configuration names is the same. -/
  tag : ∀ config, raw.get? "config" = some config → ∀ tag, config.get? "type" = some tag →
    tag = .text f.type.name

/-- The field keeps the rules that concern it alone. -/
structure Orderly (f : Field) : Prop where
  /-- The key is spelled like a slug. -/
  spelled : Naming.Spelled f.key
  /-- The key is no column that every table has. -/
  own : f.key ∉ ["id", "created_at", "updated_at"]
  /-- Selections, relations and components are configured. -/
  configured : f.type ∈ [.select, .relation, .component] → f.config ≠ none
  /-- A configuration is of the field's type. -/
  tagged : ∀ c, f.config = some c → c.type = f.type
  /-- A selection has something to choose from. -/
  options : ∀ c, f.config = some (.select c) → c.options ≠ []
  /-- A relation leads somewhere. -/
  target : ∀ c, f.config = some (.relation c) → c.target ≠ ""

variable {f : Field} {entries : Entries} {raw : Value}

/-- The configuration of a field is read from one that names the type of the field, if it names
one. -/
theorem tag_eq_of_read {config : Entries} {tag : Value}
    (hconfig : Record.optionally (.plain "config") FieldConfig.read (inheritType entries) =
      .accepted f.config)
    (htype : ∀ c, f.config = some c → c.type = f.type)
    (hraw : Entries.find? entries "config" = some (.object config))
    (htag : Entries.find? config "type" = some tag) : tag = .text f.type.name := by
  -- a configuration that names a type is not touched
  have hhas : Entries.has config "type" = true := by
    rw [Entries.has_iff_find?_isSome, htag]
    rfl
  have hsame : inheritType entries = entries := by
    rw [inheritType, hraw]
    split
    · rename_i heq _
      cases heq
      rw [if_pos hhas]
    · rfl
  rw [hsame, Record.optionally, Record.defaulted, Record.find?_plain, hraw] at hconfig
  obtain ⟨c, hread, hc⟩ := Checked.map_eq_accepted.1 (Checked.within_eq_accepted.1 hconfig)
  have hnamed := (FieldConfig.read_eq_accepted hread).1
  rw [Value.get?, htag, htype c hc.symm] at hnamed
  exact Option.some.inj hnamed

theorem readFrom_of_read (h : read raw = .accepted f) : ReadFrom raw f := by
  cases raw with
  | object entries =>
    obtain ⟨hparts, -⟩ := Checked.ensure_eq_accepted.1 h
    obtain ⟨hkey, hlabel, htype, hconfig⟩ := readParts_eq_accepted hparts
    obtain ⟨_, hfindKey, hkey⟩ := Record.required_plain_eq_accepted hkey
    obtain ⟨_, hfindLabel, hlabel⟩ := Record.required_plain_eq_accepted hlabel
    obtain ⟨_, hfindType, htype⟩ := Record.required_plain_eq_accepted htype
    rw [find?_inheritType (by decide)] at hfindKey hfindLabel hfindType
    obtain rfl := (readKey_eq_accepted hkey).1
    obtain rfl := (Reader.nonEmptyText_eq_accepted hlabel).1
    obtain rfl := Reader.oneOf_eq_accepted htype
    refine ⟨h, hfindKey, hfindLabel, hfindType, fun config hraw tag htag => ?_⟩
    cases config with
    | object config =>
      exact tag_eq_of_read hconfig (fun c hc => (valid_of_read h).1.type_of_config hc) hraw htag
    | null | bool | int | float | text | stamp | list => cases htag
  | null | bool | int | float | text | stamp | list => cases h

theorem orderly_of_read (h : read raw = .accepted f) : f.Orderly := by
  obtain ⟨hvalid, -⟩ := valid_of_read h
  cases raw with
  | object entries =>
    obtain ⟨hparts, -⟩ := Checked.ensure_eq_accepted.1 h
    obtain ⟨-, -, -, hconfig⟩ := readParts_eq_accepted hparts
    refine ⟨Reader.isSlug_iff.1 hvalid.slug, hvalid.own, fun htype hnone => ?_,
      fun c hc => hvalid.type_of_config hc, fun c hc => ?_,
      fun c hc => hvalid.config (.relation c) hc⟩
    · have hneeds : f.type.needsConfig = true := by
        simp only [List.mem_cons, List.not_mem_nil, or_false] at htype
        rcases htype with htype | htype | htype <;> (rw [htype]; rfl)
      obtain ⟨c, hc, -⟩ := hvalid.exists_config hneeds
      rw [hnone] at hc
      cases hc
    · obtain ⟨_, hread⟩ := Record.optionally_eq_accepted hconfig _ hc
      exact FieldConfig.options_ne_of_read hread
  | null | bool | int | float | text | stamp | list => cases h

end Field

/-! ### Definitions -/

/-- The slug and the fields are those of the raw definition, and they keep all rules; no key is
among those that are reserved. -/
structure Orderly (raw : Value) (reserved : List String) (slug : String) (fields : List Field) :
    Prop where
  /-- The slug is the declared one. -/
  declared : raw.get? "slug" = some (.text slug)
  /-- The slug is spelled like one. -/
  spelled : Naming.Spelled slug
  /-- The fields are those of the raw list, in order. -/
  read : ∃ raws, raw.get? "fields" = some (.list raws) ∧ List.Forall₂ Field.ReadFrom raws fields
  /-- There is a field. -/
  nonempty : fields ≠ []
  /-- Each field keeps its rules. -/
  orderly : ∀ f ∈ fields, f.Orderly
  /-- No key is taken twice. -/
  nodup : (fields.map (·.key)).Nodup
  /-- No key is reserved. -/
  unreserved : ∀ f ∈ fields, f.key ∉ reserved

section Definitions

variable {kind : DefinitionKind} {entries : Entries} {slug : String} {fields : List Field}

theorem orderly_of_fieldListIssues
    (hslug : Record.required (.plain "slug") Reader.slug entries = .accepted slug)
    (hfields : Record.required (.plain "fields") (Reader.nonEmptyList Field.read) entries =
      .accepted fields)
    (h : fieldListIssues kind entries = []) :
    Orderly (.object entries) (if kind = .component then variantKeys else []) slug fields := by
  obtain ⟨_, hfindSlug, hslug⟩ := Record.required_plain_eq_accepted hslug
  obtain ⟨htext, -⟩ := Checked.ensure_eq_accepted.1 hslug
  obtain rfl := Reader.text_eq_accepted.1 htext
  obtain ⟨-, hnodup, hvariant⟩ := valid_of_fieldListIssues hfields h
  obtain ⟨_, hfind, hlist⟩ := Record.required_plain_eq_accepted hfields
  obtain ⟨raws, rfl, hread⟩ := Reader.nonEmptyList_eq_accepted hlist
  refine ⟨hfindSlug, Reader.isSlug_iff.1 (Reader.slug_eq_accepted hslug),
    ⟨raws, hfind, hread.imp fun _ _ => Field.readFrom_of_read⟩,
    Reader.ne_nil_of_nonEmptyList hlist, fun f hf => ?_, hnodup, fun f hf => ?_⟩
  · obtain ⟨_, -, hf⟩ := exists_of_mem_right hread hf
    exact Field.orderly_of_read hf
  · split
    · rename_i hkind
      exact hvariant hkind f hf
    · exact List.not_mem_nil

/-- Accepted models and components keep every rule. -/
theorem orderly_of_validate (raw : Value) :
    (∀ m, ContentModel.validate raw = .ok m → Orderly raw [] m.slug m.fields) ∧
    ∀ c, Component.validate raw = .ok c →
      Orderly raw ["variant_id", "enabled"] c.slug c.fields := by
  constructor
  · intro m hm
    obtain ⟨_, rfl, hread, hissues⟩ := checkDefinition_eq_accepted (validateWith_eq_ok.1 hm)
    obtain ⟨hslug, hfields⟩ := ContentModel.read_eq_accepted hread
    exact orderly_of_fieldListIssues hslug hfields hissues
  · intro c hc
    obtain ⟨_, rfl, hread, hissues⟩ := checkDefinition_eq_accepted (validateWith_eq_ok.1 hc)
    obtain ⟨hslug, hfields⟩ := Component.read_eq_accepted hread
    exact orderly_of_fieldListIssues hslug hfields hissues

end Definitions

/-- A definition with a choice, a relation and a component, of which one configuration names its
type. -/
def rawProduct : Value := .object [
  ("slug", .text "product-2"), ("name", .text "Product"),
  ("fields", .list [
    .object [
      ("key", .text "size"), ("label", .text "Size"), ("type", .text "select"),
      ("config", .object [("options", .list [.text "s", .text "m"])])],
    .object [
      ("key", .text "maker_1"), ("label", .text "Maker"), ("type", .text "relation"),
      ("config", .object [
        ("type", .text "relation"), ("relation_type", .text "manyToOne"),
        ("targetModel", .text "company")])],
    .object [
      ("key", .text "seo"), ("label", .text "SEO"), ("type", .text "component"),
      ("config", .object [("slug", .text "seo")])]])]

/-- The definition is one of a model and one of a component, with these keys. -/
theorem orderly_rawProduct : ∃ m c,
    ContentModel.validate rawProduct = .ok m ∧ Component.validate rawProduct = .ok c ∧
    m.fieldKeys = ["size", "maker_1", "seo"] ∧
    Orderly rawProduct [] m.slug m.fields ∧
    Orderly rawProduct ["variant_id", "enabled"] c.slug c.fields :=
  ⟨_, _, rfl, rfl, rfl, (orderly_of_validate rawProduct).1 _ rfl,
    (orderly_of_validate rawProduct).2 _ rfl⟩

end ContentSchema
