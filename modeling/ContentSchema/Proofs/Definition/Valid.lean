import ContentSchema.Definition.Validation
import ContentSchema.Proofs.Keyed
import ContentSchema.Proofs.Outcomes

/-!
# Valid definitions

What is known about a definition that was accepted: its slug and the keys of its fields are slugs,
no key is taken twice or belongs to the system, and each field has the configuration that its type
needs.
-/

namespace ContentSchema

/-! ### Reading records -/

theorem Entries.find?_insert_of_ne {entries : Entries} {key other : String} {v : Value}
    (h : other ≠ key) : (entries.insert key v).find? other = entries.find? other := by
  have hfind : List.find? (·.1 == other) (putBy Prod.fst entries (key, v)) =
      List.find? (·.1 == other) entries := find?_putBy_of_ne h
  exact congrArg (Option.map Prod.snd) hfind

theorem Entries.find?_insert_self {entries : Entries} {key : String} {v : Value} :
    (entries.insert key v).find? key = some v := by
  have hfind : List.find? (·.1 == Prod.fst (key, v)) (putBy Prod.fst entries (key, v)) =
      some (key, v) := find?_putBy_self
  exact congrArg (Option.map Prod.snd) hfind

namespace Record

variable {α : Type} {k : Key} {read : Reader α} {entries : Entries}

theorem required_eq_accepted {a : α} (h : required k read entries = .accepted a) :
    ∃ spelling v, k.find? entries = some (spelling, v) ∧ read v = .accepted a := by
  rw [required] at h
  split at h
  · rename_i spelling v hfind
    exact ⟨spelling, v, hfind, Checked.within_eq_accepted.1 h⟩
  · cases h

theorem defaulted_eq_accepted {default a : α} (h : defaulted k default read entries = .accepted a) :
    a = default ∨ ∃ v, read v = .accepted a := by
  rw [defaulted] at h
  split at h
  · rename_i spelling v hfind
    exact Or.inr ⟨v, Checked.within_eq_accepted.1 h⟩
  · cases h
    exact Or.inl rfl

theorem optionally_eq_accepted {a : Option α} (h : optionally k read entries = .accepted a) :
    ∀ b ∈ a, ∃ v, read v = .accepted b := by
  rintro b rfl
  rcases defaulted_eq_accepted h with h | ⟨v, h⟩
  · cases h
  · rw [Reader.nullable.eq_def] at h
    split at h
    · cases h
    · obtain ⟨b', hb', hb⟩ := Checked.map_eq_accepted (f := some).1 h
      cases hb
      exact ⟨v, hb'⟩

theorem find?_plain {name : String} : (Key.plain name).find? entries =
    (Entries.find? entries name).map fun v => (name, v) := by
  rw [Key.find?, Key.plain]
  cases Entries.find? entries name <;> rfl

/-- A key with one spelling is read from the entry of that name. -/
theorem required_plain_eq_accepted {name : String} {a : α}
    (h : required (.plain name) read entries = .accepted a) :
    ∃ v, Entries.find? entries name = some v ∧ read v = .accepted a := by
  obtain ⟨_, v, hfind, hv⟩ := required_eq_accepted h
  rw [find?_plain] at hfind
  obtain ⟨_, hfind, heq⟩ := Option.map_eq_some_iff.1 hfind
  cases heq
  exact ⟨v, hfind, hv⟩

end Record

namespace Reader

theorem text_eq_accepted {v : Value} {s : String} : text v = .accepted s ↔ v = .text s := by
  cases v <;> simp [text, Checked.fail]

theorem nonEmptyText_eq_accepted {v : Value} {s : String} (h : nonEmptyText v = .accepted s) :
    v = .text s ∧ s ≠ "" := by
  obtain ⟨hv, hs⟩ := Checked.ensure_eq_accepted.1 h
  refine ⟨text_eq_accepted.1 hv, ?_⟩
  rintro rfl
  cases hs

theorem slug_eq_accepted {v : Value} {s : String} (h : slug v = .accepted s) :
    isSlug s = true := by
  obtain ⟨-, hs⟩ := Checked.ensure_eq_accepted.1 h
  by_contra hslug
  rw [if_neg hslug] at hs
  cases hs

theorem nonEmptyList_eq_accepted {α : Type} {item : Reader α} {v : Value} {as : List α}
    (h : nonEmptyList item v = .accepted as) :
    ∃ items, v = .list items ∧ List.Forall₂ (fun i a => item i = .accepted a) items as := by
  obtain ⟨h, -⟩ := Checked.ensure_eq_accepted.1 h
  rw [list.eq_def] at h
  split at h
  · rename_i items _
    refine ⟨items, rfl, (Checked.traverse_eq_accepted h).imp ?_⟩
    rintro i a ⟨-, ha⟩
    exact ha
  · cases h

end Reader

/-! ### Fields -/

/-- Relations have a target and embedded components a slug. -/
def FieldConfig.Valid : FieldConfig → Prop
  | .relation c => c.target ≠ ""
  | .component c => Reader.isSlug c.slug = true
  | _ => True

theorem RelationConfig.target_ne_of_read {v : Value} {c : RelationConfig}
    (h : read v = .accepted c) : c.target ≠ "" := by
  cases v with
  | object entries =>
    obtain ⟨_, _, h₁, -, rfl⟩ := Checked.seq_eq_accepted.1 h
    obtain ⟨_, _, h₂, -, rfl⟩ := Checked.seq_eq_accepted.1 h₁
    obtain ⟨_, _, h₃, -, rfl⟩ := Checked.seq_eq_accepted.1 h₂
    obtain ⟨_, target, h₄, htarget, rfl⟩ := Checked.seq_eq_accepted.1 h₃
    obtain ⟨_, _, h₅, -, rfl⟩ := Checked.seq_eq_accepted.1 h₄
    obtain ⟨_, -, rfl⟩ := Checked.map_eq_accepted.1 h₅
    obtain ⟨_, _, -, htarget⟩ := Record.required_eq_accepted htarget
    exact (Reader.nonEmptyText_eq_accepted htarget).2
  | null | bool | int | float | text | stamp | list => cases h

theorem ComponentConfig.isSlug_of_read {v : Value} {c : ComponentConfig}
    (h : read v = .accepted c) : Reader.isSlug c.slug = true := by
  cases v with
  | object entries =>
    obtain ⟨_, _, h₁, -, rfl⟩ := Checked.seq_eq_accepted.1 h
    obtain ⟨_, _, h₂, -, rfl⟩ := Checked.seq_eq_accepted.1 h₁
    obtain ⟨_, _, h₃, -, rfl⟩ := Checked.seq_eq_accepted.1 h₂
    obtain ⟨_, slug, h₄, hslug, rfl⟩ := Checked.seq_eq_accepted.1 h₃
    obtain ⟨_, -, rfl⟩ := Checked.map_eq_accepted.1 h₄
    obtain ⟨_, _, -, hslug⟩ := Record.required_eq_accepted hslug
    exact Reader.slug_eq_accepted hslug
  | null | bool | int | float | text | stamp | list => cases h

theorem FieldConfig.valid_of_read {v : Value} {c : FieldConfig} (h : read v = .accepted c) :
    c.Valid := by
  rw [read.eq_def] at h
  split at h
  · split at h
    · cases h
    · split at h
      · rename_i type _
        have hread := Checked.within_eq_accepted.1 h
        cases type with
        | relation =>
          obtain ⟨_, hconfig, rfl⟩ := Checked.map_eq_accepted.1 hread
          exact RelationConfig.target_ne_of_read hconfig
        | component =>
          obtain ⟨_, hconfig, rfl⟩ := Checked.map_eq_accepted.1 hread
          exact ComponentConfig.isSlug_of_read hconfig
        | text | rich | number | boolean | select | json | media | date =>
          obtain ⟨_, -, rfl⟩ := Checked.map_eq_accepted.1 hread
          trivial
      · cases h
  · cases h

namespace Field

/-- The key of the field can be that of a column, and its configuration fits its type. -/
structure Valid (f : Field) : Prop where
  /-- The key is a slug. -/
  slug : Reader.isSlug f.key = true
  /-- The key is no column that every table has. -/
  own : f.key ∉ systemKeys
  /-- The configuration fits the type. -/
  fits : f.configFault = none
  /-- The configuration is valid. -/
  config : ∀ c ∈ f.config, c.Valid

variable {f : Field}

theorem relation?_eq_some {c : RelationConfig} :
    f.relation? = some c ↔ f.config = some (.relation c) := by
  rw [relation?]
  split
  · rename_i hconfig
    simp [hconfig]
  · rename_i hnone
    simpa using hnone c

theorem component?_eq_some {c : ComponentConfig} :
    f.component? = some c ↔ f.config = some (.component c) := by
  rw [component?]
  split
  · rename_i hconfig
    simp [hconfig]
  · rename_i hnone
    simpa using hnone c

theorem Valid.isSlug_component (h : f.Valid) {c : ComponentConfig} (hc : f.component? = some c) :
    Reader.isSlug c.slug = true :=
  h.config _ (component?_eq_some.1 hc)

theorem Valid.type_of_config (h : f.Valid) {c : FieldConfig} (hc : f.config = some c) :
    c.type = f.type := by
  have hfits := h.fits
  rw [configFault, hc] at hfits
  by_contra hne
  simp [hne] at hfits

/-- A field whose type needs a configuration has one of its type. -/
theorem Valid.exists_config (h : f.Valid) (hneeds : f.type.needsConfig = true) :
    ∃ c, f.config = some c ∧ c.type = f.type := by
  have hfits := h.fits
  rw [configFault] at hfits
  cases hc : f.config with
  | some c => exact ⟨c, rfl, h.type_of_config hc⟩
  | none => simp [hc, hneeds] at hfits

/-- Relations are the fields with a relation's configuration. -/
theorem Valid.type_eq_relation_iff (h : f.Valid) :
    f.type = .relation ↔ ∃ c, f.relation? = some c := by
  constructor
  · intro htype
    obtain ⟨c, hc, hctype⟩ := h.exists_config (by rw [htype]; rfl)
    rw [htype] at hctype
    cases c with
    | relation c => exact ⟨c, relation?_eq_some.2 hc⟩
    | text | rich | number | boolean | select | json | media | date | component => cases hctype
  · rintro ⟨c, hc⟩
    exact (h.type_of_config (relation?_eq_some.1 hc)).symm

/-- Embedded components are the fields with a component's configuration. -/
theorem Valid.type_eq_component_iff (h : f.Valid) :
    f.type = .component ↔ ∃ c, f.component? = some c := by
  constructor
  · intro htype
    obtain ⟨c, hc, hctype⟩ := h.exists_config (by rw [htype]; rfl)
    rw [htype] at hctype
    cases c with
    | component c => exact ⟨c, component?_eq_some.2 hc⟩
    | text | rich | number | boolean | select | json | media | date | relation => cases hctype
  · rintro ⟨c, hc⟩
    exact (h.type_of_config (component?_eq_some.1 hc)).symm

theorem readKey_eq_accepted {v : Value} {key : String} (h : readKey v = .accepted key) :
    v = .text key ∧ Reader.isSlug key = true ∧ key ∉ systemKeys := by
  obtain ⟨hread, hown⟩ := Checked.ensure_eq_accepted.1 h
  obtain ⟨htext, hslug⟩ := Checked.ensure_eq_accepted.1 hread
  refine ⟨(Reader.nonEmptyText_eq_accepted htext).1, ?_, ?_⟩
  · by_contra hne
    rw [if_neg hne] at hslug
    cases hslug
  · intro hmem
    rw [if_pos hmem] at hown
    cases hown

/-- Giving a configuration the type of its field leaves the other entries alone. -/
theorem find?_inheritType {entries : Entries} {key : String} (hkey : key ≠ "config") :
    Entries.find? (inheritType entries) key = Entries.find? entries key := by
  rw [inheritType]
  split
  · split
    · rfl
    · exact Entries.find?_insert_of_ne hkey
  · rfl

/-- A field is accepted with what is read of its entries. -/
theorem readParts_eq_accepted {entries : Entries} (h : readParts entries = .accepted f) :
    Record.required (.plain "key") readKey entries = .accepted f.key ∧
      Record.required (.plain "label") Reader.nonEmptyText entries = .accepted f.label ∧
      Record.required typeKey (Reader.oneOf FieldType.all FieldType.name) entries =
        .accepted f.type ∧
      Record.optionally (.plain "config") FieldConfig.read entries = .accepted f.config := by
  obtain ⟨_, _, h₁, -, rfl⟩ := Checked.seq_eq_accepted.1 h
  obtain ⟨_, _, h₂, -, rfl⟩ := Checked.seq_eq_accepted.1 h₁
  obtain ⟨_, _, h₃, -, rfl⟩ := Checked.seq_eq_accepted.1 h₂
  obtain ⟨_, _, h₄, -, rfl⟩ := Checked.seq_eq_accepted.1 h₃
  obtain ⟨_, _, h₅, -, rfl⟩ := Checked.seq_eq_accepted.1 h₄
  obtain ⟨_, config, h₆, hconfig, rfl⟩ := Checked.seq_eq_accepted.1 h₅
  obtain ⟨_, type, h₇, htype, rfl⟩ := Checked.seq_eq_accepted.1 h₆
  obtain ⟨_, label, h₈, hlabel, rfl⟩ := Checked.seq_eq_accepted.1 h₇
  obtain ⟨key, hkey, rfl⟩ := Checked.map_eq_accepted.1 h₈
  exact ⟨hkey, hlabel, htype, hconfig⟩

/-- A field is read with the key that it declares. -/
theorem valid_of_read {v : Value} {f : Field} (h : read v = .accepted f) :
    f.Valid ∧ rawFieldKey? v = some f.key := by
  cases v with
  | object entries =>
    obtain ⟨hparts, hfits⟩ := Checked.ensure_eq_accepted.1 h
    obtain ⟨hkey, -, -, hconfig⟩ := readParts_eq_accepted hparts
    obtain ⟨v, hfind, hv⟩ := Record.required_plain_eq_accepted hkey
    obtain ⟨rfl, hslug, hown⟩ := readKey_eq_accepted hv
    refine ⟨⟨hslug, hown, hfits, fun c hc => ?_⟩, ?_⟩
    · obtain ⟨_, hread⟩ := Record.optionally_eq_accepted hconfig c hc
      exact FieldConfig.valid_of_read hread
    · rw [find?_inheritType (by decide)] at hfind
      rw [rawFieldKey?, Value.get?, hfind]
      rfl
  | null | bool | int | float | text | stamp | list => cases h

end Field

/-! ### Models and components -/

/-- The keys of fields that keep the rules about all of them are no earlier keys and occur once;
components leave out those of their variants. -/
theorem nodup_of_keyIssuesFrom {kind : DefinitionKind} {i : Nat} {seen : List (String × Nat)}
    {raws : List Value} {keys : List String}
    (hkeys : List.Forall₂ (fun raw key => rawFieldKey? raw = some key) raws keys)
    (h : keyIssuesFrom kind i seen raws = []) :
    keys.Nodup ∧ (∀ key ∈ keys, seen.lookup key = none) ∧
      (kind = .component → ∀ key ∈ keys, key ∉ variantKeys) := by
  induction hkeys generalizing i seen with
  | nil => simp
  | @cons raw key raws keys hkey _ ih =>
    rw [keyIssuesFrom, hkey] at h
    simp only [List.append_eq_nil_iff] at h
    obtain ⟨⟨hduplicate, hreserved⟩, hrest⟩ := h
    have hfresh : seen.lookup key = none := by
      cases hlookup : seen.lookup key with
      | none => rfl
      | some first =>
        rw [hlookup] at hduplicate
        cases hduplicate
    rw [hfresh, Option.isSome_none, if_neg Bool.false_ne_true] at hrest
    obtain ⟨hnodup, hseen, hvariant⟩ := ih hrest
    -- the keys that follow are looked up with this one among those seen
    have hold : ∀ key' ∈ keys, key' ≠ key ∧ seen.lookup key' = none := by
      intro key' hmem
      have hlookup := hseen key' hmem
      rw [List.lookup_cons] at hlookup
      split at hlookup
      · cases hlookup
      · rename_i hne
        exact ⟨by simpa using hne, hlookup⟩
    refine ⟨List.nodup_cons.2 ⟨fun hmem => (hold key hmem).1 rfl, hnodup⟩, ?_, fun hkind => ?_⟩
    · rw [List.forall_mem_cons]
      exact ⟨hfresh, fun key' hmem => (hold key' hmem).2⟩
    · rw [List.forall_mem_cons]
      refine ⟨fun hmem => ?_, hvariant hkind⟩
      rw [if_pos ⟨hkind, hmem⟩] at hreserved
      cases hreserved

/-- The slug is one, the fields are valid and no key is taken twice. -/
structure ContentModel.Valid (m : ContentModel) : Prop where
  /-- The slug is a slug. -/
  slug : Reader.isSlug m.slug = true
  /-- The fields are valid. -/
  fields : ∀ f ∈ m.fields, f.Valid
  /-- No key is taken twice. -/
  nodup : m.fieldKeys.Nodup

/-- The slug is one, the fields are valid and no key is taken twice or belongs to variants. -/
structure Component.Valid (c : Component) : Prop where
  /-- The slug is a slug. -/
  slug : Reader.isSlug c.slug = true
  /-- The fields are valid. -/
  fields : ∀ f ∈ c.fields, f.Valid
  /-- No key is taken twice. -/
  nodup : (c.fields.map (·.key)).Nodup
  /-- No key belongs to variants. -/
  own : ∀ f ∈ c.fields, f.key ∉ variantKeys

/-- What the list of fields of an accepted definition is like. -/
theorem valid_of_fieldListIssues {kind : DefinitionKind} {entries : Entries} {fields : List Field}
    (hread : Record.required (.plain "fields") (Reader.nonEmptyList Field.read) entries =
      .accepted fields)
    (h : fieldListIssues kind entries = []) :
    (∀ f ∈ fields, f.Valid) ∧ (fields.map (·.key)).Nodup ∧
      (kind = .component → ∀ f ∈ fields, f.key ∉ variantKeys) := by
  obtain ⟨v, hfind, hv⟩ := Record.required_plain_eq_accepted hread
  obtain ⟨items, rfl, hitems⟩ := Reader.nonEmptyList_eq_accepted hv
  rw [fieldListIssues, hfind] at h
  have hkeys : List.Forall₂ (fun raw key => rawFieldKey? raw = some key) items
      (fields.map (·.key)) :=
    List.forall₂_map_right_iff.2 (hitems.imp fun _ _ hf => (Field.valid_of_read hf).2)
  obtain ⟨hnodup, -, hvariant⟩ := nodup_of_keyIssuesFrom hkeys h
  refine ⟨fun f hf => ?_, hnodup, fun hkind f hf => hvariant hkind _ (List.mem_map_of_mem hf)⟩
  obtain ⟨item, -, hitem⟩ := exists_of_mem_right hitems hf
  exact (Field.valid_of_read hitem).1

/-- An accepted definition is an object that reads as one and keeps the rules about its fields. -/
theorem checkDefinition_eq_accepted {α : Type} {kind : DefinitionKind} {read : Reader α} {v : Value}
    {a : α} (h : checkDefinition kind read v = .accepted a) :
    ∃ entries, v = .object entries ∧ read v = .accepted a ∧ fieldListIssues kind entries = [] := by
  cases v with
  | object entries =>
    obtain ⟨_, _, h₁, hissues, rfl⟩ := Checked.seq_eq_accepted.1 h
    obtain ⟨_, hread, rfl⟩ := Checked.map_eq_accepted.1 h₁
    refine ⟨entries, rfl, hread, ?_⟩
    split at hissues
    · assumption
    · cases hissues
  | null | bool | int | float | text | stamp | list => cases h

/-- A model is accepted with what is read of its entries. -/
theorem ContentModel.read_eq_accepted {entries : Entries} {m : ContentModel}
    (h : read (.object entries) = .accepted m) :
    Record.required (.plain "slug") Reader.slug entries = .accepted m.slug ∧
      Record.required (.plain "fields") (Reader.nonEmptyList Field.read) entries =
        .accepted m.fields := by
  obtain ⟨_, _, h₁, -, rfl⟩ := Checked.seq_eq_accepted.1 h
  obtain ⟨_, _, h₂, -, rfl⟩ := Checked.seq_eq_accepted.1 h₁
  obtain ⟨_, fields, h₃, hfields, rfl⟩ := Checked.seq_eq_accepted.1 h₂
  obtain ⟨_, _, h₄, -, rfl⟩ := Checked.seq_eq_accepted.1 h₃
  obtain ⟨slug, hslug, rfl⟩ := Checked.map_eq_accepted.1 h₄
  exact ⟨hslug, hfields⟩

/-- A component is accepted with what is read of its entries. -/
theorem Component.read_eq_accepted {entries : Entries} {c : Component}
    (h : read (.object entries) = .accepted c) :
    Record.required (.plain "slug") Reader.slug entries = .accepted c.slug ∧
      Record.required (.plain "fields") (Reader.nonEmptyList Field.read) entries =
        .accepted c.fields := by
  obtain ⟨_, _, h₁, -, rfl⟩ := Checked.seq_eq_accepted.1 h
  obtain ⟨_, fields, h₂, hfields, rfl⟩ := Checked.seq_eq_accepted.1 h₁
  obtain ⟨_, _, h₃, -, rfl⟩ := Checked.seq_eq_accepted.1 h₂
  obtain ⟨slug, hslug, rfl⟩ := Checked.map_eq_accepted.1 h₃
  exact ⟨hslug, hfields⟩

theorem ContentModel.valid_of_check {v : Value} {m : ContentModel} (h : check v = .accepted m) :
    m.Valid := by
  obtain ⟨entries, rfl, hread, hissues⟩ := checkDefinition_eq_accepted h
  obtain ⟨hslug, hfields⟩ := read_eq_accepted hread
  obtain ⟨_, _, -, hslug⟩ := Record.required_eq_accepted hslug
  obtain ⟨hvalid, hnodup, -⟩ := valid_of_fieldListIssues hfields hissues
  exact ⟨Reader.slug_eq_accepted hslug, hvalid, hnodup⟩

theorem Component.valid_of_check {v : Value} {c : Component} (h : check v = .accepted c) :
    c.Valid := by
  obtain ⟨entries, rfl, hread, hissues⟩ := checkDefinition_eq_accepted h
  obtain ⟨hslug, hfields⟩ := read_eq_accepted hread
  obtain ⟨_, _, -, hslug⟩ := Record.required_eq_accepted hslug
  obtain ⟨hvalid, hnodup, hown⟩ := valid_of_fieldListIssues hfields hissues
  exact ⟨Reader.slug_eq_accepted hslug, hvalid, hnodup, hown rfl⟩

theorem validateWith_eq_ok {α : Type} {kind : DefinitionKind} {check : Reader α} {raw : Value}
    {a : α} : validateWith kind check raw = .ok a ↔ check raw = .accepted a := by
  rw [validateWith]
  cases check raw <;> simp

end ContentSchema
