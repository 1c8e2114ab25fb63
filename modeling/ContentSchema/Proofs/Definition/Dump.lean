import ContentSchema.Definition.Dump
import ContentSchema.Proofs.Definition.Indifference
import ContentSchema.Proofs.Definition.Rules

/-!
# Definitions read back from their values

The value of a definition shows each key under its second spelling, missing ones as nothing, and the
unknown entries behind them.  A definition is tidy if its unknown entries have names of their own at
every level (`Entries.Foreign`); reading the value of a tidy definition gives the definition back, as
every reader accepts what it has read before.
-/

namespace ContentSchema

open Value (ofBool? ofNum? ofText? record)
open Record

/-! ### Records with unknown entries -/

/-- The entries have different names, and none of them spells one of the keys. -/
structure Entries.Foreign (keys : List Key) (entries : Entries) : Prop where
  /-- The names differ. -/
  nodup : (entries.map Prod.fst).Nodup
  /-- The names are no spellings of the keys. -/
  ne : ∀ e ∈ entries, ∀ k ∈ keys, e.1 ≠ k.primary ∧ e.1 ≠ k.other

/-- The second spellings of the keys differ, and no first spelling is that of another key. -/
def Key.Apart (keys : List Key) : Prop :=
  (keys.map Key.other).Nodup ∧ ∀ k ∈ keys, ∀ l ∈ keys, k.primary = l.other → k = l

instance (keys : List Key) : Decidable (Key.Apart keys) := inferInstanceAs (Decidable (_ ∧ _))

theorem Entries.find?_eq_of_mem {entries : Entries} {name : String} {v : Value}
    (hnodup : (entries.map Prod.fst).Nodup) (h : (name, v) ∈ entries) :
    entries.find? name = some v := by
  induction entries with
  | nil => cases h
  | cons e entries ih =>
    obtain ⟨hne, hnodup⟩ := List.nodup_cons.1 hnodup
    rw [find?_cons]
    rcases List.mem_cons.1 h with rfl | h
    · exact if_pos rfl
    · have hname : e.1 ≠ name := fun heq => hne (List.mem_map.2 ⟨_, h, heq.symm⟩)
      rw [if_neg hname, ih hnodup h]

theorem Entries.find?_eq_none_iff {entries : Entries} {name : String} :
    entries.find? name = none ↔ ∀ e ∈ entries, e.1 ≠ name := by
  rw [find?, Option.map_eq_none_iff, List.find?_eq_none]
  simp only [beq_iff_eq]

theorem Key.uses_iff {k : Key} {entries : Entries} {name : String} :
    k.uses entries name = true ↔ ∃ v, k.find? entries = some (name, v) := by
  rw [uses, Option.any_eq_true]
  constructor
  · rintro ⟨⟨spelling, v⟩, hfind, hname⟩
    exact ⟨v, by rw [hfind, ← beq_iff_eq.1 hname]⟩
  · rintro ⟨v, hfind⟩
    exact ⟨_, hfind, beq_self_eq_true name⟩

/-- A key is found under one of its spellings. -/
theorem Key.of_find?_eq_some {k : Key} {entries : Entries} {name : String} {v : Value}
    (h : k.find? entries = some (name, v)) :
    (name = k.primary ∨ name = k.other) ∧ entries.find? name = some v := by
  rw [find?] at h
  split at h
  · rename_i hprimary
    cases h
    exact ⟨Or.inl rfl, hprimary⟩
  · obtain ⟨v', hother, heq⟩ := Option.map_eq_some_iff.1 h
    cases heq
    exact ⟨Or.inr rfl, hother⟩

section Record

variable {keys : List Key} {known extras : Entries}

/-- Each key is found under its second spelling: the first one is a name of no entry, unless it is
the only spelling. -/
theorem find?_of_mem_zip (hpaired : List.Forall₂ (fun k e => k.other = e.1) keys known)
    (hnodup : ((known ++ extras).map Prod.fst).Nodup) (hkeys : Key.Apart keys)
    (h : extras.Foreign keys) :
    ∀ p ∈ keys.zip known, p.1.find? (known ++ extras) = some (p.1.other, p.2.2) := by
  rintro ⟨k, name, v⟩ hp
  obtain ⟨hk, hmem⟩ := List.of_mem_zip hp
  obtain rfl : k.other = name := (List.forall₂_iff_zip.1 hpaired).2 hp
  have hother : Entries.find? (known ++ extras) k.other = some v :=
    Entries.find?_eq_of_mem hnodup (List.mem_append_left _ hmem)
  rw [Key.find?]
  by_cases hone : k.primary = k.other
  · rw [hone, hother]
  · have hprimary : Entries.find? (known ++ extras) k.primary = none := by
      refine Entries.find?_eq_none_iff.2 fun e he heq => ?_
      rcases List.mem_append.1 he with he | he
      · obtain ⟨l, hl, hname⟩ := exists_of_mem_right hpaired he
        obtain rfl := hkeys.2 k hk l hl (heq.symm.trans hname.symm)
        exact hone (heq.symm.trans hname.symm)
      · exact (h.ne e he k hk).1 heq
    rw [hprimary, hother]
    rfl

/-- If each key is found under its second spelling, the other entries are unknown. -/
theorem unknown_append_eq (hpaired : List.Forall₂ (fun k e => k.other = e.1) keys known)
    (hfind : ∀ p ∈ keys.zip known, p.1.find? (known ++ extras) = some (p.1.other, p.2.2))
    (h : extras.Foreign keys) : Entries.unknown keys (known ++ extras) = extras := by
  have hknown : ∀ e ∈ known, (!keys.any fun k => k.uses (known ++ extras) e.1) = false := by
    intro e he
    obtain ⟨i, hi, rfl⟩ := List.getElem_of_mem he
    have hi' : i < keys.length := by rwa [hpaired.length_eq]
    have hp : (keys[i], known[i]) ∈ keys.zip known := by
      rw [← List.getElem_zip (h := by rw [List.length_zip]; omega)]
      exact List.getElem_mem _
    rw [Bool.not_eq_false', List.any_eq_true]
    refine ⟨keys[i], List.getElem_mem _, Key.uses_iff.2 ⟨known[i].2, ?_⟩⟩
    rw [hfind _ hp, (List.forall₂_iff_zip.1 hpaired).2 hp]
  have hextras : ∀ e ∈ extras, (!keys.any fun k => k.uses (known ++ extras) e.1) = true := by
    intro e he
    rw [Bool.not_eq_true', List.any_eq_false]
    intro k hk huses
    obtain ⟨v, hv⟩ := Key.uses_iff.1 huses
    exact (Key.of_find?_eq_some hv).1.elim (h.ne e he k hk).1 (h.ne e he k hk).2
  rw [Entries.unknown, List.filter_append, List.filter_eq_nil_iff.2 (by simpa using hknown),
    List.filter_eq_self.2 hextras, List.nil_append]

variable (keys) in
/-- In a record each key is there under its second spelling, and the other entries are unknown. -/
theorem exists_record_eq {v : Value} (hv : v = record known extras)
    (hnames : keys.map Key.other = known.map Prod.fst) (hkeys : Key.Apart keys)
    (h : extras.Foreign keys) :
    ∃ entries : Entries, v = .object entries ∧
      (∀ p ∈ keys.zip known, p.1.find? entries = some (p.1.other, p.2.2)) ∧
      entries.unknown keys = extras := by
  have hpaired : List.Forall₂ (fun k e => k.other = e.1) keys known :=
    List.forall₂_map_left_iff.1 <| List.forall₂_map_right_iff.1 <| by
      rw [hnames, List.forall₂_eq_eq_eq]
  have hnodup : ((known ++ extras).map Prod.fst).Nodup := by
    rw [List.map_append, ← hnames, List.nodup_append]
    refine ⟨hkeys.1, h.nodup, ?_⟩
    rintro _ hk _ he rfl
    obtain ⟨k, hk, hname⟩ := List.mem_map.1 hk
    obtain ⟨e, he, heq⟩ := List.mem_map.1 he
    exact (h.ne e he k hk).2 (heq.trans hname.symm)
  have hfind := find?_of_mem_zip hpaired hnodup hkeys h
  exact ⟨known ++ extras, hv.trans (congrArg Value.object (foldl_putBy_of_nodup hnodup)), hfind,
    unknown_append_eq hpaired hfind h⟩

theorem record_ne_null : record known extras ≠ .null := nofun

variable (keys) in
/-- A record is read through its keys and its unknown entries. -/
theorem read_record {α : Type} {read : Reader α} {a : α}
    (hnames : keys.map Key.other = known.map Prod.fst) (hkeys : Key.Apart keys)
    (h : extras.Foreign keys)
    (hread : ∀ entries : Entries,
      (∀ p ∈ keys.zip known, p.1.find? entries = some (p.1.other, p.2.2)) →
      entries.unknown keys = extras → read (.object entries) = .accepted a) :
    read (record known extras) = .accepted a := by
  obtain ⟨entries, hrecord, hfind, hunknown⟩ := exists_record_eq keys rfl hnames hkeys h
  rw [hrecord]
  exact hread entries hfind hunknown

end Record

/-! ### Values of single keys -/

namespace Reader

variable {α : Type} {read : Reader α} {toValue : α → Value}

theorem within_accepted (segment : String) (a : α) :
    (Checked.accepted a).within segment = .accepted a := rfl

theorem nullable_ofBool? (b : Option Bool) : nullable bool (ofBool? b) = .accepted b := by
  cases b <;> rfl

theorem nullable_ofNum? (n : Option Num) : nullable num (ofNum? n) = .accepted n := by
  rcases n with _ | _ | _ <;> rfl

theorem nullable_ofText? (s : Option String) : nullable text (ofText? s) = .accepted s := by
  cases s <;> rfl

theorem nonEmptyText_text {s : String} (h : s ≠ "") : nonEmptyText (.text s) = .accepted s :=
  Checked.ensure_eq_accepted.2 ⟨rfl, if_neg h⟩

theorem slug_text {s : String} (h : isSlug s = true) : slug (.text s) = .accepted s :=
  Checked.ensure_eq_accepted.2 ⟨rfl, if_pos h⟩

theorem intBetween_int {least greatest n : Int} (h : least ≤ n ∧ n ≤ greatest) :
    intBetween least greatest (.int n) = .accepted n := by
  refine Checked.ensure_eq_accepted.2 ⟨rfl, ?_⟩
  rw [if_neg (by omega), if_neg (by omega)]

/-- A part that may be missing is read back if it is, where it is there, and shows as something. -/
theorem nullable_map {o : Option α} (hread : ∀ a ∈ o, read (toValue a) = .accepted a)
    (hnull : ∀ a, toValue a ≠ .null) :
    nullable read ((o.map toValue).getD .null) = .accepted o := by
  cases o with
  | none => rfl
  | some a =>
    rw [Option.map_some, Option.getD_some, nullable.eq_def]
    split
    · rename_i heq
      exact absurd heq (hnull a)
    · rw [hread a rfl]
      rfl

theorem traverse_map {as : List α} (h : ∀ a ∈ as, read (toValue a) = .accepted a) (i : Nat) :
    Checked.traverse (fun _ v => read v) i (as.map toValue) = .accepted as := by
  induction as generalizing i with
  | nil => rfl
  | cons a as ih =>
    rw [List.map_cons, Checked.traverse, h a List.mem_cons_self,
      ih fun b hb => h b (List.mem_cons_of_mem _ hb)]
    rfl

theorem list_map {as : List α} (h : ∀ a ∈ as, read (toValue a) = .accepted a) :
    list read (.list (as.map toValue)) = .accepted as :=
  traverse_map h 0

theorem nonEmptyList_map {as : List α} (hne : as ≠ [])
    (h : ∀ a ∈ as, read (toValue a) = .accepted a) :
    nonEmptyList read (.list (as.map toValue)) = .accepted as :=
  Checked.ensure_eq_accepted.2 ⟨list_map h, by simp [hne]⟩

end Reader

open Reader

theorem Cardinality.oneOf_name (c : Cardinality) : oneOf all name (.text c.name) = .accepted c := by
  cases c <;> rfl

theorem CascadePolicy.oneOf_name (p : CascadePolicy) :
    oneOf all name (.text p.name) = .accepted p := by
  cases p <;> rfl

theorem DateFormat.oneOf_name (f : DateFormat) : oneOf all name (.text f.name) = .accepted f := by
  cases f <;> rfl

theorem FieldType.oneOf_name (t : FieldType) : oneOf all name (.text t.name) = .accepted t := by
  cases t <;> rfl

theorem NumberFormat.nullable_name (f : Option NumberFormat) :
    nullable (oneOf all name) (ofText? (f.map (·.name))) = .accepted f := by
  rcases f with _ | _ | _ | _ | _ <;> rfl

/-! ### Rules, settings and contexts -/

theorem FieldRules.read_toValue {r : FieldRules} (h : r.extras.Foreign keys) :
    read r.toValue = .accepted r := by
  refine read_record keys rfl (by decide) h fun entries hfind hunknown => ?_
  simp only [keys, List.zip_cons_cons, List.forall_mem_cons] at hfind
  simp only [read, object, optionally, defaulted, hfind, within_accepted, nullable_ofNum?,
    nullable_ofBool?, nullable_ofText?, keepUnknown, hunknown]
  rfl

theorem ModelSettings.read_toValue {s : ModelSettings} (h : s.extras.Foreign keys) :
    read s.toValue = .accepted s := by
  refine read_record keys rfl (by decide) h fun entries hfind hunknown => ?_
  simp only [keys, List.zip_cons_cons, List.forall_mem_cons] at hfind
  simp only [read, object, optionally, defaulted, hfind, within_accepted, nullable_ofBool?,
    nullable_ofText?, keepUnknown, hunknown]
  rfl

theorem PromptContext.read_toValue {c : PromptContext} (h : c.extras.Foreign keys) :
    read c.toValue = .accepted c := by
  refine read_record keys rfl (by decide) h fun entries hfind hunknown => ?_
  simp only [keys, List.zip_cons_cons, List.forall_mem_cons] at hfind
  simp only [read, object, required, defaulted, hfind, within_accepted, Reader.text, Reader.bool,
    keepUnknown, hunknown]
  rfl

/-- The number of variants is allowed, and the unknown entries have names of their own. -/
structure VariantContext.Tidy (c : VariantContext) : Prop where
  /-- The number of variants is allowed. -/
  count : 2 ≤ c.variantCount ∧ c.variantCount ≤ 5
  /-- The unknown entries have names of their own. -/
  foreign : c.extras.Foreign keys

theorem VariantContext.Tidy.read_toValue {c : VariantContext} (h : c.Tidy) :
    read c.toValue = .accepted c := by
  refine read_record keys rfl (by decide) h.foreign fun entries hfind hunknown => ?_
  simp only [keys, List.zip_cons_cons, List.forall_mem_cons] at hfind
  simp only [read, object, defaulted, hfind, within_accepted, Reader.bool, intBetween_int h.count,
    keepUnknown, hunknown]
  rfl

/-- The contexts inside are tidy, and the unknown entries have names of their own. -/
structure ComponentContext.Tidy (c : ComponentContext) : Prop where
  /-- Drafting leaves no doubts. -/
  prompt : ∀ p ∈ c.prompt, p.extras.Foreign PromptContext.keys
  /-- Variants leave no doubts. -/
  variants : ∀ v ∈ c.variants, v.Tidy
  /-- The unknown entries have names of their own. -/
  foreign : c.extras.Foreign keys

theorem ComponentContext.Tidy.read_toValue {c : ComponentContext} (h : c.Tidy) :
    read c.toValue = .accepted c := by
  have hprompt := nullable_map (fun p hp => PromptContext.read_toValue (h.prompt p hp)) fun _ =>
    record_ne_null
  have hvariants := nullable_map (fun v hv => (h.variants v hv).read_toValue) fun _ =>
    record_ne_null
  refine read_record keys rfl (by decide) h.foreign fun entries hfind hunknown => ?_
  simp only [keys, List.zip_cons_cons, List.forall_mem_cons] at hfind
  simp only [read, object, optionally, defaulted, hfind, within_accepted, hprompt, hvariants,
    keepUnknown, hunknown]
  rfl

/-! ### Configurations -/

/-- A choice without a label, or one whose unknown entries have names of their own. -/
def SelectOption.Tidy : SelectOption → Prop
  | plain _ => True
  | labelled _ _ extras => extras.Foreign keys

theorem SelectOption.Tidy.read_toValue {o : SelectOption} (h : o.Tidy) :
    SelectOption.read o.toValue = .accepted o := by
  cases o with
  | plain value => rfl
  | labelled value label extras =>
    refine read_record keys rfl (by decide) h fun entries hfind hunknown => ?_
    simp only [keys, List.zip_cons_cons, List.forall_mem_cons] at hfind
    have hlabelled : readLabelled (.object entries) = .accepted (labelled value label extras) := by
      simp only [readLabelled, object, required, hfind, within_accepted, Reader.text, keepUnknown,
        hunknown]
      rfl
    rw [SelectOption.read, Reader.either, hlabelled]
    rfl

theorem SelectDefault.read_toValue (d : SelectDefault) : read d.toValue = .accepted d := by
  cases d with
  | one value => rfl
  | many values =>
    have hvalues : Reader.list Reader.text (.list (values.map .text)) = .accepted values :=
      list_map fun _ _ => rfl
    rw [read, Reader.either, toValue, Value.ofTexts, hvalues]
    rfl

theorem SelectDefault.toValue_ne_null (d : SelectDefault) : d.toValue ≠ .null := by
  cases d <;> exact nofun

namespace FieldConfig

/-- What a configuration refers to is there, its choices and its context are tidy, and its unknown
entries have names of their own. -/
structure Tidy (c : FieldConfig) : Prop where
  /-- The target or the slug is there. -/
  valid : c.Valid
  /-- There are choices, all of them tidy. -/
  options : ∀ s, c = .select s → s.options ≠ [] ∧ ∀ o ∈ s.options, o.Tidy
  /-- The context of a component is tidy. -/
  context : ∀ s, c = .component s → ∀ x ∈ s.context, x.Tidy
  /-- The unknown entries have names of their own. -/
  foreign : c.extras.Foreign (keys c.type)

/-- A configuration that names a type is read as that type. -/
theorem read_of_type {entries : Entries} {type : FieldType}
    (h : entries.find? "type" = some (.text type.name)) :
    read (.object entries) = (readAs type (.object entries)).within type.name := by
  have htype : typeOf? (some (.text type.name)) = some type := FieldType.ofName?_name type
  rw [read_object, h]
  dsimp only
  rw [htype]

theorem Tidy.readAs_object {c : FieldConfig} (h : c.Tidy) {entries : Entries}
    (hfind : ∀ p ∈ (keys c.type).zip (("type", .text c.type.name) :: c.parts.1),
      p.1.find? entries = some (p.1.other, p.2.2))
    (hunknown : entries.unknown (keys c.type) = c.extras) :
    readAs c.type (.object entries) = .accepted c := by
  have hliteral : ∀ name, oneOf [()] (fun _ => name) (.text name) = .accepted () := by
    intro name
    simp [oneOf, Value.asText?]
  cases c with
  | text c =>
    simp only [type, keys] at hfind hunknown
    simp only [TextConfig.keys, parts, List.zip_cons_cons, List.forall_mem_cons] at hfind
    simp only [type, readAs, TextConfig.read, object, literal, optionally, defaulted, hfind,
      within_accepted, FieldType.name, hliteral, nullable_ofBool?, nullable_ofText?, keepUnknown,
      hunknown]
    rfl
  | rich c | json c =>
    simp only [type, keys] at hfind hunknown
    simp only [parts, List.zip_cons_cons, List.forall_mem_cons] at hfind
    simp only [type, readAs, BareConfig.read, object, literal, defaulted, hfind,
      within_accepted, FieldType.name, hliteral, keepUnknown, hunknown]
    rfl
  | number c =>
    simp only [type, keys] at hfind hunknown
    simp only [NumberConfig.keys, parts, List.zip_cons_cons, List.forall_mem_cons] at hfind
    simp only [type, readAs, NumberConfig.read, object, literal, optionally, defaulted, hfind,
      within_accepted, FieldType.name, hliteral, nullable_ofNum?, NumberFormat.nullable_name,
      keepUnknown, hunknown]
    rfl
  | boolean c =>
    simp only [type, keys] at hfind hunknown
    simp only [BooleanConfig.keys, parts, List.zip_cons_cons, List.forall_mem_cons] at hfind
    simp only [type, readAs, BooleanConfig.read, object, literal, optionally, defaulted, hfind,
      within_accepted, FieldType.name, hliteral, nullable_ofBool?, keepUnknown, hunknown]
    rfl
  | select c =>
    obtain ⟨hne, hoptions⟩ := h.options c rfl
    have hlist := nonEmptyList_map hne fun o ho => (hoptions o ho).read_toValue
    have hdefault := nullable_map (o := c.default) (fun d _ => d.read_toValue)
      SelectDefault.toValue_ne_null
    simp only [type, keys] at hfind hunknown
    simp only [SelectConfig.keys, parts, List.zip_cons_cons, List.forall_mem_cons] at hfind
    simp only [type, readAs, SelectConfig.read, object, literal, required, optionally, defaulted,
      hfind, within_accepted, FieldType.name, hliteral, Reader.bool, hlist, hdefault, keepUnknown,
      hunknown]
    rfl
  | media c =>
    simp only [type, keys] at hfind hunknown
    simp only [MediaConfig.keys, parts, List.zip_cons_cons, List.forall_mem_cons] at hfind
    simp only [type, readAs, MediaConfig.read, object, literal, defaulted, hfind, within_accepted,
      FieldType.name, hliteral, Reader.bool, keepUnknown, hunknown]
    rfl
  | relation c =>
    simp only [type, keys] at hfind hunknown
    simp only [RelationConfig.keys, parts, List.zip_cons_cons, List.forall_mem_cons] at hfind
    simp only [type, readAs, RelationConfig.read, object, literal, required, optionally, defaulted,
      hfind, within_accepted, FieldType.name, hliteral, Cardinality.oneOf_name,
      nonEmptyText_text h.valid, nullable_ofText?, CascadePolicy.oneOf_name, keepUnknown, hunknown]
    rfl
  | date c =>
    simp only [type, keys] at hfind hunknown
    simp only [DateConfig.keys, parts, List.zip_cons_cons, List.forall_mem_cons] at hfind
    simp only [type, readAs, DateConfig.read, object, literal, optionally, defaulted, hfind,
      within_accepted, FieldType.name, hliteral, DateFormat.oneOf_name, nullable_ofText?,
      keepUnknown, hunknown]
    rfl
  | component c =>
    have hcontext := nullable_map (fun x hx => (h.context c rfl x hx).read_toValue) fun _ =>
      record_ne_null
    simp only [type, keys] at hfind hunknown
    simp only [ComponentConfig.keys, parts, List.zip_cons_cons, List.forall_mem_cons] at hfind
    simp only [type, readAs, ComponentConfig.read, object, literal, required, optionally, defaulted,
      hfind, within_accepted, FieldType.name, hliteral, slug_text h.valid, Reader.bool, hcontext,
      keepUnknown, hunknown]
    rfl

theorem Tidy.exists_toValue_eq {c : FieldConfig} (h : c.Tidy) :
    ∃ entries : Entries, c.toValue = .object entries ∧
      entries.find? "type" = some (.text c.type.name) ∧ read (.object entries) = .accepted c := by
  have hnames : (keys c.type).map Key.other =
      (("type", Value.text c.type.name) :: c.parts.1).map Prod.fst := by
    cases c <;> rfl
  have hkeys : Key.Apart (keys c.type) := by
    cases c <;> (dsimp only [type, keys]; decide)
  obtain ⟨entries, hrecord, hfind, hunknown⟩ :=
    exists_record_eq (v := c.toValue) _ rfl hnames hkeys h.foreign
  obtain ⟨rest, hrest⟩ : ∃ rest, keys c.type = typeKey :: rest := by
    cases c <;> exact ⟨_, rfl⟩
  have htype : entries.find? "type" = some (.text c.type.name) := by
    have hhead := hfind (typeKey, "type", .text c.type.name) (by rw [hrest]; simp)
    exact (Key.of_find?_eq_some hhead).2
  refine ⟨entries, hrecord, htype, ?_⟩
  rw [read_of_type htype, h.readAs_object hfind hunknown]
  rfl

theorem Tidy.read_toValue {c : FieldConfig} (h : c.Tidy) : read c.toValue = .accepted c := by
  obtain ⟨entries, hvalue, -, hread⟩ := h.exists_toValue_eq
  rw [hvalue, hread]

end FieldConfig

/-! ### Fields -/

namespace Field

/-- The field is valid and labelled, its configuration is tidy, and the unknown entries at every
level have names of their own. -/
structure Tidy (f : Field) : Prop where
  /-- The field is valid. -/
  valid : f.Valid
  /-- There is a label. -/
  label : f.label ≠ ""
  /-- The configuration is tidy. -/
  config : ∀ c ∈ f.config, c.Tidy
  /-- The unknown entries of the rules have names of their own. -/
  rules : ∀ r ∈ f.rules, r.extras.Foreign FieldRules.keys
  /-- The unknown entries have names of their own. -/
  foreign : f.extras.Foreign keys

variable {f : Field}

theorem readKey_text {key : String} (hslug : Reader.isSlug key = true) (hown : key ∉ systemKeys) :
    readKey (.text key) = .accepted key := by
  have hne : key ≠ "" := by
    rintro rfl
    cases hslug
  refine Checked.ensure_eq_accepted.2
    ⟨Checked.ensure_eq_accepted.2 ⟨nonEmptyText_text hne, ?_⟩, ?_⟩
  · rw [if_pos hslug]
  · rw [if_neg hown]

/-- A configuration that names its type is left as it is. -/
theorem inheritType_eq_self {entries : Entries}
    (h : ∀ config, entries.find? "config" = some (.object config) →
      Entries.has config "type" = true) :
    inheritType entries = entries := by
  rw [inheritType]
  split
  · rename_i config type hconfig _
    rw [if_pos (h config hconfig)]
  · rfl

/-- The configuration of a field as a value names its type. -/
theorem Tidy.has_type_of_toValue (h : f.Tidy) {config : Entries}
    (hconfig : (f.config.map (·.toValue)).getD .null = .object config) :
    Entries.has config "type" = true := by
  cases hc : f.config with
  | none =>
    rw [hc] at hconfig
    cases hconfig
  | some c =>
    obtain ⟨own, hvalue, htype, -⟩ := (h.config c hc).exists_toValue_eq
    rw [hc, Option.map_some, Option.getD_some, hvalue] at hconfig
    cases hconfig
    rw [Entries.has_iff_find?_isSome, htype]
    rfl

theorem Tidy.exists_toValue_eq (h : f.Tidy) : ∃ entries : Entries, f.toValue = .object entries ∧
    entries.find? "key" = some (.text f.key) ∧ read (.object entries) = .accepted f := by
  obtain ⟨entries, hvalue, hfind, hunknown⟩ :=
    exists_record_eq (v := f.toValue) keys rfl rfl (by decide) h.foreign
  simp only [keys, List.zip_cons_cons, List.forall_mem_cons] at hfind
  have hconfig := nullable_map (fun c hc => (h.config c hc).read_toValue) fun _ => record_ne_null
  have hrules := nullable_map (fun r hr => FieldRules.read_toValue (h.rules r hr)) fun _ =>
    record_ne_null
  have hkey : entries.find? "key" = some (.text f.key) := (Key.of_find?_eq_some hfind.1).2
  have hinherit : inheritType entries = entries := by
    have hown : entries.find? "config" = some ((f.config.map (·.toValue)).getD .null) :=
      (Key.of_find?_eq_some hfind.2.2.2.1).2
    refine inheritType_eq_self fun config hfound => ?_
    rw [hown] at hfound
    exact h.has_type_of_toValue (Option.some.inj hfound)
  have hparts : readParts entries = .accepted f := by
    simp only [readParts, Record.required, optionally, defaulted, hfind, within_accepted,
      readKey_text h.valid.slug h.valid.own, nonEmptyText_text h.label, FieldType.oneOf_name,
      hconfig, Reader.bool, hrules, keepUnknown, hunknown]
    rfl
  refine ⟨entries, hvalue, hkey, ?_⟩
  rw [read, object, hinherit]
  exact Checked.ensure_eq_accepted.2 ⟨hparts, h.valid.fits⟩

theorem Tidy.read_toValue (h : f.Tidy) : read f.toValue = .accepted f := by
  obtain ⟨entries, hvalue, -, hread⟩ := h.exists_toValue_eq
  rw [hvalue, hread]

end Field

/-! ### Models and components -/

/-- Raw fields with keys of their own, none of them seen before or used by variants, leave nothing
to report. -/
theorem keyIssuesFrom_eq_nil {kind : DefinitionKind} {raws : List Value} {keys : List String}
    (hkeys : List.Forall₂ (fun raw key => rawFieldKey? raw = some key) raws keys)
    (hnodup : keys.Nodup) (hvariant : kind = .component → ∀ key ∈ keys, key ∉ variantKeys)
    {seen : List (String × Nat)} (hseen : ∀ key ∈ keys, seen.lookup key = none) (i : Nat) :
    keyIssuesFrom kind i seen raws = [] := by
  induction hkeys generalizing i seen with
  | nil => rfl
  | @cons raw key raws keys hkey _ ih =>
    obtain ⟨hne, hnodup⟩ := List.nodup_cons.1 hnodup
    have hfresh : seen.lookup key = none := hseen key List.mem_cons_self
    have hown : ¬(kind = .component ∧ key ∈ variantKeys) := fun ⟨hkind, hmem⟩ =>
      hvariant hkind key List.mem_cons_self hmem
    have hrest : keyIssuesFrom kind (i + 1) ((key, i) :: seen) raws = [] := by
      refine ih hnodup (fun hkind key' hmem => hvariant hkind key' (List.mem_cons_of_mem _ hmem))
        (fun key' hmem => ?_) (i + 1)
      have hother : (key' == key) = false := beq_false_of_ne (ne_of_mem_of_not_mem hmem hne)
      rw [List.lookup_cons, hother]
      exact hseen key' (List.mem_cons_of_mem _ hmem)
    rw [keyIssuesFrom, hkey]
    simp only [hfresh, Option.isSome_none, if_neg Bool.false_ne_true, if_neg hown, hrest,
      List.append_nil]

theorem fieldListIssues_eq_nil {kind : DefinitionKind} {entries : Entries} {fields : List Field}
    (hfind : entries.find? "fields" = some (.list (fields.map (·.toValue))))
    (htidy : ∀ f ∈ fields, f.Tidy) (hnodup : (fields.map (·.key)).Nodup)
    (hvariant : kind = .component → ∀ f ∈ fields, f.key ∉ variantKeys) :
    fieldListIssues kind entries = [] := by
  have hkeys : List.Forall₂ (fun raw key => rawFieldKey? raw = some key)
      (fields.map (·.toValue)) (fields.map (·.key)) := by
    rw [List.forall₂_map_left_iff, List.forall₂_map_right_iff, List.forall₂_same]
    intro f hf
    obtain ⟨own, hvalue, hkey, -⟩ := (htidy f hf).exists_toValue_eq
    rw [hvalue, rawFieldKey?, Value.get?, hkey]
    rfl
  rw [fieldListIssues, hfind]
  refine keyIssuesFrom_eq_nil hkeys hnodup (fun hkind => ?_) (fun _ _ => rfl) 0
  exact List.forall_mem_map.2 (hvariant hkind)

/-- The model is valid and named, its fields are tidy, and the unknown entries at every level have
names of their own. -/
structure ContentModel.Tidy (m : ContentModel) : Prop where
  /-- The model is valid. -/
  valid : m.Valid
  /-- There is a name. -/
  name : m.name ≠ ""
  /-- There are fields. -/
  nonempty : m.fields ≠ []
  /-- The fields are tidy. -/
  fields : ∀ f ∈ m.fields, f.Tidy
  /-- The unknown entries of the settings have names of their own. -/
  settings : m.settings.extras.Foreign ModelSettings.keys
  /-- The unknown entries have names of their own. -/
  foreign : m.extras.Foreign keys

/-- The component is valid and named, its fields are tidy, and the unknown entries at every level
have names of their own. -/
structure Component.Tidy (c : Component) : Prop where
  /-- The component is valid. -/
  valid : c.Valid
  /-- There is a name. -/
  name : c.name ≠ ""
  /-- There are fields. -/
  nonempty : c.fields ≠ []
  /-- The fields are tidy. -/
  fields : ∀ f ∈ c.fields, f.Tidy
  /-- The unknown entries have names of their own. -/
  foreign : c.extras.Foreign keys

/-- A definition is accepted that is read from an object and keeps the rules about its fields. -/
theorem checkDefinition_object {α : Type} {kind : DefinitionKind} {read : Reader α}
    {entries : Entries} {a : α} (hread : read (.object entries) = .accepted a)
    (hissues : fieldListIssues kind entries = []) :
    checkDefinition kind read (.object entries) = .accepted a := by
  rw [checkDefinition, hread, hissues]
  rfl

theorem ContentModel.Tidy.check_toValue {m : ContentModel} (h : m.Tidy) :
    check m.toValue = .accepted m := by
  have hfields := nonEmptyList_map h.nonempty fun f hf => (h.fields f hf).read_toValue
  refine read_record keys rfl (by decide) h.foreign fun entries hfind hunknown => ?_
  simp only [keys, List.zip_cons_cons, List.forall_mem_cons] at hfind
  have hlist : entries.find? "fields" = some (.list (m.fields.map (·.toValue))) :=
    (Key.of_find?_eq_some hfind.2.2.1).2
  refine checkDefinition_object ?_ (fieldListIssues_eq_nil hlist h.fields h.valid.nodup nofun)
  simp only [read, object, required, defaulted, hfind, within_accepted, slug_text h.valid.slug,
    nonEmptyText_text h.name, hfields, ModelSettings.read_toValue h.settings, keepUnknown, hunknown]
  rfl

theorem Component.Tidy.check_toValue {c : Component} (h : c.Tidy) :
    check c.toValue = .accepted c := by
  have hfields := nonEmptyList_map h.nonempty fun f hf => (h.fields f hf).read_toValue
  refine read_record keys rfl (by decide) h.foreign fun entries hfind hunknown => ?_
  simp only [keys, List.zip_cons_cons, List.forall_mem_cons] at hfind
  have hlist : entries.find? "fields" = some (.list (c.fields.map (·.toValue))) :=
    (Key.of_find?_eq_some hfind.2.2.1).2
  refine checkDefinition_object ?_
    (fieldListIssues_eq_nil hlist h.fields h.valid.nodup fun _ => h.valid.own)
  simp only [read, object, required, hfind, within_accepted, slug_text h.valid.slug,
    nonEmptyText_text h.name, hfields, keepUnknown, hunknown]
  rfl

end ContentSchema
