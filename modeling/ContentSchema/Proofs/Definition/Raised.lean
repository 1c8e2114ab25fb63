import ContentSchema.Definition.Validation

/-!
# Issues that readers raise

A reader finds fault with the value itself, sees the issues of a part from one level further out, or
has those of several parts (`Issue.Raised`).  Whatever a definition is rejected for when it is read
is raised in this way (`ContentModel.raises_read`, `Component.raises_read`), so that what is told of
raised issues by induction is told of all readers.
-/

namespace ContentSchema

variable {α β : Type}

/-! ### Faults of one place -/

namespace Fault

/-- Whether a key is said to be declared before. -/
def isDuplicate : Fault → Bool
  | duplicateKey .. => true
  | _ => false

/-- Whether a key is said to belong to variants. -/
def isReserved : Fault → Bool
  | variantKey _ => true
  | _ => false

/-- The fault is of neither rule about the keys of all fields. -/
def IsLocal (f : Fault) : Prop := f.isDuplicate = false ∧ f.isReserved = false

theorem isLocal_some {f : Fault} (h : f.IsLocal) : ∀ found ∈ some f, found.IsLocal := by
  rintro _ ⟨⟩
  exact h

theorem isLocal_none : ∀ found ∈ (none : Option Fault), found.IsLocal := by
  rintro _ ⟨⟩

/-- A fault that depends on a condition is of neither rule in both cases. -/
theorem isLocal_ite {p : Prop} [Decidable p] {x y : Option Fault} (hx : ∀ f ∈ x, f.IsLocal)
    (hy : ∀ f ∈ y, f.IsLocal) : ∀ f ∈ (if p then x else y), f.IsLocal := by
  split
  · exact hx
  · exact hy

end Fault

/-- Issues that a reader raises: a fault of the value itself, issues of a part, or issues of several
parts. -/
inductive Issue.Raised : List Issue → Prop where
  /-- A fault of the value itself. -/
  | single {fault : Fault} (h : fault.IsLocal) : Raised [⟨[], fault⟩]
  /-- The issues of a part. -/
  | within {issues : List Issue} (segment : String) (h : Raised issues) :
    Raised (issues.map (·.within segment))
  /-- The issues of several parts. -/
  | append {issues more : List Issue} (h : Raised issues) (hmore : Raised more) :
    Raised (issues ++ more)

namespace Issue.Raised

variable {issues : List Issue}

theorem ne_nil (h : Raised issues) : issues ≠ [] := by
  induction h with
  | single h => exact List.cons_ne_nil _ _
  | within segment _ ih => exact fun hnil => ih (List.map_eq_nil_iff.1 hnil)
  | append _ _ ih _ => exact fun hnil => ih (List.append_eq_nil_iff.1 hnil).1

/-- No reader compares the keys of fields. -/
theorem isLocal (h : Raised issues) : ∀ i ∈ issues, i.fault.IsLocal := by
  induction h with
  | single h => exact List.forall_mem_singleton.2 h
  | within segment _ ih => exact List.forall_mem_map.2 ih
  | append _ _ ih ih' => exact List.forall_mem_append.2 ⟨ih, ih'⟩

end Issue.Raised

/-! ### Checked results -/

namespace Checked

/-- Whatever the result is rejected for is raised. -/
def Raised (x : Checked α) : Prop := ∀ issues, x = .rejected issues → Issue.Raised issues

theorem raised_accepted (a : α) : (accepted a).Raised := by
  rintro issues ⟨⟩

theorem raised_rejected {issues : List Issue} (h : Issue.Raised issues) :
    (rejected issues : Checked α).Raised := by
  rintro _ ⟨⟩
  exact h

theorem raised_fail {fault : Fault} (h : fault.IsLocal) : (fail fault : Checked α).Raised :=
  raised_rejected (.single h)

theorem Raised.map {x : Checked α} (h : x.Raised) (f : α → β) : (f <$> x).Raised := by
  cases x with
  | accepted a => exact raised_accepted (f a)
  | rejected issues => exact raised_rejected (h issues rfl)

theorem Raised.seq {f : Checked (α → β)} {x : Checked α} (hf : f.Raised) (hx : x.Raised) :
    (f <*> x).Raised := by
  cases f with
  | accepted f => exact hx.map f
  | rejected issues =>
    cases x with
    | accepted a => exact raised_rejected (hf issues rfl)
    | rejected more => exact raised_rejected ((hf issues rfl).append (hx more rfl))

theorem Raised.within {x : Checked α} (h : x.Raised) (segment : String) :
    (x.within segment).Raised := by
  cases x with
  | accepted a => exact raised_accepted a
  | rejected issues => exact raised_rejected ((h issues rfl).within segment)

theorem Raised.ensure {x : Checked α} (h : x.Raised) {test : α → Option Fault}
    (htest : ∀ a, ∀ fault ∈ test a, fault.IsLocal) : (x.ensure test).Raised := by
  cases x with
  | accepted a =>
    rw [Checked.ensure, andThen]
    split
    · rename_i fault hfault
      exact raised_fail (htest a fault hfault)
    · exact raised_accepted a
  | rejected issues => exact h

theorem raised_traverse {read : Nat → α → Checked β} (h : ∀ i a, (read i a).Raised) (i : Nat)
    (l : List α) : (traverse read i l).Raised := by
  induction l generalizing i with
  | nil => exact raised_accepted _
  | cons a l ih => exact (((h i a).within _).map _).seq (ih (i + 1))

end Checked

open Checked

/-! ### Readers of scalars -/

namespace Reader

/-- Whatever value is read, its issues are raised. -/
def Raises (read : Reader α) : Prop := ∀ v, (read v).Raised

theorem Raises.ensure {read : Reader α} (h : read.Raises) {test : α → Option Fault}
    (htest : ∀ a, ∀ fault ∈ test a, fault.IsLocal) : Raises fun v => (read v).ensure test :=
  fun v => (h v).ensure htest

theorem Raises.map {read : Reader α} (h : read.Raises) (f : α → β) : Raises fun v => f <$> read v :=
  fun v => (h v).map f

theorem raises_text : Raises text := by
  intro v
  cases v with
  | text s => exact raised_accepted s
  | null | bool | int | float | stamp | list | object => exact raised_fail ⟨rfl, rfl⟩

theorem raises_nonEmptyText : Raises nonEmptyText :=
  raises_text.ensure fun _ => Fault.isLocal_ite (Fault.isLocal_some ⟨rfl, rfl⟩) Fault.isLocal_none

theorem raises_slug : Raises slug :=
  raises_text.ensure fun _ => Fault.isLocal_ite Fault.isLocal_none (Fault.isLocal_some ⟨rfl, rfl⟩)

theorem raised_boolOfInt (n : Int) : (boolOfInt n).Raised := by
  rw [boolOfInt]
  split
  · exact raised_accepted _
  · split
    · exact raised_accepted _
    · exact raised_fail ⟨rfl, rfl⟩

theorem raises_bool : Raises bool := by
  intro v
  rw [bool.eq_def]
  split
  · exact raised_accepted _
  · split
    · exact raised_accepted _
    · exact raised_fail ⟨rfl, rfl⟩
  · split
    · exact raised_boolOfInt _
    · exact raised_fail ⟨rfl, rfl⟩
  · split
    · split
      · exact raised_boolOfInt _
      · exact raised_fail ⟨rfl, rfl⟩
    · exact raised_fail ⟨rfl, rfl⟩
  · exact raised_fail ⟨rfl, rfl⟩

theorem raised_intOfText (s : String) : (intOfText s).Raised := by
  rw [intOfText]
  split
  · exact raised_fail ⟨rfl, rfl⟩
  · split
    · exact raised_accepted _
    · exact raised_fail ⟨rfl, rfl⟩

theorem raises_int : Raises int := by
  intro v
  rw [int.eq_def]
  split
  · exact raised_accepted _
  · exact raised_accepted _
  · exact raised_intOfText _
  · split
    · exact raised_fail ⟨rfl, rfl⟩
    · split
      · exact raised_fail ⟨rfl, rfl⟩
      · split
        · exact raised_accepted _
        · exact raised_fail ⟨rfl, rfl⟩
  · exact raised_fail ⟨rfl, rfl⟩

theorem raises_intBetween (least greatest : Int) : Raises (intBetween least greatest) := by
  refine raises_int.ensure fun n => Fault.isLocal_ite (Fault.isLocal_some ⟨rfl, rfl⟩) ?_
  exact Fault.isLocal_ite (Fault.isLocal_some ⟨rfl, rfl⟩) Fault.isLocal_none

theorem raises_num : Raises num := by
  intro v
  rw [num.eq_def]
  split
  · exact raised_accepted _
  · exact raised_accepted _
  · exact raised_accepted _
  · rename_i s
    have hint := raised_intOfText s
    split
    · exact raised_accepted _
    · rename_i issues hissues
      split
      · exact raised_accepted _
      · exact raised_rejected (((hint issues hissues).within "int").append
          (.within "float" (.single ⟨rfl, rfl⟩)))
  · exact raised_rejected ((Issue.Raised.within "int" (.single ⟨rfl, rfl⟩)).append
      (.within "float" (.single ⟨rfl, rfl⟩)))

theorem raises_oneOf (members : List α) (name : α → String) : Raises (oneOf members name) := by
  intro v
  rw [oneOf]
  split
  · exact raised_accepted _
  · exact raised_fail ⟨rfl, rfl⟩

theorem raises_list {item : Reader α} (h : item.Raises) : Raises (list item) := by
  intro v
  cases v with
  | list items => exact raised_traverse (fun _ => h) 0 items
  | null | bool | int | float | text | stamp | object => exact raised_fail ⟨rfl, rfl⟩

theorem raises_nonEmptyList {item : Reader α} (h : item.Raises) : Raises (nonEmptyList item) :=
  (raises_list h).ensure fun _ =>
    Fault.isLocal_ite (Fault.isLocal_some ⟨rfl, rfl⟩) Fault.isLocal_none

theorem raises_either {first second : Reader α} (hfirst : first.Raises) (hsecond : second.Raises)
    (firstName secondName : String) : Raises (either firstName first secondName second) := by
  intro v
  rw [either]
  split
  · exact raised_accepted _
  · exact raised_accepted _
  · rename_i issues more h₁ h₂
    exact raised_rejected (((hfirst v issues h₁).within _).append
      ((hsecond v more h₂).within _))

theorem raises_nullable {read : Reader α} (h : read.Raises) : Raises (nullable read) := by
  intro v
  rw [nullable.eq_def]
  split
  · exact raised_accepted _
  · exact (h _).map some

end Reader

open Reader

/-! ### Readers of records -/

namespace Record

variable {read : Reader α} {entries : Entries} {k : Key}

theorem raised_required (h : read.Raises) : (required k read entries).Raised := by
  rw [required]
  split
  · exact (h _).within _
  · exact raised_rejected (.within _ (.single ⟨rfl, rfl⟩))

theorem raised_defaulted (h : read.Raises) {default : α} :
    (defaulted k default read entries).Raised := by
  rw [defaulted]
  split
  · exact (h _).within _
  · exact raised_accepted default

theorem raised_optionally (h : read.Raises) : (optionally k read entries).Raised :=
  raised_defaulted (raises_nullable h)

theorem raised_literal {name : String} : (literal k name entries).Raised :=
  raised_defaulted (raises_oneOf _ _)

theorem raised_keepUnknown {keys : List Key} : (keepUnknown keys entries).Raised :=
  raised_accepted _

theorem raises_object {record : String} {read : Entries → Checked α}
    (h : ∀ entries, (read entries).Raised) : Raises (object record read) := by
  intro v
  cases v with
  | object entries => exact h entries
  | null | bool | int | float | text | stamp | list => exact raised_fail ⟨rfl, rfl⟩

end Record

open Record

/-! ### Definitions -/

theorem FieldRules.raises_read : Raises FieldRules.read := by
  refine raises_object fun entries => ?_
  -- one goal for each key
  repeat' apply Checked.Raised.seq
  all_goals apply_rules [Checked.Raised.map, raised_keepUnknown, raised_optionally, raises_num,
    raises_text, raises_bool]

theorem TextConfig.raises_read : Raises TextConfig.read := by
  refine raises_object fun entries => ?_
  apply_rules [Checked.Raised.seq, Checked.Raised.map, raised_literal, raised_keepUnknown,
    raised_optionally, raises_text, raises_bool]

theorem BareConfig.raises_read (record type : String) : Raises (BareConfig.read record type) := by
  refine raises_object fun entries => ?_
  exact (raised_literal.map _).seq raised_keepUnknown

theorem NumberConfig.raises_read : Raises NumberConfig.read := by
  refine raises_object fun entries => ?_
  apply_rules [Checked.Raised.seq, Checked.Raised.map, raised_literal, raised_keepUnknown,
    raised_optionally, raises_num, raises_oneOf]

theorem BooleanConfig.raises_read : Raises BooleanConfig.read := by
  refine raises_object fun entries => ?_
  apply_rules [Checked.Raised.seq, Checked.Raised.map, raised_literal, raised_keepUnknown,
    raised_optionally, raises_bool]

theorem SelectOption.raises_readLabelled : Raises SelectOption.readLabelled := by
  refine raises_object fun entries => ?_
  apply_rules [Checked.Raised.seq, Checked.Raised.map, raised_keepUnknown, raised_required,
    raises_text]

theorem SelectOption.raises_read : Raises SelectOption.read :=
  raises_either (raises_text.map _) SelectOption.raises_readLabelled _ _

theorem SelectDefault.raises_read : Raises SelectDefault.read :=
  raises_either (raises_text.map _) ((raises_list raises_text).map _) _ _

theorem SelectConfig.raises_read : Raises SelectConfig.read := by
  refine raises_object fun entries => ?_
  apply_rules [Checked.Raised.seq, Checked.Raised.map, raised_literal, raised_keepUnknown,
    raised_required, raised_optionally, raised_defaulted, raises_bool, raises_nonEmptyList,
    SelectOption.raises_read, SelectDefault.raises_read]

theorem MediaConfig.raises_read : Raises MediaConfig.read := by
  refine raises_object fun entries => ?_
  apply_rules [Checked.Raised.seq, Checked.Raised.map, raised_literal, raised_keepUnknown,
    raised_defaulted, raises_bool]

theorem RelationConfig.raises_read : Raises RelationConfig.read := by
  refine raises_object fun entries => ?_
  apply_rules [Checked.Raised.seq, Checked.Raised.map, raised_literal, raised_keepUnknown,
    raised_required, raised_optionally, raised_defaulted, raises_text, raises_nonEmptyText,
    raises_oneOf]

theorem DateConfig.raises_read : Raises DateConfig.read := by
  refine raises_object fun entries => ?_
  apply_rules [Checked.Raised.seq, Checked.Raised.map, raised_literal, raised_keepUnknown,
    raised_optionally, raised_defaulted, raises_text, raises_oneOf]

theorem PromptContext.raises_read : Raises PromptContext.read := by
  refine raises_object fun entries => ?_
  apply_rules [Checked.Raised.seq, Checked.Raised.map, raised_keepUnknown, raised_required,
    raised_defaulted, raises_text, raises_bool]

theorem VariantContext.raises_read : Raises VariantContext.read := by
  refine raises_object fun entries => ?_
  apply_rules [Checked.Raised.seq, Checked.Raised.map, raised_keepUnknown, raised_defaulted,
    raises_bool, raises_intBetween]

theorem ComponentContext.raises_read : Raises ComponentContext.read := by
  refine raises_object fun entries => ?_
  apply_rules [Checked.Raised.seq, Checked.Raised.map, raised_keepUnknown, raised_optionally,
    PromptContext.raises_read, VariantContext.raises_read]

theorem ComponentConfig.raises_read : Raises ComponentConfig.read := by
  refine raises_object fun entries => ?_
  apply_rules [Checked.Raised.seq, Checked.Raised.map, raised_literal, raised_keepUnknown,
    raised_required, raised_optionally, raised_defaulted, raises_slug, raises_bool,
    ComponentContext.raises_read]

theorem FieldConfig.raises_readAs (type : FieldType) : Raises (FieldConfig.readAs type) := by
  intro v
  cases type with
  | text => exact (TextConfig.raises_read v).map _
  | rich => exact (BareConfig.raises_read _ _ v).map _
  | number => exact (NumberConfig.raises_read v).map _
  | boolean => exact (BooleanConfig.raises_read v).map _
  | select => exact (SelectConfig.raises_read v).map _
  | json => exact (BareConfig.raises_read _ _ v).map _
  | media => exact (MediaConfig.raises_read v).map _
  | relation => exact (RelationConfig.raises_read v).map _
  | date => exact (DateConfig.raises_read v).map _
  | component => exact (ComponentConfig.raises_read v).map _

theorem FieldConfig.raises_read : Raises FieldConfig.read := by
  intro v
  rw [read.eq_def]
  split
  · split
    · exact raised_fail ⟨rfl, rfl⟩
    · split
      · exact (raises_readAs _ _).within _
      · exact raised_fail ⟨rfl, rfl⟩
  · exact raised_fail ⟨rfl, rfl⟩

theorem Field.raises_readKey : Raises Field.readKey := by
  refine (raises_nonEmptyText.ensure fun s => ?_).ensure fun s => ?_
  · exact Fault.isLocal_ite Fault.isLocal_none (Fault.isLocal_some ⟨rfl, rfl⟩)
  · exact Fault.isLocal_ite (Fault.isLocal_some ⟨rfl, rfl⟩) Fault.isLocal_none

/-- A field and its configuration may not fit together, which concerns no other field. -/
theorem Field.isLocal_configFault (f : Field) : ∀ fault ∈ f.configFault, fault.IsLocal := by
  rw [configFault]
  split
  · exact Fault.isLocal_ite (Fault.isLocal_some ⟨rfl, rfl⟩) Fault.isLocal_none
  · exact Fault.isLocal_ite Fault.isLocal_none (Fault.isLocal_some ⟨rfl, rfl⟩)

theorem Field.raises_read : Raises Field.read := by
  refine raises_object fun entries => Checked.Raised.ensure ?_ Field.isLocal_configFault
  apply_rules [Checked.Raised.seq, Checked.Raised.map, raised_keepUnknown, raised_required,
    raised_optionally, raised_defaulted, raises_bool, raises_nonEmptyText, raises_oneOf,
    raises_readKey, FieldConfig.raises_read, FieldRules.raises_read]

theorem ModelSettings.raises_read : Raises ModelSettings.read := by
  refine raises_object fun entries => ?_
  apply_rules [Checked.Raised.seq, Checked.Raised.map, raised_keepUnknown, raised_optionally,
    raises_bool, raises_text]

theorem ContentModel.raises_read : Raises ContentModel.read := by
  refine raises_object fun entries => ?_
  apply_rules [Checked.Raised.seq, Checked.Raised.map, raised_keepUnknown, raised_required,
    raised_defaulted, raises_slug, raises_nonEmptyText, raises_nonEmptyList, Field.raises_read,
    ModelSettings.raises_read]

theorem Component.raises_read : Raises Component.read := by
  refine raises_object fun entries => ?_
  apply_rules [Checked.Raised.seq, Checked.Raised.map, raised_keepUnknown, raised_required,
    raises_slug, raises_nonEmptyText, raises_nonEmptyList, Field.raises_read]

end ContentSchema
