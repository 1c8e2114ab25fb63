import ContentSchema.Proofs.Outcomes
import ContentSchema.Proofs.Text.Lines
import ContentSchema.Schema.Parser

/-!
# Attributes that cannot be read

The reader of schema text fails in one case only: a default that spells a whole number with more
digits than allowed (`Attribute.IsOverlong`).  All other attributes can be added to any column, and
what they add leaves its name, its type and its marks alone.
-/

namespace ContentSchema

open Text

namespace Attribute

variable {attr : List Char}

/-- The attribute is a default that spells a whole number with more digits than allowed. -/
def IsOverlong (attr : List Char) : Prop :=
  ∃ body, defaultBody? attr = some body ∧ isDigits (takeMinus (strip body)).2 = true ∧
    maxDigits < (takeMinus (strip body)).2.length

/-- A text is no value exactly when it is an overlong row of digits. -/
theorem literalValue_eq_error_iff {value : List Char} :
    (∃ e, literalValue value = .error e) ↔
      isDigits (takeMinus value).2 = true ∧ maxDigits < (takeMinus value).2.length := by
  rw [literalValue]
  by_cases htrue : value = "true".toList
  · subst htrue
    refine ⟨fun ⟨e, h⟩ => ?_, fun h => absurd h.1 (by decide +kernel)⟩
    cases h
  by_cases hfalse : value = "false".toList
  · subst hfalse
    refine ⟨fun ⟨e, h⟩ => ?_, fun h => absurd h.1 (by decide +kernel)⟩
    cases h
  rw [if_neg htrue, if_neg hfalse]
  obtain ⟨negative, digits⟩ := takeMinus value
  dsimp only
  split
  · rename_i hdigits
    split
    · rename_i hlong
      exact ⟨fun _ => ⟨hdigits, hlong⟩, fun _ => ⟨_, rfl⟩⟩
    · rename_i hlong
      refine ⟨fun ⟨e, h⟩ => ?_, fun h => absurd h.2 hlong⟩
      cases h
  · rename_i hdigits
    refine ⟨fun ⟨e, h⟩ => ?_, fun h => absurd h.1 hdigits⟩
    split at h <;> cases h

theorem defaultValue?_eq_error_iff :
    (∃ e, defaultValue? attr = .error e) ↔ IsOverlong attr := by
  rw [defaultValue?, IsOverlong]
  cases hbody : defaultBody? attr with
  | none =>
    refine ⟨fun ⟨e, h⟩ => ?_, fun ⟨_, h, _⟩ => ?_⟩
    · cases h
    · cases h
  | some body =>
    constructor
    · rintro ⟨e, h⟩
      refine ⟨body, rfl, literalValue_eq_error_iff.1 ?_⟩
      dsimp only at h
      cases hvalue : literalValue (strip body) with
      | error e => exact ⟨e, rfl⟩
      | ok v =>
        rw [hvalue] at h
        cases h
    · rintro ⟨_, ⟨rfl⟩, hlong⟩
      obtain ⟨e, he⟩ := literalValue_eq_error_iff.2 hlong
      dsimp only
      rw [he]
      exact ⟨e, rfl⟩

theorem exists_defaultValue?_iff :
    (∃ value, defaultValue? attr = .ok value) ↔ ¬ IsOverlong attr := by
  rw [← defaultValue?_eq_error_iff]
  cases defaultValue? attr <;> simp

theorem dropStart?_eq_some {start cs rest : List Char} :
    dropStart? start cs = some rest ↔ cs = start ++ rest := by
  rw [dropStart?]
  constructor
  · intro h
    split at h
    · rename_i hp
      obtain ⟨t, rfl⟩ := List.isPrefixOf_iff_prefix.1 hp
      cases h
      rw [List.drop_left]
    · cases h
  · rintro rfl
    rw [if_pos (List.isPrefixOf_iff_prefix.2 (List.prefix_append _ _)), List.drop_left]

/-- Only what begins like a default has the body of one. -/
theorem startsWith_of_isOverlong (h : IsOverlong attr) : startsWith "@default(" attr = true := by
  obtain ⟨body, hbody, -⟩ := h
  obtain ⟨rest, hrest, -⟩ := Option.bind_eq_some_iff.1 hbody
  rw [dropStart?_eq_some] at hrest
  rw [hrest]
  exact List.isPrefixOf_iff_prefix.2 (List.prefix_append _ _)

end Attribute

theorem startsWith_iff {start : String} {cs : List Char} :
    startsWith start cs = true ↔ start.toList <+: cs := List.isPrefixOf_iff_prefix

/-- What begins with a text that is no beginning of a default is not overlong. -/
theorem Attribute.not_isOverlong_of_startsWith {start : String} {attr : List Char}
    (h : startsWith start attr = true)
    (hstart : ¬ start.toList <+: "@default(".toList ∧ ¬ "@default(".toList <+: start.toList) :
    ¬ IsOverlong attr := by
  intro hlong
  rcases List.prefix_or_prefix_of_prefix (startsWith_iff.1 h)
    (startsWith_iff.1 (startsWith_of_isOverlong hlong)) with hp | hp
  · exact hstart.1 hp
  · exact hstart.2 hp

/-! ### Adding attributes to a column -/

namespace Column

/-- What is read of a column apart from its attributes. -/
structure Shape where
  /-- The name. -/
  name : String
  /-- The type without marks. -/
  type : String
  /-- The type with its marks. -/
  signature : String
  /-- Whether there may be no value. -/
  nullable : Bool
  /-- Whether the column holds several values. -/
  isList : Bool
deriving DecidableEq, Repr

/-- The shape of a column. -/
def shape (c : Column) : Shape := ⟨c.name, c.type, c.typeSignature, c.nullable, c.isList⟩

variable {c c' : Column} {attr : List Char}

/-- The default of a column to which an attribute is added that is neither a relation nor a physical
name. -/
def defaultWith (c : Column) (attr : List Char) : Except SchemaError (Option ColumnDefault) :=
  if startsWith "@default" attr then Attribute.defaultValue? attr else .ok c.default

theorem addAttribute_of_plain (hrelation : startsWith "@relation" attr = false)
    (hmap : startsWith "@map" attr = false) :
    c.addAttribute attr = (c.defaultWith attr).bind fun d =>
      .ok { c with default := d, attributes := c.attributes ++ [String.ofList attr] } := by
  rw [addAttribute, hrelation, hmap, defaultWith]
  cases startsWith "@default" attr <;> rfl

theorem shape_addAttribute (h : c.addAttribute attr = .ok c') : c'.shape = c.shape := by
  cases hrelation : startsWith "@relation" attr with
  | true =>
    rw [addAttribute, if_pos hrelation] at h
    cases h
    rfl
  | false =>
    cases hmap : startsWith "@map" attr with
    | true =>
      rw [addAttribute, hrelation, if_neg Bool.false_ne_true, if_pos hmap] at h
      cases h
      rfl
    | false =>
      rw [addAttribute_of_plain hrelation hmap] at h
      obtain ⟨d, -, h⟩ := bind_eq_ok.1 h
      cases h
      rfl

theorem shape_foldlM_addAttribute {attrs : List (List Char)}
    (h : attrs.foldlM addAttribute c = .ok c') : c'.shape = c.shape :=
  foldlM_preserves (P := fun d => d.shape = c.shape)
    (fun _ hd _ _ _ h => (shape_addAttribute h).trans hd) rfl h

/-- An attribute can be added unless it is overlong. -/
theorem exists_addAttribute_iff : (∃ c', c.addAttribute attr = .ok c') ↔
    ¬ Attribute.IsOverlong attr := by
  cases hrelation : startsWith "@relation" attr with
  | true =>
    rw [addAttribute, if_pos hrelation]
    exact ⟨fun _ => Attribute.not_isOverlong_of_startsWith hrelation (by decide), fun _ => ⟨_, rfl⟩⟩
  | false =>
    cases hmap : startsWith "@map" attr with
    | true =>
      rw [addAttribute, hrelation, if_neg Bool.false_ne_true, if_pos hmap]
      exact ⟨fun _ => Attribute.not_isOverlong_of_startsWith hmap (by decide), fun _ => ⟨_, rfl⟩⟩
    | false =>
      rw [addAttribute_of_plain hrelation hmap, ← Attribute.exists_defaultValue?_iff]
      cases hdefault : startsWith "@default" attr with
      | true =>
        rw [defaultWith, if_pos hdefault]
        constructor
        · rintro ⟨_, h⟩
          obtain ⟨value, hvalue, -⟩ := bind_eq_ok.1 h
          exact ⟨value, hvalue⟩
        · rintro ⟨value, hvalue⟩
          exact ⟨_, bind_eq_ok.2 ⟨value, hvalue, rfl⟩⟩
      | false =>
        rw [defaultWith, hdefault]
        -- no default is read, and what is overlong would begin like one
        refine ⟨fun _ => Attribute.exists_defaultValue?_iff.2 fun hlong => ?_, fun _ => ⟨_, rfl⟩⟩
        obtain ⟨t, rfl⟩ := startsWith_iff.1 (Attribute.startsWith_of_isOverlong hlong)
        cases hdefault

/-- Attributes can be added one after the other unless one of them is overlong. -/
theorem exists_foldlM_addAttribute_iff {attrs : List (List Char)} :
    (∃ c', attrs.foldlM addAttribute c = .ok c') ↔ ∀ a ∈ attrs, ¬ Attribute.IsOverlong a := by
  induction attrs generalizing c with
  | nil => exact ⟨fun _ _ h => absurd h List.not_mem_nil, fun _ => ⟨c, rfl⟩⟩
  | cons a attrs ih =>
    rw [List.foldlM_cons, List.forall_mem_cons]
    constructor
    · rintro ⟨c', h⟩
      obtain ⟨c₁, h₁, h⟩ := bind_eq_ok.1 h
      exact ⟨exists_addAttribute_iff.1 ⟨c₁, h₁⟩, ih.1 ⟨c', h⟩⟩
    · rintro ⟨ha, hattrs⟩
      obtain ⟨c₁, h₁⟩ := exists_addAttribute_iff.2 ha
      obtain ⟨c', h⟩ := ih.2 hattrs
      exact ⟨c', bind_eq_ok.2 ⟨c₁, h₁, h⟩⟩

end Column

end ContentSchema
