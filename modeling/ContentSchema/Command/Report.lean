import ContentSchema.Definition.Report
import ContentSchema.Run.Generation

/-!
# What commands show

The texts that the commands show on their way: one about the check of all definitions, one about what
the models hold and the tables that they become.
-/

namespace ContentSchema

namespace Command

/-- Lines with their ends. -/
def linesText (lines : List String) : String := String.join (lines.map (· ++ "\n"))

/-- A title between two rules, behind an empty line. -/
def heading (title : String) : List String := ["", rule '=' 50, "  " ++ title, rule '=' 50]

/-- The last rule and an empty line. -/
def closing : List String := [rule '=' 50, ""]

/-- What is shown about a check of definitions. -/
def validationText (config : String) (raw : RawDefinitions) (report : Report) : String :=
  let rendered := report.render false
  linesText (heading "Definition Validation Report" ++ [
    "  Config:      " ++ config,
    "  Models:      " ++ toString raw.models.length,
    "  Components:  " ++ toString raw.components.length,
    "  Time:        " ++ durationText noTime,
    "  Valid:       " ++ (if report.isSound then "Yes" else "No")] ++
    raw.warnings.map ("    ⚠ " ++ ·.message) ++
    (if rendered = "" then [] else ["", rendered]) ++
    (if report.isSound && (report.ofLevel .warning).isEmpty then
      ["", "  ✅ All definitions are valid!"] else []) ++
    closing)

/-- What a model holds, in numbers. -/
def modelNumbers (m : ContentModel) : String :=
  let fields := m.storedFields
  let number (p : Field → Bool) : String := toString (fields.countP p)
  number (fun _ => true) ++ " field(s), " ++ number (·.isTranslatable) ++ " translatable, " ++
    number (·.relation?.isSome) ++ " relation(s), " ++ number (·.component?.isSome) ++
    " component(s), " ++ number (·.type == .media) ++ " media"

/-- The line about a model. -/
def modelLine (m : ContentModel) : String := "  " ++ padded 20 m.slug ++ " " ++ modelNumbers m

/-- The line about a table. -/
def tableLine (t : Table) : String :=
  "    • " ++ padded 30 t.name ++ " " ++ toString t.columns.length ++ " column(s)"

/-- What is shown about models and the tables that they become. -/
def analysisText (c : Config) (d : Definitions) (tables : List Table) : String :=
  linesText (heading "Content Model Analysis" ++ [
    "  Models:      " ++ toString d.models.length,
    "  Components:  " ++ toString d.components.length,
    "  i18n:        " ++ (if c.translation.enabled then "on" else "off"),
    "  Naming:      " ++ c.naming.convention.name,
    rule '─' 50] ++
    d.models.map modelLine ++
    [rule '─' 50, "  Tables (" ++ toString tables.length ++ "):"] ++
    tables.map tableLine ++
    closing)

end Command

end ContentSchema
