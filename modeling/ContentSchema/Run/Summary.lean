import ContentSchema.Number.Decimal
import ContentSchema.Text.Blank

/-!
# Summaries of runs

The text that tells users what a run did: how much it made, where that went, how long each step took
and what was left out.
-/

namespace ContentSchema

/-- A step of a run. -/
structure Step where
  /-- What it does. -/
  name : String
  /-- Whether it went well. -/
  succeeded : Bool
  /-- How long it took. -/
  seconds : Double
  /-- What it made. -/
  detail : String

/-- What a run did. -/
structure Summary where
  /-- The number of models. -/
  models : Nat
  /-- The number of tables. -/
  tables : Nat
  /-- The file of the schema, if there is one. -/
  path : Option String
  /-- The size of the file. -/
  bytes : Nat
  /-- How long the run took. -/
  seconds : Double
  /-- The steps in order. -/
  steps : List Step
  /-- The warnings in order. -/
  warnings : List String

/-- No time at all. -/
def noTime : Double := Double.ofMagnitude false 0

/-- A duration, in thousandths of a second. -/
def durationText (seconds : Double) : String := String.ofList (seconds.fixedText 3) ++ "s"

/-- A number with its digits in groups. -/
def groupedText (n : Nat) : String := String.ofList (Decimal.grouped n)

/-- A text filled up with spaces to a width. -/
def padded (width : Nat) (s : String) : String := String.ofList (Text.padEnd width s.toList)

/-- A line of one character. -/
def rule (c : Char) (width : Nat) : String := String.ofList (List.replicate width c)

/-- The line about a step. -/
def Step.line (s : Step) : String :=
  "    " ++ (if s.succeeded then "✓" else "✗") ++ " " ++ padded 28 s.name ++ " " ++
    String.ofList (Text.padStart 7 (s.seconds.fixedText 3)) ++ "s  " ++ s.detail

namespace Summary

/-- The lines of a summary. -/
def lines (s : Summary) : List String :=
  [rule '=' 60, "  EAVGen — Generation Report", rule '=' 60,
    "  Models generated: " ++ toString s.models, "  Tables emitted:   " ++ toString s.tables] ++
  (match s.path with
    | some path =>
      if path = "" then []
      else ["  Output:           " ++ path, "  Bytes written:    " ++ groupedText s.bytes]
    | none => []) ++
  ["  Total time:       " ++ durationText s.seconds, rule '─' 60] ++
  (if s.steps.isEmpty then [] else "  Pipeline Steps:" :: s.steps.map Step.line) ++
  (if s.warnings.isEmpty then []
    else rule '─' 60 :: ("  Warnings (" ++ toString s.warnings.length ++ "):") ::
      s.warnings.map ("    ⚠ " ++ ·)) ++
  [rule '=' 60]

/-- The text of a summary. -/
def text (s : Summary) : String := String.intercalate "\n" s.lines

end Summary

end ContentSchema
