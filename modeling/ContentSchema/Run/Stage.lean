import ContentSchema.Failure

/-!
# Stages of a run

A run goes through stages.  A staged computation tells which stages it entered on its way to an
outcome: those before a failure, and all of them if it succeeds.  A run that is given up takes no
note of that: it stays in the stage that it was in.
-/

namespace ContentSchema

/-- How far a run has come. -/
inductive Stage where
  /-- It has not begun. -/
  | idle
  /-- External tables are loaded. -/
  | loadingExternal
  /-- Raw definitions are fetched. -/
  | readingSource
  /-- Raw definitions are mapped and validated. -/
  | applyingMapper
  /-- Each model becomes tables. -/
  | compilingModels
  /-- Components and junctions become tables. -/
  | emittingDerived
  /-- The schema is written out as a text. -/
  | serializing
  /-- It has a result. -/
  | done
  /-- It stopped at a failure. -/
  | failed
deriving DecidableEq, Repr

/-- The name of a stage. -/
def Stage.name : Stage → String
  | idle => "idle"
  | loadingExternal => "loading_external_models"
  | readingSource => "reading_source"
  | applyingMapper => "applying_mapper"
  | compilingModels => "compiling_models"
  | emittingDerived => "emitting_derived_tables"
  | serializing => "serializing"
  | done => "done"
  | failed => "failed"

/-- A short text naming the stage of a run. -/
def Stage.summary (s : Stage) : String := "<SchemaGenerator stage=" ++ s.name ++ ">"

/-- An outcome with the stages that were entered on the way to it. -/
structure Staged (α : Type) where
  /-- The stages in order. -/
  entered : List Stage
  /-- The outcome. -/
  outcome : Outcome α

namespace Staged

variable {α β : Type}

/-- An outcome that enters no stage. -/
def ofOutcome (outcome : Outcome α) : Staged α := ⟨[], outcome⟩

/-- Goes on with a result; a failure stops the computation. -/
def bind (x : Staged α) (next : α → Staged β) : Staged β :=
  match x.outcome with
  | .ok a => ⟨x.entered ++ (next a).entered, (next a).outcome⟩
  | .error failure => ⟨x.entered, .error failure⟩

instance : Monad Staged where
  pure a := ofOutcome (.ok a)
  bind := bind

/-- A result that the configuration allows or rules out. -/
def configured (x : Except ConfigFault α) : Staged α := ofOutcome (x.mapError .config)

/-- A result of a compilation. -/
def compiled (x : Compiled α) : Staged α := ofOutcome (x.mapError .compile)

/-- Enters a stage. -/
def enter (s : Stage) : Staged Unit := ⟨[s], .ok ()⟩

/-- The stage that tells whether there is a result; none if the run is given up. -/
def lastStage? : Outcome α → Option Stage
  | .ok _ => some .done
  | .error failure => if failure.isNoticed then some .failed else none

/-- Enters the last stage, if there is one. -/
def finish (x : Staged α) : Staged α := ⟨x.entered ++ (lastStage? x.outcome).toList, x.outcome⟩

/-- The stage at the end of a computation that begins at a given one. -/
def stage (x : Staged α) (start : Stage) : Stage := x.entered.getLast?.getD start

@[simp] theorem entered_enter (s : Stage) : (enter s).entered = [s] := rfl

@[simp] theorem entered_ofOutcome (o : Outcome α) : (ofOutcome o).entered = [] := rfl

@[simp] theorem outcome_ofOutcome (o : Outcome α) : (ofOutcome o).outcome = o := rfl

@[simp] theorem outcome_finish (x : Staged α) : x.finish.outcome = x.outcome := rfl

theorem outcome_bind (x : Staged α) (next : α → Staged β) :
    (x >>= next).outcome = x.outcome.bind fun a => (next a).outcome := by
  show (x.bind next).outcome = _
  unfold bind Except.bind
  cases x.outcome <;> rfl

end Staged

end ContentSchema
