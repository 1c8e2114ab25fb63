import ContentSchema.Proofs.Run.RoundTrip

/-!
# The course of a run

Every run takes one course of stages.  It goes all the way and ends as done, or it leaves the course
at the step that fails and ends as failed.  A run that is given up, by a hook, by its source of rows
or by being cancelled while it waits for one of them, leaves the course as well, but it does not
take note of that and stays in the stage that it was in.

* `Staged.Follows.bind`: one computation after another follows one course after the other.
* `Config.StopsAt`: the steps at which a run may fail, with the stages that it has entered by then.
* `Config.follows_run`: a run follows the course, and leaves it in none but these ways.
* `Config.StopsAt.run_eq`: it leaves it in each of these ways.
* `Config.stages_generate`: a whole run, with its last stage.
* `Config.not_stages_abandonedConfig`: a run that is given up has neither failed nor a result.
-/

namespace ContentSchema

variable {α β : Type}

/-! ### Courses -/

/-- The stages of a run in order, up to the one that tells whether there is a result. -/
def Stage.course : List Stage := [.loadingExternal, .readingSource, .applyingMapper,
  .compilingModels, .emittingDerived, .serializing]

/-- A computation has a result and enters all stages of a course, or it enters the first of them and
stops in one of the given ways: with those stages behind it and at some failure. -/
inductive Staged.Follows (course : List Stage) (stops : List Stage → Failure → Prop) :
    Staged α → Prop where
  /-- It goes all the way. -/
  | ok (a : α) : Follows course stops ⟨course, .ok a⟩
  /-- It leaves the course. -/
  | error {passed : List Stage} {f : Failure} (hpassed : passed <+: course) (h : stops passed f) :
    Follows course stops ⟨passed, .error f⟩

namespace Staged.Follows

variable {course : List Stage} {stops : List Stage → Failure → Prop} {x : Staged α}

theorem ofOutcome {o : Outcome α} (h : ∀ f, o = .error f → stops [] f) :
    Follows [] stops (.ofOutcome o) := by
  cases o with
  | ok a => exact .ok a
  | error f => exact .error List.prefix_rfl (h f rfl)

theorem enter (s : Stage) : Follows [s] stops (.enter s) := .ok ()

/-- What comes after a computation takes up the course where the computation has left it. -/
theorem bind (first rest : List Stage) {next : α → Staged β} (hx : Follows first stops x)
    (hnext : ∀ a, x = ⟨first, .ok a⟩ →
      Follows rest (fun passed => stops (first ++ passed)) (next a)) :
    Follows (first ++ rest) stops (x >>= next) := by
  cases hx with
  | ok a =>
    show Follows _ _ ⟨first ++ (next a).entered, (next a).outcome⟩
    have ha := hnext a rfl
    generalize next a = y at ha
    cases ha with
    | ok b => exact .ok b
    | error hpassed h => exact .error ((List.prefix_append_right_inj first).2 hpassed) h
  | error hpassed h => exact .error (hpassed.trans (List.prefix_append first rest)) h

theorem eq_of_ok {a : α} (h : Follows course stops x) (hx : x.outcome = .ok a) :
    x = ⟨course, .ok a⟩ := by
  cases h with
  | ok b =>
    cases hx
    rfl
  | error => cases hx

end Staged.Follows

/-! ### Computations one after another -/

namespace Staged

@[simp] theorem configured_ok (a : α) : configured (.ok a) = ofOutcome (.ok a) := rfl

@[simp] theorem configured_error (fault : ConfigFault) :
    (configured (.error fault) : Staged α) = ofOutcome (.error (.config fault)) := rfl

@[simp] theorem compiled_ok (a : α) : compiled (.ok a) = ofOutcome (.ok a) := rfl

@[simp] theorem compiled_error (e : CompileError) :
    (compiled (.error e) : Staged α) = ofOutcome (.error (.compile e)) := rfl

@[simp] theorem ofOutcome_ok_bind (a : α) (next : α → Staged β) :
    ofOutcome (.ok a) >>= next = next a := rfl

@[simp] theorem ofOutcome_error_bind (f : Failure) (next : α → Staged β) :
    ofOutcome (.error f) >>= next = ofOutcome (.error f) := rfl

@[simp] theorem enter_bind (stage : Stage) (next : Unit → Staged β) :
    enter stage >>= next = ⟨stage :: (next ()).entered, (next ()).outcome⟩ := rfl

@[simp] theorem ok_bind (entered : List Stage) (a : α) (next : α → Staged β) :
    (⟨entered, .ok a⟩ : Staged α) >>= next =
      ⟨entered ++ (next a).entered, (next a).outcome⟩ := rfl

@[simp] theorem error_bind (entered : List Stage) (f : Failure) (next : α → Staged β) :
    (⟨entered, .error f⟩ : Staged α) >>= next = ⟨entered, .error f⟩ := rfl

/-- A computation fails as a whole as it fails before its last stage, which is entered if it takes
note of the failure. -/
theorem finish_eq_failed_iff {x : Staged α} {passed : List Stage} {f : Failure}
    (hf : f.isNoticed = true) :
    x.finish = ⟨passed ++ [.failed], .error f⟩ ↔ x = ⟨passed, .error f⟩ := by
  obtain ⟨entered, outcome⟩ := x
  cases outcome with
  | ok a => simp [finish]
  | error e =>
    simp only [finish, lastStage?, mk.injEq, Except.error.injEq]
    constructor
    · rintro ⟨hentered, rfl⟩
      exact ⟨by simpa [hf] using hentered, rfl⟩
    · rintro ⟨rfl, rfl⟩
      simp [hf]

theorem finish_eq_abandoned_iff {x : Staged α} {passed : List Stage} {f : Failure}
    (hf : f.isNoticed = false) : x.finish = ⟨passed, .error f⟩ ↔ x = ⟨passed, .error f⟩ := by
  obtain ⟨entered, outcome⟩ := x
  cases outcome with
  | ok a => simp [finish]
  | error e =>
    simp only [finish, lastStage?, mk.injEq, Except.error.injEq]
    constructor
    · rintro ⟨hentered, rfl⟩
      exact ⟨by simpa [hf] using hentered, rfl⟩
    · rintro ⟨rfl, rfl⟩
      simp [hf]

/-- A computation ends in its last stage; one without a last stage ends where it was. -/
theorem stage_finish (x : Staged α) (start : Stage) :
    x.finish.stage start = (lastStage? x.outcome).getD (x.stage start) := by
  unfold finish stage
  cases lastStage? x.outcome <;> simp

end Staged

/-! ### The steps of a run -/

namespace Config

/-- The settings under which a run compiles. -/
def runSettings (c : Config) (s : Surroundings) : BuildSettings :=
  c.buildSettings ((c.externalTables s).map (·.name))

/-- The schema that a run makes of a compilation. -/
def schemaOf (c : Config) (s : Surroundings) (compilation : Compilation) : Schema :=
  ⟨c.output.datasource, c.allGenerators, (mergeTables (c.externalTables s) compilation.tables).1⟩

/-- How a run stops: the step that fails, after those before it went well, with the stages that were
entered by then and the failure of the step. -/
inductive StopsAt (c : Config) (s : Surroundings) : List Stage → Failure → Prop where
  /-- There is no one source of definitions. -/
  | source {fault : ConfigFault} (h : c.inputSource = .error fault) : c.StopsAt s [] (.config fault)
  /-- The source cannot be read. -/
  | fetch {source : InputSource} {f : Failure} (hsource : c.inputSource = .ok source)
    (h : c.fetch s source = .error f) : c.StopsAt s [.loadingExternal, .readingSource] f
  /-- An item cannot be mapped. -/
  | mapping {source : InputSource} {items : RawDefinitions} {f : Failure}
    (hsource : c.inputSource = .ok source) (hitems : c.fetch s source = .ok items)
    (h : c.mapItems source items = .error f) :
    c.StopsAt s [.loadingExternal, .readingSource, .applyingMapper] f
  /-- A definition is not valid. -/
  | validation {raw : RawDefinitions} {f : Failure} (hraw : (c.rawDefinitions s).outcome = .ok raw)
    (h : raw.validate = .error f) :
    c.StopsAt s [.loadingExternal, .readingSource, .applyingMapper] f
  /-- The tables of a model cannot be compiled. -/
  | own {d : Definitions} {e : CompileError} (hd : (c.definitions s).outcome = .ok d)
    (h : compileOwn d.models d.components (c.runSettings s) = .error e) :
    c.StopsAt s [.loadingExternal, .readingSource, .applyingMapper, .compilingModels] (.compile e)
  /-- The tables of a component or a junction cannot be compiled. -/
  | additions {d : Definitions} {own : List (List Table)} {e : CompileError}
    (hd : (c.definitions s).outcome = .ok d)
    (hown : compileOwn d.models d.components (c.runSettings s) = .ok own)
    (h : compileAdditions d.models d.components (c.runSettings s) = .error e) :
    c.StopsAt s [.loadingExternal, .readingSource, .applyingMapper, .compilingModels,
      .emittingDerived] (.compile e)
  /-- The schema cannot be written out. -/
  | text {d : Definitions} {compilation : Compilation} {f : Failure}
    (hd : (c.definitions s).outcome = .ok d)
    (hcompilation : compileModels d.models d.components (c.runSettings s) = .ok compilation)
    (h : schemaText (c.schemaOf s compilation) = .error f) : c.StopsAt s Stage.course f

variable {c : Config} {s : Surroundings}

/-- Apart from the stages, a run compiles as models are compiled. -/
theorem outcome_compile (c : Config) (d : Definitions) (names : List String) :
    (c.compile d names).outcome =
      (compileModels d.models d.components (c.buildSettings names)).mapError .compile := by
  rw [compile, compileModels]
  cases compileOwn d.models d.components (c.buildSettings names) with
  | error e => rfl
  | ok own =>
    cases compileAdditions d.models d.components (c.buildSettings names) <;> rfl

/-- What comes of a source is read and mapped, or stops the run in one of these two stages. -/
theorem follows_rawDefinitions {source : InputSource} (hsource : c.inputSource = .ok source) :
    (c.rawDefinitions s).Follows [.readingSource, .applyingMapper]
      (fun passed => c.StopsAt s (.loadingExternal :: passed)) := by
  rw [rawDefinitions, hsource]
  refine .bind [] _ (.ok source) ?_
  rintro _ ⟨⟩
  refine .bind [.readingSource] _ (.enter _) fun _ _ => ?_
  refine .bind [] _ (.ofOutcome fun f hf => .fetch hsource hf) fun items hitems => ?_
  refine .bind [.applyingMapper] [] (.enter _) fun _ _ => ?_
  exact .ofOutcome fun f hf => .mapping hsource (congrArg Staged.outcome hitems) hf

theorem follows_definitions {source : InputSource} (hsource : c.inputSource = .ok source) :
    (c.definitions s).Follows [.readingSource, .applyingMapper]
      (fun passed => c.StopsAt s (.loadingExternal :: passed)) := by
  rw [definitions]
  refine .bind _ [] (follows_rawDefinitions hsource) fun raw hraw => ?_
  exact .ofOutcome fun f hf => .validation (congrArg Staged.outcome hraw) hf

theorem follows_compile {d : Definitions} (hd : (c.definitions s).outcome = .ok d) :
    (c.compile d ((c.externalTables s).map (·.name))).Follows [.compilingModels, .emittingDerived]
      (fun passed => c.StopsAt s
        ([.loadingExternal, .readingSource, .applyingMapper] ++ passed)) := by
  rw [compile]
  refine .bind [.compilingModels] _ (.enter _) fun _ _ => ?_
  refine .bind [] _ (.ofOutcome ?_) fun own hown => ?_
  · intro f hf
    obtain ⟨e, he, rfl⟩ := mapError_eq_error.1 hf
    exact .own hd he
  refine .bind [.emittingDerived] [] (.enter _) fun _ _ => ?_
  refine .bind [] [] (.ofOutcome ?_) fun additions _ => .ok _
  intro f hf
  obtain ⟨e, he, rfl⟩ := mapError_eq_error.1 hf
  exact .additions hd (mapError_eq_ok.1 (congrArg Staged.outcome hown)) he

/-- A run follows the course, and leaves it at a step that fails. -/
theorem follows_run (c : Config) (s : Surroundings) :
    (c.run s).Follows Stage.course (c.StopsAt s) := by
  rw [run]
  cases hsource : c.inputSource with
  | error fault => exact .error List.nil_prefix (.source hsource)
  | ok source =>
    refine .bind [] _ (.ok source) fun _ _ => ?_
    refine .bind [.loadingExternal] _ (.enter _) fun _ _ => ?_
    refine .bind _ _ (follows_definitions hsource) fun d hd => ?_
    have hd := congrArg Staged.outcome hd
    refine .bind _ _ (follows_compile hd) fun compilation hcompilation => ?_
    refine .bind [.serializing] [] (.enter _) fun _ _ => ?_
    refine .bind [] [] (.ofOutcome fun f hf => ?_) fun _ _ => .ok _
    have hcompilation := (c.outcome_compile d _).symm.trans (congrArg Staged.outcome hcompilation)
    exact .text hd (mapError_eq_ok.1 hcompilation) hf

/-- A reading that succeeds has a source, and enters all stages of its part of the course. -/
theorem rawDefinitions_eq_of_ok {raw : RawDefinitions}
    (h : (c.rawDefinitions s).outcome = .ok raw) : (∃ source, c.inputSource = .ok source) ∧
      c.rawDefinitions s = ⟨[.readingSource, .applyingMapper], .ok raw⟩ := by
  obtain ⟨source, hsource, -⟩ := Staged.outcome_bind_eq_ok.1 h
  have hsource : c.inputSource = .ok source := mapError_eq_ok.1 hsource
  exact ⟨⟨source, hsource⟩, (follows_rawDefinitions hsource).eq_of_ok h⟩

theorem definitions_eq_of_ok {d : Definitions} (h : (c.definitions s).outcome = .ok d) :
    (∃ source, c.inputSource = .ok source) ∧
      c.definitions s = ⟨[.readingSource, .applyingMapper], .ok d⟩ := by
  obtain ⟨raw, hraw, -⟩ := Staged.outcome_bind_eq_ok.1 h
  obtain ⟨⟨source, hsource⟩, -⟩ := rawDefinitions_eq_of_ok hraw
  exact ⟨⟨source, hsource⟩, (follows_definitions hsource).eq_of_ok h⟩

/-- A run leaves its course at each step that fails. -/
theorem StopsAt.run_eq {passed : List Stage} {f : Failure} (h : c.StopsAt s passed f) :
    c.run s = ⟨passed, .error f⟩ := by
  cases h with
  | source h =>
    rw [run, h]
    rfl
  | fetch hsource h => simp [run, definitions, rawDefinitions, hsource, h]
  | mapping hsource hitems h => simp [run, definitions, rawDefinitions, hsource, hitems, h]
  | validation hraw h =>
    obtain ⟨⟨source, hsource⟩, hraw⟩ := rawDefinitions_eq_of_ok hraw
    simp [run, definitions, hsource, hraw, h]
  | own hd h =>
    obtain ⟨⟨source, hsource⟩, hd⟩ := definitions_eq_of_ok hd
    simp only [runSettings, externalTables] at h
    simp [run, compile, hsource, hd, h]
  | additions hd hown h =>
    obtain ⟨⟨source, hsource⟩, hd⟩ := definitions_eq_of_ok hd
    simp only [runSettings, externalTables] at hown h
    simp [run, compile, hsource, hd, hown, h]
  | text hd hcompilation h =>
    have hcompile := (follows_compile hd).eq_of_ok
      ((c.outcome_compile _ _).trans (mapError_eq_ok.2 hcompilation))
    obtain ⟨⟨source, hsource⟩, hd⟩ := definitions_eq_of_ok hd
    simp only [schemaOf, externalTables] at h hcompile
    simp [run, Stage.course, hsource, hd, hcompile, h]

/-- A run stops in exactly the ways that are left at its steps. -/
theorem stopsAt_iff {passed : List Stage} {f : Failure} :
    c.StopsAt s passed f ↔ c.run s = ⟨passed, .error f⟩ := by
  constructor
  · exact StopsAt.run_eq
  · intro h
    have hfollows := c.follows_run s
    rw [h] at hfollows
    cases hfollows with
    | error _ hstops => exact hstops

/-- The stages of a course that is left or gone to its end, with one last stage that is not on the
course, are all different. -/
theorem nodup_course_append {passed : List Stage} (h : passed <+: Stage.course) {last : Stage}
    (hlast : last ∉ Stage.course) : (passed ++ [last]).Nodup := by
  rw [List.nodup_append]
  refine ⟨h.sublist.nodup (by decide), List.nodup_singleton last, ?_⟩
  rintro a ha b hb rfl
  rw [List.mem_singleton] at hb
  exact hlast (hb ▸ h.subset ha)

end Config

/-- A whole run either goes all the way, is done and has a result, or leaves its course at a step
that fails and stops there at the failure of that step: it has failed if it takes note of the
failure, and enters no further stage if it is given up.  It leaves the course in exactly the ways in
which a step can fail.  It is never both done and failed, enters no stage twice, and ends in its
last stage wherever it began; if it is given up, it ends where it was. -/
theorem Config.stages_generate (c : Config) (s : Surroundings) :
    ((∃ g, c.generate s = ⟨Stage.course ++ [.done], .ok g⟩) ∨
      ∃ passed f, passed <+: Stage.course ∧ c.StopsAt s passed f ∧
        (f.isNoticed = true → c.generate s = ⟨passed ++ [.failed], .error f⟩) ∧
        (f.isNoticed = false → c.generate s = ⟨passed, .error f⟩)) ∧
    (∀ passed f, f.isNoticed = true →
      (c.StopsAt s passed f ↔ c.generate s = ⟨passed ++ [.failed], .error f⟩)) ∧
    (∀ passed f, f.isNoticed = false →
      (c.StopsAt s passed f ↔ c.generate s = ⟨passed, .error f⟩)) ∧
    ¬ (.done ∈ (c.generate s).entered ∧ .failed ∈ (c.generate s).entered) ∧
    (c.generate s).entered.Nodup ∧
    ∀ start, (c.generate s).stage start =
      (Staged.lastStage? (c.generate s).outcome).getD ((c.run s).stage start) := by
  have hfailed : ∀ passed f, f.isNoticed = true →
      (c.StopsAt s passed f ↔ c.generate s = ⟨passed ++ [.failed], .error f⟩) := by
    intro passed f hf
    rw [stopsAt_iff, generate, Staged.finish_eq_failed_iff hf]
  have habandoned : ∀ passed f, f.isNoticed = false →
      (c.StopsAt s passed f ↔ c.generate s = ⟨passed, .error f⟩) := by
    intro passed f hf
    rw [stopsAt_iff, generate, Staged.finish_eq_abandoned_iff hf]
  have hstage : ∀ start, (c.generate s).stage start =
      (Staged.lastStage? (c.generate s).outcome).getD ((c.run s).stage start) :=
    fun start => Staged.stage_finish (c.run s) start
  have hrun := c.follows_run s
  generalize hx : c.run s = x at hrun
  cases hrun with
  | ok g =>
    have hgenerate : c.generate s = ⟨Stage.course ++ [.done], .ok g⟩ := by rw [generate, hx]; rfl
    refine ⟨.inl ⟨g, hgenerate⟩, hfailed, habandoned, ?_, ?_, hx ▸ hstage⟩
    · simp [hgenerate, Stage.course]
    · rw [hgenerate]
      exact nodup_course_append List.prefix_rfl (by decide)
  | @error passed f hpassed h =>
    have hfailed' := fun hf => (hfailed passed f hf).1 h
    have habandoned' := fun hf => (habandoned passed f hf).1 h
    have hdone : .done ∉ passed := fun hmem => absurd (hpassed.subset hmem) (by decide)
    refine ⟨.inr ⟨passed, f, hpassed, h, hfailed', habandoned'⟩, hfailed, habandoned, ?_, ?_,
      hx ▸ hstage⟩
    all_goals cases hf : f.isNoticed
    · simp [habandoned' hf, hdone]
    · simp [hfailed' hf, hdone]
    · rw [habandoned' hf]
      exact hpassed.sublist.nodup (by decide)
    · rw [hfailed' hf]
      exact nodup_course_append hpassed (by decide)

/-- A configuration with one model, whose mapper lets the run be cancelled while it waits. -/
def Config.abandonedConfig : Config :=
  { noteConfig with
    input := some ⟨some [.text "note"], none, none⟩
    mapper := ⟨some ⟨"wait", fun _ => .error (.abandoned "CancelledError" "")⟩, none⟩ }

/-- A run that is given up neither has a result nor fails. -/
theorem Config.not_stages_abandonedConfig :
    ¬ ((∃ g, abandonedConfig.generate noFiles = ⟨Stage.course ++ [.done], .ok g⟩) ∨
      ∃ passed f, passed <+: Stage.course ∧
        abandonedConfig.generate noFiles = ⟨passed ++ [.failed], .error f⟩) := by
  have hgenerate : abandonedConfig.generate noFiles =
      ⟨[.loadingExternal, .readingSource, .applyingMapper],
        .error (.abandoned "CancelledError" "")⟩ := rfl
  rw [hgenerate]
  rintro (⟨g, h⟩ | ⟨passed, f, -, h⟩)
  · cases h
  · have hlast := congrArg (fun r => r.entered.getLast?) h
    simp at hlast

end ContentSchema
