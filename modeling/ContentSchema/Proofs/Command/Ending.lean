import ContentSchema.Proofs.Command.Analysis
import ContentSchema.Proofs.Command.Questions
import ContentSchema.Proofs.Files.Access
import ContentSchema.Proofs.Run.Slips

/-!
# How commands end

A command is completed, or users are told why it cannot be, or it breaks off.  In the first two
cases, and only in these, it ends with an exit code.

* `Command.Completes`, `Command.Tells`: the first two cases, each with all ways to get there.
* `Command.Breaks`: ways to break off.
* `Command.Meets.ending_run`: a failure ends the command that meets it.
* `Command.Meets.breaks`: what is behind failures that are not expected.
* `Command.ending_runArguments`: how a command line ends.
-/

namespace ContentSchema

/-- The text of a new configuration. -/
def Answers.document (a : Answers) : String := String.ofList (Yaml.write (.object a.toEntries))

/-- Answers refer to no hooks. -/
theorem Answers.hookSlips_toEntries (library : Library) (a : Answers) :
    Config.hookSlips library a.toEntries = [] := rfl

namespace Command

/-! ### What may happen to a command -/

/-- The file of the configuration that a command takes. -/
def configPath? : Command → Option String
  | generate path | validate path | analyze path => some path
  | init .. => none

theorem configPath?_eq_some {command : Command} {path : String} :
    command.configPath? = some path ↔
      command = generate path ∨ command = validate path ∨ command = analyze path := by
  cases command <;> simp [configPath?]

/-- The answers that a new configuration is made of, unless the input ends before. -/
def answers? (input : List Char) (assumeYes : Bool) : Option Answers :=
  if assumeYes then some .standard else (Answers.ask ⟨"", input⟩).1.toOption

/-- Whether a command may write a file: there is none, or it may be overwritten. -/
def mayWrite (s : Surroundings) (output : String) (force : Bool) : Bool :=
  !s.files.has (.ofText output) || force

theorem mayWrite_eq_not (s : Surroundings) (output : String) (force : Bool) :
    mayWrite s output force = !(s.files.has (.ofText output) && !force) := by
  simp [mayWrite]

section Cases

variable (library : Library) (s : Surroundings) (input : List Char)

/-- A command comes to the point where it writes a text to a file. -/
inductive Writes : Command → Path → String → Prop where
  /-- The schema of a run. -/
  | schema {path : String} {c : Config} {g : Generation}
    (hc : Config.load library s.files path = .ok c) (hg : (c.generate s).outcome = .ok g) :
    Writes (generate path) (.ofText c.output.schemaPath) (String.ofList g.schema)
  /-- A new configuration. -/
  | config {output : String} {assumeYes force : Bool} {a : Answers} {c : Config}
    (hmay : mayWrite s output force = true) (ha : answers? input assumeYes = some a)
    (hc : Config.ofEntries library a.toEntries = .ok c) :
    Writes (init output assumeYes force) (.ofText output) a.document

/-- A command meets a failure. -/
inductive Meets : Command → Failure → Prop where
  /-- The configuration cannot be loaded. -/
  | load {command : Command} {path : String} {f : Failure} (hpath : command.configPath? = some path)
    (h : Config.load library s.files path = .error f) : Meets command f
  /-- Definitions that should be checked cannot be read. -/
  | reading {path : String} {c : Config} {f : Failure}
    (hc : Config.load library s.files path = .ok c) (h : (c.rawDefinitions s).outcome = .error f) :
    Meets (validate path) f
  /-- There are no valid definitions to list tables of. -/
  | definitions {path : String} {c : Config} {f : Failure}
    (hc : Config.load library s.files path = .ok c) (h : (c.definitions s).outcome = .error f) :
    Meets (analyze path) f
  /-- The definitions have no tables. -/
  | compilation {path : String} {c : Config} {d : Definitions} {e : CompileError}
    (hc : Config.load library s.files path = .ok c) (hd : (c.definitions s).outcome = .ok d)
    (h : compileModels d.models d.components (c.runSettings s) = .error e) :
    Meets (analyze path) (.compile e)
  /-- The run fails. -/
  | run {path : String} {c : Config} {f : Failure} (hc : Config.load library s.files path = .ok c)
    (h : (c.generate s).outcome = .error f) : Meets (generate path) f
  /-- The answers spell no configuration. -/
  | answers {output : String} {assumeYes force : Bool} {a : Answers} {f : Failure}
    (hmay : mayWrite s output force = true) (ha : answers? input assumeYes = some a)
    (h : Config.ofEntries library a.toEntries = .error f) : Meets (init output assumeYes force) f
  /-- The file cannot be written. -/
  | file {command : Command} {p : Path} {text : String} {fault : FileFault}
    (hwrites : Writes library s input command p text)
    (h : (s.files.write p text).1 = .error fault) : Meets command (.file fault)

/-- A command is completed with an exit code. -/
inductive Completes : Command → Nat → Prop where
  /-- The file is written. -/
  | written {command : Command} {p : Path} {text : String} {n : Nat}
    (hwrites : Writes library s input command p text) (h : (s.files.write p text).1 = .ok n) :
    Completes command 0
  /-- All definitions are checked; the code tells whether they are sound. -/
  | checked {path : String} {c : Config} {raw : RawDefinitions}
    (hc : Config.load library s.files path = .ok c)
    (hraw : (c.rawDefinitions s).outcome = .ok raw) :
    Completes (validate path) (if (checkDefinitions raw.models raw.components
      (externalNames c s)).isSound then 0 else 1)
  /-- All tables are listed. -/
  | listed {path : String} {c : Config} {d : Definitions} {compilation : Compilation}
    (hc : Config.load library s.files path = .ok c) (hd : (c.definitions s).outcome = .ok d)
    (h : compileModels d.models d.components (c.runSettings s) = .ok compilation) :
    Completes (analyze path) 0

/-- A command cannot be completed for a reason that users are told. -/
inductive Tells : Command → String → Prop where
  /-- It meets a failure that is expected. -/
  | failure {command : Command} {f : Failure} (h : Meets library s input command f)
    (hf : f.isExpected = true) : Tells command f.message
  /-- Something is in the way of the new configuration. -/
  | taken {output : String} {assumeYes force : Bool} (hmay : mayWrite s output force = false) :
    Tells (init output assumeYes force)
      ((Path.ofText output).text ++ " already exists (use --force to overwrite).")

/-- A command breaks off. -/
inductive Breaks : Command → Prop where
  /-- The input has fewer lines than there are questions about the new configuration. -/
  | input {output : String} {force : Bool} (hmay : mayWrite s output force = true)
    (hlines : lineCount input < 7) : Breaks (init output false force)
  /-- The configuration is misread. -/
  | config {command : Command} {path : String} (hpath : command.configPath? = some path)
    (h : Config.Misread library s.files path) : Breaks command
  /-- A hook, what a loader gives or the address of the database trips the reading. -/
  | reading {command : Command} {path : String} {c : Config} {f : Failure}
    (hpath : command.configPath? = some path) (hc : Config.load library s.files path = .ok c)
    (h : (c.rawDefinitions s).outcome = .error f) (hf : f.isExpected = false)
    (hne : f ≠ .slip .inexpressible) (htrips : c.Trips s f) : Breaks command
  /-- A name that the definitions ask for is empty, where they are compiled. -/
  | nameless {command : Command} {path : String} {c : Config} {d : Definitions}
    (hcommand : command = generate path ∨ command = analyze path)
    (hc : Config.load library s.files path = .ok c) (hd : (c.definitions s).outcome = .ok d)
    (h : ¬ d.Named (c.runSettings s)) : Breaks command
  /-- A number of the schema is too long to be written. -/
  | oversized {path : String} {c : Config} {d : Definitions} {compilation : Compilation}
    (hc : Config.load library s.files path = .ok c) (hd : (c.definitions s).outcome = .ok d)
    (hcompilation : compileModels d.models d.components (c.runSettings s) = .ok compilation)
    (h : (c.schemaOf s compilation).holdsOversized = true) : Breaks (generate path)
  /-- There is a null character in the path of the file that is written. -/
  | path {command : Command} {p q : Path} {text : String}
    (hwrites : Writes library s input command p text)
    (h : (s.files.write p text).1 = .error ⟨.nullByte, q⟩) (hnull : q.holdsNull = true) :
    Breaks command

end Cases

/-! ### Endings -/

variable {library : Library} {s : Surroundings} {input : List Char} {command : Command}
  {path output : String} {assumeYes force : Bool} {c : Config} {f : Failure}

theorem endingOf_of_expected (hf : f.isExpected = true) :
    endingOf f = .finished 1 (complaint f.message) := by
  simp [endingOf, hf]

theorem endingOf_of_unexpected (hf : f.isExpected = false) : endingOf f = .broken f := by
  simp [endingOf, hf]

/-- The end of a command that takes a configuration and generates a schema. -/
theorem ending_generate (hc : Config.load library s.files path = .ok c) :
    ((generate path).run library s input).ending =
      match (c.generate s).outcome with
      | .error f => endingOf f
      | .ok g =>
        match (s.files.write (.ofText c.output.schemaPath) (String.ofList g.schema)).1 with
        | .error fault => endingOf (.file fault)
        | .ok _ => .finished 0 "" := by
  cases hg : (c.generate s).outcome with
  | error f => simp [run, runGenerate, hc, Config.write, hg]
  | ok g =>
    cases hw : (s.files.write (.ofText c.output.schemaPath) (String.ofList g.schema)).1 with
    | error fault => simp [run, runGenerate, hc, Config.write, hg, hw, Except.mapError, Except.map]
    | ok n => simp [run, runGenerate, hc, Config.write, hg, hw, Except.mapError, Except.map]

theorem ending_traceOf (shown : Outcome (String × Nat)) : (traceOf s shown).ending =
    match shown with
    | .ok (_, code) => .finished code ""
    | .error f => endingOf f := by
  cases shown <;> rfl

theorem ending_writeConfig (p : Path) (shown : String) (a : Answers) :
    (writeConfig library s p shown a).ending =
      match Config.ofEntries library a.toEntries with
      | .error f => endingOf f
      | .ok _ =>
        match (s.files.write p a.document).1 with
        | .error fault => endingOf (.file fault)
        | .ok _ => .finished 0 "" := by
  unfold writeConfig
  cases Config.ofEntries library a.toEntries with
  | error f => rfl
  | ok c =>
    dsimp only
    rw [Answers.document]
    split <;> rename_i hw <;> rw [hw]

/-- The end of a command that writes a new configuration. -/
theorem ending_init (hmay : mayWrite s output force = true) :
    ((init output assumeYes force).run library s input).ending =
      match answers? input assumeYes with
      | some a => (writeConfig library s (.ofText output) "" a).ending
      | none => .inputEnded := by
  rw [mayWrite_eq_not, Bool.not_eq_true'] at hmay
  show (runInit library s input output assumeYes force).ending = _
  cases assumeYes with
  | true => simp [runInit, answers?, hmay]
  | false =>
    simp only [runInit, answers?, hmay, Bool.false_eq_true, if_false]
    obtain ⟨_ | a, talk⟩ := Answers.ask ⟨"", input⟩
    · rfl
    · exact (ending_writeConfig _ _ a).trans (ending_writeConfig _ _ a).symm

/-- Questions are answered exactly if there is a line of input for each. -/
theorem exists_answers?_iff : (∃ a, answers? input assumeYes = some a) ↔
    assumeYes = true ∨ 7 ≤ lineCount input := by
  cases assumeYes with
  | true => simp [answers?]
  | false =>
    by_cases hlines : lineCount input < 7
    · have hstops := Answers.takes_ask.stops ⟨"", input⟩ hlines
      simp [answers?, hstops, Except.toOption, hlines]
    · obtain ⟨a, t, ha, -⟩ := Answers.takes_ask.goesOn ⟨"", input⟩ (not_lt.1 hlines)
      simp [answers?, ha, Except.toOption, not_lt.1 hlines]

/-- A command ends with the exit code that it is completed with. -/
theorem Completes.ending_run {code : Nat} (h : Completes library s input command code) :
    (command.run library s input).ending = .finished code "" := by
  cases h with
  | written hwrites hw =>
    cases hwrites with
    | schema hc hg => simp only [ending_generate hc, hg, hw]
    | config hmay ha hc => simp only [ending_init hmay, ha, ending_writeConfig, hc, hw]
  | checked hc hraw =>
    simp only [Command.run, ending_traceOf]
    rw [show validation library s _ = .ok (_, _) from
      bind_eq_ok.2 ⟨_, hc, bind_eq_ok.2 ⟨_, hraw, rfl⟩⟩]
  | listed hc hd h => simp only [run_analyze hc hd h]

/-- A failure ends the command that meets it. -/
theorem Meets.ending_run (h : Meets library s input command f) :
    (command.run library s input).ending = endingOf f := by
  cases h with
  | @load _ path _ hpath h =>
    rcases configPath?_eq_some.1 hpath with rfl | rfl | rfl
    · simp [Command.run, runGenerate, h]
    · have hvalidation : validation library s path = .error f := bind_eq_error.2 (.inl h)
      simp [Command.run, ending_traceOf, hvalidation]
    · have hanalysis : analysis library s path = .error f := bind_eq_error.2 (.inl h)
      simp [Command.run, ending_traceOf, hanalysis]
  | @reading path c _ hc h =>
    have hvalidation : validation library s path = .error f :=
      bind_eq_error.2 (.inr ⟨c, hc, bind_eq_error.2 (.inl h)⟩)
    simp [Command.run, ending_traceOf, hvalidation]
  | @definitions path c _ hc h =>
    have hanalysis : analysis library s path = .error f :=
      bind_eq_error.2 (.inr ⟨c, hc, bind_eq_error.2 (.inl h)⟩)
    simp [Command.run, ending_traceOf, hanalysis]
  | @compilation path c d e hc hd h =>
    have hcompile : (c.compile d (externalNames c s)).outcome = .error (.compile e) :=
      (c.outcome_compile d _).trans (mapError_eq_error.2 ⟨e, h, rfl⟩)
    have hanalysis : analysis library s path = .error (.compile e) :=
      bind_eq_error.2 (.inr ⟨c, hc,
        bind_eq_error.2 (.inr ⟨d, hd, bind_eq_error.2 (.inl hcompile)⟩)⟩)
    simp [Command.run, ending_traceOf, hanalysis]
  | run hc h => simp only [ending_generate hc, h]
  | answers hmay ha h => simp only [ending_init hmay, ha, ending_writeConfig, h]
  | file hwrites h =>
    cases hwrites with
    | schema hc hg => simp only [ending_generate hc, hg, h]
    | config hmay ha hc => simp only [ending_init hmay, ha, ending_writeConfig, hc, h]

/-- A reason that users are told ends a command with the exit code 1. -/
theorem Tells.ending_run {reason : String} (h : Tells library s input command reason) :
    (command.run library s input).ending = .finished 1 (complaint reason) := by
  cases h with
  | failure h hf => rw [h.ending_run, endingOf_of_expected hf]
  | @taken output assumeYes force hmay =>
    rw [mayWrite_eq_not, Bool.not_eq_false'] at hmay
    show (runInit library s input output assumeYes force).ending = _
    simp only [runInit, hmay, if_true]

/-! ### Causes -/

theorem not_named_of_error {d : Definitions} {e : CompileError}
    (hd : (c.definitions s).outcome = .ok d)
    (h : compileModels d.models d.components (c.runSettings s) = .error e) :
    ¬ d.Named (c.runSettings s) :=
  ((Config.valid_of_definitions hd).succeedsIff_compileModels _).not_of_error h

/-- Users are not told why a file cannot be written only if its path holds a null character. -/
theorem Writes.breaks {p : Path} {text : String} {fault : FileFault}
    (hwrites : Writes library s input command p text) (h : (s.files.write p text).1 = .error fault)
    (hf : (Failure.file fault).isExpected = false) : Breaks library s input command := by
  obtain ⟨cause, q⟩ := fault
  cases cause with
  | nullByte => exact .path hwrites h (FileSystem.holdsNull_of_write h)
  | _ => cases hf

/-- Answers that spell no configuration are refused in words. -/
theorem isExpected_of_answers {a : Answers} (h : Config.ofEntries library a.toEntries = .error f) :
    f.isExpected = true :=
  Config.isExpected_of_ofEntries h (Answers.hookSlips_toEntries library a)

/-- A command that meets a failure which is not expected breaks off in one of the ways above, unless
a document holds something that no value expresses. -/
theorem Meets.breaks (hinjected : s.injected = none) (h : Meets library s input command f)
    (hf : f.isExpected = false) (hne : f ≠ .slip .inexpressible) :
    Breaks library s input command := by
  -- all commands that take a configuration read it in the same way
  have hreading : ∀ {command : Command} {path : String} {c : Config},
      command.configPath? = some path → Config.load library s.files path = .ok c →
      (c.rawDefinitions s).outcome = .error f → Breaks library s input command :=
    fun hpath hc hraw =>
      .reading hpath hc hraw hf hne (Config.trips_of_rawDefinitions hinjected hf hne hraw)
  cases h with
  | load hpath h => exact .config hpath (Config.misread_iff.2 ⟨f, h, hf, hne⟩)
  | reading hc h => exact hreading rfl hc h
  | definitions hc h => exact hreading rfl hc (Config.rawDefinitions_eq_error_of_definitions hf h)
  | compilation hc hd h => exact .nameless (.inr rfl) hc hd (not_named_of_error hd h)
  | run hc h =>
    rcases Config.generate_eq_error_iff.1 h with h | ⟨d, hd, ⟨e, h, -⟩ | ⟨compilation, hok, h⟩⟩
    · exact hreading rfl hc (Config.rawDefinitions_eq_error_of_definitions hf h)
    · exact .nameless (.inl rfl) hc hd (not_named_of_error hd h)
    · exact .oversized hc hd hok (Config.schemaText_eq_error.1 h).1
  | answers hmay ha h => simp [isExpected_of_answers h] at hf
  | file hwrites h => exact hwrites.breaks h hf

/-- A command that breaks off meets a failure which is not expected, or its input ends. -/
theorem Breaks.exists_meets (h : Breaks library s input command) :
    (∃ f, Meets library s input command f ∧ f.isExpected = false) ∨
      (command.run library s input).ending = .inputEnded := by
  cases h with
  | @input output force hmay hlines =>
    right
    have hnone : answers? input false = none := by
      rw [Option.eq_none_iff_forall_ne_some]
      intro a ha
      rcases exists_answers?_iff.1 ⟨a, ha⟩ with hyes | hmany
      · cases hyes
      · omega
    simp only [ending_init hmay, hnone]
  | config hpath h =>
    obtain ⟨f, h, hf, -⟩ := Config.misread_iff.1 h
    exact .inl ⟨f, .load hpath h, hf⟩
  | @reading _ path c f hpath hc h hf =>
    refine .inl ⟨f, ?_, hf⟩
    have hd : (c.definitions s).outcome = .error f := Staged.outcome_bind_eq_error.2 (.inl h)
    rcases configPath?_eq_some.1 hpath with rfl | rfl | rfl
    · exact .run hc (Config.generate_eq_error_iff.2 (.inl hd))
    · exact .reading hc h
    · exact .definitions hc hd
  | @nameless _ path c d hcommand hc hd h =>
    have hcompile := (Config.valid_of_definitions hd).succeedsIff_compileModels (c.runSettings s)
    obtain ⟨issues, h⟩ := hcompile.exists_rejected h
    refine .inl ⟨.compile (.rejected issues), ?_, rfl⟩
    rcases hcommand with rfl | rfl
    · exact .run hc (Config.generate_eq_error_iff.2 (.inr ⟨d, hd, .inl ⟨_, h, rfl⟩⟩))
    · exact .compilation hc hd h
  | oversized hc hd hok h =>
    have htext := Config.schemaText_eq_error.2 ⟨h, rfl⟩
    have hrun := Config.generate_eq_error_iff.2 (.inr ⟨_, hd, .inr ⟨_, hok, htext⟩⟩)
    exact .inl ⟨_, .run hc hrun, rfl⟩
  | path hwrites h => exact .inl ⟨_, .file hwrites h, rfl⟩

theorem Breaks.ending_run (h : Breaks library s input command) (code : Nat) (text : String) :
    (command.run library s input).ending ≠ .finished code text := by
  rcases h.exists_meets with ⟨f, hmeets, hf⟩ | hended
  · rw [hmeets.ending_run, endingOf_of_unexpected hf]
    nofun
  · rw [hended]
    nofun

end Command

end ContentSchema
