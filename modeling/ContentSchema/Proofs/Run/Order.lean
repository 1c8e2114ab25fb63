import ContentSchema.Proofs.Run.Definitions

/-!
# The order of a reading

The definitions of a run are read step by step, in one order for all sources: the source is chosen,
an address resolved, a loader called or tables read, then models and after them components are
mapped, and then models and after them components are validated.  Of several steps that would fail
the first one stops the reading, and no later one is taken.

* `Config.readingSteps`: all steps of a reading in their order.
* `Config.reading`: the reading with a log of the steps that it takes.
* `Logged.Takes.bind`: what is taken one after another is taken in the order of both.
* `Config.takes_reading`: the steps of a reading are taken up to the first one that fails.
* `Config.reading_congr`: no other step has an influence.
* `Config.order_definitions`: the order in which a reading fails.
-/

namespace ContentSchema

variable {α β : Type}

/-! ### Steps with a log -/

/-- A step of a reading. -/
inductive ReadingStep where
  /-- The source of definitions is chosen. -/
  | source
  /-- The address of the database is resolved. -/
  | address
  /-- The loader is called. -/
  | load (loader : Hook)
  /-- A table is read. -/
  | rows (kind : DefinitionKind) (table : String)
  /-- An item is mapped, or decoded if it is a row without a mapper. -/
  | map (input : InputSource) (kind : DefinitionKind) (item : Value)
  /-- A definition is validated. -/
  | check (kind : DefinitionKind) (raw : Value)

/-- The failure of an outcome, if it is one. -/
def failure? : Outcome α → Option Failure
  | .ok _ => none
  | .error f => some f

/-- An outcome with the steps that were taken on the way to it. -/
structure Logged (α : Type) where
  /-- The steps in order. -/
  steps : List ReadingStep
  /-- The outcome. -/
  outcome : Outcome α

namespace Logged

/-- Goes on with a result; a failure is the last that happens. -/
def bind (x : Logged α) (next : α → Logged β) : Logged β :=
  match x.outcome with
  | .ok a => ⟨x.steps ++ (next a).steps, (next a).outcome⟩
  | .error f => ⟨x.steps, .error f⟩

instance : Monad Logged where
  pure a := ⟨[], .ok a⟩
  bind := bind

/-- Takes a step. -/
def take (step : ReadingStep) (outcome : Outcome α) : Logged α := ⟨[step], outcome⟩

theorem ok_bind (steps : List ReadingStep) (a : α) (next : α → Logged β) :
    (⟨steps, .ok a⟩ : Logged α) >>= next = ⟨steps ++ (next a).steps, (next a).outcome⟩ := rfl

theorem error_bind (steps : List ReadingStep) (f : Failure) (next : α → Logged β) :
    (⟨steps, .error f⟩ : Logged α) >>= next = ⟨steps, .error f⟩ := rfl

theorem outcome_bind (x : Logged α) (next : α → Logged β) :
    (x >>= next).outcome = x.outcome >>= fun a => (next a).outcome := by
  obtain ⟨steps, outcome⟩ := x
  cases outcome <;> rfl

instance : LawfulMonad Logged := LawfulMonad.mk' Logged
  (by
    rintro α ⟨steps, _ | a⟩
    · rfl
    · show (⟨steps ++ [], .ok a⟩ : Logged α) = _
      rw [List.append_nil])
  (fun _ _ => rfl)
  (by
    rintro α β γ ⟨steps, _ | a⟩ next last
    · rfl
    · rw [ok_bind, ok_bind]
      generalize next a = y
      obtain ⟨steps', _ | b⟩ := y
      · rfl
      · rw [ok_bind, ok_bind, List.append_assoc])

theorem outcome_mapM (f : α → Logged β) (l : List α) :
    (l.mapM f).outcome = l.mapM fun a => (f a).outcome := by
  induction l with
  | nil => rfl
  | cons a l ih =>
    rw [List.mapM_cons, List.mapM_cons, outcome_bind]
    congr 1
    funext b
    rw [outcome_bind, ih]
    rfl

theorem outcome_mapM_take (step : α → ReadingStep) (o : α → Outcome β) (l : List α) :
    (l.mapM fun a => take (step a) (o a)).outcome = l.mapM o := outcome_mapM _ l

/-! ### Steps up to the first that fails -/

/-- All of some steps are taken and go well, or they are taken up to the first that fails, whose
failure is the outcome. -/
inductive Takes (fails : ReadingStep → Option Failure) (steps : List ReadingStep) :
    Logged α → Prop where
  /-- All are taken. -/
  | ok (a : α) (h : ∀ step ∈ steps, fails step = none) : Takes fails steps ⟨steps, .ok a⟩
  /-- One of them fails. -/
  | error (before after : List ReadingStep) {step : ReadingStep} {f : Failure}
    (hsteps : steps = before ++ step :: after) (hbefore : ∀ b ∈ before, fails b = none)
    (h : fails step = some f) : Takes fails steps ⟨before ++ [step], .error f⟩

namespace Takes

variable {fails : ReadingStep → Option Failure} {steps : List ReadingStep} {x : Logged α}

theorem pure (a : α) : Takes fails [] (Pure.pure a) := .ok a nofun

theorem take {step : ReadingStep} {o : Outcome α} (h : fails step = failure? o) :
    Takes fails [step] (take step o) := by
  cases o with
  | ok a =>
    refine .ok a fun step' hstep' => ?_
    obtain rfl := List.mem_singleton.1 hstep'
    exact h
  | error f => exact .error [] [] rfl nofun h

/-- What is taken one after another is taken in the order of both. -/
theorem bind (first rest : List ReadingStep) {next : α → Logged β} (hx : Takes fails first x)
    (hnext : ∀ a, x.outcome = .ok a → Takes fails rest (next a)) :
    Takes fails (first ++ rest) (x >>= next) := by
  cases hx with
  | ok a hfirst =>
    rw [ok_bind]
    have ha := hnext a rfl
    generalize next a = y at ha
    cases ha with
    | ok b hrest =>
      refine .ok b fun step hstep => ?_
      rcases List.mem_append.1 hstep with hstep | hstep
      · exact hfirst step hstep
      · exact hrest step hstep
    | @error before after step f hsteps hbefore h =>
      rw [← List.append_assoc]
      refine .error _ after ?_ (fun b hb => ?_) h
      · rw [hsteps, List.append_assoc]
      · rcases List.mem_append.1 hb with hb | hb
        · exact hfirst b hb
        · exact hbefore b hb
  | @error before after step f hsteps hbefore h =>
    refine .error _ (after ++ rest) ?_ hbefore h
    rw [hsteps, List.append_assoc, List.cons_append]

theorem mapM {step : α → ReadingStep} {o : α → Outcome β}
    (h : ∀ a, fails (step a) = failure? (o a)) (l : List α) :
    Takes fails (l.map step) (l.mapM fun a => Logged.take (step a) (o a)) := by
  induction l with
  | nil => exact .pure []
  | cons a l ih =>
    rw [List.mapM_cons]
    refine .bind [step a] _ (.take (h a)) fun b _ => ?_
    rw [← List.append_nil (l.map step)]
    exact .bind _ [] ih fun bs _ => .pure _

/-- The failure of an outcome is that of the first step that fails. -/
theorem findSome?_eq (h : Takes fails steps x) : steps.findSome? fails = failure? x.outcome := by
  cases h with
  | ok a hnone => exact List.findSome?_eq_none_iff.2 hnone
  | error before after hsteps hbefore hfails =>
    rw [hsteps, List.findSome?_append, List.findSome?_eq_none_iff.2 hbefore, List.findSome?_cons,
      hfails]
    rfl

end Takes

/-! ### Influence -/

/-- Two computations are the same if they have the same outcome at each step of some kind that the
first one takes. -/
def AgreesOn (p : ReadingStep → Prop) (x x' : Logged α) : Prop := (∀ step ∈ x.steps, p step) → x = x'

namespace AgreesOn

variable {p : ReadingStep → Prop} {x x' : Logged α}

theorem refl (x : Logged α) : AgreesOn p x x := fun _ => rfl

theorem take {step : ReadingStep} {o o' : Outcome α} (h : p step → o = o') :
    AgreesOn p (take step o) (take step o') := by
  intro hsteps
  rw [h (hsteps step (List.mem_singleton_self step))]

theorem bind {next next' : α → Logged β} (hx : AgreesOn p x x')
    (hnext : ∀ a, AgreesOn p (next a) (next' a)) : AgreesOn p (x >>= next) (x' >>= next') := by
  intro hsteps
  obtain ⟨steps, outcome⟩ := x
  cases outcome with
  | error f =>
    obtain rfl := hx hsteps
    rfl
  | ok a =>
    rw [ok_bind] at hsteps
    obtain rfl := hx fun step hstep => hsteps step (List.mem_append_left _ hstep)
    rw [ok_bind, ok_bind, hnext a fun step hstep => hsteps step (List.mem_append_right _ hstep)]

theorem mapM {f f' : α → Logged β} (h : ∀ a, AgreesOn p (f a) (f' a)) (l : List α) :
    AgreesOn p (l.mapM f) (l.mapM f') := by
  induction l with
  | nil => exact .refl _
  | cons a l ih =>
    rw [List.mapM_cons, List.mapM_cons]
    exact .bind (h a) fun b => .bind ih fun bs => .refl _

end AgreesOn

end Logged

/-! ### The steps of a reading -/

namespace ReadingStep

/-- The failure of a step, if it fails. -/
def failure? (c : Config) (s : Surroundings) : ReadingStep → Option Failure
  | source => ContentSchema.failure? (c.inputSource.mapError .config)
  | address => ContentSchema.failure? ((c.connectionUrl s.environment).mapError .config)
  | load loader => ContentSchema.failure? (Config.callLoader loader)
  | rows kind table =>
    -- without a source there is nothing to read, and the step is not reached
    (c.rowSource s).toOption.bind fun source =>
      match kind with
      | .model => ContentSchema.failure? (source.rows table)
      | .component => ContentSchema.failure? (Config.componentRows source table)
  | map input kind item => ContentSchema.failure? (c.rawDefinition input kind item)
  | check .model raw => ContentSchema.failure? (validModel raw)
  | check .component raw => ContentSchema.failure? (validComponent raw)

end ReadingStep

namespace Config

/-- The steps by which a source is read. -/
def fetchSteps (c : Config) (s : Surroundings) : InputSource → List ReadingStep
  | .direct => []
  | .loader => (c.input.bind (·.loader)).toList.map .load
  | .database =>
    (if s.injected.isSome then [] else [.address]) ++ .rows .model c.tables.models ::
      (c.tables.components.toList.filter (· ≠ "")).map (.rows .component)

/-- The steps by which items are mapped, and those by which what they are mapped to is validated. -/
def itemSteps (c : Config) (source : InputSource) (items : RawDefinitions) : List ReadingStep :=
  let mapped (kind : DefinitionKind) (given : List Value) : List Value :=
    given.filterMap fun item => (c.rawDefinition source kind item).toOption
  items.models.map (.map source .model) ++ items.components.map (.map source .component) ++
    (mapped .model items.models).map (.check .model) ++
    (mapped .component items.components).map (.check .component)

/-- The steps of a reading in order.  Those behind a failure of the source are left out, as there is
nothing that they could be about. -/
def readingSteps (c : Config) (s : Surroundings) : List ReadingStep :=
  .source :: match c.inputSource with
    | .error _ => []
    | .ok source => c.fetchSteps s source ++ match c.fetch s source with
      | .error _ => []
      | .ok items => c.itemSteps source items

/-- Resolves the address of the database, unless there are rows in its place. -/
def readAddress (c : Config) (s : Surroundings) : Logged RowSource :=
  match s.injected with
  | some source => pure source
  | none => do
    let url ← .take .address ((c.connectionUrl s.environment).mapError .config)
    return s.databases.source s.files.here url

/-- Reads a source step by step. -/
def readItems (c : Config) (s : Surroundings) : InputSource → Logged RawDefinitions
  | .direct => ⟨[], c.fetch s .direct⟩
  | .loader =>
    match c.input.bind (·.loader) with
    | some loader => .take (.load loader) (callLoader loader)
    | none => pure ⟨[], [], []⟩
  | .database => do
    let source ← c.readAddress s
    let models ← .take (.rows .model c.tables.models) (source.rows c.tables.models)
    let table := c.tables.components.getD ""
    let (components, warnings) ←
      if table = "" then pure ([], [])
      else .take (.rows .component table) (componentRows source table)
    return ⟨models, components, warnings⟩

/-- Reads the definitions of a configuration step by step. -/
def reading (c : Config) (s : Surroundings) : Logged Definitions := do
  let source ← .take .source (c.inputSource.mapError .config)
  let items ← c.readItems s source
  let models ← items.models.mapM fun item =>
    .take (.map source .model item) (c.rawDefinition source .model item)
  let components ← items.components.mapM fun item =>
    .take (.map source .component item) (c.rawDefinition source .component item)
  let validModels ← models.mapM fun raw => .take (.check .model raw) (validModel raw)
  let validComponents ← components.mapM fun raw => .take (.check .component raw) (validComponent raw)
  return ⟨validModels, .ofList validComponents, items.warnings⟩

variable {c : Config} {s : Surroundings}

/-! ### The same reading -/

theorem outcome_readAddress (c : Config) (s : Surroundings) :
    (c.readAddress s).outcome = c.rowSource s := by
  rw [readAddress, rowSource]
  cases s.injected with
  | some source => rfl
  | none => cases c.connectionUrl s.environment <;> rfl

theorem outcome_readItems (c : Config) (s : Surroundings) (source : InputSource) :
    (c.readItems s source).outcome = c.fetch s source := by
  cases source with
  | direct => rfl
  | loader =>
    rw [readItems, fetch]
    cases c.input.bind (·.loader) <;> rfl
  | database =>
    rw [readItems, fetch, Logged.outcome_bind, outcome_readAddress]
    congr 1
    funext source
    rw [fetchRows, Logged.outcome_bind]
    congr 1
    funext models
    dsimp only
    by_cases htable : c.tables.components.getD "" = ""
    · rw [if_pos htable, if_pos htable]
      rfl
    · rw [if_neg htable, if_neg htable, Logged.outcome_bind]
      rfl

/-- Apart from the stages, a reading fetches all items and maps them. -/
theorem outcome_rawDefinitions {source : InputSource} (hsource : c.inputSource = .ok source) :
    (c.rawDefinitions s).outcome = c.fetch s source >>= c.mapItems source := by
  rw [rawDefinitions, hsource, Staged.outcome_bind]
  show Staged.outcome _ = _
  rw [Staged.outcome_bind]
  cases c.fetch s source <;> rfl

/-- What is mapped is validated. -/
theorem outcome_definitions {source : InputSource} (hsource : c.inputSource = .ok source) :
    (c.definitions s).outcome =
      c.fetch s source >>= fun items => c.mapItems source items >>= RawDefinitions.validate := by
  rw [← bind_assoc, ← outcome_rawDefinitions hsource]
  exact Staged.outcome_bind _ _

/-- The reading with a log is the reading of a run. -/
theorem outcome_reading (c : Config) (s : Surroundings) :
    (c.reading s).outcome = (c.definitions s).outcome := by
  rw [reading, Logged.outcome_bind]
  cases hsource : c.inputSource with
  | error fault =>
    rw [definitions, rawDefinitions, hsource]
    rfl
  | ok source =>
    rw [outcome_definitions hsource]
    show (c.readItems s source >>= _).outcome = _
    rw [Logged.outcome_bind, outcome_readItems]
    congr 1
    funext items
    simp only [Logged.outcome_bind, Logged.outcome_mapM_take, mapItems, RawDefinitions.validate,
      bind_assoc, pure_bind]
    rfl

/-! ### What is taken -/

theorem takes_readAddress (c : Config) (s : Surroundings) :
    (c.readAddress s).Takes (·.failure? c s) (if s.injected.isSome then [] else [.address]) := by
  rw [readAddress]
  cases s.injected with
  | some source => exact .pure source
  | none => exact .bind [.address] [] (.take rfl) fun url _ => .pure _

theorem takes_readItems (c : Config) (s : Surroundings) (source : InputSource) :
    (c.readItems s source).Takes (·.failure? c s) (c.fetchSteps s source) := by
  cases source with
  | direct => exact .ok _ nofun
  | loader =>
    rw [readItems, fetchSteps]
    cases c.input.bind (·.loader) with
    | some loader => exact .take rfl
    | none => exact .pure _
  | database =>
    rw [readItems, fetchSteps]
    refine .bind _ _ (c.takes_readAddress s) fun source hsource => ?_
    rw [outcome_readAddress] at hsource
    refine .bind [.rows .model c.tables.models] _ (.take ?_) fun models _ => ?_
    · simp [ReadingStep.failure?, hsource, Except.toOption]
    · cases c.tables.components with
      | none => exact .pure _
      | some table =>
        by_cases htable : table = ""
        · subst htable
          exact .pure _
        · rw [Option.getD_some, if_neg htable]
          rw [show (some table).toList.filter (· ≠ "") = [table] by simp [htable]]
          refine .bind [_] [] (.take ?_) fun components _ => .pure _
          simp [ReadingStep.failure?, hsource, Except.toOption]

/-- The steps of a reading are taken up to the first that fails. -/
theorem takes_reading (c : Config) (s : Surroundings) :
    (c.reading s).Takes (·.failure? c s) (c.readingSteps s) := by
  rw [reading, readingSteps]
  refine .bind [.source] _ (.take rfl) fun source hsource => ?_
  have hsource : c.inputSource = .ok source := mapError_eq_ok.1 hsource
  rw [hsource]
  refine .bind _ _ (c.takes_readItems s source) fun items hitems => ?_
  rw [outcome_readItems] at hitems
  rw [hitems]
  dsimp only [itemSteps]
  rw [List.append_assoc, List.append_assoc]
  refine .bind _ _ (.mapM (fun _ => rfl) _) fun models hmodels => ?_
  refine .bind _ _ (.mapM (fun _ => rfl) _) fun components hcomponents => ?_
  rw [Logged.outcome_mapM_take] at hmodels hcomponents
  rw [filterMap_toOption_of_mapM hmodels, filterMap_toOption_of_mapM hcomponents]
  refine .bind _ _ (.mapM (fun _ => rfl) _) fun validModels _ => ?_
  rw [← List.append_nil (components.map _)]
  exact .bind _ [] (.mapM (fun _ => rfl) _) fun validComponents _ => .pure _

/-! ### What has an influence -/

/-- The configuration with other mappers. -/
def withMapper (c : Config) (mapper : MapperSection) : Config := { c with mapper := mapper }

/-- The mappers do the same in a step. -/
def MapsAlike (c : Config) (mapper : MapperSection) : ReadingStep → Prop
  | .map input kind item =>
    c.rawDefinition input kind item = (c.withMapper mapper).rawDefinition input kind item
  | _ => True

/-- Other mappers make no difference if they do the same in the steps that are taken. -/
theorem reading_congr {mapper : MapperSection}
    (h : ∀ step ∈ (c.reading s).steps, c.MapsAlike mapper step) :
    c.reading s = (c.withMapper mapper).reading s := by
  refine Logged.AgreesOn.bind (.refl _) (fun source => ?_) h
  refine .bind (.refl _) fun items => ?_
  refine .bind (.mapM (fun _ => .take id) _) fun models => ?_
  refine .bind (.mapM (fun _ => .take id) _) fun components => ?_
  exact .refl _

/-! ### Tolerated failures -/

/-- The rows of components can be read, or their source fails in the one way that it should. -/
def ToleratesComponents (c : Config) (s : Surroundings) : Prop :=
  ∀ source table f, c.inputSource = .ok .database → c.rowSource s = .ok source →
    c.tables.components = some table → source.rows table = .error f → ∃ reason, f = .source reason

/-- Rows of components are read in a database, from the table that is configured. -/
theorem of_rows_mem_readingSteps {table : String}
    (h : .rows .component table ∈ c.readingSteps s) :
    c.inputSource = .ok .database ∧ c.tables.components = some table := by
  rw [readingSteps] at h
  cases hsource : c.inputSource with
  | error fault => simp [hsource] at h
  | ok source =>
    have hfetch : .rows .component table ∈ c.fetchSteps s source := by
      cases hfetch : c.fetch s source with
      | error f => simpa [hsource, hfetch] using h
      | ok items => simpa [hsource, hfetch, itemSteps] using h
    cases source with
    | direct => simp [fetchSteps] at hfetch
    | loader => simp [fetchSteps] at hfetch
    | database =>
      cases htables : c.tables.components with
      | none => simp [fetchSteps, htables] at hfetch
      | some table' =>
        obtain ⟨rfl, -⟩ : table = table' ∧ table ≠ "" := by
          simpa [fetchSteps, htables] using hfetch
        exact ⟨rfl, rfl⟩

/-- Rows of components that are tolerated stop no reading. -/
theorem ToleratesComponents.failure?_eq_none (h : c.ToleratesComponents s) {table : String}
    (hmem : .rows .component table ∈ c.readingSteps s) :
    (ReadingStep.rows .component table).failure? c s = none := by
  obtain ⟨hdatabase, htable⟩ := of_rows_mem_readingSteps hmem
  rw [ReadingStep.failure?]
  cases hsource : c.rowSource s with
  | error f => rfl
  | ok source =>
    show failure? (componentRows source table) = none
    rw [componentRows]
    cases hrows : source.rows table with
    | ok rows => rfl
    | error f =>
      obtain ⟨reason, rfl⟩ := h source table f hdatabase hsource htable hrows
      rfl

end Config

/-- A reading fails as the first of its steps that fails.  It takes all steps if none of them fails,
and else those up to that one; what other mappers would do in steps that are not taken makes no
difference.  To read the rows of components is no step that fails if these can be read, or their
source fails in the one way that it should. -/
theorem Config.order_definitions (c : Config) (s : Surroundings) :
    (c.readingSteps s).findSome? (·.failure? c s) = failure? (c.definitions s).outcome ∧
    (c.reading s).outcome = (c.definitions s).outcome ∧
    ((∃ d, (c.definitions s).outcome = .ok d) ∧ (c.reading s).steps = c.readingSteps s ∨
      ∃ before step after f, c.readingSteps s = before ++ step :: after ∧
        (∀ b ∈ before, b.failure? c s = none) ∧ step.failure? c s = some f ∧
        (c.definitions s).outcome = .error f ∧ (c.reading s).steps = before ++ [step]) ∧
    (∀ mapper, (∀ step ∈ (c.reading s).steps, c.MapsAlike mapper step) →
      ((c.withMapper mapper).definitions s).outcome = (c.definitions s).outcome) ∧
    (c.ToleratesComponents s → ∀ table, .rows .component table ∈ c.readingSteps s →
      (ReadingStep.rows .component table).failure? c s = none) := by
  have htakes := c.takes_reading s
  refine ⟨htakes.findSome?_eq.trans (congrArg _ (c.outcome_reading s)), c.outcome_reading s, ?_, ?_,
    fun h table hmem => h.failure?_eq_none hmem⟩
  · rw [← outcome_reading]
    generalize c.reading s = x at htakes
    cases htakes with
    | ok d h => exact .inl ⟨⟨d, rfl⟩, rfl⟩
    | @error before after step f hsteps hbefore h =>
      exact .inr ⟨before, step, after, f, hsteps, hbefore, h, rfl, rfl⟩
  · intro mapper h
    rw [← outcome_reading, ← outcome_reading, reading_congr h]

/-! ### A reading with many failures -/

/-- A row with a slug. -/
def slugRow (slug : String) : Value := .object [("slug", .text slug)]

/-- A mapper that knows one row. -/
def pageMapper : Hook where
  name := "mappers:page"
  call
    | some (.object [("slug", .text "page")]) => .ok (slugRow "page")
    | _ => .error (.raised "KeyError" "'fields'")

/-- A run over stored pages. -/
def pageConfig : Config where
  connection := some "sqlite://"
  input := none
  tables := ⟨"model", some "component"⟩
  mapper := ⟨some pageMapper, none⟩
  external := none
  output := .standard
  translation := .standard
  naming := .standard
  generators := []

/-- There is one row that the mapper knows, between others; components cannot be read. -/
def pageRows : RowSource where
  find table :=
    if table = "model" then .ok (.list [slugRow "page", slugRow "post", slugRow "note"])
    else .error (.source "locked")

/-- The rows are used in place of those of a database. -/
def pageSurroundings : Surroundings := ⟨⟨[], []⟩, [], [], some pageRows⟩

theorem toleratesComponents_pageConfig : pageConfig.ToleratesComponents pageSurroundings := by
  intro source table f _ hsource htable hrows
  cases hsource
  cases htable
  cases hrows
  exact ⟨"locked", rfl⟩

/-- The page would not be valid, neither the post nor the note can be mapped, and components cannot
be read: the run fails at the post, and the note is not mapped. -/
theorem order_pageConfig :
    failure? (pageConfig.definitions pageSurroundings).outcome =
      some (.hook "mapper.model" (.text "post") "KeyError" "'fields'") ∧
    (pageConfig.reading pageSurroundings).outcome = (pageConfig.definitions pageSurroundings).outcome ∧
    (pageConfig.reading pageSurroundings).steps = [.source, .rows .model "model",
      .rows .component "component", .map .database .model (slugRow "page"),
      .map .database .model (slugRow "post")] ∧
    (ReadingStep.rows .component "component").failure? pageConfig pageSurroundings = none := by
  obtain ⟨hfirst, houtcome, -, -, htolerated⟩ :=
    pageConfig.order_definitions pageSurroundings
  refine ⟨hfirst.symm.trans rfl, houtcome, rfl, htolerated toleratesComponents_pageConfig _ ?_⟩
  show _ ∈ _ :: _ :: _ :: _
  simp

end ContentSchema
