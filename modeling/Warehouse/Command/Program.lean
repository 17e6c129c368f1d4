/-
Module: Warehouse.Command.Program
Purpose: The commands. Each reads the settings and, unless it compares two runs, the catalog; it
  prints its result, reports what went wrong, and ends with 0 if all is well and with 1 otherwise.
  Where a catalog needs more numbers than there are, the command breaks down.
Trusted boundary: none
Main exports: Stop, runCommand
-/
import Warehouse.Catalog.Fingerprint
import Warehouse.Command.Arguments
import Warehouse.Command.Host
import Warehouse.Run.Log
import Warehouse.Run.LogTable
import Warehouse.Run.Manifest
import Warehouse.Run.Script
import Warehouse.Run.SnapshotDiff
import Warehouse.Settings.Basic

namespace Warehouse.Command

open Sql (Dialect RuntimeValues scriptText)

/-- The number that a command ends with. -/
abbrev ExitCode := UInt32

/-- Why a command stops before its end: something is wrong that it reports, or it breaks down. -/
inductive Stop where
  | report (text : String)
  | breakdown (text : String)
deriving DecidableEq, Repr

/-- A part of a command, which may stop it. -/
abbrev Task (m : Type → Type) := ExceptT Stop m

variable {m : Type → Type} [Monad m]

/-- Stops, if there is an error. -/
def orStopWith {ε α : Type} (stop : ε → Stop) (r : Except ε α) : Task m α :=
  ExceptT.mk (pure (r.mapError stop))

/-- Stops with the report of an error, if there is one. -/
def orStop {ε α : Type} (message : ε → String) : Except ε α → Task m α :=
  orStopWith fun e => .report (message e)

/-- Stops with a report. -/
def stop {α : Type} (text : String) : Task m α := throw (.report text)

/-- What an error of a catalog does to a command: one that needs more numbers than there are breaks
it down. -/
def Stop.ofCatalogTextError (path : String) : CatalogTextError → Stop
  | .catalog .numbersExhausted => .breakdown CatalogError.numbersExhausted.message
  | e => .report s!"loading catalog '{path}': {e.message}"

/-! ### Settings and inputs -/

/-- The settings in a file. -/
def readSettings (host : Host m) (path : String) : m (Except SettingsError Settings) := do
  if ! (← host.isThere path) then return .error (.fileNotFound path)
  match ← host.read path with
  | .ok text => return Settings.ofToml text
  | .error e => return .error (.unreadable e.message)

/-- The directory in which the user keeps settings of all programs. -/
def configDirectory? (host : Host m) : m (Option String) := do
  let own := (← host.variableValue "XDG_CONFIG_HOME").filter (·.startsWith "/")
  let home := (← host.variableValue "HOME").filter (! ·.isEmpty)
  return own <|> home.map (joinPath · ".config")

/-- The file in which settings are looked for, unless the command line or the environment names one:
the first of the project's own and the user's that is there. -/
def usualSettingsFile? (host : Host m) : m (Option String) := do
  let user := (← configDirectory? host).map fun d => joinPath d "strata/config.toml"
  for path in "strata.toml" :: user.toList do
    if ← host.isThere path then return some path
  return none

/-- The settings for a command. -/
def findSettings (host : Host m) (explicit : Option String) :
    m (Except SettingsError Settings) := do
  match explicit <|> (← host.variableValue "STRATA_CONFIG") with
  | some path => readSettings host path
  | none =>
    match ← usualSettingsFile? host with
    | some path => readSettings host path
    | none => return .ok {}

/-- The text of a file. -/
def readText (host : Host m) (path : String) : Task m String := do
  match ← host.read path with
  | .ok text => return text
  | .error e => stop s!"reading '{path}': {e.message}"

/-- The variables that a text refers to, as an environment. -/
def environmentFor (host : Host m) (text : String) : m Environment := do
  let values ← (variablesIn text).mapM fun name => return (name, ← host.variableValue name)
  return fun name => (values.lookup name).join

/-- Where the catalog is. -/
def catalogPath (host : Host m) (explicit : Option String) (settings : Settings) :
    Task m String := do
  match explicit with
  | some path => return path
  | none =>
    let env ← (environmentFor host (settings.catalog?.getD "") : m Environment)
    match ← orStop SettingsError.message (settings.catalogPath env) with
    | some path => return path
    | none => stop "no catalog given: pass --catalog or set \x60catalog\x60 in strata.toml"

/-- Reads the catalog. -/
def loadCatalog (host : Host m) (explicit : Option String) (settings : Settings) :
    Task m Catalog := do
  let path ← catalogPath host explicit settings
  let text ← readText host path
  orStopWith (.ofCatalogTextError path) (Catalog.ofJsonText text)

/-- Reads the description of the database; without one it is empty. -/
def loadLive (host : Host m) (path : Option String) : Task m LiveSchema := do
  match path with
  | none => return .empty
  | some path =>
    let text ← readText host path
    orStop (fun e =>
      s!"loading live schema '{path}': failed to parse live schema description: {e.message}")
      (LiveSchema.ofJsonText text)

/-- Reads a key. -/
def readKey (text : String) : Task m DatasetKey :=
  match DatasetKey.parse? text with
  | some key => return key
  | none => stop (CatalogError.invalidKey text).message

/-- Reads the moment up to which data was loaded before. -/
def readCutoff (cutoff? : Option String) : Task m (Option Timestamp) :=
  match cutoff? with
  | none => return none
  | some text =>
    match Timestamp.ofSqlText? text with
    | some t => return some t
    | none => stop "invalid --cutoff"

/-! ### Looking at the catalog -/

/-- Prints the script of a load. -/
def compile (host : Host m) (c : Catalog) (dialect : Dialect) (dataset : String) (resolve : Bool)
    (cutoff? : Option String) : Task m ExitCode := do
  let key ← readKey dataset
  let load ← orStop LoadError.message (composeLoad c key dialect true)
  let script := scriptText load.statements
  let script ← if resolve then do
      let values : RuntimeValues :=
        { loadRunId := ← host.freshId
          loadTimestamp := ← host.now
          deltaCutoff := ← readCutoff cutoff? }
      orStop Sql.TemplateError.message (Sql.substitute script dialect values)
    else pure script
  host.print s!"-- {key.display} ({load.plan.mode.text} load, {dialect.name})"
  host.print script
  return 0

/-- Prints what is to be changed in the database for a dataset. -/
def materialize (host : Host m) (c : Catalog) (settings : Settings) (dataset : String)
    (live? : Option String) : Task m ExitCode := do
  let d ← orStop CatalogError.message (c.getByName dataset)
  let live ← loadLive host live?
  let plan := planDrift d live settings.dialect settings.drift
  for warning in plan.warnings do
    host.report ("warning: " ++ warning.message)
  for blocker in plan.blockers do
    host.report ("blocked: " ++ blocker.message)
  if plan.isBlocked then return 1
  let statements ← orStop Sql.SqlError.message (plan.sql settings.dialect)
  if ! statements.isEmpty then
    host.print (scriptText statements)
  return 0

/-- The plan of a run for those roots. -/
def planRun (host : Host m) (c : Catalog) (roots : List String) : Task m RunPlan := do
  let keys ← roots.mapM readKey
  let order ← orStop OrderError.message (runOrder c keys)
  return RunPlan.ofOrder (← host.freshId) order

/-- Prints the plan of a run. -/
def plan (host : Host m) (c : Catalog) (roots : List String) : Task m ExitCode := do
  let p ← planRun host c roots
  host.print p.toJson.pretty
  return 0

/-- Prints the manifest. -/
def manifest (host : Host m) (c : Catalog) (settings : Settings) : Task m ExitCode := do
  let r := Manifest.ofCatalog c settings.profile settings.targetSystem (← host.now)
  let found ← orStop (Cycle.message id) r
  host.print found.text
  return 0

/-! ### Running -/

/-- What is known of a load that was rendered. -/
structure Rendered where
  loadRunId : String
  renderMs : Nat
  sqlLength : Nat

/-- The loads that were rendered. -/
abbrev RenderedLoads := List (DatasetKey × Rendered)

/-- What the loads of a run have in common. -/
structure RunInputs where
  catalog : Catalog
  settings : Settings
  live : LiveSchema
  loadTimestamp : Timestamp
  deltaCutoff : Option Timestamp
  sqlDir? : Option String

/-- Where the script of a step is written. -/
def scriptPath (directory : String) (step : RunStep) : String :=
  joinPath directory (Number.padded 3 step.id.toNat ++ "_" ++ step.key.display ++ ".sql")

/-- Writes the script of a step, if scripts are to be written. -/
def writeScript (host : Host m) (directory? : Option String) (step : RunStep) (script : String) :
    m (Option StepFailure) := do
  match directory? with
  | none => return none
  | some directory =>
    let path := scriptPath directory step
    match ← host.write path script with
    | .ok () => return none
    | .error e => return some (.fatal s!"writing '{path}': {e.message}")

/-- Renders a step. The first attempt gives the load its name, which later ones keep. -/
def renderStep (host : Host m) (inputs : RunInputs) : Loader (StateT RenderedLoads m) :=
  fun call => do
  let key := call.step.key
  let started ← host.clockMs
  let rendered ← match (← get).lookup key with
    | some r => pure r
    | none => do
      let r : Rendered := ⟨← host.freshId, 0, 0⟩
      modify ((key, r) :: ·)
      pure r
  let values : RuntimeValues := ⟨rendered.loadRunId, inputs.loadTimestamp, inputs.deltaCutoff⟩
  let settings := inputs.settings
  match stepScript inputs.catalog inputs.live settings.drift settings.dialect key values with
  | .error failure => return some failure
  | .ok script =>
    let renderMs := (← host.clockMs) - started
    modify ((key, { rendered with renderMs, sqlLength := script.utf8ByteSize }) :: ·)
    (writeScript host inputs.sqlDir? call.step script : m (Option StepFailure))

/-- The records of the step that gave a result; none if its dataset has a name that cannot be
read. -/
def recordsOf (host : Host m) (inputs : RunInputs) (batchId : String) (outcome : Outcome)
    (loads : RenderedLoads) (executed : Bool) (result : StepResult) : m (List LogRecord) := do
  match DatasetKey.parse? result.dataset with
  | none => return []
  | some key =>
    let settings := inputs.settings
    let now ← host.now
    let base :=
      LogRecord.started batchId (← host.freshId) key settings.targetSystem settings.profile now
    let base := match (inputs.catalog.get? key).map (resolveLoadPlan inputs.catalog) with
      | some (.ok plan) => base.withPlan plan
      | _ => base
    let base := match loads.lookup key with
      | some r =>
        { base with loadRunId := r.loadRunId, renderMs := r.renderMs, sqlLength := r.sqlLength }
      | none => base
    return stepRecords base result (outcome.attemptsOf result.dataset) executed (← host.now)

/-- Adds the records of a run to a file, a line each. A log that cannot be written stops nothing. -/
def writeLog (host : Host m) (inputs : RunInputs) (batchId : String) (outcome : Outcome)
    (loads : RenderedLoads) (executed : Bool) (path : String) : m Unit := do
  let records ← outcome.results.mapM (recordsOf host inputs batchId outcome loads executed)
  let lines := records.flatten.map fun r => r.toJson.compact ++ "\n"
  let _ ← host.append path (String.join lines)

/-- Makes the directory for scripts, and puts there the script that makes the table of the log, if
one is kept and needs something. A log that cannot be provided for stops nothing. -/
def prepareScripts (host : Host m) (settings : Settings) (live : LiveSchema) (directory : String) :
    Task m Unit := do
  match ← host.createDirectories directory with
  | .error e => stop s!"creating '{directory}': {e.message}"
  | .ok () =>
    if settings.log.enabled then
      match logTableStatements live settings.dialect settings.log.schema settings.log.table with
      | .ok (first :: rest) =>
        let _ ← host.write (joinPath directory "000_run_log.sql") (scriptText (first :: rest))
      | _ => return

/-- Prints a snapshot, or writes it to a file. -/
def deliverSnapshot (host : Host m) (path? : Option String) (text : String) : Task m Unit := do
  match path? with
  | none => host.print text
  | some path =>
    match ← host.write path text with
    | .ok () => return
    | .error e => stop s!"writing '{path}': {e.message}"

/-- Reports the failure of a run, and what it kept from being tried. -/
def reportOutcome (host : Host m) (outcome : Outcome) : m ExitCode := do
  match outcome.firstFailure? with
  | none => return 0
  | some failure =>
    let message := failure.message?.getD "unknown error"
    host.report s!"failed: {failure.dataset}: {message}"
    if ! outcome.aborted.isEmpty then
      host.report ("aborted (never attempted): " ++ ", ".intercalate outcome.aborted)
    return 1

/-- Runs a plan without executing anything: every load is rendered, and all that is asked for
written. -/
def run (host : Host m) (c : Catalog) (settings : Settings) (roots : List String)
    (cutoff? : Option String) (files : RunFiles) : Task m ExitCode := do
  let live ← loadLive host files.live?
  let plan ← planRun host c roots
  let inputs : RunInputs :=
    { catalog := c, settings, live, loadTimestamp := ← host.now,
      deltaCutoff := ← readCutoff cutoff?, sqlDir? := files.sqlDir? }
  let policy := { settings.execution with execute := false }
  if let some directory := files.sqlDir? then
    prepareScripts host settings live directory
  let (outcome, loads) ← (runPlan (renderStep host inputs) plan policy).run []
  if let some path := files.log? then
    (writeLog host inputs plan.batchId outcome loads policy.execute path : m Unit)
  let context :=
    { RunContext.ofPolicy policy settings.profile settings.targetSystem settings.dialect.name with
      rootDataset? := if roots.isEmpty then none else some (",".intercalate roots)
      catalogFingerprint? := some c.fingerprint }
  let snapshot := RunSnapshot.ofRun plan outcome context (← host.now)
  deliverSnapshot host files.snapshot? snapshot.text
  (reportOutcome host outcome : m ExitCode)

/-! ### Comparing runs -/

/-- Reads a snapshot. -/
def loadSnapshot (host : Host m) (path : String) : Task m RunSnapshot := do
  let text ← readText host path
  orStop (fun e => s!"parsing snapshot '{path}': failed to serialize: {e.message}")
    (RunSnapshot.ofJsonText text)

/-- Prints how two runs differ, and ends with 1 if they do. -/
def diff (host : Host m) (before after : String) : Task m ExitCode := do
  let before ← loadSnapshot host before
  let after ← loadSnapshot host after
  let d := SnapshotDiff.between before after
  if d.isEmpty then
    host.print "no differences"
    return 0
  else
    host.print d.text
    return 1

/-! ### All commands -/

/-- Carries out what is asked for. -/
def perform (host : Host m) (settings : Settings) (i : Invocation) : Task m ExitCode := do
  match i.action with
  | .diff before after => diff host before after
  | action =>
    let c ← loadCatalog host i.catalog? settings
    match action with
    | .compile dataset resolve cutoff? => compile host c settings.dialect dataset resolve cutoff?
    | .materialize dataset live? => materialize host c settings dataset live?
    | .plan roots => plan host c roots
    | .run roots cutoff? files => run host c settings roots cutoff? files
    | .manifest => manifest host c settings
    | .diff before after => diff host before after

/-- Carries out an invocation. -/
def runInvocation (host : Host m) (i : Invocation) : m ExitCode := do
  match ← findSettings host i.config? with
  | .error e =>
    host.report ("Error loading settings: " ++ e.message)
    return 1
  | .ok settings =>
    match ← (perform host { settings with dialect := i.dialect?.getD settings.dialect } i).run with
    | .ok code => return code
    | .error (.report text) =>
      host.report ("Error: " ++ text)
      return 1
    | .error (.breakdown text) =>
      host.report text
      return 101

/-- Carries out a command line. -/
def runCommand (host : Host m) (arguments : List String) : m ExitCode := do
  match Invocation.parse? arguments with
  | some i => runInvocation host i
  | none =>
    host.report "error: the command line cannot be read"
    return 2

end Warehouse.Command
