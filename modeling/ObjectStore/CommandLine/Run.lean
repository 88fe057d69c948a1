import ObjectStore.CommandLine.Invocation
import ObjectStore.CommandLine.Report
import ObjectStore.Host.Path
import ObjectStore.Session.Opening

/-!
# Running commands

A command works on a host and leaves an outcome: what it prints, and whether
it failed. It knows the stored types from the stored dictionary only, so it
has no handlers and loads no instances.

Every command opens the store that it works on and closes it again, whatever
happens in between. Paths are checked before a store is opened.
-/

namespace ObjectStore

/-- What a command leaves behind. -/
structure Outcome where
  output : String
  result : Except Error Unit

namespace Outcome

/-- The outcome of a command that printed this and succeeded. -/
def printed (output : String) : Outcome := ⟨output, .ok ()⟩

/-- The outcome of a command that failed at once. -/
def failed (e : Error) : Outcome := ⟨"", .error e⟩

/-- The outcome of a command that succeeded with these words, or failed. -/
def ofExcept : Except Error String → Outcome
  | .ok output => printed output
  | .error e => failed e

end Outcome

namespace Command

/-- The instances of a command: there are none. -/
abbrev NoInstance := Empty

/-- A registry and a session that know stored types only. -/
abbrev Opened := Registry NoInstance × Session NoInstance

/-- A report in lines, or in JSON if that is asked for. -/
def report (json : Bool) (lines : String) (object : Json) : String :=
  if json then object.render ++ "\n" else lines

section

variable {m : Type → Type} [Monad m] [Host m]

/-! ## Stores -/

/-- Opens the store at a path, or creates it, for a step that may change
it. -/
def withStore (path : String) (step : Attempt Opened Outcome) : m Outcome := do
  match ← Session.openAt path (Registry.empty : Registry NoInstance) with
  | (.error e, _) => return Outcome.failed e
  | (.ok (lease, session), registry) =>
      let (outcome, (_, session)) := step.start (registry, session)
      session.close lease
      match outcome with
      | .ok outcome => return outcome
      | .error e => return Outcome.failed e

/-- Opens the store at a path, which must be there. -/
def withExistingStore (path : String) (step : Attempt Opened Outcome) : m Outcome := do
  if ← Host.isThere path then withStore path step
  else return Outcome.failed (.io (.storeMissing path))

/-! ## Files -/

/-- The dictionary in the file at a path. -/
def readDictionary (path : String) : ExceptT Error m Dictionary := do
  let canonical ←
    match ← Host.canonical (m := m) path with
    | .ok canonical => pure canonical
    | .error fault => throw (.io (.findFile path fault))
  match ← Host.kind (m := m) canonical with
  | .ok (.file size) =>
      if Dictionary.maxFileSize < size then
        throw (.deserialization (.fileTooLarge size Dictionary.maxFileSize))
  | _ => throw (.io (.irregularFile path))
  match ← Host.readFile (m := m) canonical with
  | .ok bytes => ExceptT.mk (pure (Dictionary.decode bytes))
  | .error fault => throw (.io (.read fault))

/-- The absolute path of an output file, whose directory must be there. -/
def outputPath (path : String) : ExceptT Error m String := do
  let written := Path.parent path
  let directory := if written = "" then "." else written
  match ← Host.canonical (m := m) directory with
  | .error fault => throw (.io (.findDirectory directory fault))
  | .ok canonical =>
      if !(← Host.isDirectory (m := m) canonical) then throw (.io (.irregularDirectory directory))
      match Path.fileName? path with
      | some name => return Path.join canonical name
      | none => throw (.io .unnamedOutput)

/-- The largest configuration file that is read, in bytes. -/
def maxConfigSize : Nat := 1048576

/-- The configuration in the file at a path. Without file it is the default
one. -/
def loadConfig (path : String) : ExceptT Error m Config := do
  match ← Host.kind (m := m) path with
  | .error _ => return Config.default
  | .ok kind =>
      if let .file size := kind then
        if maxConfigSize < size then throw (.config (.tooLarge size maxConfigSize))
      match ← Host.readFile (m := m) path with
      | .error fault => throw (.config (.unreadable path fault))
      | .ok bytes =>
          match String.fromUTF8? bytes with
          | none => throw (.config (.unreadable path .notText))
          | some content => ExceptT.mk (pure (Config.parse content))

/-! ## Commands -/

/-- Makes a new store that holds an empty dictionary. -/
def runInit (path : String) (force : Bool) : m Outcome := do
  let make : m Outcome := withStore path do
    let (registry, _) ← get
    Attempt.within Prod.snd (fun session s => (s.1, session)) (Session.saveDictionary registry)
    return Outcome.printed ("Initialized new store at " ++ Quoted.quote path ++ "\n")
  if ← Host.isThere path then
    if !force then return Outcome.failed (.io .storeExists)
    match ← Host.removeFile path with
    | .error fault => return Outcome.failed (.io (.removeStore fault))
    | .ok () => make
  else make

/-- Shows the status of a store. -/
def runStatus (path : String) (json : Bool) : m Outcome :=
  withExistingStore path do
    let (registry, session) ← get
    let status ← Attempt.lift (Session.status registry session)
    return Outcome.printed (report json (Report.status path status) (Report.statusJson path status))

/-- Lists the types of a store. -/
def runTypes (path : String) (json : Bool) : m Outcome :=
  withExistingStore path do
    let (registry, _) ← get
    let dictionary ← Attempt.lift registry.snapshot
    return Outcome.printed (report json (Report.types dictionary) (Report.typesJson dictionary))

/-- Checks a store. What is found is printed, and makes the command fail if
it does harm. -/
def runCheck (path : String) (json : Bool) : m Outcome :=
  withExistingStore path do
    let (registry, session) ← get
    let found ← Attempt.lift (Session.check registry session)
    let harm := Corruption.inconsistentStore found.invalid.length found.dangling.length
      found.missingRoots.length
    return {
      output := report json (Report.check found) (Report.checkJson found)
      result := if found.isConsistent then .ok () else .error (.corruptRecord harm) }

/-- Writes the dictionary of a store to a file. -/
def runExport (path output : String) : m Outcome := do
  match ← (outputPath output : ExceptT Error m String).run with
  | .error e => return Outcome.failed e
  | .ok target =>
      if !(← Host.isThere path) then return Outcome.failed (.io (.storeMissing path))
      match ← Host.openStore path with
      | .error fault => return Outcome.failed (.io (.openStore fault))
      | .ok (lease, store) =>
          let opening : Attempt (Registry NoInstance) (Session NoInstance) :=
            Session.openStore store
          let outcome ← exportTo target (do
            let (result, registry) := opening.start Registry.empty
            let _ ← result
            registry.snapshot)
          Host.closeStore lease store
          return outcome
where
  /-- Writes a dictionary, if there is one. -/
  exportTo (target : String) (dictionary : Except Error Dictionary) : m Outcome := do
    match dictionary with
    | .error e => return Outcome.failed e
    | .ok dictionary =>
        let bytes := dictionary.encode
        match ← Host.writeFile target ⟨bytes.toArray⟩ with
        | .error fault => return Outcome.failed (.io (.write fault))
        | .ok () =>
            return Outcome.printed
              (s!"Exported {dictionary.size} types ({bytes.length} bytes) to " ++
                Quoted.quote target ++ "\n")

/-- Adds the types of a dictionary file to a store. -/
def runImport (path input : String) : m Outcome := do
  match ← (readDictionary input : ExceptT Error m Dictionary).run with
  | .error e => return Outcome.failed e
  | .ok dictionary =>
      withExistingStore path do
        Session.importDictionary dictionary
        return Outcome.printed s!"Imported {dictionary.size} types\n"

/-- Suggests how the types of one dictionary file lead to those of
another. -/
def runSuggest (config source target : String) (typeName : Option String)
    (threshold : Option Float) (json : Bool) : m Outcome := do
  let result ← (suggestions : ExceptT Error m (List Suggestion)).run
  return Outcome.ofExcept
    (result.map fun found => report json (Report.suggestions found) (Report.suggestionsJson found))
where
  /-- The suggestions. -/
  suggestions : ExceptT Error m (List Suggestion) := do
    let config ← loadConfig config
    let legacy ← readDictionary source
    let current ← readDictionary target
    ExceptT.mk (pure (Suggestion.all (config.matcher threshold) legacy current typeName))

end

end Command

/-- Runs an invocation on a host. -/
def Invocation.run {m : Type → Type} [Monad m] [Host m] (i : Invocation) : m Outcome :=
  match i.command with
  | .init force => Command.runInit i.database force
  | .status => Command.runStatus i.database i.json
  | .types => Command.runTypes i.database i.json
  | .check => Command.runCheck i.database i.json
  | .exportDictionary output => Command.runExport i.database output
  | .importDictionary input => Command.runImport i.database input
  | .suggest source target typeName threshold =>
      Command.runSuggest i.config source target typeName threshold i.json

end ObjectStore
