import IndexPlanner.Advice
import IndexPlanner.Catalog.Storage

/-!
# Sessions

A session is what somebody who works with the planner has before them: a catalog, an
advisor, statistics, files, and the counters and the log threshold that go with them.  Each
operation gives a *reply*: its result, the session after it, and the lines it wrote to the
log.

There are two sets of counters, one for the catalog and one for the advisor, and an advisor
may also count into those of the catalog.  A catalog that takes the place of another one
starts with new counters.  An advisor that counted into the old ones keeps them.

* `Session.reply` counts and logs an activity, and `Session.run` runs an operation that keeps
  the books itself;
* all operations on a catalog, an advisor or a file are those of their modules, and what a
  session adds to them is where they read and where they count.
-/

namespace IndexPlanner

/-- Where an advisor counts. -/
inductive Tally where
  /-- In counters of its own. -/
  | own (counters : Counters)
  /-- In those of the catalog. -/
  | shared
  deriving Inhabited

/-- Whose counters are meant. -/
inductive Ledger where
  | catalog
  | advisor
  deriving DecidableEq, Repr

/-- The state of somebody's work with the planner. -/
structure Session where
  catalog : Catalog := .empty
  /-- What the catalog has counted. -/
  counters : Counters := {}
  advisor : Advisor := .standard
  tally : Tally := .own {}
  stats : StatsTable := {}
  /-- Catalogs that were put aside, by the names they were given. -/
  held : List (String × Catalog) := []
  files : FileTree := .empty
  /-- The least severity that is written to the log. -/
  threshold : Severity := .info

/-- What comes of an operation in a session. -/
structure Reply (α : Type) where
  result : α
  session : Session
  log : Log := {}

/-- The same reply with another result. -/
def Reply.map {α β : Type} (f : α → β) (r : Reply α) : Reply β :=
  { r with result := f r.result }

namespace Session

/-! ## Counting and logging -/

/-- What has been counted for the catalog or for the advisor. -/
def countersOf (s : Session) : Ledger → Counters
  | .catalog => s.counters
  | .advisor =>
    match s.tally with
    | .own c => c
    | .shared => s.counters

/-- Takes over what has been counted for the catalog or for the advisor. -/
def setCounters (s : Session) (ledger : Ledger) (c : Counters) : Session :=
  match ledger, s.tally with
  | .advisor, .own _ => { s with tally := .own c }
  | _, _ => { s with counters := c }

/-- Counts for the catalog or for the advisor. -/
def count (s : Session) (ledger : Ledger) (c : Counters) : Session :=
  s.setCounters ledger (s.countersOf ledger + c)

/-- Counts and logs what an operation has done. -/
def reply {α : Type} (s : Session) (ledger : Ledger) (result : α) (a : Activity) :
    Reply α where
  result
  session := s.count ledger a.counts
  log := .ofEvents s.threshold a.events

/-- Runs an operation that counts and logs as it goes. -/
def run {α : Type} (s : Session) (ledger : Ledger) (operation : Journal → α × Journal) :
    Reply α :=
  let (result, j) := operation { threshold := s.threshold, counters := s.countersOf ledger }
  { result, session := s.setCounters ledger j.counters, log := j.log }

/-- What has run comes to what is counted and logged afterwards. -/
theorem run_eq_reply {α : Type} {s : Session} {ledger : Ledger}
    {operation : Journal → α × Journal} {result : α} {a : Activity}
    (h : ∀ j, operation j = (result, j.enter a)) :
    s.run ledger operation = s.reply ledger result a := by
  rw [run, h]
  rfl

/-- Writes an event to the log, if it reaches the threshold. -/
def tell (s : Session) (e : Event) : Reply Bool :=
  s.reply .catalog (e.severity.reaches s.threshold) { events := [e] }

/-- Sets the least severity that is written to the log. -/
def setThreshold (s : Session) (threshold : Severity) : Session := { s with threshold }

/-! ## The catalog -/

/-- Puts another catalog in the place of the one there was, with new counters. -/
def setCatalog (s : Session) (c : Catalog) : Session :=
  { s with
    catalog := c
    counters := {}
    tally :=
      match s.tally with
      | .own d => .own d
      | .shared => .own s.counters }

/-- Makes a catalog of definitions. -/
def setDefinitions (s : Session) (ds : List IndexDefinition) :
    Except CatalogError Session :=
  (Catalog.ofDefinitions ds).map s.setCatalog

/-- Takes over what came of a change of the catalog. -/
def apply (s : Session) (change : Catalog → Catalog.Change) :
    Reply (Except CatalogError CatalogVersion) :=
  let c := change s.catalog
  { s with catalog := c.catalog }.reply .catalog c.outcome c.activity

/-- Registers one more index. -/
def add (s : Session) (d : IndexDefinition) : Reply (Except CatalogError CatalogVersion) :=
  s.apply (·.add d)

/-- Removes the registered index with a name. -/
def drop (s : Session) (name : String) : Reply (Except CatalogError CatalogVersion) :=
  s.apply (·.drop name)

/-- Puts other indexes in the place of all that are registered. -/
def replaceAll (s : Session) (ds : List IndexDefinition) :
    Reply (Except CatalogError CatalogVersion) :=
  s.apply (·.replaceAll ds)

/-- Puts the catalog aside under a name. -/
def hold (s : Session) (name : String) : Session :=
  { s with held := putMember s.held name s.catalog }

/-- The catalog, or the one that was put aside under a name. -/
def view? (s : Session) : Option String → Option Catalog
  | none => some s.catalog
  | some name => member? s.held name

/-! ## The advisor -/

/-- Makes an advisor, which counts into counters of its own or into those of the
catalog. -/
def setAdvisor (s : Session) (config : PlannerConfig) (shared : Bool) :
    Except ConfigError Session :=
  (Advisor.ofConfig config).map fun advisor =>
    { s with advisor, tally := if shared then .shared else .own {} }

/-- Gives a collection statistics. -/
def setStats (s : Session) (collection : String) (stats : CorpusStats) : Session :=
  { s with stats := s.stats.insert collection stats }

/-- Gives advice on a catalog for statistics that are known. -/
def advise (s : Session) (shape : QueryShape) (c : Catalog) (stats : CorpusStats) :
    Reply Advice :=
  s.run .advisor (s.advisor.advise shape c stats)

/-- Gives advice on a catalog for the statistics of a collection. -/
def adviseCollection (s : Session) (shape : QueryShape) (c : Catalog)
    (collection : String) : Reply Advice :=
  s.run .advisor (s.advisor.adviseCollection shape c s.stats collection)

/-! ## Files -/

/-- Saves the catalog. -/
def save (s : Session) (path : String) (now : Timestamp) :
    Reply (Except StorageError Unit) :=
  let saved := s.catalog.save s.files path now
  { s with files := saved.files }.reply .catalog saved.outcome saved.activity

/-- Loads a catalog, in the place of the one there was. -/
def load (s : Session) (path : String) : Reply (Except StorageError Unit) :=
  match Catalog.load s.files path with
  | (.error e, activity) => s.reply .catalog (.error e) activity
  | (.ok c, activity) => (s.setCatalog c).reply .catalog (.ok ()) activity

/-- Reads the definitions in a file. -/
def loadDefinitions (s : Session) (path : String) :
    Except StorageError (List IndexDefinition) :=
  Catalog.loadDefinitions s.files path

/-- Reads a configuration from a file. -/
def loadConfig (s : Session) (path : String) : Reply (Except ConfigError PlannerConfig) :=
  let (outcome, activity) := PlannerConfig.load s.files path
  s.reply .catalog outcome activity

/-- Writes a file. -/
def write (s : Session) (path : String) (content : ByteArray) : Except FileError Session :=
  (s.files.write path content).map fun files => { s with files }

/-- Makes a directory, and those above it. -/
def makeDirectories (s : Session) (path : String) : Except FileError Session :=
  (s.files.makeDirectories path).map fun files => { s with files }

end Session

end IndexPlanner
