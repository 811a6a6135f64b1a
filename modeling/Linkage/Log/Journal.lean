import Linkage.Log.Files
import Linkage.Bench
import Linkage.Text.Event

/-!
# The log

A journal hands every message to the sink in use, or drops it where there is none. A file sink keeps
a text file: a header when it is opened or flushed, then one line for each message. Opening a file
that is there already flushes it.
-/

namespace Linkage.Log

inductive Sink where
  /-- Stores nothing and fails. -/
  | base
  | file (path : String)
deriving Repr, DecidableEq

structure Journal where
  files : Files
  sink : Option Sink := none
  /-- The directory that relative paths start from. -/
  home : String
  time : String

namespace Journal

/-! ### Texts -/

def openedLine (time : String) : String := "LOG INITIALIZATION: " ++ time ++ "\n"

def flushedLine (time : String) : String := "LOG FLUSHED: " ++ time ++ "\n"

def entryLine (time : String) (priority : Priority) (message : String) : String :=
  "[" ++ time ++ "] [" ++ priority.name ++ "] " ++ message ++ "\n"

/-- What is logged of a file that was taken into use without being asked for. -/
def initialMessage (path : String) : String :=
  "Logger initialized with default file storage at " ++ path ++ "."

/-! ### Sinks -/

def absolute (j : Journal) (path : String) : String :=
  if path.toList.head? = some '/' then path else j.home ++ "/" ++ path

def editing (j : Journal) (r : Except Fault Files) : Journal × Except Fault Unit :=
  match r with
  | .ok fs => ({ j with files := fs }, .ok ())
  | .error e => (j, .error e)

def flushFile (j : Journal) (path : String) : Journal × Except Fault Unit :=
  j.editing (j.files.write path (flushedLine j.time))

/-- The file starts with its header. -/
def startFile (j : Journal) (path : String) : Journal × Except Fault Unit :=
  if j.files.exists? path then j.flushFile path
  else j.editing (j.files.write path (openedLine j.time))

/-- Takes a file into use; its directory is made if need be. A file that cannot be started leaves
the sink in use as it was. -/
def useFile (j : Journal) (path : String) : Journal × Except Fault Unit :=
  let path := j.absolute path
  match j.files.makeParent path with
  | (fs, .error e) => ({ j with files := fs }, .error e)
  | (fs, .ok ()) =>
    match ({ j with files := fs }).startFile path with
    | (j, .ok ()) => ({ j with sink := some (.file path) }, .ok ())
    | r => r

def useBase (j : Journal) : Journal := { j with sink := some .base }

def reset (j : Journal) : Journal := { j with sink := none }

def log (j : Journal) (priority : Priority) (message : String) : Journal × Except Fault Unit :=
  match j.sink with
  | none => (j, .ok ())
  | some .base => (j, .error .notStored)
  | some (.file path) => j.editing (j.files.append path (entryLine j.time priority message))

/-- Messages in order, up to the first that cannot be stored. -/
def logAll (j : Journal) : List (Priority × String) → Journal × Except Fault Unit
  | [] => (j, .ok ())
  | (p, m) :: rest =>
    match j.log p m with
    | (j, .ok ()) => logAll j rest
    | r => r

def flush (j : Journal) : Journal × Except Fault Unit :=
  match j.sink with
  | none => (j, .error .noSink)
  | some .base => (j, .error .notStored)
  | some (.file path) => j.flushFile path

/-- Takes a file into use unless a sink is in use. -/
def ensureFile (j : Journal) (path : String) : Journal × Except Fault Unit :=
  match j.sink with
  | some _ => (j, .ok ())
  | none =>
    match j.useFile path with
    | (j, .ok ()) => j.log .info (initialMessage path)
    | r => r

def location (j : Journal) : Except Fault String :=
  match j.sink with
  | some (.file path) => .ok path
  | _ => .error .noSink

def messages (events : List (Event Float)) : List (Priority × String) :=
  events.map fun e => (e.priority, Text.event e)

/-- An empty scene is opened under the standard settings; gives the number of its nodes. -/
def openGraph (j : Journal) : Journal × Except Fault Nat :=
  let m : Bench Float := { springs := {}, graph := default, quantities := {} }
  let r := Bench.openGraph Config.standard m
  match j.logAll (messages r.events) with
  | (j, .ok ()) => (j, .ok r.state.graph.nodes.length)
  | (j, .error e) => (j, .error e)

end Journal

end Linkage.Log
