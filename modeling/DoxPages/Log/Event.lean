import DoxPages.Files.Path

/-!
# What a run reports

Each event has a level, a channel (the part of the program that speaks) and one
wording. A log is a list of events in the order in which they happened.
-/

namespace DoxPages

inductive Level where
  | debug | info | warning | error
  deriving DecidableEq, Repr

namespace Level

def name : Level → String
  | debug => "DEBUG"
  | info => "INFO"
  | warning => "WARNING"
  | error => "ERROR"

def rank : Level → Nat
  | debug => 0
  | info => 1
  | warning => 2
  | error => 3

instance : LE Level := ⟨fun a b => a.rank ≤ b.rank⟩

instance (a b : Level) : Decidable (a ≤ b) := inferInstanceAs (Decidable (a.rank ≤ b.rank))

end Level

inductive Event where
  | unsupportedElement (tag : String)
  | unsupportedNote (kind : String)
  | unknownReferenceKind (kind label : String)
  | unresolvedReference (kind target label : String)
  | loadingIndex (path : Path)
  | loadingCompound (name : String) (path : Path)
  | loadedCompounds (count : Nat) (dir : Path)
  | grouping (name : String)
  | built (count : Nat)
  | loadingSubproject (config : Path)
  | running (command : List String)
  | generatorSays (line : String)
  | writing (page : Path)
  | copying (page target : Path)
  | processing (input : Path)
  | skippingGenerator (xmlDir : Path)
  | configFailed (cause : String)
  | projectFailed (input : Path) (cause : String)
  | generatorFailed (input : Path) (status : Int) (complaint : String)
  | projectsFailed (count : Nat)
  deriving DecidableEq, Repr

namespace Event

def level : Event → Level
  | unsupportedElement _ | unsupportedNote _ | unknownReferenceKind .. | unresolvedReference ..
  | generatorSays _ => .warning
  | loadingIndex _ | loadedCompounds .. | built _ | running _ | processing _
  | skippingGenerator _ => .info
  | loadingCompound .. | grouping _ | loadingSubproject _ | writing _ | copying .. => .debug
  | configFailed _ | projectFailed .. | generatorFailed .. | projectsFailed _ => .error

def channel : Event → String
  | unsupportedElement _ | unsupportedNote _ | unknownReferenceKind .. | unresolvedReference .. =>
    "doxymd.markdown"
  | loadingIndex _ | loadingCompound .. | loadedCompounds .. => "doxymd.load_dox_model"
  | grouping _ | built _ => "doxymd.build_doc_model"
  | loadingSubproject _ => "doxymd.project_config"
  | running _ | generatorSays _ => "doxymd.run_doxygen"
  | writing _ | copying .. => "doxymd.write_compound_pages"
  | processing _ | skippingGenerator _ | configFailed _ | projectFailed .. | generatorFailed ..
  | projectsFailed _ => "doxymd.run_conversion"

def message : Event → String
  | unsupportedElement tag => s!"Unsupported element <{tag}>: rendering its content only"
  | unsupportedNote kind => s!"Unsupported simplesect kind '{kind}': rendering its content only"
  | unknownReferenceKind kind label => s!"Unknown kindref '{kind}' for reference '{label}'"
  | unresolvedReference kind target label =>
    s!"Cannot resolve {kind} reference {target} ('{label}')"
  | loadingIndex path => s!"Loading index {path}"
  | loadingCompound name path => s!"Loading compound {name} ({path})"
  | loadedCompounds count dir => s!"Loaded {count} compounds from {dir}"
  | grouping name => s!"Grouping {name}"
  | built count => s!"Built documentation for {count} compounds"
  | loadingSubproject config => s!"Loading sub-project config {config}"
  | running command => "Running: " ++ Text.joinWith " " command
  | generatorSays line => s!"doxygen: {line}"
  | writing page => s!"Writing {page}"
  | copying page target => s!"Copying {page} to {target}"
  | processing input => s!"Processing project {input}"
  | skippingGenerator xmlDir => s!"Skipping doxygen; reading XML from {xmlDir}"
  | configFailed cause => s!"Cannot load configuration: {cause}"
  | projectFailed input cause => s!"Project {input} failed: {cause}"
  | generatorFailed input status complaint =>
    s!"Project {input} failed: doxygen exited with status {status}\n{complaint}"
  | projectsFailed count => s!"{count} project(s) failed"

/-- The line an event makes in a log. -/
def line (e : Event) : String := s!"{e.level.name} {e.channel}: {e.message}\n"

end Event

abbrev Log := List Event

/-- The events of at least a given level. -/
def Log.above (level : Level) (log : Log) : Log := log.filter fun e => level ≤ e.level

end DoxPages
