import DoxPages.Config.Check
import DoxPages.Input.Report
import DoxPages.Source.Read

/-!
# Documents that cannot be used

-/

namespace DoxPages

inductive InputFault where
  | unreadableXml
  | malformedXml
  | unexpectedIndex (root : String)
  | invalidIndex (problems : List Source.EntryProblem)
  | unexpectedCompound (root : String)
  | noCompound
  | invalidCompound (problems : List Source.ShapeProblem)
  | unreadableConfig
  | malformedConfig
  | notMapping (found : String)
  | invalidConfig (problems : List SettingProblem)
  deriving DecidableEq, Repr

structure InputError where
  path : Path
  fault : InputFault
  deriving DecidableEq, Repr

namespace InputFault

def message : InputFault → String
  | unreadableXml => "Cannot read XML file"
  | malformedXml => "Malformed XML"
  | unexpectedIndex _ => "Unexpected index document"
  | invalidIndex _ => "Invalid index document"
  | unexpectedCompound _ => "Unexpected compound document"
  | noCompound | invalidCompound _ => "Invalid compound document"
  | unreadableConfig => "Cannot read config"
  | malformedConfig => "Malformed config"
  | notMapping _ | invalidConfig _ => "Invalid config"

def problems : InputFault → List String
  | unreadableXml | malformedXml | unreadableConfig | malformedConfig => []
  | unexpectedIndex root => [s!"root element is <{root}>, expected <doxygenindex>"]
  | invalidIndex problems => problems.map (·.message)
  | unexpectedCompound root => [s!"root element is <{root}>, expected <doxygen>"]
  | noCompound => ["missing <compounddef>"]
  | invalidCompound problems => problems.map (·.message)
  | notMapping found => [s!"expected a mapping, got {found}"]
  | invalidConfig problems => problems.map (·.message)

end InputFault

namespace InputError

def report (e : InputError) : Report := ⟨e.fault.message, some e.path, e.fault.problems⟩

def text (e : InputError) : String := e.report.text

end InputError

end DoxPages
