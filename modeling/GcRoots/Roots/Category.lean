namespace GcRoots

/-!
# Root source categories

Besides handles and thread stacks, a root set draws roots from eleven sources of the virtual
machine. Seven are strong: their slots are always roots. Four are weak: their slots are roots
only while the object is alive, and are cleared otherwise.
-/

/-- The root source categories, in reporting order. -/
inductive Category where
  | vmUniverse
  | objectSynchronizer
  | management
  | jvmtiExport
  | systemDictionary
  | classLoaderDataGraph
  | codeCache
  | jvmtiWeakExport
  | trace
  | symbolTable
  | stringTable
  deriving DecidableEq, Repr

namespace Category

/-- The name of a category as it appears in labels and reports. -/
def name : Category → String
  | .vmUniverse => "universe"
  | .objectSynchronizer => "object_synchronizer"
  | .management => "management"
  | .jvmtiExport => "jvmti_export"
  | .systemDictionary => "system_dictionary"
  | .classLoaderDataGraph => "class_loader_data_graph"
  | .codeCache => "code_cache"
  | .jvmtiWeakExport => "jvmti_weak_export"
  | .trace => "trace"
  | .symbolTable => "symbol_table"
  | .stringTable => "string_table"

/-- Every category, strong ones first. -/
def all : List Category :=
  [.vmUniverse, .objectSynchronizer, .management, .jvmtiExport, .systemDictionary,
    .classLoaderDataGraph, .codeCache, .jvmtiWeakExport, .trace, .symbolTable, .stringTable]

/-- Whether a category's slots are weak roots. -/
def isWeak : Category → Bool
  | .jvmtiWeakExport | .trace | .symbolTable | .stringTable => true
  | _ => false

/-- The category with a given name. -/
def ofName? (s : String) : Option Category :=
  all.find? fun c => c.name == s

theorem ofName?_name (c : Category) : ofName? c.name = some c := by
  cases c <;> rfl

end Category

end GcRoots
