import BuildGraph.Descriptor.Registry
import BuildGraph.Toml.Document
set_option autoImplicit false

/-!
# The modules of a descriptor

A descriptor file is read in three steps, each of which may refuse it: the text as a document, the
document as a descriptor, and its declarations, in their order, as modules.
-/

namespace BuildGraph

/-- The descriptor that a text holds. -/
def Descriptor.ofText (source : String) : Except DescriptorFault Descriptor := do
  let t ← (Toml.parse source).mapError .malformed
  (Descriptor.read (.table t)).mapError (.ofMisfit t)

/-- The modules that a descriptor file declares. -/
def Registry.modulesOf (r : Registry) (c : Context) (file source : String) :
    Except Error (List Module) := do
  let d ← (Descriptor.ofText source).mapError (.descriptor file)
  d.declarations.mapM (r.instantiate c file d.qualifier)

end BuildGraph
