/-!
Linkage names. Compilers mangle the names of functions by schemes of their own, and optimisers mark
the copies that they make. How such a name becomes readable is a parameter of the library; all that
is known of it is that any other name is shown as it is.
-/

namespace Symbolication

namespace LinkageName

/-- What mangled names begin with. Linkers may drop or add an underscore. -/
def schemeMarks : List String := ["_ZN", "ZN", "__ZN", "_R", "R", "__R"]

/-- What stands in front of the number of an optimiser's copy. -/
def copyMark : String := ".llvm."

/-- A name that no scheme has mangled. -/
structure IsPlain (name : String) : Prop where
  unmarked : ∀ mark ∈ schemeMarks, ¬mark.toList <+: name.toList
  original : ¬copyMark.toList <:+: name.toList

end LinkageName

/-- A way to make linkage names readable. -/
class LinkageNames where
  readable : String → String
  readable_plain : ∀ {name : String}, LinkageName.IsPlain name → readable name = name

namespace LinkageNames

/-- Every name is shown as it is. -/
scoped instance asWritten : LinkageNames where
  readable := id
  readable_plain _ := rfl

end LinkageNames

end Symbolication
