/-!
# Version

* `version` : the version of this library, for tools that report it.
-/

set_option autoImplicit false

namespace SemanticSchema

def version : String := "0.1.0"

end SemanticSchema
