/-!
# Version

The version of the library as it reports it.
-/

namespace StreamTable

/-- The version of the library. -/
def version : String := "0.4.0"

end StreamTable
