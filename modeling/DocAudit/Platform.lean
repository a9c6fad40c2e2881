import DocAudit.Platform.Collections
import DocAudit.Platform.Concurrency
import DocAudit.Platform.Functions
import DocAudit.Platform.Language
import DocAudit.Platform.Streams
import DocAudit.Platform.Throwables

/-!
The table that every project starts from.
-/

set_option autoImplicit false

namespace DocAudit

/-- The types that every project knows without declaring them. -/
def Platform.types : List Platform.PlatformType :=
  Platform.languageTypes ++ Platform.throwableTypes ++ Platform.streamTypes ++
    Platform.collectionTypes ++ Platform.functionTypes ++ Platform.concurrencyTypes

/-- The table of the types that every project knows. -/
def TypeTable.platform : TypeTable :=
  Platform.types.foldl (fun table t => table.insert t.name t.known) .empty

end DocAudit
