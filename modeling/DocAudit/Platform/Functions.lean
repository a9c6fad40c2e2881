import DocAudit.Platform.Basic

/-!
The functional interfaces of `java.util.function`.
-/

set_option autoImplicit false

namespace DocAudit.Platform

/-- The functional interfaces of `java.util.function`. -/
def functionTypes : List PlatformType := [
  { platformInterface "java.util.function.Function" with
      methods := ["apply(java.lang.Object)", "identity()"] },
  { platformInterface "java.util.function.BiFunction" with
      methods := ["apply(java.lang.Object, java.lang.Object)"] },
  { platformInterface "java.util.function.Consumer" with
      methods := ["accept(java.lang.Object)"] },
  { platformInterface "java.util.function.BiConsumer" with
      methods := ["accept(java.lang.Object, java.lang.Object)"] },
  { platformInterface "java.util.function.Supplier" with
      methods := ["get()"] },
  { platformInterface "java.util.function.Predicate" with
      methods := ["test(java.lang.Object)"] } ]

end DocAudit.Platform
