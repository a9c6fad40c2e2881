import DocAudit.Platform.Basic

/-!
The throwables of `java.lang`.
-/

set_option autoImplicit false

namespace DocAudit.Platform

/-- The throwables of `java.lang`. -/
def throwableTypes : List PlatformType := [
  { platformClass "java.lang.Throwable" with
      interfaces := ["java.io.Serializable"]
      methods :=
        ["getMessage()", "getLocalizedMessage()", "getCause()", "initCause(java.lang.Throwable)",
         "addSuppressed(java.lang.Throwable)", "getSuppressed()", "getStackTrace()",
         "fillInStackTrace()", "printStackTrace()", "toString()"]
      constructors := throwableConstructors },
  platformException "java.lang.Exception" "java.lang.Throwable",
  platformException "java.lang.Error" "java.lang.Throwable",
  platformException "java.lang.RuntimeException" "java.lang.Exception",
  platformException "java.lang.IllegalArgumentException" "java.lang.RuntimeException",
  platformException "java.lang.IllegalStateException" "java.lang.RuntimeException",
  { platformException "java.lang.NullPointerException" "java.lang.RuntimeException" with
      constructors := ["()", "(java.lang.String)"] },
  { platformException "java.lang.IndexOutOfBoundsException" "java.lang.RuntimeException" with
      constructors := ["()", "(int)", "(java.lang.String)"] },
  { platformException "java.lang.ArrayIndexOutOfBoundsException" "java.lang.IndexOutOfBoundsException" with
      constructors := ["()", "(int)", "(java.lang.String)"] },
  { platformException "java.lang.StringIndexOutOfBoundsException" "java.lang.IndexOutOfBoundsException" with
      constructors := ["()", "(int)", "(java.lang.String)"] },
  { platformException "java.lang.ClassCastException" "java.lang.RuntimeException" with
      constructors := ["()", "(java.lang.String)"] },
  { platformException "java.lang.ArithmeticException" "java.lang.RuntimeException" with
      constructors := ["()", "(java.lang.String)"] },
  platformException "java.lang.UnsupportedOperationException" "java.lang.RuntimeException",
  { platformException "java.lang.NumberFormatException" "java.lang.IllegalArgumentException" with
      constructors := ["()", "(java.lang.String)"] },
  platformException "java.lang.SecurityException" "java.lang.RuntimeException",
  { platformException "java.lang.NegativeArraySizeException" "java.lang.RuntimeException" with
      constructors := ["()", "(java.lang.String)"] },
  { platformException "java.lang.CloneNotSupportedException" "java.lang.Exception" with
      constructors := ["()", "(java.lang.String)"] },
  { platformException "java.lang.InterruptedException" "java.lang.Exception" with
      constructors := ["()", "(java.lang.String)"] },
  platformException "java.lang.ReflectiveOperationException" "java.lang.Exception",
  { platformException "java.lang.ClassNotFoundException" "java.lang.ReflectiveOperationException" with
      constructors := ["()", "(java.lang.String)", "(java.lang.String, java.lang.Throwable)"] },
  { platformException "java.lang.AssertionError" "java.lang.Error" with
      constructors := ["()", "(java.lang.Object)", "(java.lang.String, java.lang.Throwable)"] },
  platformException "java.lang.VirtualMachineError" "java.lang.Error",
  { platformException "java.lang.OutOfMemoryError" "java.lang.VirtualMachineError" with
      constructors := ["()", "(java.lang.String)"] },
  { platformException "java.lang.StackOverflowError" "java.lang.VirtualMachineError" with
      constructors := ["()", "(java.lang.String)"] } ]

end DocAudit.Platform
