import DocAudit.Platform.Basic

/-!
The types of `java.io` that comments commonly refer to.
-/

set_option autoImplicit false

namespace DocAudit.Platform

/-- The types of `java.io` that comments commonly refer to. -/
def streamTypes : List PlatformType := [
  platformInterface "java.io.Serializable",
  { platformInterface "java.io.Closeable" with
      interfaces := ["java.lang.AutoCloseable"]
      methods := ["close()"] },
  { platformInterface "java.io.Flushable" with
      methods := ["flush()"] },
  platformException "java.io.IOException" "java.lang.Exception",
  { platformException "java.io.FileNotFoundException" "java.io.IOException" with
      constructors := ["()", "(java.lang.String)"] },
  { platformException "java.io.EOFException" "java.io.IOException" with
      constructors := ["()", "(java.lang.String)"] },
  { platformException "java.io.UnsupportedEncodingException" "java.io.IOException" with
      constructors := ["()", "(java.lang.String)"] },
  { platformException "java.io.UncheckedIOException" "java.lang.RuntimeException" with
      constructors := ["(java.lang.String, java.io.IOException)", "(java.io.IOException)"] },
  { platformClass "java.io.InputStream" with
      interfaces := ["java.io.Closeable"]
      methods :=
        ["read()", "read(byte[])", "read(byte[], int, int)", "readAllBytes()", "skip(long)",
         "available()", "close()"] },
  { platformClass "java.io.OutputStream" with
      interfaces := ["java.io.Closeable", "java.io.Flushable"]
      methods := ["write(int)", "write(byte[])", "write(byte[], int, int)", "flush()", "close()"] },
  { platformClass "java.io.Reader" with
      interfaces := ["java.io.Closeable"]
      methods := ["read()", "read(char[])", "read(char[], int, int)", "close()"]
      constructors := [] },
  { platformClass "java.io.Writer" with
      interfaces := ["java.lang.Appendable", "java.io.Closeable", "java.io.Flushable"]
      methods := ["write(int)", "write(java.lang.String)", "write(char[])", "flush()", "close()"]
      constructors := [] },
  { platformClass "java.io.PrintStream" with
      superclass := some "java.io.OutputStream"
      interfaces := ["java.lang.Appendable"]
      methods :=
        ["print(java.lang.String)", "print(java.lang.Object)", "println()",
         "println(java.lang.String)", "println(java.lang.Object)",
         "printf(java.lang.String, java.lang.Object[])",
         "format(java.lang.String, java.lang.Object[])"]
      constructors := ["(java.io.OutputStream)", "(java.io.OutputStream, boolean)"] },
  { platformClass "java.io.File" with
      interfaces := ["java.io.Serializable", "java.lang.Comparable"]
      fields := ["separator", "pathSeparator"]
      methods :=
        ["getName()", "getPath()", "getAbsolutePath()", "getParentFile()", "exists()", "isFile()",
         "isDirectory()", "length()", "delete()", "mkdirs()", "listFiles()"]
      constructors :=
        ["(java.lang.String)", "(java.lang.String, java.lang.String)",
         "(java.io.File, java.lang.String)"] } ]

end DocAudit.Platform
