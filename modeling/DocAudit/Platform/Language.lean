import DocAudit.Platform.Basic

/-!
The types of `java.lang` that comments commonly refer to, throwables apart.
-/

set_option autoImplicit false

namespace DocAudit.Platform

/-- The types of `java.lang` that comments commonly refer to, throwables apart. -/
def languageTypes : List PlatformType := [
  { platformClass "java.lang.Object" with
      methods :=
        ["equals(java.lang.Object)", "hashCode()", "toString()", "getClass()", "clone()",
         "finalize()", "notify()", "notifyAll()", "wait()", "wait(long)", "wait(long, int)"] },
  { platformClass "java.lang.String" with
      interfaces := ["java.io.Serializable", "java.lang.Comparable", "java.lang.CharSequence"]
      fields := ["CASE_INSENSITIVE_ORDER"]
      methods :=
        ["length()", "isEmpty()", "isBlank()", "charAt(int)", "substring(int)", "substring(int, int)",
         "indexOf(int)", "indexOf(java.lang.String)", "lastIndexOf(java.lang.String)",
         "startsWith(java.lang.String)", "endsWith(java.lang.String)",
         "contains(java.lang.CharSequence)", "equals(java.lang.Object)",
         "equalsIgnoreCase(java.lang.String)", "compareTo(java.lang.String)", "hashCode()",
         "toString()", "trim()", "strip()", "split(java.lang.String)", "toLowerCase()",
         "toUpperCase()", "replace(char, char)",
         "replace(java.lang.CharSequence, java.lang.CharSequence)", "toCharArray()", "getBytes()",
         "format(java.lang.String, java.lang.Object[])",
         "join(java.lang.CharSequence, java.lang.CharSequence[])", "valueOf(java.lang.Object)",
         "valueOf(int)", "valueOf(long)", "valueOf(char)", "valueOf(boolean)"]
      constructors := ["()", "(java.lang.String)", "(char[])", "(byte[])"] },
  { platformInterface "java.lang.CharSequence" with
      methods := ["length()", "charAt(int)", "subSequence(int, int)", "toString()"] },
  { platformInterface "java.lang.Comparable" with
      methods := ["compareTo(java.lang.Object)"] },
  { platformInterface "java.lang.Iterable" with
      methods := ["iterator()", "forEach(java.util.function.Consumer)"] },
  { platformInterface "java.lang.AutoCloseable" with
      methods := ["close()"] },
  { platformInterface "java.lang.Runnable" with
      methods := ["run()"] },
  platformInterface "java.lang.Cloneable",
  { platformInterface "java.lang.Appendable" with
      methods := ["append(char)", "append(java.lang.CharSequence)"] },
  { platformClass "java.lang.Number" with
      interfaces := ["java.io.Serializable"]
      methods := ["intValue()", "longValue()", "floatValue()", "doubleValue()"] },
  { platformClass "java.lang.Integer" with
      superclass := some "java.lang.Number"
      interfaces := ["java.lang.Comparable"]
      fields := ["MAX_VALUE", "MIN_VALUE", "SIZE"]
      methods :=
        ["parseInt(java.lang.String)", "valueOf(int)", "valueOf(java.lang.String)", "intValue()",
         "compareTo(java.lang.Integer)", "compare(int, int)", "toString(int)"]
      constructors := ["(int)", "(java.lang.String)"] },
  { platformClass "java.lang.Long" with
      superclass := some "java.lang.Number"
      interfaces := ["java.lang.Comparable"]
      fields := ["MAX_VALUE", "MIN_VALUE"]
      methods :=
        ["parseLong(java.lang.String)", "valueOf(long)", "longValue()", "compareTo(java.lang.Long)",
         "compare(long, long)"]
      constructors := ["(long)", "(java.lang.String)"] },
  { platformClass "java.lang.Double" with
      superclass := some "java.lang.Number"
      interfaces := ["java.lang.Comparable"]
      fields := ["MAX_VALUE", "MIN_VALUE", "NaN", "POSITIVE_INFINITY", "NEGATIVE_INFINITY"]
      methods :=
        ["parseDouble(java.lang.String)", "valueOf(double)", "doubleValue()", "isNaN()",
         "isNaN(double)", "compare(double, double)"]
      constructors := ["(double)", "(java.lang.String)"] },
  { platformClass "java.lang.Float" with
      superclass := some "java.lang.Number"
      interfaces := ["java.lang.Comparable"]
      fields := ["MAX_VALUE", "MIN_VALUE", "NaN"]
      methods := ["parseFloat(java.lang.String)", "valueOf(float)", "floatValue()"]
      constructors := ["(float)", "(java.lang.String)"] },
  { platformClass "java.lang.Short" with
      superclass := some "java.lang.Number"
      interfaces := ["java.lang.Comparable"]
      fields := ["MAX_VALUE", "MIN_VALUE"]
      methods := ["parseShort(java.lang.String)", "valueOf(short)", "shortValue()"]
      constructors := ["(short)"] },
  { platformClass "java.lang.Byte" with
      superclass := some "java.lang.Number"
      interfaces := ["java.lang.Comparable"]
      fields := ["MAX_VALUE", "MIN_VALUE"]
      methods := ["parseByte(java.lang.String)", "valueOf(byte)", "byteValue()"]
      constructors := ["(byte)"] },
  { platformClass "java.lang.Boolean" with
      interfaces := ["java.io.Serializable", "java.lang.Comparable"]
      fields := ["TRUE", "FALSE"]
      methods := ["parseBoolean(java.lang.String)", "valueOf(boolean)", "booleanValue()"]
      constructors := ["(boolean)"] },
  { platformClass "java.lang.Character" with
      interfaces := ["java.io.Serializable", "java.lang.Comparable"]
      fields := ["MAX_VALUE", "MIN_VALUE"]
      methods :=
        ["isDigit(char)", "isLetter(char)", "isWhitespace(char)", "isUpperCase(char)",
         "toUpperCase(char)", "toLowerCase(char)", "charValue()"]
      constructors := ["(char)"] },
  platformClass "java.lang.Void",
  { platformClass "java.lang.Math" with
      fields := ["PI", "E"]
      methods :=
        ["abs(int)", "abs(long)", "abs(double)", "max(int, int)", "max(long, long)",
         "max(double, double)", "min(int, int)", "min(long, long)", "min(double, double)",
         "sqrt(double)", "pow(double, double)", "floor(double)", "ceil(double)", "round(double)",
         "random()"] },
  { platformClass "java.lang.System" with
      fields := ["out", "err", "in"]
      methods :=
        ["currentTimeMillis()", "nanoTime()", "exit(int)", "getProperty(java.lang.String)",
         "getenv(java.lang.String)", "lineSeparator()",
         "arraycopy(java.lang.Object, int, java.lang.Object, int, int)",
         "identityHashCode(java.lang.Object)"] },
  { platformClass "java.lang.StringBuilder" with
      interfaces := ["java.io.Serializable", "java.lang.CharSequence", "java.lang.Appendable"]
      methods :=
        ["append(java.lang.String)", "append(java.lang.Object)", "append(java.lang.CharSequence)",
         "append(char)", "append(int)", "append(long)", "append(boolean)",
         "insert(int, java.lang.String)", "reverse()", "length()", "setLength(int)", "charAt(int)",
         "toString()"]
      constructors := ["()", "(int)", "(java.lang.String)", "(java.lang.CharSequence)"] },
  { platformClass "java.lang.Enum" with
      interfaces := ["java.lang.Comparable", "java.io.Serializable"]
      methods :=
        ["name()", "ordinal()", "toString()", "compareTo(java.lang.Enum)", "getDeclaringClass()",
         "valueOf(java.lang.Class, java.lang.String)"]
      constructors := [] },
  { platformClass "java.lang.Record" with
      methods := ["equals(java.lang.Object)", "hashCode()", "toString()"]
      constructors := [] },
  { platformClass "java.lang.Class" with
      interfaces := ["java.io.Serializable"]
      methods :=
        ["getName()", "getSimpleName()", "getSuperclass_()", "isInstance(java.lang.Object)",
         "cast(java.lang.Object)", "forName(java.lang.String)"] },
  { platformClass "java.lang.Thread" with
      interfaces := ["java.lang.Runnable"]
      methods :=
        ["run()", "start()", "join()", "interrupt()", "isInterrupted()", "currentThread()",
         "sleep(long)", "getName()", "setName(java.lang.String)", "setDaemon(boolean)"]
      constructors := ["()", "(java.lang.Runnable)", "(java.lang.Runnable, java.lang.String)"] },
  platformAnnotation "java.lang.Override",
  platformAnnotation "java.lang.Deprecated",
  platformAnnotation "java.lang.FunctionalInterface",
  platformAnnotation "java.lang.SuppressWarnings",
  platformAnnotation "java.lang.SafeVarargs" ]

end DocAudit.Platform
