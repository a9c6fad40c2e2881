import DocAudit.Platform.Basic

/-!
The types of `java.util` that comments commonly refer to.
-/

set_option autoImplicit false

namespace DocAudit.Platform

/-- The types of `java.util` that comments commonly refer to. -/
def collectionTypes : List PlatformType := [
  { platformInterface "java.util.Collection" with
      interfaces := ["java.lang.Iterable"]
      methods :=
        ["size()", "isEmpty()", "contains(java.lang.Object)", "add(java.lang.Object)",
         "remove(java.lang.Object)", "addAll(java.util.Collection)",
         "removeAll(java.util.Collection)", "containsAll(java.util.Collection)", "clear()",
         "iterator()", "stream()", "toArray()", "toArray(java.lang.Object[])"] },
  { platformInterface "java.util.List" with
      interfaces := ["java.util.Collection"]
      methods :=
        ["get(int)", "set(int, java.lang.Object)", "add(int, java.lang.Object)", "remove(int)",
         "indexOf(java.lang.Object)", "lastIndexOf(java.lang.Object)", "subList(int, int)",
         "sort(java.util.Comparator)", "listIterator()", "of()", "of(java.lang.Object[])",
         "copyOf(java.util.Collection)"] },
  { platformInterface "java.util.Set" with
      interfaces := ["java.util.Collection"]
      methods := ["of()", "of(java.lang.Object[])", "copyOf(java.util.Collection)"] },
  { platformInterface "java.util.SortedSet" with
      interfaces := ["java.util.Set"]
      methods := ["first()", "last()", "comparator()"] },
  { platformInterface "java.util.Queue" with
      interfaces := ["java.util.Collection"]
      methods := ["offer(java.lang.Object)", "poll()", "peek()", "element()"] },
  { platformInterface "java.util.Deque" with
      interfaces := ["java.util.Queue"]
      methods :=
        ["push(java.lang.Object)", "pop()", "addFirst(java.lang.Object)", "addLast(java.lang.Object)",
         "peekFirst()", "peekLast()"] },
  { platformInterface "java.util.Map" with
      methods :=
        ["size()", "isEmpty()", "get(java.lang.Object)", "put(java.lang.Object, java.lang.Object)",
         "remove(java.lang.Object)", "containsKey(java.lang.Object)",
         "containsValue(java.lang.Object)", "getOrDefault(java.lang.Object, java.lang.Object)",
         "putIfAbsent(java.lang.Object, java.lang.Object)",
         "computeIfAbsent(java.lang.Object, java.util.function.Function)", "putAll(java.util.Map)",
         "keySet()", "values()", "entrySet()", "clear()", "of()"] },
  { platformInterface "java.util.Map$Entry" with
      methods := ["getKey()", "getValue()", "setValue(java.lang.Object)"] },
  { platformInterface "java.util.SortedMap" with
      interfaces := ["java.util.Map"]
      methods := ["firstKey()", "lastKey()", "comparator()"] },
  { platformInterface "java.util.Iterator" with
      methods := ["hasNext()", "next()", "remove()"] },
  { platformInterface "java.util.ListIterator" with
      interfaces := ["java.util.Iterator"]
      methods := ["hasPrevious()", "previous()", "nextIndex()", "previousIndex()"] },
  { platformInterface "java.util.Comparator" with
      methods :=
        ["compare(java.lang.Object, java.lang.Object)", "reversed()", "naturalOrder()",
         "reverseOrder()", "comparing(java.util.function.Function)"] },
  platformInterface "java.util.RandomAccess",
  { platformClass "java.util.ArrayList" with
      interfaces :=
        ["java.util.List", "java.util.RandomAccess", "java.lang.Cloneable", "java.io.Serializable"]
      methods := ["ensureCapacity(int)", "trimToSize()"]
      constructors := ["()", "(int)", "(java.util.Collection)"] },
  { platformClass "java.util.LinkedList" with
      interfaces :=
        ["java.util.List", "java.util.Deque", "java.lang.Cloneable", "java.io.Serializable"]
      constructors := ["()", "(java.util.Collection)"] },
  { platformClass "java.util.HashMap" with
      interfaces := ["java.util.Map", "java.lang.Cloneable", "java.io.Serializable"]
      constructors := ["()", "(int)", "(int, float)", "(java.util.Map)"] },
  { platformClass "java.util.LinkedHashMap" with
      superclass := some "java.util.HashMap"
      interfaces := ["java.util.Map"]
      constructors := ["()", "(int)", "(java.util.Map)"] },
  { platformClass "java.util.TreeMap" with
      interfaces := ["java.util.SortedMap", "java.lang.Cloneable", "java.io.Serializable"]
      constructors := ["()", "(java.util.Comparator)", "(java.util.Map)"] },
  { platformClass "java.util.HashSet" with
      interfaces := ["java.util.Set", "java.lang.Cloneable", "java.io.Serializable"]
      constructors := ["()", "(int)", "(java.util.Collection)"] },
  { platformClass "java.util.LinkedHashSet" with
      superclass := some "java.util.HashSet"
      interfaces := ["java.util.Set"]
      constructors := ["()", "(int)", "(java.util.Collection)"] },
  { platformClass "java.util.TreeSet" with
      interfaces := ["java.util.SortedSet", "java.lang.Cloneable", "java.io.Serializable"]
      constructors := ["()", "(java.util.Comparator)", "(java.util.Collection)"] },
  { platformClass "java.util.ArrayDeque" with
      interfaces := ["java.util.Deque", "java.lang.Cloneable", "java.io.Serializable"]
      constructors := ["()", "(int)", "(java.util.Collection)"] },
  { platformClass "java.util.Optional" with
      methods :=
        ["of(java.lang.Object)", "ofNullable(java.lang.Object)", "empty()", "isPresent()",
         "isEmpty()", "get()", "orElse(java.lang.Object)", "orElseGet(java.util.function.Supplier)",
         "orElseThrow()", "map(java.util.function.Function)", "flatMap(java.util.function.Function)",
         "filter(java.util.function.Predicate)", "ifPresent(java.util.function.Consumer)"]
      constructors := [] },
  { platformClass "java.util.Objects" with
      methods :=
        ["equals(java.lang.Object, java.lang.Object)", "hash(java.lang.Object[])",
         "hashCode(java.lang.Object)", "toString(java.lang.Object)", "isNull(java.lang.Object)",
         "nonNull(java.lang.Object)", "requireNonNull(java.lang.Object)",
         "requireNonNull(java.lang.Object, java.lang.String)"]
      constructors := [] },
  { platformClass "java.util.Arrays" with
      methods :=
        ["asList(java.lang.Object[])", "sort(int[])", "sort(long[])", "sort(java.lang.Object[])",
         "toString(int[])", "toString(java.lang.Object[])", "equals(int[], int[])",
         "equals(java.lang.Object[], java.lang.Object[])", "fill(int[], int)",
         "stream(java.lang.Object[])"]
      constructors := [] },
  { platformClass "java.util.Collections" with
      fields := ["EMPTY_LIST", "EMPTY_MAP", "EMPTY_SET"]
      methods :=
        ["emptyList()", "emptyMap()", "emptySet()", "singletonList(java.lang.Object)",
         "unmodifiableList(java.util.List)", "unmodifiableMap(java.util.Map)",
         "unmodifiableSet(java.util.Set)", "sort(java.util.List)",
         "sort(java.util.List, java.util.Comparator)"]
      constructors := [] },
  { platformClass "java.util.UUID" with
      interfaces := ["java.io.Serializable", "java.lang.Comparable"]
      methods := ["randomUUID()", "fromString(java.lang.String)", "toString()"]
      constructors := ["(long, long)"] },
  { platformException "java.util.NoSuchElementException" "java.lang.RuntimeException" with
      constructors := ["()", "(java.lang.String)"] },
  platformException "java.util.ConcurrentModificationException" "java.lang.RuntimeException" ]

end DocAudit.Platform
