import DocAudit.Declaration
import DocAudit.JavaType

/-!
The types that a check knows, by binary name, each with its supertypes and its own members.
-/

set_option autoImplicit false

namespace DocAudit

/-- A method's name with its erased parameter types. -/
structure MethodSignature where
  name : Text
  parameters : List JavaType
deriving DecidableEq

/-- The supertypes and own members of one type. -/
structure KnownType where
  kind : DeclarationKind
  superclass : Option JavaType
  interfaces : List JavaType := []
  fields : List Text := []
  methods : List MethodSignature := []
  constructors : List (List JavaType) := []
deriving DecidableEq

namespace KnownType

/-- The superclass that a type has without naming one. -/
def implicitSuperclass (name : Text) : DeclarationKind → Option JavaType
  | .classType => if name = JavaType.object.element then none else some .object
  | .enumType => some ⟨"java.lang.Enum", 0⟩
  | .recordType => some ⟨"java.lang.Record", 0⟩
  | _ => none

/-- A type just declared, without members. -/
def fresh (name : Text) (kind : DeclarationKind) : KnownType :=
  { kind, superclass := implicitSuperclass name kind }

end KnownType

/-- Known types by binary name, one for each name. -/
structure TypeTable where
  entries : List (Text × KnownType)
  nodup : (entries.map Prod.fst).Nodup

namespace TypeTable

/-- The table without any type. -/
def empty : TypeTable :=
  ⟨[], List.nodup_nil⟩

/-- The names of the known types. -/
def names (table : TypeTable) : List Text :=
  table.entries.map Prod.fst

/-- The number of known types. -/
def size (table : TypeTable) : Nat :=
  table.entries.length

/-- What is known of the type with this name. -/
def find? (table : TypeTable) (name : Text) : Option KnownType :=
  table.entries.lookup name

/-- Whether a type with this name is known. -/
def contains (table : TypeTable) (name : Text) : Bool :=
  (table.find? name).isSome

/-- Change what is known of one type; nothing happens to a name that is not known. -/
def modify (table : TypeTable) (name : Text) (change : KnownType → KnownType) : TypeTable where
  entries := table.entries.map fun e => if e.1 = name then (e.1, change e.2) else e
  nodup := by
    have same : (table.entries.map fun e => if e.1 = name then (e.1, change e.2) else e).map
        Prod.fst = table.entries.map Prod.fst := by
      rw [List.map_map]
      apply List.map_congr_left
      intro e _
      simp only [Function.comp_apply]
      split <;> rfl
    rw [same]
    exact table.nodup

/-- Add a type, or replace what was known of it. -/
def insert (table : TypeTable) (name : Text) (known : KnownType) : TypeTable :=
  if isNew : name ∈ table.names then table.modify name fun _ => known
  else
    { entries := table.entries ++ [(name, known)]
      nodup := by
        rw [List.map_append]
        refine List.nodup_append.mpr ⟨table.nodup, by simp, ?_⟩
        intro a ha b hb
        simp only [List.map_cons, List.map_nil, List.mem_singleton] at hb
        subst hb
        exact fun h => isNew (h ▸ ha) }

/-- Declare a type anew, without members and with its implicit superclass. -/
def declare (table : TypeTable) (name : Text) (kind : DeclarationKind) : TypeTable :=
  table.insert name (.fresh name kind)

/-- Set the superclass of a known type. -/
def setSuperclass (table : TypeTable) (name superclass : Text) : TypeTable :=
  table.modify name fun t => { t with superclass := some ⟨superclass, 0⟩ }

/-- Add an interface to a known type. -/
def addInterface (table : TypeTable) (name interface : Text) : TypeTable :=
  table.modify name fun t => { t with interfaces := t.interfaces ++ [⟨interface, 0⟩] }

/-- Add a field to a known type. -/
def addField (table : TypeTable) (name field : Text) : TypeTable :=
  table.modify name fun t => { t with fields := t.fields ++ [field] }

/-- Add a method to a known type. -/
def addMethod (table : TypeTable) (name method : Text) (parameters : List JavaType) : TypeTable :=
  table.modify name fun t => { t with methods := t.methods ++ [⟨method, parameters⟩] }

/-- Add a constructor to a known type. -/
def addConstructor (table : TypeTable) (name : Text) (parameters : List JavaType) : TypeTable :=
  table.modify name fun t => { t with constructors := t.constructors ++ [parameters] }

/-- What is known of a type. An array is not known: it has no members of its own. -/
def known? (table : TypeTable) (ty : JavaType) : Option KnownType :=
  if ty.isArray then none else table.find? ty.element

/-- The superclass of a type. -/
def superclass? (table : TypeTable) (ty : JavaType) : Option JavaType :=
  (table.known? ty).bind (·.superclass)

/-- The interfaces that a type names itself. -/
def interfaces (table : TypeTable) (ty : JavaType) : List JavaType :=
  ((table.known? ty).map (·.interfaces)).getD []

/-- The fields that a type declares itself. -/
def fields (table : TypeTable) (ty : JavaType) : List Text :=
  ((table.known? ty).map (·.fields)).getD []

/-- The methods that a type declares itself. -/
def methods (table : TypeTable) (ty : JavaType) : List MethodSignature :=
  ((table.known? ty).map (·.methods)).getD []

/-- The parameter types of each constructor of a type. -/
def constructors (table : TypeTable) (ty : JavaType) : List (List JavaType) :=
  ((table.known? ty).map (·.constructors)).getD []

end TypeTable

end DocAudit
