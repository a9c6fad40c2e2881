import DocAudit.Proofs.Java.Members

/-!
What the declarations and types of a Java source are called. Their own names are words of the
source; only the name of a package is kept as written.
-/

set_option autoImplicit false

namespace DocAudit

/-- The names of a method and of the parameters and type variables of any declaration are words. -/
structure Declaration.Proper (d : Declaration) : Prop where
  name : d.kind = .method → Java.IsName d.name
  parameters : ∀ p ∈ d.parameters, Java.IsName p.name
  typeVariables : ∀ v ∈ d.typeVariables, Java.IsName v.name

namespace Java

namespace Item

variable {s : Surroundings} {before items : List Item}

private theorem proper_declareType {line : Nat} {modifiers : Modifiers} {header : TypeHeader}
    (proper : header.Proper) : (declareType s before line modifiers header).Proper where
  name isMethod := by
    have kind := proper.kind
    rw [show header.kind = .method from isMethod] at kind
    exact absurd kind (by decide)
  parameters := proper.components
  typeVariables := proper.typeVariables

private theorem proper_declareCallable {line : Nat} {modifiers : Modifiers}
    {header : CallableHeader} (proper : header.Proper) :
    (declareCallable s before line modifiers header).Proper where
  name _ := proper.name
  parameters := proper.parameters
  typeVariables := proper.typeVariables

private theorem proper_declare_field {line : Nat} {modifiers : Modifiers} {name : Text} :
    (declare s before .field name line modifiers).Proper where
  name isMethod := by cases isMethod
  parameters p member := absurd member List.not_mem_nil
  typeVariables v member := absurd member List.not_mem_nil

theorem proper_of_mem_declarations {d : Declaration} (proper : Proper items)
    (found : d ∈ declarations s before items) : d.Proper := by
  fun_induction declarations s before items with
  | case1 => exact absurd found List.not_mem_nil
  | case2 s before line modifiers header body rest ihBody ihRest =>
    simp only [Proper] at proper
    obtain ⟨isProper, properBody, properRest⟩ := proper
    rcases List.mem_append.mp found with found | found
    · rcases List.mem_cons.mp found with rfl | found
      · exact proper_declareType isProper
      · exact ihBody properBody found
    · exact ihRest properRest found
  | case3 s before line modifiers header rest ih =>
    simp only [Proper] at proper
    rcases List.mem_cons.mp found with rfl | found
    · exact proper_declareCallable proper.1
    · exact ih proper.2 found
  | case4 s before line modifiers names rest ih =>
    rcases List.mem_cons.mp found with rfl | found
    · exact proper_declare_field
    · exact ih proper.tail found
  | case5 s before item rest _ _ _ ih => exact ih proper.tail found

/-- Binary names stand on one line wherever that of what surrounds them does. -/
theorem inLine_of_mem_types {t : TypeDeclaration} (proper : Proper items)
    (around : ∀ name : Text, '\n' ∉ name → '\n' ∉ s.binaryName name)
    (found : t ∈ types s items) : '\n' ∉ t.binaryName := by
  fun_induction types s items with
  | case1 => exact absurd found List.not_mem_nil
  | case2 s line modifiers header body rest ihBody ihRest =>
    simp only [Proper] at proper
    obtain ⟨isProper, properBody, properRest⟩ := proper
    have named : '\n' ∉ s.binaryName header.name :=
      around header.name fun member => isProper.name.ne_lineFeed member rfl
    have within (name : Text) (inLine : '\n' ∉ name) : '\n' ∉ (s.enter header).binaryName name := by
      have nested : (s.enter header).binaryName name = s.binaryName header.name ++ '$' :: name :=
        List.append_assoc _ _ _
      simpa [nested, named] using inLine
    rcases List.mem_cons.mp found with rfl | found
    · exact named
    · rcases List.mem_append.mp found with found | found
      · exact ihBody properBody within found
      · exact ihRest properRest around found
  | case3 s item rest _ ih => exact ih proper.tail around found

end Item

section Outline

variable {source : Text}

theorem proper_of_mem_declarations {d : Declaration} (found : d ∈ (outline source).declarations) :
    d.Proper :=
  Item.proper_of_mem_declarations (Item.proper_ofSource source) found

/-- The binary names of a source stand on one line if the name of its package does. -/
theorem inLine_of_mem_types {t : TypeDeclaration}
    (package : ∀ name ∈ (outline source).package, '\n' ∉ name)
    (found : t ∈ (outline source).types) : '\n' ∉ t.binaryName := by
  refine Item.inLine_of_mem_types (Item.proper_ofSource source) (fun name inLine => ?_) found
  change ∀ name ∈ Item.packageName (Item.ofSource source), '\n' ∉ name at package
  cases prior : Item.packageName (Item.ofSource source) with
  | none => exact inLine
  | some prior' =>
    have before : '\n' ∉ prior' := package prior' prior
    simpa [Surroundings.binaryName, before] using inLine

end Outline

end Java

end DocAudit
