import DocAudit.Project
import DocAudit.Proofs.Check.Quotes
import DocAudit.Proofs.Java.Declared
import DocAudit.Proofs.TypeTable.Order

/-!
The lines of a report in text: one for each violation and the summary, unless a message quotes
something that spans lines. Only four things can: the name of a package or a declared exception, a
parameter tag out of place, and a reference.
-/

set_option autoImplicit false

namespace DocAudit

section Rendering

private theorem ViolationKind.inLine_name (kind : ViolationKind) : '\n' ∉ kind.name := by
  cases kind <;> exact Text.inLine_ofList (by decide +kernel)

private theorem Diagnostic.inLine_render_iff {x : Diagnostic} (path : '\n' ∉ x.path) :
    '\n' ∉ x.render ↔ '\n' ∉ x.message := by
  have colon : '\n' ∉ (":" : Text) := Text.inLine_ofList (by decide +kernel)
  have opening : '\n' ∉ (": [" : Text) := Text.inLine_ofList (by decide +kernel)
  have closing : '\n' ∉ ("] " : Text) := Text.inLine_ofList (by decide +kernel)
  have kind := x.kind.inLine_name
  have place : '\n' ∉ x.path ++ ":" ++ Text.ofNat x.line ++ ": [" ++ x.kind.name ++ "] " := by
    simp only [List.mem_append, path, colon, opening, closing, kind, Text.inLine_ofNat, or_self,
      not_false_eq_true]
  exact not_congr (List.mem_append.trans (or_iff_right place))

namespace Report

private theorem inLine_summary (r : Report) : '\n' ∉ r.summary := by
  have checked : '\n' ∉ ("Checked " : Text) := Text.inLine_ofList (by decide +kernel)
  have files : '\n' ∉ (" files: " : Text) := Text.inLine_ofList (by decide +kernel)
  have diagnostics : '\n' ∉ (" diagnostics (" : Text) := Text.inLine_ofList (by decide +kernel)
  have milliseconds : '\n' ∉ ("ms)" : Text) := Text.inLine_ofList (by decide +kernel)
  unfold summary
  simp only [List.mem_append, checked, files, diagnostics, milliseconds, Text.inLine_ofNat, or_self,
    not_false_eq_true]

/-- The lines of a report are those of its violations, then the summary. -/
theorem splitOn_render (r : Report) : (r.render .text).splitOn '\n' =
    (r.diagnostics.flatMap fun x => x.render.splitOn '\n') ++ [r.summary] := by
  have whole : r.render .text = (r.diagnostics.flatMap fun x => x.render ++ ['\n']) ++ r.summary :=
    rfl
  rw [whole, ← List.splitOn_eq_singleton r.inLine_summary]
  generalize r.summary = last
  induction r.diagnostics with
  | nil => rfl
  | cons x diagnostics ih =>
    rw [List.flatMap_cons, List.flatMap_cons, List.append_assoc, List.append_assoc,
      List.append_assoc, List.singleton_append, List.splitOn_append_cons_self, ih]

/-- A report has one line for each violation exactly if no message spans lines. -/
theorem lines_iff {r : Report} (paths : ∀ x ∈ r.diagnostics, '\n' ∉ x.path) :
    (r.render .text).splitOn '\n' = r.diagnostics.map Diagnostic.render ++ [r.summary] ↔
      ∀ x ∈ r.diagnostics, '\n' ∉ x.message := by
  rw [splitOn_render, List.append_left_inj]
  constructor
  · intro same x member
    rw [← Diagnostic.inLine_render_iff (paths x member)]
    have line : x.render ∈ r.diagnostics.flatMap fun x => x.render.splitOn '\n' :=
      same ▸ List.mem_map_of_mem member
    obtain ⟨y, -, part⟩ := List.mem_flatMap.mp line
    exact fun inside => Text.not_of_mem_splitOnP part '\n' inside (beq_self_eq_true '\n')
  · intro inLine
    rw [List.map_eq_flatMap]
    refine List.flatMap_congr fun x member => ?_
    exact List.splitOn_eq_singleton
      ((Diagnostic.inLine_render_iff (paths x member)).mpr (inLine x member))

end Report

end Rendering

section Names

namespace TypeTable

private theorem inLine_platform_types : ∀ t ∈ Platform.types, '\n' ∉ t.name.toList := by
  simp only [Platform.types, List.forall_mem_append]
  refine ⟨⟨⟨⟨⟨?_, ?_⟩, ?_⟩, ?_⟩, ?_⟩, ?_⟩
  all_goals
    repeat refine List.forall_mem_cons.mpr ⟨Text.inLine_ofList (by decide +kernel), ?_⟩
    exact List.forall_mem_nil _

private theorem inLine_platform : platform.InLine := by
  intro name known
  obtain ⟨t, among, rfl⟩ := mem_types_of_platform_contains known
  exact inLine_platform_types t among

/-- The names of a project's types stand on one line if the names of its packages do. -/
theorem inLine_ofUnits {units : List CompilationUnit}
    (declared : ∀ unit ∈ units, ∀ t ∈ unit.types, '\n' ∉ t.binaryName) :
    (ofUnits units).InLine := by
  intro name known
  rcases contains_ofUnits_iff.mp known with platform | ⟨unit, member, t, ofUnit, rfl⟩
  · exact inLine_platform name platform
  · exact declared unit member t ofUnit

end TypeTable

end Names

namespace Declaration

/-- Whether parameter tags may stand in the comment of a declaration. -/
def allowsParam (d : Declaration) : Bool :=
  d.kind.isCallable || d.kind == .recordType ||
    (d.kind.isCheckedType && !d.typeVariables.isEmpty)

/-- The names and arguments of the tags in the comment of a declaration. -/
def tags (d : Declaration) : List (Text × Text) :=
  (d.comment.map fun comment => Comment.tags (Comment.events comment.text)).getD []

/-- Whether nothing that may be quoted of a declaration spans lines. -/
structure Unbroken (d : Declaration) (settings : Settings) : Prop where
  throws : ∀ name ∈ d.throws, '\n' ∉ name
  params : d.allowsParam = false → ∀ tag ∈ d.tags, tag.1 = "param" → '\n' ∉ tag.2.trim
  references : settings.checkReferences → ∀ tag ∈ d.tags, tag.1 ∈ Check.referenceTags →
    '\n' ∉ Reference.extract 0 tag.2.trim

end Declaration

/-- Whether nothing that may be quoted of a unit spans lines. -/
structure CompilationUnit.Unbroken (unit : CompilationUnit) (settings : Settings) : Prop where
  package : ∀ name ∈ unit.package, '\n' ∉ name
  declarations : ∀ d ∈ unit.declarations, d.Unbroken settings

section Messages

variable {d : Declaration} {unit : CompilationUnit} {path : Text} {table : TypeTable}
  {settings : Settings} {x : Diagnostic}

private theorem inLine_of_mem_parameterNames {s : Check.Subject} {name : Text}
    (proper : s.declaration.Proper) (member : name ∈ s.parameterNames) : '\n' ∉ name := by
  rcases List.mem_append.mp member with parameter | typeVariable
  · obtain ⟨p, among, rfl⟩ := List.mem_map.mp parameter
    exact fun inside => (proper.parameters p among).ne_lineFeed inside rfl
  · obtain ⟨v, among, rfl⟩ := List.mem_map.mp typeVariable
    have word : '\n' ∉ v.name := fun inside => (proper.typeVariables v among).ne_lineFeed inside rfl
    simp [word]

private theorem Declaration.inLine_of_origin {comment : DocComment} {v : Violation}
    (proper : d.Proper) (known : table.InLine) (owner : '\n' ∉ d.owner)
    (unbroken : d.Unbroken settings) (written : d.comment = some comment)
    (origin : Check.Origin (d.subject unit table settings) comment.text v) :
    ∀ t ∈ v.quotes, '\n' ∉ t := by
  cases origin with
  | throws member => exact List.forall_mem_singleton.mpr (unbroken.throws _ member)
  | inheritance wrong =>
    rcases Check.cases_of_judgeInheritDoc wrong with ⟨rfl, -⟩ | rfl
    · exact List.forall_mem_nil _
    · exact List.forall_mem_nil _
  | @tag name argument _ member blames =>
    have among : (name, argument) ∈ d.tags := by
      rw [Declaration.tags, written]
      exact member
    exact blames.inLine known owner
      (fun named refused => unbroken.params refused (name, argument) among named)
      (fun named checked => unbroken.references checked (name, argument) among named)
  | length | result => exact List.forall_mem_nil _
  | parameter _ member =>
    exact List.forall_mem_singleton.mpr (inLine_of_mem_parameterNames proper member)
  | exception _ resolved =>
    exact List.forall_mem_singleton.mpr (Scope.inLine_of_resolve? known resolved)

/-- No message about a parsed unit spans lines if nothing does that may be quoted. -/
theorem CompilationUnit.inLine_message {source : Text} (known : table.InLine)
    (unbroken : (Java.outline source).Unbroken settings)
    (found : x ∈ (Java.outline source).diagnostics path table settings) : '\n' ∉ x.message := by
  obtain ⟨d, member, found⟩ := List.mem_flatMap.mp found
  have proper := Java.proper_of_mem_declarations member
  obtain ⟨v, diagnosed, cause⟩ := Declaration.origin_of_mem_diagnostics found
  rw [diagnosed]
  refine v.inLine_message_iff.mpr ?_
  rcases cause with ⟨rfl, isMethod⟩ | ⟨comment, written, origin⟩
  · exact List.forall_mem_singleton.mpr fun inside => (proper.name isMethod).ne_lineFeed inside rfl
  · obtain ⟨t, ofUnit, same⟩ := Java.owner_of_mem_declarations member
    have owner : '\n' ∉ d.owner := same ▸ Java.inLine_of_mem_types unbroken.package ofUnit
    exact Declaration.inLine_of_origin proper known owner (unbroken.declarations d member) written
      origin

end Messages

namespace Project

/-- The report on a project lists the violations of its sources. -/
theorem mem_diagnostics_iff (p : Project) (settings : Text → Settings) (x : Diagnostic) :
    x ∈ p.diagnostics settings ↔ ∃ source ∈ p.sources,
      x ∈ source.unit.diagnostics source.path p.table (settings source.path) := by
  rw [diagnostics, Diagnostic.sorted, List.mem_mergeSort, List.mem_flatMap]

/-- A report in text has one line for each violation, in order, and the summary exactly if no
message spans lines. None does where the packages, the declared exceptions, the misplaced parameter
tags and the references of the sources stand on one line each. -/
theorem lines_of_report (p : Project) (settings : Text → Settings) (r : Report)
    (parsed : ∀ source ∈ p.sources, ∃ text, source.unit = Java.outline text)
    (paths : ∀ source ∈ p.sources, '\n' ∉ source.path)
    (made : ∀ x ∈ r.diagnostics, ∃ source ∈ p.sources,
      x ∈ source.unit.diagnostics source.path p.table (settings source.path)) :
    ((r.render .text).splitOn '\n' = r.diagnostics.map Diagnostic.render ++ [r.summary] ↔
      ∀ x ∈ r.diagnostics, '\n' ∉ x.message) ∧
    ((∀ source ∈ p.sources, source.unit.Unbroken (settings source.path)) →
      (r.render .text).splitOn '\n' = r.diagnostics.map Diagnostic.render ++ [r.summary]) := by
  have paths' : ∀ x ∈ r.diagnostics, '\n' ∉ x.path := by
    intro x member
    obtain ⟨source, among, found⟩ := made x member
    obtain ⟨d, -, found⟩ := List.mem_flatMap.mp found
    obtain ⟨v, diagnosed, -⟩ := Declaration.origin_of_mem_diagnostics found
    rw [diagnosed]
    exact paths source among
  refine ⟨Report.lines_iff paths', fun unbroken => (Report.lines_iff paths').mpr ?_⟩
  have known : p.table.InLine := by
    refine TypeTable.inLine_ofUnits fun unit member t ofUnit => ?_
    obtain ⟨source, among, rfl⟩ := List.mem_map.mp member
    have package := (unbroken source among).package
    obtain ⟨text, outlined⟩ := parsed source among
    rw [outlined] at package ofUnit
    exact Java.inLine_of_mem_types package ofUnit
  intro x member
  obtain ⟨source, among, found⟩ := made x member
  have whole := unbroken source among
  obtain ⟨text, outlined⟩ := parsed source among
  rw [outlined] at whole found
  exact CompilationUnit.inLine_message known whole found

/-- A class whose comment has a reference on one line, with a label that spans lines. -/
def labelledShop : SourceFile where
  path := "Shop.java"
  unit := Java.outline
    "/** Documents the shop well.\n * @see Shop#open \"the\n * opening\" */\nclass Shop \x7b\x7d\n"

/-- The label does not show in the report. -/
theorem lines_of_labelled_reference :
    let p : Project := ⟨[labelledShop], []⟩
    let r : Report := ⟨1, p.diagnostics fun _ => {}, [], 0⟩
    labelledShop.unit.Unbroken {} ∧
      (r.render .text).splitOn '\n' = r.diagnostics.map Diagnostic.render ++ [r.summary] := by
  intro p r
  have throws : ∀ d ∈ labelledShop.unit.declarations, ∀ name ∈ d.throws, '\n' ∉ name := by
    decide +kernel
  have params : ∀ d ∈ labelledShop.unit.declarations, ∀ tag ∈ d.tags, tag.1 ≠ "param" := by
    decide +kernel
  have references : ∀ d ∈ labelledShop.unit.declarations, ∀ tag ∈ d.tags,
      '\n' ∉ Reference.extract 0 tag.2.trim := by
    decide +kernel
  have unbroken : labelledShop.unit.Unbroken {} := {
    package := by decide +kernel
    declarations := fun d member => {
      throws := throws d member
      params := fun _ tag among named => absurd named (params d member tag among)
      references := fun _ tag among _ => references d member tag among } }
  have report := lines_of_report p (fun _ => {}) r (List.forall_mem_singleton.mpr ⟨_, rfl⟩)
    (by decide +kernel) fun x => (mem_diagnostics_iff p (fun _ => {}) x).mp
  exact ⟨unbroken, report.2 (List.forall_mem_singleton.mpr unbroken)⟩

/-- A class whose comment has a parameter tag, with a title in quotes that spans lines. -/
def titledShop : SourceFile where
  path := "Shop.java"
  unit := Java.outline
    "/** Documents the shop well.\n * @param title \"Corner\n * shop\" */\nclass Shop \x7b\x7d\n"

/-- The title is quoted as it stands, so one violation takes two lines of the report. -/
theorem lines_of_misplaced_parameter :
    let p : Project := ⟨[titledShop], []⟩
    let r : Report := ⟨1, titledShop.unit.diagnostics titledShop.path p.table {}, [], 0⟩
    r.diagnostics.length = 1 ∧ ((r.render .text).splitOn '\n').length = 3 ∧
      (r.render .text).splitOn '\n' ≠ r.diagnostics.map Diagnostic.render ++ [r.summary] := by
  decide +kernel

end Project

end DocAudit
