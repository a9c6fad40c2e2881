import DocAudit.Proofs.Check.Independence
import DocAudit.Proofs.Check.Origin

/-!
What a setting changes in a report. The least length decides on the finding that a comment is too
short, the check of references on those that a reference is wrong, and nothing decides on any other
finding.
-/

set_option autoImplicit false

namespace DocAudit

/-- Whether a violation says that a comment is too short. -/
def Violation.isTooShort : Violation → Bool
  | commentTooShort _ _ => true
  | _ => false

namespace Check

open Comment (Event IsDocComment)

/-- The same subject under other settings. -/
def Subject.withSettings (s : Subject) (settings : Settings) : Subject :=
  { s with settings }

/-- The verdict, with no violation if that is a wrong reference. -/
def Verdict.apartFromReference (verdict : Verdict) : Verdict :=
  { verdict with violation := verdict.violation.filter fun v => !v.isReference }

/-- The findings with certain violations. -/
def keeping (keep : Violation → Bool) (found : List Finding) : List Finding :=
  found.filter fun f => keep f.violation

section Verdicts

variable {s : Subject} {settings : Settings} {name argument : Text}

private theorem apart_judgeReference (tag argument : Text) :
    (judgeReference s tag argument).apartFromReference = .accept := by
  unfold judgeReference
  split_ifs
  · split
    · rfl
    · next v failed =>
      have reference : v.isReference := (Reference.blames_of_check_error failed).isReference
      simp [Verdict.apartFromReference, Verdict.blame, Verdict.accept, reference]
  · rfl

private theorem apart_judgeLink (tag : Text) (missing : Violation) (argument : Text) :
    (judgeLink s tag missing argument).apartFromReference =
      if argument.isAllBlank then (Verdict.refuse missing).apartFromReference else .accept := by
  unfold judgeLink
  split_ifs
  · rfl
  · exact apart_judgeReference tag argument

private theorem apart_judgeSee (argument : Text) :
    (judgeSee s argument).apartFromReference =
      if argument.trim = [] then .refuse (.malformedReference "see") else .accept := by
  unfold judgeSee
  simp only
  split
  · next empty => rw [if_pos empty]; rfl
  · next quoted => rw [if_neg (by simp [quoted])]; rfl
  · next linked => rw [if_neg (by simp [linked])]; rfl
  · next filled _ _ => rw [if_neg filled, apart_judgeReference]

private theorem resolveThrows_withSettings (names : List Text) :
    (s.withSettings settings).resolveThrows names = s.resolveThrows names := by
  induction names with
  | nil => rfl
  | cons name names ih =>
    rw [Subject.resolveThrows, Subject.resolveThrows, ih]
    rfl

private theorem throws_withSettings : (s.withSettings settings).throws = s.throws := by
  rw [Subject.throws, Subject.throws, resolveThrows_withSettings]
  rfl

/-- No setting changes a verdict otherwise than by a wrong reference. -/
theorem apart_judge_withSettings (s : Subject) (settings : Settings) (name argument : Text) :
    (judge (s.withSettings settings) name argument).apartFromReference =
      (judge s name argument).apartFromReference := by
  unfold judge
  cases TagName.ofText? name with
  | none => rfl
  | some tag =>
    cases tag with
    | author | version | since | deprecated | returns | param => rfl
    | link | value => simp only [apart_judgeLink]
    | see => simp only [apart_judgeSee]
    | throws =>
      simp only [judgeThrows, throws_withSettings]
      rfl

/-- Where both settings have references checked, or neither does, the verdicts are the same. -/
private theorem judge_withSettings (agree : settings.checkReferences = s.settings.checkReferences) :
    judge (s.withSettings settings) name argument = judge s name argument := by
  have reference (tag argument : Text) :
      judgeReference (s.withSettings settings) tag argument = judgeReference s tag argument := by
    rw [judgeReference, judgeReference, ← agree]
    rfl
  unfold judge
  cases TagName.ofText? name with
  | none => rfl
  | some tag =>
    cases tag with
    | author | version | since | deprecated | returns | param => rfl
    | link | value => simp only [judgeLink, reference]
    | see => simp only [judgeSee, reference]
    | throws =>
      simp only [judgeThrows, throws_withSettings]
      rfl

private theorem length_withSettings : (s.withSettings settings).length = s.length := by
  funext e
  cases e with
  | tag line name argument =>
    have same := congrArg Verdict.counts (apart_judge_withSettings s settings name argument)
    simp only [Verdict.apartFromReference] at same
    simp only [Subject.length, same]
  | _ => rfl

private theorem documents_withSettings : (s.withSettings settings).documents = s.documents := by
  funext e
  cases e with
  | tag line name argument =>
    have same := congrArg Verdict.documents (apart_judge_withSettings s settings name argument)
    simp only [Verdict.apartFromReference] at same
    simp only [Subject.documents, same]
  | _ => rfl

private theorem judgeInheritance_withSettings :
    (s.withSettings settings).judgeInheritance = s.judgeInheritance := by
  funext e
  cases e <;> rfl

end Verdicts

section Reports

variable {s : Subject} {settings : Settings} {keep : Violation → Bool}

private theorem keeping_append (found more : List Finding) :
    keeping keep (found ++ more) = keeping keep found ++ keeping keep more :=
  List.filter_append found more

private theorem keeping_map (line : Nat) (violations : List Violation) :
    keeping keep (violations.map (⟨line, ·⟩)) = (violations.filter keep).map (⟨line, ·⟩) :=
  List.filter_map

private theorem keeping_judgeEvent (reference : (∀ v, v.isReference → keep v = false) ∨
      settings.checkReferences = s.settings.checkReferences) (e : Event) :
    keeping keep ((s.withSettings settings).judgeEvent e) = keeping keep (s.judgeEvent e) := by
  cases e with
  | tag line name argument =>
    simp only [Subject.judgeEvent]
    rcases reference with dropped | agree
    · have narrowed : ∀ found : Option Violation, found.toList.filter keep =
          (found.filter fun v => !v.isReference).toList.filter keep := by
        rintro (_ | v)
        · rfl
        · cases reference : v.isReference with
          | true => simp [Option.filter, reference, dropped v reference]
          | false => simp [Option.filter, reference]
      have same := congrArg Verdict.violation (apart_judge_withSettings s settings name argument)
      simp only [Verdict.apartFromReference] at same
      rw [keeping_map, keeping_map, narrowed, same, ← narrowed]
    · rw [judge_withSettings agree]
  | _ => rfl

private theorem keeping_judgeEvents (reference : (∀ v, v.isReference → keep v = false) ∨
      settings.checkReferences = s.settings.checkReferences)
    (omissions : ∀ seen, ((s.withSettings settings).omissions seen).filter keep =
      (s.omissions seen).filter keep) (complete : Bool) (seen events : List Event) :
    keeping keep ((s.withSettings settings).judgeEvents complete seen events) =
      keeping keep (s.judgeEvents complete seen events) := by
  induction events generalizing seen with
  | nil => rfl
  | cons e events ih =>
    simp only [Subject.judgeEvents, keeping_append, ih]
    split_ifs
    · simp only [keeping_map, omissions]
    · rw [keeping_judgeEvent reference]

/-- Settings with one least length leave the same out; otherwise they differ in one finding. -/
private theorem omissions_withSettings (seen : List Event)
    (short : (∀ minimum actual, keep (.commentTooShort minimum actual) = false) ∨
      settings.minimumLength = s.settings.minimumLength) :
    ((s.withSettings settings).omissions seen).filter keep = (s.omissions seen).filter keep := by
  have tooShort (minimum : Nat) (agree : settings.minimumLength = minimum ∨
      ∀ minimum actual, keep (.commentTooShort minimum actual) = false) (length : Nat) :
      (if length < settings.minimumLength then
        [Violation.commentTooShort settings.minimumLength length] else []).filter keep =
      (if length < minimum then [Violation.commentTooShort minimum length] else []).filter keep := by
    rcases agree with rfl | dropped
    · rfl
    · split_ifs <;> simp [dropped]
  simp only [Subject.omissions, length_withSettings, documents_withSettings, throws_withSettings,
    List.filter_append]
  rw [← tooShort s.settings.minimumLength short.symm]
  rfl

/-- Two settings can differ in the wrong references, where one of them has references checked, and
in the finding that the comment is too short, where their least lengths differ. -/
private theorem keeping_findings (reference : (∀ v, v.isReference → keep v = false) ∨
      settings.checkReferences = s.settings.checkReferences)
    (short : (∀ minimum actual, keep (.commentTooShort minimum actual) = false) ∨
      settings.minimumLength = s.settings.minimumLength) :
    keeping keep (s.withSettings settings).findings = keeping keep s.findings := by
  have comment (text : Text) : keeping keep ((s.withSettings settings).judgeComment text) =
      keeping keep (s.judgeComment text) := by
    simp only [Subject.judgeComment, keeping_append, throws_withSettings,
      judgeInheritance_withSettings]
    exact congrArg _ (keeping_judgeEvents reference (omissions_withSettings · short) _ _ _)
  have written : (s.withSettings settings).declaration.comment = s.declaration.comment := rfl
  have checked : (s.withSettings settings).isChecked = s.isChecked := rfl
  unfold Subject.findings
  rw [written, checked]
  split
  · rfl
  · split_ifs
    · exact comment _
    · rfl

/-- No other setting has any part in the check of a comment. -/
theorem findings_withSettings
    (references : settings.checkReferences = s.settings.checkReferences)
    (length : settings.minimumLength = s.settings.minimumLength) :
    (s.withSettings settings).findings = s.findings := by
  have all (found : List Finding) : keeping (fun _ => true) found = found :=
    List.filter_eq_self.mpr fun f _ => rfl
  rw [← all s.findings, ← keeping_findings (Or.inr references) (Or.inr length), all]

private theorem isReference_of_origin {comment : Text} {v : Violation}
    (off : s.settings.checkReferences = false) (origin : Origin s comment v) :
    v.isReference = false := by
  cases origin with
  | inheritance wrong =>
    rcases cases_of_judgeInheritDoc wrong with ⟨rfl, -, -⟩ | rfl
    · rfl
    · rfl
  | tag _ blames =>
    cases blames with
    | wordless silent =>
      have harmless : ∀ w ∈ wordless, w.isReference = false := by decide
      exact harmless v silent
    | reference checked _ _ => exact absurd checked (Bool.eq_false_iff.mp off)
    | _ => rfl
  | _ => rfl

/-- Where references are not checked, no wrong one is reported. -/
private theorem isReference_of_mem_findings (off : s.settings.checkReferences = false)
    {f : Finding} (found : f ∈ s.findings) : f.violation.isReference = false := by
  obtain ⟨comment, -, origin⟩ := origin_of_mem_findings found
  exact isReference_of_origin off origin

end Reports

section Length

variable {s : Subject}

/-- Whether a comment with these events has to be complete. -/
def Subject.demandsAll (s : Subject) (events : List Event) : Bool :=
  s.isChecked && !s.isOverride && !inherits events

private theorem isTooShort_eq_false {v : Violation} (other : v.isOmission = false) :
    v.isTooShort = false := by
  cases v <;> first | rfl | cases other

private theorem filter_isTooShort_omitted (events : List Event) :
    (s.omitted events).filter Violation.isTooShort =
      if s.countedCharacters events < s.settings.minimumLength then
        [.commentTooShort s.settings.minimumLength (s.countedCharacters events)] else [] := by
  have length : (if s.countedCharacters events < s.settings.minimumLength then
      [Violation.commentTooShort s.settings.minimumLength (s.countedCharacters events)]
      else []).filter Violation.isTooShort = if s.countedCharacters events < s.settings.minimumLength
      then [.commentTooShort s.settings.minimumLength (s.countedCharacters events)] else [] := by
    split_ifs <;> rfl
  have result (c : Prop) [Decidable c] :
      (if c then [Violation.missingReturn] else []).filter Violation.isTooShort = [] := by
    split_ifs <;> rfl
  have parameters (names : List Text) :
      (names.map Violation.undocumentedParameter).filter Violation.isTooShort = [] := by
    simp [List.filter_eq_nil_iff, Violation.isTooShort]
  have exceptions (types : List JavaType) : (types.map fun ty =>
      Violation.undocumentedException ty.canonicalName).filter Violation.isTooShort = [] := by
    simp [List.filter_eq_nil_iff, Violation.isTooShort]
  simp only [Subject.omitted, List.filter_append, length, result, parameters, exceptions,
    List.append_nil]

/-- A comment is reported as too short just where it has to be complete and its characters are
fewer than the least length. -/
private theorem keeping_isTooShort {comment : DocComment}
    (commented : s.declaration.comment = some comment) (doc : IsDocComment comment.text) :
    keeping Violation.isTooShort s.findings =
      if s.demandsAll (Comment.events comment.text) ∧
          s.countedCharacters (Comment.events comment.text) < s.settings.minimumLength then
        [⟨0, .commentTooShort s.settings.minimumLength
          (s.countedCharacters (Comment.events comment.text))⟩]
      else [] := by
  have silent {found : List Finding} (harmless : ∀ f ∈ found, f.violation.isOmission = false) :
      keeping Violation.isTooShort found = [] :=
    List.filter_eq_nil_iff.mpr fun f member => by simp [isTooShort_eq_false (harmless f member)]
  cases checked : s.isChecked with
  | false =>
    have nothing : s.findings = [] := by
      rw [Subject.findings, commented]
      exact if_neg (Bool.eq_false_iff.mp checked)
    rw [nothing, Subject.demandsAll, checked]
    rfl
  | true =>
    have unknown : keeping Violation.isTooShort (s.unknownException?.toList.map fun name =>
        ⟨0, .unresolvedException name⟩) = [] :=
      silent fun f found => by
        obtain ⟨name, -, rfl⟩ := List.mem_map.mp found
        rfl
    have inherited : keeping Violation.isTooShort
        ((Comment.events comment.text).flatMap s.judgeInheritance) = [] :=
      silent fun f found => by
        obtain ⟨e, -, found⟩ := List.mem_flatMap.mp found
        exact isOmission_of_judgeInheritance found
    have judged : keeping Violation.isTooShort
        ((Comment.events comment.text).flatMap s.judgeEvent) = [] :=
      silent fun f found => by
        obtain ⟨e, -, found⟩ := List.mem_flatMap.mp found
        exact isOmission_of_judgeEvent found
    have demanded : s.demandsAll (Comment.events comment.text) =
        (!inherits (Comment.events comment.text) && !s.isOverride) := by
      rw [Subject.demandsAll, checked, Bool.true_and, Bool.and_comm]
    rw [findings_of_isDocComment checked commented doc, keeping_append, keeping_append,
      keeping_append, unknown, inherited, judged, demanded]
    cases !inherits (Comment.events comment.text) && !s.isOverride with
    | false => rfl
    | true => simp [keeping_map, filter_isTooShort_omitted, apply_ite (List.map _)]

end Length

/-- Each setting decides on its own findings only: the check of references on the wrong references,
the least length on whether a comment is too short. -/
theorem findings_by_setting (s : Subject) :
    (∀ settings settings' : Settings,
      keeping (fun v => !v.isTooShort && !v.isReference) (s.withSettings settings).findings =
        keeping (fun v => !v.isTooShort && !v.isReference) (s.withSettings settings').findings) ∧
    (∀ settings : Settings, settings.checkReferences = false →
      ∀ f ∈ (s.withSettings settings).findings, f.violation.isReference = false) ∧
    (∀ settings settings' : Settings, settings.minimumLength = settings'.minimumLength →
      settings'.checkReferences = false →
      keeping (fun v => !v.isReference) (s.withSettings settings).findings =
        (s.withSettings settings').findings) ∧
    ∀ comment, s.declaration.comment = some comment → IsDocComment comment.text →
      ∃ count : Nat,
        (∀ settings : Settings, ((Comment.events comment.text).map
          (s.withSettings settings).length).foldr Nat.add 0 = count) ∧
        (∀ settings : Settings, keeping Violation.isTooShort (s.withSettings settings).findings =
          if s.demandsAll (Comment.events comment.text) ∧ count < settings.minimumLength then
            [⟨0, .commentTooShort settings.minimumLength count⟩] else []) ∧
        ∀ settings settings' : Settings, settings.minimumLength ≤ settings'.minimumLength →
          (∃ f ∈ (s.withSettings settings).findings, f.violation.isTooShort) →
          ∃ f ∈ (s.withSettings settings').findings, f.violation.isTooShort := by
  have offSilent (settings : Settings) (off : settings.checkReferences = false) :
      ∀ f ∈ (s.withSettings settings).findings, f.violation.isReference = false :=
    fun f found => isReference_of_mem_findings (s := s.withSettings settings) off found
  refine ⟨fun settings settings' => ?_, offSilent, fun settings settings' agree off => ?_,
    fun comment commented doc => ?_⟩
  · exact keeping_findings (s := s.withSettings settings')
      (Or.inl fun v reference => by simp [reference]) (Or.inl fun minimum actual => rfl)
  · have same : keeping (fun v => !v.isReference) (s.withSettings settings).findings =
        keeping (fun v => !v.isReference) (s.withSettings settings').findings :=
      keeping_findings (s := s.withSettings settings')
        (Or.inl fun v reference => by simp [reference]) (Or.inr agree)
    have whole : keeping (fun v => !v.isReference) (s.withSettings settings').findings =
        (s.withSettings settings').findings :=
      List.filter_eq_self.mpr fun f found => by simp [offSilent settings' off f found]
    exact same.trans whole
  · have reported (settings : Settings) := keeping_isTooShort (s := s.withSettings settings)
      commented doc
    refine ⟨s.countedCharacters (Comment.events comment.text), fun settings => ?_, reported, ?_⟩
    · rw [length_withSettings, sum_length_eq]
    · rintro settings settings' longer ⟨f, found, short⟩
      have kept : f ∈ keeping Violation.isTooShort (s.withSettings settings).findings :=
        List.mem_filter.mpr ⟨found, short⟩
      rw [reported] at kept
      split_ifs at kept with missed
      · have kept' := reported settings'
        rw [if_pos ⟨missed.1, missed.2.trans_le longer⟩] at kept'
        have member := kept'.symm ▸ List.mem_singleton_self _
        exact ⟨_, (List.mem_filter.mp member).1, (List.mem_filter.mp member).2⟩
      · simp at kept

/-- The same method, with a reference to a type that is not known. -/
def linked : Subject :=
  halfDocumented.withComment ⟨"/** An area, see {@link Circle}.\n@return the area\n*/", 1⟩ false

/-- A comment with 24 characters and a wrong reference, under three settings. -/
theorem findings_linked_by_setting :
    keeping (fun v => !v.isReference) (linked.withSettings { minimumLength := 40 }).findings =
      (linked.withSettings { minimumLength := 40, checkReferences := false }).findings ∧
    keeping Violation.isTooShort (linked.withSettings { minimumLength := 40 }).findings =
      [⟨0, .commentTooShort 40 24⟩] ∧
    ∃ f ∈ (linked.withSettings { minimumLength := 50 }).findings, f.violation.isTooShort := by
  have doc : IsDocComment "/** An area, see {@link Circle}.\n@return the area\n*/" :=
    ⟨by decide +kernel, by decide +kernel, by decide +kernel, by decide +kernel⟩
  obtain ⟨-, -, unchecked, lengths⟩ := findings_by_setting linked
  obtain ⟨count, counted, reported, longer⟩ := lengths _ rfl doc
  have measured : count = 24 := (counted {}).symm.trans (by decide +kernel)
  have demanded : linked.demandsAll
      (Comment.events "/** An area, see {@link Circle}.\n@return the area\n*/") := by decide +kernel
  have short : keeping Violation.isTooShort
      (linked.withSettings { minimumLength := 40 }).findings = [⟨0, .commentTooShort 40 24⟩] := by
    rw [reported, if_pos ⟨demanded, by rw [measured]; decide⟩, measured]
  refine ⟨unchecked _ _ rfl rfl, short, longer { minimumLength := 40 } _ (by decide) ?_⟩
  exact ⟨_, List.mem_filter.mp (short.symm ▸ List.mem_singleton_self _)⟩

end Check

end DocAudit
