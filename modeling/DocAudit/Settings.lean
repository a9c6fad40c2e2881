import DocAudit.Text

/-!
The settings of a check, and partial settings that change some of them.
-/

set_option autoImplicit false

namespace DocAudit

/-- What a check demands. -/
structure Settings where
  /-- The least number of characters of a comment, white space and comment marks apart. -/
  minimumLength : Nat := 10
  /-- Whether references to types and members have to be right. -/
  checkReferences : Bool := true
  /-- Whether an overriding method needs an annotation that says so. -/
  requireOverride : Bool := false
deriving DecidableEq

/-- Values for some of the settings. -/
structure SettingsPatch where
  minimumLength : Option Nat := none
  checkReferences : Option Bool := none
  requireOverride : Option Bool := none
deriving DecidableEq

/-- The settings with the values of a patch where it has them. -/
def Settings.patched (s : Settings) (p : SettingsPatch) : Settings where
  minimumLength := p.minimumLength.getD s.minimumLength
  checkReferences := p.checkReferences.getD s.checkReferences
  requireOverride := p.requireOverride.getD s.requireOverride

end DocAudit
