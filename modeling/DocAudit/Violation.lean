import DocAudit.Text

/-!
What can be wrong with a documentation comment, by category, and how it is said.
-/

set_option autoImplicit false

namespace DocAudit

/-- The categories of violation. -/
inductive ViolationKind where
  | malformedTag
  | illegalContext
  | unresolvedType
  | undocumented
  | staleDocumentation
  | commentTooShort
  | missingOverride
deriving DecidableEq

namespace ViolationKind

/-- The name of a category in reports. -/
def name : ViolationKind → Text
  | malformedTag => "malformed_tag"
  | illegalContext => "illegal_context"
  | unresolvedType => "unresolved_type"
  | undocumented => "undocumented"
  | staleDocumentation => "stale_documentation"
  | commentTooShort => "comment_too_short"
  | missingOverride => "missing_override"

end ViolationKind

/-- A violation of the rules for documentation comments. -/
inductive Violation where
  | malformedAuthor
  | malformedDeprecated
  | malformedReference (tag : Text)
  | malformedParam (text : Text)
  | malformedReturn
  | malformedSince
  | malformedThrows (tag : Text)
  | malformedValue
  | malformedVersion
  | malformedOverload (tag : Text)
  | illegalAuthor
  | inheritDocOnNonOverride
  | inheritDocWithoutSupertype
  | illegalParam (text : Text)
  | illegalReturn
  | returnOnVoidMethod
  | illegalThrows (tag : Text)
  | illegalVersion
  | unresolvedException (name : Text)
  | unresolvedReferencedType (name : Text)
  | unresolvedSpecifiedType (name : Text)
  | unresolvedArgumentType (name : Text)
  | memberNotFound (tag reference type : Text)
  | constructorNotFound (signature type : Text)
  | methodNotFound (signature type : Text)
  | undocumentedParameter (name : Text)
  | undocumentedException (name : Text)
  | missingReturn
  | unknownParameter (name : Text)
  | exceptionNotThrown (name : Text)
  | commentTooShort (minimum actual : Nat)
  | missingOverride (name : Text)
deriving DecidableEq

namespace Violation

/-- The category of a violation. -/
def kind : Violation → ViolationKind
  | malformedAuthor | malformedDeprecated | malformedReference _ | malformedParam _
  | malformedReturn | malformedSince | malformedThrows _ | malformedValue | malformedVersion
  | malformedOverload _ => .malformedTag
  | illegalAuthor | inheritDocOnNonOverride | inheritDocWithoutSupertype | illegalParam _
  | illegalReturn | returnOnVoidMethod | illegalThrows _ | illegalVersion => .illegalContext
  | unresolvedException _ | unresolvedReferencedType _ | unresolvedSpecifiedType _
  | unresolvedArgumentType _ | memberNotFound _ _ _ | constructorNotFound _ _
  | methodNotFound _ _ => .unresolvedType
  | undocumentedParameter _ | undocumentedException _ | missingReturn => .undocumented
  | unknownParameter _ | exceptionNotThrown _ => .staleDocumentation
  | commentTooShort _ _ => .commentTooShort
  | missingOverride _ => .missingOverride

/-- A violation in words. -/
def message : Violation → Text
  | malformedAuthor => "Malformed @author tag, must have an author name."
  | malformedDeprecated => "Malformed @deprecated tag, must have a description"
  | malformedReference tag =>
    "Malformed @" ++ tag ++ " tag, must at least specify the linked type."
  | malformedParam text =>
    "Malformed @param tag '" ++ text ++ "', needs to have parameter name and description"
  | malformedReturn => "Malformed @return tag, needs to have a description"
  | malformedSince => "Malformed @since tag, must have text."
  | malformedThrows tag =>
    "Malformed @" ++ tag ++ " tag, must at least specify the exception class"
  | malformedValue => "Malformed @value tag, must have a JavaDoc reference."
  | malformedVersion => "Malformed @version tag, must have a version specification."
  | malformedOverload tag =>
    "Malformed overload specification in @" ++ tag ++ " tag, missing ')'"
  | illegalAuthor =>
    "Illegal @author tag, may only be specified on classes, interfaces and enums"
  | inheritDocOnNonOverride => "@inheritDoc may not be specified on non-override methods"
  | inheritDocWithoutSupertype =>
    "@inheritDoc may not be specified on classes without a super class or a class implementing" ++
      " interfaces"
  | illegalParam text =>
    "Illegal @param tag '" ++ text ++
      "', may only be specified on methods and constructors or generic types"
  | illegalReturn => "Illegal @return tag, may only be specified on methods"
  | returnOnVoidMethod => "Illegal @return tag, may not be specified on void methods"
  | illegalThrows tag =>
    "Illegal @" ++ tag ++ " tag, may only be specified on methods and constructors"
  | illegalVersion =>
    "Illegal @version tag, may only be specified on classes, interfaces and enums"
  | unresolvedException name => "Exception '" ++ name ++ "' could not be resolved"
  | unresolvedReferencedType name => "Referenced type '" ++ name ++ "' could not be resolved"
  | unresolvedSpecifiedType name => "Specified type '" ++ name ++ "' not found"
  | unresolvedArgumentType name => "Could not resolve argument type '" ++ name ++ "'"
  | memberNotFound tag reference type =>
    "Method or field of tag @" ++ tag ++ " '" ++ reference ++ "' not present in type '" ++ type ++
      "'"
  | constructorNotFound signature type =>
    "Overloaded constructor '" ++ signature ++ "' not found in type '" ++ type ++ "'"
  | methodNotFound signature type =>
    "Overloaded method '" ++ signature ++ "' not found in type '" ++ type ++ "'"
  | undocumentedParameter name => "Parameter '" ++ name ++ "' is undocumented"
  | undocumentedException name => "Exception '" ++ name ++ "' is undocumented"
  | missingReturn => "Methods returning anything other than void must have a @return tag"
  | unknownParameter name =>
    "Parameter '" ++ name ++
      "' specified in JavaDoc is not a parameter or generic type of the documented item"
  | exceptionNotThrown name =>
    "Exception '" ++ name ++ "' specified in JavaDoc is not thrown by the documented method"
  | commentTooShort minimum actual =>
    "Comment is too short: need " ++ Text.ofNat minimum ++ " actual text characters, got " ++
      Text.ofNat actual
  | missingOverride name =>
    "Method '" ++ name ++ "' overrides a supertype method but is missing @Override"

end Violation

end DocAudit
