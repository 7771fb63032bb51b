import ExampleSchema.Constraint.Kind
import ExampleSchema.Decimal.Parse
import ExampleSchema.Error.Code
import ExampleSchema.Scan.Setting

/-!
# Causes of problems

Everything that can be wrong with a document, a rule, a schema or a value, as data.  `Cause.code`
gives the stable code and `Cause.message` the wording; nothing else in the library words a problem.
-/

namespace ExampleSchema

/-- What the value of a rule has to be. -/
inductive Expected where
  | number
  | nonNegativeInteger
  | positiveInteger
  | boolean
  | booleanOrTypeName
  | string
  | literal
  | typeName
  | singleTypeNotUnion
  | typeNames
  | singleRuleName
  | literalsOrRuleName
  | singleType
  | arrayOfTypes
  deriving Repr, DecidableEq, Inhabited

/-- The expectation in a message. -/
def Expected.text : Expected → String
  | .number => "a number"
  | .nonNegativeInteger => "a non-negative integer"
  | .positiveInteger => "a positive integer"
  | .boolean => "a boolean"
  | .booleanOrTypeName => "a boolean or a type name"
  | .string => "a string"
  | .literal => "a literal"
  | .typeName => "a type name"
  | .singleTypeNotUnion => "a single type; use \"or\" for unions"
  | .typeNames => "a type name or a list of type names"
  | .singleRuleName => "a single rule name"
  | .literalsOrRuleName => "an array of literals or a rule name"
  | .singleType => "a single type"
  | .arrayOfTypes => "an array of types"

/-- What the library promises never to happen. -/
inductive Fault where
  | nothingOpen
  | nothingToResume
  | noEndOfTop
  | unbalancedValue
  | valueWithoutKey
  | containerClosedTwice
  | annotationTargetLost
  | unbalancedRules
  | ruleWithoutName
  | endlessExpansion
  deriving Repr, DecidableEq, Inhabited

/-- The fault in a message. -/
def Fault.text : Fault → String
  | .nothingOpen => "a construct closes that was never opened"
  | .nothingToResume => "a construct ends and nothing goes on"
  | .noEndOfTop => "the document ends without an end of its value"
  | .unbalancedValue => "unbalanced value"
  | .valueWithoutKey => "object value without a key"
  | .containerClosedTwice => "container closed twice"
  | .annotationTargetLost => "annotation target vanished"
  | .unbalancedRules => "unbalanced rules"
  | .ruleWithoutName => "rule value without a name"
  | .endlessExpansion => "the expansion of allOf does not end"

/-- What is wrong. -/
inductive Cause where
  -- reading bytes
  | unexpectedByte (byte : UInt8) (setting : Setting) (hint : Hint)
  | unexpectedEnd (setting : Setting)
  | emptySchema
  | noSchema
  | noValue
  | exponentNotAllowed
  | notADecimal (refusal : Decimal.Refusal) (text : String)
  | notAString (text : String)
  | nestedTooDeep (limit : Nat)
  | validatedTooDeep (limit : Nat)
  -- building a constraint
  | literalUnfit (rule : String) (expected : Expected)
  | boundNotADecimal (rule : String) (refusal : Decimal.Refusal) (text : String)
  | notALiteral (text : String)
  | zeroPrecision
  | badPattern (pattern : String)
  | badAllOfName (name : String)
  | duplicateEnumValue (text : String)
  -- loading a schema
  | unknownRule (name : String)
  | ruleUnfit (rule : String) (expected : Expected)
  | rulesNotAnObject
  | emptyUnion (rule : String)
  | unionMemberUnfit (rule : String)
  | enumRuleNotLiterals
  | duplicateRule (name : String)
  | duplicateKey (key : String)
  | keyShortcutInRules
  | annotationWithoutValue
  | annotatedTwice
  | unknownType (name : String)
  | badTypeName (name : String)
  | badRuleName (name : String)
  | unionMemberWithoutType
  | rulesInEnumRule
  -- checking a schema
  | incompatibleRule (rule : ConstraintKind) (label : TypeLabel)
  | typeNotFound (name : String)
  | keyShortcutNotString (key : String) (types : List JsonType)
  | endlessType (path : List String)
  | endlessAllOf (path : List String)
  | typeOfItself (name : String)
  | userTypeMismatch (given : JsonType) (expected : List JsonType) (names : List String)
  | sampleItemsBelow (count limit : Nat)
  | sampleItemsAbove (count limit : Nat)
  | itemBoundsOrder (min max : Nat)
  | allOfNotObject (name : String)
  | allOfDuplicateKey (key : String)
  | ruleNotFound (name : String)
  | badSample (sample : String) (cause : Cause)
  | boundsOrder (min max : Decimal)
  | lengthBoundsOrder (min max : Nat)
  | exclusiveWithoutBound (flag bound : ConstraintKind)
  | ruleBesideReference (rule : ConstraintKind)
  | childrenBesideReference (names : List String)
  -- validating a value
  | belowMin (value bound : Decimal) (exclusive : Bool)
  | aboveMax (value bound : Decimal) (exclusive : Bool)
  | tooShort (length limit : Nat)
  | tooLong (length limit : Nat)
  | patternMismatch (text pattern : String)
  | notInEnum (value : String)
  | notTheConstant (value constant : String)
  | tooPrecise (value : Decimal) (limit : Nat)
  | badFormat (text : String) (format : Format)
  | stringExpected (text : String)
  | numberExpected (text : String)
  | typeMismatch (expected : TypeLabel) (given : JsonType)
  | propertyNotFound (key : String)
  | requiredKeyMissing (key : String)
  | additionalProperty (key : String)
  | tooFewItems (count limit : Nat)
  | tooManyItems (count limit : Nat)
  | noMatchingType (names : List String)
  | noMatchingItem
  | rootNotAnObject
  -- misusing a session
  | alreadyCompiled
  | typeExists (name : String)
  | ruleExists (name : String)
  -- broken promises
  | fault (kind : Fault)
  deriving DecidableEq, Inhabited

namespace Cause

/-- The code of a wrong format. -/
def formatCode : Format → ErrorCode
  | .email => .invalidEmail
  | .uri => .invalidUri
  | .uuid => .invalidUuid
  | .date => .invalidDate
  | .dateTime => .invalidDateTime

/-- The code of the cause. -/
def code : Cause → ErrorCode
  | unexpectedByte .. => .invalidCharacter
  | unexpectedEnd _ => .unexpectedEof
  | emptySchema | noSchema | noValue => .emptySchema
  | exponentNotAllowed => .exponentNotAllowed
  | notADecimal .. => .invalidNumber
  | notAString _ => .invalidString
  | nestedTooDeep _ | validatedTooDeep _ => .nestingTooDeep
  | literalUnfit .. | boundNotADecimal .. | notALiteral _ => .invalidConstraintValue
  | zeroPrecision => .zeroPrecision
  | badPattern _ => .invalidRegex
  | badAllOfName _ => .invalidAllOfSchemaName
  | duplicateEnumValue _ => .duplicateEnumValue
  | unknownRule _ => .unknownRule
  | ruleUnfit .. | rulesNotAnObject | emptyUnion _ | unionMemberUnfit _ | enumRuleNotLiterals =>
    .invalidRuleValue
  | duplicateRule _ => .duplicateRule
  | duplicateKey _ => .duplicateKey
  | keyShortcutInRules => .keyShortcutNotAllowed
  | annotationWithoutValue => .annotationWithoutValue
  | annotatedTwice => .annotatedTwice
  | unknownType _ => .unknownType
  | badTypeName _ | badRuleName _ => .invalidTypeName
  | unionMemberWithoutType => .orItemWithoutType
  | rulesInEnumRule => .rulesNotAllowed
  | incompatibleRule .. => .unexpectedConstraint
  | typeNotFound _ => .typeNotFound
  | keyShortcutNotString .. => .keyShortcutNotString
  | endlessType _ | endlessAllOf _ => .infiniteRecursion
  | typeOfItself _ => .recursionInJsonType
  | userTypeMismatch .. => .incorrectUserType
  | sampleItemsBelow .. | sampleItemsAbove .. => .arrayItemsCount
  | itemBoundsOrder .. => .minItemsGreaterThanMaxItems
  | allOfNotObject _ => .allOfNotObject
  | allOfDuplicateKey _ => .allOfDuplicateKey
  | ruleNotFound _ => .ruleNotFound
  | badSample .. => .invalidExample
  | boundsOrder .. | lengthBoundsOrder .. => .boundsOrder
  | exclusiveWithoutBound .. => .exclusiveWithoutBound
  | ruleBesideReference _ => .rulesWithTypeReference
  | childrenBesideReference _ => .childrenWithTypeReference
  | belowMin .. => .valueTooSmall
  | aboveMax .. => .valueTooLarge
  | tooShort .. => .stringTooShort
  | tooLong .. => .stringTooLong
  | patternMismatch .. => .regexMismatch
  | notInEnum _ => .notInEnum
  | notTheConstant .. => .constMismatch
  | tooPrecise .. => .precisionExceeded
  | badFormat _ format => formatCode format
  | stringExpected _ | numberExpected _ | typeMismatch .. => .typeMismatch
  | propertyNotFound _ => .propertyNotFound
  | requiredKeyMissing _ => .requiredKeyMissing
  | additionalProperty _ => .additionalPropertyNotAllowed
  | tooFewItems .. => .tooFewItems
  | tooManyItems .. => .tooManyItems
  | noMatchingType _ | noMatchingItem => .noMatchingType
  | rootNotAnObject => .notAnObject
  | alreadyCompiled => .schemaAlreadyCompiled
  | typeExists _ => .typeAlreadyExists
  | ruleExists _ => .ruleAlreadyExists
  | fault _ => .internal

/-! ## Wording -/

/-- A word between plain double quotes. -/
def inQuotes (word : String) : String := "\"" ++ word ++ "\""

/-- Names joined by a separator. -/
def joined (separator : String) (names : List String) : String :=
  separator.intercalate names

/-- The names of some types, as alternatives. -/
def alternatives (types : List JsonType) : String := joined " | " (types.map JsonType.name)

/-- Why a text is not a decimal. -/
def refusalMessage (text : String) : Decimal.Refusal → String
  | .malformed => "invalid number " ++ Escaped.encode text
  | .exponentOutOfRange => "exponent out of range in " ++ Escaped.encode text

/-- The wording of a cause. -/
def message : Cause → String
  | unexpectedByte byte setting hint =>
    s!"invalid character {Escaped.byte byte} {setting.detail} ({hint.text})"
  | unexpectedEnd setting => s!"unexpected end of file {setting.text}"
  | emptySchema => "empty schema"
  | noSchema => "the schema is empty"
  | noValue => "the value is empty"
  | exponentNotAllowed => "an exponent is only allowed with the type \"float\" or \"decimal\""
  | notADecimal refusal text => refusalMessage text refusal
  | notAString text => s!"invalid string literal {text}"
  | nestedTooDeep limit => s!"objects and arrays are nested deeper than {limit} levels"
  | validatedTooDeep limit => s!"validation went deeper than {limit} levels"
  | literalUnfit rule expected | ruleUnfit rule expected =>
    s!"the value of the rule {inQuotes rule} must be {expected.text}"
  | boundNotADecimal rule refusal text =>
    s!"invalid value of the rule {inQuotes rule}: {refusalMessage text refusal}"
  | notALiteral text => s!"a literal expected, got {text}"
  | zeroPrecision => "precision must be greater than zero"
  | badPattern pattern => s!"invalid regex {Escaped.encode pattern}"
  | badAllOfName name => s!"invalid schema name {inQuotes name} in the rule \"allOf\""
  | duplicateEnumValue text => s!"value duplicates in enum: {text}"
  | unknownRule name => s!"unknown rule {inQuotes name}"
  | rulesNotAnObject => "rules must be an object"
  | emptyUnion rule => s!"the rule {inQuotes rule} lists no types"
  | unionMemberUnfit rule =>
    s!"an item of the rule {inQuotes rule} must be a type name or a rule object"
  | enumRuleNotLiterals => "an enum rule must be an array of literals"
  | duplicateRule name => s!"duplicate rule {inQuotes name}"
  | duplicateKey key => s!"duplicate key {inQuotes key}"
  | keyShortcutInRules => "key shortcuts are not allowed in rules"
  | annotationWithoutValue => "the annotation does not follow a value"
  | annotatedTwice => "the value already has an annotation"
  | unknownType name => s!"unknown type {inQuotes name}"
  | badTypeName name => s!"invalid type name {inQuotes name}"
  | badRuleName name => s!"invalid rule name {inQuotes name}"
  | unionMemberWithoutType => "an item of \"or\" must have a \"type\" rule"
  | rulesInEnumRule => "rules are not allowed in an enum rule"
  | incompatibleRule rule label =>
    s!"the rule {inQuotes rule.name} is not compatible with the type {inQuotes label.name}"
  | typeNotFound name => s!"type {inQuotes name} not found"
  | keyShortcutNotString key types =>
    s!"key shortcut {key} should be string but {alternatives types} given"
  | endlessType path => "infinite recursion: " ++ joined " -> " path
  | endlessAllOf path => "allOf recursion: " ++ joined " -> " path
  | typeOfItself name =>
    s!"impossible to determine the JSON type of {inQuotes name} due to recursion"
  | userTypeMismatch given expected names =>
    s!"incorrect type of user type: {given.name} given, {alternatives expected} expected by "
      ++ joined " | " names
  | sampleItemsBelow count limit => s!"the example has {count} items, minItems is {limit}"
  | sampleItemsAbove count limit => s!"the example has {count} items, maxItems is {limit}"
  | itemBoundsOrder min max => s!"minItems {min} is greater than maxItems {max}"
  | allOfNotObject name => s!"the type {inQuotes name} in allOf is not an object"
  | allOfDuplicateKey key => s!"duplicate key {inQuotes key} in allOf"
  | ruleNotFound name => s!"rule {inQuotes name} not found"
  | badSample sample cause => s!"invalid example {sample}: {cause.message}"
  | boundsOrder min max => s!"min {min.text} is greater than max {max.text}"
  | lengthBoundsOrder min max => s!"minLength {min} is greater than maxLength {max}"
  | exclusiveWithoutBound flag bound =>
    s!"the rule {inQuotes flag.name} requires the rule {inQuotes bound.name}"
  | ruleBesideReference rule =>
    s!"the rule {inQuotes rule.name} cannot be used together with a type reference"
  | childrenBesideReference names =>
    "a value typed as " ++ joined " | " names ++ " must not have child nodes"
  | belowMin value bound exclusive =>
    let relation := if exclusive then "greater than" else "greater than or equal to"
    s!"value {value.text} must be {relation} {bound.text}"
  | aboveMax value bound exclusive =>
    let relation := if exclusive then "less than" else "less than or equal to"
    s!"value {value.text} must be {relation} {bound.text}"
  | tooShort length limit => s!"string length {length} is less than minLength {limit}"
  | tooLong length limit => s!"string length {length} is greater than maxLength {limit}"
  | patternMismatch text pattern =>
    s!"string {Escaped.encode text} does not match the regex {Escaped.encode pattern}"
  | notInEnum value => s!"value {value} is not one of the enum values"
  | notTheConstant value constant => s!"value {value} does not equal the constant {constant}"
  | tooPrecise value limit => s!"value {value.text} has more than {limit} fractional digits"
  | badFormat text format => s!"{Escaped.encode text} is not a valid {format.name}"
  | stringExpected text => s!"string expected, got {text}"
  | numberExpected text => s!"number expected, got {text}"
  | typeMismatch expected given => s!"{expected.name} expected, got {given.name}"
  | propertyNotFound key => s!"property {inQuotes key} not found"
  | requiredKeyMissing key => s!"required key {inQuotes key} is missing"
  | additionalProperty key => s!"property {inQuotes key} is not allowed"
  | tooFewItems count limit => s!"{count} items given, at least {limit} expected"
  | tooManyItems count limit => s!"{count} items given, at most {limit} expected"
  | noMatchingType names => "the value does not match any of " ++ joined ", " names
  | noMatchingItem => "the item matches none of the example items"
  | rootNotAnObject => "the schema root is not an object"
  | alreadyCompiled => "the schema is already compiled"
  | typeExists name => s!"type {inQuotes name} already exists"
  | ruleExists name => s!"rule {inQuotes name} already exists"
  | fault kind => kind.text

end Cause
end ExampleSchema
