/-!
# Error codes

Every problem has a code with a stable number.  The hundreds tell the layer that raises it: 1 reading
bytes, 2 building a constraint, 3 loading a schema, 4 checking it, 5 validating a value, 6 misuse of
a session, 9 a broken promise of the library itself.
-/

namespace ExampleSchema

/-- The code of a problem. -/
inductive ErrorCode where
  | invalidCharacter
  | unexpectedEof
  | emptySchema
  | exponentNotAllowed
  | invalidNumber
  | invalidString
  | nestingTooDeep
  | invalidConstraintValue
  | zeroPrecision
  | invalidRegex
  | invalidAllOfSchemaName
  | duplicateEnumValue
  | unknownRule
  | invalidRuleValue
  | duplicateRule
  | duplicateKey
  | keyShortcutNotAllowed
  | annotationWithoutValue
  | annotatedTwice
  | unknownType
  | invalidTypeName
  | orItemWithoutType
  | rulesNotAllowed
  | unexpectedConstraint
  | typeNotFound
  | keyShortcutNotString
  | infiniteRecursion
  | recursionInJsonType
  | incorrectUserType
  | arrayItemsCount
  | minItemsGreaterThanMaxItems
  | allOfNotObject
  | allOfDuplicateKey
  | ruleNotFound
  | invalidExample
  | boundsOrder
  | exclusiveWithoutBound
  | rulesWithTypeReference
  | childrenWithTypeReference
  | valueTooSmall
  | valueTooLarge
  | stringTooShort
  | stringTooLong
  | regexMismatch
  | notInEnum
  | constMismatch
  | precisionExceeded
  | invalidEmail
  | invalidUri
  | invalidUuid
  | invalidDate
  | invalidDateTime
  | typeMismatch
  | propertyNotFound
  | requiredKeyMissing
  | additionalPropertyNotAllowed
  | tooFewItems
  | tooManyItems
  | noMatchingType
  | notAnObject
  | schemaAlreadyCompiled
  | typeAlreadyExists
  | ruleAlreadyExists
  | internal
  deriving Repr, DecidableEq, Inhabited

namespace ErrorCode

/-- The number of the code. -/
def number : ErrorCode → Nat
  | .invalidCharacter => 101
  | .unexpectedEof => 102
  | .emptySchema => 103
  | .exponentNotAllowed => 104
  | .invalidNumber => 105
  | .invalidString => 106
  | .nestingTooDeep => 107
  | .invalidConstraintValue => 201
  | .zeroPrecision => 202
  | .invalidRegex => 203
  | .invalidAllOfSchemaName => 204
  | .duplicateEnumValue => 205
  | .unknownRule => 301
  | .invalidRuleValue => 302
  | .duplicateRule => 303
  | .duplicateKey => 304
  | .keyShortcutNotAllowed => 305
  | .annotationWithoutValue => 306
  | .annotatedTwice => 307
  | .unknownType => 308
  | .invalidTypeName => 309
  | .orItemWithoutType => 310
  | .rulesNotAllowed => 311
  | .unexpectedConstraint => 401
  | .typeNotFound => 402
  | .keyShortcutNotString => 403
  | .infiniteRecursion => 404
  | .recursionInJsonType => 405
  | .incorrectUserType => 406
  | .arrayItemsCount => 407
  | .minItemsGreaterThanMaxItems => 408
  | .allOfNotObject => 409
  | .allOfDuplicateKey => 410
  | .ruleNotFound => 411
  | .invalidExample => 412
  | .boundsOrder => 413
  | .exclusiveWithoutBound => 414
  | .rulesWithTypeReference => 415
  | .childrenWithTypeReference => 416
  | .valueTooSmall => 501
  | .valueTooLarge => 502
  | .stringTooShort => 503
  | .stringTooLong => 504
  | .regexMismatch => 505
  | .notInEnum => 506
  | .constMismatch => 507
  | .precisionExceeded => 508
  | .invalidEmail => 509
  | .invalidUri => 510
  | .invalidUuid => 511
  | .invalidDate => 512
  | .invalidDateTime => 513
  | .typeMismatch => 514
  | .propertyNotFound => 515
  | .requiredKeyMissing => 516
  | .additionalPropertyNotAllowed => 517
  | .tooFewItems => 518
  | .tooManyItems => 519
  | .noMatchingType => 520
  | .notAnObject => 521
  | .schemaAlreadyCompiled => 601
  | .typeAlreadyExists => 602
  | .ruleAlreadyExists => 603
  | .internal => 901

/-- The layer that raises the code. -/
def layer (code : ErrorCode) : Nat := code.number / 100

end ErrorCode
end ExampleSchema
