import FunctionApp.Text.Replace

/-!
# Problems

Everything that a build can find fault with. Each problem has a fixed code, whose first digit is its
category, and a template of words that its arguments are put into.
-/

namespace FunctionApp

/-- What a build finds fault with. -/
inductive Problem where
  /-- A service on a listener type that no handler serves. -/
  | unsupportedListener (listener : String)
  /-- An annotation of the functions module that means nothing. -/
  | unsupportedBinding (name : String)
  | missingTrigger (service expected : String)
  /-- A trigger annotation for another listener. -/
  | mismatchedTrigger (name listener : String)
  | misplaced (name target : String)
  /-- A handler parameter that need not be given exactly once. -/
  | paramShape (param kind : String)
  | invalidValue (name field value expected : String)
  | missingField (name field : String)
  | pathParamType (param type : String)
  | queryParamType (param type : String)
  | headerParamType (param type : String)
  | openHeaderRecord (param record : String)
  | payloadParamType (param type : String)
  | mixedUnion (param type : String)
  | irreducibleIntersection (param type : String)
  | ambiguousPayload (first second : String)
  | conflicting (param first second : String)
  | bindingParamType (binding param type : String)
  | returnType (binding type : String)
  /-- A result that no binding takes. -/
  | missingOutput (function type : String)
  | duplicateFunction (name : String)
  | duplicateBinding (function name : String)
  | duplicatePathParam (route token : String)
  | functionName (name : String)
  | noFunctions
  | unsupportedTarget (target : String)
  /-- An error that the compiler of the program has found. -/
  | compilation (message : String)
deriving DecidableEq, Repr

/-- What a problem is about: which handlers there are, whether they are right, or the settings of
the build. -/
inductive Category where
  | classification
  | validation
  | configuration
deriving DecidableEq, Repr

inductive Severity where
  | warning
  | error
deriving DecidableEq, Repr

def Severity.word : Severity → String
  | .warning => "warning"
  | .error => "error"

namespace Problem

def code : Problem → String
  | .compilation .. => "FNF001"
  | .unsupportedListener .. => "FNF101"
  | .unsupportedBinding .. => "FNF102"
  | .missingTrigger .. => "FNF103"
  | .mismatchedTrigger .. => "FNF104"
  | .paramShape .. => "FNF105"
  | .invalidValue .. => "FNF106"
  | .missingField .. => "FNF107"
  | .misplaced .. => "FNF108"
  | .pathParamType .. => "FNF201"
  | .queryParamType .. => "FNF202"
  | .headerParamType .. => "FNF203"
  | .openHeaderRecord .. => "FNF204"
  | .payloadParamType .. => "FNF205"
  | .mixedUnion .. => "FNF206"
  | .irreducibleIntersection .. => "FNF207"
  | .ambiguousPayload .. => "FNF208"
  | .conflicting .. => "FNF209"
  | .bindingParamType .. => "FNF210"
  | .returnType .. => "FNF211"
  | .missingOutput .. => "FNF212"
  | .duplicateFunction .. => "FNF213"
  | .duplicateBinding .. => "FNF214"
  | .duplicatePathParam .. => "FNF215"
  | .functionName .. => "FNF216"
  | .noFunctions => "FNF217"
  | .unsupportedTarget .. => "FNF301"

def category : Problem → Category
  | .unsupportedListener .. | .unsupportedBinding .. | .missingTrigger .. | .mismatchedTrigger ..
  | .paramShape .. | .invalidValue .. | .missingField .. | .misplaced .. => .classification
  | .unsupportedTarget .. => .configuration
  | _ => .validation

/-- The severity of a problem: only an app without functions is a warning. -/
def severity : Problem → Severity
  | .noFunctions => .warning
  | _ => .error

/-- The words of a problem, with a numbered placeholder for each argument. -/
def template : Problem → String
  | .unsupportedListener .. => "unsupported listener type '\x7b0\x7d'"
  | .unsupportedBinding .. => "unsupported binding annotation '\x7b0\x7d'"
  | .missingTrigger .. => "service '\x7b0\x7d' is missing the '\x7b1\x7d' annotation"
  | .mismatchedTrigger .. =>
    "annotation '\x7b0\x7d' cannot be used on a service attached to '\x7b1\x7d'"
  | .misplaced .. => "annotation '\x7b0\x7d' is not allowed on \x7b1\x7d"
  | .paramShape .. =>
    "handler parameter '\x7b0\x7d' must be a required parameter, found \x7b1\x7d parameter"
  | .invalidValue .. =>
    "invalid value '\x7b2\x7d' for field '\x7b1\x7d' of '\x7b0\x7d': expected \x7b3\x7d"
  | .missingField .. => "annotation '\x7b0\x7d' requires field '\x7b1\x7d'"
  | .pathParamType .. => "invalid path parameter type '\x7b1\x7d' for '\x7b0\x7d'"
  | .queryParamType .. => "invalid query parameter type '\x7b1\x7d' for '\x7b0\x7d'"
  | .headerParamType .. => "invalid header parameter type '\x7b1\x7d' for '\x7b0\x7d'"
  | .openHeaderRecord .. =>
    "header record '\x7b1\x7d' of parameter '\x7b0\x7d' must not declare rest fields"
  | .payloadParamType .. => "invalid payload parameter type '\x7b1\x7d' for '\x7b0\x7d'"
  | .mixedUnion .. =>
    "payload union type '\x7b1\x7d' of '\x7b0\x7d' mixes structured and non-structured members"
  | .irreducibleIntersection .. =>
    "intersection type '\x7b1\x7d' of '\x7b0\x7d' does not reduce to a single type"
  | .ambiguousPayload .. =>
    "ambiguous payload parameter: both '\x7b0\x7d' and '\x7b1\x7d' can be the request body"
  | .conflicting .. => "'\x7b0\x7d' has conflicting annotations '\x7b1\x7d' and '\x7b2\x7d'"
  | .bindingParamType .. => "invalid type '\x7b2\x7d' for \x7b0\x7d parameter '\x7b1\x7d'"
  | .returnType .. => "invalid return type '\x7b1\x7d' for \x7b0\x7d output"
  | .missingOutput .. =>
    "function '\x7b0\x7d' returns '\x7b1\x7d' but declares no output binding"
  | .duplicateFunction .. => "duplicate function name '\x7b0\x7d'"
  | .duplicateBinding .. =>
    "function '\x7b0\x7d' declares binding name '\x7b1\x7d' more than once"
  | .duplicatePathParam .. =>
    "route '\x7b0\x7d' contains placeholder '\x7b1\x7d' more than once"
  | .functionName .. =>
    "function name '\x7b0\x7d' must start with a letter and contain only letters, digits, " ++
      "'_' or '-' (at most 128 characters)"
  | .noFunctions => "no functions found to deploy"
  | .unsupportedTarget .. => "unsupported deployment target '\x7b0\x7d'"
  | .compilation .. => "\x7b0\x7d"

def arguments : Problem → List String
  | .noFunctions => []
  | .unsupportedListener a | .unsupportedBinding a | .duplicateFunction a | .functionName a
  | .unsupportedTarget a | .compilation a => [a]
  | .missingTrigger a b | .mismatchedTrigger a b | .misplaced a b | .paramShape a b
  | .missingField a b | .pathParamType a b | .queryParamType a b | .headerParamType a b
  | .openHeaderRecord a b | .payloadParamType a b | .mixedUnion a b
  | .irreducibleIntersection a b | .ambiguousPayload a b | .returnType a b | .missingOutput a b
  | .duplicateBinding a b | .duplicatePathParam a b => [a, b]
  | .conflicting a b c | .bindingParamType a b c => [a, b, c]
  | .invalidValue a b c d => [a, b, c, d]

def placeholder (n : Nat) : String := "\x7b" ++ toString n ++ "\x7d"

/-- A template with its arguments put in, one after the other from the `n`-th on: a placeholder that
an argument brings in is filled by a later one. -/
def fill (n : Nat) (template : String) : List String → String
  | [] => template
  | argument :: rest => fill (n + 1) (Text.replace (placeholder n) argument template) rest

attribute [grind =] fill

/-- A problem in words. -/
def message (problem : Problem) : String := fill 0 problem.template problem.arguments

end Problem

end FunctionApp
