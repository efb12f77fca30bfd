/-!
# Kinds of bindings

A binding connects a function to something outside: what triggers it, what it reads besides, and
where its result goes.
-/

namespace FunctionApp

/-- What a binding connects a function to. -/
inductive BindingKind where
  | http
  | httpOutput
  | queueTrigger
  | queueOutput
  | blobTrigger
  | blobInput
  | blobOutput
  | timerTrigger
  | documentTrigger
  | documentInput
  | documentOutput
  | smsOutput
  /-- A value that the trigger reports, which needs no descriptor. -/
  | metadata
deriving DecidableEq, Repr

namespace BindingKind

/-- The type that the host knows a binding by. -/
def typeName : BindingKind → String
  | .http => "httpTrigger"
  | .httpOutput => "http"
  | .queueTrigger => "queueTrigger"
  | .queueOutput => "queue"
  | .blobTrigger => "blobTrigger"
  | .blobInput | .blobOutput => "blob"
  | .timerTrigger => "timerTrigger"
  | .documentTrigger => "cosmosDBTrigger"
  | .documentInput | .documentOutput => "cosmosDB"
  | .smsOutput => "twilioSms"
  | .metadata => "metadata"

def name : BindingKind → String
  | .http => "http"
  | .httpOutput => "http-output"
  | .queueTrigger => "queue-trigger"
  | .queueOutput => "queue-output"
  | .blobTrigger => "blob-trigger"
  | .blobInput => "blob-input"
  | .blobOutput => "blob-output"
  | .timerTrigger => "timer-trigger"
  | .documentTrigger => "document-trigger"
  | .documentInput => "document-input"
  | .documentOutput => "document-output"
  | .smsOutput => "sms-output"
  | .metadata => "metadata"

def all : List BindingKind :=
  [.http, .httpOutput, .queueTrigger, .queueOutput, .blobTrigger, .blobInput, .blobOutput,
    .timerTrigger, .documentTrigger, .documentInput, .documentOutput, .smsOutput, .metadata]

def ofName? (name : String) : Option BindingKind := all.find? fun k => k.name == name

theorem ofName?_name (k : BindingKind) : ofName? k.name = some k := by cases k <;> decide

/-- Whether a binding starts the function. -/
def isTrigger : BindingKind → Bool
  | .http | .queueTrigger | .blobTrigger | .timerTrigger | .documentTrigger => true
  | _ => false

def isEmitted (k : BindingKind) : Bool := k != .metadata

end BindingKind

/-- Whether data flows into the function or out of it. -/
inductive Direction where
  | in_
  | out
deriving DecidableEq, Repr

def Direction.word : Direction → String
  | .in_ => "in"
  | .out => "out"

end FunctionApp
