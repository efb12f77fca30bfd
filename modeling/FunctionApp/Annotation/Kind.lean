import FunctionApp.Listener
import FunctionApp.Program.Names

/-!
# What annotations mean

An annotation of the functions module or the HTTP module configures a trigger, gives a parameter a
role, or sends a result to an output. Its qualified name says which (`AnnotationMeaning.of`).
-/

namespace FunctionApp

/-- Where the result of a handler goes. -/
inductive Output where
  | http
  | queue
  | cosmos
  | blob
  | sms
deriving DecidableEq, Repr

/-- Where the argument of a handler parameter comes from. -/
inductive Role where
  /-- A placeholder of the route. -/
  | path
  | query
  | header
  /-- The body of a request, or the data of any other trigger. -/
  | payload
  | documentInput
  | blobInput
  /-- A value that the trigger reports beside its data. -/
  | metadata
deriving DecidableEq, Repr

/-- What an annotation does. -/
inductive AnnotationKind where
  | trigger (listener : Listener)
  | output (output : Output)
  | documentInput
  | blobInput
  | bindingName
  | payload
  | header
  | query
deriving DecidableEq, Repr

/-- Where an annotation may stand. -/
inductive Placement where
  | service
  | parameter
  | returnType
deriving DecidableEq, Repr

namespace AnnotationKind

def qualifiedName : AnnotationKind → String
  | .trigger .http => "azure_functions:HttpTrigger"
  | .trigger .queue => "azure_functions:QueueTrigger"
  | .trigger .cosmos => "azure_functions:CosmosDBTrigger"
  | .trigger .timer => "azure_functions:TimerTrigger"
  | .trigger .blob => "azure_functions:BlobTrigger"
  | .output .http => "azure_functions:HttpOutput"
  | .output .queue => "azure_functions:QueueOutput"
  | .output .cosmos => "azure_functions:CosmosDBOutput"
  | .output .blob => "azure_functions:BlobOutput"
  | .output .sms => "azure_functions:TwilioSmsOutput"
  | .documentInput => "azure_functions:CosmosDBInput"
  | .blobInput => "azure_functions:BlobInput"
  | .bindingName => "azure_functions:BindingName"
  | .payload => "http:Payload"
  | .header => "http:Header"
  | .query => "http:Query"

def placement : AnnotationKind → Placement
  | .trigger _ => .service
  | .output _ => .returnType
  | _ => .parameter

/-- The listener whose trigger an annotation configures. -/
def listener? : AnnotationKind → Option Listener
  | .trigger l => some l
  | _ => none

def role? : AnnotationKind → Option Role
  | .documentInput => some .documentInput
  | .blobInput => some .blobInput
  | .bindingName => some .metadata
  | .payload => some .payload
  | .header => some .header
  | .query => some .query
  | _ => none

def output? : AnnotationKind → Option Output
  | .output o => some o
  | _ => none

def ofFunctionsName? : String → Option AnnotationKind
  | "HttpTrigger" | "HTTPTrigger" => some (.trigger .http)
  | "QueueTrigger" => some (.trigger .queue)
  | "CosmosDBTrigger" => some (.trigger .cosmos)
  | "TimerTrigger" => some (.trigger .timer)
  | "BlobTrigger" => some (.trigger .blob)
  | "HttpOutput" | "HTTPOutput" => some (.output .http)
  | "QueueOutput" => some (.output .queue)
  | "CosmosDBOutput" => some (.output .cosmos)
  | "BlobOutput" => some (.output .blob)
  | "TwilioSmsOutput" => some (.output .sms)
  | "CosmosDBInput" => some .documentInput
  | "BlobInput" => some .blobInput
  | "BindingName" => some .bindingName
  | "Payload" => some .payload
  | _ => none

def ofHttpName? : String → Option AnnotationKind
  | "Payload" => some .payload
  | "Header" => some .header
  | "Query" => some .query
  | _ => none

end AnnotationKind

/-- What the name of an annotation says. -/
inductive AnnotationMeaning where
  | known (kind : AnnotationKind)
  /-- A name of the functions module that means nothing. -/
  | unsupported
  /-- A name of another module, which is none of our business. -/
  | foreign
deriving DecidableEq, Repr

namespace AnnotationMeaning

/-- What a qualified name says. -/
def of (qualified : String) : AnnotationMeaning :=
  match Text.splitFirst ':' qualified with
  | none => .foreign
  | some (module_, name) =>
    if module_ = functionsModule then
      match AnnotationKind.ofFunctionsName? name with
      | some kind => .known kind
      | none => .unsupported
    else if module_ = httpModule then
      match AnnotationKind.ofHttpName? name with
      | some kind => .known kind
      | none => .foreign
    else .foreign

/-- Every annotation is known under its own name. -/
theorem of_qualifiedName (kind : AnnotationKind) : of kind.qualifiedName = .known kind := by
  cases kind with
  | trigger l => cases l <;> decide +kernel
  | output o => cases o <;> decide +kernel
  | _ => decide +kernel

end AnnotationMeaning

end FunctionApp
