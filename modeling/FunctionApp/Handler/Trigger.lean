import FunctionApp.Handler.Site

/-!
# Triggers

For each listener the binding that starts a handler, the types it can deliver its data as, and how
the data is taken out of the envelope.
-/

namespace FunctionApp.Listener

def bindingKind : Listener → BindingKind
  | .http => .http
  | .queue => .queueTrigger
  | .cosmos => .documentTrigger
  | .timer => .timerTrigger
  | .blob => .blobTrigger

def variable_ : Listener → String
  | .http => "httpPayload"
  | _ => "inMsg"

/-- Whether the listener can deliver its data as a type. -/
def accepts (l : Listener) (program : Program) (ty : TypeExpr) : Bool :=
  let resolved := program.resolveAlias ty
  match l with
  | .http => program.isAnydata ty
  | .queue =>
    match resolved with
    | .builtin .string | .builtin .json => true
    | .map value => program.isAnydata (.map value)
    | other => program.isRecord other && program.isAnydata other
  | .cosmos =>
    match resolved with
    | .builtin .json => true
    | .array element =>
      match program.resolveAlias element with
      | .builtin .json => true
      | .map value => program.isAnydata (.map value)
      | other => program.isRecord other
    | _ => false
  | .timer =>
    match resolved with
    | .builtin .json | .builtin .anydata => true
    | other => program.isRecord other && program.isAnydata other
  | .blob => isBlobData program ty

/-- The data of the trigger, read as a type. -/
def extraction (l : Listener) (ty : TypeExpr) : Expression :=
  match l with
  | .http => ⟨.payload (ContentType.ofType ty), ty⟩
  | l => ⟨.triggerData l.variable_, ty⟩

/-- The methods that a resource for every method answers. -/
def allMethods : List String := ["DELETE", "GET", "HEAD", "OPTIONS", "POST", "PUT"]

/-- The methods that the accessor of a resource stands for. -/
def methods (accessor : Option String) : List String :=
  match accessor.map (·.map Char.toLower) with
  | none | some "default" => allMethods
  | some method => [method]

def httpBinding (site : TriggerSite) (f : AnnotationFields) (b : Binding) :
    Except Problem Binding := do
  let authLevel ← f.oneOf "authLevel" ["anonymous", "function", "admin"] "anonymous"
  return b.with_ "authLevel" (.text authLevel)
    |>.with_ "methods" (.ofTexts (methods site.accessor))
    |>.withTrailing "route" (.text site.route)

def queueBinding (f : AnnotationFields) (b : Binding) : Except Problem Binding := do
  return b.with_ "connection" (.text ((f.text? "connection").getD defaultConnection))
    |>.with_ "queueName" (.text (← f.required "queueName"))

/-- The binding of a database trigger. The collection of leases is created unless the annotation
says otherwise, and has a throughput of 400. -/
def cosmosBinding (f : AnnotationFields) (b : Binding) : Except Problem Binding := do
  let int := fun key => return (← f.int key).map Json.int
  return b.with_ "connectionStringSetting" (.text (← f.required "connectionStringSetting"))
    |>.with_ "databaseName" (.text (← f.required "databaseName"))
    |>.with_ "collectionName" (.text (← f.required "collectionName"))
    |>.withOptional "leaseConnectionStringSetting"
      (jsonText? (f.text? "leaseConnectionStringSetting"))
    |>.withOptional "leaseDatabaseName" (jsonText? (f.text? "leaseDatabaseName"))
    |>.withOptional "leaseCollectionName" (jsonText? (f.text? "leaseCollectionName"))
    |>.with_ "createLeaseCollectionIfNotExists"
      (.bool ((← f.boolean "createLeaseCollectionIfNotExists").getD true))
    |>.with_ "leasesCollectionThroughput"
      (.int ((← f.int "leasesCollectionThroughput").getD 400))
    |>.withOptional "leaseCollectionPrefix" (jsonText? (f.text? "leaseCollectionPrefix"))
    |>.withOptional "feedPollDelay" (← int "feedPollDelay")
    |>.withOptional "leaseAcquireInterval" (← int "leaseAcquireInterval")
    |>.withOptional "leaseExpirationInterval" (← int "leaseExpirationInterval")
    |>.withOptional "leaseRenewInterval" (← int "leaseRenewInterval")
    |>.withOptional "checkpointFrequency" (← int "checkpointFrequency")
    |>.withOptional "maxItemsPerInvocation" (← int "maxItemsPerInvocation")
    |>.withOptional "startFromBeginning" ((← f.boolean "startFromBeginning").map .bool)
    |>.withOptional "preferredLocations" (jsonText? (f.text? "preferredLocations"))

/-- The binding of a timer trigger, which runs at the start of the host unless the annotation says
otherwise. -/
def timerBinding (f : AnnotationFields) (b : Binding) : Except Problem Binding := do
  return b.with_ "schedule" (.text (← f.required "schedule"))
    |>.with_ "runOnStartup" (.bool ((← f.boolean "runOnStartup").getD true))

def blobBinding (site : TriggerSite) (f : AnnotationFields) (b : Binding) :
    Except Problem Binding := do
  return b.with_ "path" (.text (← f.required "path"))
    |>.with_ "connection" (.text ((f.text? "connection").getD defaultConnection))
    |>.withOptional "dataType" (site.payload.map fun ty => .text (blobDataType ty))

def binding (l : Listener) (site : TriggerSite) : Except Problem Binding :=
  let f : AnnotationFields := ⟨site.mark, .trigger l⟩
  let b := Binding.make l.bindingKind .in_ l.variable_
  match l with
  | .http => httpBinding site f b
  | .queue => queueBinding f b
  | .cosmos => cosmosBinding f b
  | .timer => timerBinding f b
  | .blob => blobBinding site f b

end FunctionApp.Listener
