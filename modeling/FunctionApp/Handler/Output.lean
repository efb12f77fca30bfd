import FunctionApp.Handler.Param

/-!
# Outputs

For each output the types that a handler may return, the statement that writes the result, and the
binding of the output.
-/

namespace FunctionApp.Output

def bindingKind : Output → BindingKind
  | .http => .httpOutput
  | .queue => .queueOutput
  | .cosmos => .documentOutput
  | .blob => .blobOutput
  | .sms => .smsOutput

def variable_ : Output → String
  | .http => "resp"
  | _ => "outMsg"

/-- Whether the value part of a return type can be written to an output. Only an HTTP response may
be without a value. -/
def acceptsValue (o : Output) (program : Program) (value : Option TypeExpr) : Bool :=
  match o, value with
  | .http, none => true
  | _, none => false
  | .http, some ty => program.isAnydata ty
  | .queue, some ty =>
    match program.resolveAlias ty with
    | .builtin .string | .builtin .json => true
    | .array element => element == .builtin .string
    | _ => false
  | .cosmos, some ty =>
    program.resolveAlias ty == .builtin .json || program.isRecord ty || program.isRecordArray ty
  | .blob, some ty => isBlobData program ty
  | .sms, some ty => program.resolveAlias ty == .builtin .string

def check (o : Output) (program : Program) (ty : TypeExpr) : Except Problem Unit :=
  if o.acceptsValue program ty.valueType then .ok ()
  else .error (.returnType o.bindingKind.name ty.print)

/-- The statement that writes the result of a handler. -/
def marshal (o : Output) (result : Option String) (ty : TypeExpr) : Statement :=
  let value := ty.valueType
  .marshal o.variable_ o.bindingKind (if value.isSome then result else none)
    ((value.map ContentType.ofType).getD .json)

def binding (o : Output) (mark : Option Annotation) (ty : TypeExpr) : Except Problem Binding := do
  let f : AnnotationFields := ⟨mark, .output o⟩
  let b := Binding.make o.bindingKind .out o.variable_
  match o with
  | .http => return b
  | .queue =>
    return b.with_ "connection" (.text ((f.text? "connection").getD defaultConnection))
      |>.with_ "queueName" (.text (← f.required "queueName"))
  | .cosmos =>
    return b.with_ "connectionStringSetting" (.text (← f.required "connectionStringSetting"))
      |>.with_ "databaseName" (.text (← f.required "databaseName"))
      |>.with_ "collectionName" (.text (← f.required "collectionName"))
      |>.withOptional "createIfNotExists" ((← f.boolean "createIfNotExists").map .bool)
      |>.withOptional "partitionKey" (jsonText? (f.text? "partitionKey"))
      |>.withOptional "collectionThroughput" ((← f.int "collectionThroughput").map .int)
      |>.withOptional "useMultipleWriteLocations"
        ((← f.boolean "useMultipleWriteLocations").map .bool)
      |>.withOptional "preferredLocations" (jsonText? (f.text? "preferredLocations"))
  | .blob =>
    return b.with_ "path" (.text (← f.required "path"))
      |>.with_ "connection" (.text ((f.text? "connection").getD defaultConnection))
      |>.with_ "dataType" (.text (blobDataType (ty.valueType.getD (.builtin .string))))
  | .sms =>
    let sid := (f.text? "accountSidSetting").getD "AzureWebJobsTwilioAccountSID"
    let token := (f.text? "authTokenSetting").getD "AzureWebJobsTwilioAuthToken"
    return b.with_ "accountSidSetting" (.text sid)
      |>.with_ "authTokenSetting" (.text token)
      |>.with_ "from" (.text (← f.required "fromNumber"))
      |>.with_ "to" (.text (← f.required "toNumber"))

end FunctionApp.Output
