import FunctionApp.Handler.Trigger

/-!
# Parameters

For each role the types that a parameter may have, how its argument is taken out of the envelope,
and the binding that it adds to the function.
-/

namespace FunctionApp.Role

/-- Refuses a role of HTTP requests behind another trigger. -/
def requireHttp (site : ParamSite) (kind : AnnotationKind) : Except Problem Unit :=
  if site.listener = .http then .ok ()
  else
    .error (.misplaced kind.qualifiedName ("a " ++ site.listener.bindingKind.name ++ " handler"))

/-- Whether a single header can be read as a type. -/
def isHeaderValue (program : Program) (ty : TypeExpr) : Bool :=
  ((program.valueBehind? ty).map program.isBasic).getD false

/-- The record behind a type without `()`. -/
def headerRecord? (program : Program) (ty : TypeExpr) : Option RecordType :=
  ty.withoutNil.bind program.recordType?

/-- Checks the type of a header parameter: a header value, or a closed record of them. -/
def checkHeader (program : Program) (site : ParamSite) : Except Problem Unit :=
  let invalid := Problem.headerParamType site.name site.type.print
  if isHeaderValue program site.type then .ok ()
  else
    match site.type.withoutNil, headerRecord? program site.type with
    | some value, some record =>
      if record.rest.isSome then .error (.openHeaderRecord site.name value.print)
      else if record.fields.all fun (_, ty) => isHeaderValue program ty then .ok ()
      else .error invalid
    | _, _ => .error invalid

/-- Refuses a type of a parameter unless it is accepted. -/
def checkBindingType (kind : BindingKind) (site : ParamSite) (accepted : Bool) :
    Except Problem Unit :=
  if accepted then .ok () else .error (.bindingParamType kind.name site.name site.type.print)

/-- Whether documents of a database can be read as a type. -/
def isDocumentData (program : Program) (ty : TypeExpr) : Bool :=
  ty == .builtin .json || program.isRecord ty || program.isRecordArray ty

/-- Checks that a parameter may have a role. -/
def check (role : Role) (program : Program) (site : ParamSite) : Except Problem Unit :=
  match role with
  | .path =>
    if (program.resolveAlias site.type).isBasicScalar then .ok ()
    else .error (.pathParamType site.name site.type.print)
  | .query => do
    requireHttp site .query
    if ((program.valueBehind? site.type).map program.isBasic).getD false then .ok ()
    else .error (.queryParamType site.name site.type.print)
  | .header => do
    requireHttp site .header
    checkHeader program site
  | .payload =>
    if site.listener.accepts program site.type then .ok ()
    else .error (.payloadParamType site.name site.type.print)
  | .documentInput =>
    checkBindingType .documentInput site
      (((program.valueBehind? site.type).map (isDocumentData program)).getD false)
  | .blobInput =>
    checkBindingType .blobInput site
      (((program.valueBehind? site.type).map (isBlobData program)).getD false)
  | .metadata =>
    checkBindingType .metadata site (program.resolveAlias site.type == .builtin .string)

/-- The name that the annotation of a parameter gives, else that of the parameter. -/
def givenName (site : ParamSite) (kind : AnnotationKind) : String :=
  ((AnnotationFields.mk site.mark kind).text? "name").getD site.name

def extraction (role : Role) (program : Program) (site : ParamSite) : Expression :=
  match role with
  | .path => ⟨.pathParam site.name, site.type⟩
  | .query => ⟨.query (givenName site .query), site.type⟩
  | .header =>
    match headerRecord? program site.type with
    | some record => ⟨.headerRecord (record.fields.map (·.1)), site.type⟩
    | none => ⟨.header (givenName site .header), site.type⟩
  | .payload => site.listener.extraction site.type
  | .documentInput | .blobInput => ⟨.inputBinding site.name, site.type⟩
  | .metadata => ⟨.metadata (givenName site .bindingName), site.type⟩

def documentBinding (site : ParamSite) : Except Problem Binding := do
  let f : AnnotationFields := ⟨site.mark, .documentInput⟩
  return Binding.make .documentInput .in_ site.name
    |>.with_ "connectionStringSetting" (.text (← f.required "connectionStringSetting"))
    |>.with_ "databaseName" (.text (← f.required "databaseName"))
    |>.with_ "collectionName" (.text (← f.required "collectionName"))
    |>.withOptional "id" (jsonText? (f.text? "id"))
    |>.withOptional "sqlQuery" (jsonText? (f.text? "sqlQuery"))
    |>.withOptional "partitionKey" (jsonText? (f.text? "partitionKey"))
    |>.withOptional "preferredLocations" (jsonText? (f.text? "preferredLocations"))

def blobBinding (site : ParamSite) : Except Problem Binding := do
  let f : AnnotationFields := ⟨site.mark, .blobInput⟩
  return Binding.make .blobInput .in_ site.name
    |>.with_ "path" (.text (← f.required "path"))
    |>.with_ "connection" (.text ((f.text? "connection").getD defaultConnection))
    |>.with_ "dataType" (.text (blobDataType site.type))

/-- The binding that a parameter adds, if its role needs one. -/
def binding (role : Role) (site : ParamSite) : Except Problem (Option Binding) :=
  match role with
  | .documentInput => (documentBinding site).map some
  | .blobInput => (blobBinding site).map some
  | .metadata => .ok (some (Binding.make .metadata .in_ (givenName site .bindingName)))
  | .path | .query | .header | .payload => .ok none

end FunctionApp.Role
