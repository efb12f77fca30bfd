import FunctionApp.Shim.Basic
import FunctionApp.Shim.CodeType
import FunctionApp.Text.Literal

/-!
# The text of shims

Each document has a module of its own with a function for each of its shims and one that finds a
shim by the name of its function (`printModule`). An index declares the modules (`printIndex`).
-/

namespace FunctionApp

/-- The call that takes a value out of the envelope. -/
def Source.print : Source → String
  | .pathParam token => call "path_param" (Text.literal token)
  | .restPath name => call "rest_path" (Text.literal name)
  | .query name => call "query" (Text.literal name)
  | .header name => call "header" (Text.literal name)
  | .headerRecord fields => call "header_record" ("&" ++ Text.listLiteral fields)
  | .payload default => call "payload" (Text.literal default.mime)
  | .triggerData binding => call "trigger" (Text.literal binding)
  | .inputBinding name => call "input" (Text.literal name)
  | .metadata key => call "metadata" (Text.literal key)
where
  call (method argument : String) : String := "envelope." ++ method ++ "(" ++ argument ++ ")"

/-- The method that writes a value in an encoding. -/
def ContentType.setter : ContentType → String
  | .text => "set_text"
  | .binary => "set_bytes"
  | .xml => "set_xml"
  | .json | .form => "set_json"

def Statement.print (module_ : String) : Statement → String
  | .bind var value =>
    "let " ++ var ++ ": " ++ value.type.codeType ++ " = " ++ value.source.print ++ "?;"
  | .invoke handler args result fallible =>
    let call := "crate::" ++ module_ ++ "::" ++ codeIdent handler ++ "(" ++
      String.intercalate ", " args ++ ")" ++
      if fallible then ".map_err(ShimError::handler)?" else ""
    match result with
    | some var => "let " ++ var ++ " = " ++ call ++ ";"
    | none => call ++ ";"
  | .marshal binding _ (some var) encoding =>
    "outputs." ++ encoding.setter ++ "(" ++ Text.literal binding ++ ", &" ++ var ++ ")?;"
  | .marshal binding _ none _ => "outputs.set_empty(" ++ Text.literal binding ++ ");"

/-- The lines of a shim, of which the last is empty. -/
def Shim.lines (module_ : String) (shim : Shim) : List String :=
  ["/// Invocation shim for function \x60" ++ shim.function ++ "\x60",
    "pub fn " ++ shim.ident ++ "(envelope: &Envelope) -> Result<Outputs, ShimError> \x7b",
    "    let mut outputs = Outputs::new();"] ++
    shim.statements.map (fun s => "    " ++ s.print module_) ++
    ["    Ok(outputs)", "\x7d", ""]

/-- The line that finds a shim by the name of its function. -/
def Shim.dispatchLine (shim : Shim) : String :=
  "        " ++ Text.literal shim.function ++ " => Some(" ++ shim.ident ++ "(envelope)),"

/-- The first line of a module, which names its document. -/
def moduleHeader (document : String) : String :=
  "// Generated by fnforge from \x60" ++ document ++ "\x60. Do not edit."

/-- The lines of a module after the first. -/
def moduleBody (module_ : String) (shims : List Shim) : List String :=
  ["#![allow(unused_imports, clippy::all)]", "",
    "use fnforge_rt::\x7bDecimal, Envelope, Map, Outputs, ShimError, Value, Xml\x7d;", ""] ++
    shims.flatMap (Shim.lines module_) ++
    ["/// Route an invocation to its shim by function name",
      "pub fn dispatch(function: &str, envelope: &Envelope) " ++
        "-> Option<Result<Outputs, ShimError>> \x7b",
      "    match function \x7b"] ++
    shims.map Shim.dispatchLine ++
    ["        _ => None,", "    \x7d", "\x7d"]

/-- The module of the shims of a document. -/
structure GeneratedModule where
  document : String
  /-- The identifier of the module. -/
  name : String
  source : String
deriving DecidableEq

namespace GeneratedModule

/-- The module of the shims of a document. -/
def ofShims (document : String) (shims : List Shim) : GeneratedModule :=
  let name := codeIdent document
  ⟨document, name, String.intercalate "\n" (moduleHeader document :: moduleBody name shims)⟩

def fileName (m : GeneratedModule) : String := m.name ++ ".rs"

/-- The index of modules. -/
def index (modules : List GeneratedModule) : String :=
  "// Generated by fnforge. Do not edit.\n" ++
    String.join (modules.map fun m => "pub mod " ++ m.name ++ ";\n")

end GeneratedModule

end FunctionApp
