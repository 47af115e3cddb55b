import IDoris.Dispatch.QuotedText

/-!
# What a supervised backend takes

A supervisor buffers a whole answer and knows some fields of a request. The others are refused
by name before anything is reserved.
-/
namespace Chat

open Dispatch Transaction
open Proxy (Json)

section Stream

def validateStream (object : Dispatch.Fields) : Except String Unit :=
  match object.lookup "stream" with
  | none | some (.bool false) => .ok ()
  | some (.bool true) => .error
    "stream=true is unsupported for on_demand/Supervisor models; retry with stream=false"
  | some _ => .error
    "stream must be a boolean; on_demand/Supervisor models support only stream=false"

end Stream

section Values

def isString (value : Json) : Bool := (asString value).isSome

def isObject (value : Json) : Bool := value.asObject.isSome

def isBoolean : Json → Bool
  | .bool _ => true
  | _ => false

def isNull : Json → Bool
  | .null => true
  | _ => false

def itemsOf : Json → Option (List Json)
  | .array items => some items
  | _ => none

def textField (value : Json) (key : String) : Option String := (field value key).bind asString

/-- The text at `/function/<key>`. -/
def functionText (value : Json) (key : String) : Option String :=
  (field value "function").bind fun function => textField function key

def isNonempty (text : String) : Bool := !text.isEmpty

end Values

section Messages

def validTool (tool : Json) : Bool :=
  textField tool "type" = some "function" &&
    (field tool "function").any fun function =>
      (textField function "name").any isNonempty && (field function "parameters").all isObject

def validCall (call : Json) : Bool :=
  (textField call "id").isSome && textField call "type" = some "function" &&
    (functionText call "name").isSome && (functionText call "arguments").isSome

def messageKeys : List String := ["role", "content", "name", "tool_calls", "tool_call_id"]

/-- Only an assistant calls tools, and only a tool answers a call. -/
def validToolFields (fields : Dispatch.Fields) (role : Option String) : Bool :=
  (fields.lookup "tool_calls").all (fun calls =>
      role = some "assistant" && (itemsOf calls).any fun calls =>
        !calls.isEmpty && calls.all validCall) &&
    if role = some "tool" then (fields.lookup "tool_call_id").any isString
    else (fields.lookup "tool_call_id").isNone

def validContent (fields : Dispatch.Fields) : Bool :=
  (fields.lookup "content").any isString ||
    (fields.lookup "tool_calls").isSome && (fields.lookup "content").all isNull

def validMessage (message : Json) : Bool :=
  message.asObject.any fun fields =>
    let role := (fields.lookup "role").bind asString
    fields.all (fun entry => messageKeys.contains entry.1) && (fields.lookup "name").all isString &&
      validToolFields fields role && role.isSome && validContent fields

end Messages

section Parameters

def validFormat (format : Json) : Bool :=
  isObject format && (textField format "type" = some "text" ||
    textField format "type" = some "json_object" ||
    textField format "type" = some "json_schema" && (field format "json_schema").any isObject)

def validChoice (choice : Json) : Bool :=
  (asString choice).any (fun name => ["auto", "none", "required"].contains name) ||
    textField choice "type" = some "function" && (functionText choice "name").any isNonempty

/-- Whether the value of a field is valid; the other fields are not supported. -/
def validParameter (name : String) (value : Json) : Option Bool :=
  match name with
  | "model" | "messages" | "stream" => some true
  | "max_tokens" => some (value.asU64.any fun n => 0 < n)
  | "tools" => some ((itemsOf value).any fun tools => tools.all validTool)
  | "response_format" => some (validFormat value)
  | "tool_choice" => some (validChoice value)
  | "parallel_tool_calls" | "disable_thinking" => some (isBoolean value)
  | "chat_template_kwargs" =>
    some (isObject value && (field value "enable_thinking").all isBoolean)
  | _ => none

def checkParameter (name : String) (value : Json) : Except String Unit :=
  match validParameter name value with
  | none => .error ("Supervisor does not support " ++ name ++
      "; remove it or use a backend that supports it")
  | some false => .error ("Supervisor received invalid " ++ name)
  | some true => .ok ()

def validateParameters (object : Dispatch.Fields) : Except String Unit := do
  object.forM fun entry => checkParameter entry.1 entry.2
  match object.lookup "messages" with
  | none => return ()
  | some messages =>
    let messages ← orRefuse (itemsOf messages) "Supervisor requires messages to be an array"
    refuseIf ((messages.all validMessage) = false)
      "Supervisor requires text or tool messages with supported fields"

structure NativeCompletionRequest where
  messages : List Json
  parameters : Dispatch.Fields

def payload (object : Dispatch.Fields) : NativeCompletionRequest where
  messages := rawMessages object
  parameters := object.filter fun entry => !(["model", "messages"].contains entry.1)

end Parameters

end Chat
