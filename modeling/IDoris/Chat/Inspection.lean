import IDoris.Inspect.DigitRuns
import IDoris.Library.Json
import IDoris.Policy.Card

/-!
# The inspection of a request body

Every key, string and number of the body becomes a piece of one text, closed by a NUL, and the
text is scanned as a whole. What no scan can read makes the body opaque.
-/
namespace Chat

open Inspect Json
open Proxy (PrivacyClass)
open Text (eqIgnoreAsciiCase)

section Tables

/-- A number as it is kept: an integer of 64 bits, or a float and the text that it prints. -/
inductive Number where
  | integer (value : Int)
  | float (text : String)
  deriving DecidableEq

def Number.print : Number → String
  | .integer value => toString value
  | .float text => text

def Number.isInteger : Number → Bool
  | .integer _ => true
  | .float _ => false

def readablePartTypes : List String :=
  ["text", "input_text", "output_text", "tool_use", "tool_result", "function", "thinking",
    "refusal", "redacted_thinking", "server_tool_use", "mcp_tool_use", "mcp_tool_result",
    "web_search_tool_result", "web_search_result"]

def toolCallPartTypes : List String := ["tool_use", "server_tool_use", "mcp_tool_use"]

def schemaKeys : List String := ["input_schema", "parameters", "json_schema"]

def opaqueMediaKeys : List String :=
  ["image_url", "audio_url", "video_url", "input_audio", "inline_data", "file"]

def mediaTypeNames : List String :=
  ["image_url", "input_image", "image", "image_file", "input_audio", "audio", "audio_url",
    "video", "video_url", "input_video", "file", "input_file", "document", "document_url",
    "inline_data"]

def named (names : List String) (value : String) : Bool :=
  names.any fun name => eqIgnoreAsciiCase value name

def isDataUrl (text : String) : Bool :=
  let lower := text.toList.map Char.toLower
  "data:".toList.isPrefixOf lower && lower.tails.any fun rest => ";base64,".toList.isPrefixOf rest

end Tables

abbrev Fields := List (String × Value Number)

section Objects

def typeOf (fields : Fields) : Option String := (fields.lookup "type").bind Value.asStr

def hasMediaKey (fields : Fields) : Bool := fields.any fun entry => named opaqueMediaKeys entry.1

def hasMediaType (fields : Fields) : Bool := (typeOf fields).any (named mediaTypeNames)

def isReadablePart (fields : Fields) : Bool := (typeOf fields).any (named readablePartTypes)

def isToolCallPart (fields : Fields) : Bool := (typeOf fields).any (named toolCallPartTypes)

/-- The part check stops below schemas and below the arguments of a tool. -/
def suppresses (suppress toolCallPart : Bool) (key : String) : Bool :=
  suppress || named schemaKeys key || toolCallPart && eqIgnoreAsciiCase key "input"

def isDirect (suppressed : Bool) (key : String) : Bool :=
  eqIgnoreAsciiCase key "content" && !suppressed

def isOpaqueObject (direct suppress : Bool) (fields : Fields) : Bool :=
  hasMediaKey fields || hasMediaType fields || direct && !suppress && !isReadablePart fields

end Objects

section Collect

/-- The text so far, and whether something could not be read. -/
structure Collected where
  out : String
  isOpaque : Bool

def Collected.pushLine (acc : Collected) (text : String) : Collected :=
  { acc with out := acc.out ++ text ++ "\x00" }

def Collected.mark (acc : Collected) (found : Bool) : Collected :=
  { acc with isOpaque := acc.isOpaque || found }

mutual

def collect (acc : Collected) (direct suppress : Bool) : Value Number → Collected
  | .string text => (acc.mark (isDataUrl text)).pushLine text
  | .number number => acc.pushLine number.print
  | .array items => collectItems acc direct suppress items
  | .object fields =>
    collectFields (acc.mark (isOpaqueObject direct suppress fields)) suppress
      (isToolCallPart fields) fields
  | .bool _ | .null => acc

def collectItems (acc : Collected) (direct suppress : Bool) : List (Value Number) → Collected
  | [] => acc
  | item :: items => collectItems (collect acc direct suppress item) direct suppress items

def collectFields (acc : Collected) (suppress toolCallPart : Bool) : Fields → Collected
  | [] => acc
  | (key, item) :: fields =>
    let suppressed := suppresses suppress toolCallPart key
    collectFields (collect (acc.pushLine key) (isDirect suppressed key) suppressed item) suppress
      toolCallPart fields

end

mutual

/-- A list of integers, or anything that holds one. -/
def isIntegerTokenArray : Value Number → Bool
  | .array items => isTokenList items || anyTokenArray items
  | .object fields => anyTokenField fields
  | _ => false

def isTokenList (items : List (Value Number)) : Bool :=
  !items.isEmpty && items.all fun item =>
    match item with
    | .number number => number.isInteger
    | _ => false

def anyTokenArray : List (Value Number) → Bool
  | [] => false
  | item :: items => isIntegerTokenArray item || anyTokenArray items

def anyTokenField : Fields → Bool
  | [] => false
  | (_, item) :: fields => isIntegerTokenArray item || anyTokenField fields

end

end Collect

section Verdict

variable [Entropy]

/-- What the inspection of a body decides. -/
structure Inspection where
  response : InspectResponse
  effective : PrivacyClass
  tightened : Bool
  killed : Bool
  failed : Bool
  uninspectable : Bool

def hasTokenInput (body : Value Number) : Bool := (body.get "input").any isIntegerTokenArray

def collected (body : Value Number) : Collected :=
  collect ⟨"", hasTokenInput body⟩ false false body

def bodyCtx (declared : PrivacyClass) (killSwitch : Bool) : InspectCtx :=
  ⟨declared, !killSwitch, false, defaultMaxInputUtf16⟩

def verdictOf (declared : PrivacyClass) (killSwitch isOpaque : Bool) (response : InspectResponse) :
    Inspection :=
  let tightening := if isOpaque || response.action ≠ .allow then some .localOnly else none
  let effective := Policy.effectivePrivacy declared tightening
  let tightened := declared = .any && effective = .localOnly
  { response, effective, tightened
    killed := tightened && killSwitch
    failed := false
    uninspectable := tightened && isOpaque && !killSwitch && response.findings.isEmpty }

/-- An answer of `none` is a panic of the scan. -/
def inspectBody (body : Value Number) (declared : PrivacyClass) (killSwitch : Bool) :
    Option Inspection :=
  let text := collected body
  (inspect text.out (bodyCtx declared killSwitch)).map (verdictOf declared killSwitch text.isOpaque)

def offWorkerBytes : Nat := 32 * 1024

def failedInspection (declared : PrivacyClass) : Inspection where
  response := ⟨.s3, [], .block⟩
  effective := .localOnly
  tightened := declared = .any
  killed := false
  failed := true
  uninspectable := false

end Verdict

end Chat
