import IDoris.Inspect.Decode

/-!
# The verdict

The answer to one text: findings, sensitivity and what may be done with the text.
-/
namespace Inspect

open Proxy (PrivacyClass)

/-- A character of the header of a data URL, after lowering ASCII. -/
def isDataUrlHeaderChar (c : Char) : Bool :=
  32 < c.toNat && c.toNat < 127 &&
    !(['"', '(', ')', '<', '>', '@', ',', ':', '\\', '[', ']', '?'].contains c)

/-- A header that ends in `;base64`, a comma, and one base64 character. -/
def isBase64Payload (rest : List Char) : Bool :=
  let header := rest.takeWhile isDataUrlHeaderChar
  ";base64".toList.isSuffixOf header &&
    match rest.drop header.length with
    | ',' :: byte :: _ => isAlnum byte.toNat || byte = '+' || byte = '/'
    | _ => false

def containsBase64DataUrl (input : String) : Bool :=
  let lower := input.toList.map Char.toLower
  lower.tails.any fun rest =>
    "data:".toList.isPrefixOf rest && isBase64Payload (rest.drop 5)

def exceedsLimit (input : String) (maxInputUtf16 : Nat) : Bool :=
  maxInputUtf16 < (Utf16.encode input).length

def decideAction (hits : List Hit) (sensitivity : Sensitivity) (ctx : InspectCtx) :
    InspectAction :=
  if ctx.declared = .localOnly || !ctx.remoteAllowed then .block
  else if hits = [] then .allow
  else if sensitivity = .s3 || !ctx.redactConsent then .block
  else .redact

def maxSensitivity (hits : List Hit) : Sensitivity :=
  hits.foldl (fun sensitivity hit => sensitivity.max hit.sensitivity) .s0

def Hit.finding (hit : Hit) : InspectFinding := ⟨hit.kind, some ⟨hit.start, hit.length⟩⟩

variable [Entropy]

def inspect (input : String) (ctx : InspectCtx) : Option InspectResponse :=
  if exceedsLimit input ctx.maxInputUtf16 then
    some ⟨.s3, [⟨.inputLimitExceeded, none⟩], .block⟩
  else do
    let hits ← scanAllViews scan (Utf16.encode input)
    let isOpaque := containsBase64DataUrl input
    let sensitivity := if isOpaque then .s3 else maxSensitivity hits
    let action := if isOpaque then .block else decideAction hits sensitivity ctx
    return ⟨sensitivity, hits.map Hit.finding, action⟩

end Inspect
