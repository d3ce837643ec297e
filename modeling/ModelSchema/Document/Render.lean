import ModelSchema.Document.Members
import ModelSchema.Json.Pretty
import ModelSchema.Json.Scan
import ModelSchema.Text.Replace

namespace ModelSchema

def mapValuePattern : List Char :=
  "\"additionalProperty\":".toList

def correctedPattern : List Char :=
  "\"additionalProperties\":".toList

def correctKeys (text : List Char) : List Char :=
  Text.replaceAll mapValuePattern correctedPattern text

def needsCorrection (text : List Char) : Bool :=
  Text.contains mapValuePattern text

inductive Correction where
  | kept (text : List Char)
  | rewritten (text : List Char)
  deriving DecidableEq, Repr

namespace Correction

def text : Correction → List Char
  | .kept t => t
  | .rewritten t => t

def isRewritten : Correction → Bool
  | .kept _ => false
  | .rewritten _ => true

end Correction

def correction (text : List Char) : Correction :=
  if needsCorrection text then .rewritten (correctKeys text) else .kept text

structure RenderError where
  problem : Json.Problem
  position : Json.Position
  deriving DecidableEq, Repr

def RenderError.message (e : RenderError) : String :=
  "failed to parse corrected schema: " ++ e.problem.message ++ e.position.text

def Document.correctedText (d : Document) : List Char :=
  correctKeys d.toJson.compactChars

def Document.render (d : Document) : Except RenderError String :=
  let text := d.correctedText
  match Json.ofText? text with
  | .ok v => .ok v.pretty
  | .error fault => .error ⟨fault.problem, fault.place.position text⟩

end ModelSchema
