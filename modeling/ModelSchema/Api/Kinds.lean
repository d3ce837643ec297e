import ModelSchema.Api.Console
import ModelSchema.Api.Decode
import ModelSchema.Api.Same

namespace ModelSchema.Api

def Shape.name? : Shape → Option String
  | .choice l _ _ => some l.name
  | .record l _ _ => some l.name
  | _ => none

def shapes : List Shape :=
  [typeMeta, objectList, patch, packageDescriptor] ++ Console.shapes

def shape? (name : String) : Option Shape :=
  shapes.find? fun s => s.name? == some name

def Shape.decodeJson (s : Shape) (v : Json) : Except Failure s.Value :=
  s.decode .value (.ofJson v)

def Shape.decodeText (s : Shape) (text : List Char) : Except Failure s.Value := do
  let scanned := Json.scan text
  let v ← s.decode (.text Json.maxDepth) scanned.node
  match scanned.trailing with
  | none => return v
  | some fault => throw (.ofFault fault)

def Failure.messageIn (f : Failure) (text : List Char) : String :=
  f.misfit.message ++ (f.place.position text).text

end ModelSchema.Api
