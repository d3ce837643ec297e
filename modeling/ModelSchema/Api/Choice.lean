import ModelSchema.Api.Origin

namespace ModelSchema.Api

open Json (Node Mark Key Ending Fault)

def decodeUnit (x : Node) : Except Failure Mark :=
  match x with
  | .leaf .null _ stop => .ok stop
  | x => wrongType "unit" x

def missingChoice {α : Type} : Ending → Except Failure α
  | .closed stop => .error ⟨.text .missingValue, stop⟩
  | .torn t =>
    if t.fault.problem = .unfinishedObject then
      .error ⟨.text .unfinishedValue, t.fault.place⟩
    else if t.fault.problem = .keyNotString then
      wrongType "variant identifier" (Json.scan t.fault.place.rest).node
    else .error (.ofFault t.fault)

def closeChoice (stop : Mark) : Except Failure Unit :=
  match Json.skipBlank stop.rest with
  | '}' :: _ => .ok ()
  | [] => .error ⟨.text .unfinishedObject, .here []⟩
  | rest => .error ⟨.text .missingValue, .here rest⟩

def decodeChoice (origin : Origin) (first : String) (others : List String) (x : Node) :
    Except Failure (Fin (others.length + 1)) :=
  let find (name : String) (place : Mark) : Except Failure (Fin (others.length + 1)) :=
    match (first :: others).findFinIdx? (· == name) with
    | some i => .ok i
    | none => .error ⟨.unknownChoice name (first :: others), place⟩
  let notChoice (start : Mark) := .error ⟨.text .missingValue, .behindNext start.rest⟩
  let broken (start : Mark) (fault : Fault) :=
    if start.begins '\"' then .error (.ofFault fault) else notChoice start
  match origin, x with
  | _, .leaf (.string name) _ stop => find name stop
  | .value, .object start [(k, v)] _ => do
    let i ← find k.name start
    let _ ← decodeUnit v
    return i
  | .value, .object start _ _ => .error ⟨.value .object "map with a single key", start⟩
  | .value, x => wrongType "string or map" x
  | .text _, .object _ [] ending => missingChoice ending
  | .text _, .object _ ((k, v) :: _) _ => do
    checkKey k
    let i ← find k.name k.stop
    closeChoice (← decodeUnit v)
    return i
  | .text _, .absent t => .error (.ofFault t.fault)
  | .text _, .torn start t => broken start t.fault
  | .text _, .flawed f start _ => broken start f
  | .text _, x => notChoice (startOf x)

end ModelSchema.Api
