import ModelSchema.Api.Moment
import ModelSchema.Json.Compact
import ModelSchema.Json.Scan
import ModelSchema.Text.Shown

namespace ModelSchema.Api

open Json (Node Mark Scalar)

inductive Found where
  | null
  | bool (value : Bool)
  | int (value : Int)
  | float (value : Binary64)
  | string (value : String)
  | array
  | object
  deriving DecidableEq, Repr

def Found.text : Found → String
  | .null => "null"
  | .bool b => "boolean `" ++ (if b then "true" else "false") ++ "`"
  | .int n => "integer `" ++ String.ofList (Json.intText n) ++ "`"
  | .float x => "floating point `" ++ String.ofList x.text ++ "`"
  | .string s => "string " ++ Text.shown s
  | .array => "sequence"
  | .object => "map"

inductive Misfit where
  | text (problem : Json.Problem)
  | type (found : Found) (wanted : String)
  | value (found : Found) (wanted : String)
  | missing (field : String)
  | duplicate (field : String)
  | unknownChoice (name : String) (choices : List String)
  | length (n : Nat) (wanted : String)
  | moment (problem : Moment.Problem)
  deriving DecidableEq, Repr

def alternatives : List String → String
  | [] => "there are no variants"
  | [a] => "expected `" ++ a ++ "`"
  | [a, b] => "expected `" ++ a ++ "` or `" ++ b ++ "`"
  | as => "expected one of " ++ ", ".intercalate (as.map fun a => "`" ++ a ++ "`")

def Misfit.message : Misfit → String
  | .text p => p.message
  | .type found wanted => "invalid type: " ++ found.text ++ ", expected " ++ wanted
  | .value found wanted => "invalid value: " ++ found.text ++ ", expected " ++ wanted
  | .missing field => "missing field `" ++ field ++ "`"
  | .duplicate field => "duplicate field `" ++ field ++ "`"
  | .unknownChoice name choices =>
    "unknown variant `" ++ name ++ "`, " ++ alternatives choices
  | .length n wanted => "invalid length " ++ toString n ++ ", expected " ++ wanted
  | .moment p => p.message

structure Failure where
  misfit : Misfit
  place : Mark
  deriving DecidableEq, Repr

def Failure.ofFault (f : Json.Fault) : Failure :=
  ⟨.text f.problem, f.place⟩

def Found.ofScalar : Scalar → Found
  | .null => .null
  | .bool b => .bool b
  | .int n => .int n
  | .float x => .float x
  | .string s => .string s

/-- A value of the wrong type is noticed behind a scalar, but before the bracket of an array or
object. -/
def wrongType {α : Type} (wanted : String) : Node → Except Failure α
  | .leaf s _ stop => .error ⟨.type (.ofScalar s) wanted, stop⟩
  | .flawed f _ _ => .error (.ofFault f)
  | .array start _ _ => .error ⟨.type .array wanted, start⟩
  | .object start _ _ => .error ⟨.type .object wanted, start⟩
  | .torn _ t => .error (.ofFault t.fault)
  | .absent t => .error (.ofFault t.fault)

end ModelSchema.Api
