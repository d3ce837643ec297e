import ModelSchema.Api.Misfit

namespace ModelSchema.Api

open Json (Node Mark Key Ending Fault)

/-- Whether the input is a text, with how deep arrays and objects may still nest there, or a value
that was made from one before. -/
inductive Origin where
  | text (depth : Nat)
  | value
  deriving DecidableEq, Repr

def Origin.limit : Origin → Json.Limit
  | .text depth => some depth
  | .value => none

def Origin.inside : Origin → Origin
  | .text depth => .text (depth - 1)
  | .value => .value

mutual

def passingFault? : Node → Option Fault
  | .leaf _ _ _ => none
  | .flawed _ _ _ => none
  | .torn _ t => some t.passing
  | .absent t => some t.passing
  | .array _ items ending => (passingFaultOfItems? items).or (passingFaultOfEnding? ending)
  | .object _ members ending => (passingFaultOfMembers? members).or (passingFaultOfEnding? ending)

def passingFaultOfItems? : List Node → Option Fault
  | [] => none
  | x :: xs => (passingFault? x).or (passingFaultOfItems? xs)

def passingFaultOfMembers? : List (Key × Node) → Option Fault
  | [] => none
  | (_, x) :: ms => (passingFault? x).or (passingFaultOfMembers? ms)

def passingFaultOfEnding? : Ending → Option Fault
  | .closed _ => none
  | .torn t => some t.passing

end

def passOver (x : Node) : Except Failure Unit :=
  match passingFault? x with
  | none => .ok ()
  | some f => .error (.ofFault f)

def takeJson (limit : Json.Limit) (x : Node) : Except Failure Json :=
  (x.toJson limit).mapError .ofFault

def checkKey (k : Key) : Except Failure Unit :=
  k.check.mapError .ofFault

def stopOf : Ending → Except Failure Mark
  | .closed stop => .ok stop
  | .torn t => .error (.ofFault t.fault)

/-- After a fault in a key the object is left, with a blank and its bracket if they follow. -/
def leaveObject (m : Mark) : Mark :=
  match Json.skipBlank m.rest with
  | '}' :: rest => .here rest
  | rest => .here rest

/-- An array that is not wanted is left behind its opening bracket, with a blank and its closing
bracket or a comma if they follow. -/
def leaveArray (start : Mark) : Mark :=
  match Json.skipBlank (start.rest.drop 1) with
  | ']' :: rest => .here rest
  | ',' :: rest => .here (Json.skipBlank rest)
  | rest => .here rest

def startOf : Node → Mark
  | .leaf _ start _ => start
  | .flawed _ start _ => start
  | .array start _ _ => start
  | .object start _ _ => start
  | .torn start _ => start
  | .absent t => t.fault.place

end ModelSchema.Api
