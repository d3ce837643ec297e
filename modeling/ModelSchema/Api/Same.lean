import ModelSchema.Api.Shape

namespace ModelSchema

mutual

def Json.same : Json → Json → Bool
  | .null, .null => true
  | .bool a, .bool b => a = b
  | .int a, .int b => a = b
  | .float a, .float b => a = b
  | .string a, .string b => a = b
  | .array xs, .array ys => sameItems xs ys
  | .object ms, .object ns => ms.length = ns.length && sameMembers ms ns
  | _, _ => false

def sameItems : List Json → List Json → Bool
  | [], [] => true
  | x :: xs, y :: ys => x.same y && sameItems xs ys
  | _, _ => false

def sameMembers : List (String × Json) → List (String × Json) → Bool
  | [], _ => true
  | (k, v) :: ms, ns =>
    (match Entries.get? ns k with
      | some w => v.same w
      | none => false) && sameMembers ms ns

end

namespace Api

def sameLists {α : Type} (same : α → α → Bool) : List α → List α → Bool
  | [], [] => true
  | x :: xs, y :: ys => same x y && sameLists same xs ys
  | _, _ => false

mutual

def Shape.same : (s : Shape) → s.Value → s.Value → Bool
  | .text, (a : String), (b : String) => a = b
  | .flag, (a : Bool), (b : Bool) => a = b
  | .int64, (a : Int64), (b : Int64) => a = b
  | .moment, (a : Moment), (b : Moment) => a = b
  | .raw, (a : Json), (b : Json) => a.same b
  | .choice _ _ _, a, b => Fin.val a = Fin.val b
  | .list e, a, b => sameLists e.same a b
  | .table e, a, b => sameLists (fun p q => p.1 = q.1 && e.same p.2 q.2) a b
  | .optional _, none, none => true
  | .optional e, some a, some b => e.same a b
  | .optional _, _, _ => false
  | .record _ _ fs, a, b => fs.same a b

def Fields.same : (fs : Fields) → fs.Values → fs.Values → Bool
  | .nil, _, _ => true
  | .own _ s rest, (a, as), (b, bs) => s.same a b && rest.same as bs
  | .spread _ fs rest, (a, as), (b, bs) => fs.same a b && rest.same as bs

end

end Api

end ModelSchema
