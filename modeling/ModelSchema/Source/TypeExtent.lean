import ModelSchema.Source.Reader

namespace ModelSchema.Source

namespace Reader

def invocation : Reader Unit
  | .mark '!' _ :: .group _ _ :: rest => .ok ((), rest)
  | ts => .ok ((), ts)

mutual

def type : Nat → Reader Unit
  | 0 => fail .type
  | fuel + 1 => fun ts =>
    match ts with
    | [] => fail .type ts
    | .group .paren _ :: rest => bounds fuel rest
    | .group .bracket _ :: rest => .ok ((), rest)
    | .lifetime _ :: rest => bounds fuel rest
    | .mark '!' _ :: rest => .ok ((), rest)
    | .mark '*' _ :: rest =>
      if begins (fun t => t.isWord "mut" || t.isWord "const") rest then type fuel (rest.drop 1)
      else fail .pointee rest
    | .mark '&' _ :: rest =>
      (do
        let _ ← skip (· matches .lifetime _)
        let _ ← skip (·.isWord "mut")
        type fuel) rest
    | .mark '<' _ :: rest => (do angles; segments fuel) rest
    | .mark _ _ :: _ =>
      match afterColons? ts with
      | some rest => typePath fuel rest
      | none => fail .type ts
    | t :: rest =>
      if t.isWord "_" then .ok ((), rest)
      else if t.isWord "dyn" || t.isWord "impl" then bound fuel rest
      else if t.isWord "unsafe" then type fuel rest
      else if t.isWord "extern" then
        (do
          let _ ← skip (· matches .literal (.string _) _)
          type fuel) rest
      else if t.isWord "for" then (do mark '<'; angles; type fuel) rest
      else if t.isWord "fn" then
        (do
          let _ ← bracket .paren .parentheses
          result fuel) rest
      else if t.isSegment then typePath fuel ts
      else fail .type ts

def typePath : Nat → Reader Unit
  | 0 => fail .identifier
  | fuel + 1 => fun ts =>
    match ts with
    | t :: rest => if t.isSegment then (do segments fuel; invocation; bounds fuel) rest
      else fail .identifier ts
    | [] => fail .identifier ts

def segments : Nat → Reader Unit
  | 0 => return
  | fuel + 1 => fun ts =>
    match ts with
    | .mark '<' _ :: rest => (do angles; segments fuel) rest
    | .group .paren _ :: rest => result fuel rest
    | _ =>
      match afterColons? ts with
      | none => .ok ((), ts)
      | some rest =>
        if begins Token.isSegment rest then segments fuel (rest.drop 1)
        else if begins (·.isMark '<') rest then segments fuel rest
        else fail .identifier rest

def result : Nat → Reader Unit
  | 0 => return
  | fuel + 1 => fun ts =>
    match ts with
    | .mark '-' true :: .mark '>' _ :: rest => type fuel rest
    | _ => .ok ((), ts)

def bound : Nat → Reader Unit
  | 0 => fail .type
  | fuel + 1 => fun ts =>
    match ts with
    | .lifetime _ :: rest => bounds fuel rest
    | .mark '?' _ :: rest => bound fuel rest
    | _ => type fuel ts

def bounds : Nat → Reader Unit
  | 0 => return
  | fuel + 1 => fun ts =>
    match ts with
    | .mark '+' _ :: rest => bound fuel rest
    | _ => .ok ((), ts)

end

end Reader

def readType : Reader (List Token) :=
  fun ts => Reader.extent (Reader.type (4 * ts.length + 4)) ts

def pathTokens? (ts : List Token) : Option (List Token) :=
  let names := (afterColons? ts).getD ts
  match Reader.all (Reader.segments (4 * ts.length + 4)) (names.drop 1) with
  | .ok () => if begins Token.isSegment names then some ts else none
  | .error _ => none

end ModelSchema.Source
