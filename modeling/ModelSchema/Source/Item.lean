import ModelSchema.Source.Attribute
import ModelSchema.Source.Lexer

namespace ModelSchema.Source

/-- A field; those of a tuple have no name. -/
structure FieldDeclaration where
  attributes : List Attribute
  name : Option Identifier
  type : List Token
  deriving Repr

inductive Body where
  | named (fields : List FieldDeclaration)
  | unnamed (fields : List FieldDeclaration)
  | empty
  deriving Repr

structure VariantDeclaration where
  attributes : List Attribute
  name : Identifier
  body : Body
  deriving Repr

inductive Content where
  | struct (body : Body)
  | enumeration (variants : List VariantDeclaration)
  | union
  deriving Repr

structure Item where
  attributes : List Attribute
  name : Identifier
  isGeneric : Bool
  content : Content
  deriving Repr

namespace Reader

def isScope : List Token → Bool
  | [t] => t.isWord "crate" || t.isWord "self" || t.isWord "super"
  | t :: _ => t.isWord "in"
  | [] => false

def visibility : Reader Unit := do
  if ← skip (·.isWord "pub") then
    let _ ← skip fun
      | .group .paren inner => isScope inner
      | _ => false

def parameters : Reader Bool := do
  if ← skip (·.isMark '<') then
    return !(← extent angles).dropLast.isEmpty
  return false

def conditions : Reader Bool := do
  if ← skip (·.isWord "where") then
    modify fun ts => ts.dropWhile fun t => !(t matches .group .brace _) && !t.isMark ';'
    return true
  return false

def namedField : Reader FieldDeclaration := do
  let attributes ← readAttributes
  visibility
  let name ← identifier
  mark ':'
  return ⟨attributes, some name, ← readType⟩

def unnamedField : Reader FieldDeclaration := do
  let attributes ← readAttributes
  visibility
  return ⟨attributes, none, ← readType⟩

def variantBody : Reader Body := fun ts =>
  match ts with
  | .group .brace inner :: rest =>
    (list namedField inner).map fun fields => (.named fields, rest)
  | .group .paren inner :: rest =>
    (list unnamedField inner).map fun fields => (.unnamed fields, rest)
  | _ => .ok (.empty, ts)

def variant : Reader VariantDeclaration := do
  let attributes ← readAttributes
  visibility
  let name ← identifier
  let body ← variantBody
  if ← skip (·.isMark '=') then
    let _ ← readExpression
  return ⟨attributes, name, body⟩

def tupleEnd : Reader Unit := do
  if ← conditions then mark ';'
  else if !(← skip (·.isMark ';')) then fail .tupleEnd

def structBody : Reader Body := do
  let hasConditions ← conditions
  let body ← variantBody
  match body with
  | .named _ => return body
  | .unnamed _ =>
    tupleEnd
    return body
  | .empty =>
    if ← skip (·.isMark ';') then return body
    fail (if hasConditions then .bodyAfterWhere else .body)

def enumContent : Reader Content := do
  let _ ← conditions
  return .enumeration (← list variant (← bracket .brace .curlyBraces))

def unionContent : Reader Content := do
  let _ ← conditions
  let _ ← list namedField (← bracket .brace .curlyBraces)
  return .union

def item : Reader Item := do
  let attributes ← readAttributes
  visibility
  let content : Reader Content ←
    if ← skip (·.isWord "struct") then pure (Content.struct <$> structBody)
    else if ← skip (·.isWord "enum") then pure enumContent
    else if ← skip (·.isWord "union") then pure unionContent
    else fail .item
  let name ← identifier
  let isGeneric ← parameters
  return ⟨attributes, name, isGeneric, ← content⟩

end Reader

def Item.ofText? (text : List Char) : Except Fault Item :=
  match lex text with
  | some ts => Reader.all Reader.item ts
  | none => .error .unreadable

end ModelSchema.Source
