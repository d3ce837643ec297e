namespace ModelSchema

structure Package where
  path : String
  /-- Empty for the core group. -/
  apiGroup : String
  javaPackage : String
  definitionPrefix : String
  deriving DecidableEq, Inhabited, Repr

namespace Package

def lastSegment (path : List Char) : List Char :=
  (path.reverse.takeWhile (· ≠ '/')).reverse

/-- The version that a package serves is the last segment of its path. -/
def version (p : Package) : String :=
  String.ofList (lastSegment p.path.toList)

def apiVersion (p : Package) : String :=
  if p.apiGroup = "" then p.version else p.apiGroup ++ "/" ++ p.version

end Package

end ModelSchema
