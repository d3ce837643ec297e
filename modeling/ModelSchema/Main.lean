import ModelSchema.CommandLine

def main (args : List String) : IO UInt32 := do
  let response := ModelSchema.CommandLine.run args
  IO.print response.output
  IO.eprint response.errors
  return response.status
