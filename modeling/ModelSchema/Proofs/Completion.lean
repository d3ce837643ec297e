import ModelSchema.Proofs.Termination

namespace ModelSchema

namespace Assembly

end Assembly

namespace Proofs.Completion

variable {g : TypeGraph} {s : Settings}

end Proofs.Completion

end ModelSchema
