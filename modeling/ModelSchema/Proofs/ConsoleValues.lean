import ModelSchema.Console
import ModelSchema.Proofs.Completion
import ModelSchema.Proofs.Fitting

namespace ModelSchema

namespace Console

end Console

namespace Proofs.ConsoleValues

open Api Console

end Proofs.ConsoleValues

end ModelSchema
