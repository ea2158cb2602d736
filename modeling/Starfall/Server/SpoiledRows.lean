import Starfall.Common.Spoiled
import Starfall.Server.ConsoleTable

/-! Rows that take every page with them.  `Stringifier::stringify` escapes the quotes of a name with
a backslash, which `Var::parse` does not know: it ends the name at its first quote, and it throws at
what comes then.  Nothing ever takes the row out of the table. -/

namespace Starfall.Messages

open ProofKit ProofKit.Runs Vars

variable (numbers : NumberFormatter) (storage : Storage)

end Starfall.Messages
