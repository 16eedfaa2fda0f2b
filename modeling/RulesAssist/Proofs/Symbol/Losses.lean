import RulesAssist.Proofs.Grammar.Warning
import RulesAssist.Proofs.Symbol.Chronicle
import RulesAssist.Proofs.Symbol.Inclusion

/-! What a compilation leaves out is reported by the warnings.

The warnings look for names that lead back to themselves in a graph, and the compilation leaves out what it
meets while it is under way. What is under way leads to everything that is asked for meanwhile, so what is
left out lies on a circle of the graph. Modifiers are compiled by their places and reported by their names.
-/

set_option autoImplicit false

namespace RulesAssist

namespace Grammar

variable {grammar : Grammar}

end Grammar

namespace ModifierSymbol

variable {grammar : Grammar} {place : Nat} {modifier : ModifierDecl}

end ModifierSymbol

namespace Workshop

variable {grammar : Grammar}

end Workshop

end RulesAssist
