import RulesAssist.Grammar.Shipped.BasicTypes
import RulesAssist.Grammar.Shipped.Roots

/-! The grammar that comes with the library: the security rules of Firestore. -/

set_option autoImplicit false

namespace RulesAssist.Shipped

def accessModifiers : List ModifierDecl :=
  [⟨"read", "Allow `get` and `list` operations", some ["get", "list"]⟩,
    ⟨"get", "Corresponds to `get()` query method", none⟩,
    ⟨"list", "Corresponds to `where().get()` query method", none⟩,
    ⟨"write", "Allows `create`, `update` and `delete` operations", some ["create", "update", "delete"]⟩,
    ⟨"create", "Corresponds to `set()` and `add()` query methods", none⟩,
    ⟨"update", "Corresponds to `update()` query method", none⟩,
    ⟨"delete", "Corresponds to `remove()` query method", none⟩]

def grammar : Grammar :=
  { accessModifiers, basicTypes, types := roots }

end RulesAssist.Shipped
