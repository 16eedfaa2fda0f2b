import RulesAssist.Grammar.Declaration
import RulesAssist.Json.Record

/-! Reading a grammar from JSON. -/

set_option autoImplicit false

namespace RulesAssist

open Json

def MethodDecl.reader : Reader MethodDecl :=
  Reader.record ["about", "parameters", "returns"] fun depth slots => do
    let about ← slots.withDefault "about" "" (Reader.string depth)
    let parameters ← slots.withDefault "parameters" none
      (Reader.optional (Reader.list Reader.string) depth)
    let returns ← slots.withDefault "returns" none (Reader.optional Reader.string depth)
    return { about, parameters, returns }

mutual

/-- A type opens one container, and its fields open another one around their types. -/
def TypeDecl.read : Nat → Tree → Option TypeDecl
  | 0, _ => none
  | depth + 1, tree => do
    let slots ← Slots.ofTree? ["about", "methods", "fields", "basicTypeRef"] tree
    let about ← slots.withDefault "about" "" (Reader.string depth)
    let methods ← slots.withDefault "methods" none
      (Reader.optional (Reader.map MethodDecl.reader) depth)
    let fields ← slots.withDefault "fields" none (Reader.optional (fun _ => TypeDecl.readFields depth) depth)
    let basicTypeRef ← slots.withDefault "basicTypeRef" none (Reader.optional Reader.string depth)
    return { about, methods, fields, basicTypeRef }

def TypeDecl.readFields : Nat → Tree → Option (List (String × TypeDecl))
  | 0, _ => none
  | depth + 1, tree => Reader.map (fun _ => TypeDecl.read depth) (depth + 1) tree

end

def ModifierDecl.reader : Reader ModifierDecl :=
  Reader.record ["name", "about", "includeNames"] fun depth slots => do
    let name ← slots.required "name" (Reader.string depth)
    let about ← slots.withDefault "about" "" (Reader.string depth)
    let includeNames ← slots.withDefault "includeNames" none
      (Reader.optional (Reader.list Reader.string) depth)
    return { name, about, includeNames }

namespace Grammar

def reader : Reader Grammar :=
  Reader.record ["accessModifiers", "basicTypes", "types"] fun depth slots => do
    let accessModifiers ← slots.withDefault "accessModifiers" []
      (Reader.list ModifierDecl.reader depth)
    let basicTypes ← slots.withDefault "basicTypes" [] (Reader.map TypeDecl.read depth)
    let types ← slots.withDefault "types" [] (Reader.map TypeDecl.read depth)
    return { accessModifiers, basicTypes, types }

def parse (text : String) : Option Grammar :=
  reader.parse text

end Grammar

end RulesAssist
