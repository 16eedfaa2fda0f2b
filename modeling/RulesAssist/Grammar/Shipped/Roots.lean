import RulesAssist.Grammar.Declaration

/-! The types that a rule expression starts from. -/

set_option autoImplicit false

namespace RulesAssist.Shipped

def globalRoot : TypeDecl :=
  { about := "Globally defined methods"
    methods := some [
      ("exists", ⟨"Check if a document exists.", some ["path"], some "boolean"⟩),
      ("existsAfter", ⟨"Check if a document exists, assuming the current request succeeds. " ++
        "Equivalent to `getAfter(path) != null`.", some ["path"], some "boolean"⟩),
      ("get", ⟨"Get the contents of a firestore document.", some ["path"], some "resource"⟩),
      ("getAfter", ⟨"Get the projected contents of a document. The document is returned as if " ++
        "the current request had succeeded. Useful for validating documents that are part of " ++
        "a batched write or transaction.", some ["path"], some "resource"⟩),
      ("debug", ⟨"A basic debug function that prints Security Rules language objects, " ++
        "variables and statement results as they are being evaluated by the Security Rules " ++
        "engine. The outputs of `debug` are written to `firestore-debug.log`.", none, none⟩),
      ("bool", ⟨"Strings can be converted into booleans using the `bool()` function.",
        none, some "boolean"⟩),
      ("float", ⟨"String and integer values can be converted to float values using the " ++
        "`float()` function.", none, some "float"⟩),
      ("int", ⟨"String and float values can be converted to integers using the `int()` function.",
        none, some "integer"⟩),
      ("path", ⟨"String values can be converted to path using the `path()` function.",
        none, some "path"⟩),
      ("string", ⟨"Boolean, integer, float, and null values can be converted into strings " ++
        "using the `string()` function.", none, some "string"⟩)]
    fields := none
    basicTypeRef := none }

def durationRoot : TypeDecl :=
  { about := "Globally available duration functions. These functions are accessed using the " ++
      "`duration.` prefix."
    methods := some [
      ("abs", ⟨"Absolute value of a duration.", some ["duration"], some "duration"⟩),
      ("time", ⟨"Create a duration from hours, minutes, seconds, and nanoseconds.",
        some ["integer", "integer", "integer", "integer"], some "duration"⟩),
      ("value", ⟨"Create a duration from a numeric magnitude and string unit.",
        some ["integer", "string"], some "duration"⟩)]
    fields := none
    basicTypeRef := none }

def hashingRoot : TypeDecl :=
  { about := "Globally available hashing functions. These functions are accessed using the " ++
      "`hashing.` prefix."
    methods := some [
      ("crc32", ⟨"Compute a hash using the CRC32 algorithm.",
        some ["bytes or string"], some "bytes"⟩),
      ("crc32c", ⟨"Compute a hash using the CRC32C algorithm.",
        some ["bytes or string"], some "bytes"⟩),
      ("md5", ⟨"Compute a hash using the MD5 algorithm.", some ["bytes or string"], some "bytes"⟩),
      ("sha256", ⟨"Compute a hash using the SHA256 algorithm.",
        some ["bytes or string"], some "bytes"⟩)]
    fields := none
    basicTypeRef := none }

def latlngRoot : TypeDecl :=
  { about := "Globally available latitude-longitude functions. These functions are accessed " ++
      "using the `latlng.` prefix."
    methods := some [
      ("value", ⟨"Create a LatLng from floating point coordinates.",
        some ["float", "float"], some "latlng"⟩)]
    fields := none
    basicTypeRef := none }

def mathRoot : TypeDecl :=
  { about := "Globally available mathematical functions. These functions are accessed using " ++
      "the `math.` prefix and operate on numerical values."
    methods := some [
      ("abs", ⟨"Absolute value of a numeric value.", some ["number"], some "number"⟩),
      ("ceil", ⟨"Ceiling of the numeric value.", some ["number"], some "integer"⟩),
      ("floor", ⟨"Floor of the numeric value.", some ["number"], some "integer"⟩),
      ("isInfinite", ⟨"Test whether the value is ±∞.", some ["number"], some "bool"⟩),
      ("isNaN", ⟨"Test whether the value is NaN", some ["number"], some "bool"⟩),
      ("pow", ⟨"Return the value of the first argument raised to the power of the second " ++
        "argument.", some ["number", "number"], some "float"⟩),
      ("round", ⟨"Round the input value to the nearest int.", some ["number"], some "integer"⟩),
      ("sqrt", ⟨"Square root of the input value.", some ["number"], some "float"⟩)]
    fields := none
    basicTypeRef := none }

def timestampRoot : TypeDecl :=
  { about := "Globally available timestamp functions. These functions are accessed using the " ++
      "`timestamp.` prefix."
    methods := some [
      ("date", ⟨"Make a timestamp from a year, month, and day.",
        some ["integer", "integer", "integer"], some "timestamp"⟩),
      ("value", ⟨"Make a timestamp from an epoch time in milliseconds.",
        some ["integer"], some "timestamp"⟩)]
    fields := none
    basicTypeRef := none }

def requestRoot : TypeDecl :=
  { about := "The incoming request context."
    methods := none
    fields := none
    basicTypeRef := some "request" }

def resourceRoot : TypeDecl :=
  { about := "The firestore document being read or written."
    methods := none
    fields := none
    basicTypeRef := some "resource" }

def roots : List (String × TypeDecl) :=
  [("global", globalRoot),
    ("duration", durationRoot),
    ("hashing", hashingRoot),
    ("latlng", latlngRoot),
    ("math", mathRoot),
    ("timestamp", timestampRoot),
    ("request", requestRoot),
    ("resource", resourceRoot)]

end RulesAssist.Shipped
