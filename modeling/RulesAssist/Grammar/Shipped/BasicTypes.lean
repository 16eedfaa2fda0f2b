import RulesAssist.Grammar.Declaration

/-! The basic types of the rules language. -/

set_option autoImplicit false

namespace RulesAssist.Shipped

def booleanBasic : TypeDecl :=
  { about := "Primitive type representing a boolean value, true or false."
    methods := none
    fields := none
    basicTypeRef := none }

def bytesBasic : TypeDecl :=
  { about := "Byte literals are specified using a b declaration prefix followed by bytes " ++
      "represented as a sequence of characters, two-place hexadecimal values (for example, " ++
      "`b'\\x0F'`, not `b'\\xF'`), or three-place octal values (for example, `b'\\000'`, not " ++
      "`b'\\0'`). Character sequences are interpreted as UTF-8 encoded strings."
    methods := some [
      ("size", ⟨"Returns the number of bytes in a Bytes sequence.", some [], some "integer"⟩),
      ("toBase64", ⟨"Returns the Base64-encoded string corresponding to the provided Bytes " ++
        "sequence.", some [], some "string"⟩),
      ("toHexString", ⟨"Returns the hexadecimal-encoded string corresponding to the provided " ++
        "Bytes sequence.", some [], some "string"⟩)]
    fields := none
    basicTypeRef := none }

def durationBasic : TypeDecl :=
  { about := "Duration values are represented as seconds plus fractional seconds in nanoseconds."
    methods := some [
      ("seconds", ⟨"The number of seconds in the current duration. Must be between " ++
        "-315,576,000,000 and +315,576,000,000 inclusive.", some [], some "integer"⟩),
      ("nanos", ⟨"The number of fractional seconds (in nanoseconds) of the current duration. " ++
        "Must be beween -999,999,999 and +999,999,999 inclusive. For non-zero seconds and " ++
        "non-zero nanonseconds, the signs of both must be in agreement.",
        some [], some "integer"⟩)]
    fields := none
    basicTypeRef := none }

def floatBasic : TypeDecl :=
  { about := "Primitive type representing a 64-bit IEEE floating point number."
    methods := none
    fields := none
    basicTypeRef := none }

def integerBasic : TypeDecl :=
  { about := "Primitive type representing a signed 64-bit integer value."
    methods := none
    fields := none
    basicTypeRef := none }

def latlngBasic : TypeDecl :=
  { about := "Type representing a geopoint."
    methods := some [
      ("distance", ⟨"Calculate distance between two LatLng points in distance (meters).",
        some ["latlng"], some "float"⟩),
      ("latitude", ⟨"Get the latitude value in the range [-90.0, 90.0].", some [], some "float"⟩),
      ("longitude", ⟨"Get the longitude value in the range [-180.0, 180.0].",
        some [], some "float"⟩)]
    fields := none
    basicTypeRef := none }

def listBasic : TypeDecl :=
  { about := "List type. Items are not necessarily homogenous."
    methods := some [
      ("concat", ⟨"Create a new list by adding the elements of another list to the end of " ++
        "this list.", some ["list"], some "list"⟩),
      ("hasAll", ⟨"Determine whether the list contains all elements in another list.",
        some ["list"], some "boolean"⟩),
      ("hasAny", ⟨"Determine whether the list contains any element in another list.",
        some ["list"], some "boolean"⟩),
      ("hasOnly", ⟨"Determine whether all elements in the list are present in another list.",
        some ["list"], some "boolean"⟩),
      ("join", ⟨"Join the elements in the list into a string, with a separator.",
        some ["string"], some "string"⟩),
      ("removeAll", ⟨"Create a new list by removing the elements of another list from this list.",
        some ["list"], none⟩),
      ("size", ⟨"Get the number of values in the list.", some [], some "integer"⟩),
      ("toSet", ⟨"Returns a set containing all unique elements in the list.\n\nIn case that " ++
        "two or more elements are equal but non-identical, the result set will only contain " ++
        "the first element in the list. The remaining elements are discarded.",
        some [], some "set"⟩)]
    fields := none
    basicTypeRef := none }

def mapBasic : TypeDecl :=
  { about := "Map type, used for simple key-value mappings.\n\nKeys must be of type String."
    methods := some [
      ("diff", ⟨"Return a `MapDiff` representing the result of comparing the current Map to a " ++
        "comparison Map.", some ["map"], some "mapdiff"⟩),
      ("get", ⟨"Returns the value associated with a given search key string.\n\nFor nested " ++
        "Maps, involving keys and sub-keys, returns the value associated with a given sub-key " ++
        "string. The sub-key is identified using a list, the first item of which is a " ++
        "top-level key and the last item the sub-key whose value is to be looked up and " ++
        "returned. See the nested Map example below.\n\nThe function requires a default value " ++
        "to return if no match to the given search key is found.",
        some ["string or list", "default_value"], some "value"⟩),
      ("keys", ⟨"Get the list of keys in the map.", some [], some "list"⟩),
      ("size", ⟨"Get the number of entries in the map.", some [], some "integer"⟩),
      ("values", ⟨"Get the list of values in the map.", some [], some "list"⟩)]
    fields := none
    basicTypeRef := none }

def mapdiffBasic : TypeDecl :=
  { about := "The MapDiff type represents the result of comparing two Map objects.\n\nThere " ++
      "is no MapDiff literal for use in creating diffs. MapDiff objects are returned by calls " ++
      "to the `Map#diff` function."
    methods := some [
      ("addedKeys", ⟨"Returns a Set, which lists any keys that the Map calling `diff()` " ++
        "contains that the Map passed to `diff()` does not.", some [], some "set"⟩),
      ("affectedKeys", ⟨"Returns a Set, which lists any keys that have been added to, removed " ++
        "from or modified from the Map calling `diff()` compared to the Map passed to " ++
        "`diff()`. This function returns the set equivalent to the combined results of " ++
        "`MapDiff.addedKeys()`, `MapDiff.removedKeys()` and `MapDiff.changedKeys()`.",
        some [], some "set"⟩),
      ("changedKeys", ⟨"Returns a Set, which lists any keys that appear in both the Map " ++
        "calling `diff()` and the Map passed to `diff()`, but whose values are not equal.",
        some [], some "set"⟩),
      ("removedKeys", ⟨"Returns a Set, which lists any keys that the Map calling `diff()` " ++
        "does not contain compared to the Map passed to `diff()`.", some [], some "set"⟩),
      ("unchangedKeys", ⟨"Returns a Set, which lists any keys that appear in both the Map " ++
        "calling `diff()` and the Map passed to `diff()`, and whose values are equal.",
        some [], some "set"⟩)]
    fields := none
    basicTypeRef := none }

def numberBasic : TypeDecl :=
  { about := "A value of type Integer or type Float"
    methods := none
    fields := none
    basicTypeRef := none }

def pathBasic : TypeDecl :=
  { about := "Directory-like pattern for the location of a resource."
    methods := some [
      ("bind", ⟨"Bind key-value pairs in a map to a path.", some ["map"], some "path"⟩)]
    fields := none
    basicTypeRef := none }

def requestBasic : TypeDecl :=
  { about := "The incoming request context."
    methods := none
    fields := some [
      ("auth",
        { about := "Request authentication context."
          methods := none
          fields := some [
            ("uid",
              { about := "The UID of the requesting user."
                methods := none
                fields := none
                basicTypeRef := some "string" }),
            ("token",
              { about := "A map of JWT token claims."
                methods := none
                fields := some [
                  ("email",
                    { about := "The email address associated with the account, if present."
                      methods := none
                      fields := none
                      basicTypeRef := some "string" }),
                  ("email_verified",
                    { about := "`true` if the user has verified they have access to the " ++
                        "`email` address."
                      methods := none
                      fields := none
                      basicTypeRef := some "boolean" }),
                  ("phone_number",
                    { about := "The phone number associated with the account, if present."
                      methods := none
                      fields := none
                      basicTypeRef := some "string" }),
                  ("name",
                    { about := "The user's display name, if set."
                      methods := none
                      fields := none
                      basicTypeRef := some "string" }),
                  ("sub",
                    { about := "The user's Firebase UID. This is unique within a project."
                      methods := none
                      fields := none
                      basicTypeRef := some "string" }),
                  ("firebase",
                    { about := ""
                      methods := none
                      fields := some [
                        ("identities",
                          { about := "A map of all the identities that are associated with " ++
                              "this user's account. The keys of the map can be any of the " ++
                              "following: `email`, `phone`, `google.com`, `facebook.com`, " ++
                              "`github.com`, `twitter.com`. The values of the map are lists " ++
                              "of unique identifiers for each identitity provider associated " ++
                              "with the account. For example, " ++
                              "`request.auth.token.firebase.identities[\"google.com\"][0]` " ++
                              "contains the first Google user ID associated with the account."
                            methods := none
                            fields := none
                            basicTypeRef := some "map" }),
                        ("sign_in_provider",
                          { about := "The sign-in provider used to obtain this token. Can be " ++
                              "one of the following strings: `custom`, `password`, `phone`, " ++
                              "`anonymous`, `google.com`, `facebook.com`, `github.com`, " ++
                              "`twitter.com`."
                            methods := none
                            fields := none
                            basicTypeRef := some "string" })]
                      basicTypeRef := some "map" })]
                basicTypeRef := some "map" })]
          basicTypeRef := some "map" }),
      ("method",
        { about := "The request method. One of:\n\n- get\n- list\n- create\n- update\n- delete"
          methods := none
          fields := none
          basicTypeRef := some "string" }),
      ("path",
        { about := "Path of the affected resource."
          methods := none
          fields := none
          basicTypeRef := some "path" }),
      ("query",
        { about := "Map of query properties, when present."
          methods := none
          fields := some [
            ("limit",
              { about := "query limit clause"
                methods := none
                fields := none
                basicTypeRef := some "number" }),
            ("offset",
              { about := "query offset clause"
                methods := none
                fields := none
                basicTypeRef := some "number" }),
            ("orderBy",
              { about := "query orderBy clause"
                methods := none
                fields := none
                basicTypeRef := some "string" })]
          basicTypeRef := some "map" }),
      ("resource",
        { about := "The new resource value, present on write requests only."
          methods := none
          fields := none
          basicTypeRef := some "resource" }),
      ("time",
        { about := "When the request was received by the service.\n\nFor Firestore write " ++
            "operations that include server-side timestamps, this time will be equal to the " ++
            "server timestamp."
          methods := none
          fields := none
          basicTypeRef := some "timestamp" })]
    basicTypeRef := none }

def resourceBasic : TypeDecl :=
  { about := "The firestore document being read or written."
    methods := none
    fields := some [
      ("__name__",
        { about := "The full document name, as a path."
          methods := none
          fields := none
          basicTypeRef := some "path" }),
      ("data",
        { about := "Map of the document data."
          methods := none
          fields := none
          basicTypeRef := some "map" }),
      ("id",
        { about := "String of the document's key"
          methods := none
          fields := none
          basicTypeRef := some "string" })]
    basicTypeRef := none }

def setBasic : TypeDecl :=
  { about := "Set type.\n\nA set is an unordered collection. A set cannot contain duplicate " ++
      "items."
    methods := some [
      ("difference", ⟨"Returns a set that is the difference between the set calling " ++
        "`difference()` and the set passed to `difference()`. That is, returns a set " ++
        "containing the elements in the comparison set that are not in the specified " ++
        "set.\n\nIf the sets are identical, returns an empty set (`size() == 0`).",
        some ["set"], some "set"⟩),
      ("hasAll", ⟨"Determine whether the set contains all elements in another set.",
        some ["set"], some "boolean"⟩),
      ("hasAny", ⟨"Determine whether the set contains any element in another set.",
        some ["set"], some "boolean"⟩),
      ("hasOnly", ⟨"Determine whether all elements in the set are present in another set.",
        some ["set"], some "boolean"⟩),
      ("intersection", ⟨"Returns a set that is the intersection between the set calling " ++
        "`intersection()` and the set passed to `intersection()`. That is, returns a set " ++
        "containing the elements the sets have in common.\n\nIf the sets have no elements in " ++
        "common, returns an empty set (`size() == 0`).", some ["set"], some "set"⟩),
      ("size", ⟨"Get the number of values in the set.", some [], some "integer"⟩),
      ("union", ⟨"Returns a set that is the union of the set calling `union()` and the set " ++
        "passed to `union()`. That is, returns a set that contains all elements from both " ++
        "sets.", some ["set"], some "set"⟩)]
    fields := none
    basicTypeRef := none }

def stringBasic : TypeDecl :=
  { about := "Primitive type representing a string value.\n\nStrings can be lexicographically " ++
      "compared using the ==, !=, >, <, >= and <= operators."
    methods := some [
      ("lower", ⟨"Returns a lowercase version of the input string.", some [], some "string"⟩),
      ("matches", ⟨"Performs a regular expression match on the whole string. The regular " ++
        "expression uses Google RE2 syntax.", some ["string"], some "boolean"⟩),
      ("replace", ⟨"Replaces all occurrences of substrings matching a regular expression with " ++
        "a user-supplied string. The regular expression uses Google RE2 syntax.",
        some ["string", "string"], some "string"⟩),
      ("size", ⟨"Returns the number of characters in the string.", some [], some "integer"⟩),
      ("split", ⟨"Splits a string according to a regular expression. The regular expression " ++
        "uses Google RE2 syntax.", some ["string"], some "list"⟩),
      ("toUtf8", ⟨"Returns the UTF-8 byte encoding of a string.", some [], some "bytes"⟩),
      ("trim", ⟨"Returns a version of the string with leading and trailing spaces removed.",
        some [], some "string"⟩),
      ("upper", ⟨"Returns an uppercase version of the input string.", some [], some "string"⟩)]
    fields := none
    basicTypeRef := none }

def timestampBasic : TypeDecl :=
  { about := "A timestamp in UTC with nanosecond accuracy."
    methods := some [
      ("date", ⟨"Timestamp value containing year, month, and day only.",
        some [], some "timestamp"⟩),
      ("day", ⟨"Get the day value of the timestamp.", some [], some "integer"⟩),
      ("dayOfWeek", ⟨"Get the day of the week as a value from 1 to 7.", some [], some "integer"⟩),
      ("dayOfYear", ⟨"Get the day of the year as a value from 1 to 366.",
        some [], some "integer"⟩),
      ("hours", ⟨"Get the hours value of the timestamp.", some [], some "integer"⟩),
      ("minutes", ⟨"Get the minutes value of the timestamp.", some [], some "integer"⟩),
      ("month", ⟨"Get the month value of the timestamp.", some [], some "integer"⟩),
      ("nanos", ⟨"Get the nanos value of the timestamp.", some [], some "integer"⟩),
      ("seconds", ⟨"Get the seconds value of the timestamp.", some [], some "integer"⟩),
      ("time", ⟨"Get the duration value from the time portion of the timestamp.",
        some [], some "duration"⟩),
      ("toMillis", ⟨"Get the time in milliseconds since the epoch.", some [], some "integers"⟩),
      ("year", ⟨"Get the year value of the timestamp.", some [], some "integers"⟩)]
    fields := none
    basicTypeRef := none }

def basicTypes : List (String × TypeDecl) :=
  [("boolean", booleanBasic),
    ("bytes", bytesBasic),
    ("duration", durationBasic),
    ("float", floatBasic),
    ("integer", integerBasic),
    ("latlng", latlngBasic),
    ("list", listBasic),
    ("map", mapBasic),
    ("mapdiff", mapdiffBasic),
    ("number", numberBasic),
    ("path", pathBasic),
    ("request", requestBasic),
    ("resource", resourceBasic),
    ("set", setBasic),
    ("string", stringBasic),
    ("timestamp", timestampBasic)]

end RulesAssist.Shipped
