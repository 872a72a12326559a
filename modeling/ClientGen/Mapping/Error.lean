/-! Why the names of a mapping cannot be used. -/
namespace ClientGen

inductive MappingError
  | emptyIdentifier (subject value : String)
  | invalidIdentifier (subject value : String)
  | duplicateMethod (service method first second : String)
  | duplicateSchema (name first second : String)
deriving DecidableEq, Repr

def MappingError.message : MappingError → String
  | emptyIdentifier subject value =>
    "identifier for `" ++ subject ++ "` is empty after sanitizing `" ++ value ++ "`"
  | invalidIdentifier subject value =>
    "identifier for `" ++ subject ++ "` is not valid: `" ++ value ++ "` starts with a digit"
  | duplicateMethod service method first second =>
    "service `" ++ service ++ "` has two operations named `" ++ method ++ "` (`" ++ first
      ++ "` and `" ++ second ++ "`); rename one in the mapping file"
  | duplicateSchema name first second =>
    "schemas `" ++ first ++ "` and `" ++ second ++ "` are both mapped to `" ++ name ++ "`"

end ClientGen
