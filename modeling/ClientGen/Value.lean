/-! The values that this library writes, in any text format. -/
namespace ClientGen

inductive Value where
  | null
  | text (s : String)
  | list (items : List Value)
  /-- The keys are plain words. -/
  | object (members : List (String × Value))

end ClientGen
