import ClientGen.Python.Method

/-! The Python clients: one with every operation, and one with a class per service. -/
namespace ClientGen.Python

structure Service where
  className : String
  /-- The attribute of the grouped client that holds the service. -/
  accessor : String
  methods : List ClientMethod

structure GroupedClient where
  services : List Service
  /-- The methods of the client itself. -/
  root : List ClientMethod

def flatMethods (m : Model) : Except MappingError (List ClientMethod) :=
  m.flatOperations.map (·.map (.of m))

def Service.of (m : Model) (name : String) (ops : List Api.Operation) : Service where
  className := serviceClassName name
  accessor := ident (Name.ofText name).snake
  methods := ops.map (.of m)

namespace GroupedClient

def of (m : Model) : Except MappingError GroupedClient :=
  m.services.map fun groups =>
    ⟨groups.map fun (name, ops) => .of m name ops, m.rootOperations.map (.of m)⟩

def methods (g : GroupedClient) : List ClientMethod := g.services.flatMap (·.methods) ++ g.root

end GroupedClient

/-- The declared types that methods mention, sorted. -/
def importedTypes (methods : List ClientMethod) : List String :=
  sortTexts ((methods.flatMap (·.namedTypes)).foldl addNew [])

/-- The stream decoders that methods call, sorted. -/
def importedDecoders (methods : List ClientMethod) : List String :=
  sortTexts ((methods.filterMap fun c => c.stream.map decoder).foldl addNew [])

def importFrom (module : String) (names : List String) : Lines :=
  if names.isEmpty then [] else ["from " ++ module ++ " import " ++ ", ".intercalate names]

def importLines (methods : List ClientMethod) : Lines :=
  Lines.apart [
    ["from __future__ import annotations"],
    ["from typing import Any, Iterator  # noqa: F401"],
    ["import requests"],
    ["from .runtime import ApiClientConfig, Transport"]
      ++ importFrom ".streaming" (importedDecoders methods)
      ++ importFrom ".types" (importedTypes methods)]

def setToken : Lines :=
  ["def set_token(self, token: str | None) -> None:",
    "    self._transport.set_token(token)"]

def initLines (extra : Lines) : Lines :=
  ["def __init__(",
    "    self,",
    "    config: ApiClientConfig | None = None,",
    "    *,",
    "    session: requests.Session | None = None,",
    ") -> None:"]
    ++ Lines.indent 4 ("self._transport = Transport(config, session)" :: extra)

/-- The methods of a class, each after an empty line. -/
def methodLines (o : Options) (methods : List ClientMethod) : Lines :=
  methods.flatMap fun c => "" :: c.lines o

/-- A class after two empty lines. -/
def classLines (name : String) (body : Lines) : Lines :=
  ["", "", "class " ++ name ++ ":"] ++ Lines.indent 4 body

def titleDoc (m : Model) (o : Options) (what : String) : Lines :=
  o.docs ["\"\"\"" ++ docText m.info.title ++ " client with " ++ what ++ ".\"\"\"", ""]

def flatClass (m : Model) (o : Options) (methods : List ClientMethod) : Lines :=
  classLines "ApiClient"
    (titleDoc m o "one method per operation"
      ++ Lines.apart [initLines [], setToken] ++ methodLines o methods)

def Service.lines (o : Options) (s : Service) : Lines :=
  classLines s.className
    (["def __init__(self, transport: Transport) -> None:",
      "    self._transport = transport"] ++ methodLines o s.methods)

def groupedClass (m : Model) (o : Options) (g : GroupedClient) : Lines :=
  let assignments := g.services.map fun s =>
    "self." ++ s.accessor ++ " = " ++ s.className ++ "(self._transport)"
  classLines "ServiceClient"
    (titleDoc m o "operations grouped by service"
      ++ Lines.apart [initLines assignments, setToken] ++ methodLines o g.root)

def clientHead (m : Model) (methods : List ClientMethod) : Lines :=
  Lines.apart [[Lines.header "#" [m.info.title]], importLines methods]

def flatClient (m : Model) (o : Options) : Except MappingError Lines := do
  let methods ← flatMethods m
  return clientHead m methods ++ flatClass m o methods

def serviceClient (m : Model) (o : Options) : Except MappingError Lines := do
  let g ← GroupedClient.of m
  return clientHead m g.methods ++ g.services.flatMap (Service.lines o) ++ groupedClass m o g

end ClientGen.Python
