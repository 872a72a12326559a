import ClientGen.TypeScript.Method

/-! The TypeScript clients: one with every operation, and one with a class per service. -/
namespace ClientGen.TypeScript

structure Service where
  className : String
  /-- The property of the grouped client that holds the service. -/
  accessor : String
  methods : List ClientMethod

structure GroupedClient where
  services : List Service
  /-- The methods of the client itself. -/
  root : List ClientMethod

def flatMethods (m : Model) : Except MappingError (List ClientMethod) :=
  m.flatOperations.map (·.map (.of m))

def Service.of (m : Model) (name : String) (ops : List Api.Operation) : Service where
  className := serviceClassName name
  accessor := ident (Name.ofText name).camel
  methods := ops.map (.of m)

namespace GroupedClient

def of (m : Model) : Except MappingError GroupedClient :=
  m.services.map fun groups =>
    ⟨groups.map fun (name, ops) => .of m name ops, m.rootOperations.map (.of m)⟩

def methods (g : GroupedClient) : List ClientMethod := g.services.flatMap (·.methods) ++ g.root

end GroupedClient

/-- The declared types that methods mention, sorted. -/
def importedTypes (methods : List ClientMethod) : List String :=
  sortTexts ((methods.flatMap (·.namedTypes)).foldl addNew [])

/-- The stream decoders that methods call, sorted. -/
def importedDecoders (methods : List ClientMethod) : List String :=
  sortTexts ((methods.filterMap fun c => c.stream.map decoder).foldl addNew [])

def importLines (methods : List ClientMethod) : Lines :=
  let types := importedTypes methods
  let decoders := importedDecoders methods
  ["import \x7b type ClientConfig, type RequestOptions, Transport \x7d from \"./runtime\";"]
    ++ (if decoders.isEmpty then []
        else ["import " ++ braces ", " decoders ++ " from \"./streaming\";"])
    ++ (if types.isEmpty then []
        else ["import type " ++ braces ", " types ++ " from \"./types\";"])

def setToken : Lines :=
  block "setToken(token: string | undefined): void" ["this.transport.setToken(token);"]

def constructorLines (extra : Lines) : Lines :=
  block "constructor(config: ClientConfig = \x7b\x7d)"
    ("this.transport = new Transport(config);" :: extra)

/-- The methods of a class, each after an empty line. -/
def methodLines (o : Options) (methods : List ClientMethod) : Lines :=
  methods.flatMap fun c => "" :: c.lines o

def flatClass (o : Options) (methods : List ClientMethod) : Lines :=
  block "export class ApiClient"
    (Lines.apart [["private readonly transport: Transport;"], constructorLines [], setToken]
      ++ methodLines o methods)

def Service.lines (o : Options) (s : Service) : Lines :=
  block ("export class " ++ s.className)
    ("constructor(private readonly transport: Transport) \x7b\x7d" :: methodLines o s.methods)

def groupedClass (o : Options) (g : GroupedClient) : Lines :=
  let properties := g.services.map fun s => "readonly " ++ s.accessor ++ ": " ++ s.className ++ ";"
  let assignments := g.services.map fun s =>
    "this." ++ s.accessor ++ " = new " ++ s.className ++ "(this.transport);"
  block "export class ServiceClient"
    (Lines.apart ["private readonly transport: Transport;" :: properties,
        constructorLines assignments, setToken]
      ++ methodLines o g.root)

def titleComment (m : Model) (o : Options) (what : String) : Lines :=
  o.docs ["/** " ++ comment m.info.title ++ " client with " ++ what ++ ". */"]

def flatClient (m : Model) (o : Options) : Except MappingError Lines := do
  let methods ← flatMethods m
  return Lines.apart [
    [Lines.header "//" [m.info.title]],
    importLines methods,
    titleComment m o "one method per operation" ++ flatClass o methods]

def serviceClient (m : Model) (o : Options) : Except MappingError Lines := do
  let g ← GroupedClient.of m
  return Lines.apart <|
    [[Lines.header "//" [m.info.title]], importLines g.methods] ++ g.services.map (Service.lines o)
      ++ [titleComment m o "operations grouped by service" ++ groupedClass o g]

end ClientGen.TypeScript
