import ClientGen.Python.Package
import ClientGen.TypeScript.Package

/-! Generated packages. -/
namespace ClientGen

/-- A file of a package: its name and its text. -/
structure SourceFile where
  name : String
  text : String
deriving DecidableEq, Repr

def Target.fileName : Target → Artifact → String
  | .typescript => TypeScript.fileName
  | .python => Python.fileName

def Target.render : Target → Model → Options → Artifact → Except GenerateError Lines
  | .typescript => TypeScript.render
  | .python => Python.render

namespace Model

def renderFile (m : Model) (target : Target) (o : Options) (a : Artifact) :
    Except GenerateError SourceFile :=
  (target.render m o a).map fun ls => ⟨target.fileName a, Lines.text ls⟩

/-- Every planned file, or the first failure. -/
def generate (m : Model) (target : Target) (o : Options) : Except GenerateError (List SourceFile) :=
  (m.plan o).mapM (m.renderFile target o)

end Model
end ClientGen
