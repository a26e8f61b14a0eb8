import Concord.Module
import Concord.PlainText.Blueprint
/-!
Sample catalogs: one whose backends agree, with a debug-only toolchain beside them; one with a
backend that cannot be constructed; and one that binds a contract to a backend without the feature
that it requires.
-/

namespace Concord.Samples

open PlainText

def bareClass : String := "class Foo { List<String> x; }"

def importedClass : String := "import java.util.List;\n\nclass Foo { List<String> x; }"

/-- An import is added where it is missing and only there. -/
def addImport : Registration kit :=
  .contract "AddImport"
    [⟨"adds-missing-import", bareClass, .addImport "java.util.List", importedClass, none⟩,
     ⟨"keeps-existing-import", importedClass, .addImport "java.util.List", importedClass, none⟩]
    ["imports"]

/-- Every line that mentions a type is marked, and the text stays. -/
def findType : Registration kit :=
  let source := "import java.util.List;\nclass Foo { List<String> x; }"
  .contract "FindType"
    [⟨"marks-list-usage", source, .findType "List", source,
      some ["found List at line 1", "found List at line 2"]⟩]
    ["generics"]

def backend (identity : String) (level : Int) (b : Blueprint) (tag : Nat)
    (description : String) : Registration kit :=
  .backend ⟨identity, features level, b.construct tag, description⟩

def plain (identity : String) (level : Int) (tag : Nat) (description : String) : Registration kit :=
  backend identity level (.parser level defaultCharset .plain) tag description

def bind (backend : String) (contracts : List String) : Registration kit :=
  .binding ⟨backend, contracts, false, none⟩

def demo : Module kit :=
  .catalog
    [addImport, findType, plain "V8" 8 0 "", plain "V11" 11 1 "",
     plain "InternalToolchain" 11 2 "needs the proprietary toolchain on the path",
     .probe "InternalToolchain" ((Answering.always (.bool false)).probe 3),
     bind "V8" ["AddImport", "FindType"], bind "V11" ["AddImport", "FindType"],
     .binding ⟨"InternalToolchain", ["AddImport"], true, none⟩]

def failing : Module kit :=
  .catalog
    [addImport, plain "V8" 8 0 "",
     backend "Broken" 8 (.raising (.breakdown .runtime "toolchain missing")) 1 "",
     bind "V8" ["AddImport"], bind "Broken" ["AddImport"]]

def unsupported : Module kit :=
  .catalog
    [.contract "LocalVariableTypeInference"
       [⟨"var-kept", "var x = 1;", .identity, "var x = 1;", none⟩] ["var"],
     plain "V8" 8 0 "", bind "V8" ["LocalVariableTypeInference"]]

def modules : List (String × Module kit) :=
  [("samples.demo", demo), ("samples.failing", failing), ("samples.unsupported", unsupported)]

end Concord.Samples
