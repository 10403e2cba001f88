/-! # Sample modules

Sources that show what the module language can do. -/

namespace CodeCache.Sample

def answer : String := "export default 42;"

/-- Imports one blob, by the given specifier, and the package `cfg`. -/
def fanOut (dep : String) : String :=
  "import dep from \"" ++ dep ++ "\";\n" ++
  "import cfg, \x7b foo, bar \x7d from \"cfg\";\n" ++
  "export const fromDep = dep;\n" ++
  "export const first = foo;\n" ++
  "export const second = bar;\n" ++
  "export default cfg;\n"

def greeting : String :=
  "const name = \"bytecache\";\n" ++
  "export const greeting = \x7b hello: name \x7d;\n" ++
  "export default \"hi\";\n"

def readsGlobal : String := "export default answer;"

def throws : String := "export const before = 1;\nthrow \"kaboom\";\n"

def syntaxError : String := "export default"

end CodeCache.Sample
