/-!
# Identifiers bound to packages

An identifier is a Go name together with the import path of the package that declares it.
-/

namespace RpcAdapters

structure Ident where
  name : String
  importPath : String
  deriving DecidableEq, Repr, Inhabited

/-- the import path, a dot and the name -/
def Ident.text (i : Ident) : String := i.importPath ++ "." ++ i.name

end RpcAdapters
