/-!
# Warnings

Where a schema does not keep to the naming conventions that adapters rely on.  No warning stops
generation; a warning that only states an expected outcome is a note.
-/

namespace RpcAdapters

inductive Warning where
  | serviceWithoutMarker (file service : String)
  | foreignTransportMessage (service method message importPath : String)
  | streamingMethod (service method : String)
  | domainFallback (service method role typeName : String)
  deriving DecidableEq, Repr

namespace Warning

def methodTag (service method : String) : String := "[" ++ service ++ "." ++ method ++ "] "

def text : Warning → String
  | .serviceWithoutMarker file service =>
    file ++ ": service '" ++ service ++
      "' has no 'Service' marker; its use-case dependency keeps the name '" ++ service ++ "'"
  | .foreignTransportMessage service method message importPath =>
    methodTag service method ++ "message '" ++ message ++ "' is declared in '" ++ importPath ++
      "' but is referenced unqualified"
  | .streamingMethod service method =>
    methodTag service method ++ "streaming methods are generated as unary adapters"
  | .domainFallback service method role typeName =>
    methodTag service method ++ role ++ " '" ++ typeName ++
      "' has no use-case suffix; resolved against the domain root"

def isNote : Warning → Bool
  | .domainFallback .. => true
  | _ => false

end Warning

end RpcAdapters
