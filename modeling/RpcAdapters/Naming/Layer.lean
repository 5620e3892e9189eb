import RpcAdapters.Text.Pieces

/-!
# What a name says about the layers of an application

Schemas say nothing about layers, so the ending of a message name decides where its type is
declared, and a service finds its use case by its own name.

* `requestLayer`, `responseLayer`   the layer that declares the type of a request, of a response;
* `hasServiceMarker`, `useCaseName`   a service name with `Service` in it, and the name with the
                                      first `Service` changed into `UseCase`.
-/

namespace RpcAdapters.Naming

inductive Layer where
  | useCase
  | domain
  deriving DecidableEq, Repr

def Layer.text : Layer → String
  | .useCase => "use case"
  | .domain => "domain"

def serviceMarker : List Char := "Service".toList

def useCaseMarker : List Char := "UseCase".toList

def requestSuffixes : List String := ["Param", "Params"]

def responseSuffix : String := "Response"

def requestLayer (typeName : String) : Layer :=
  if requestSuffixes.any fun suffix => Text.endsWith suffix.toList typeName.toList then .useCase
  else .domain

def responseLayer (typeName : String) : Layer :=
  if Text.endsWith responseSuffix.toList typeName.toList then .useCase else .domain

def hasServiceMarker (serviceName : String) : Bool :=
  Text.contains serviceMarker serviceName.toList

def useCaseName (serviceName : String) : String :=
  String.ofList (Text.replaceFirst serviceMarker useCaseMarker serviceName.toList)

end RpcAdapters.Naming
