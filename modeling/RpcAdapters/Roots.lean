import RpcAdapters.Ident
import RpcAdapters.Naming.Layer

/-!
# Where the names of an adapter are declared

An adapter refers to types of the application and to a few fixed packages.  `Roots` holds the import
paths of the application's three packages, a `Role` says how a bare name is used.

* `Roots.resolve role n`   the identifier that `n` stands for in the role; it never fails;
* `Role.layer? n`          the layer, for the roles that the ending of `n` decides about;
* `twirp`, `errors`, `fmt` identifiers of the fixed packages.
-/

namespace RpcAdapters

open Naming

structure Roots where
  domain : String
  useCase : String
  transform : String
  deriving DecidableEq, Repr, Inhabited

inductive Role where
  | domainType
  | useCaseType
  | contextType
  | transformFunction
  | requestParam
  | responsePayload
  deriving DecidableEq, Repr

def Role.text : Role → String
  | .domainType => "domain type"
  | .useCaseType => "use-case dependency type"
  | .contextType => "context type"
  | .transformFunction => "data-transform function"
  | .requestParam => "request parameter type"
  | .responsePayload => "response payload type"

def Role.layer? (name : String) : Role → Option Layer
  | .requestParam => some (requestLayer name)
  | .responsePayload => some (responseLayer name)
  | _ => none

/-! ## fixed packages -/

def contextIdent : Ident := ⟨"Context", "context"⟩

def twirp (name : String) : Ident := ⟨name, "github.com/twitchtv/twirp"⟩

def errors (name : String) : Ident := ⟨name, "errors"⟩

def fmt (name : String) : Ident := ⟨name, "fmt"⟩

/-! ## resolution -/

namespace Roots

def root (r : Roots) : Layer → String
  | .useCase => r.useCase
  | .domain => r.domain

def transformIdent (r : Roots) : Ident := ⟨"Transform", r.transform⟩

def resolve (r : Roots) (role : Role) (name : String) : Ident :=
  match role with
  | .domainType => ⟨name, r.domain⟩
  | .useCaseType => ⟨name, r.useCase⟩
  | .contextType => contextIdent
  | .transformFunction => r.transformIdent
  | .requestParam => ⟨name, r.root (requestLayer name)⟩
  | .responsePayload => ⟨name, r.root (responseLayer name)⟩

end Roots

end RpcAdapters
