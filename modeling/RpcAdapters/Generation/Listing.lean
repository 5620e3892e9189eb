import RpcAdapters.Generation.Basic

/-!
# Listings

* `Plan.listings`      one row for each adapter that `Plan.generate` makes, with the identifiers that the
                       adapter refers to;
* `Request.listings`   the rows of a request; that its files have names is not asked for.
-/

namespace RpcAdapters

structure Listing where
  file : String
  service : String
  useCase : String
  method : String
  param : String
  response : String
  deriving DecidableEq, Repr

/-- the cells of a listing in a table -/
def Listing.row (l : Listing) : List String :=
  [l.file, l.service, l.useCase, l.method, l.param, l.response]

def Method.listing (m : Method) (file : String) (s : Service) (r : Roots) : Listing where
  file := file
  service := s.goName
  useCase := (s.useCaseIdent r).text
  method := m.goName
  param := (m.requestIdent r).text
  response := (m.responseIdent r).text

def Service.listings (s : Service) (file : String) (r : Roots) : List Listing :=
  s.methods.map fun m => m.listing file s r

def SchemaFile.listings (f : SchemaFile) (r : Roots) : List Listing :=
  f.services.flatMap fun s => s.listings f.name r

def Plan.listings (p : Plan) : List Listing := p.eligibleFiles.flatMap fun f => f.listings p.roots

def Request.listings (r : Request) : Except GenerationError (List Listing) := do
  let plan ← r.plan
  return plan.listings

end RpcAdapters
