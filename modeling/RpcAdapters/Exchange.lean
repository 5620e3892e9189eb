import RpcAdapters.Report.Log
import RpcAdapters.Wire.Response

/-!
# The exchange with a schema compiler

The compiler writes a request to a plugin's standard input and reads a response from its standard
output.

* `Request.respond`   the response to a request, and what there is to report about it;
* `exchange`          the same on bytes.  Only a request that cannot be read makes it fail; whatever goes
                      wrong later is told to the compiler in the response.
-/

namespace RpcAdapters

structure Answer where
  response : Response
  report : List Report.Entry := []

/-- under a schema compiler only warnings are of interest, unless the options ask for more -/
def Plan.verbosity (p : Plan) : Verbosity := if p.verbose then .verbose else .warnings

def Request.generate (r : Request) : Except GenerationError (Plan × Generation) := do
  let plan ← r.plan
  let generation ← plan.generate
  return (plan, generation)

def Request.respond (r : Request) : Answer :=
  match r.generate with
  | .ok (plan, generation) =>
    { response := .ofGeneration generation, report := plan.verbosity.report generation.stats }
  | .error e => { response := .ofError e.message }

structure Reply where
  output : List UInt8
  report : List Report.Entry

def exchange (input : List UInt8) : Except Wire.DecodeError Reply := do
  let request ← Request.decode input
  let answer := request.respond
  return { output := answer.response.encode, report := answer.report }

end RpcAdapters
