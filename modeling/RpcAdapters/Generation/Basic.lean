import RpcAdapters.Generation.Stats
import RpcAdapters.Options.Basic
import RpcAdapters.Schema.Build
import RpcAdapters.Source.Render
import RpcAdapters.SourceUnit.Emit

/-!
# Generation

* `Plan`              the schema files of a request with its options;
* `Request.plan`      reads the options and builds the schema;
* `Plan.generate`     one Go file for each eligible schema file, in order, or the first error;
* `GenerationError`   what can go wrong on the way, with its wording `message`.
-/

namespace RpcAdapters

/-! ## errors -/

inductive GenerationError where
  | options (e : OptionsError)
  | schema (e : SchemaError)
  | layout (e : LayoutError)
  | render (e : RenderError)
  deriving DecidableEq, Repr

def GenerationError.message : GenerationError → String
  | .options e => e.message
  | .schema e => e.message
  | .layout e => e.message
  | .render e => e.message

/-! ## plans -/

structure Plan where
  files : List SchemaFile
  roots : Roots
  layout : Layout := {}
  verbose : Bool := false

def Request.plan (r : Request) : Except GenerationError Plan := do
  let o ← (Options.parse r.parameter).mapError .options
  let files ← (buildSchema r.files r.filesToGenerate o.overrides).mapError .schema
  return { files, roots := o.roots, layout := o.layout, verbose := o.verbose }

/-! ## generated files -/

structure GeneratedFile where
  name : String
  content : String
  deriving DecidableEq, Repr, Inhabited

/-- the outcome of a generation -/
structure Generation where
  files : List GeneratedFile
  stats : Stats
  deriving DecidableEq, Repr

/-- what one schema file leads to -/
structure Product where
  unit : SourceUnit
  warnings : List Warning
  content : String
  deriving DecidableEq, Repr

def Product.file (p : Product) : GeneratedFile := ⟨p.unit.fileName, p.content⟩

def Stats.addProduct (s : Stats) (p : Product) : Stats := (s.addUnit p.unit).addWarnings p.warnings

namespace Plan

def eligibleFiles (p : Plan) : List SchemaFile := p.files.filter SchemaFile.eligible

def product (p : Plan) (f : SchemaFile) : Except GenerationError Product := do
  let name ← (p.layout.fileName f).mapError .layout
  let unit := f.unit p.roots name
  let content ← unit.render.mapError .render
  return { unit, warnings := f.warnings, content }

def generate (p : Plan) : Except GenerationError Generation := do
  let products ← p.eligibleFiles.mapM p.product
  return {
    files := products.map Product.file
    stats := products.foldl Stats.addProduct (Stats.scan {} p.files.length) }

end Plan

end RpcAdapters
