import RpcAdapters.Exchange
import RpcAdapters.Files.Path
import RpcAdapters.Files.Tree
import RpcAdapters.Generation.Listing
import RpcAdapters.Report.Table
import RpcAdapters.Standalone.Logged

/-!
# Working on a descriptor set

What the commands do that read a descriptor set from a file instead of answering a schema compiler.  The
content of that file is given, or the reason why it cannot be read.

* `generate`       the files to write, with what is reported before and after they are written;
* `result_generate`   the files to write, without the report;
* `listServices`   the table of all adapters that there are to generate;
* `RunError`       what can end a run, with its wording `message`.
-/

namespace RpcAdapters

inductive RunError where
  /-- a descriptor set without content -/
  | unreadable (path : String) (e : ReadError)
  | undecodable (e : Wire.DecodeError)
  | generation (e : GenerationError)
  /-- a file that cannot be written -/
  | unwritable (e : FileError)

def RunError.message : RunError → String
  | .unreadable path (.unopened e) =>
    path ++ ": unable to open file: " ++ e.message ++ ": IO error: " ++ e.message
      ++ ": IO error: " ++ e.message
  | .unreadable _ (.unmapped e) => e.message ++ ": mmap failed: " ++ e.message
  | .undecodable e => e.message
  | .generation e => e.message
  | .unwritable e => e.message

namespace Standalone

def readSet (path : String) (content : Except ReadError (List UInt8)) :
    Except RunError DescriptorSet := do
  let bytes ← content.mapError (.unreadable path)
  (DescriptorSet.decode bytes).mapError .undecodable

/-! ## generating -/

/-- the files of a generation, below a directory -/
def writesOf (output : String) (g : Generation) : List FileWrite :=
  g.files.map fun f => { path := Path.join output f.name, content := f.content }

structure Writing where
  writes : List FileWrite
  /-- what is reported once everything is written -/
  closing : List Report.Entry

def closing (v : Verbosity) (writes : List FileWrite) : List Report.Entry :=
  (if v.atLeast .verbose then writes.flatMap fun w => v.info ("  " ++ w.path) else [])
    ++ v.success ("Successfully generated " ++ Text.decimal writes.length ++ " file(s)")

/-- `files` are the schema files to generate for, or all of the set when there are none -/
def generate (v : Verbosity) (path param : String) (files : List String) (output : String)
    (content : Except ReadError (List UInt8)) : Logged RunError Writing := do
  Logged.say (v.info ("Loading descriptor set from: " ++ path))
  let set ← Logged.ofExcept (readSet path content)
  Logged.say (v.info "Generating twirp adapters...")
  let (_, generation) ← Logged.ofExcept
    ((set.request files (some param)).generate.mapError .generation)
  Logged.say (v.report generation.stats)
  Logged.say (v.info ("Writing to: " ++ output))
  let writes := writesOf output generation
  return { writes, closing := closing v writes }

/-- what is reported on the way has no part in what is written -/
theorem result_generate (v : Verbosity) (path param : String) (files : List String)
    (output : String) (content : Except ReadError (List UInt8)) :
    (generate v path param files output content).result = (do
      let set ← readSet path content
      let (_, g) ← (set.request files (some param)).generate.mapError RunError.generation
      return { writes := writesOf output g, closing := closing v (writesOf output g) }) := by
  unfold generate
  simp only [Logged.result_bind]
  rfl

/-! ## listing -/

def header : List String := ["FILE", "SERVICE", "USE CASE", "METHOD", "PARAM", "RESPONSE"]

/-- `width` is that of the terminal -/
def listServices (width : Nat) (path param : String) (content : Except ReadError (List UInt8)) :
    Except RunError String := do
  let set ← readSet path content
  let listings ← (set.request [] (some param)).listings.mapError .generation
  return Report.table width header (listings.map Listing.row) ++ "\n"

end Standalone

end RpcAdapters
