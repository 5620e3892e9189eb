import RpcAdapters.Generation.Basic
import RpcAdapters.Wire.Request

/-!
# Responses

What a plugin answers to a schema compiler: generated files, or an error that the compiler prints.

* `Response.ofGeneration`, `Response.ofError`   the two kinds of answers;
* `Response.encode`, `Response.decode`          the bytes of a response, and back.
-/

namespace RpcAdapters

open Wire

structure ResponseFile where
  name? : Option String := none
  insertionPoint? : Option String := none
  content? : Option String := none
  deriving DecidableEq, Repr, Inhabited

structure Response where
  error? : Option String := none
  supportedFeatures? : Option Nat := none
  files : List ResponseFile := []
  deriving DecidableEq, Repr, Inhabited

namespace Response

/-- the features that the generator knows of: optional fields -/
def features : Nat := 1

def ofGeneration (g : Generation) : Response where
  supportedFeatures? := some features
  files := g.files.map fun f => { name? := some f.name, content? := some f.content }

def ofError (message : String) : Response where
  error? := some message
  supportedFeatures? := some features

end Response

/-! ## bytes -/

def ResponseFile.fields (f : ResponseFile) : List Field :=
  textField 1 f.name? ++ textField 2 f.insertionPoint? ++ textField 15 f.content?

def ResponseFile.ofFields (fs : List Field) : ResponseFile where
  name? := text? 1 fs
  insertionPoint? := text? 2 fs
  content? := text? 15 fs

namespace Response

def fields (r : Response) : List Field :=
  textField 1 r.error? ++ (r.supportedFeatures?.map (Field.number 2)).toList
    ++ r.files.map fun f => .message 15 f.fields

def ofFields (fs : List Field) : Response where
  error? := text? 1 fs
  supportedFeatures? := number? 2 fs
  files := (submessages 15 fs).map ResponseFile.ofFields

def encode (r : Response) : List UInt8 := encodeFields r.fields

def decode (bytes : List UInt8) : Except DecodeError Response :=
  (Wire.decode .response bytes).map Response.ofFields

end Response

end RpcAdapters
