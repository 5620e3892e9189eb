import RpcAdapters.Proto
import RpcAdapters.Wire.Field

/-!
# Requests on the wire

* `Request.encode`, `DescriptorSet.encode`     the bytes of a value, fields in ascending order of tags;
* `Request.decode`, `DescriptorSet.decode`     the value of bytes: of a text or flag written twice the
                                               last counts, and two messages of one field are merged.
-/

namespace RpcAdapters.Wire

/-! ## the values of fields -/

def Field.text? (tag : Nat) : Field → Option String
  | .text t value => if t = tag then some value else none
  | _ => none

def Field.flag? (tag : Nat) : Field → Option Bool
  | .flag t value => if t = tag then some value else none
  | _ => none

def Field.number? (tag : Nat) : Field → Option Nat
  | .number t value => if t = tag then some value else none
  | _ => none

def Field.message? (tag : Nat) : Field → Option (List Field)
  | .message t fields => if t = tag then some fields else none
  | _ => none

def texts (tag : Nat) (fs : List Field) : List String := fs.filterMap (Field.text? tag)

def text? (tag : Nat) (fs : List Field) : Option String := (texts tag fs).getLast?

def flag? (tag : Nat) (fs : List Field) : Option Bool := (fs.filterMap (Field.flag? tag)).getLast?

def number? (tag : Nat) (fs : List Field) : Option Nat :=
  (fs.filterMap (Field.number? tag)).getLast?

def submessages (tag : Nat) (fs : List Field) : List (List Field) :=
  fs.filterMap (Field.message? tag)

/-- all messages of one field, merged into one -/
def merged? (tag : Nat) (fs : List Field) : Option (List Field) :=
  match submessages tag fs with
  | [] => none
  | ms => some ms.flatten

def textField (tag : Nat) (value? : Option String) : List Field :=
  (value?.map (Field.text tag)).toList

def flagField (tag : Nat) (value? : Option Bool) : List Field :=
  (value?.map (Field.flag tag)).toList

end RpcAdapters.Wire

namespace RpcAdapters

open Wire

/-! ## descriptors as fields -/

mutual

def ProtoMessage.fields : ProtoMessage → List Field
  | ⟨name?, nested⟩ => textField 1 name? ++ nestedFields 3 nested

def nestedFields (tag : Nat) : List ProtoMessage → List Field
  | [] => []
  | m :: ms => .message tag m.fields :: nestedFields tag ms

end

def ProtoMethod.fields (m : ProtoMethod) : List Field :=
  textField 1 m.name? ++ textField 2 m.inputType? ++ textField 3 m.outputType?
    ++ flagField 5 m.clientStreaming? ++ flagField 6 m.serverStreaming?

def ProtoService.fields (s : ProtoService) : List Field :=
  textField 1 s.name? ++ s.methods.map fun m => .message 2 m.fields

def ProtoOptions.fields (o : ProtoOptions) : List Field := textField 11 o.goPackage?

def ProtoFile.fields (f : ProtoFile) : List Field :=
  textField 1 f.name? ++ textField 2 f.package? ++ nestedFields 4 f.messages
    ++ (f.services.map fun s => .message 6 s.fields)
    ++ (f.options?.map fun o => Field.message 8 o.fields).toList

def Request.fields (r : Request) : List Field :=
  r.filesToGenerate.map (Field.text 1) ++ textField 2 r.parameter?
    ++ r.files.map fun f => .message 15 f.fields

def DescriptorSet.fields (s : DescriptorSet) : List Field := s.files.map fun f => .message 1 f.fields

/-! ## descriptors from fields -/

mutual

def protoMessageOf? (tag : Nat) : Field → Option ProtoMessage
  | .message t fs => if t = tag then some ⟨text? 1 fs, protoMessagesOf 3 fs⟩ else none
  | _ => none

def protoMessagesOf (tag : Nat) : List Field → List ProtoMessage
  | [] => []
  | f :: fs => (protoMessageOf? tag f).toList ++ protoMessagesOf tag fs

end

def ProtoMethod.ofFields (fs : List Field) : ProtoMethod where
  name? := text? 1 fs
  inputType? := text? 2 fs
  outputType? := text? 3 fs
  clientStreaming? := flag? 5 fs
  serverStreaming? := flag? 6 fs

def ProtoService.ofFields (fs : List Field) : ProtoService where
  name? := text? 1 fs
  methods := (submessages 2 fs).map ProtoMethod.ofFields

def ProtoOptions.ofFields (fs : List Field) : ProtoOptions where
  goPackage? := text? 11 fs

def ProtoFile.ofFields (fs : List Field) : ProtoFile where
  name? := text? 1 fs
  package? := text? 2 fs
  messages := protoMessagesOf 4 fs
  services := (submessages 6 fs).map ProtoService.ofFields
  options? := (merged? 8 fs).map ProtoOptions.ofFields

def Request.ofFields (fs : List Field) : Request where
  filesToGenerate := texts 1 fs
  parameter? := text? 2 fs
  files := (submessages 15 fs).map ProtoFile.ofFields

def DescriptorSet.ofFields (fs : List Field) : DescriptorSet where
  files := (submessages 1 fs).map ProtoFile.ofFields

/-! ## bytes -/

def Request.encode (r : Request) : List UInt8 := encodeFields r.fields

def Request.decode (bytes : List UInt8) : Except DecodeError Request :=
  (Wire.decode .request bytes).map Request.ofFields

def DescriptorSet.encode (s : DescriptorSet) : List UInt8 := encodeFields s.fields

def DescriptorSet.decode (bytes : List UInt8) : Except DecodeError DescriptorSet :=
  (Wire.decode .descriptorSet bytes).map DescriptorSet.ofFields

end RpcAdapters
