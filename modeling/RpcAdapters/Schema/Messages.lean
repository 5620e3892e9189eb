import RpcAdapters.Naming.Exported
import RpcAdapters.Proto

/-!
# Messages by full name

The full name of a message is `.`, the package and `.` if there is one, then the names of the messages
around it and its own, joined by `.`.

* `ProtoMessage.entries`    the messages of a tree with their full names, nested ones before the one
                            that holds them;
* `ProtoFile.entries`       the messages of a file, in that order;
* `MessageIndex.find? n`    the last message of all files whose full name is `n`.
-/

namespace RpcAdapters

structure MessageEntry where
  goName : String
  file : String
  deriving DecidableEq, Repr, Inhabited

/-- a message name seen from its package; `outer` is that of the message around it -/
def relativeName (outer name : String) : String :=
  if outer = "" then name else outer ++ "." ++ name

def fullName (package relative : String) : String :=
  if package = "" then "." ++ relative else "." ++ package ++ "." ++ relative

mutual

def ProtoMessage.entries (f : ProtoFile) (outer : String) :
    ProtoMessage → List (String × MessageEntry)
  | ⟨name?, nested⟩ =>
    let relative := relativeName outer (name?.getD "")
    messageEntries f relative nested ++
      [(fullName f.package relative, ⟨Naming.exported relative, f.name⟩)]

def messageEntries (f : ProtoFile) (outer : String) :
    List ProtoMessage → List (String × MessageEntry)
  | [] => []
  | m :: ms => m.entries f outer ++ messageEntries f outer ms

end

def ProtoFile.entries (f : ProtoFile) : List (String × MessageEntry) :=
  messageEntries f "" f.messages

/-- messages by full name, the last one first -/
abbrev MessageIndex := List (String × MessageEntry)

namespace MessageIndex

def ofFiles (files : List ProtoFile) : MessageIndex := (files.flatMap ProtoFile.entries).reverse

def find? (index : MessageIndex) (fullName : String) : Option MessageEntry := index.lookup fullName

end MessageIndex

end RpcAdapters
