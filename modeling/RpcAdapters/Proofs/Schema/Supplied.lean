import RpcAdapters.Proofs.Lookup
import RpcAdapters.Proofs.Schema.Accepted
import RpcAdapters.Proofs.Schema.Paths

/-!
# What is known of the files supplied

A descriptor is read with the packages and the messages of all files at hand.  Knowing more of them does
not change what it is read as.

* `Supplied.Extends s t`          `t` knows everything that `s` knows;
* `Supplied.requestedFile_of_extends`   a descriptor that can be read with `s` is read the same with `t`;
* `Supplied.extends_of_perm`      files in another order, if no two have a name or a message in common;
* `Supplied.extends_insert`       one more file, whose name and messages are new.
-/

namespace RpcAdapters

theorem map_fst_packages (overrides : Overrides) (files : List ProtoFile) :
    (files.map fun f => (f.name, f.packageInfo overrides)).map Prod.fst
      = files.map ProtoFile.name := by
  rw [List.map_map]
  rfl

namespace Supplied

/-! ## knowing more -/

structure Extends (s t : Supplied) : Prop where
  packages : ∀ file info, s.packages.find? file = some info → t.packages.find? file = some info
  messages : ∀ n entry, s.messages.find? n = some entry → t.messages.find? n = some entry

section
variable {s t : Supplied} (h : s.Extends t)
include h

theorem messageIdent_of_extends {n : String} {i : Ident} (hi : s.messageIdent n = .ok i) :
    t.messageIdent n = .ok i := by
  obtain ⟨entry, package, hentry, hpackage, hpath, hname⟩ := s.messageIdent_eq_ok_iff.mp hi
  exact t.messageIdent_eq_ok_iff.mpr
    ⟨entry, package, h.messages n entry hentry, h.packages entry.file package hpackage, hpath, hname⟩

theorem method_of_extends {file service : String} {d : ProtoMethod} {m : Method}
    (hm : s.method file service d = .ok m) : t.method file service d = .ok m := by
  obtain ⟨input, hinput, output, houtput, hd⟩ := s.method_eq_ok_iff.mp hm
  exact t.method_eq_ok_iff.mpr
    ⟨input, messageIdent_of_extends h hinput, output, messageIdent_of_extends h houtput, hd⟩

theorem service_of_extends {file : String} {d : ProtoService} {service : Service}
    (hs : s.service file d = .ok service) : t.service file d = .ok service := by
  obtain ⟨methods, hmethods, hd⟩ := s.service_eq_ok_iff.mp hs
  exact t.service_eq_ok_iff.mpr ⟨methods, hmethods.imp fun _ _ => method_of_extends h, hd⟩

theorem package_of_extends {file path : String} (hpath : (s.package file).importPath? = some path) :
    t.package file = s.package file := by
  cases hinfo : s.packages.find? file with
  | none =>
    -- a file that is not known has no import path
    rw [package, hinfo] at hpath
    exact nomatch hpath
  | some info => rw [package, package, hinfo, h.packages file info hinfo]

theorem requestedFile_of_extends {d : ProtoFile} {f : SchemaFile} (hf : s.requestedFile d = .ok f) :
    t.requestedFile d = .ok f := by
  obtain ⟨path, hpath, services, hservices, hd⟩ := s.requestedFile_eq_ok_iff.mp hf
  have hpackage := package_of_extends h hpath
  refine t.requestedFile_eq_ok_iff.mpr
    ⟨path, ?_, services, hservices.imp fun _ _ => service_of_extends h, ?_⟩
  · rw [hpackage]
    exact hpath
  · rw [hpackage]
    exact hd

end

/-! ## other files -/

section
variable (overrides : Overrides)

theorem extends_of_perm {files files' : List ProtoFile} (hperm : files.Perm files')
    (hnames : (files.map ProtoFile.name).Nodup)
    (hmessages : (files.flatMap ProtoFile.fullNames).Nodup) :
    (ofFiles overrides files).Extends (ofFiles overrides files') := by
  constructor
  case packages =>
    intro file info hinfo
    refine lookup_reverse_of_perm (hperm.map _) ?_ hinfo
    rw [map_fst_packages]
    exact hnames
  case messages =>
    intro n entry hentry
    refine lookup_reverse_of_perm (hperm.flatMap_right _) ?_ hentry
    rw [map_fst_flatMap_entries]
    exact hmessages

theorem extends_insert {before after : List ProtoFile} {d : ProtoFile}
    (hname : d.name ∉ (before ++ after).map ProtoFile.name)
    (hmessages : ∀ n ∈ d.fullNames, n ∉ (before ++ after).flatMap ProtoFile.fullNames) :
    (ofFiles overrides (before ++ after)).Extends (ofFiles overrides (before ++ d :: after)) := by
  constructor
  case packages =>
    intro file info hinfo
    let entry (f : ProtoFile) := (f.name, f.packageInfo overrides)
    have hkeys : ∀ j ∈ [entry d].map Prod.fst,
        j ∉ (before.map entry ++ after.map entry).map Prod.fst := by
      intro j hj
      obtain rfl := List.mem_singleton.mp hj
      rw [← List.map_append, map_fst_packages]
      exact hname
    have hfind : (before.map entry ++ after.map entry).reverse.lookup file = some info := by
      rw [← List.map_append]
      exact hinfo
    show ((before ++ d :: after).map entry).reverse.lookup file = some info
    rw [List.map_append]
    exact lookup_reverse_insert hkeys hfind
  case messages =>
    intro n entry hentry
    have hkeys : ∀ j ∈ d.entries.map Prod.fst,
        j ∉ (before.flatMap ProtoFile.entries ++ after.flatMap ProtoFile.entries).map Prod.fst := by
      rw [d.map_fst_entries, ← List.flatMap_append, map_fst_flatMap_entries]
      exact hmessages
    have hfind : (before.flatMap ProtoFile.entries ++ after.flatMap ProtoFile.entries).reverse.lookup n
        = some entry := by
      rw [← List.flatMap_append]
      exact hentry
    show ((before ++ d :: after).flatMap ProtoFile.entries).reverse.lookup n = some entry
    rw [List.flatMap_append, List.flatMap_cons]
    exact lookup_reverse_insert hkeys hfind

end

end Supplied

end RpcAdapters
