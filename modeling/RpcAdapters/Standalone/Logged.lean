import RpcAdapters.Report.Log

/-!
# Results with a report

* `Logged ε α`   what was reported on the way to a result, and the result; an error ends the way;
* `say es`       reports `es`;
* `ofExcept`     a result without a report.
-/

namespace RpcAdapters

structure Logged (ε α : Type) where
  report : List Report.Entry := []
  result : Except ε α

namespace Logged

variable {ε α β : Type}

def andThen (x : Logged ε α) (f : α → Logged ε β) : Logged ε β :=
  match x.result with
  | .ok a => ⟨x.report ++ (f a).report, (f a).result⟩
  | .error e => ⟨x.report, .error e⟩

instance : Monad (Logged ε) where
  pure a := ⟨[], .ok a⟩
  bind := andThen

def say (es : List Report.Entry) : Logged ε Unit := ⟨es, .ok ()⟩

def ofExcept (r : Except ε α) : Logged ε α := ⟨[], r⟩

theorem result_bind (x : Logged ε α) (f : α → Logged ε β) :
    (x >>= f).result = x.result >>= fun a => (f a).result := by
  obtain ⟨report, result⟩ := x
  cases result <;> rfl

end Logged

end RpcAdapters
