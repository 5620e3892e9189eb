/-!
# Numbers as text

* `decimal n`   the decimal digits of `n`, without leading zeros.
-/

namespace RpcAdapters.Text

def decimal (n : Nat) : String := String.ofList (Nat.toDigits 10 n)

theorem decimal_injective {m n : Nat} (h : decimal m = decimal n) : m = n := by
  have hd : Nat.toDigits 10 m = Nat.toDigits 10 n := by
    simpa [decimal] using congrArg String.toList h
  simpa using congrArg (fun ds => Nat.ofDigitChars 10 ds 0) hd

end RpcAdapters.Text
