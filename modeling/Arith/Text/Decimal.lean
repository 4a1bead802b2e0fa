

namespace Arith.Text

def digitValue (c : Char) : Nat := c.toNat - '0'.toNat

def decimalValue (text : List Char) : Nat := text.foldl (fun n c => 10 * n + digitValue c) 0

@[simp] theorem decimalValue_nil : decimalValue [] = 0 := rfl

theorem decimalValue_append_digit (text : List Char) (c : Char) :
    decimalValue (text ++ [c]) = 10 * decimalValue text + digitValue c := by
  simp [decimalValue, List.foldl_append]

end Arith.Text
