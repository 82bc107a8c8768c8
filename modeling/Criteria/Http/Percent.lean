import Criteria.Text.Hex

/-!
Percent escapes in paths. Each escape stands for a byte; what is no escape stands for itself.
-/

namespace Criteria.Http.Percent

def bytes : List Char → List UInt8
  | '%' :: a :: b :: rest =>
    match Text.hexValue? a, Text.hexValue? b with
    | some x, some y => UInt8.ofNat (16 * x + y) :: bytes rest
    | _, _ => String.utf8EncodeChar '%' ++ bytes (a :: b :: rest)
  | c :: rest => String.utf8EncodeChar c ++ bytes rest
  | [] => []

/-- The text that an escaped text stands for; `none` if its bytes are no text. -/
def decode? (s : String) : Option String :=
  String.fromUTF8? (ByteArray.mk (bytes s.toList).toArray)

end Criteria.Http.Percent
