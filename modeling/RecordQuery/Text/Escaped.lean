import RecordQuery.Text.Formless

/-!
Names in double quotes, for listings that have to be read without doubt: quotes, backslashes and characters
without a visible form are escaped.
-/
namespace RecordQuery.Text

/-- Writes one character. The common control characters have short escapes, others give their code point. -/
def escapeChar (c : Char) : List Char :=
  match c with
  | '"' => ['\\', '"']
  | '\\' => ['\\', '\\']
  | '\t' => ['\\', 't']
  | '\n' => ['\\', 'n']
  | '\r' => ['\\', 'r']
  | '\x00' => ['\\', '0']
  | c =>
    if isFormless c then ['\\', 'u', '\x7b'] ++ Nat.toDigits 16 c.toNat ++ ['\x7d'] else [c]

def escaped (text : String) : String :=
  String.ofList ('"' :: text.toList.flatMap escapeChar ++ ['"'])

end RecordQuery.Text
