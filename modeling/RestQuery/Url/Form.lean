import RestQuery.Text.Scan
import RestQuery.Url.Percent

/-!
# Form encoding

Pairs of a name and a value, with `&` between the pairs and `=` within them. A plus sign stands for
a space. Bytes that are no UTF-8 are replaced, and pieces without any character are passed over.
-/

namespace RestQuery.Url

/-- The text that one side of a pair stands for. -/
def decodeFormText (s : List Char) : String :=
  .ofList (Text.Utf8.decodeLossy
    (percentDecodeText (s.map fun c => if c = '+' then ' ' else c)))

/-- The pair that a piece stands for; without `=` it is a name with an empty value. -/
def decodeFormPair (piece : List Char) : String × String :=
  match Text.splitOnce '=' piece with
  | some (name, value) => (decodeFormText name, decodeFormText value)
  | none => (decodeFormText piece, "")

/-- The pairs of a form in order. -/
def decodeForm (s : List Char) : List (String × String) :=
  ((Text.splitAll '&' s).filter fun piece => !piece.isEmpty).map decodeFormPair

end RestQuery.Url
