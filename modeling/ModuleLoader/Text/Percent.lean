import ModuleLoader.Text.Character

/-! # Percent-encoding

A character outside a kept set is written as its UTF-8 bytes, each a `%` and two capital
hexadecimal digits; reading turns each `%` with two digits back into its byte.

* **`percentEncode`** writes a text, given the ASCII characters to encode.
* **`percentDecode`** reads the bytes of an encoded text.
* **`decodeUtf8`** reads bytes as UTF-8, if they are. -/

namespace ModuleLoader.Text

/-- One byte as `%` and two capital hexadecimal digits. -/
def percentByte (b : UInt8) : List Char :=
  ['%', hexDigitUpper (b.toNat / 16), hexDigitUpper (b.toNat % 16)]

/-- One character: its UTF-8 bytes encoded when it is not ASCII or is to be `encoded`. -/
def percentChar (encoded : Char → Bool) (c : Char) : List Char :=
  if c.toNat ≥ 128 || encoded c then (String.utf8EncodeChar c).flatMap percentByte else [c]

/-- The text with every character to be `encoded`, and every non-ASCII one, percent-encoded. -/
def percentEncode (encoded : Char → Bool) (cs : List Char) : List Char :=
  cs.flatMap (percentChar encoded)

/-- Nothing encodes to nothing. -/
@[simp] theorem percentEncode_nil (encoded : Char → Bool) : percentEncode encoded [] = [] := rfl

/-- Encoding goes character by character. -/
theorem percentEncode_append (encoded : Char → Bool) (xs ys : List Char) :
    percentEncode encoded (xs ++ ys) = percentEncode encoded xs ++ percentEncode encoded ys := by
  simp [percentEncode]

/-- The bytes of a text in which `%` and two hexadecimal digits stand for a byte. -/
def percentDecode : List Char → List UInt8
  | [] => []
  | '%' :: a :: b :: rest =>
    match hexValue? a, hexValue? b with
    | some x, some y => UInt8.ofNat (16 * x + y) :: percentDecode rest
    | _, _ => 0x25 :: percentDecode (a :: b :: rest)
  | c :: rest => String.utf8EncodeChar c ++ percentDecode rest

/-- Nothing decodes to nothing. -/
@[simp] theorem percentDecode_nil : percentDecode [] = [] := rfl

/-- The text whose UTF-8 form the bytes are, if there is one. -/
def decodeUtf8 (bytes : List UInt8) : Option String :=
  String.fromUTF8? ⟨bytes.toArray⟩

end ModuleLoader.Text
