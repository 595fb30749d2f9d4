import Aerobag.Lib.Text

/-!
# Components of keys (`had-key/src/lib.rs`)

The parts of a key are percent-encoded, byte for byte, and joined by slashes.
-/

namespace Aerobag.Key

def hexDigit (value : UInt8) : Char :=
  if value ≤ 9 then Char.ofNat (48 + value).toNat else Char.ofNat (65 + value - 10).toNat

def isUnreserved (ch : Char) : Bool := ch.isAlphanum || ch ∈ ['-', '_', '.', '~']

/-- What `percent_encode_component` pushes for a byte. -/
def encodeByte (byte : UInt8) : List Char :=
  let ch := Char.ofNat byte.toNat
  if isUnreserved ch then [ch] else ['%', hexDigit (byte >>> 4), hexDigit (byte &&& 0x0f)]

def percentEncodeComponent (bytes : Bytes) : String := String.ofList (bytes.flatMap encodeByte)

def component (value : String) : String := percentEncodeComponent (strBytes (Text.trim value))

def hexValue (value : UInt8) : Except String UInt8 :=
  if 48 ≤ value ∧ value ≤ 57 then .ok (value - 48)
  else if 97 ≤ value ∧ value ≤ 102 then .ok (value - 97 + 10)
  else if 65 ≤ value ∧ value ≤ 70 then .ok (value - 65 + 10)
  else .error ("invalid hex digit " ++ String.singleton (Char.ofNat value.toNat))

def decodeBytes : Bytes → Except String Bytes
  | [] => .ok []
  | byte :: rest =>
    if byte = 37 then
      match rest with
      | high :: low :: rest => do
        let high ← hexValue high
        let low ← hexValue low
        return (high <<< 4 ||| low) :: (← decodeBytes rest)
      | _ => .error "truncated escape"
    else do return byte :: (← decodeBytes rest)

/-- `utf8Error` is the text of a `FromUtf8Error`. -/
def decodeComponent (utf8Error : Bytes → String) (value : String) : Except String String := do
  let decoded ← decodeBytes (strBytes value)
  match String.fromUTF8? ⟨⟨decoded⟩⟩ with
  | some text => .ok text
  | none => .error (utf8Error decoded)

def ofParts (first : String) (parts : List String) : String :=
  "/".intercalate ((first :: parts).map component)

end Aerobag.Key
