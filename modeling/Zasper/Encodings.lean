import Mathlib.Data.List.Basic

/-!
# Bytes as text

Bytes in base 64 and as hexadecimal digits; the digits are read back
(`hexDecode_hexEncode`).
-/
namespace Zasper.Encodings
set_option linter.unusedSimpArgs false

def base64Digit (n : Nat) : Char :=
  if n < 26 then Char.ofNat ('A'.toNat + n)
  else if n < 52 then Char.ofNat ('a'.toNat + (n - 26))
  else if n < 62 then Char.ofNat ('0'.toNat + (n - 52))
  else if n = 62 then '+' else '/'

def base64 : List UInt8 → List Char
  | [] => []
  | [a] => [base64Digit (a.toNat / 4),base64Digit (a.toNat % 4 * 16),'=','=']
  | [a,b] => [base64Digit (a.toNat / 4),base64Digit (a.toNat % 4 * 16 + b.toNat / 16),base64Digit (b.toNat % 16 * 4),'=']
  | a :: b :: c :: rest =>
    base64Digit (a.toNat / 4) :: base64Digit (a.toNat % 4 * 16 + b.toNat / 16) ::
      base64Digit (b.toNat % 16 * 4 + c.toNat / 64) :: base64Digit (c.toNat % 64) :: base64 rest

def base64Value (c : Char) : Option Nat :=
  if 'A' ≤ c ∧ c ≤ 'Z' then some (c.toNat - 'A'.toNat)
  else if 'a' ≤ c ∧ c ≤ 'z' then some (c.toNat - 'a'.toNat + 26)
  else if '0' ≤ c ∧ c ≤ '9' then some (c.toNat - '0'.toNat + 52)
  else if c = '+' then some 62
  else if c = '/' then some 63
  else none

/-- Four digits at a time; the last two of them may be missing, which `=` stands for. -/
def base64Quads : List Char → Option (List UInt8)
  | [] => some []
  | [a,b,'=','='] => do
    let a ← base64Value a
    let b ← base64Value b
    some [UInt8.ofNat (a * 4 + b / 16)]
  | [a,b,c,'='] => do
    let a ← base64Value a
    let b ← base64Value b
    let c ← base64Value c
    some [UInt8.ofNat (a * 4 + b / 16),UInt8.ofNat (b * 16 + c / 4)]
  | a :: b :: c :: d :: rest => do
    let a ← base64Value a
    let b ← base64Value b
    let c ← base64Value c
    let d ← base64Value d
    let bytes ← base64Quads rest
    some (UInt8.ofNat (a * 4 + b / 16) :: UInt8.ofNat (b * 16 + c / 4) :: UInt8.ofNat (c * 64 + d) :: bytes)
  | _ => none

/-- Ends of lines do not count. -/
def base64Decode (cs : List Char) : Option (List UInt8) := base64Quads (cs.filter (fun c => c ≠ '\n' ∧ c ≠ '\r'))

example : base64Decode (base64 [77,97,0,255]) = some [77,97,0,255] := by decide

/-- The hexadecimal digit of a number below 16, as a byte. -/
def hexDigit (n : Nat) : UInt8 := UInt8.ofNat (if n < 10 then '0'.toNat + n else 'a'.toNat + (n - 10))

def hexValue (b : UInt8) : Option Nat :=
  let n := b.toNat
  if '0'.toNat ≤ n ∧ n ≤ '9'.toNat then some (n - '0'.toNat)
  else if 'a'.toNat ≤ n ∧ n ≤ 'f'.toNat then some (n - 'a'.toNat + 10)
  else if 'A'.toNat ≤ n ∧ n ≤ 'F'.toNat then some (n - 'A'.toNat + 10)
  else none

def hexEncode (bytes : List UInt8) : List UInt8 :=
  bytes.flatMap (fun b => [hexDigit (b.toNat / 16),hexDigit (b.toNat % 16)])

/-- Two digits a byte; none where a byte is no digit or one digit is left over. -/
def hexDecode : List UInt8 → Option (List UInt8)
  | [] => some []
  | [_] => none
  | a :: b :: rest => do
    let high ← hexValue a
    let low ← hexValue b
    let bytes ← hexDecode rest
    some (UInt8.ofNat (high * 16 + low) :: bytes)

theorem hexValue_hexDigit : ∀ n < 16, hexValue (hexDigit n) = some n := by decide

theorem hexDecode_hexEncode (bytes : List UInt8) : hexDecode (hexEncode bytes) = some bytes := by
  induction bytes with
  | nil => rfl
  | cons b rest ih =>
    have high : hexValue (hexDigit (b.toNat / 16)) = some (b.toNat / 16) := by
      have := b.toNat_lt
      exact hexValue_hexDigit _ (by omega)
    have low : hexValue (hexDigit (b.toNat % 16)) = some (b.toNat % 16) := hexValue_hexDigit _ (by omega)
    have whole : b.toNat / 16 * 16 + b.toNat % 16 = b.toNat := by omega
    have encoded : hexEncode (b :: rest) = hexDigit (b.toNat / 16) :: hexDigit (b.toNat % 16) :: hexEncode rest := rfl
    have byte : UInt8.ofNat (b.toNat / 16 * 16 + b.toNat % 16) = b := by rw [whole,UInt8.ofNat_toNat]
    rw [encoded,hexDecode,high,low,ih]
    simp only [bind,Option.bind,byte]

end Zasper.Encodings
