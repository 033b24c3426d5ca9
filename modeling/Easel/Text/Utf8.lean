/-! Text in the UTF-8 encoding. The first byte of a character says how many more follow and which
range the second byte is in, and all later ones are in the range from 0x80 to 0xBF. -/

namespace Easel.Utf8

/-- What a first byte announces: the number of bytes that follow it, and the range of the first of
them. Bytes below 0x80 are characters by themselves and bytes that begin nothing have no entry. -/
def announced? (lead : UInt8) : Option (Nat × UInt8 × UInt8) :=
  if 0xC2 ≤ lead ∧ lead ≤ 0xDF then some (1, 0x80, 0xBF)
  else if lead = 0xE0 then some (2, 0xA0, 0xBF)
  else if lead = 0xED then some (2, 0x80, 0x9F)
  else if 0xE1 ≤ lead ∧ lead ≤ 0xEF then some (2, 0x80, 0xBF)
  else if lead = 0xF0 then some (3, 0x90, 0xBF)
  else if 0xF1 ≤ lead ∧ lead ≤ 0xF3 then some (3, 0x80, 0xBF)
  else if lead = 0xF4 then some (3, 0x80, 0x8F)
  else none

/-- At most `count` bytes that can follow a first byte, the first of them between `low` and
`high`. -/
def followers : Nat → UInt8 → UInt8 → List UInt8 → List UInt8
  | 0, _, _, _ => []
  | _, _, _, [] => []
  | count + 1, low, high, b :: rest =>
    if low ≤ b ∧ b ≤ high then b :: followers count 0x80 0xBF rest else []

/-- The code point of a character of more than one byte. Each byte that follows has six bits of it,
and the first byte has those that are left. -/
def codePoint (lead : UInt8) (following : List UInt8) : Nat :=
  following.foldl (fun n b => n * 64 + b.toNat % 64) (lead.toNat % Nat.pow 2 (6 - following.length))

/-- The characters of a text, where `none` stands for each part that is not well formed. Such a
part is as long as it could have been the beginning of a character. -/
def decode : List UInt8 → List (Option Char)
  | [] => []
  | lead :: rest =>
    if lead < 0x80 then some (Char.ofNat lead.toNat) :: decode rest
    else
      match announced? lead with
      | none => none :: decode rest
      | some (count, low, high) =>
        let following := followers count low high rest
        let first := if following.length = count then some (Char.ofNat (codePoint lead following))
          else none
        first :: decode (rest.drop following.length)
termination_by bytes => bytes.length

/-- The text that some bytes encode, if they are well formed. -/
def text? (bytes : List UInt8) : Option String :=
  ((decode bytes).mapM id).map String.ofList

/-- The text that some bytes encode, with a replacement character for each part that is not well
formed. -/
def lossyText (bytes : List UInt8) : String :=
  String.ofList ((decode bytes).map fun c => c.getD '\uFFFD')

def encode (text : String) : List UInt8 := text.toUTF8.data.toList

end Easel.Utf8
