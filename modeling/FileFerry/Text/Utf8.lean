import FileFerry.Text.Basic

/-! UTF-8. Decoding cuts a byte string into units: a well-formed character, or a longest beginning
of one that no further byte completes. Lossy decoding shows each such beginning as one U+FFFD;
strict decoding refuses the whole. -/

set_option autoImplicit false

namespace FileFerry

abbrev Bytes := List UInt8

namespace Utf8

def encodeChar (c : Char) : Bytes :=
  let n := c.toNat
  if n < 0x80 then [UInt8.ofNat n]
  else if n < 0x800 then [UInt8.ofNat (0xC0 + n / 64), UInt8.ofNat (0x80 + n % 64)]
  else if n < 0x10000 then
    [UInt8.ofNat (0xE0 + n / 4096), UInt8.ofNat (0x80 + n / 64 % 64), UInt8.ofNat (0x80 + n % 64)]
  else
    [UInt8.ofNat (0xF0 + n / 262144), UInt8.ofNat (0x80 + n / 4096 % 64),
      UInt8.ofNat (0x80 + n / 64 % 64), UInt8.ofNat (0x80 + n % 64)]

def encode (t : Text) : Bytes := t.flatMap encodeChar

@[simp] theorem encode_nil : encode [] = [] := rfl

@[simp] theorem encode_cons (c : Char) (t : Text) : encode (c :: t) = encodeChar c ++ encode t := by
  simp [encode]

@[simp] theorem encode_append (t u : Text) : encode (t ++ u) = encode t ++ encode u := by
  simp [encode]

/-- What a leading byte announces. -/
structure Lead where
  /-- The bits of the character that the leading byte holds. -/
  bits : Nat
  /-- How many bytes follow. -/
  tails : Nat
  /-- The least first following byte. -/
  least : UInt8
  /-- The greatest first following byte. -/
  greatest : UInt8

/-- The leading bytes, with the first following byte narrowed so that neither an overlong form,
a surrogate nor a value above U+10FFFF is well formed. -/
def lead? (b : UInt8) : Option Lead :=
  if b < 0x80 then some ⟨b.toNat, 0, 0x80, 0xBF⟩
  else if b < 0xC2 then none
  else if b < 0xE0 then some ⟨b.toNat - 0xC0, 1, 0x80, 0xBF⟩
  else if b = 0xE0 then some ⟨0, 2, 0xA0, 0xBF⟩
  else if b = 0xED then some ⟨13, 2, 0x80, 0x9F⟩
  else if b < 0xF0 then some ⟨b.toNat - 0xE0, 2, 0x80, 0xBF⟩
  else if b = 0xF0 then some ⟨0, 3, 0x90, 0xBF⟩
  else if b < 0xF4 then some ⟨b.toNat - 0xF0, 3, 0x80, 0xBF⟩
  else if b = 0xF4 then some ⟨4, 3, 0x80, 0x8F⟩
  else none

/-- The longest run of following bytes, at most `n`, the first of them between `lo` and `hi`. -/
def tailRun : Nat → UInt8 → UInt8 → Bytes → Bytes
  | 0, _, _, _ => []
  | _ + 1, _, _, [] => []
  | n + 1, lo, hi, b :: rest =>
    if lo ≤ b && b ≤ hi then b :: tailRun n 0x80 0xBF rest else []

/-- The unit at the head of a byte string: its character, if it is one, and how many bytes beyond
the first belong to it. -/
def unitAt (b : UInt8) (rest : Bytes) : Option Char × Nat :=
  match lead? b with
  | none => (none, 0)
  | some lead =>
    let tails := tailRun lead.tails lead.least lead.greatest rest
    if tails.length = lead.tails then
      (some (Char.ofNat (tails.foldl (fun acc x => acc * 64 + (x.toNat - 0x80)) lead.bits)),
        tails.length)
    else (none, tails.length)

/-- All units of a byte string; `none` stands for an ill-formed one. -/
def units : Bytes → List (Option Char)
  | [] => []
  | b :: rest => (unitAt b rest).1 :: units (rest.drop (unitAt b rest).2)
termination_by bytes => bytes.length
decreasing_by simp only [List.length_drop, List.length_cons]; omega

def replacement : Char := '\uFFFD'

def decodeLossy (bytes : Bytes) : Text := (units bytes).map fun unit => unit.getD replacement

def decode? (bytes : Bytes) : Option Text := (units bytes).mapM id

end Utf8

namespace Text

abbrev bytes (t : Text) : Bytes := Utf8.encode t

end Text

end FileFerry
