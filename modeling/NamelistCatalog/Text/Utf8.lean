/-!
Reading bytes as UTF-8. Bytes that are not well formed fall into parts, each as long as it could
still have become a character, and a reader either stops at such a part or shows it as the
replacement character.
-/

namespace NamelistCatalog.Text.Utf8

/-- What the first byte of a character of several bytes announces: the range of the second byte, the
number of bytes after the first, and the bits that the first byte gives. -/
structure Lead where
  low : UInt8
  high : UInt8
  count : Nat
  bits : Nat
deriving DecidableEq, Repr

/-- The announcement of a first byte, if a character of several bytes may start with it. -/
def Lead.ofByte? (b : UInt8) : Option Lead :=
  if b < 0xC2 then none
  else if b < 0xE0 then some ⟨0x80, 0xBF, 1, b.toNat - 0xC0⟩
  else if b == 0xE0 then some ⟨0xA0, 0xBF, 2, 0⟩
  else if b == 0xED then some ⟨0x80, 0x9F, 2, 0xD⟩
  else if b < 0xF0 then some ⟨0x80, 0xBF, 2, b.toNat - 0xE0⟩
  else if b == 0xF0 then some ⟨0x90, 0xBF, 3, 0⟩
  else if b < 0xF4 then some ⟨0x80, 0xBF, 3, b.toNat - 0xF0⟩
  else if b == 0xF4 then some ⟨0x80, 0x8F, 3, 4⟩
  else none

/-- Reads the bytes of a character after its first: the code point, unless a byte is missing, and
the bytes that follow. -/
def tail (low high : UInt8) : (count : Nat) → (bits : Nat) → List UInt8 → Option Nat × List UInt8
  | 0, bits, bytes => (some bits, bytes)
  | _ + 1, _, [] => (none, [])
  | count + 1, bits, b :: rest =>
      if low ≤ b ∧ b ≤ high then tail 0x80 0xBF count (bits * 64 + (b.toNat - 0x80)) rest
      else (none, b :: rest)

theorem length_tail_le (low high : UInt8) (count bits : Nat) (bytes : List UInt8) :
    (tail low high count bits bytes).2.length ≤ bytes.length := by
  induction bytes generalizing low high count bits with
  | nil => cases count <;> simp [tail]
  | cons b rest ih =>
      cases count with
      | zero => simp [tail]
      | succ count =>
          simp only [tail]
          split
          · exact Nat.le_succ_of_le (ih ..)
          · exact Nat.le_refl _

/-- The characters that the bytes spell, with `none` for each part that is not well formed, after
those of `done`, which run backwards. -/
def unitsAfter (done : List (Option Char)) : List UInt8 → List (Option Char)
  | [] => done.reverse
  | b :: rest =>
      if b < 0x80 then unitsAfter (some (Char.ofNat b.toNat) :: done) rest
      else
        match Lead.ofByte? b with
        | none => unitsAfter (none :: done) rest
        | some lead =>
            let result := tail lead.low lead.high lead.count lead.bits rest
            unitsAfter (result.1.map Char.ofNat :: done) result.2
termination_by bytes => bytes.length
decreasing_by
  · simp
  · simp
  · simpa [Nat.lt_succ_iff] using length_tail_le ..

/-- The characters that the bytes spell, with `none` for each part that is not well formed. -/
def units (bytes : List UInt8) : List (Option Char) := unitsAfter [] bytes

def decode? (bytes : List UInt8) : Option (List Char) := (units bytes).mapM id

/-- The text that bytes spell, with a replacement character for each part that is not well
formed. -/
def decodeLossy (bytes : List UInt8) : List Char :=
  (units bytes).map fun u => u.getD '\ufffd'

def encode (s : String) : List UInt8 := s.toByteArray.data.toList

end NamelistCatalog.Text.Utf8
