/-!
# Text and bytes

File names and paths are byte strings; everything that is recorded or printed is text.  The two
meet here: `Text.bytes` writes a text in UTF-8, `Text.ofBytes?` reads one back and refuses bytes
that are not UTF-8, and `Text.display` shows any bytes, with U+FFFD for each broken sequence.
-/

namespace PhotoTally.Text

/-- The UTF-8 bytes of a text. -/
def bytes (s : String) : List UInt8 := s.toUTF8.data.toList

/-- The text that the bytes spell, if they are UTF-8. -/
def ofBytes? (bs : List UInt8) : Option String := String.fromUTF8? ⟨bs.toArray⟩

@[simp] theorem ofBytes?_bytes (s : String) : ofBytes? (bytes s) = some s := by
  simp [ofBytes?, bytes, String.fromUTF8?, s.isValidUTF8]
  rfl

/-! ## Broken sequences -/

/-- A piece of a byte string: a character, or a sequence of bytes that spells none. -/
inductive Piece where
  | char (c : Char)
  | broken (bs : List UInt8)
  deriving DecidableEq

/-- A continuation byte `10xxxxxx`. -/
def isContinuation (b : UInt8) : Bool := 0x80 ≤ b && b ≤ 0xBF

/-- The second bytes that may follow a leading byte of three. -/
def isSecondOfThree (lead b : UInt8) : Bool :=
  if lead = 0xE0 then 0xA0 ≤ b && b ≤ 0xBF
  else if lead = 0xED then 0x80 ≤ b && b ≤ 0x9F
  else isContinuation b

/-- The second bytes that may follow a leading byte of four. -/
def isSecondOfFour (lead b : UInt8) : Bool :=
  if lead = 0xF0 then 0x90 ≤ b && b ≤ 0xBF
  else if lead = 0xF4 then 0x80 ≤ b && b ≤ 0x8F
  else isContinuation b

/-- The six payload bits of a continuation byte. -/
def payload (b : UInt8) : Nat := b.toNat % 64

/-- Cuts a byte string into characters and broken sequences.  A broken sequence is the longest
start of a character that the bytes hold, or a single byte that starts none. -/
def pieces : List UInt8 → List Piece
  | [] => []
  | a :: rest =>
    if a < 0x80 then .char (Char.ofNat a.toNat) :: pieces rest
    else if 0xC2 ≤ a && a ≤ 0xDF then
      match rest with
      | [] => [.broken [a]]
      | b :: rest' =>
        if isContinuation b then
          .char (Char.ofNat (a.toNat % 32 * 64 + payload b)) :: pieces rest'
        else .broken [a] :: pieces (b :: rest')
    else if 0xE0 ≤ a && a ≤ 0xEF then
      match rest with
      | [] => [.broken [a]]
      | b :: rest' =>
        if isSecondOfThree a b then
          match rest' with
          | [] => [.broken [a, b]]
          | c :: rest'' =>
            if isContinuation c then
              .char (Char.ofNat ((a.toNat % 16 * 64 + payload b) * 64 + payload c)) ::
                pieces rest''
            else .broken [a, b] :: pieces (c :: rest'')
        else .broken [a] :: pieces (b :: rest')
    else if 0xF0 ≤ a && a ≤ 0xF4 then
      match rest with
      | [] => [.broken [a]]
      | b :: rest' =>
        if isSecondOfFour a b then
          match rest' with
          | [] => [.broken [a, b]]
          | c :: rest'' =>
            if isContinuation c then
              match rest'' with
              | [] => [.broken [a, b, c]]
              | d :: rest''' =>
                if isContinuation d then
                  .char (Char.ofNat
                    (((a.toNat % 8 * 64 + payload b) * 64 + payload c) * 64 + payload d)) ::
                      pieces rest'''
                else .broken [a, b, c] :: pieces (d :: rest''')
            else .broken [a, b] :: pieces (c :: rest'')
        else .broken [a] :: pieces (b :: rest')
    else .broken [a] :: pieces rest

/-- The character a piece is shown as. -/
def Piece.shown : Piece → Char
  | .char c => c
  | .broken _ => '\uFFFD'

/-- Any bytes as text: each broken sequence becomes U+FFFD. -/
def display (bs : List UInt8) : String := String.ofList ((pieces bs).map Piece.shown)

end PhotoTally.Text
