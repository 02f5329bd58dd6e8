/-!
UTF-8 bytes as text. Bytes that belong to no character are replaced: each
longest start of a character that is not completed, and each byte that can start
none, becomes one U+FFFD.
-/

namespace RowShape.Utf8

/-- The bytes that may follow a first byte directly, how many bytes follow in all, and the
bits that the first byte contributes. -/
def lead? (b : Nat) : Option (Nat × Nat × Nat × Nat) :=
  if b < 0x80 then some (0, 0, 0, b)
  else if 0xC2 ≤ b ∧ b ≤ 0xDF then some (0x80, 0xBF, 1, b - 0xC0)
  else if b = 0xE0 then some (0xA0, 0xBF, 2, 0)
  else if b = 0xED then some (0x80, 0x9F, 2, b - 0xE0)
  else if 0xE1 ≤ b ∧ b ≤ 0xEF then some (0x80, 0xBF, 2, b - 0xE0)
  else if b = 0xF0 then some (0x90, 0xBF, 3, 0)
  else if b = 0xF4 then some (0x80, 0x8F, 3, b - 0xF0)
  else if 0xF1 ≤ b ∧ b ≤ 0xF3 then some (0x80, 0xBF, 3, b - 0xF0)
  else none

/-- A character under construction: the range of its next byte, the bytes that are still
to come, and its bits so far. -/
structure Pending where
  low : Nat
  high : Nat
  missing : Nat
  bits : Nat

/-- What a byte does between characters: a whole character, the start of one, or neither. -/
def first (b : Nat) : Option (Char ⊕ Pending) :=
  (lead? b).map fun (low, high, missing, bits) =>
    if missing = 0 then .inl (Char.ofNat bits) else .inr ⟨low, high, missing, bits⟩

/-- Decodes bytes, `none` standing for each place that has no character. -/
def decode : Option Pending → List Nat → List (Option Char)
  | none, [] => []
  | some _, [] => [none]
  | none, b :: bs =>
    match first b with
    | some (.inl c) => some c :: decode none bs
    | some (.inr p) => decode (some p) bs
    | none => none :: decode none bs
  | some p, b :: bs =>
    if p.low ≤ b ∧ b ≤ p.high then
      let bits := 64 * p.bits + (b - 0x80)
      if p.missing = 1 then some (Char.ofNat bits) :: decode none bs
      else decode (some ⟨0x80, 0xBF, p.missing - 1, bits⟩) bs
    else
      match first b with
      | some (.inl c) => none :: some c :: decode none bs
      | some (.inr q) => none :: decode (some q) bs
      | none => none :: none :: decode none bs

/-- The text of bytes, with replacement characters where they are not UTF-8. -/
def lossy (bytes : List Nat) : List Char := (decode none bytes).map (·.getD '\uFFFD')

def strict? (bytes : List Nat) : Option (List Char) := (decode none bytes).mapM id

end RowShape.Utf8
