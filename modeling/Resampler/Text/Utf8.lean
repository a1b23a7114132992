/-!
# Text as bytes

A text is kept in a file as its UTF-8 bytes. `encode` writes every character
with the fewest bytes it needs; `decode?` reads bytes back, and refuses those
that no text has: a stray or a missing continuation byte, a character written
with more bytes than it needs, a surrogate, a number beyond the last code
point.
-/

namespace Resampler

namespace Utf8

/-- **The bytes of a text.** -/
def encode (text : List Char) : List UInt8 := text.flatMap String.utf8EncodeChar

/-- The six bits that a continuation byte carries. -/
def continuation? (b : UInt8) : Option Nat :=
  if 0x80 ≤ b.toNat ∧ b.toNat < 0xc0 then some (b.toNat - 0x80) else none

/-- The character of a code point, if it needs as many bytes as were read for
it: `least` is the first code point that does. -/
def character? (least : Nat) (n : Nat) : Option Char :=
  if least ≤ n ∧ n.isValidChar then some (Char.ofNat n) else none

/-- **The text that bytes make up**, if they do. -/
def decode? : List UInt8 → Option (List Char)
  | [] => some []
  | a :: rest =>
    if a.toNat < 0x80 then (decode? rest).map (Char.ofNat a.toNat :: ·)
    else
      match rest with
      | [] => none
      | b :: rest =>
        match continuation? b with
        | none => none
        | some y =>
          if 0xc0 ≤ a.toNat ∧ a.toNat < 0xe0 then
            match character? 0x80 ((a.toNat - 0xc0) * 0x40 + y) with
            | none => none
            | some c => (decode? rest).map (c :: ·)
          else
            match rest with
            | [] => none
            | d :: rest =>
              match continuation? d with
              | none => none
              | some z =>
                if 0xe0 ≤ a.toNat ∧ a.toNat < 0xf0 then
                  match character? 0x800
                      ((a.toNat - 0xe0) * 0x1000 + y * 0x40 + z) with
                  | none => none
                  | some c => (decode? rest).map (c :: ·)
                else
                  match rest with
                  | [] => none
                  | e :: rest =>
                    match continuation? e with
                    | none => none
                    | some w =>
                      if 0xf0 ≤ a.toNat ∧ a.toNat < 0xf8 then
                        match character? 0x10000
                            ((a.toNat - 0xf0) * 0x40000 + y * 0x1000
                              + z * 0x40 + w) with
                        | none => none
                        | some c => (decode? rest).map (c :: ·)
                      else none

end Utf8

end Resampler
