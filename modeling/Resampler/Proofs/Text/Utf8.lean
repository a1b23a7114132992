import Resampler.Text.Utf8

/-!
# Writing text as bytes and reading it back

Bytes that a text was written as are read back as that text (`decode?_encode`),
also in front of further bytes (`decode?_append`). Bytes of a text that are cut off
somewhere are either the bytes of a shorter text, namely if the cut falls
between two characters, or they are those of no text at all
(`take_encode_cases`).

A line feed is written as one byte, and no other character has that byte among
its own. So lines can be told apart before the bytes are read.
-/

namespace Resampler

namespace Utf8

@[simp] theorem encode_nil : encode [] = [] := rfl

theorem encode_cons (c : Char) (text : List Char) :
    encode (c :: text) = String.utf8EncodeChar c ++ encode text := rfl

theorem encode_append (a b : List Char) : encode (a ++ b) = encode a ++ encode b :=
  List.flatMap_append

/-! ## Reading one character back -/

/-- The number of a character is a code point. -/
theorem isValidChar_toNat (c : Char) : c.toNat.isValidChar := c.valid

theorem character?_toNat {c : Char} {least : Nat} (h : least ≤ c.toNat) :
    character? least c.toNat = some c := by
  rw [character?, if_pos ⟨h, isValidChar_toNat c⟩, Char.ofNat_toNat]

theorem toNat_ofNat {n : Nat} (h : n < 256) : (UInt8.ofNat n).toNat = n :=
  Nat.mod_eq_of_lt h

/-- Six bits are carried by a continuation byte. -/
theorem continuation?_ofNat (n : Nat) :
    continuation? (UInt8.ofNat (n % 64 + 128)) = some (n % 64) := by
  have hn : n % 64 < 64 := Nat.mod_lt _ (by decide)
  rw [continuation?, toNat_ofNat (by omega), if_pos ⟨by omega, by omega⟩]
  exact congrArg some (Nat.add_sub_cancel _ _)

section

variable {a b d e : UInt8} {x y z w : Nat} {c : Char} (rest : List UInt8)

theorem decode?_one (ha : a.toNat < 0x80) :
    decode? (a :: rest) = (decode? rest).map (Char.ofNat a.toNat :: ·) := by
  refine (decode?.eq_def _).trans ?_
  dsimp only
  rw [if_pos ha]

theorem decode?_two (ha : a.toNat = x + 0xc0) (hx : x < 0x20) (hb : continuation? b = some y)
    (hc : character? 0x80 (x * 0x40 + y) = some c) :
    decode? (a :: b :: rest) = (decode? rest).map (c :: ·) := by
  refine (decode?.eq_def _).trans ?_
  dsimp only
  rw [if_neg (by omega)]
  simp only [hb]
  rw [if_pos ⟨by omega, by omega⟩, ha, Nat.add_sub_cancel]
  simp only [hc]

theorem decode?_three (ha : a.toNat = x + 0xe0) (hx : x < 0x10)
    (hb : continuation? b = some y) (hd : continuation? d = some z)
    (hc : character? 0x800 (x * 0x1000 + y * 0x40 + z) = some c) :
    decode? (a :: b :: d :: rest) = (decode? rest).map (c :: ·) := by
  refine (decode?.eq_def _).trans ?_
  dsimp only
  rw [if_neg (by omega)]
  simp only [hb]
  rw [if_neg (by omega)]
  simp only [hd]
  rw [if_pos ⟨by omega, by omega⟩, ha, Nat.add_sub_cancel]
  simp only [hc]

theorem decode?_four (ha : a.toNat = x + 0xf0) (hx : x < 0x8)
    (hb : continuation? b = some y) (hd : continuation? d = some z)
    (he : continuation? e = some w)
    (hc : character? 0x10000 (x * 0x40000 + y * 0x1000 + z * 0x40 + w) = some c) :
    decode? (a :: b :: d :: e :: rest) = (decode? rest).map (c :: ·) := by
  refine (decode?.eq_def _).trans ?_
  dsimp only
  rw [if_neg (by omega)]
  simp only [hb]
  rw [if_neg (by omega)]
  simp only [hd]
  rw [if_neg (by omega)]
  simp only [he]
  rw [if_pos ⟨by omega, by omega⟩, ha, Nat.add_sub_cancel]
  simp only [hc]

/-- A byte that needs more bytes after it, at the end. -/
theorem decode?_lone (ha : 0xc0 ≤ a.toNat) : decode? [a] = none := by
  refine (decode?.eq_def _).trans ?_
  dsimp only
  rw [if_neg (by omega)]

/-- Two bytes of a character with more. -/
theorem decode?_two_of_three (ha : 0xe0 ≤ a.toNat) (hb : continuation? b = some y) :
    decode? [a, b] = none := by
  refine (decode?.eq_def _).trans ?_
  dsimp only
  rw [if_neg (by omega)]
  simp only [hb]
  rw [if_neg (by omega)]

/-- Three bytes of a character with four. -/
theorem decode?_three_of_four (ha : 0xf0 ≤ a.toNat) (hb : continuation? b = some y)
    (hd : continuation? d = some z) : decode? [a, b, d] = none := by
  refine (decode?.eq_def _).trans ?_
  dsimp only
  rw [if_neg (by omega)]
  simp only [hb]
  rw [if_neg (by omega)]
  simp only [hd]
  rw [if_neg (by omega)]

end

/-- **The bytes of a character**, by how many they are. -/
inductive Spelled (c : Char) : List UInt8 → Prop where
  | one {a : UInt8} (ha : a.toNat = c.toNat) (hc : c.toNat < 0x80) : Spelled c [a]
  | two {a b : UInt8} {x y : Nat} (ha : a.toNat = x + 0xc0) (hx : x < 0x20)
    (hb : continuation? b = some y) (hc : 0x80 ≤ c.toNat)
    (hsum : x * 0x40 + y = c.toNat) : Spelled c [a, b]
  | three {a b d : UInt8} {x y z : Nat} (ha : a.toNat = x + 0xe0) (hx : x < 0x10)
    (hb : continuation? b = some y) (hd : continuation? d = some z) (hc : 0x800 ≤ c.toNat)
    (hsum : x * 0x1000 + y * 0x40 + z = c.toNat) : Spelled c [a, b, d]
  | four {a b d e : UInt8} {x y z w : Nat} (ha : a.toNat = x + 0xf0) (hx : x < 0x8)
    (hb : continuation? b = some y) (hd : continuation? d = some z)
    (he : continuation? e = some w) (hc : 0x10000 ≤ c.toNat)
    (hsum : x * 0x40000 + y * 0x1000 + z * 0x40 + w = c.toNat) : Spelled c [a, b, d, e]

theorem spelled_utf8EncodeChar (c : Char) : Spelled c (String.utf8EncodeChar c) := by
  have hvalid : c.toNat < 0x110000 := by
    have h := isValidChar_toNat c
    unfold Nat.isValidChar at h
    omega
  have hval : c.val.toNat = c.toNat := rfl
  have cont := continuation?_ofNat
  unfold String.utf8EncodeChar
  simp only [hval]
  generalize hn : c.toNat = n at hvalid
  split
  · exact .one (by rw [toNat_ofNat (by omega), hn]) (by omega)
  · split
    · exact .two (toNat_ofNat (by omega)) (by omega) (cont _) (by omega) (by omega)
    · split
      · exact .three (toNat_ofNat (by omega)) (by omega) (cont _) (cont _) (by omega)
          (by omega)
      · exact .four (toNat_ofNat (by omega)) (by omega) (cont _) (cont _) (cont _)
          (by omega) (by omega)

/-- **A character is read back**, whatever follows it. -/
theorem decode?_utf8EncodeChar (c : Char) (rest : List UInt8) :
    decode? (String.utf8EncodeChar c ++ rest) = (decode? rest).map (c :: ·) := by
  have h := spelled_utf8EncodeChar c
  generalize String.utf8EncodeChar c = bytes at h ⊢
  cases h with
  | one ha hc =>
    refine (decode?_one rest (by omega)).trans ?_
    rw [ha, Char.ofNat_toNat]
  | two ha hx hb hc hsum =>
    exact decode?_two rest ha hx hb (by rw [hsum, character?_toNat hc])
  | three ha hx hb hd hc hsum =>
    exact decode?_three rest ha hx hb hd (by rw [hsum, character?_toNat hc])
  | four ha hx hb hd he hc hsum =>
    exact decode?_four rest ha hx hb hd he (by rw [hsum, character?_toNat hc])

/-- **Some but not all bytes of a character** are no text. -/
theorem decode?_take_utf8EncodeChar (c : Char) {n : Nat} (hpos : 0 < n)
    (hn : n < (String.utf8EncodeChar c).length) :
    decode? ((String.utf8EncodeChar c).take n) = none := by
  have h := spelled_utf8EncodeChar c
  generalize String.utf8EncodeChar c = bytes at h hn ⊢
  cases h with
  | one ha hc => exact absurd hn (by simp; omega)
  | two ha hx hb hc hsum =>
    obtain rfl : n = 1 := by simp at hn; omega
    exact decode?_lone (by omega)
  | three ha hx hb hd hc hsum =>
    obtain rfl | rfl : n = 1 ∨ n = 2 := by simp at hn; omega
    · exact decode?_lone (by omega)
    · exact decode?_two_of_three (by omega) hb
  | four ha hx hb hd he hc hsum =>
    obtain rfl | rfl | rfl : n = 1 ∨ n = 2 ∨ n = 3 := by simp at hn; omega
    · exact decode?_lone (by omega)
    · exact decode?_two_of_three (by omega) hb
    · exact decode?_three_of_four (by omega) hb hd

/-! ## Reading a text back -/

/-- **A text is read back.** -/
theorem decode?_encode (text : List Char) : decode? (encode text) = some text := by
  induction text with
  | nil => rfl
  | cons c text ih =>
    rw [encode_cons, decode?_utf8EncodeChar, ih]
    rfl

/-- Distinct texts have distinct bytes. -/
theorem encode_injective {a b : List Char} (h : encode a = encode b) : a = b := by
  have hread := decode?_encode a
  rw [h, decode?_encode] at hread
  exact (Option.some.inj hread).symm

/-- A character in front stays in front, whatever comes behind. -/
theorem map_cons_decode?_append {rest b : List UInt8} {c : Char} {text : List Char}
    (ih : ∀ {text}, decode? rest = some text →
      decode? (rest ++ b) = (decode? b).map (text ++ ·))
    (h : (decode? rest).map (c :: ·) = some text) :
    (decode? (rest ++ b)).map (c :: ·) = (decode? b).map (text ++ ·) := by
  obtain ⟨t, ht, rfl⟩ := Option.map_eq_some_iff.mp h
  rw [ih ht, Option.map_map]
  rfl

/-- **Text comes before what the bytes behind it make up.** -/
theorem decode?_append {a : List UInt8} {text : List Char} (h : decode? a = some text)
    (b : List UInt8) : decode? (a ++ b) = (decode? b).map (text ++ ·) := by
  induction a using decode?.induct generalizing text with
  | case1 =>
    cases h
    exact Option.map_id'.symm
  | case2 a rest ha ih =>
    rw [decode?_one _ ha] at h
    exact (decode?_one _ ha).trans (map_cons_decode?_append ih h)
  | case6 a ha d rest y hd hrange c hc ih =>
    have htwo := fun rest => decode?_two rest (Nat.sub_add_cancel hrange.1).symm (by omega) hd hc
    rw [htwo] at h
    exact (htwo _).trans (map_cons_decode?_append ih h)
  | case10 a ha d y hd _ e rest z he hrange c hc ih =>
    have hthree := fun rest =>
      decode?_three rest (Nat.sub_add_cancel hrange.1).symm (by omega) hd he hc
    rw [hthree] at h
    exact (hthree _).trans (map_cons_decode?_append ih h)
  | case14 a ha d y hd _ e z he _ f rest w hf hrange c hc ih =>
    have hfour := fun rest =>
      decode?_four rest (Nat.sub_add_cancel hrange.1).symm (by omega) hd he hf hc
    rw [hfour] at h
    exact (hfour _).trans (map_cons_decode?_append ih h)
  | _ =>
    -- In the other cases the bytes begin no text, so nothing is said about them.
    rw [decode?.eq_def] at h
    grind

/-- **A text that is cut off** is a shorter text, or none at all. -/
theorem take_encode_cases (text : List Char) (n : Nat) :
    (∃ k, (encode text).take n = encode (text.take k))
      ∨ decode? ((encode text).take n) = none := by
  induction text generalizing n with
  | nil => exact .inl ⟨0, by simp⟩
  | cons c text ih =>
    rw [encode_cons, List.take_append]
    by_cases hn : (String.utf8EncodeChar c).length ≤ n
    · rw [List.take_of_length_le hn, decode?_utf8EncodeChar]
      refine (ih (n - (String.utf8EncodeChar c).length)).imp ?_ ?_
      · rintro ⟨k, hk⟩
        exact ⟨k + 1, by rw [hk]; rfl⟩
      · intro h
        rw [h]
        rfl
    · have hzero : n - (String.utf8EncodeChar c).length = 0 := by omega
      rw [hzero, List.take_zero, List.append_nil]
      rcases Nat.eq_zero_or_pos n with rfl | hpos
      · exact .inl ⟨0, rfl⟩
      · exact .inr (decode?_take_utf8EncodeChar c hpos (by omega))

/-! ## Line feeds -/

/-- A character of more than one byte has none below 128 among them. -/
theorem Spelled.eq_of_mem {c : Char} {bytes : List UInt8} (h : Spelled c bytes) {b : UInt8}
    (hb : b ∈ bytes) (hsmall : b.toNat < 0x80) : c.toNat = b.toNat := by
  have hcont : ∀ {d : UInt8} {y : Nat}, continuation? d = some y → b = d → False := by
    rintro d y hd rfl
    unfold continuation? at hd
    split at hd
    · omega
    · cases hd
  have hfirst : ∀ {a : UInt8}, 0x80 ≤ a.toNat → b = a → False := by
    rintro a ha rfl
    omega
  cases h with
  | one ha hc =>
    rw [List.mem_singleton.mp hb]
    exact ha.symm
  | two ha hx hd hc hsum =>
    simp only [List.mem_cons, List.not_mem_nil, or_false] at hb
    rcases hb with hb | hb
    · exact (hfirst (by omega) hb).elim
    · exact (hcont hd hb).elim
  | three ha hx hd he hc hsum =>
    simp only [List.mem_cons, List.not_mem_nil, or_false] at hb
    rcases hb with hb | hb | hb
    · exact (hfirst (by omega) hb).elim
    · exact (hcont hd hb).elim
    · exact (hcont he hb).elim
  | four ha hx hd he hf hc hsum =>
    simp only [List.mem_cons, List.not_mem_nil, or_false] at hb
    rcases hb with hb | hb | hb | hb
    · exact (hfirst (by omega) hb).elim
    · exact (hcont hd hb).elim
    · exact (hcont he hb).elim
    · exact (hcont hf hb).elim

/-- **Only a line feed is written with its byte.** -/
theorem lineFeed_mem_encode {text : List Char} (h : 10 ∈ encode text) : '\n' ∈ text := by
  obtain ⟨c, hc, hb⟩ := List.mem_flatMap.mp h
  have hten : c.toNat = 10 := (spelled_utf8EncodeChar c).eq_of_mem hb (by decide)
  rwa [show '\n' = c by rw [← Char.ofNat_toNat c, hten]]

end Utf8

end Resampler
