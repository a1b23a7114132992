import Resampler.Proofs.Json.Written
import Resampler.Store.Record
import Resampler.Text.Blank

/-!
# Records on their lines

A record is written on one line, is not blank, and is read back as it was
(`ofChars?_chars`), if its number fits 64 bits.

The text of a record is an object, and that is finished by its last character
and not before. So a part of a record that is cut off is no record
(`ofChars?_take`), and neither is a record with another one behind it on the same
line (`ofChars?_append_chars`). In front of a record there may only be blanks,
and of these only the four that JSON knows: a line of other white space is blank
as a line, but nothing that a record could start with
(`ofChars?_blanks_append`, `ofChars?_white_append`).
-/

namespace Resampler

namespace Record

open Json

/-- The object that a record is written as. -/
def json (r : Record) : Json := .objectOf [("key", .ofNat r.key), ("value", .string r.value)]

variable {r : Record}

/-- A number of 64 bits as a value. -/
theorem ofNat_eq {n : Nat} (h : n ≤ Numeral.wordMax) :
    ∃ inRange, Json.ofNat n = .number (.integer (.ofNat n) inRange) := by
  have hmax : Numeral.wordMax = 18446744073709551615 := by decide
  have hrange : -9223372036854775808 ≤ (n : Int) ∧ (n : Int) < 18446744073709551616 := by
    omega
  exact ⟨hrange, Json.ofInt_eq hrange⟩

theorem chars_eq (h : r.key ≤ Numeral.wordMax) : r.chars = r.json.chars := by
  obtain ⟨inRange, hkey⟩ := ofNat_eq h
  unfold json
  rw [hkey, Json.chars, membersChars, membersChars, Json.chars, Json.chars]
  simp [Record.chars, numberChars, intChars]

theorem tree_json (h : r.key ≤ Numeral.wordMax) :
    r.json.tree = .object [(lettersOf "key", .number ⟨false, Numeral.digitsOf r.key, none, none⟩),
      (lettersOf "value", .string (lettersOf r.value))] := by
  obtain ⟨inRange, hkey⟩ := ofNat_eq h
  unfold json
  rw [hkey, tree, memberTrees, memberTrees, memberTrees, tree, tree]
  rfl

theorem ofTree?_json (h : r.key ≤ Numeral.wordMax) : ofTree? r.json.tree = some r := by
  have hkey : keyOf? (.number ⟨false, Numeral.digitsOf r.key, none, none⟩) = some r.key := by
    show (if Numeral.ofDigits (Numeral.digitsOf r.key) ≤ Numeral.wordMax then
      some (Numeral.ofDigits (Numeral.digitsOf r.key)) else none) = some r.key
    rw [Numeral.ofDigits_digitsOf]
    exact if_pos h
  have hvalue : valueOf? (.string (lettersOf r.value)) = some r.value := stringOf?_lettersOf _
  have hne : ¬ "value" = "key" := by decide
  rw [tree_json h]
  simp [ofTree?, ofMembers?, stringOf?_lettersOf, hkey, hvalue, hne]

/-- **A record is read back as it was.** -/
theorem ofChars?_chars (h : r.key ≤ Numeral.wordMax) : ofChars? r.chars = some r := by
  unfold ofChars?
  rw [chars_eq h, Json.ofChars?_chars, Option.bind_some, ofTree?_json h]

/-! ## The characters of a record -/

/-- No character is escaped to a line feed. -/
theorem lineFeed_not_mem_escape (c : Char) : '\n' ∉ escape c := by
  unfold escape
  split
  · decide
  split
  · decide
  split
  · decide
  split
  · decide
  split
  · decide
  split
  · decide
  split
  · decide
  next hn _ _ =>
  split
  · next h =>
    have hhex : ∀ n < 32, '\n' ∉ ['\\', 'u', '0', '0', hexDigit (n / 16), hexDigit (n % 16)] := by
      decide
    exact hhex c.toNat h
  · rw [List.mem_singleton]
    exact Ne.symm hn

theorem lineFeed_not_mem_quote (s : String) : '\n' ∉ quote s := by
  intro h
  rcases List.mem_cons.mp h with h | h
  · exact absurd h (by decide)
  · rcases List.mem_append.mp h with h | h
    · obtain ⟨c, -, hc⟩ := List.mem_flatMap.mp h
      exact lineFeed_not_mem_escape c hc
    · exact absurd h (by decide)

/-- **A record stays on its line.** -/
theorem lineFeed_not_mem_chars (r : Record) : '\n' ∉ r.chars := by
  have hdigits : '\n' ∉ Nat.toDigits 10 r.key := by
    intro h
    obtain ⟨d, hd, hc⟩ := Numeral.exists_digitChar h
    exact (by decide : ∀ d < 10, '\n' ≠ Nat.digitChar d) d hd hc
  simp [Record.chars, lineFeed_not_mem_quote, hdigits]

/-- The first character of a record opens an object. -/
theorem exists_chars_eq (r : Record) : ∃ rest, r.chars = '\x7b' :: rest := ⟨_, rfl⟩

/-- The last character of a record closes it. -/
theorem exists_chars_eq_concat (r : Record) : ∃ front, r.chars = front ++ ['\x7d'] :=
  ⟨'\x7b' :: (quote "key" ++ ':' :: Nat.toDigits 10 r.key ++ ',' :: quote "value"
    ++ ':' :: quote r.value), rfl⟩

/-! ## What is no record -/

/-- What a record is read from is an array or an object. -/
theorem isCompound_of_ofTree? {t : Tree} (h : ofTree? t = some r) : t.isCompound = true := by
  cases t with
  | array items => rfl
  | object members => rfl
  | _ => cases h

/-- Behind a record there may only be blanks. -/
theorem ofChars?_append {line b : List Char} (h : ofChars? line = some r)
    (hb : lexemes? b ≠ some []) : ofChars? (line ++ b) = none := by
  obtain ⟨t, ht, hr⟩ := Option.bind_eq_some_iff.mp h
  unfold ofChars?
  rw [Tree.ofChars?_append ht (isCompound_of_ofTree? hr) hb]
  rfl

/-- **A record with another one behind it is none.** -/
theorem ofChars?_append_chars {line : List Char} {r' : Record} (h : ofChars? line = some r') :
    ofChars? (line ++ r.chars) = none := by
  obtain ⟨front, hfront⟩ := r.exists_chars_eq_concat
  exact ofChars?_append h (by rw [hfront]; exact Tree.lexemes?_brace_ne_nil front)

/-- **A part of a record is none.** -/
theorem ofChars?_take (hr : r.key ≤ Numeral.wordMax) {n : Nat} (hn : n < r.chars.length) :
    ofChars? (r.chars.take n) = none := by
  obtain ⟨front, hfront⟩ := r.exists_chars_eq_concat
  have hlen : n ≤ front.length := by
    rw [hfront, List.length_append, List.length_singleton] at hn
    omega
  -- What is missing ends with the brace, so it would make the whole no record.
  have hdrop : r.chars.drop n = front.drop n ++ ['\x7d'] := by
    rw [hfront, List.drop_append_of_le_length hlen]
  cases h : ofChars? (r.chars.take n) with
  | none => rfl
  | some r' =>
    have hwhole : ofChars? (r.chars.take n ++ r.chars.drop n) = none :=
      ofChars?_append h (by rw [hdrop]; exact Tree.lexemes?_brace_ne_nil _)
    rw [List.take_append_drop, ofChars?_chars hr] at hwhole
    cases hwhole

/-! ## What may stand in front of a record -/

/-- JSON passes over its blanks. -/
theorem run_blanks {line : List Char} (h : ∀ c ∈ line, Scanner.isBlank c = true)
    (read : List Lexeme) :
    (⟨read, .between⟩ : Scanner).run line = some ⟨read, .between⟩ := by
  induction line with
  | nil => rfl
  | cons c line ih =>
    have hc : Scanner.begin? read c = some ⟨read, .between⟩ :=
      if_pos (h c List.mem_cons_self)
    show (Scanner.begin? read c).bind _ = _
    rw [hc, Option.bind_some]
    exact ih fun c hc => h c (List.mem_cons_of_mem _ hc)

/-- **Blanks of JSON may stand in front of a record.** -/
theorem ofChars?_blanks_append {line : List Char} (h : ∀ c ∈ line, Scanner.isBlank c = true)
    (hr : r.key ≤ Numeral.wordMax) : ofChars? (line ++ r.chars) = some r := by
  have hsame : lexemes? (line ++ r.chars) = lexemes? r.chars := by
    rw [lexemes?_append (run_blanks h [])]
    cases lexemes? r.chars <;> rfl
  rw [← ofChars?_chars hr]
  unfold ofChars? Tree.ofChars?
  rw [hsame]

/-- White space that JSON does not know is no character of ASCII that is shown. -/
theorem code_of_white {c : Char} (h : isBlank c = true) (hc : Scanner.isBlank c = false) :
    c.toNat < 0x20 ∨ 0x80 ≤ c.toNat := by
  have hspace : c.toNat ≠ 0x20 := by
    intro hspace
    rw [show c = ' ' by rw [← Char.ofNat_toNat c, hspace]] at hc
    cases hc
  simp only [isBlank, Bool.or_eq_true, Bool.and_eq_true, decide_eq_true_eq] at h
  omega

/-- White space that JSON does not know begins nothing. -/
theorem begin?_of_white {c : Char} (h : isBlank c = true) (hc : Scanner.isBlank c = false)
    (read : List Lexeme) : Scanner.begin? read c = none := by
  have hcode := code_of_white h hc
  have hne : ∀ d : Char, 0x20 ≤ d.toNat ∧ d.toNat < 0x80 → c ≠ d := by
    rintro d hd rfl
    omega
  have hword : Scanner.isWordChar c = false := by
    refine Bool.eq_false_iff.mpr fun hword => ?_
    obtain ⟨hlow, hhigh⟩ := Bool.and_eq_true_iff.mp hword
    have hlow : 97 ≤ c.toNat := of_decide_eq_true hlow
    have hhigh : c.toNat ≤ 122 := of_decide_eq_true hhigh
    omega
  have hdigit : ('0' ≤ c && c ≤ '9') = false := by
    refine Bool.eq_false_iff.mpr fun hdigit => ?_
    obtain ⟨hlow, hhigh⟩ := Bool.and_eq_true_iff.mp hdigit
    have hlow : 48 ≤ c.toNat := of_decide_eq_true hlow
    have hhigh : c.toNat ≤ 57 := of_decide_eq_true hhigh
    omega
  have hmark : Scanner.mark? c = none := by
    unfold Scanner.mark?
    rw [if_neg (hne _ (by decide)), if_neg (hne _ (by decide)), if_neg (hne _ (by decide)),
      if_neg (hne _ (by decide)), if_neg (hne _ (by decide)), if_neg (hne _ (by decide))]
  have hminus : c ≠ '-' := hne _ (by decide)
  unfold Scanner.begin?
  rw [hc, hword, hmark, hdigit, if_neg (by decide), if_neg (hne '"' (by decide)),
    if_neg (by decide), if_neg (by simpa using hminus)]
  rfl

/-- **No other white space may stand in front of a record.** -/
theorem ofChars?_white_append {line : List Char} (h : ∀ c ∈ line, isBlank c = true)
    (hnot : ∃ c ∈ line, Scanner.isBlank c = false) (b : List Char) :
    ofChars? (line ++ b) = none := by
  have hrun : ∀ read, (⟨read, .between⟩ : Scanner).run line = none := by
    intro read
    induction line with
    | nil => exact absurd hnot (by simp)
    | cons c line ih =>
      show (Scanner.begin? read c).bind _ = none
      cases hc : Scanner.isBlank c with
      | false => rw [begin?_of_white (h c List.mem_cons_self) hc]; rfl
      | true =>
        have hbegin : Scanner.begin? read c = some ⟨read, .between⟩ := if_pos hc
        rw [hbegin, Option.bind_some]
        refine ih (fun c hc => h c (List.mem_cons_of_mem _ hc)) ?_
        obtain ⟨c', hc', hfalse⟩ := hnot
        rcases List.mem_cons.mp hc' with rfl | hc'
        · rw [hc] at hfalse
          cases hfalse
        · exact ⟨c', hc', hfalse⟩
  unfold ofChars? Tree.ofChars? lexemes?
  rw [Scanner.run_append]
  show ((((((⟨[], .between⟩ : Scanner).run line).bind _).bind _).bind _).bind _).bind _ = none
  rw [hrun]
  rfl

end Record

end Resampler
