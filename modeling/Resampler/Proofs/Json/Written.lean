import Resampler.Json.Printer
import Resampler.Json.Reader
import Resampler.Proofs.Decimal.Numeral
import Resampler.Proofs.Json.Tree

/-!
# The tree of a written value

Every value has a tree, `Json.tree`, and the text of the value is read as that
tree (`ofChars?_chars`), whatever the value is. So all that a reader can lose of
a written value is lost where it looks at the numbers, the strings and the
nesting of the tree.

Strings lose nothing: the letters that a string is written with make up that
string again (`stringOf?_lettersOf`).
-/

namespace Resampler

/-- An integer of 64 bits as a value. -/
theorem Json.ofInt_eq {i : Int} (h : -9223372036854775808 ≤ i ∧ i < 18446744073709551616) :
    Json.ofInt i = .number (.integer i h) :=
  dif_pos h

namespace JsonNumber

open Numeral

/-- **The numeral that a number is written as.** -/
def numeral : JsonNumber → Numeral
  | .integer (.ofNat n) _ => ⟨false, digitsOf n, none, none⟩
  | .integer (.negSucc n) _ => ⟨true, digitsOf (n + 1), none, none⟩
  | .real x _ => Json.numberLayout.numeral x

theorem numberChars_eq (n : JsonNumber) : Json.numberChars n = n.numeral.chars := by
  match n with
  | .integer (.ofNat n) _ =>
    show Nat.toDigits 10 n = [] ++ (digitChars (digitsOf n) ++ [])
    rw [digitChars_digitsOf, List.append_nil]
    rfl
  | .integer (.negSucc n) _ =>
    show '-' :: Nat.toDigits 10 (n + 1) = ['-'] ++ (digitChars (digitsOf (n + 1)) ++ [])
    rw [digitChars_digitsOf, List.append_nil]
    rfl
  | .real x _ => exact Json.numberLayout.text_eq x

/-- The digits of an integer are a numeral that can be read. -/
theorem fit_integer (negative : Bool) (n : Nat) :
    (⟨negative, digitsOf n, none, none⟩ : Numeral).IsProper
      ∧ (⟨negative, digitsOf n, none, none⟩ : Numeral).isPlain = true := by
  refine ⟨⟨⟨digitsOf_ne_nil n, fun d hd => lt_of_mem_digitsOf hd⟩, nofun, nofun⟩, ?_⟩
  rcases Nat.eq_zero_or_pos n with rfl | hn
  · rfl
  · exact Decimal.isPlain_of_head? (head?_digitsOf hn)

theorem fit_numeral (n : JsonNumber) : n.numeral.IsProper ∧ n.numeral.isPlain = true := by
  match n with
  | .integer (.ofNat n) _ => exact fit_integer false n
  | .integer (.negSucc n) _ => exact fit_integer true (n + 1)
  | .real x _ => exact Json.numberLayout.fit_numeral x

end JsonNumber

namespace Json

/-! ## The letters of a string -/

/-- The letter that a character is written as. Only control characters without a
name are written by number. -/
def letterOf (c : Char) : Letter :=
  if c < ' ' ∧ c ≠ '\x08' ∧ c ≠ '\t' ∧ c ≠ '\n' ∧ c ≠ '\x0c' ∧ c ≠ '\r' then .unit c.toNat
  else .char c

/-- The letters that a string is written with. -/
def lettersOf (s : String) : List Letter := s.toList.map letterOf

theorem toNat_lt_of_lt_space {c : Char} (h : c < ' ') : c.toNat < 32 := h

theorem decode?_letterOf (c : Char) (rest : List Letter) :
    decode? (letterOf c :: rest) = (decode? rest).map (c :: ·) := by
  unfold letterOf
  split
  · next h =>
    have hc := toNat_lt_of_lt_space h.1
    have hhigh : isHighSurrogate c.toNat = false := by
      simp only [isHighSurrogate, Bool.and_eq_false_iff, decide_eq_false_iff_not]
      omega
    have hlow : isLowSurrogate c.toNat = false := by
      simp only [isLowSurrogate, Bool.and_eq_false_iff, decide_eq_false_iff_not]
      omega
    refine (decode?.eq_def _).trans ?_
    dsimp only
    rw [hhigh, hlow, Char.ofNat_toNat]
    rfl
  · rw [decode?]

theorem decode?_map_letterOf (cs : List Char) : decode? (cs.map letterOf) = some cs := by
  induction cs with
  | nil => rfl
  | cons c cs ih =>
    rw [List.map_cons, decode?_letterOf, ih]
    rfl

/-- **A string is made up again of its letters.** -/
theorem stringOf?_lettersOf (s : String) : stringOf? (lettersOf s) = some s := by
  unfold stringOf? lettersOf
  rw [decode?_map_letterOf]
  exact congrArg some String.ofList_toList

namespace Scanner

theorem hexValue?_hexDigit : ∀ n < 32, hexValue? (hexDigit (n / 16)) = some (n / 16)
    ∧ hexValue? (hexDigit (n % 16)) = some (n % 16) := by decide

/-- An escape by number is read as that number. -/
theorem run_code (read : List Lexeme) (letters : List Letter) {n : Nat} (hn : n < 32) :
    (⟨read, .string letters⟩ : Scanner).run
        ['\\', 'u', '0', '0', hexDigit (n / 16), hexDigit (n % 16)]
      = some ⟨read, .string (.unit n :: letters)⟩ := by
  obtain ⟨hhigh, hlow⟩ := hexValue?_hexDigit n hn
  have hzero : hexValue? '0' = some 0 := by decide
  simp [run, step, hzero, hhigh, hlow]
  omega

/-- **A character of a string is read back** as its letter. -/
theorem run_escape (read : List Lexeme) (letters : List Letter) (c : Char) :
    (⟨read, .string letters⟩ : Scanner).run (escape c)
      = some ⟨read, .string (letterOf c :: letters)⟩ := by
  unfold escape
  split
  · next h => subst h; rfl
  split
  · next h => subst h; rfl
  split
  · next h => subst h; rfl
  split
  · next h => subst h; rfl
  split
  · next h => subst h; rfl
  split
  · next h => subst h; rfl
  split
  · next h => subst h; rfl
  next hquote hback h8 ht hn hf hr =>
  split
  · next h =>
    rw [run_code read letters (toNat_lt_of_lt_space h), letterOf,
      if_pos ⟨h, h8, ht, hn, hf, hr⟩]
  · next h =>
    rw [letterOf, if_neg fun h' => h h'.1]
    simp [run, step, hquote, hback, h]

theorem run_escapes (read : List Lexeme) (letters : List Letter) (cs : List Char) :
    (⟨read, .string letters⟩ : Scanner).run (cs.flatMap escape)
      = some ⟨read, .string ((cs.map letterOf).reverse ++ letters)⟩ := by
  induction cs generalizing letters with
  | nil => rfl
  | cons c cs ih =>
    rw [List.flatMap_cons, run_append, run_escape, Option.bind_some, ih, List.map_cons,
      List.reverse_cons, List.append_assoc]
    rfl

/-- **A string in quotation marks is read as its letters.** -/
theorem run_quote (read : List Lexeme) (s : String) :
    (⟨read, .between⟩ : Scanner).run (quote s)
      = some ⟨.string (lettersOf s) :: read, .between⟩ := by
  show (⟨read, .string []⟩ : Scanner).run (s.toList.flatMap escape ++ ['"']) = _
  rw [run_append, run_escapes, Option.bind_some, List.append_nil]
  show some (⟨.string (s.toList.map letterOf).reverse.reverse :: read, .between⟩ : Scanner) = _
  rw [List.reverse_reverse]
  rfl

/-! ## Texts and lexemes -/

/-- The lexemes of a text that is read from a state on, to its end. -/
def rest (s : Scanner) (text : List Char) : Option (List Lexeme) := (s.run text).bind finish

theorem rest_append {s s' : Scanner} {a : List Char} (h : s.run a = some s') (b : List Char) :
    s.rest (a ++ b) = s'.rest b := by
  unfold rest
  rw [run_append, h, Option.bind_some]

/-- **A text at whose start a word or a number ends.** -/
def Ends (b : List Char) : Prop := ∀ c ∈ b.head?, isWordChar c = false ∧ isNumberChar c = false

theorem ends_cons {c : Char} (h : isWordChar c = false ∧ isNumberChar c = false)
    (b : List Char) : Ends (c :: b) := by
  rintro _ ⟨⟩
  exact h

/-- A word or number that is finished where it ends has been read. -/
theorem rest_of_flush {s : Scanner} {read : List Lexeme} (hflush : s.flush = some ⟨read, .between⟩)
    (hstep : ∀ c, isWordChar c = false ∧ isNumberChar c = false →
      s.step c = s.flush.bind fun s => begin? s.read c) {b : List Char} (hb : Ends b) :
    s.rest b = rest ⟨read, .between⟩ b := by
  cases b with
  | nil =>
    show s.finish = finish ⟨read, .between⟩
    unfold finish
    rw [hflush]
    rfl
  | cons c b =>
    have hc := hstep c (hb c rfl)
    rw [hflush] at hc
    show ((s.step c).bind fun s => s.run b).bind finish = _
    rw [hc]
    rfl

/-- **A mark is read as itself.** -/
theorem rest_mark {read : List Lexeme} {c : Char} {l : Lexeme}
    (h : begin? read c = some ⟨l :: read, .between⟩) (b : List Char) :
    rest ⟨read, .between⟩ (c :: b) = rest ⟨l :: read, .between⟩ b :=
  rest_append (a := [c]) (by
    show (begin? read c).bind _ = _
    rw [h]
    rfl) b

theorem rest_quote (read : List Lexeme) (s : String) (b : List Char) :
    rest ⟨read, .between⟩ (quote s ++ b) = rest ⟨.string (lettersOf s) :: read, .between⟩ b :=
  rest_append (run_quote read s) b

/-- **A word is read as its lexeme.** -/
theorem rest_word {read : List Lexeme} {word : List Char} {l : Lexeme}
    (hrun : (⟨read, .between⟩ : Scanner).run word = some ⟨read, .word word.reverse⟩)
    (hword : word? word = some l) {b : List Char} (hb : Ends b) :
    rest ⟨read, .between⟩ (word ++ b) = rest ⟨l :: read, .between⟩ b := by
  rw [rest_append hrun]
  refine rest_of_flush ?_ (fun c hc => ?_) hb
  · show (word? word.reverse.reverse).map _ = _
    rw [List.reverse_reverse, hword]
    rfl
  · exact if_neg (by rw [hc.1]; exact Bool.false_ne_true)

/-! ### Numbers -/

theorem run_number {a : List Char} (ha : ∀ c ∈ a, isNumberChar c = true) (read : List Lexeme)
    (typed : List Char) : (⟨read, .number typed⟩ : Scanner).run a
      = some ⟨read, .number (a.reverse ++ typed)⟩ := by
  induction a generalizing typed with
  | nil => rfl
  | cons c a ih =>
    have hc : (⟨read, .number typed⟩ : Scanner).step c = some ⟨read, .number (c :: typed)⟩ :=
      if_pos (ha c List.mem_cons_self)
    rw [run, hc, Option.bind_some, ih fun c hc => ha c (List.mem_cons_of_mem _ hc),
      List.reverse_cons, List.append_assoc]
    rfl

theorem isNumberChar_digitChar : ∀ d < 10, isNumberChar d.digitChar = true := by decide

theorem begin?_digitChar (read : List Lexeme) :
    ∀ d < 10, begin? read d.digitChar = some ⟨read, .number [d.digitChar]⟩ := by
  intro d hd
  have hall : ∀ d < 10, isBlank d.digitChar = false ∧ d.digitChar ≠ '"'
      ∧ isWordChar d.digitChar = false
      ∧ (d.digitChar = '-' || ('0' ≤ d.digitChar && d.digitChar ≤ '9')) = true := by decide
  obtain ⟨hblank, hquote, hword, hdigit⟩ := hall d hd
  unfold begin?
  rw [hblank, hword, if_neg Bool.false_ne_true, if_neg hquote, if_neg Bool.false_ne_true,
    if_pos hdigit]

open Numeral in
/-- The characters of a numeral belong to a number. -/
theorem isNumberChar_of_mem_chars {n : Numeral} (h : n.IsProper) :
    ∀ c ∈ n.chars, isNumberChar c = true := by
  have hdigits : ∀ {ds : List Nat}, (∀ d ∈ ds, d < 10) → ∀ c ∈ digitChars ds,
      isNumberChar c = true := by
    intro ds hds c hc
    obtain ⟨d, hd, rfl⟩ := List.mem_map.mp hc
    exact isNumberChar_digitChar d (hds d hd)
  obtain ⟨negative, whole, fraction, exponent⟩ := n
  obtain ⟨⟨-, hwhole⟩, hfraction, hexponent⟩ := h
  intro c hc
  simp only [Numeral.chars, List.mem_append] at hc
  rcases hc with hc | hc | hc | hc
  · split at hc
    · rw [List.mem_singleton.mp hc]
      decide
    · cases hc
  · exact hdigits hwhole c hc
  · cases fraction with
    | none => cases hc
    | some ds =>
      rcases List.mem_cons.mp hc with rfl | hc
      · decide
      · exact hdigits (hfraction ds rfl).2 c hc
  · cases exponent with
    | none => cases hc
    | some e =>
      obtain ⟨sign, ds⟩ := e
      rcases List.mem_cons.mp hc with rfl | hc
      · decide
      · rcases List.mem_cons.mp hc with rfl | hc
        · cases sign <;> decide
        · exact hdigits (hexponent sign ds rfl).2 c hc

open Numeral in
/-- **A numeral is read as itself**, if it can be read at all. -/
theorem rest_number {n : Numeral} (h : n.IsProper) (hplain : n.isPlain = true)
    (read : List Lexeme) {b : List Char} (hb : Ends b) :
    rest ⟨read, .between⟩ (n.chars ++ b) = rest ⟨.number n :: read, .between⟩ b := by
  have hread : number? n.chars = some (.number n) := by
    unfold number?
    rw [ofChars?_chars h]
    exact if_pos hplain
  have hall := isNumberChar_of_mem_chars h
  -- The first character is a minus sign or a digit.
  have hfirst : ∃ c a, n.chars = c :: a ∧ begin? read c = some ⟨read, .number [c]⟩ := by
    obtain ⟨negative, whole, fraction, exponent⟩ := n
    cases negative with
    | true => exact ⟨'-', _, rfl, rfl⟩
    | false =>
      cases whole with
      | nil => exact absurd rfl h.whole.1
      | cons d whole =>
        exact ⟨d.digitChar, _, rfl, begin?_digitChar read d (h.whole.2 d List.mem_cons_self)⟩
  obtain ⟨c, a, hchars, hbegin⟩ := hfirst
  have hrun : (⟨read, .between⟩ : Scanner).run n.chars = some ⟨read, .number n.chars.reverse⟩ := by
    rw [hchars] at hall ⊢
    show (begin? read c).bind _ = _
    rw [hbegin, Option.bind_some, run_number fun c hc => hall c (List.mem_cons_of_mem _ hc),
      List.reverse_cons]
  rw [rest_append hrun]
  refine rest_of_flush ?_ (fun c hc => ?_) hb
  · show (number? n.chars.reverse.reverse).map _ = _
    rw [List.reverse_reverse, hread]
    rfl
  · exact if_neg (by rw [hc.2]; exact Bool.false_ne_true)

end Scanner

/-! ## The tree of a value -/

mutual

/-- **The tree that a value is written as.** -/
def tree : Json → Tree
  | .null => .null
  | .bool b => .bool b
  | .number n => .number n.numeral
  | .string s => .string (lettersOf s)
  | .array items => .array (itemTrees items)
  | .objectOf members => .object (memberTrees members)

/-- The trees of the items of an array. -/
def itemTrees : List Json → List Tree
  | [] => []
  | v :: vs => v.tree :: itemTrees vs

/-- The trees of the members of an object, with their names. -/
def memberTrees : List (String × Json) → List (List Letter × Tree)
  | [] => []
  | (name, v) :: ms => (lettersOf name, v.tree) :: memberTrees ms

end

open Scanner Json.Tree

theorem ends_itemsChars (vs : List Json) (b : List Char) : Ends (itemsChars vs ++ b) := by
  cases vs with
  | nil => rw [itemsChars]; exact ends_cons (by decide) _
  | cons v vs => rw [itemsChars]; exact ends_cons (by decide) _

theorem ends_membersChars (ms : List (String × Json)) (b : List Char) :
    Ends (membersChars ms ++ b) := by
  cases ms with
  | nil => rw [membersChars]; exact ends_cons (by decide) _
  | cons m ms => rw [membersChars]; exact ends_cons (by decide) _

mutual

/-- **A written value is read as the lexemes of its tree.** -/
theorem rest_chars : (v : Json) → (before : List Lexeme) → (b : List Char) → Ends b →
    rest ⟨before, .between⟩ (v.chars ++ b) = rest ⟨v.tree.lexemes.reverse ++ before, .between⟩ b
  | .null, before, b, hb => by
    rw [chars, tree, lexemes]
    exact rest_word rfl rfl hb
  | .bool true, before, b, hb => by
    rw [chars, tree, lexemes]
    exact rest_word rfl rfl hb
  | .bool false, before, b, hb => by
    rw [chars, tree, lexemes]
    exact rest_word rfl rfl hb
  | .number n, before, b, hb => by
    obtain ⟨hproper, hplain⟩ := n.fit_numeral
    rw [chars, tree, lexemes, n.numberChars_eq]
    exact rest_number hproper hplain before hb
  | .string s, before, b, _ => by
    rw [chars, tree, lexemes]
    exact rest_quote before s b
  | .array [], before, b, _ => by
    rw [chars, tree, itemTrees, lexemes]
    refine (rest_mark (l := .openArray) rfl _).trans ?_
    exact rest_mark (l := .closeArray) rfl b
  | .array (v :: vs), before, b, _ => by
    rw [chars, tree, itemTrees, lexemes, List.cons_append, List.append_assoc]
    refine (rest_mark (l := .openArray) rfl _).trans ?_
    rw [rest_chars v _ _ (ends_itemsChars vs b), rest_itemsChars vs]
    simp only [List.reverse_cons, List.reverse_append, List.append_assoc, List.singleton_append]
  | .objectOf [], before, b, _ => by
    rw [chars, tree, memberTrees, lexemes]
    refine (rest_mark (l := .openObject) rfl _).trans ?_
    exact rest_mark (l := .closeObject) rfl b
  | .objectOf ((name, v) :: ms), before, b, _ => by
    rw [chars, tree, memberTrees, lexemes, List.cons_append, List.append_assoc,
      List.cons_append, List.append_assoc]
    refine (rest_mark (l := .openObject) rfl _).trans ?_
    rw [rest_quote]
    refine (rest_mark (l := .colon) rfl _).trans ?_
    rw [rest_chars v _ _ (ends_membersChars ms b), rest_membersChars ms]
    simp only [List.reverse_cons, List.reverse_append, List.append_assoc, List.cons_append,
      List.nil_append]

theorem rest_itemsChars : (vs : List Json) → (before : List Lexeme) → (b : List Char) →
    rest ⟨before, .between⟩ (itemsChars vs ++ b)
      = rest ⟨(itemsLexemes (itemTrees vs)).reverse ++ before, .between⟩ b
  | [], before, b => by
    rw [itemsChars, itemTrees, itemsLexemes]
    exact rest_mark (l := .closeArray) rfl b
  | v :: vs, before, b => by
    rw [itemsChars, itemTrees, itemsLexemes, List.cons_append, List.append_assoc]
    refine (rest_mark (l := .comma) rfl _).trans ?_
    rw [rest_chars v _ _ (ends_itemsChars vs b), rest_itemsChars vs]
    simp only [List.reverse_cons, List.reverse_append, List.append_assoc, List.singleton_append]

theorem rest_membersChars : (ms : List (String × Json)) → (before : List Lexeme) →
    (b : List Char) → rest ⟨before, .between⟩ (membersChars ms ++ b)
      = rest ⟨(membersLexemes (memberTrees ms)).reverse ++ before, .between⟩ b
  | [], before, b => by
    rw [membersChars, memberTrees, membersLexemes]
    exact rest_mark (l := .closeObject) rfl b
  | (name, v) :: ms, before, b => by
    rw [membersChars, memberTrees, membersLexemes, List.cons_append, List.append_assoc,
      List.cons_append, List.append_assoc]
    refine (rest_mark (l := .comma) rfl _).trans ?_
    rw [rest_quote]
    refine (rest_mark (l := .colon) rfl _).trans ?_
    rw [rest_chars v _ _ (ends_membersChars ms b), rest_membersChars ms]
    simp only [List.reverse_cons, List.reverse_append, List.append_assoc, List.cons_append,
      List.nil_append]

end

theorem lexemes?_chars (v : Json) : lexemes? v.chars = some v.tree.lexemes := by
  have h := rest_chars v [] [] fun _ hc => nomatch hc
  rw [List.append_nil, List.append_nil] at h
  refine h.trans ?_
  show some v.tree.lexemes.reverse.reverse = _
  rw [List.reverse_reverse]

/-- **A written value is read as its tree.** -/
theorem ofChars?_chars (v : Json) : Tree.ofChars? v.chars = some v.tree := by
  have h := Place.run_lexemes v.tree .top []
  rw [List.append_nil] at h
  unfold Tree.ofChars?
  rw [lexemes?_chars, Option.bind_some, h]
  rfl

end Json

end Resampler
