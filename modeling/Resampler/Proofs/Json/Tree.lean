import Resampler.Json.Tree

/-!
# Trees and their lexemes

`Tree.lexemes` takes a tree apart into lexemes, and building a tree from these
gives it back, wherever it stands (`Place.run_lexemes`).

The automata that read a text say more than that. A text that is an array or an
object is finished: the scanner is between two lexemes, and the place is after
a value with nothing around it. So nothing but blanks can be put behind such a
text (`ofChars?_append`). Texts that are a number or a word are different, for
they may go on.
-/

namespace Resampler

namespace Json

namespace Tree

mutual

/-- **The lexemes of a tree.** -/
def lexemes : Tree → List Lexeme
  | .null => [.null]
  | .bool b => [.bool b]
  | .number n => [.number n]
  | .string s => [.string s]
  | .array [] => [.openArray, .closeArray]
  | .array (t :: ts) => .openArray :: (t.lexemes ++ itemsLexemes ts)
  | .object [] => [.openObject, .closeObject]
  | .object ((name, t) :: ms) =>
    .openObject :: .string name :: .colon :: (t.lexemes ++ membersLexemes ms)

/-- The lexemes of the further items of an array, each after a comma, and of its
end. -/
def itemsLexemes : List Tree → List Lexeme
  | [] => [.closeArray]
  | t :: ts => .comma :: (t.lexemes ++ itemsLexemes ts)

/-- The lexemes of the further members of an object, each after a comma, and of
its end. -/
def membersLexemes : List (List Letter × Tree) → List Lexeme
  | [] => [.closeObject]
  | (name, t) :: ms =>
    .comma :: .string name :: .colon :: (t.lexemes ++ membersLexemes ms)

end

namespace Place

theorem run_cons {p q : Place} {l : Lexeme} (h : p.step l = some q) (rest : List Lexeme) :
    p.run (l :: rest) = q.run rest := by
  rw [run, h]
  rfl

/-- The first item of an array is read like any other. -/
theorem run_firstItem (t : Tree) (outer : Enclosure) (rest : List Lexeme) :
    (firstItem outer).run (t.lexemes ++ rest)
      = (value (.item [] outer)).run (t.lexemes ++ rest) := by
  cases t with
  | array items => cases items <;> rw [lexemes] <;> rfl
  | object members =>
    cases members with
    | nil => rw [lexemes]; rfl
    | cons member ms => rw [lexemes]; rfl
  | _ => rw [lexemes]; rfl

mutual

/-- **The lexemes of a tree build it.** -/
theorem run_lexemes : (t : Tree) → (e : Enclosure) → (rest : List Lexeme) →
    (value e).run (t.lexemes ++ rest) = (done t e).run rest
  | .null, e, rest => by rw [lexemes]; rfl
  | .bool b, e, rest => by rw [lexemes]; rfl
  | .number n, e, rest => by rw [lexemes]; rfl
  | .string s, e, rest => by rw [lexemes]; rfl
  | .array [], e, rest => by rw [lexemes]; rfl
  | .array (t :: ts), e, rest => by
    rw [lexemes, List.cons_append, List.append_assoc]
    refine (run_cons (q := firstItem e) rfl _).trans ?_
    rw [run_firstItem, run_lexemes t, run_itemsLexemes ts]
    rfl
  | .object [], e, rest => by rw [lexemes]; rfl
  | .object ((label, t) :: ms), e, rest => by
    rw [lexemes, List.cons_append, List.cons_append, List.cons_append, List.append_assoc]
    refine (run_cons (q := firstName e) rfl _).trans ?_
    refine (run_cons (q := colon [] label e) rfl _).trans ?_
    refine (run_cons (q := value (.member [] label e)) rfl _).trans ?_
    rw [run_lexemes t, run_membersLexemes ms]
    rfl

theorem run_itemsLexemes : (ts : List Tree) → (t : Tree) → (before : List Tree) →
    (outer : Enclosure) → (rest : List Lexeme) →
    (done t (.item before outer)).run (itemsLexemes ts ++ rest)
      = (done (.array (before.reverse ++ t :: ts)) outer).run rest
  | [], t, before, outer, rest => by rw [itemsLexemes]; rfl
  | t' :: ts, t, before, outer, rest => by
    rw [itemsLexemes, List.cons_append, List.append_assoc]
    refine (run_cons (q := value (.item (t :: before) outer)) rfl _).trans ?_
    rw [run_lexemes t', run_itemsLexemes ts, List.reverse_cons, List.append_assoc]
    rfl

theorem run_membersLexemes : (ms : List (List Letter × Tree)) → (t : Tree) →
    (before : List (List Letter × Tree)) → (label : List Letter) → (outer : Enclosure) →
    (rest : List Lexeme) →
    (done t (.member before label outer)).run (membersLexemes ms ++ rest)
      = (done (.object (before.reverse ++ (label, t) :: ms)) outer).run rest
  | [], t, before, label, outer, rest => by rw [membersLexemes]; rfl
  | (label', t') :: ms, t, before, label, outer, rest => by
    rw [membersLexemes, List.cons_append, List.cons_append, List.cons_append,
      List.append_assoc]
    refine (run_cons (q := .name ((label, t) :: before) outer) rfl _).trans ?_
    refine (run_cons (q := colon ((label, t) :: before) label' outer) rfl _).trans ?_
    refine (run_cons (q := value (.member ((label, t) :: before) label' outer)) rfl _).trans ?_
    rw [run_lexemes t', run_membersLexemes ms, List.reverse_cons, List.append_assoc]
    rfl

end

/-- Nothing goes on after a whole value. -/
theorem run_done_top (t : Tree) (l : Lexeme) (rest : List Lexeme) :
    (done t .top).run (l :: rest) = none := by
  rw [run]
  cases l <;> rfl

end Place

/-! ## What may follow a text -/

/-- Whether a tree is an array or an object. -/
def isCompound : Tree → Bool
  | .array _ => true
  | .object _ => true
  | _ => false

/-- An array or an object is done at its closing bracket. -/
theorem Place.closes_of_step {p : Place} {l : Lexeme} {t : Tree} {e : Enclosure}
    (h : p.step l = some (.done t e)) (ht : t.isCompound = true) :
    l = .closeArray ∨ l = .closeObject := by
  cases p with
  | value e' =>
    cases l <;> cases h <;> cases ht
  | firstItem outer =>
    cases l <;> cases h <;> first | exact .inl rfl | cases ht
  | done v e' =>
    cases e' with
    | top => cases l <;> cases h
    | item before outer => cases l <;> cases h; exact .inl rfl
    | member before label outer => cases l <;> cases h; exact .inr rfl
  | firstName outer => cases l <;> cases h; exact .inr rfl
  | name before outer => cases l <;> cases h
  | colon before label outer => cases l <;> cases h

end Tree

namespace Scanner

/-- The scanner after lexemes that were read before. -/
def after (s : Scanner) (before : List Lexeme) : Scanner := ⟨s.read ++ before, s.scanning⟩

variable (s : Scanner) (before : List Lexeme)

theorem flush_after : (s.after before).flush = s.flush.map (·.after before) := by
  obtain ⟨read, scanning⟩ := s
  cases scanning with
  | word typed =>
    show (word? typed.reverse).map _ = ((word? typed.reverse).map _).map _
    rw [Option.map_map]
    rfl
  | number typed =>
    show (number? typed.reverse).map _ = ((number? typed.reverse).map _).map _
    rw [Option.map_map]
    rfl
  | _ => rfl

theorem begin?_append (read : List Lexeme) (c : Char) :
    begin? (read ++ before) c = (begin? read c).map (·.after before) := by
  unfold begin?
  split
  · rfl
  · split
    · rfl
    · split
      · rfl
      · split
        · rfl
        · rw [Option.map_map]
          rfl

/-- What was read before does not matter to a step. -/
theorem step_after (c : Char) : (s.after before).step c = (s.step c).map (·.after before) := by
  have hnext : ((s.after before).flush.bind fun s => begin? s.read c)
      = (s.flush.bind fun s => begin? s.read c).map (·.after before) := by
    rw [flush_after]
    cases s.flush with
    | none => rfl
    | some s' => exact begin?_append before s'.read c
  obtain ⟨read, scanning⟩ := s
  cases scanning with
  | between => exact begin?_append before read c
  | word typed =>
    show (if isWordChar c then _ else _) = Option.map _ (if isWordChar c then _ else _)
    split
    · rfl
    · exact hnext
  | number typed =>
    show (if isNumberChar c then _ else _) = Option.map _ (if isNumberChar c then _ else _)
    split
    · rfl
    · exact hnext
  | string letters =>
    show (if c = '"' then _ else _) = Option.map _ (if c = '"' then _ else _)
    split
    · rfl
    · split
      · rfl
      · split <;> rfl
  | escape letters =>
    show (if c = 'u' then _ else _) = Option.map _ (if c = 'u' then _ else _)
    split
    · rfl
    · show Option.map _ _ = Option.map _ (Option.map _ _)
      rw [Option.map_map]
      rfl
  | code letters missing value =>
    show Option.map _ (hexValue? c) = Option.map _ (Option.map _ (hexValue? c))
    rw [Option.map_map]
    congr 1
    funext d
    dsimp only [Function.comp]
    split <;> rfl

theorem run_after (text : List Char) :
    (s.after before).run text = (s.run text).map (·.after before) := by
  induction text generalizing s with
  | nil => rfl
  | cons c text ih =>
    rw [run, run, step_after]
    cases s.step c with
    | none => rfl
    | some s' => exact ih s'

theorem finish_after :
    (s.after before).finish = s.finish.map (before.reverse ++ ·) := by
  unfold finish
  rw [flush_after]
  cases s.flush with
  | none => rfl
  | some s' =>
    obtain ⟨read, scanning⟩ := s'
    cases scanning with
    | between =>
      show some (read ++ before).reverse = some (before.reverse ++ read.reverse)
      rw [List.reverse_append]
    | _ => rfl

end Scanner

/-- **What is read between two lexemes** comes after those before. -/
theorem lexemes?_append {a : List Char} {read : List Lexeme}
    (h : Scanner.start.run a = some ⟨read, .between⟩) (b : List Char) :
    lexemes? (a ++ b) = (lexemes? b).map (read.reverse ++ ·) := by
  have hafter : (⟨read, .between⟩ : Scanner) = Scanner.start.after read := rfl
  unfold lexemes?
  rw [Scanner.run_append, h, Option.bind_some, hafter, Scanner.run_after]
  cases Scanner.start.run b with
  | none => rfl
  | some s => exact s.finish_after read

namespace Tree

/-- **A text that is an array or an object is finished.** -/
theorem exists_between {a : List Char} {t : Tree} (h : ofChars? a = some t)
    (ht : t.isCompound = true) : ∃ read, Scanner.start.run a = some ⟨read, .between⟩
      ∧ (Place.value .top).run read.reverse = some (.done t .top) := by
  obtain ⟨p, hp, hfinish⟩ := Option.bind_eq_some_iff.mp h
  obtain ⟨ls, hls, hrun⟩ := Option.bind_eq_some_iff.mp hp
  obtain ⟨s, hs, hends⟩ := Option.bind_eq_some_iff.mp hls
  obtain rfl : p = .done t .top := by
    unfold Place.finish at hfinish
    split at hfinish
    · cases hfinish
      rfl
    · cases hfinish
  obtain ⟨read, scanning⟩ := s
  -- A last lexeme that is only finished by the end of the text closes nothing.
  have hlast : ∀ l, ls = (l :: read).reverse → l ≠ .closeArray → l ≠ .closeObject → False := by
    rintro l rfl harray hobject
    rw [List.reverse_cons, Place.run_append] at hrun
    obtain ⟨p', -, hstep⟩ := Option.bind_eq_some_iff.mp hrun
    rw [Place.run] at hstep
    obtain ⟨p'', hstep, hsame⟩ := Option.bind_eq_some_iff.mp hstep
    cases hsame
    rcases Place.closes_of_step hstep ht with rfl | rfl
    · exact harray rfl
    · exact hobject rfl
  cases scanning with
  | between =>
    cases hends
    exact ⟨read, hs, hrun⟩
  | word typed =>
    obtain ⟨s', hflush, hends⟩ := Option.bind_eq_some_iff.mp hends
    obtain ⟨l, hl, rfl⟩ := Option.map_eq_some_iff.mp hflush
    cases hends
    refine (hlast l rfl ?_ ?_).elim <;>
    · rintro rfl
      unfold Scanner.word? at hl
      repeat' split at hl
      all_goals cases hl
  | number typed =>
    obtain ⟨s', hflush, hends⟩ := Option.bind_eq_some_iff.mp hends
    obtain ⟨l, hl, rfl⟩ := Option.map_eq_some_iff.mp hflush
    cases hends
    refine (hlast l rfl ?_ ?_).elim <;>
    · rintro rfl
      unfold Scanner.number? at hl
      repeat' split at hl
      all_goals cases hl
  | string letters => cases hends
  | escape letters => cases hends
  | code letters missing value => cases hends

/-- **Behind an array or an object there may only be blanks.** -/
theorem ofChars?_append {a b : List Char} {t : Tree} (h : ofChars? a = some t)
    (ht : t.isCompound = true) (hb : lexemes? b ≠ some []) : ofChars? (a ++ b) = none := by
  obtain ⟨read, hs, hrun⟩ := exists_between h ht
  unfold ofChars?
  rw [lexemes?_append hs]
  cases hls : lexemes? b with
  | none => rfl
  | some ls =>
    cases ls with
    | nil => exact absurd hls hb
    | cons l ls =>
      show ((Place.value .top).run (read.reverse ++ l :: ls)).bind Place.finish = none
      rw [Place.run_append, hrun, Option.bind_some, Place.run_done_top]
      rfl

/-- A text that ends with a brace has a lexeme. -/
theorem lexemes?_brace_ne_nil (a : List Char) : lexemes? (a ++ ['\x7d']) ≠ some [] := by
  intro h
  obtain ⟨s, hs, hends⟩ := Option.bind_eq_some_iff.mp h
  rw [Scanner.run_append] at hs
  obtain ⟨s', -, hstep⟩ := Option.bind_eq_some_iff.mp hs
  rw [Scanner.run] at hstep
  obtain ⟨s'', hstep, hsame⟩ := Option.bind_eq_some_iff.mp hstep
  cases hsame
  obtain ⟨read, scanning⟩ := s'
  -- Outside of strings the brace is a lexeme, and a string does not end with it.
  have hpushed : ∀ s₀ : Scanner, Scanner.begin? s₀.read '\x7d' = some s → False := by
    intro s₀ hs
    cases hs
    obtain ⟨s₁, hflush, hends⟩ := Option.bind_eq_some_iff.mp hends
    cases hflush
    exact absurd (Option.some.inj hends) (by simp)
  cases scanning with
  | between => exact hpushed ⟨read, .between⟩ hstep
  | word typed =>
    obtain ⟨s₀, -, hs⟩ := Option.bind_eq_some_iff.mp hstep
    exact hpushed s₀ hs
  | number typed =>
    obtain ⟨s₀, -, hs⟩ := Option.bind_eq_some_iff.mp hstep
    exact hpushed s₀ hs
  | string letters =>
    cases hstep
    cases hends
  | escape letters => cases hstep
  | code letters missing value => cases hstep

end Tree

end Json

end Resampler
