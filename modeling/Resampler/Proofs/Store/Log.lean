import Resampler.Proofs.Store.Record
import Resampler.Proofs.Text.Utf8
import Resampler.Store.Log

/-!
# Logs, line by line

What is read from a log is settled by its ended lines, those before the last
line feed, and by the last line, which no line feed ends (`read_eq`). A record
that is appended comes on that last line and ends it, so what was on the line
before decides whether the record can be read: the line must hold nothing but
blanks of JSON (`endsClear`). If it does, reading the longer log gives the
entries of the shorter one and the new record (`read_append`); if it does not,
that line is corrupt from then on, whatever is appended later
(`read_append_of_error`).

A log of written records alone, `written`, is always read as these records
(`read_written`). Cut off anywhere it holds the records before the cut and a part
of the record that the cut falls into, and unless the part is all of the record
or nothing of it, the log cannot be read (`Cut`, `read_take`).
-/

namespace Resampler

namespace Log

open Utf8

/-! ## Lines -/

theorem lines_ne_nil (content : List UInt8) : lines content ≠ [] := by
  cases content with
  | nil => exact List.cons_ne_nil _ _
  | cons b rest =>
    rw [lines]
    split
    · exact List.cons_ne_nil _ _
    · split <;> exact List.cons_ne_nil _ _

/-- A byte that is no line feed comes first on the first line. -/
theorem lines_cons {b : UInt8} (hb : b ≠ 10) {rest l : List UInt8} {ls : List (List UInt8)}
    (h : lines rest = l :: ls) : lines (b :: rest) = (b :: l) :: ls := by
  rw [lines, if_neg hb, h]

/-- Bytes without a line feed are one line. -/
theorem lines_of_not_mem {l : List UInt8} (h : 10 ∉ l) : lines l = [l] := by
  induction l with
  | nil => rfl
  | cons b rest ih =>
    have hb : b ≠ 10 := fun heq => h (heq ▸ List.mem_cons_self)
    exact lines_cons hb (ih fun hr => h (List.mem_cons_of_mem _ hr))

/-- **A line feed ends a line**, and what comes after it has its own lines. -/
theorem lines_append (a b : List UInt8) : lines (a ++ 10 :: b) = lines a ++ lines b := by
  induction a with
  | nil => rfl
  | cons c a ih =>
    by_cases hc : c = 10
    · rw [List.cons_append, lines, if_pos hc, lines, if_pos hc, ih]
      rfl
    · obtain ⟨l, ls, hls⟩ := List.exists_cons_of_ne_nil (lines_ne_nil a)
      rw [List.cons_append, lines_cons hc hls]
      refine lines_cons hc ?_
      rw [ih, hls]
      rfl

/-- The lines that are ended by a line feed. -/
def endedLines (content : List UInt8) : List (List UInt8) := (lines content).dropLast

/-- **The last line**: what stands after the last line feed. -/
def lastLine (content : List UInt8) : List UInt8 := (lines content).getLast (lines_ne_nil content)

theorem lines_eq (content : List UInt8) :
    lines content = endedLines content ++ [lastLine content] :=
  (List.dropLast_concat_getLast _).symm

theorem length_lines (content : List UInt8) :
    (lines content).length = (endedLines content).length + 1 := by
  rw [lines_eq, List.length_append]
  rfl

/-- How lines fall into the ended ones and the last. -/
theorem endedLines_eq {content last : List UInt8} {ended : List (List UInt8)}
    (h : lines content = ended ++ [last]) :
    endedLines content = ended ∧ lastLine content = last := by
  have hsame := (lines_eq content).symm.trans h
  obtain ⟨hended, hlast⟩ := List.append_inj' hsame rfl
  exact ⟨hended, List.singleton_inj.mp hlast⟩

/-- **Bytes without a line feed come on the last line.** -/
theorem lines_append_of_not_mem (content : List UInt8) {l : List UInt8} (h : 10 ∉ l) :
    lines (content ++ l) = endedLines content ++ [lastLine content ++ l] := by
  induction content with
  | nil => exact lines_of_not_mem h
  | cons b rest ih =>
    have hrest := lines_eq rest
    by_cases hb : b = 10
    · have hlines : lines (b :: rest) = ([] :: endedLines rest) ++ [lastLine rest] := by
        rw [lines, if_pos hb, hrest]
        rfl
      rw [(endedLines_eq hlines).1, (endedLines_eq hlines).2, List.cons_append, lines, if_pos hb,
        ih]
      rfl
    · cases hended : endedLines rest with
      | nil =>
        rw [hended] at ih hrest
        have hlines : lines (b :: rest) = [] ++ [b :: lastLine rest] := lines_cons hb hrest
        rw [(endedLines_eq hlines).1, (endedLines_eq hlines).2]
        exact lines_cons hb ih
      | cons l' ls =>
        rw [hended] at ih hrest
        have hlines : lines (b :: rest) = ((b :: l') :: ls) ++ [lastLine rest] :=
          lines_cons hb hrest
        rw [(endedLines_eq hlines).1, (endedLines_eq hlines).2]
        exact lines_cons hb ih

/-! ## Lines of records -/

/-- The line of a record. -/
def line (r : Record) : List UInt8 := encode r.chars

theorem lineFeed_not_mem_line (r : Record) : 10 ∉ line r :=
  fun h => r.lineFeed_not_mem_chars (lineFeed_mem_encode h)

theorem append_eq (content : List UInt8) (r : Record) :
    append content r = content ++ line r ++ 10 :: [] := by
  rw [append, encode_append, List.append_assoc]
  rfl

/-- **A record is appended on the last line**, and ends it. -/
theorem lines_append_record (content : List UInt8) (r : Record) :
    lines (append content r) = endedLines content ++ [lastLine content ++ line r] ++ [[]] := by
  rw [append_eq, lines_append, lines_append_of_not_mem content (lineFeed_not_mem_line r)]
  rfl

theorem endedLines_append (content : List UInt8) (r : Record) :
    endedLines (append content r) = endedLines content ++ [lastLine content ++ line r]
      ∧ lastLine (append content r) = [] :=
  endedLines_eq (lines_append_record content r)

/-! ## Reading lines -/

theorem takeLines_append (n : Nat) (e : Entries) (a b : List (List UInt8)) :
    takeLines n e (a ++ b) = (takeLines n e a).bind fun e => takeLines (n + a.length) e b := by
  induction a generalizing n e with
  | nil => rfl
  | cons l a ih =>
    rw [List.cons_append, takeLines, takeLines]
    cases takeLine n e l with
    | error fault => rfl
    | ok e' =>
      dsimp only
      rw [ih, List.length_cons, Nat.add_right_comm, ← Nat.add_assoc]

theorem takeLines_singleton (n : Nat) (e : Entries) (l : List UInt8) :
    takeLines n e [l] = takeLine n e l := by
  rw [takeLines]
  cases takeLine n e l <;> rfl

/-- **What the ended lines of a log come to.** -/
def settled (content : List UInt8) : Except Fault Entries :=
  takeLines 1 .empty (endedLines content)

/-- **A log is read up to its last line and then that line.** -/
theorem read_eq (content : List UInt8) :
    read content = (settled content).bind fun e =>
      takeLine (lines content).length e (lastLine content) := by
  rw [read, lines_eq, takeLines_append, List.length_append, Nat.add_comm 1]
  simp only [takeLines_singleton]
  rfl

/-- An appended record is settled together with what was on its line before. -/
theorem settled_append (content : List UInt8) (r : Record) :
    settled (append content r) = (settled content).bind fun e =>
      takeLine (lines content).length e (lastLine content ++ line r) := by
  rw [settled, (endedLines_append content r).1, takeLines_append, length_lines, Nat.add_comm 1]
  simp only [takeLines_singleton]
  rfl

/-- Behind an appended record there is nothing. -/
theorem read_append_eq (content : List UInt8) (r : Record) :
    read (append content r) = settled (append content r) := by
  rw [read_eq, (endedLines_append content r).2]
  cases settled (append content r) <;> rfl

/-! ## Appending to a log that can be read -/

section

variable {r : Record} {n : Nat} {e e' : Entries} {l : List UInt8} {text : List Char}

/-- Text with a record behind it is not blank. -/
theorem not_all_isBlank_append_chars (text : List Char) (r : Record) :
    ¬ (text ++ r.chars).all isBlank = true := by
  obtain ⟨rest, hrest⟩ := r.exists_chars_eq
  have hbrace : isBlank '\x7b' = false := rfl
  simp [hrest, hbrace]

/-- A line with a record behind it, as it is taken. -/
theorem takeLine_append_line (h : decode? l = some text) (r : Record) :
    takeLine n e (l ++ line r) =
      match Record.ofChars? (text ++ r.chars) with
      | none => .error (.corrupt n)
      | some r => .ok (e.insertIfAbsent r.key r.value) := by
  have hwhole : decode? (l ++ line r) = some (text ++ r.chars) := by
    rw [decode?_append h, line, decode?_encode]
    rfl
  rw [takeLine, hwhole]
  exact if_neg (not_all_isBlank_append_chars text r)

/-- **The line of a record is taken as that record.** -/
theorem takeLine_line (hr : r.key ≤ Numeral.wordMax) :
    takeLine n e (line r) = .ok (e.insertIfAbsent r.key r.value) := by
  have h := takeLine_append_line (n := n) (e := e) (l := []) rfl r
  rw [List.nil_append, List.nil_append, Record.ofChars?_chars hr] at h
  exact h

/-- Whether a line holds nothing but blanks of JSON. -/
def isClear (l : List UInt8) : Bool :=
  match decode? l with
  | some text => text.all Json.Scanner.isBlank
  | none => false

theorem isBlank_of_scanner {c : Char} (h : Json.Scanner.isBlank c = true) : isBlank c = true := by
  simp only [Json.Scanner.isBlank, Bool.or_eq_true, decide_eq_true_eq] at h
  rcases h with ((rfl | rfl) | rfl) | rfl <;> rfl

/-- **What a line that could be taken is with a record behind it**: the record,
if the line is clear, and otherwise nothing that can be taken. -/
theorem takeLine_append_record (h : takeLine n e l = .ok e') (hr : r.key ≤ Numeral.wordMax) :
    takeLine n e (l ++ line r) =
      if isClear l then .ok (e'.insertIfAbsent r.key r.value) else .error (.corrupt n) := by
  unfold takeLine at h
  unfold isClear
  cases htext : decode? l with
  | none =>
    rw [htext] at h
    cases h
  | some text =>
    rw [htext] at h
    dsimp only at h ⊢
    rw [takeLine_append_line htext]
    by_cases hblank : text.all isBlank = true
    · rw [if_pos hblank] at h
      cases h
      by_cases hclear : text.all Json.Scanner.isBlank = true
      · rw [if_pos hclear, Record.ofChars?_blanks_append (List.all_eq_true.mp hclear) hr]
      · obtain ⟨c, hc, hnot⟩ : ∃ c ∈ text, ¬ Json.Scanner.isBlank c = true := by
          simpa using hclear
        rw [if_neg hclear, Record.ofChars?_white_append (List.all_eq_true.mp hblank)
          ⟨c, hc, Bool.eq_false_iff.mpr hnot⟩]
    · rw [if_neg hblank] at h
      have hclear : ¬ text.all Json.Scanner.isBlank = true := fun hclear =>
        hblank (List.all_eq_true.mpr fun c hc =>
          isBlank_of_scanner (List.all_eq_true.mp hclear c hc))
      cases hrecord : Record.ofChars? text with
      | none =>
        rw [hrecord] at h
        cases h
      | some r' => rw [if_neg hclear, Record.ofChars?_append_chars hrecord]

/-- Whether the last line is clear. -/
def endsClear (content : List UInt8) : Bool := isClear (lastLine content)

theorem endsClear_append (content : List UInt8) (r : Record) :
    endsClear (append content r) = true := by
  rw [endsClear, (endedLines_append content r).2]
  rfl

/-- **A log with one more record is read as the log and the record**, if its last
line is clear. If not, that line is corrupt with the record on it. -/
theorem read_append {content : List UInt8} (h : read content = .ok e)
    (hr : r.key ≤ Numeral.wordMax) :
    read (append content r) =
      if endsClear content then .ok (e.insertIfAbsent r.key r.value)
      else .error (.corrupt (lines content).length) := by
  rw [read_eq] at h
  rw [read_append_eq, settled_append]
  cases hsettled : settled content with
  | error fault =>
    rw [hsettled] at h
    cases h
  | ok e₀ =>
    rw [hsettled] at h
    exact takeLine_append_record h hr

/-- **What is settled as faulty stays faulty**, whatever is appended. -/
theorem read_append_of_error {content : List UInt8} {fault : Fault}
    (h : settled content = .error fault) (r : Record) :
    read (append content r) = .error fault ∧ settled (append content r) = .error fault := by
  rw [read_append_eq, settled_append, h]
  exact ⟨rfl, rfl⟩

end

/-! ## Logs that were written -/

/-- **The log of records.** -/
def written (rs : List Record) : List UInt8 := rs.flatMap fun r => line r ++ [10]

/-- The entries that records come to, the first under a key counting. -/
def entriesOf (rs : List Record) : Entries :=
  rs.foldl (fun e r => e.insertIfAbsent r.key r.value) .empty

theorem written_concat (rs : List Record) (r : Record) :
    written (rs ++ [r]) = append (written rs) r := by
  rw [append_eq, written, List.flatMap_append, List.append_assoc]
  simp [written]

theorem entriesOf_concat (rs : List Record) (r : Record) :
    entriesOf (rs ++ [r]) = (entriesOf rs).insertIfAbsent r.key r.value := by
  rw [entriesOf, List.foldl_append]
  rfl

/-- **A written log has one line for each record**, and an empty last line. -/
theorem lines_written (rs : List Record) : lines (written rs) = rs.map line ++ [[]] := by
  induction rs with
  | nil => rfl
  | cons r rs ih =>
    have hcons : written (r :: rs) = line r ++ 10 :: written rs := by simp [written]
    rw [hcons, lines_append, lines_of_not_mem (lineFeed_not_mem_line r), ih]
    rfl

theorem lastLine_written (rs : List Record) : lastLine (written rs) = [] :=
  (endedLines_eq (lines_written rs)).2

variable {rs : List Record}

/-- The lines of records are taken as these records. -/
theorem takeLines_map_line (h : ∀ r ∈ rs, r.key ≤ Numeral.wordMax) (n : Nat) (e : Entries) :
    takeLines n e (rs.map line)
      = .ok (rs.foldl (fun e r => e.insertIfAbsent r.key r.value) e) := by
  induction rs generalizing n e with
  | nil => rfl
  | cons r rs ih =>
    rw [List.map_cons, takeLines, takeLine_line (h r List.mem_cons_self)]
    exact ih (fun r hr => h r (List.mem_cons_of_mem _ hr)) (n + 1) _

theorem settled_written (h : ∀ r ∈ rs, r.key ≤ Numeral.wordMax) :
    settled (written rs) = .ok (entriesOf rs) := by
  rw [settled, (endedLines_eq (lines_written rs)).1]
  exact takeLines_map_line h 1 .empty

/-- **A written log is read as its records.** -/
theorem read_written (h : ∀ r ∈ rs, r.key ≤ Numeral.wordMax) :
    read (written rs) = .ok (entriesOf rs) := by
  rw [read_eq, settled_written h, lastLine_written]
  rfl

/-! ## Logs that were cut off -/

/-- **What is left of a written log after a cut**, as reading takes it. -/
inductive Cut (rs : List Record) (n : Nat) : Except Fault (List Record) → Prop where
  /-- The cut falls between two lines, or behind the last. -/
  | between (before after : List Record) (records : rs = before ++ after)
    (left : (written rs).take n = written before) : Cut rs n (.ok before)
  /-- Of a record only its line feed is missing. -/
  | unended (before after : List Record) {r : Record} (records : rs = before ++ r :: after)
    (left : (written rs).take n = written before ++ line r) : Cut rs n (.ok (before ++ [r]))
  /-- The cut falls into a record. Whether its part is a text depends on whether the
  cut falls between two characters. -/
  | within (before after : List Record) {r : Record} {part missing : List UInt8}
    (records : rs = before ++ r :: after) (parts : line r = part ++ missing)
    (started : part ≠ []) (unfinished : missing ≠ [])
    (left : (written rs).take n = written before ++ part) :
    Cut rs n (.error (if (decode? part).isSome then .corrupt (before.length + 1)
      else .unreadable))

/-- **Every cut is one of these.** -/
theorem exists_cut (rs : List Record) (n : Nat) : ∃ outcome, Cut rs n outcome := by
  induction rs generalizing n with
  | nil => exact ⟨_, .between [] [] rfl List.take_nil⟩
  | cons r rs ih =>
    have hcons : written (r :: rs) = line r ++ 10 :: written rs := by simp [written]
    rcases Nat.lt_trichotomy n (line r).length with hn | rfl | hn
    · have hleft : (written (r :: rs)).take n = (line r).take n := by
        rw [hcons, List.take_append_of_le_length (Nat.le_of_lt hn)]
      rcases Nat.eq_zero_or_pos n with rfl | hpos
      · exact ⟨_, .between [] _ rfl rfl⟩
      · refine ⟨_, .within [] rs rfl (List.take_append_drop n (line r)).symm ?_ ?_ hleft⟩
        · exact List.ne_nil_of_length_pos (by rw [List.length_take]; omega)
        · exact List.ne_nil_of_length_pos (by rw [List.length_drop]; omega)
    · exact ⟨_, .unended [] rs rfl (by rw [hcons, List.take_left]; rfl)⟩
    · obtain ⟨m, rfl⟩ := Nat.exists_eq_add_of_lt hn
      have hleft : (written (r :: rs)).take ((line r).length + m + 1)
          = line r ++ 10 :: (written rs).take m := by
        rw [hcons, Nat.add_assoc, List.take_length_add_append]
        rfl
      have hbefore : ∀ before, written (r :: before) = line r ++ 10 :: written before := by
        intro before
        simp [written]
      obtain ⟨outcome, hcut⟩ := ih m
      cases hcut with
      | between before after records left =>
        exact ⟨_, .between (r :: before) after (by rw [records]; rfl)
          (by rw [hleft, left, hbefore])⟩
      | unended before after records left =>
        exact ⟨_, .unended (r :: before) after (by rw [records]; rfl)
          (by rw [hleft, left, hbefore]; simp)⟩
      | within before after records parts started unfinished left =>
        exact ⟨_, .within (r :: before) after (by rw [records]; rfl) parts started unfinished
          (by rw [hleft, left, hbefore]; simp)⟩

/-- Bytes behind a written log, without a line feed, are its last line. -/
theorem read_written_append (rs : List Record) (h : ∀ r ∈ rs, r.key ≤ Numeral.wordMax)
    {part : List UInt8} (hpart : 10 ∉ part) :
    read (written rs ++ part) = takeLine (rs.length + 1) (entriesOf rs) part := by
  have hlines := lines_append_of_not_mem (written rs) hpart
  have hsame : settled (written rs ++ part) = settled (written rs) := by
    rw [settled, settled, (endedLines_eq hlines).1]
  rw [read_eq, hsame, settled_written h, (endedLines_eq hlines).2, lastLine_written, length_lines,
    (endedLines_eq hlines).1, (endedLines_eq (lines_written rs)).1, List.length_map]
  rfl

/-- A part of a record is no line of a log. -/
theorem takeLine_part {n : Nat} {e : Entries} {r : Record} {part missing : List UInt8}
    (hr : r.key ≤ Numeral.wordMax) (parts : line r = part ++ missing) (started : part ≠ [])
    (unfinished : missing ≠ []) :
    takeLine n e part =
      .error (if (decode? part).isSome then .corrupt n else .unreadable) := by
  have htake : part = (encode r.chars).take part.length := by
    rw [show encode r.chars = part ++ missing from parts, List.take_left]
  rcases take_encode_cases r.chars part.length with ⟨k, hk⟩ | hnone
  · have htext : decode? part = some (r.chars.take k) := by
      rw [htake, hk, decode?_encode]
    have hshort : k < r.chars.length := by
      refine Nat.lt_of_not_le fun hle => ?_
      rw [List.take_of_length_le hle] at hk
      have hwhole : part = part ++ missing := (htake.trans hk).trans parts
      exact unfinished (List.self_eq_append_right.mp hwhole)
    obtain ⟨rest, hrest⟩ := r.exists_chars_eq
    have hblank : ¬ (r.chars.take k).all isBlank = true := by
      cases k with
      | zero => exact absurd (htake.trans hk) (by simpa using started)
      | succ k =>
        have hbrace : isBlank '\x7b' = false := rfl
        simp [hrest, hbrace]
    rw [takeLine, htext]
    dsimp only
    rw [if_neg hblank, Record.ofChars?_take hr hshort]
    rfl
  · rw [← htake] at hnone
    rw [takeLine, hnone]
    rfl

/-- **A log that was cut off** is read as the records before the cut, or not at all:
the part of a record makes its line corrupt, or the file unreadable. -/
theorem read_take (h : ∀ r ∈ rs, r.key ≤ Numeral.wordMax) {n : Nat}
    {outcome : Except Fault (List Record)} (hcut : Cut rs n outcome) :
    read ((written rs).take n) = outcome.map entriesOf := by
  cases hcut with
  | between before after records left =>
    subst records
    rw [left, read_written fun r hr => h r (List.mem_append_left _ hr)]
    rfl
  | @unended before after r records left =>
    subst records
    rw [left, read_written_append before (fun r hr => h r (List.mem_append_left _ hr))
      (lineFeed_not_mem_line r), takeLine_line (h r (by simp))]
    show _ = Except.ok (entriesOf (before ++ [r]))
    rw [entriesOf_concat]
  | @within before after r part missing records parts started unfinished left =>
    subst records
    have hpart : 10 ∉ part := fun hmem =>
      lineFeed_not_mem_line r (parts ▸ List.mem_append_left _ hmem)
    rw [left, read_written_append before (fun r hr => h r (List.mem_append_left _ hr)) hpart,
      takeLine_part (h r (by simp)) parts started unfinished]
    rfl

end Log

end Resampler
