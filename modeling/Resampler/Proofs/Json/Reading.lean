import Resampler.Proofs.Json.Written

/-!
# What reading makes of a written value

A value that is written down is read again as its own text has it
(`ofText?_text`). Nothing is lost of words, strings and integers. Two things can
be lost. A text that is nested more deeply than `depthMax` is not read at all. And
a floating-point number is read by the scaled reading, which is quicker than it is
exact: its fewest digits are those that the nearest reading would take back, but
the scaled one may come out at a neighbour (`readsBack`). So a value is read as one
equal to it just if it is not nested too deeply and each of its floating-point
numbers reads back (`isRead_iff`).
-/

namespace Resampler

namespace JsonNumber

/-- **The number that a written number is read as.** -/
def reread : JsonNumber → Option Json
  | .integer value inRange => some (.number (.integer value inRange))
  | .real x _ => (Json.numberLayout.numeral x).scaled.map .ofFloat

/-- Whether a floating-point number, written with its fewest digits, is read as one equal
to it. An integer is. -/
def readsBack : JsonNumber → Bool
  | .integer _ _ => true
  | .real x _ => (Json.numberLayout.numeral x).scaled.any fun y => y.isFinite && y == x

/-- The numeral of a number denotes what the number is read as. -/
theorem numberOf?_numeral (n : JsonNumber) : Json.numberOf? n.numeral = n.reread := by
  cases n with
  | integer value inRange =>
    cases value with
    | ofNat n =>
      have hmax : Numeral.wordMax = 18446744073709551615 := by decide
      have hword : n ≤ Numeral.wordMax := hmax ▸ Nat.le_of_lt_succ (Int.ofNat_lt.mp inRange.2)
      show (if Numeral.ofDigits (Numeral.digitsOf n) ≤ Numeral.wordMax
        then some (Json.ofInt (.ofNat (Numeral.ofDigits (Numeral.digitsOf n)))) else _) = _
      rw [Numeral.ofDigits_digitsOf, if_pos hword, Json.ofInt_eq inRange]
      rfl
    | negSucc n =>
      have hpow : Nat.pow 2 63 = 9223372036854775808 := by decide
      have hrange : n + 1 ≠ 0 ∧ n + 1 ≤ Nat.pow 2 63 := by omega
      show (if Numeral.ofDigits (Numeral.digitsOf (n + 1)) ≠ 0
          ∧ Numeral.ofDigits (Numeral.digitsOf (n + 1)) ≤ Nat.pow 2 63
        then some (Json.ofInt (-(Numeral.ofDigits (Numeral.digitsOf (n + 1)) : Nat)))
        else _) = _
      rw [Numeral.ofDigits_digitsOf, if_pos hrange]
      exact congrArg some (Json.ofInt_eq inRange)
  | real x finite =>
    have hparts := Json.numberLayout.parts_numeral x
    show Json.numberOf? (Json.numberLayout.numeral x)
      = (Json.numberLayout.numeral x).scaled.map .ofFloat
    unfold Json.numberOf?
    split
    · next hfraction hexponent => exact absurd hparts (by simp [hfraction, hexponent])
    · rfl

/-- **A number is read as an equal one** just if it reads back. -/
theorem isRead_iff (n : JsonNumber) :
    (∃ w, n.reread = some w ∧ w.same (.number n) = true) ↔ n.readsBack = true := by
  cases n with
  | integer value inRange =>
    exact ⟨fun _ => rfl, fun _ => ⟨_, rfl, Json.same_self _⟩⟩
  | real x finite =>
    rw [reread, readsBack]
    cases (Json.numberLayout.numeral x).scaled with
    | none => simp
    | some y =>
      by_cases hy : y.isFinite = true
      · have hofFloat : Json.ofFloat y = .number (.real y hy) := dif_pos hy
        simp [hofFloat, hy, Json.same, same]
      · have hofFloat : Json.ofFloat y = .null := dif_neg hy
        simp [hofFloat, hy, Json.same]

end JsonNumber

namespace Json

mutual

/-- **The value that a written value is read as**, the nesting apart. -/
def reread : Json → Option Json
  | .null => some .null
  | .bool b => some (.bool b)
  | .number n => n.reread
  | .string s => some (.string s)
  | .array items => (rereadItems items).map .array
  | .objectOf members => (rereadMembers members).map .objectOf

def rereadItems : List Json → Option (List Json)
  | [] => some []
  | v :: vs =>
    match v.reread with
    | none => none
    | some w => (rereadItems vs).map (w :: ·)

def rereadMembers : List (String × Json) → Option (List (String × Json))
  | [] => some []
  | (name, v) :: ms =>
    match v.reread with
    | none => none
    | some w => (rereadMembers ms).map ((name, w) :: ·)

end

mutual

/-- **How deeply arrays and objects are nested.** -/
def depth : Json → Nat
  | .null => 0
  | .bool _ => 0
  | .number _ => 0
  | .string _ => 0
  | .array items => itemsDepth items + 1
  | .objectOf members => membersDepth members + 1

def itemsDepth : List Json → Nat
  | [] => 0
  | v :: vs => max v.depth (itemsDepth vs)

def membersDepth : List (String × Json) → Nat
  | [] => 0
  | (_, v) :: ms => max v.depth (membersDepth ms)

end

mutual

/-- **Whether all floating-point numbers of a value read back.** -/
def readsBack : Json → Bool
  | .null => true
  | .bool _ => true
  | .number n => n.readsBack
  | .string _ => true
  | .array items => itemsReadBack items
  | .objectOf members => membersReadBack members

def itemsReadBack : List Json → Bool
  | [] => true
  | v :: vs => v.readsBack && itemsReadBack vs

def membersReadBack : List (String × Json) → Bool
  | [] => true
  | (_, v) :: ms => v.readsBack && membersReadBack ms

end

mutual

/-- **The members of every object stand in the order of their names**, and no name occurs
twice. So it is in every object that is made of members (`isOrdered_object`) or read from
a text (`isOrdered_of_ofText?`). -/
def IsOrdered : Json → Prop
  | .null => True
  | .bool _ => True
  | .number _ => True
  | .string _ => True
  | .array items => ItemsOrdered items
  | .objectOf members => (members.map Prod.fst).Pairwise (· < ·) ∧ MembersOrdered members

def ItemsOrdered : List Json → Prop
  | [] => True
  | v :: vs => v.IsOrdered ∧ ItemsOrdered vs

def MembersOrdered : List (String × Json) → Prop
  | [] => True
  | (_, v) :: ms => v.IsOrdered ∧ MembersOrdered ms

end

/-! ## Objects are in order -/

/-- A member that is put among others has a name of its own, or one of theirs. -/
theorem mem_map_fst_insertMember {members : List (String × Json)} {name other : String} {v : Json}
    (h : other ∈ (insertMember name v members).map Prod.fst) :
    other = name ∨ other ∈ members.map Prod.fst := by
  induction members with
  | nil => exact .inl (List.mem_singleton.mp h)
  | cons m ms ih =>
    obtain ⟨name', v'⟩ := m
    rw [insertMember] at h
    split at h
    · exact List.mem_cons.mp h
    · split at h
      · next heq => exact (List.mem_cons.mp h).imp_right (List.mem_cons_of_mem _)
      · rcases List.mem_cons.mp h with rfl | h
        · exact .inr List.mem_cons_self
        · exact (ih h).imp_right (List.mem_cons_of_mem _)

theorem pairwise_insertMember {members : List (String × Json)}
    (h : (members.map Prod.fst).Pairwise (· < ·)) (name : String) (v : Json) :
    ((insertMember name v members).map Prod.fst).Pairwise (· < ·) := by
  induction members with
  | nil => exact List.pairwise_singleton _ _
  | cons m ms ih =>
    obtain ⟨name', v'⟩ := m
    obtain ⟨hfirst, hrest⟩ := List.pairwise_cons.mp h
    rw [insertMember]
    split
    · next hlt =>
      refine List.pairwise_cons.mpr ⟨fun other hother => ?_, h⟩
      rcases List.mem_cons.mp hother with rfl | hother
      · exact hlt
      · exact String.lt_trans hlt (hfirst other hother)
    · next hnot =>
      split
      · next heq =>
        subst heq
        exact List.pairwise_cons.mpr ⟨hfirst, hrest⟩
      · next hne =>
        refine List.pairwise_cons.mpr ⟨fun other hother => ?_, ih hrest⟩
        rcases mem_map_fst_insertMember hother with rfl | hother
        · exact Std.lt_of_le_of_ne (String.not_lt.mp hnot) (Ne.symm hne)
        · exact hfirst other hother

theorem membersOrdered_insertMember {members : List (String × Json)} {v : Json}
    (h : MembersOrdered members) (hv : v.IsOrdered) (name : String) :
    MembersOrdered (insertMember name v members) := by
  induction members with
  | nil => exact ⟨hv, trivial⟩
  | cons m ms ih =>
    obtain ⟨name', v'⟩ := m
    rw [MembersOrdered] at h
    rw [insertMember]
    split
    · exact ⟨hv, h⟩
    · split
      · exact ⟨hv, h.2⟩
      · exact ⟨h.1, ih h.2⟩

/-- **An object is in order**, whatever order its members were given in. -/
theorem isOrdered_object {members : List (String × Json)} (h : MembersOrdered members) :
    (object members).IsOrdered := by
  have hall : ∀ before : List (String × Json), (before.map Prod.fst).Pairwise (· < ·) →
      MembersOrdered before → (objectOf (insertMembers before members)).IsOrdered := by
    induction members with
    | nil => exact fun before hnames hbefore => ⟨hnames, hbefore⟩
    | cons m ms ih =>
      intro before hnames hbefore
      exact ih h.2 _ (pairwise_insertMember hnames _ _)
        (membersOrdered_insertMember hbefore h.1 _)
  exact hall [] .nil trivial

theorem isOrdered_ofInt (i : Int) : (ofInt i).IsOrdered := by
  unfold ofInt
  split <;> exact trivial

theorem isOrdered_ofFloat (x : Float) : (ofFloat x).IsOrdered := by
  unfold ofFloat
  split <;> exact trivial

theorem isOrdered_of_numberOf? {n : Numeral} {v : Json} (h : numberOf? n = some v) :
    v.IsOrdered := by
  have hscaled (h : n.scaled.map ofFloat = some v) : v.IsOrdered := by
    obtain ⟨x, -, rfl⟩ := Option.map_eq_some_iff.mp h
    exact isOrdered_ofFloat x
  unfold numberOf? at h
  split at h
  · dsimp only at h
    split at h
    · split at h
      · exact Option.some.inj h ▸ isOrdered_ofInt _
      · exact hscaled h
    · split at h
      · exact Option.some.inj h ▸ isOrdered_ofInt _
      · exact hscaled h
  · exact hscaled h

mutual

/-- **The value of a tree is in order.** -/
theorem isOrdered_of_value? : (t : Tree) → (d : Nat) → (v : Json) → t.value? d = some v →
    v.IsOrdered
  | .null, _, _, h => by
    rw [Tree.value?] at h
    cases h
    exact trivial
  | .bool b, _, _, h => by
    rw [Tree.value?] at h
    cases h
    exact trivial
  | .number n, _, _, h => by
    rw [Tree.value?] at h
    exact isOrdered_of_numberOf? h
  | .string s, _, _, h => by
    rw [Tree.value?] at h
    obtain ⟨text, -, rfl⟩ := Option.map_eq_some_iff.mp h
    exact trivial
  | .array items, 0, _, h => by
    rw [Tree.value?] at h
    cases h
  | .array items, d + 1, _, h => by
    rw [Tree.value?] at h
    obtain ⟨vs, hvs, rfl⟩ := Option.map_eq_some_iff.mp h
    exact itemsOrdered_of_itemsOf? items d vs hvs
  | .object members, 0, _, h => by
    rw [Tree.value?] at h
    cases h
  | .object members, d + 1, _, h => by
    rw [Tree.value?] at h
    obtain ⟨ms, hms, rfl⟩ := Option.map_eq_some_iff.mp h
    exact isOrdered_object (membersOrdered_of_membersOf? members d ms hms)

theorem itemsOrdered_of_itemsOf? : (ts : List Tree) → (d : Nat) → (vs : List Json) →
    itemsOf? d ts = some vs → ItemsOrdered vs
  | [], _, _, h => by
    rw [itemsOf?] at h
    cases h
    exact trivial
  | t :: ts, d, _, h => by
    rw [itemsOf?] at h
    split at h
    · cases h
    · next v hv =>
      obtain ⟨vs, hvs, rfl⟩ := Option.map_eq_some_iff.mp h
      exact ⟨isOrdered_of_value? t d v hv, itemsOrdered_of_itemsOf? ts d vs hvs⟩

theorem membersOrdered_of_membersOf? : (ts : List (List Letter × Tree)) → (d : Nat) →
    (ms : List (String × Json)) → membersOf? d ts = some ms → MembersOrdered ms
  | [], _, _, h => by
    rw [membersOf?] at h
    cases h
    exact trivial
  | (name, t) :: ts, d, _, h => by
    rw [membersOf?] at h
    split at h
    · next v _ hv =>
      obtain ⟨ms, hms, rfl⟩ := Option.map_eq_some_iff.mp h
      exact ⟨isOrdered_of_value? t d v hv, membersOrdered_of_membersOf? ts d ms hms⟩
    · cases h

end

/-- **Every value that is read is in order.** -/
theorem isOrdered_of_ofText? {text : String} {v : Json} (h : ofText? text = some v) :
    v.IsOrdered := by
  obtain ⟨t, -, hv⟩ := Option.bind_eq_some_iff.mp h
  exact isOrdered_of_value? t depthMax v hv

/-! ## Reading the tree -/

/-- A name behind all others is put last. -/
theorem insertMember_of_lt {members : List (String × Json)} {name : String}
    (h : ∀ m ∈ members, m.1 < name) (v : Json) :
    insertMember name v members = members ++ [(name, v)] := by
  induction members with
  | nil => rfl
  | cons m ms ih =>
    obtain ⟨name', v'⟩ := m
    have hlt : name' < name := h _ List.mem_cons_self
    rw [insertMember, if_neg (String.lt_asymm hlt), if_neg (String.ne_of_lt hlt).symm,
      ih fun m hm => h m (List.mem_cons_of_mem _ hm)]
    rfl

/-- **Members that are in order stay as they are.** -/
theorem insertMembers_of_ordered {before members : List (String × Json)}
    (h : ((before ++ members).map Prod.fst).Pairwise (· < ·)) :
    insertMembers before members = before ++ members := by
  induction members generalizing before with
  | nil => exact (List.append_nil before).symm
  | cons m ms ih =>
    obtain ⟨name, v⟩ := m
    have hlast : ∀ m ∈ before, m.1 < name := by
      intro m hm
      rw [List.map_append, List.pairwise_append] at h
      exact h.2.2 m.1 (List.mem_map_of_mem hm) name List.mem_cons_self
    have hsame : before ++ (name, v) :: ms = before ++ [(name, v)] ++ ms := by
      rw [List.append_assoc]
      rfl
    rw [insertMembers, insertMember_of_lt hlast, hsame]
    exact ih (hsame ▸ h)

/-- Reading leaves the names. -/
theorem map_fst_rereadMembers {ms ms' : List (String × Json)} (h : rereadMembers ms = some ms') :
    ms'.map Prod.fst = ms.map Prod.fst := by
  induction ms generalizing ms' with
  | nil =>
    cases h
    rfl
  | cons m ms ih =>
    obtain ⟨name, v⟩ := m
    rw [rereadMembers] at h
    split at h
    · cases h
    · obtain ⟨rest, hrest, rfl⟩ := Option.map_eq_some_iff.mp h
      rw [List.map_cons, List.map_cons, ih hrest]

/-- Members that were in order are an object as they are read. -/
theorem map_object_rereadMembers {ms : List (String × Json)}
    (h : (ms.map Prod.fst).Pairwise (· < ·)) :
    (rereadMembers ms).map object = (rereadMembers ms).map .objectOf := by
  cases hread : rereadMembers ms with
  | none => rfl
  | some ms' =>
    have hordered : (([] ++ ms').map Prod.fst).Pairwise (· < ·) := by
      rw [List.nil_append, map_fst_rereadMembers hread]
      exact h
    show some (objectOf (insertMembers [] ms')) = _
    rw [insertMembers_of_ordered hordered]
    rfl

mutual

/-- **The value of a tree**, read down to some depth. -/
theorem value?_tree : (v : Json) → v.IsOrdered → (d : Nat) →
    v.tree.value? d = if v.depth ≤ d then v.reread else none
  | .null, _, d => by rw [tree, Tree.value?, depth, if_pos d.zero_le, reread]
  | .bool b, _, d => by rw [tree, Tree.value?, depth, if_pos d.zero_le, reread]
  | .number n, _, d => by
    rw [tree, Tree.value?, depth, if_pos d.zero_le, reread, n.numberOf?_numeral]
  | .string s, _, d => by
    rw [tree, Tree.value?, depth, if_pos d.zero_le, reread, stringOf?_lettersOf]
    rfl
  | .array items, h, d => by
    rw [IsOrdered] at h
    rw [tree, depth, reread]
    cases d with
    | zero => rw [Tree.value?, if_neg (Nat.not_succ_le_zero _)]
    | succ d =>
      rw [Tree.value?, itemsOf?_itemTrees items h d]
      by_cases hd : itemsDepth items ≤ d
      · rw [if_pos hd, if_pos (Nat.succ_le_succ hd)]
      · rw [if_neg hd, if_neg fun hle => hd (Nat.le_of_succ_le_succ hle)]
        rfl
  | .objectOf members, h, d => by
    rw [IsOrdered] at h
    rw [tree, depth, reread]
    cases d with
    | zero => rw [Tree.value?, if_neg (Nat.not_succ_le_zero _)]
    | succ d =>
      rw [Tree.value?, membersOf?_memberTrees members h.2 d]
      by_cases hd : membersDepth members ≤ d
      · rw [if_pos hd, if_pos (Nat.succ_le_succ hd), map_object_rereadMembers h.1]
      · rw [if_neg hd, if_neg fun hle => hd (Nat.le_of_succ_le_succ hle)]
        rfl

theorem itemsOf?_itemTrees : (vs : List Json) → ItemsOrdered vs → (d : Nat) →
    itemsOf? d (itemTrees vs) = if itemsDepth vs ≤ d then rereadItems vs else none
  | [], _, d => by rw [itemTrees, itemsOf?, itemsDepth, if_pos d.zero_le, rereadItems]
  | v :: vs, h, d => by
    rw [ItemsOrdered] at h
    rw [itemTrees, itemsOf?, itemsDepth, rereadItems, value?_tree v h.1 d,
      itemsOf?_itemTrees vs h.2 d]
    by_cases hv : v.depth ≤ d
    · by_cases hvs : itemsDepth vs ≤ d
      · rw [if_pos hv, if_pos hvs]
        refine Eq.trans ?_ (if_pos (Nat.max_le.mpr ⟨hv, hvs⟩)).symm
        cases v.reread <;> rfl
      · rw [if_pos hv, if_neg hvs]
        refine Eq.trans ?_ (if_neg fun hle => hvs (Nat.max_le.mp hle).2).symm
        cases v.reread <;> rfl
    · rw [if_neg hv, if_neg fun hle => hv (Nat.max_le.mp hle).1]

theorem membersOf?_memberTrees : (ms : List (String × Json)) → MembersOrdered ms → (d : Nat) →
    membersOf? d (memberTrees ms) = if membersDepth ms ≤ d then rereadMembers ms else none
  | [], _, d => by rw [memberTrees, membersOf?, membersDepth, if_pos d.zero_le, rereadMembers]
  | (name, v) :: ms, h, d => by
    rw [MembersOrdered] at h
    rw [memberTrees, membersOf?, membersDepth, rereadMembers, value?_tree v h.1 d,
      membersOf?_memberTrees ms h.2 d, stringOf?_lettersOf]
    by_cases hv : v.depth ≤ d
    · by_cases hms : membersDepth ms ≤ d
      · rw [if_pos hv, if_pos hms]
        refine Eq.trans ?_ (if_pos (Nat.max_le.mpr ⟨hv, hms⟩)).symm
        cases v.reread <;> rfl
      · rw [if_pos hv, if_neg hms]
        refine Eq.trans ?_ (if_neg fun hle => hms (Nat.max_le.mp hle).2).symm
        cases v.reread <;> rfl
    · rw [if_neg hv, if_neg fun hle => hv (Nat.max_le.mp hle).1]

end

/-- **A written value is read as its text has it**, unless it is nested too deeply. -/
theorem ofText?_text {v : Json} (h : v.IsOrdered) :
    ofText? v.text = if v.depth ≤ depthMax then v.reread else none := by
  rw [ofText?, text, String.toList_ofList, ofChars?, ofChars?_chars, Option.bind_some,
    value?_tree v h]

/-! ## Reading an equal value -/

mutual

/-- **The value that is read is an equal one** just if every floating-point number reads
back. -/
theorem isReread_iff : (v : Json) →
    ((∃ w, v.reread = some w ∧ w.same v = true) ↔ v.readsBack = true)
  | .null => by simp [reread, readsBack, same]
  | .bool b => by simp [reread, readsBack, same]
  | .number n => by
    rw [reread, readsBack]
    exact n.isRead_iff
  | .string s => by simp [reread, readsBack, same]
  | .array items => by
    rw [reread, readsBack, ← isReread_iff_items items]
    cases rereadItems items with
    | none => simp
    | some ws => simp [same]
  | .objectOf members => by
    rw [reread, readsBack, ← isReread_iff_members members]
    cases rereadMembers members with
    | none => simp
    | some ws => simp [same]

theorem isReread_iff_items : (vs : List Json) →
    ((∃ ws, rereadItems vs = some ws ∧ sameItems ws vs = true) ↔ itemsReadBack vs = true)
  | [] => by simp [rereadItems, itemsReadBack, sameItems]
  | v :: vs => by
    rw [rereadItems, itemsReadBack, Bool.and_eq_true, ← isReread_iff v, ← isReread_iff_items vs]
    cases v.reread with
    | none => simp
    | some w =>
      cases rereadItems vs with
      | none => simp
      | some ws => simp [sameItems]

theorem isReread_iff_members : (ms : List (String × Json)) →
    ((∃ ws, rereadMembers ms = some ws ∧ sameMembers ws ms = true) ↔ membersReadBack ms = true)
  | [] => by simp [rereadMembers, membersReadBack, sameMembers]
  | (name, v) :: ms => by
    rw [rereadMembers, membersReadBack, Bool.and_eq_true, ← isReread_iff v,
      ← isReread_iff_members ms]
    cases v.reread with
    | none => simp
    | some w =>
      cases rereadMembers ms with
      | none => simp
      | some ws => simp [sameMembers]

end

/-- **A written value is read as an equal one** just if it is not nested too deeply and its
floating-point numbers read back. -/
theorem isRead_iff {v : Json} (h : v.IsOrdered) :
    (∃ w, ofText? v.text = some w ∧ w.same v = true)
      ↔ v.depth ≤ depthMax ∧ v.readsBack = true := by
  rw [ofText?_text h, ← isReread_iff v]
  by_cases hd : v.depth ≤ depthMax
  · simp [hd]
  · simp [hd]

end Json

end Resampler
