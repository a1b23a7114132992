/-!
# Maps that remember the order of insertion

Traces, step counts, observations and cached draws are all finite maps, and
several of them are shown in the order in which their keys first arrived. An
`OrderedMap` is an association list with that order, in which no key stands
twice: writing a new key puts it last, writing a key that is already there
keeps its place and replaces its value.

What an operation does is said through two views: `get?`, the value a key
has, and `keys`, the keys in their order.
-/

namespace Resampler

/-- **A finite map in insertion order.** -/
structure OrderedMap (κ ν : Type) where
  /-- The keys with their values, the oldest key first. -/
  entries : List (κ × ν)
  /-- No key stands twice. -/
  distinct : (entries.map Prod.fst).Nodup
deriving DecidableEq

namespace OrderedMap

variable {κ ν μ : Type}

instance : Inhabited (OrderedMap κ ν) := ⟨⟨[], List.nodup_nil⟩⟩

/-- The map without keys. -/
def empty : OrderedMap κ ν := ⟨[], List.nodup_nil⟩

/-- The keys, the oldest first. -/
def keys (m : OrderedMap κ ν) : List κ := m.entries.map Prod.fst

/-- The values, in the order of their keys. -/
def values (m : OrderedMap κ ν) : List ν := m.entries.map Prod.snd

/-- How many keys there are. -/
def size (m : OrderedMap κ ν) : Nat := m.entries.length

/-- Whether there is no key. -/
def isEmpty (m : OrderedMap κ ν) : Bool := m.entries.isEmpty

/-- Apply a function to every value, given its key. -/
def map (f : κ → ν → μ) (m : OrderedMap κ ν) : OrderedMap κ μ :=
  ⟨m.entries.map fun e => (e.1, f e.1 e.2), by
    rw [List.map_map]
    exact m.distinct⟩

/-- Keep the keys that pass a test. -/
def filterKeys (p : κ → Bool) (m : OrderedMap κ ν) : OrderedMap κ ν :=
  ⟨m.entries.filter fun e => p e.1,
    List.Nodup.sublist (List.filter_sublist.map Prod.fst) m.distinct⟩

variable [DecidableEq κ]

/-- The value that an association list gives a key. -/
def lookup (k : κ) : List (κ × ν) → Option ν
  | [] => none
  | (k', v) :: rest => if k' = k then some v else lookup k rest

/-- An association list with the value of one key written. -/
def write (k : κ) (v : ν) : List (κ × ν) → List (κ × ν)
  | [] => [(k, v)]
  | (k', v') :: rest =>
    if k' = k then (k, v) :: rest else (k', v') :: write k v rest

theorem keys_write (k : κ) (v : ν) (l : List (κ × ν)) :
    (write k v l).map Prod.fst
      = if k ∈ l.map Prod.fst then l.map Prod.fst
        else l.map Prod.fst ++ [k] := by
  induction l with
  | nil => rfl
  | cons e rest ih =>
    obtain ⟨k', v'⟩ := e
    by_cases h : k' = k
    · simp [write, h]
    · have h' : k ≠ k' := Ne.symm h
      by_cases hk : k ∈ rest.map Prod.fst
      · simp only [write, h, if_false, List.map_cons, ih, hk, if_true,
          List.mem_cons, or_true]
      · simp only [write, h, if_false, List.map_cons, ih, hk, List.mem_cons,
          h', or_self, List.cons_append]

theorem nodup_write (k : κ) (v : ν) {l : List (κ × ν)}
    (h : (l.map Prod.fst).Nodup) : ((write k v l).map Prod.fst).Nodup := by
  rw [keys_write]
  split
  · exact h
  · next hk =>
    refine List.nodup_append.mpr ⟨h, by simp, fun a ha b hb => ?_⟩
    rw [List.mem_singleton.mp hb]
    exact fun hab => hk (hab ▸ ha)

/-- The value of a key, if the map has it. -/
def get? (m : OrderedMap κ ν) (k : κ) : Option ν := lookup k m.entries

/-- Whether the map has a key. -/
def contains (m : OrderedMap κ ν) (k : κ) : Bool := (m.get? k).isSome

/-- **Write a key.** A key that is already there keeps its place. -/
def insert (m : OrderedMap κ ν) (k : κ) (v : ν) : OrderedMap κ ν :=
  ⟨write k v m.entries, nodup_write k v m.distinct⟩

/-- Write a key only if the map does not have it. -/
def insertIfAbsent (m : OrderedMap κ ν) (k : κ) (v : ν) : OrderedMap κ ν :=
  if m.contains k then m else m.insert k v

/-- Drop a key. -/
def erase (m : OrderedMap κ ν) (k : κ) : OrderedMap κ ν :=
  m.filterKeys fun k' => !decide (k' = k)

/-- Write the pairs of a list one after the other, so that of a repeated key
the last value stays, at the place of the first. -/
def insertAll (m : OrderedMap κ ν) : List (κ × ν) → OrderedMap κ ν
  | [] => m
  | (k, v) :: rest => (m.insert k v).insertAll rest

/-- The map of a list of pairs; the last value of a repeated key stays. -/
def ofList (pairs : List (κ × ν)) : OrderedMap κ ν := empty.insertAll pairs

/-! ## The value of a key -/

@[simp] theorem get?_empty (k : κ) : (empty : OrderedMap κ ν).get? k = none :=
  rfl

theorem lookup_write (k j : κ) (v : ν) (l : List (κ × ν)) :
    lookup j (write k v l) = if k = j then some v else lookup j l := by
  induction l with
  | nil => rfl
  | cons e rest ih =>
    obtain ⟨k', v'⟩ := e
    by_cases h : k' = k
    · subst h
      by_cases h' : k' = j <;> simp [write, lookup, h']
    · by_cases h' : k' = j
      · subst h'
        simp [write, lookup, h, Ne.symm h]
      · simp [write, lookup, h, h', ih]

@[simp] theorem get?_insert (m : OrderedMap κ ν) (k j : κ) (v : ν) :
    (m.insert k v).get? j = if k = j then some v else m.get? j :=
  lookup_write k j v m.entries

theorem lookup_eq_some_iff {l : List (κ × ν)} (h : (l.map Prod.fst).Nodup)
    {k : κ} {v : ν} : lookup k l = some v ↔ (k, v) ∈ l := by
  induction l with
  | nil => simp [lookup]
  | cons e rest ih =>
    obtain ⟨k', v'⟩ := e
    rw [List.map_cons, List.nodup_cons] at h
    by_cases hk : k' = k
    · subst hk
      have hv : (k', v) ∉ rest := fun hm =>
        h.1 (List.mem_map.mpr ⟨(k', v), hm, rfl⟩)
      simp [lookup, hv, eq_comm]
    · simp [lookup, hk, Ne.symm hk, ih h.2]

/-- **A key has a value just if the two stand together.** -/
theorem get?_eq_some_iff {m : OrderedMap κ ν} {k : κ} {v : ν} :
    m.get? k = some v ↔ (k, v) ∈ m.entries :=
  lookup_eq_some_iff m.distinct

@[simp] theorem get?_map (f : κ → ν → μ) (m : OrderedMap κ ν) (k : κ) :
    (m.map f).get? k = (m.get? k).map (f k) := by
  show lookup k (m.entries.map fun e => (e.1, f e.1 e.2))
    = (lookup k m.entries).map (f k)
  induction m.entries with
  | nil => rfl
  | cons e rest ih =>
    by_cases hk : e.1 = k
    · subst hk
      simp [lookup]
    · simp [lookup, hk, ih]

@[simp] theorem get?_filterKeys (p : κ → Bool) (m : OrderedMap κ ν) (k : κ) :
    (m.filterKeys p).get? k = if p k then m.get? k else none := by
  show lookup k (m.entries.filter fun e => p e.1)
    = if p k then lookup k m.entries else none
  induction m.entries with
  | nil => simp [lookup]
  | cons e rest ih =>
    by_cases hk : e.1 = k
    · subst hk
      by_cases hp : p e.1 <;> simp [lookup, hp, ih]
    · by_cases hp : p e.1 <;> simp [lookup, hk, hp, ih]

theorem get?_insertAll_of_nodup {l : List (κ × ν)} (h : (l.map Prod.fst).Nodup)
    (m : OrderedMap κ ν) (k : κ) :
    (m.insertAll l).get? k = (lookup k l).or (m.get? k) := by
  induction l generalizing m with
  | nil => rfl
  | cons e rest ih =>
    obtain ⟨k', v⟩ := e
    rw [List.map_cons, List.nodup_cons] at h
    rw [insertAll, ih h.2, get?_insert, lookup]
    by_cases hk : k' = k
    · subst hk
      have hn : lookup k' rest = none := by
        cases hl : lookup k' rest with
        | none => rfl
        | some w =>
          exact absurd (List.mem_map.mpr ⟨_, (lookup_eq_some_iff h.2).mp hl, rfl⟩) h.1
      simp [hn]
    · simp [hk]

/-- **Writing a whole map**, the new values take the place of the old ones. -/
theorem get?_insertAll (m n : OrderedMap κ ν) (k : κ) :
    (m.insertAll n.entries).get? k = (n.get? k).or (m.get? k) :=
  get?_insertAll_of_nodup n.distinct m k

theorem contains_insertAll (m n : OrderedMap κ ν) (k : κ) :
    (m.insertAll n.entries).contains k = (n.contains k || m.contains k) := by
  rw [contains, get?_insertAll]
  unfold contains
  cases n.get? k <;> rfl

/-! ## The keys in their order -/

/-- **A new key comes last and an old one stays where it is.** -/
theorem keys_insert (m : OrderedMap κ ν) (k : κ) (v : ν) :
    (m.insert k v).keys = if k ∈ m.keys then m.keys else m.keys ++ [k] :=
  keys_write k v m.entries

theorem contains_iff {m : OrderedMap κ ν} {k : κ} :
    m.contains k = true ↔ ∃ v, m.get? k = some v :=
  Option.isSome_iff_exists

theorem contains_eq_false_iff {m : OrderedMap κ ν} {k : κ} :
    m.contains k = false ↔ m.get? k = none := by
  rw [contains, Option.isSome_eq_false_iff, Option.isNone_iff_eq_none]

/-- A key that is not there is written, and all else stays as it is. -/
theorem get?_insertIfAbsent (m : OrderedMap κ ν) (k j : κ) (v : ν) :
    (m.insertIfAbsent k v).get? j = (m.get? j).or (if k = j then some v else none) := by
  unfold insertIfAbsent
  split
  · next h =>
    obtain ⟨w, hw⟩ := contains_iff.mp h
    by_cases hk : k = j
    · subst hk
      rw [hw]
      rfl
    · rw [if_neg hk, Option.or_none]
  · next h =>
    have hnone : m.get? k = none := contains_eq_false_iff.mp (Bool.eq_false_iff.mpr h)
    rw [get?_insert]
    by_cases hk : k = j
    · subst hk
      rw [hnone]
      simp
    · rw [if_neg hk, if_neg hk, Option.or_none]

theorem contains_insertIfAbsent (m : OrderedMap κ ν) (k j : κ) (v : ν) :
    (m.insertIfAbsent k v).contains j = (m.contains j || decide (k = j)) := by
  rw [contains, get?_insertIfAbsent, Option.isSome_or, ← contains]
  by_cases hk : k = j <;> simp [hk]

theorem insertIfAbsent_of_contains {m : OrderedMap κ ν} {k : κ} (h : m.contains k = true)
    (v : ν) : m.insertIfAbsent k v = m :=
  if_pos h

theorem insertIfAbsent_of_not_contains {m : OrderedMap κ ν} {k : κ} (h : m.contains k = false)
    (v : ν) : m.insertIfAbsent k v = m.insert k v :=
  if_neg (Bool.eq_false_iff.mp h)

/-- A new key comes last with its value. -/
theorem entries_insert {m : OrderedMap κ ν} {k : κ} (h : m.contains k = false) (v : ν) :
    (m.insert k v).entries = m.entries ++ [(k, v)] := by
  have hnew : lookup k m.entries = none := contains_eq_false_iff.mp h
  show write k v m.entries = m.entries ++ [(k, v)]
  generalize m.entries = l at hnew
  induction l with
  | nil => rfl
  | cons e rest ih =>
    obtain ⟨k', v'⟩ := e
    by_cases hk : k' = k
    · simp [lookup, hk] at hnew
    · simp only [lookup, hk, if_false] at hnew
      simp only [write, hk, if_false, ih hnew, List.cons_append]

/-- **Keys that are all new** are put down in the order in which they are
written. -/
theorem keys_insertAll {m : OrderedMap κ ν} {l : List (κ × ν)}
    (h : (m.keys ++ l.map Prod.fst).Nodup) :
    (m.insertAll l).keys = m.keys ++ l.map Prod.fst := by
  induction l generalizing m with
  | nil => exact (List.append_nil _).symm
  | cons e rest ih =>
    obtain ⟨k, v⟩ := e
    have hnew : k ∉ m.keys := fun hk =>
      (List.nodup_append.mp h).2.2 k hk k List.mem_cons_self rfl
    have hkeys : (m.insert k v).keys = m.keys ++ [k] := by
      rw [keys_insert, if_neg hnew]
    rw [insertAll, ih, hkeys, List.append_assoc]
    · rfl
    · rw [hkeys, List.append_assoc]
      exact h

theorem keys_ofList {l : List (κ × ν)} (h : (l.map Prod.fst).Nodup) :
    (ofList l).keys = l.map Prod.fst :=
  keys_insertAll h

theorem mem_keys_iff {m : OrderedMap κ ν} {k : κ} :
    k ∈ m.keys ↔ m.contains k = true := by
  rw [contains_iff, keys, List.mem_map]
  constructor
  · rintro ⟨⟨k', v⟩, hm, rfl⟩
    exact ⟨v, get?_eq_some_iff.mpr hm⟩
  · rintro ⟨v, hv⟩
    exact ⟨(k, v), get?_eq_some_iff.mp hv, rfl⟩

end OrderedMap

end Resampler
