import Resampler.Proofs.Distribution.Identity

/-!
# Paths, keys and texts

All keys come from the root by splits: whoever has a key goes on with its deeper or with its
incremented half. So a key stands for the path of these choices, and draws are kept apart if
no two paths lead to one key.

They do not, because a key shows the path by which it was reached (`RandomKey.path`): its
counter says how often the incremented half was taken last, and the key that it is under
says what was done before. What is taken from a key is taken from its text, and the text
shows the key (`RandomKey.chars_injective`).

A seed is a path too, that of as many incremented halves. Counters start at the seed and
grow by one with each split at most, so in words of 128 bits they have room for more splits
than will ever be made (`RandomKey.CountsBelow.follow`).
-/

namespace Resampler

/-- **The halves** that a key is split into. -/
inductive Half where
  | deeper
  | incremented
deriving DecidableEq

namespace RandomKey

/-- One of the halves of a key. -/
def half (k : RandomKey) : Half → RandomKey
  | .deeper => k.split.1
  | .incremented => k.split.2

/-- **The key that a path leads to**, with a split at each step. -/
def follow (k : RandomKey) (path : List Half) : RandomKey := path.foldl half k

/-- **The path to a key**, read off the key. -/
def path : RandomKey → List Half
  | .top n => .replicate n .incremented
  | .under p n => p.path ++ .deeper :: .replicate n .incremented

/-- The path from the root that a seed and a path from its key stand for. -/
def pathFrom (seed : Nat) (path : List Half) : List Half :=
  .replicate seed .incremented ++ path

variable {k : RandomKey} {n : Nat}

/-! ## Incremented keys -/

/-- **Siblings in a row** are reached by incrementing the first of them. -/
theorem iterate_incremented (siblings : Nat → RandomKey)
    (h : ∀ m, (siblings m).incremented = siblings (m + 1)) (m n : Nat) :
    incremented^[n] (siblings m) = siblings (m + n) := by
  induction n with
  | zero => rfl
  | succ n ih => rw [Function.iterate_succ_apply', ih, h, Nat.add_assoc]

theorem head_iterate_incremented (k : RandomKey) (n : Nat) :
    (incremented^[n] k).head = k.head + n := by
  induction n with
  | zero => rfl
  | succ n ih => rw [Function.iterate_succ_apply', head_incremented, ih, Nat.add_assoc]

theorem depth_iterate_incremented (k : RandomKey) (n : Nat) :
    (incremented^[n] k).depth = k.depth := by
  induction n with
  | zero => rfl
  | succ n ih => rw [Function.iterate_succ_apply', depth_incremented, ih]

/-- **A key that is incremented is a new one each time.** -/
theorem iterate_incremented_injective (k : RandomKey) :
    Function.Injective fun n => incremented^[n] k := by
  intro n m h
  have hhead := congrArg head h
  dsimp only at hhead
  rw [head_iterate_incremented, head_iterate_incremented] at hhead
  exact Nat.add_left_cancel hhead

theorem deeper_injective : Function.Injective deeper := fun _ _ h => (under.inj h).1

/-- **A seed counts how often the root is incremented.** -/
theorem ofSeed_eq_iterate (seed : Nat) : ofSeed seed = incremented^[seed] root :=
  ((iterate_incremented top (fun _ => rfl) 0 seed).trans (congrArg top (Nat.zero_add seed))).symm

/-! ## Following a path, and reading it off -/

theorem follow_append (k : RandomKey) (p q : List Half) :
    k.follow (p ++ q) = (k.follow p).follow q :=
  List.foldl_append

theorem follow_cons (k : RandomKey) (h : Half) (p : List Half) :
    k.follow (h :: p) = (k.half h).follow p := rfl

theorem follow_replicate (k : RandomKey) (n : Nat) :
    k.follow (.replicate n .incremented) = incremented^[n] k := by
  induction n generalizing k with
  | zero => rfl
  | succ n ih =>
    rw [List.replicate_succ, follow_cons, ih, Function.iterate_succ_apply]
    rfl

theorem follow_ofSeed (seed : Nat) (p : List Half) :
    (ofSeed seed).follow p = root.follow (pathFrom seed p) := by
  rw [pathFrom, follow_append, follow_replicate, ofSeed_eq_iterate]

/-- A split adds its half to the path. -/
theorem path_half (k : RandomKey) (h : Half) : (k.half h).path = k.path ++ [h] := by
  cases h with
  | deeper => rfl
  | incremented =>
    cases k with
    | top n => exact List.replicate_succ'
    | under p n =>
      show p.path ++ .deeper :: .replicate (n + 1) .incremented
        = (p.path ++ .deeper :: .replicate n .incremented) ++ [.incremented]
      rw [List.replicate_succ', List.append_assoc, List.cons_append]

/-- **A key shows the path that leads to it.** -/
theorem path_follow (k : RandomKey) (p : List Half) : (k.follow p).path = k.path ++ p := by
  induction p generalizing k with
  | nil => exact (List.append_nil _).symm
  | cons h p ih => rw [follow_cons, ih, path_half, List.append_assoc, List.singleton_append]

/-- **What a key shows leads to it.** -/
theorem follow_path (k : RandomKey) : root.follow k.path = k := by
  induction k with
  | top n => rw [path, follow_replicate, ← ofSeed_eq_iterate, ofSeed]
  | under p n ih =>
    rw [path, follow_append, ih, follow_cons, follow_replicate]
    exact (iterate_incremented (under p) (fun _ => rfl) 0 n).trans (congrArg _ (Nat.zero_add n))

/-- **Different paths lead to different keys.** -/
theorem follow_injective : Function.Injective root.follow := by
  intro p q h
  have hpath := congrArg path h
  rwa [path_follow, path_follow] at hpath

/-- **Different keys have different texts.** -/
theorem canonical_injective : Function.Injective canonical := fun _ _ h =>
  chars_injective (String.ofList_injective h)

/-! ## Room for the counters -/

/-- **The counters of a key are below a bound**, its own and those of the keys that it is
under. -/
def CountsBelow (n : Nat) : RandomKey → Prop
  | .top m => m < n
  | .under p m => p.CountsBelow n ∧ m < n

theorem CountsBelow.mono {m : Nat} (h : k.CountsBelow n) (hnm : n ≤ m) : k.CountsBelow m := by
  induction k with
  | top c => exact Nat.lt_of_lt_of_le h hnm
  | under p c ih => exact ⟨ih h.1, Nat.lt_of_lt_of_le h.2 hnm⟩

/-- **A split adds one to one counter at most.** -/
theorem CountsBelow.half (h : k.CountsBelow n) (side : Half) :
    (k.half side).CountsBelow (n + 1) := by
  cases side with
  | deeper => exact ⟨h.mono (Nat.le_succ n), Nat.succ_pos n⟩
  | incremented =>
    cases k with
    | top c => exact Nat.succ_lt_succ h
    | under p c => exact ⟨h.1.mono (Nat.le_succ n), Nat.succ_lt_succ h.2⟩

theorem CountsBelow.follow (h : k.CountsBelow n) (p : List Half) :
    (k.follow p).CountsBelow (n + p.length) := by
  induction p generalizing k n with
  | nil => exact h
  | cons side p ih =>
    rw [follow_cons, List.length_cons, Nat.add_comm p.length 1, ← Nat.add_assoc]
    exact ih (h.half side)

/-! ## The correspondence -/

/-- **Paths, keys and texts tell each other**, for two paths and the seeds from whose keys they
may be followed. -/
structure Corresponds (seed seed' : Nat) (p q : List Half) : Prop where
  /-- Two paths from the root lead to one key just if they are the same. -/
  keys : root.follow p = root.follow q ↔ p = q
  /-- The texts are the same just if the keys are. -/
  texts : (root.follow p).canonical = (root.follow q).canonical ↔ root.follow p = root.follow q
  /-- There is one path from the root to each key. -/
  onto : ∀ k, ∃! r, root.follow r = k
  /-- The key of a seed is the root, incremented as often as the seed says. -/
  seeded : ofSeed seed = root.follow (.replicate seed .incremented)
  /-- From the keys of two seeds, paths lead to one key just if from the root they are the same,
  the seeds counted in. -/
  apart : (ofSeed seed).follow p = (ofSeed seed').follow q ↔ pathFrom seed p = pathFrom seed' q
  /-- And just then there is one text. -/
  written : ((ofSeed seed).follow p).canonical = ((ofSeed seed').follow q).canonical
    ↔ pathFrom seed p = pathFrom seed' q
  /-- From a seed of 64 bits, and on a path of fewer than `2 ^ 127` splits, the counters in both
  halves of every split fit into 128 bits. -/
  fits : seed < 2 ^ 64 → p.length < 2 ^ 127 → ∀ before, before <+: p → ∀ side,
    (((ofSeed seed).follow before).half side).CountsBelow (2 ^ 128)

/-- **Paths, keys and texts correspond one to one**, and no path is too long for the counters. -/
theorem corresponds (seed seed' : Nat) (p q : List Half) : Corresponds seed seed' p q where
  keys := follow_injective.eq_iff
  texts := canonical_injective.eq_iff
  onto k := ⟨k.path, follow_path k, fun r hr => by rw [← hr, path_follow]; rfl⟩
  seeded := (ofSeed_eq_iterate seed).trans (follow_replicate root seed).symm
  apart := by rw [follow_ofSeed, follow_ofSeed, follow_injective.eq_iff]
  written := by
    rw [canonical_injective.eq_iff, follow_ofSeed, follow_ofSeed, follow_injective.eq_iff]
  fits hseed hlength before hbefore side := by
    have hstart : (ofSeed seed).CountsBelow (2 ^ 64) := hseed
    have hmade := hbefore.length_le
    exact ((hstart.follow before).half side).mono (by omega)

/-- From the largest seed, the counters have room on a path of three splits. -/
theorem corresponds_largest :
    2 ^ 64 - 1 < 2 ^ 64 ∧ [Half.incremented, .deeper, .incremented].length < 2 ^ 127
      ∧ (((ofSeed (2 ^ 64 - 1)).follow [.incremented, .deeper]).half .incremented).CountsBelow
        (2 ^ 128)
      ∧ ((ofSeed (2 ^ 64 - 1)).follow [.incremented, .deeper, .incremented]).canonical
        = "[[null,18446744073709551616],1]" :=
  ⟨by decide, by decide,
    (corresponds (2 ^ 64 - 1) 0 [.incremented, .deeper, .incremented] []).fits (by decide)
      (by decide) [.incremented, .deeper] ⟨[.incremented], rfl⟩ .incremented,
    by decide +kernel⟩

end RandomKey

end Resampler
