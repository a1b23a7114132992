/-!
# JSON values

The values that distributions return, and the descriptions by which they are
told apart, are JSON values. A number is an integer or a binary floating-point
number, and the two never agree: `1` and `1.0` are different values. Integers
are those of 64 bits, signed or unsigned; floating-point numbers are finite,
for JSON has no other.

The members of an object stand in the order of their names, by code point,
and no name occurs twice. `Json.object` brings members into that order.
-/

namespace Resampler

/-- **A JSON number.** -/
inductive JsonNumber where
  /-- An integer that fits 64 bits, signed or unsigned. -/
  | integer (value : Int) (inRange : -9223372036854775808 ≤ value ∧ value < 18446744073709551616)
  /-- A finite floating-point number. -/
  | real (value : Float) (finite : value.isFinite = true)
deriving DecidableEq

/-- **A JSON value.** -/
inductive Json where
  | null
  | bool (value : Bool)
  | number (value : JsonNumber)
  | string (value : String)
  | array (items : List Json)
  | objectOf (members : List (String × Json))

namespace JsonNumber

/-- Equality as numbers: an integer never equals a floating-point number, and
the two floating-point zeros are equal. -/
def same : JsonNumber → JsonNumber → Bool
  | .integer a _, .integer b _ => a = b
  | .real a _, .real b _ => a == b
  | _, _ => false

/-- A finite floating-point number equals itself; only what is no number does
not. -/
theorem beq_self_of_isFinite {x : Float} (h : x.isFinite = true) :
    (x == x) = true := by
  show (x.toModel.unpack.compare x.toModel.unpack == some .eq) = true
  change x.toModel.unpack.isFinite = true at h
  generalize x.toModel.unpack = y at h ⊢
  cases y with
  | notANumber => cases h
  | infinity sign => cases h
  | zero sign => rfl
  | finite sign m e =>
    have hm : compare m m = .eq := Std.ReflCmp.compare_self
    have he : compare e e = .eq := Std.ReflCmp.compare_self
    cases sign with
    | positive =>
      show (some ((compare e e).then (compare m m)) == some .eq) = true
      rw [hm, he]
      rfl
    | negative =>
      show (some ((compare e e).then (compare m m)).swap == some .eq) = true
      rw [hm, he]
      rfl

theorem same_self (n : JsonNumber) : n.same n = true := by
  cases n with
  | integer value inRange => exact decide_eq_true rfl
  | real value finite => exact beq_self_of_isFinite finite

/-- The number as a floating-point number, the nearest if it is an integer. -/
def toFloat : JsonNumber → Float
  | .integer (.ofNat n) _ => n.toUInt64.toFloat
  | .integer (.negSucc n) _ => -(n + 1).toUInt64.toFloat
  | .real x _ => x

end JsonNumber

namespace Json

instance : Inhabited Json := ⟨.null⟩

/-- An integer as a value; `null` if it does not fit 64 bits. -/
def ofInt (i : Int) : Json :=
  if h : -9223372036854775808 ≤ i ∧ i < 18446744073709551616 then .number (.integer i h) else .null

/-- A natural number as a value; `null` if it does not fit 64 bits. -/
def ofNat (n : Nat) : Json := ofInt n

/-- A floating-point number as a value; `null` if it is not finite. -/
def ofFloat (x : Float) : Json :=
  if h : x.isFinite = true then .number (.real x h) else .null

/-- Put a member among members that are in order; a member of the same name
gives way. -/
def insertMember (name : String) (value : Json) :
    List (String × Json) → List (String × Json)
  | [] => [(name, value)]
  | (name', value') :: rest =>
    if name < name' then (name, value) :: (name', value') :: rest
    else if name = name' then (name, value) :: rest
    else (name', value') :: insertMember name value rest

/-- Put members one after the other among members that are in order. -/
def insertMembers (members : List (String × Json)) :
    List (String × Json) → List (String × Json)
  | [] => members
  | (name, value) :: rest =>
    insertMembers (insertMember name value members) rest

/-- **The object with the given members**, in any order; of a repeated name
the last value counts. -/
def object (members : List (String × Json)) : Json :=
  .objectOf (insertMembers [] members)

/-- The member of an object under a name. -/
def member? (name : String) : Json → Option Json
  | .objectOf members => members.lookup name
  | _ => none

/-- The text of a string value. -/
def string? : Json → Option String
  | .string s => some s
  | _ => none

/-- The value of an integer that is not negative. -/
def nat? : Json → Option Nat
  | .number (.integer (.ofNat n) _) => some n
  | _ => none

mutual

/-- **Equality of values**, which is equality but for the two floating-point
zeros. -/
def same : Json → Json → Bool
  | .null, .null => true
  | .bool a, .bool b => a = b
  | .number a, .number b => a.same b
  | .string a, .string b => a = b
  | .array as, .array bs => sameItems as bs
  | .objectOf as, .objectOf bs => sameMembers as bs
  | _, _ => false

/-- Equality of lists of values. -/
def sameItems : List Json → List Json → Bool
  | [], [] => true
  | a :: as, b :: bs => a.same b && sameItems as bs
  | _, _ => false

/-- Equality of lists of members. -/
def sameMembers : List (String × Json) → List (String × Json) → Bool
  | [], [] => true
  | (n, a) :: as, (m, b) :: bs => decide (n = m) && a.same b && sameMembers as bs
  | _, _ => false

end

mutual

/-- **A value equals itself.** -/
theorem same_self : (v : Json) → v.same v = true
  | .null => rfl
  | .bool a => by simp [same]
  | .number n => n.same_self
  | .string a => by simp [same]
  | .array items => sameItems_self items
  | .objectOf members => sameMembers_self members

theorem sameItems_self : (items : List Json) → sameItems items items = true
  | [] => rfl
  | v :: rest => by
    rw [sameItems, same_self v, sameItems_self rest]
    rfl

theorem sameMembers_self : (members : List (String × Json)) →
    sameMembers members members = true
  | [] => rfl
  | (name, v) :: rest => by
    rw [sameMembers, same_self v, sameMembers_self rest]
    simp

end

end Json

end Resampler
