import Resampler.Distribution.Basic
import Resampler.Random.Normal

/-!
# A catalogue of distributions

Hashed texts, normal numbers and choices among values, distributions that
fail, and those that answer every key alike or panic, with which interpreters
are probed.
-/

namespace Resampler

namespace Distribution

/-- A digit of a hexadecimal text. -/
def hexByte (b : UInt8) : List Char :=
  [Json.hexDigit (b.toNat / 16), Json.hexDigit (b.toNat % 16)]

/-- The text that a seed has under a key: sixteen hexadecimal digits. -/
def hashText (seed : String) (k : RandomKey) : String :=
  let message := Utf8.encode seed.toList ++ k.seedBytes.take 8
  String.ofList (((Sha256.digest message).take 8).flatMap hexByte)

/-- **Hashed texts**: the text of a seed under a key. -/
def uniformHash (seed : String) : Distribution where
  describe := .object [("type", .string "UniformHash"), ("seed", .string seed)]
  sample k := .value (.string (hashText seed k))

/-- The failure of a normal distribution without a finite deviation. -/
def badDeviation : String :=
  "variation parameter is non-finite in (log)normal distribution"

/-- **Normal numbers.** The deviation must be finite; a number that is not is
answered as `null`. -/
def normal (mean std : Float) : Distribution where
  describe :=
    .object [("type", .string "Normal"), ("mean", .ofFloat mean),
      ("std", .ofFloat std)]
  sample k :=
    if std.isFinite then
      .value (.ofFloat (mean + std * (Ziggurat.draw (Keystream.ofKey k)).1))
    else .failure badDeviation

/-- The failure of a choice among nothing. -/
def noChoice : String := "Categorical needs at least one choice"

/-- **A choice among values**, each as likely as the others. -/
def categorical (choices : List Json) : Distribution where
  describe := .object [("type", .string "Categorical"), ("choices", .array choices)]
  sample k :=
    match (Keystream.ofKey k).below? choices.length with
    | none => .failure noChoice
    | some (i, _) => .value (choices.getD i .null)

/-- **A distribution whose every draw fails.** -/
def fallible (message : String) : Distribution where
  describe := .object [("type", .string "Fallible"), ("message", .string message)]
  sample _ := .failure message

/-- A distribution that answers every key with one value, under any
description. -/
def constant (value describe : Json) : Distribution where
  describe := describe
  sample _ := .value value

/-- A distribution whose every draw panics with a text. -/
def panicking (message : String) : Distribution where
  describe := .object [("type", .string "Panic"), ("message", .string message)]
  sample _ := .panic (some message)

/-- A distribution whose every draw panics with a fixed text, or with a
payload that is no text. -/
def panickingWith (text : Bool) : Distribution where
  describe := .object [("type", .string "PanicWith"), ("text", .bool text)]
  sample _ := .panic (if text then some "static payload" else none)

end Distribution

end Resampler
