import Resampler.OrderedMap
import Resampler.Distribution.Basic

/-!
# Sites and traces

A site is a named request for a value: a draw from a distribution, or an
observation, which brings its value along. A trace maps the names of the
sites that an execution visited to what they were answered, in the order of
the visits.
-/

namespace Resampler

/-- **A named request for a value.** -/
structure Site where
  /-- The name. -/
  name : String
  /-- The distribution to draw from. -/
  distribution : Distribution
  /-- The value of an observation. -/
  observed : Option Json

namespace Site

/-- A draw from a distribution. -/
def drawn (name : String) (d : Distribution) : Site := ⟨name, d, none⟩

/-- An observation of a value. -/
def seen (name : String) (d : Distribution) (value : Json) : Site :=
  ⟨name, d, some value⟩

/-- What the distribution of the site answers a key. -/
def sample (site : Site) (k : RandomKey) : Outcome String Json :=
  site.distribution.sample k

end Site

/-- **What a trace knows of a site.** -/
structure TraceNode where
  /-- The distribution that the program asked for. -/
  distribution : Distribution
  /-- The key that the request came with. -/
  key : Option RandomKey
  /-- The answer. -/
  value : Json
  /-- Whether the program observed the value. -/
  observed : Bool

/-- **The answered sites of an execution**, by name, in the order of the
visits. -/
abbrev Trace := OrderedMap String TraceNode

namespace Trace

/-- The values of the sites. -/
def assignment (t : Trace) : OrderedMap String Json :=
  t.map fun _ node => node.value

end Trace

end Resampler
