import Resampler.Program.Script

/-!
# Where a resampled site takes its value from

A local posterior says, for a site and the trace as it stands, from which
distribution the site is resampled. The simplest takes the distribution that
the site was last drawn from.
-/

namespace Resampler

/-- **The distribution a site is resampled from**, given the trace. -/
abbrev Posterior := String → Trace → Except Error Distribution

namespace Posterior

/-- **Resample every site from its prior**, the distribution in the trace. -/
def prior : Posterior := fun site trace =>
  match trace.get? site with
  | some node => .ok node.distribution
  | none => .error (.unknownSite site)

/-- What a site is to be resampled from in the place of its prior: a
distribution, in which the sites of the trace are the variables, or nothing,
and then it fails. -/
abbrev Replacement := Except Error Script.DistributionTerm

/-- The distribution of a replacement, given the trace. -/
def Replacement.distribution (trace : Trace) :
    Replacement → Except Error Distribution
  | .error e => .error e
  | .ok term =>
    .ok (term.distribution fun x =>
      ((trace.get? x).map TraceNode.value).getD .null)

/-- **Resample some sites from replacements**, and the others as before. The
first replacement of a site counts. -/
def replacing (replacements : List (String × Replacement)) (other : Posterior) :
    Posterior := fun site trace =>
  match replacements.lookup site with
  | some r => r.distribution trace
  | none => other site trace

end Posterior

end Resampler
