/-!
# Errors

What can go wrong while draws are interpreted and sites are resampled. An
error names its cause and the site it happened at; its text is made from that
in one place. A cancellation is an error like the others to those it reaches,
but it is never reported as a failure of its own: the resampling of a site
that failed because of a cancellation is itself cancelled.
-/

namespace Resampler

/-- **An error, by its cause.** -/
inductive Error where
  /-- A draw came to the end of its way without a random key. -/
  | missingKey (site : String)
  /-- A draw left the chain unanswered. -/
  | noDelegate (site : String)
  /-- An interpreter was to be linked into a chain twice. -/
  | alreadyLinked
  /-- An interpreter was to be installed while it is in use. -/
  | reentrant
  /-- A site was drawn twice in one execution. -/
  | duplicateSite (site : String)
  /-- A random key was used up twice. -/
  | keyReused (site : String)
  /-- An observed site was never visited. -/
  | unobservedSite (site : String)
  /-- A site has no value in the trace that is replayed. -/
  | unknownSite (site : String)
  /-- A distribution failed, with the text of its failure. -/
  | distribution (site : String) (cause : String)
  /-- A store failed, with the text of its failure. -/
  | store (cause : String)
  /-- A persisted value could not be read. -/
  | serialization
  /-- The resampling of a site failed, with the error it failed with. -/
  | siteFailed (site : String) (source : Error)
  /-- An observed site did not keep its value. -/
  | observationOverwritten (site : String)
  /-- A unit of work panicked, with the text of its panic. -/
  | panicked (message : String)
  /-- Sampling was cancelled. -/
  | cancelled
deriving DecidableEq, Inhabited

namespace Error

/-- **The text of an error.** What caused it is told apart from it. -/
def message : Error → String
  | .missingKey site =>
    "draw at site `" ++ site ++ "` reached Standard without a random key, "
      ++ "try stacking a ThreadRandomKey"
  | .noDelegate site =>
    "draw at site `" ++ site ++ "` fell off the end of the interpreter chain"
  | .alreadyLinked => "interpreter is already linked into this chain"
  | .reentrant =>
    "interpreters are not reentrant: the same instance cannot be nested"
  | .duplicateSite site =>
    "site `" ++ site ++ "` was drawn twice in one execution"
  | .keyReused site =>
    "random key for site `" ++ site ++ "` was consumed more than once"
  | .unobservedSite site =>
    "observed site `" ++ site ++ "` was never visited by the program"
  | .unknownSite site =>
    "site `" ++ site ++ "` was not recorded in the replayed trace"
  | .distribution site _ => "distribution at site `" ++ site ++ "` failed"
  | .store _ => "key-value store failure"
  | .serialization => "could not encode or decode a cached value"
  | .siteFailed site _ => "resampling site `" ++ site ++ "` failed"
  | .observationOverwritten site =>
    "observed site `" ++ site ++ "` was overwritten during sampling"
  | .panicked message => "unit of work panicked: " ++ message
  | .cancelled => "sampling was cancelled"

/-- **Whether an error is a cancellation**, also one that came through the
resampling of a site. -/
def isCancelled : Error → Bool
  | .cancelled => true
  | .siteFailed _ source => source.isCancelled
  | _ => false

/-- **Whether an error is about a key used twice**, also one that came through
the resampling of a site. -/
def isReuse : Error → Bool
  | .keyReused _ => true
  | .siteFailed _ source => source.isReuse
  | _ => false

end Error

end Resampler
