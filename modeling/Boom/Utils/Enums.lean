/-! # Surveys -/

namespace Boom.Utils

inductive Survey where
  | ztf
  | lsst
  | decam
  | winter
deriving DecidableEq, Repr, Ord

end Boom.Utils
