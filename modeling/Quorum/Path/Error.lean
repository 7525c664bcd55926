import Quorum.Text.Quoted

/-!
# Path errors

The ways an object key fails to name a place in the store's layout
`<chain>/<key>/<version>/<file>`, and the sentence that explains each.
-/

namespace Quorum

/-- Why a text is not a valid piece of the store's layout. -/
inductive PathError where
  /-- A chain, key or signer name that is empty, holds a `/`, or is `.` or `..`. -/
  | invalidComponent (component : String)
  /-- An object key with fewer than four segments, or with a segment that is no component. -/
  | tooFewSegments (path : String)
  | nested (path : String)
  /-- A version segment that is not the canonical decimal text of a 64-bit index. -/
  | invalidVersion (path segment : String)
  | reserved (name : String)
  | outsidePrefix (path pre : String)
  deriving DecidableEq, Repr

namespace PathError

def kind : PathError → String
  | .invalidComponent _ => "InvalidComponent"
  | .tooFewSegments _ => "TooFewSegments"
  | .nested _ => "Nested"
  | .invalidVersion _ _ => "InvalidVersion"
  | .reserved _ => "Reserved"
  | .outsidePrefix _ _ => "OutsidePrefix"

def message : PathError → String
  | .invalidComponent s =>
    "invalid path component " ++ Text.quote s ++ ": must be non-empty and must not contain '/'"
  | .tooFewSegments p => p ++ " does not decompose into <chain>/<key>/<version>/<file>"
  | .nested p => p ++ " is nested below a version directory"
  | .invalidVersion p seg =>
    "version segment " ++ Text.quote seg ++ " of " ++ p ++ " is not a canonical integer"
  | .reserved s => Text.quote s ++ " is a reserved file name and cannot name a signer"
  | .outsidePrefix p pre => p ++ " is not under " ++ pre

end PathError

end Quorum
