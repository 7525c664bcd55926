import Quorum.Coordinate.Request

/-!
# Removing objects

Objects are removed one at a time, and each removal is confirmed by waiting until the store no
longer shows the object before the next one starts. A run of removals that stops part way reports
what it removed, what remains, and why it stopped.
-/

namespace Quorum

/-- Bounds on waiting for the store. -/
structure Settings where
  deleteTimeout : Duration
  pollInterval : Duration
  deriving DecidableEq, Repr

/-- Where a run of removals stopped: what it removed, what remains, and why. -/
structure Stopped where
  removed : List String
  remaining : List String
  cause : Fault

namespace Op

def removeOne (s : Settings) (path : String) : Op Unit := do
  store (.delete path)
  waitUntilAbsent path s.deleteTimeout s.pollInterval

/-- Removes `paths` in order after `removed`, stopping at the first failure. -/
def removeEach (s : Settings) (removed : List String) :
    List String → Program Coordination (Option Stopped)
  | [] => .pure none
  | p :: rest => (removeOne s p).run.bind fun
    | .error f => .pure (some ⟨removed, p :: rest, f⟩)
    | .ok () => removeEach s (removed ++ [p]) rest

/-- Removes `paths` in order. A failure after at least one removal is a partial cleanup of
`pre`; a failure of the first removal is reported as it is. -/
def removeAll (s : Settings) (pre : String) (paths : List String) : Op Unit :=
  ExceptT.mk ((removeEach s [] paths).bind fun
    | none => .pure (.ok ())
    | some st =>
      .pure (.error (if st.removed.isEmpty then st.cause
        else .partialCleanup pre st.removed st.remaining st.cause)))

end Op

end Quorum
