import UsacKernel.Interface.LimitMap

/-!
# The registry as a map with insertion times

The map of `UsacKernel.Interface.LimitMap`, and for each pid the critical section that put
it in. A pid that is in the map keeps its time when its limit is changed, and loses it
when it is removed. This is a specification of the order of the entries: the newer of two
is the one with the later time.
-/

set_option autoImplicit false

namespace UsacKernel.Interface

open UsacKernel.Computation UsacKernel.Model

/-- The map, the number of critical sections so far, and the times of the entries. -/
structure TimedMap where
  limits : LimitMap
  clock : ℕ
  since : PidT → ℕ

def TimedMap.empty : TimedMap := ⟨LimitMap.empty, 0, fun _ => 0⟩

/-- The map after a critical section. -/
def TimedMap.next (s : TimedMap) (limits : LimitMap) : TimedMap where
  limits := limits
  clock := s.clock + 1
  since := fun pid => if (s.limits pid).isSome then s.since pid else s.clock

/-- The map specification, with times. -/
def timedMapObject : LockedObject TimedMap (LimiterCall × Answers) MapReply MapReply where
  enter := limitMapObject.enter
  critical i s :=
    ((limitMapObject.critical i s.limits).1, s.next (limitMapObject.critical i s.limits).2)
  leave := limitMapObject.leave

end UsacKernel.Interface
