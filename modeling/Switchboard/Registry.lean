import Switchboard.Id

namespace Switchboard

structure RegistryStats where
  registered : Nat := 0
  unlinked : Nat := 0
  destroyed : Nat := 0
deriving DecidableEq, Inhabited

structure Registry where
  pairs : List PairId := []
  stats : RegistryStats := {}
deriving DecidableEq, Inhabited

namespace Registry

def size (r : Registry) : Nat := r.pairs.length

def occurrences (r : Registry) (p : PairId) : Nat := r.pairs.count p

def contains (r : Registry) (p : PairId) : Bool := r.pairs.contains p

def register (r : Registry) (p : PairId) : Registry :=
  if r.contains p then r
  else ⟨r.pairs ++ [p], { r.stats with registered := r.stats.registered + 1 }⟩

/-- Only a pair that was listed counts as unlinked. -/
def unlink (r : Registry) (p : PairId) : Registry :=
  if r.contains p then
    ⟨r.pairs.filter (· ≠ p), { r.stats with unlinked := r.stats.unlinked + 1 }⟩
  else r

def noteDestroyed (r : Registry) : Registry :=
  { r with stats := { r.stats with destroyed := r.stats.destroyed + 1 } }

end Registry
end Switchboard
