namespace Switchboard

structure ChannelId where
  number : Nat
deriving DecidableEq, Inhabited

structure PairId where
  number : Nat
deriving DecidableEq, Inhabited

end Switchboard
