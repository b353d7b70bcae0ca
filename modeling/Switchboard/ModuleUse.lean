namespace Switchboard

structure ModuleUse where
  inUse : Nat := 0
deriving DecidableEq, Inhabited

inductive ModuleUse.Token
  | held
  | dropped
deriving DecidableEq, Inhabited

namespace ModuleUse

def acquire (m : ModuleUse) : Token × ModuleUse := (.held, ⟨m.inUse + 1⟩)

def drop (m : ModuleUse) : Token → ModuleUse
  | .held => ⟨m.inUse - 1⟩
  | .dropped => m

inductive Step
  | acquire
  | drop (place : Nat)
deriving DecidableEq, Inhabited

def apply : Step → ModuleUse × List Token → ModuleUse × List Token
  | .acquire, (m, tokens) =>
    let (token, m) := m.acquire
    (m, tokens ++ [token])
  | .drop place, (m, tokens) =>
    (m.drop (tokens.getD place .dropped), tokens.set place .dropped)

def counts (steps : List Step) : List Nat :=
  go (({} : ModuleUse), []) steps
where
  go (state : ModuleUse × List Token) : List Step → List Nat
    | [] => []
    | s :: rest => let state := apply s state; state.1.inUse :: go state rest

end ModuleUse
end Switchboard
