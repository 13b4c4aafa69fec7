import ModuleWiring.Candidate.Incompatible

/-!
# Why a resolver refuses
-/

namespace ModuleWiring

/-- What a resolver cannot do in its present state, or with a generation in
its. -/
inductive IllegalState where
  | notStarted
  | alreadyStarted
  | alreadyTracked (id : GenerationId)
  | notInstalled (generation : Generation) (state : State)
  | notResolved (generation : Generation)
  deriving DecidableEq, Repr

def IllegalState.message : IllegalState → String
  | .notStarted => "resolver is not started"
  | .alreadyStarted => "resolver is already started"
  | .alreadyTracked id => "generation " ++ id.render ++ " is already tracked"
  | .notInstalled generation state =>
      generation.render ++ " is " ++ state.name ++
        ", only installed generations can be resolved"
  | .notResolved generation =>
      generation.render ++
        " must be resolved before packages can be imported dynamically"

/-- Why a resolver gives no answer. -/
inductive ResolverError where
  | illegalState (fault : IllegalState)
  | unknownGeneration (id : GenerationId)
  | noSolution (target : Generation)
  | incompatible (conflict : Incompatible)
  deriving DecidableEq, Repr

def ResolverError.message : ResolverError → String
  | .illegalState fault => "Illegal resolver state: " ++ fault.message
  | .unknownGeneration id =>
      "Generation " ++ id.render ++ " is not tracked by this resolver"
  | .noSolution target =>
      "Could not resolve " ++ target.render ++
        ": no consistent wiring exists"
  | .incompatible conflict => conflict.message

end ModuleWiring
