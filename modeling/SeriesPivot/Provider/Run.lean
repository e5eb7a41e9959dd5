import SeriesPivot.Provider.Basic

/-!
# Runs of a provider

The operations of a provider as values, and what happens when a list of them is performed one after
another. `Outcome.toJson` shows an answer; an answer without content is the text `ok`.
-/

namespace SeriesPivot

/-- What is asked of a provider. -/
inductive Operation where
  | query (q : QueryDescriptor)
  | plan (q : QueryDescriptor)
  | insert (collection : CollectionRef) (timeField : Option String) (documents : List Json)
  | stats (collection : CollectionRef)
  | drop (collection : CollectionRef)
  | purge
  | check
  | close
  | connected

/-- What a provider answers. -/
inductive Outcome where
  | response (r : QueryResponse)
  | plan (r : PlanResponse)
  | inserted (count : Nat)
  | stats (s : CollectionStats)
  | connected (b : Bool)
  | done
  deriving DecidableEq, Repr

/-- An answer as a value. -/
def Outcome.toJson : Outcome → Json
  | .response r => r.toJson
  | .plan r => r.toJson
  | .inserted count => .ofInt count
  | .stats s => s.toJson
  | .connected b => .bool b
  | .done => .string "ok"

namespace Provider

/-- Perform an operation, at a time in epoch milliseconds. -/
def perform (now : Int) (p : Provider) : Operation → Step Outcome
  | .query q => (p.query q).map .response
  | .plan q => (p.plan q).map .plan
  | .insert collection timeField documents =>
    (p.insert collection timeField now documents).map .inserted
  | .stats collection => (p.stats collection).map .stats
  | .drop collection => (p.dropCollection collection).map fun _ => .done
  | .purge => p.purge.map fun _ => .done
  | .check => p.check.map fun _ => .done
  | .close => ⟨.ok .done, [], p.close⟩
  | .connected => ⟨.ok (.connected p.isConnected), [], p⟩

/-- Perform operations one after another. -/
def run (now : Int) (p : Provider) : List Operation → List (Step Outcome)
  | [] => []
  | operation :: rest =>
    let step := p.perform now operation
    step :: run now step.provider rest

end Provider

end SeriesPivot
