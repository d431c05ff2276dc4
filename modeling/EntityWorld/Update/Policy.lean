namespace EntityWorld

/-- How many passes an update makes: a single one, or one more for every
    ambient state that is queued, until none is left. -/
inductive Strategy where
  | single
  | recursive
deriving DecidableEq

def Strategy.text : Strategy → String
  | single => "Single"
  | recursive => "Recursive"

/-- Whether an update visits inactive entities or passes them by. -/
inductive InactiveHandling where
  | visit
  | passBy
deriving DecidableEq

def InactiveHandling.text : InactiveHandling → String
  | visit => "Include"
  | passBy => "Ignore"

/-- How updates run, and the seed of the keys. -/
structure Config where
  seed : UInt32 := 0
  strategy : Strategy := .single
  inactive : InactiveHandling := .visit

end EntityWorld
